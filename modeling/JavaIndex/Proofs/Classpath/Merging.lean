import JavaIndex.Proofs.Classpath.Loading
import JavaIndex.Proofs.Classpath.Memory

/-! Tables folded into one another. What a table answers is settled by its classes and its packages, since what it
remembers is never seen. So a table that another one is merged into answers as if everything had been put into it one
after the other, and it does not matter which of several merges comes first. -/
namespace JavaIndex.ExternalTable

/-! Questions. -/

/-- What can be asked of a table. -/
inductive Query where
  | findClass (name : String)
  | findConstant (c : ClassInfo) (name : String)
  | findName (name : String) (kind : LookupKind)
  | hasPackage (name : String)
  | isResourcePackage (name : String)
  | size

/-- What a table says to it. -/
inductive Reply where
  | ofClass (found : Option ClassInfo)
  | ofConstant (found : Option FieldInfo)
  | ofName (found : Option Symbol)
  | holds (yes : Bool)
  | count (n : Nat)

/-- The reply made anew. -/
def reply (t : ExternalTable) : Query → Reply
  | .findClass name => .ofClass (t.class? name)
  | .findConstant c name => .ofConstant (t.constant? c name)
  | .findName name kind => .ofName (t.lookup? name kind)
  | .hasPackage name => .holds (t.hasPackage name)
  | .isResourcePackage name => .holds (t.isResourcePackage name)
  | .size => .count t.size

/-- The reply with what is remembered, and the table after that. -/
def ask (t : ExternalTable) : Query → Reply × ExternalTable
  | .findClass name =>
    let (found, t) := t.recallClass name
    (.ofClass found, t)
  | .findConstant c name =>
    let (found, t) := t.recallConstant c name
    (.ofConstant found, t)
  | .findName name kind =>
    let (found, t) := t.recallName name kind
    (.ofName found, t)
  | .hasPackage name => (.holds (t.hasPackage name), t)
  | .isResourcePackage name => (.holds (t.isResourcePackage name), t)
  | .size => (.count t.size, t)

/-- The replies to some questions one after the other, and the table after them. -/
def askAll (t : ExternalTable) : List Query → List Reply × ExternalTable
  | [] => ([], t)
  | q :: rest =>
    let (first, t) := t.ask q
    let (replies, t) := t.askAll rest
    (first :: replies, t)

/-- No questions tell the two tables apart. -/
def Indistinguishable (t u : ExternalTable) : Prop := ∀ asked, (t.askAll asked).1 = (u.askAll asked).1

variable {t u : ExternalTable}

theorem ask_recalls (faithful : t.Faithful) (q : Query) : t.Recalls (t.reply q) (t.ask q) := by
  cases q with
  | findClass name => exact (recallClass_recalls faithful name).map Reply.ofClass
  | findConstant c name => exact (recallConstant_recalls faithful c name).map Reply.ofConstant
  | findName name kind => exact (recallName_recalls faithful name kind).map Reply.ofName
  | hasPackage name => exact .unchanged faithful _
  | isResourcePackage name => exact .unchanged faithful _
  | size => exact .unchanged faithful _

theorem reply_forgetful (t : ExternalTable) (q : Query) : t.forgetful.reply q = t.reply q := by
  cases q <;> rfl

theorem askAll_recalls (faithful : t.Faithful) (asked : List Query) :
    t.Recalls (asked.map t.reply) (t.askAll asked) := by
  induction asked generalizing t with
  | nil => exact .unchanged faithful []
  | cons q rest ih =>
    have first := ask_recalls faithful q
    have later := ih first.faithful
    have same : (t.ask q).2.reply = t.reply := by
      funext q'
      rw [← reply_forgetful, first.kept, reply_forgetful]
    rw [same] at later
    have both := first.trans later
    rw [List.map_cons, ← first.answer]
    exact both.map ((t.ask q).1 :: ·)

/-! Tables that agree. -/

namespace Agrees

variable (h : t.Agrees u)

theorem of_kept (kept : u.forgetful = t.forgetful) : u.Agrees t := by
  obtain ⟨classes, packages, resourcePackages, -⟩ := ExternalTable.mk.inj kept
  exact ⟨fun _ => by rw [classes], fun _ => by rw [hasPackage, packages, hasPackage],
    fun _ => by rw [isResourcePackage, resourcePackages, isResourcePackage]⟩

include h

theorem size : t.size = u.size :=
  (Std.TreeMap.Equiv.of_forall_constGet?_eq h.classes).size_eq

theorem resource? (name : String) : t.resource? name = u.resource? name := by
  simp only [ExternalTable.resource?, h.resourcePackages]

theorem class? (name : String) : t.class? name = u.class? name := by
  rw [ExternalTable.class?, ExternalTable.class?, h.classes, h.resource?]

theorem constant? (c : ClassInfo) (name : String) : t.constant? c name = u.constant? c name := by
  rw [ExternalTable.constant?, ExternalTable.constant?, h.resource?]

theorem packageSymbol? (name : String) : t.packageSymbol? name = u.packageSymbol? name := by
  rw [ExternalTable.packageSymbol?, ExternalTable.packageSymbol?, h.packages]

theorem member? (name : String) : t.member? name = u.member? name := by
  simp only [ExternalTable.member?, h.class?, h.constant?]

theorem lookup? (name : String) (kind : LookupKind) : t.lookup? name kind = u.lookup? name kind := by
  cases kind <;> simp only [ExternalTable.lookup?, h.class?, h.packageSymbol?, h.member?]

/-- Nothing that is asked depends on more than the classes and the packages. -/
theorem reply (q : Query) : t.reply q = u.reply q := by
  cases q with
  | findClass name => exact congrArg Reply.ofClass (h.class? name)
  | findConstant c name => exact congrArg Reply.ofConstant (h.constant? c name)
  | findName name kind => exact congrArg Reply.ofName (h.lookup? name kind)
  | hasPackage name => exact congrArg Reply.holds (h.packages name)
  | isResourcePackage name => exact congrArg Reply.holds (h.resourcePackages name)
  | size => exact congrArg Reply.count h.size

/-- Tables that agree are told apart by no questions, whatever they remember. -/
theorem indistinguishable (faithful : t.Faithful) (faithful' : u.Faithful) : Indistinguishable t u := by
  intro asked
  rw [(askAll_recalls faithful asked).answer, (askAll_recalls faithful' asked).answer]
  exact List.map_congr_left fun q _ => h.reply q

end Agrees

/-! Merging. -/

theorem classes_merge (t u : ExternalTable) (name : String) :
    (t.merge u).classes[name]? = u.classes[name]?.or t.classes[name]? := by
  change (t.classes.insertMany u.classes.toList)[name]? = _
  cases found : u.classes[name]? with
  | some c =>
    have listed : (name, c) ∈ u.classes.toList := Std.TreeMap.mem_toList_iff_getElem?_eq_some.mpr found
    rw [Std.TreeMap.getElem?_insertMany_list_of_mem Std.ReflCmp.compare_self Std.TreeMap.distinct_keys_toList listed,
      Option.some_or]
  | none =>
    have absent : (u.classes.toList.map Prod.fst).contains name = false := by
      rw [List.contains_eq_mem, decide_eq_false_iff_not, List.mem_map]
      rintro ⟨⟨_, c⟩, listed, rfl⟩
      rw [Std.TreeMap.mem_toList_iff_getElem?_eq_some, found] at listed
      cases listed
    rw [Std.TreeMap.getElem?_insertMany_list_of_contains_eq_false absent, Option.none_or]

theorem hasPackage_merge (t u : ExternalTable) (p : String) :
    (t.merge u).hasPackage p = (t.hasPackage p || u.hasPackage p) := by
  change (t.packages.insertMany u.packages.toList).contains p = _
  rw [Std.TreeSet.contains_insertMany_list, Std.TreeSet.contains_toList, hasPackage, hasPackage]

theorem isResourcePackage_merge (t u : ExternalTable) (p : String) :
    (t.merge u).isResourcePackage p = (t.isResourcePackage p || u.isResourcePackage p) := by
  change (t.resourcePackages.insertMany u.resourcePackages.toList).contains p = _
  rw [Std.TreeSet.contains_insertMany_list, Std.TreeSet.contains_toList, isResourcePackage, isResourcePackage]

theorem Gains.of_agrees {t' u' : ExternalTable} {cs : List ClassInfo} {resources : List String}
    (h : t'.Gains u' cs resources) (base : t'.Agrees t) (result : u.Agrees u') : t.Gains u cs resources where
  classes name := by rw [result.classes, h.classes, base.classes]
  packages p := by rw [result.packages, h.packages, base.packages]
  resourcePackages p := by rw [result.resourcePackages, h.resourcePackages, base.resourcePackages]

/-- What a table was given at first, another one is given by merging. -/
theorem Gains.merge {cs : List ClassInfo} {resources : List String} (h : empty.Gains u cs resources) :
    t.Gains (t.merge u) cs resources where
  classes name := by
    have nothing : empty.classes[name]? = none := Std.TreeMap.getElem?_emptyc
    rw [classes_merge, h.classes, nothing, Option.or_none]
  packages p := by
    have nothing : empty.hasPackage p = false := Std.TreeSet.contains_emptyc
    rw [hasPackage_merge, Bool.or_eq_true, h.packages, nothing]
    simp only [Bool.false_eq_true, false_or]
  resourcePackages p := by
    have nothing : empty.isResourcePackage p = false := Std.TreeSet.contains_emptyc
    rw [isResourcePackage_merge, Bool.or_eq_true, h.resourcePackages, nothing]
    simp only [Bool.false_eq_true, false_or]

theorem merge_assoc_agrees (t u v : ExternalTable) : ((t.merge u).merge v).Agrees (t.merge (u.merge v)) where
  classes name := by simp only [classes_merge, Option.or_assoc]
  packages p := by simp only [hasPackage_merge, Bool.or_assoc]
  resourcePackages p := by simp only [isResourcePackage_merge, Bool.or_assoc]

/-! Loading. -/

theorem empty_faithful : empty.Faithful := empty.forgetful_faithful

theorem Faithful.insertAll (faithful : t.Faithful) (cs : List ClassInfo) : (cs.foldl ExternalTable.insert t).Faithful :=
  List.foldlRecOn cs _ faithful fun _ h c _ => h.insert c

theorem Faithful.load (faithful : t.Faithful) (m : Manifest) : (t.load m).2.Faithful := by
  obtain placed | ⟨before, c, after, split, misplaced, placed⟩ := placed_or_split m.classes
  · obtain ⟨cs, described⟩ := forall₂_describes placed
    rw [load_whole described]
    exact List.foldlRecOn m.resourcePackages _ (faithful.insertAll cs) fun _ h r _ => h.addResourcePackage r
  · obtain ⟨cs, described⟩ := forall₂_describes placed
    rw [load_until split misplaced described]
    exact faithful.insertAll cs

theorem Outside.merge (outside : t.Outside) (others : u.Outside) : (t.merge u).Outside := by
  intro name c found
  rw [classes_merge] at found
  obtain found | ⟨-, found⟩ := Option.or_eq_some_iff.mp found
  · exact others name c found
  · exact outside name c found

/-- Whatever has been done with a table: a description loaded into it and another one loaded into a second table, which
is then merged into the first, are answered for as the two descriptions loaded one after the other, whatever the
tables were asked in between. And of two merges either may come first. -/
theorem merge_loads (t : ExternalTable) (done : List Request) :
    let reached := t.forgetful.serveAll done
    (∀ (m m' : Manifest) (asked early late : List Query),
      Indistinguishable (((reached.load m).2.askAll asked).2.merge (((empty.askAll early).2.load m').2.askAll late).2)
        ((reached.load m).2.load m').2) ∧
      ∀ u v : ExternalTable, Indistinguishable ((reached.merge u).merge v) (reached.merge (u.merge v)) := by
  intro reached
  have faithful : reached.Faithful := serveAll_faithful t.forgetful_faithful done
  refine ⟨fun m m' asked early late => ?_, fun u v => ?_⟩
  · obtain ⟨cs, resources, gains⟩ := load_gains m'
    have first := askAll_recalls (faithful.load m) asked
    have fresh := askAll_recalls empty_faithful early
    have second := askAll_recalls (fresh.faithful.load m') late
    have given := (gains _).of_agrees (.of_kept fresh.kept) (.of_kept second.kept)
    have agrees := given.merge.agrees (gains (reached.load m).2) (.of_kept first.kept)
    exact agrees.indistinguishable (first.faithful.merge _) ((faithful.load m).load m')
  · exact (merge_assoc_agrees reached u v).indistinguishable ((faithful.merge u).merge v) (faithful.merge (u.merge v))

end JavaIndex.ExternalTable
