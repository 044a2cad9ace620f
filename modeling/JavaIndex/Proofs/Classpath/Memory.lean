import JavaIndex.Classpath.Table

/-! What a table remembers is never seen. A remembered entry is what would be made anew, whatever has been put
into the table since. So every look-up answers as if nothing were remembered, and what is remembered only
grows. -/
namespace JavaIndex

theorem Lists.total_set (ns : List Nat) (i new : Nat) (inside : i < ns.length) :
    total (ns.set i new) + ns[i] = total ns + new := by
  induction ns generalizing i with
  | nil => cases inside
  | cons n ns ih =>
    cases i with
    | zero =>
      simp only [List.set_cons_zero, total, List.getElem_cons_zero]
      omega
    | succ i =>
      have rest := ih i (Nat.lt_of_succ_lt_succ inside)
      simp only [List.set_cons_succ, total, List.getElem_cons_succ]
      omega

namespace ResourceCache

variable {count : Nat}

theorem get?_empty (place : String → Fin count) (key : String) : (empty place).get? key = none := by
  simp [get?, shard, empty]

theorem get?_put (c : ResourceCache count) (key other : String) (entry : ResourceEntry) :
    (c.put key entry).get? other = if key = other then some entry else c.get? other := by
  have shards : (c.put key entry).shard other =
      if c.place key = c.place other then (c.shard key).insert key entry else c.shard other := by
    simp only [put, shard, Fin.getElem_fin, Vector.getElem_set, Fin.val_inj]
  rw [get?, shards]
  by_cases same : key = other
  · simp [same]
  · by_cases near : c.place key = c.place other
    · simp [same, near, Std.TreeMap.getElem?_insert, get?, shard]
    · simp [same, near, get?]

/-- A key that has no entry gets one. -/
theorem size_put {c : ResourceCache count} {key : String} (new : c.get? key = none) (entry : ResourceEntry) :
    (c.put key entry).size = c.size + 1 := by
  have absent : (c.shard key).contains key = false := by
    rw [Std.TreeMap.contains_eq_isSome_getElem?, Option.isSome_eq_false_iff, Option.isNone_iff_eq_none]
    exact new
  have grown : ((c.shard key).insert key entry).size = (c.shard key).size + 1 := by
    simp [Std.TreeMap.size_insert, absent]
  have inside : (c.place key).val < (c.shards.toList.map Std.TreeMap.size).length := by simp
  have exchanged := Lists.total_set _ _ ((c.shard key).insert key entry).size inside
  simp only [List.getElem_map, Vector.getElem_toList] at exchanged
  simp only [size, put, Vector.toList_set, List.map_set]
  simp only [shard, Fin.getElem_fin] at grown exchanged ⊢
  omega

end ResourceCache

namespace ExternalTable

/-- The same table, which remembers nothing. -/
def forgetful (t : ExternalTable) : ExternalTable := { t with cache := .empty t.cache.place }

/-- Every entry that the table remembers is the one that it would make. -/
def Faithful (t : ExternalTable) : Prop :=
  ∀ key entry, t.cache.get? key = some entry → t.resource? key = some entry

/-- A look-up that remembers gives the plain answer, and changes nothing but what is remembered. -/
structure Recalls {α : Type} (t : ExternalTable) (plain : α) (result : α × ExternalTable) : Prop where
  answer : result.1 = plain
  kept : result.2.forgetful = t.forgetful
  faithful : result.2.Faithful
  grown : t.cache.size ≤ result.2.cache.size

variable {t u : ExternalTable}

theorem forgetful_faithful (t : ExternalTable) : t.forgetful.Faithful := by
  intro key entry found
  rw [forgetful, ResourceCache.get?_empty] at found
  cases found

/-! Whatever is put in, the entries that could be made before can be made afterwards. -/

theorem Faithful.carry (faithful : t.Faithful) (cache : u.cache = t.cache)
    (more : ∀ p, t.isResourcePackage p = true → u.isResourcePackage p = true) : u.Faithful := by
  intro key entry found
  rw [cache] at found
  obtain ⟨parts, split, made⟩ := Option.bind_eq_some_iff.mp (faithful key entry found)
  by_cases registered : t.isResourcePackage parts.package = true
  · rw [if_pos registered] at made
    exact Option.bind_eq_some_iff.mpr ⟨parts, split, by rw [if_pos (more _ registered), made]⟩
  · rw [if_neg registered] at made
    cases made

theorem Faithful.insert (faithful : t.Faithful) (c : ClassInfo) : (t.insert c).Faithful :=
  faithful.carry rfl fun _ registered => registered

theorem Faithful.addResourcePackage (faithful : t.Faithful) (package : String) :
    (t.addResourcePackage package).Faithful := by
  refine faithful.carry (u := t.addResourcePackage package) rfl fun p registered => ?_
  change (t.resourcePackages.insert package).contains p = true
  rw [Std.TreeSet.contains_insert, Bool.or_eq_true]
  exact .inr registered

theorem Faithful.merge (faithful : t.Faithful) (other : ExternalTable) : (t.merge other).Faithful := by
  refine faithful.carry (u := t.merge other) rfl fun p registered => ?_
  change (t.resourcePackages.insertMany other.resourcePackages.toList).contains p = true
  rw [Std.TreeSet.contains_insertMany_list, Bool.or_eq_true]
  exact .inl registered

/-! Look-ups. -/

theorem Recalls.unchanged {α : Type} (faithful : t.Faithful) (plain : α) : t.Recalls plain (plain, t) :=
  ⟨rfl, rfl, faithful, Nat.le_refl _⟩

theorem Recalls.map {α β : Type} {plain : α} {result : α × ExternalTable} (h : t.Recalls plain result)
    (f : α → β) : t.Recalls (f plain) (f result.1, result.2) :=
  ⟨congrArg f h.answer, h.kept, h.faithful, h.grown⟩

/-- Two look-ups one after the other. -/
theorem Recalls.trans {α β : Type} {first : α} {second : β} {result : α × ExternalTable}
    {result' : β × ExternalTable} (h : t.Recalls first result) (h' : result.2.Recalls second result') :
    t.Recalls second result' :=
  ⟨h'.answer, h'.kept.trans h.kept, h'.faithful, Nat.le_trans h.grown h'.grown⟩

theorem recallResource_recalls (faithful : t.Faithful) (name : String) :
    t.Recalls (t.resource? name) (t.recallResource name) := by
  rw [recallResource, resource?]
  cases split : Resources.split? name with
  | none => exact .unchanged faithful none
  | some parts =>
    dsimp only [Option.bind_eq_bind, Option.bind_some]
    by_cases registered : t.isResourcePackage parts.package = true
    · have plain : t.resource? name = Resources.generate? parts := by simp [resource?, split, registered]
      rw [if_pos registered, if_pos registered, ResourceCache.getOrMake]
      cases known : t.cache.get? name with
      | some entry =>
        have same := faithful name entry known
        rw [plain] at same
        rw [same]
        exact .unchanged faithful (some entry)
      | none =>
        cases made : Resources.generate? parts with
        | none => exact .unchanged faithful none
        | some entry =>
          refine ⟨rfl, rfl, ?_, ?_⟩
          · intro key other found
            change (t.cache.put name entry).get? key = some other at found
            rw [ResourceCache.get?_put] at found
            change t.resource? key = some other
            split at found
            · rename_i same
              rw [← same, plain, made, found]
            · exact faithful key other found
          · change t.cache.size ≤ (t.cache.put name entry).size
            rw [ResourceCache.size_put known]
            omega
    · rw [if_neg registered, if_neg registered]
      exact .unchanged faithful none

theorem recallClass_recalls (faithful : t.Faithful) (name : String) :
    t.Recalls (t.class? name) (t.recallClass name) := by
  rw [recallClass, class?]
  cases t.classes[name]? with
  | some c => exact .unchanged faithful (some c)
  | none => exact (recallResource_recalls faithful name).map (·.bind entryClass?)

theorem recallType_recalls (faithful : t.Faithful) (name : String) :
    t.Recalls (t.lookup? name .type) (t.recallType name) :=
  (recallClass_recalls faithful name).map (·.map ClassInfo.symbol)

theorem recallConstant_recalls (faithful : t.Faithful) (c : ClassInfo) (name : String) :
    t.Recalls (t.constant? c name) (t.recallConstant c name) := by
  rw [recallConstant, constant?]
  split
  · exact (recallResource_recalls faithful _).map (·.bind entryConstant?)
  · exact .unchanged faithful none

/-- Plain look-ups do not ask what is remembered. -/
theorem constant?_kept (same : u.forgetful = t.forgetful) (c : ClassInfo) (name : String) :
    u.constant? c name = t.constant? c name := by
  change u.forgetful.constant? c name = t.forgetful.constant? c name
  rw [same]

theorem member?_kept (same : u.forgetful = t.forgetful) (name : String) : u.member? name = t.member? name := by
  change u.forgetful.member? name = t.forgetful.member? name
  rw [same]

theorem packageSymbol?_kept (same : u.forgetful = t.forgetful) (name : String) :
    u.packageSymbol? name = t.packageSymbol? name := by
  change u.forgetful.packageSymbol? name = t.forgetful.packageSymbol? name
  rw [same]

theorem recallMember_recalls (faithful : t.Faithful) (name : String) :
    t.Recalls (t.member? name) (t.recallMember name) := by
  rw [recallMember, member?]
  cases Dotted.splitLast? name with
  | none => exact .unchanged faithful none
  | some path =>
    obtain ⟨owner, member⟩ := path
    have first := recallClass_recalls faithful owner
    dsimp only [Option.bind_eq_bind, Option.bind_some]
    cases found : t.recallClass owner with
    | mk c u =>
      rw [found] at first
      rw [← first.answer]
      cases c with
      | none => exact first.map fun _ => none
      | some c =>
        dsimp only [Option.bind_some]
        cases declared? c member with
        | some s => exact first.map fun _ => some s
        | none =>
          have second := (recallConstant_recalls first.faithful c member).map (·.map FieldInfo.symbol)
          rw [constant?_kept first.kept] at second
          exact first.trans second

theorem recallName_recalls (faithful : t.Faithful) (name : String) (kind : LookupKind) :
    t.Recalls (t.lookup? name kind) (t.recallName name kind) := by
  cases kind with
  | package => exact .unchanged faithful (t.packageSymbol? name)
  | type => exact recallType_recalls faithful name
  | member => exact recallMember_recalls faithful name
  | any =>
    have first := recallType_recalls faithful name
    rw [recallName]
    change t.Recalls (((t.lookup? name .type).or (t.packageSymbol? name)).or (t.member? name)) _
    cases found : t.recallType name with
    | mk s u =>
      rw [found] at first
      rw [← first.answer]
      cases s with
      | some s => exact first.map fun _ => some s
      | none =>
        rw [← packageSymbol?_kept first.kept, ← member?_kept first.kept]
        dsimp only [Option.none_or]
        cases u.packageSymbol? name with
        | some s => exact first.map fun _ => some s
        | none => exact first.trans (recallMember_recalls first.faithful name)

/-! Whole sequences of operations. -/

/-- What can be done with a table, and what can be asked of it. -/
inductive Request where
  | insert (c : ClassInfo)
  | addResourcePackage (package : String)
  | merge (other : ExternalTable)
  | findClass (name : String)
  | findConstant (c : ClassInfo) (name : String)
  | findName (name : String) (kind : LookupKind)

/-- What comes of it. -/
inductive Answer where
  | done
  | ofClass (found : Option ClassInfo)
  | ofConstant (found : Option FieldInfo)
  | ofName (found : Option Symbol)

/-- One request, answered with what is remembered. -/
def serve (t : ExternalTable) : Request → Answer × ExternalTable
  | .insert c => (.done, t.insert c)
  | .addResourcePackage package => (.done, t.addResourcePackage package)
  | .merge other => (.done, t.merge other)
  | .findClass name =>
    let (found, t) := t.recallClass name
    (.ofClass found, t)
  | .findConstant c name =>
    let (found, t) := t.recallConstant c name
    (.ofConstant found, t)
  | .findName name kind =>
    let (found, t) := t.recallName name kind
    (.ofName found, t)

/-- The table after some requests. -/
def serveAll (t : ExternalTable) : List Request → ExternalTable
  | [] => t
  | r :: rest => (t.serve r).2.serveAll rest

/-- What one request preserves. -/
theorem serve_faithful (faithful : t.Faithful) (r : Request) :
    (t.serve r).2.Faithful ∧ t.cache.size ≤ (t.serve r).2.cache.size := by
  cases r with
  | insert c => exact ⟨faithful.insert c, Nat.le_refl _⟩
  | addResourcePackage package => exact ⟨faithful.addResourcePackage package, Nat.le_refl _⟩
  | merge other => exact ⟨faithful.merge other, Nat.le_refl _⟩
  | findClass name =>
    have h := recallClass_recalls faithful name
    exact ⟨h.faithful, h.grown⟩
  | findConstant c name =>
    have h := recallConstant_recalls faithful c name
    exact ⟨h.faithful, h.grown⟩
  | findName name kind =>
    have h := recallName_recalls faithful name kind
    exact ⟨h.faithful, h.grown⟩

theorem serveAll_faithful (faithful : t.Faithful) (requests : List Request) :
    (t.serveAll requests).Faithful := by
  induction requests generalizing t with
  | nil => exact faithful
  | cons r rest ih => exact ih (serve_faithful faithful r).1

/-- A request is answered as if nothing had been remembered. -/
theorem serve_forgetful (faithful : t.Faithful) (r : Request) :
    (t.serve r).1 = (t.forgetful.serve r).1 := by
  have fresh := t.forgetful_faithful
  cases r with
  | insert c => rfl
  | addResourcePackage package => rfl
  | merge other => rfl
  | findClass name =>
    exact congrArg Answer.ofClass
      ((recallClass_recalls faithful name).answer.trans (recallClass_recalls fresh name).answer.symm)
  | findConstant c name =>
    exact congrArg Answer.ofConstant
      ((recallConstant_recalls faithful c name).answer.trans (recallConstant_recalls fresh c name).answer.symm)
  | findName name kind =>
    exact congrArg Answer.ofName
      ((recallName_recalls faithful name kind).answer.trans (recallName_recalls fresh name kind).answer.symm)

/-- Whatever has been done with a table and asked of it, the next answer is that of the same table which
remembers nothing, what the table remembers is what it would make, and no less is remembered afterwards. -/
theorem serve_unremembered (t : ExternalTable) (before : List Request) (next : Request) :
    let reached := t.forgetful.serveAll before
    (reached.serve next).1 = (reached.forgetful.serve next).1 ∧
      (∀ key entry, reached.cache.get? key = some entry → reached.resource? key = some entry) ∧
      reached.cache.size ≤ (reached.serve next).2.cache.size := by
  intro reached
  have faithful : reached.Faithful := serveAll_faithful t.forgetful_faithful before
  exact ⟨serve_forgetful faithful next, faithful, (serve_faithful faithful next).2⟩

end ExternalTable
end JavaIndex
