import JavaIndex.Proofs.Environment.Keyed
import Mathlib.Data.List.Nodup

/-! The search through the supertypes of a type. A queue holds the classes whose supertypes have still to be
looked at, and no name gets into it twice. The types in it may grow without end, where a class extends itself
with larger and larger arguments; the names cannot, as there are only so many classes that extend anything. -/
namespace JavaIndex

namespace Environment

variable {env : Environment}

theorem parents_hold {a p : Ancestor} (h : p ∈ env.parents a) : env.Holds p.info := by
  obtain ⟨type, -, found⟩ := List.mem_filterMap.mp h
  exact instance_holds found

/-! What has not been met. -/

section

variable {met : List String} {as : List Ancestor} {a : Ancestor}

theorem unseen_new (h : a ∈ unseen met as) : a.name ∉ met := by
  induction as generalizing met with
  | nil => simp [unseen] at h
  | cons b rest ih =>
    unfold unseen at h
    split at h
    · exact ih h
    · rename_i new
      obtain rfl | h := List.mem_cons.mp h
      · simpa using new
      · exact fun old => ih h (List.mem_cons_of_mem _ old)

theorem unseen_nodup : ((unseen met as).map Ancestor.name).Nodup := by
  induction as generalizing met with
  | nil => simp [unseen]
  | cons b rest ih =>
    unfold unseen
    split
    · exact ih
    · refine List.nodup_cons.mpr ⟨fun h => ?_, ih⟩
      obtain ⟨c, hc, same⟩ := List.mem_map.mp h
      exact unseen_new hc (same ▸ List.mem_cons_self)

/-- Whatever is offered is met from then on. -/
theorem met_or_unseen (met : List String) (h : a ∈ as) :
    a.name ∈ met ∨ a.name ∈ (unseen met as).map Ancestor.name := by
  induction as generalizing met with
  | nil => cases h
  | cons b rest ih =>
    unfold unseen
    split
    · rename_i old
      obtain rfl | h := List.mem_cons.mp h
      · exact .inl (by simpa using old)
      · exact ih met h
    · obtain rfl | h := List.mem_cons.mp h
      · exact .inr List.mem_cons_self
      · obtain old | new := ih (b.name :: met) h
        · obtain same | old := List.mem_cons.mp old
          · exact .inr (List.mem_map.mpr ⟨b, List.mem_cons_self, same.symm⟩)
          · exact .inl old
        · exact .inr (List.mem_cons_of_mem _ new)

/-- Only which names have been met counts. -/
theorem unseen_congr {met met' : List String} (same : ∀ n, n ∈ met ↔ n ∈ met') (as : List Ancestor) :
    unseen met as = unseen met' as := by
  induction as generalizing met met' with
  | nil => rfl
  | cons a rest ih =>
    have here : met.contains a.name = met'.contains a.name := by
      rw [Bool.eq_iff_iff, List.contains_iff_mem, List.contains_iff_mem, same]
    have later : ∀ n, n ∈ a.name :: met ↔ n ∈ a.name :: met' := fun n => by
      rw [List.mem_cons, List.mem_cons, same]
    rw [unseen, unseen, here, ih same, ih later]

theorem unseen_append (met : List String) (as bs : List Ancestor) :
    unseen met (as ++ bs) = unseen met as ++ unseen ((unseen met as).map Ancestor.name ++ met) bs := by
  induction as generalizing met with
  | nil => rfl
  | cons a rest ih =>
    rw [List.cons_append, unseen, unseen]
    split
    · exact ih met
    · rw [ih, List.map_cons, List.cons_append, List.cons_append]
      congr 2
      exact unseen_congr (fun n => by simp [or_left_comm]) bs

theorem unseen_map {f : Ancestor → Ancestor} (names : ∀ a, (f a).name = a.name) (met : List String)
    (as : List Ancestor) : unseen met (as.map f) = (unseen met as).map f := by
  induction as generalizing met with
  | nil => rfl
  | cons a rest ih =>
    rw [List.map_cons, unseen, unseen, names, ih, ih]
    split <;> rfl

end

/-! The search. -/

/-- From a queue and the names met so far, the search passes some classes one after the other until the queue is
empty. The parents of the class that is passed, its superclass before its interfaces, wait behind all others,
unless their names have been met. -/
inductive Passes (env : Environment) : List Ancestor → List String → List Ancestor → Prop
  | done {met} : Passes env [] met []
  | pass {a waiting met passed} :
      Passes env (waiting ++ unseen met (env.parents a))
        ((unseen met (env.parents a)).map Ancestor.name ++ met) passed →
      Passes env (a :: waiting) met (a :: passed)

namespace Passes

variable {waiting passed : List Ancestor} {met met' : List String}

theorem congr (h : env.Passes waiting met passed) (same : ∀ n, n ∈ met ↔ n ∈ met') :
    env.Passes waiting met' passed := by
  induction h generalizing met' with
  | done => exact .done
  | pass _ ih =>
    refine .pass ?_
    rw [← unseen_congr same]
    exact ih fun n => by rw [List.mem_append, List.mem_append, same]

/-- A generation is passed as a whole: what it leads to waits behind what has been waiting. -/
theorem generation {here : List Ancestor}
    (h : env.Passes (waiting ++ unseen met (here.flatMap env.parents))
      ((unseen met (here.flatMap env.parents)).map Ancestor.name ++ met) passed) :
    env.Passes (here ++ waiting) met (here ++ passed) := by
  induction here generalizing waiting met with
  | nil => simpa [unseen] using h
  | cons a here ih =>
    rw [List.cons_append, List.cons_append]
    refine .pass ?_
    rw [List.append_assoc]
    apply ih
    rw [List.flatMap_cons, unseen_append] at h
    rw [List.append_assoc]
    exact h.congr fun n => by simp [or_left_comm]

/-- Whatever waits is passed. -/
theorem waiting_passed (h : env.Passes waiting met passed) : waiting ⊆ passed := by
  induction h with
  | done => exact fun _ h => h
  | pass _ ih =>
    intro b hb
    obtain rfl | hb := List.mem_cons.mp hb
    · exact List.mem_cons_self
    · exact List.mem_cons_of_mem _ (ih (List.mem_append_left _ hb))

/-- What is passed has been waiting or is the parent of a class passed before. -/
theorem source (h : env.Passes waiting met passed) {before after : List Ancestor} {a : Ancestor}
    (here : passed = before ++ a :: after) : a ∈ waiting ∨ ∃ b ∈ before, a ∈ env.parents b := by
  induction h generalizing before with
  | done => simp at here
  | @pass c waiting met passed _ ih =>
    cases before with
    | nil =>
      obtain ⟨rfl, -⟩ := List.cons.inj here
      exact .inl List.mem_cons_self
    | cons b before =>
      obtain ⟨rfl, rfl⟩ := List.cons.inj here
      obtain held | ⟨d, hd, parent⟩ := ih rfl
      · obtain held | fresh := List.mem_append.mp held
        · exact .inl (List.mem_cons_of_mem _ held)
        · exact .inr ⟨c, List.mem_cons_self, mem_of_mem_unseen fresh⟩
      · exact .inr ⟨d, List.mem_cons_of_mem _ hd, parent⟩

/-- The parents of what is passed have been met, or they are passed as well. -/
theorem closed (h : env.Passes waiting met passed) {a p : Ancestor} (ha : a ∈ passed) (hp : p ∈ env.parents a) :
    p.name ∈ met ∨ p.name ∈ passed.map Ancestor.name := by
  induction h with
  | done => cases ha
  | @pass c waiting met passed later ih =>
    have fresh : (unseen met (env.parents c)).map Ancestor.name ⊆ passed.map Ancestor.name :=
      List.map_subset _ fun b hb => later.waiting_passed (List.mem_append_right _ hb)
    obtain rfl | ha := List.mem_cons.mp ha
    · obtain old | new := met_or_unseen met hp
      · exact .inl old
      · exact .inr (List.mem_cons_of_mem _ (fresh new))
    · obtain old | new := ih ha
      · obtain new | old := List.mem_append.mp old
        · exact .inr (List.mem_cons_of_mem _ (fresh new))
        · exact .inl old
      · exact .inr (List.mem_cons_of_mem _ new)

/-- No name is passed twice, and none that has been met before, except those that wait. -/
theorem distinct (h : env.Passes waiting met passed) (once : (waiting.map Ancestor.name).Nodup)
    (known : waiting.map Ancestor.name ⊆ met) :
    (passed.map Ancestor.name).Nodup ∧
      ∀ n ∈ passed.map Ancestor.name, n ∈ met → n ∈ waiting.map Ancestor.name := by
  induction h with
  | done => simp
  | @pass c waiting met passed _ ih =>
    have news : ∀ n ∈ (unseen met (env.parents c)).map Ancestor.name, n ∉ met := by
      intro n hn
      obtain ⟨b, hb, rfl⟩ := List.mem_map.mp hn
      exact unseen_new hb
    obtain ⟨notAgain, once⟩ := List.nodup_cons.mp once
    obtain ⟨hereMet, known⟩ := List.cons_subset.mp known
    obtain ⟨nodup, only⟩ := ih
      (by
        rw [List.map_append]
        exact once.append unseen_nodup fun n hn hn' => news n hn' (known hn))
      (by
        rw [List.map_append]
        exact List.append_subset.mpr
          ⟨fun n hn => List.mem_append_right _ (known hn), List.subset_append_left _ _⟩)
    have only : ∀ n ∈ passed.map Ancestor.name, n ∈ met → n ∈ waiting.map Ancestor.name := by
      intro n hn old
      have held := only n hn (List.mem_append_right _ old)
      rw [List.map_append] at held
      exact (List.mem_append.mp held).resolve_right fun new => news n new old
    refine ⟨List.nodup_cons.mpr ⟨fun again => notAgain (only _ again hereMet), nodup⟩, fun n hn old => ?_⟩
    obtain rfl | hn := List.mem_cons.mp hn
    · exact List.mem_cons_self
    · exact List.mem_cons_of_mem _ (only n hn old)

/-- There is one search from a queue. -/
theorem unique {passed' : List Ancestor} (h : env.Passes waiting met passed) (h' : env.Passes waiting met passed') :
    passed = passed' := by
  induction h generalizing passed' with
  | done => cases h'; rfl
  | pass _ ih =>
    cases h' with
    | pass h' => rw [ih h']

/-- Another view of all classes is passed in the same order, where it is one of the parents as well. -/
theorem map {f : Ancestor → Ancestor} {P : Ancestor → Prop} (names : ∀ a, (f a).name = a.name)
    (parents : ∀ a, P a → env.parents (f a) = (env.parents a).map f ∧ ∀ p ∈ env.parents a, P p)
    (h : env.Passes waiting met passed) (start : ∀ a ∈ waiting, P a) :
    env.Passes (waiting.map f) met (passed.map f) ∧ ∀ a ∈ passed, P a := by
  induction h with
  | done => exact ⟨.done, start⟩
  | @pass a waiting met passed _ ih =>
    obtain ⟨here, start⟩ := List.forall_mem_cons.mp start
    obtain ⟨same, above⟩ := parents a here
    obtain ⟨later, all⟩ := ih fun b hb => (List.mem_append.mp hb).elim (start b) fun fresh =>
      above b (mem_of_mem_unseen fresh)
    refine ⟨.pass ?_, List.forall_mem_cons.mpr ⟨here, all⟩⟩
    rw [same, unseen_map names, List.map_map, (funext names : Ancestor.name ∘ f = Ancestor.name),
      ← List.map_append]
    exact later

theorem holds (h : env.Passes waiting met passed) (hold : ∀ a ∈ waiting, env.Holds a.info) :
    ∀ a ∈ passed, env.Holds a.info := by
  induction h with
  | done => exact hold
  | pass _ ih =>
    intro b hb
    obtain rfl | hb := List.mem_cons.mp hb
    · exact hold b List.mem_cons_self
    · refine ih (fun d hd => ?_) b hb
      obtain held | fresh := List.mem_append.mp hd
      · exact hold d (List.mem_cons_of_mem _ held)
      · exact parents_hold (mem_of_mem_unseen fresh)

end Passes

/-! What is listed. -/

/-- The names of the classes that are listed. -/
def listedNames (env : Environment) : List String :=
  (env.locals.toList ++ env.project.classes.toList ++ env.external.classes.toList).map fun e => e.2.qualifiedName

theorem length_listedNames (env : Environment) : env.listedNames.length = env.listedCount := by
  simp only [listedNames, List.length_map, List.length_append, Std.TreeMap.length_toList]
  rfl

/-- There are only so many classes that extend anything: one that is not listed is generated. -/
theorem listed_of_supertypes {c : ClassInfo} (held : env.Holds c) (extending : c.supertypes ≠ []) :
    c.qualifiedName ∈ env.listedNames := by
  obtain ⟨name, found⟩ := held
  have listed (h : (name, c) ∈ env.locals.toList ++ env.project.classes.toList ++ env.external.classes.toList) :
      c.qualifiedName ∈ env.listedNames :=
    List.mem_map_of_mem (f := fun e : String × ClassInfo => e.2.qualifiedName) h
  simp only [List.mem_append, Std.TreeMap.mem_toList_iff_getElem?_eq_some] at listed
  obtain found | found | found | made := class?_source found
  · exact listed (.inl (.inl found))
  · exact listed (.inl (.inr found))
  · exact listed (.inr found)
  · exact absurd (env.external.resource?_class made).2.supertypes extending

/-! Generation by generation. -/

theorem fewer_to_come {names here before : List String} {name : String} (passed : name ∈ here) (listed : name ∈ names)
    (apart : name ∉ before) :
    (names.filter (· ∉ here ++ before)).length < (names.filter (· ∉ before)).length := by
  have twice : names.filter (· ∉ here ++ before) = (names.filter (· ∉ before)).filter (· ∉ here) := by
    rw [List.filter_filter]
    exact List.filter_congr fun n _ => by simp only [List.mem_append, not_or, Bool.decide_and]
  rw [twice, List.length_filter_lt_length_iff_exists]
  exact ⟨name, List.mem_filter.mpr ⟨listed, by simpa using apart⟩, by simpa using passed⟩

/-- With more generations than listed names to come, none is cut off. -/
theorem generations_passes {n : Nat} (before : List String) {met : List String} {here : List Ancestor}
    (hold : ∀ a ∈ here, env.Holds a.info) (apart : ∀ a ∈ here, a.name ∉ before)
    (all : ∀ name, name ∈ met ↔ name ∈ here.map Ancestor.name ∨ name ∈ before)
    (enough : (env.listedNames.filter (· ∉ before)).length < n) :
    env.Passes here met (env.generations n met here) := by
  induction n generalizing before met here with
  | zero => exact absurd enough (Nat.not_lt_zero _)
  | succ n ih =>
    cases here with
    | nil =>
      rw [generations]
      exact .done
    | cons first others =>
      rw [generations]
      generalize first :: others = here at *
      let next := unseen met (here.flatMap env.parents)
      have later : env.Passes next (next.map Ancestor.name ++ met)
          (env.generations n (next.map Ancestor.name ++ met) next) := by
        by_cases last : next = []
        · rw [last, generations]
          exact .done
        · refine ih (here.map Ancestor.name ++ before) (fun a ha => ?_) (fun a ha => ?_)
            (fun name => ?_) ?_
          · obtain ⟨b, -, parent⟩ := List.mem_flatMap.mp (mem_of_mem_unseen ha)
            exact parents_hold parent
          · rw [List.mem_append, ← all]
            exact unseen_new ha
          · rw [List.mem_append, List.mem_append, all]
          · -- some class of this generation extends something, so its name is listed and does not count any more
            obtain ⟨p, hp⟩ := List.exists_mem_of_ne_nil next last
            obtain ⟨a, ha, parent⟩ := List.mem_flatMap.mp (mem_of_mem_unseen hp)
            have extending : a.info.supertypes ≠ [] := fun none => by simp [parents, none] at parent
            have fewer := fewer_to_come (List.mem_map_of_mem ha)
              (listed_of_supertypes (hold a ha) extending) (apart a ha)
            omega
      have whole : env.Passes (here ++ []) met (here ++ env.generations n (next.map Ancestor.name ++ met) next) :=
        .generation later
      rwa [List.append_nil] at whole

/-! The supertypes of a type. -/

/-- The class that a type belongs to; that of a type variable is the class above all others. -/
def ownClass? (env : Environment) : JavaType → Option ClassInfo
  | .named name _ => env.class? name
  | .variable _ => env.class? objectName
  | _ => none

theorem origin_info (env : Environment) (t : JavaType) : (env.origin? t).map Ancestor.info = env.ownClass? t := by
  cases t with
  | named name args => simp [origin?, instance?, ownClass?, Option.map_map, Function.comp_def]
  | «variable» name => simp [origin?, root?, ownClass?, Ancestor.bare, Option.map_map, Function.comp_def]
  | _ => rfl

/-- The supertypes of a type as a search finds them, breadth first, and the class above all others if it has to be
appended. -/
structure BreadthFirst (env : Environment) (t : JavaType) (above appended : List Ancestor) : Prop where
  /-- The class of the type stands first. -/
  first : above.head?.map Ancestor.info = env.ownClass? t
  /-- It is seen with the type arguments of the type. -/
  origin : above.head? = env.origin? t
  /-- A search that begins with it ends, and passes the classes in their order. -/
  order : ∀ a ∈ above.head?, env.Passes [a] [a.name] above
  /-- The class above all others is appended if the search has found anything but not that. -/
  last : appended = if above = [] ∨ objectName ∈ above.map Ancestor.name then [] else env.root?.toList
  distinct : ((above ++ appended).map Ancestor.name).Nodup
  /-- No supertype of a class that the search has found is left out, if it is known. -/
  complete : ∀ a ∈ above, ∀ s ∈ a.info.supertypes, ∀ name args c, s.substitute a.bindings = .named name args →
    env.class? name = some c → ∃ b ∈ above, b.info = c
  /-- Every class but the first is a supertype of one before it. -/
  source : ∀ before a after, above = before ++ a :: after → before ≠ [] →
    ∃ b ∈ before, ∃ s ∈ b.info.supertypes, env.instance? (s.substitute b.bindings) = some a
  /-- The class above all others stands there once, if it is known. -/
  object : above ≠ [] → (env.class? objectName).isSome → ((above ++ appended).map Ancestor.name).count objectName = 1

section

variable {a : Ancestor} {above : List Ancestor} (search : env.Passes [a] [a.name] above)

include search

theorem Passes.starts : ∃ others, above = a :: others := by
  cases search
  exact ⟨_, rfl⟩

theorem Passes.once : (above.map Ancestor.name).Nodup :=
  (search.distinct (by simp) (by simp)).1

theorem Passes.parent_passed {b p : Ancestor} (hb : b ∈ above) (hp : p ∈ env.parents b) :
    p.name ∈ above.map Ancestor.name := by
  obtain same | passed := search.closed hb hp
  · rw [List.mem_singleton.mp same]
    exact List.mem_map_of_mem (search.waiting_passed List.mem_cons_self)
  · exact passed

/-- Only the first class is not a parent of another. -/
theorem Passes.child_before {before after : List Ancestor} {b : Ancestor} (here : above = before ++ b :: after)
    (later : before ≠ []) : ∃ c ∈ before, b ∈ env.parents c := by
  obtain first | found := search.source here
  · obtain ⟨others, start⟩ := search.starts
    obtain ⟨c, before, rfl⟩ := List.exists_cons_of_ne_nil later
    have once := search.once
    rw [here, List.cons_append] at start
    obtain ⟨rfl, -⟩ := List.cons.inj start
    rw [here, List.mem_singleton.mp first] at once
    simp at once
  · exact found

end

theorem hierarchy_searched {t : JavaType} {a : Ancestor} (found : env.origin? t = some a) :
    ∃ above, env.Passes [a] [a.name] above ∧
      env.hierarchy t = above ++ if objectName ∈ above.map Ancestor.name then [] else env.root?.toList := by
  refine ⟨env.generations (env.listedCount + 1) [a.name] [a], ?_, ?_⟩
  · refine generations_passes [] (by simpa using origin_holds found) (by simp) (by simp) ?_
    rw [← length_listedNames]
    simp
  · unfold hierarchy
    rw [found]
    simp only [List.any_eq_true, beq_iff_eq, List.mem_map]
    split <;> simp

/-- The class above all others is called so. -/
theorem Named.root (named : env.Named) {o : Ancestor} (found : env.root? = some o) : o.name = objectName := by
  obtain ⟨c, hc, rfl⟩ := Option.map_eq_some_iff.mp found
  exact named _ _ hc

theorem Named.eq_of_name (named : env.Named) {c d : ClassInfo} (hc : env.Holds c) (hd : env.Holds d)
    (same : c.qualifiedName = d.qualifiedName) : c = d := by
  obtain ⟨m, foundC⟩ := hc
  obtain ⟨n, foundD⟩ := hd
  rw [← named m c foundC, same, named n d foundD, foundD] at foundC
  exact (Option.some.inj foundC).symm

theorem mem_parents {a : Ancestor} {s : JavaType} (hs : s ∈ a.info.supertypes) {name : String} {args : List JavaType}
    (same : s.substitute a.bindings = .named name args) {c : ClassInfo} (found : env.class? name = some c) :
    ⟨c, c.bindings args⟩ ∈ env.parents a := by
  refine List.mem_filterMap.mpr ⟨s, hs, ?_⟩
  rw [same, instance?, found]
  rfl

/-- What a search has found, with the class above all others where that is missing. -/
theorem Passes.breadthFirst {a : Ancestor} {above : List Ancestor} (search : env.Passes [a] [a.name] above)
    (named : env.Named) {t : JavaType} (found : env.origin? t = some a) :
    env.BreadthFirst t above (if objectName ∈ above.map Ancestor.name then [] else env.root?.toList) := by
  obtain ⟨others, start⟩ := search.starts
  have hold := search.holds (by simpa using origin_holds found)
  have head : above.head? = some a := by rw [start, List.head?_cons]
  have distinct : ((above ++ if objectName ∈ above.map Ancestor.name then [] else env.root?.toList).map
      Ancestor.name).Nodup := by
    split
    · rw [List.append_nil]
      exact search.once
    · rename_i missing
      cases known : env.root? with
      | none => simpa using search.once
      | some o =>
        rw [Option.toList_some, List.map_append, List.map_singleton, named.root known]
        exact search.once.append (List.nodup_singleton _) (List.disjoint_singleton.mpr missing)
  refine ⟨?_, head.trans found.symm, ?_, ?_, distinct, ?_, ?_, ?_⟩
  · rw [head, ← found, env.origin_info]
  · rintro b hb
    rw [head] at hb
    cases hb
    exact search
  · simp [start]
  · intro b hb s hs name args c same known
    obtain ⟨d, hd, same⟩ := List.mem_map.mp (search.parent_passed hb (mem_parents hs same known))
    exact ⟨d, hd, named.eq_of_name (hold d hd) ⟨name, known⟩ same⟩
  · intro before b after here later
    obtain ⟨c, hc, parent⟩ := search.child_before here later
    obtain ⟨s, hs, same⟩ := List.mem_filterMap.mp parent
    exact ⟨c, hc, s, hs, same⟩
  · intro _ known
    obtain ⟨c, hc⟩ := Option.isSome_iff_exists.mp known
    refine List.count_eq_one_of_mem distinct ?_
    split
    · rwa [List.append_nil]
    · simp [root?, hc, Ancestor.bare, Ancestor.name, named _ c hc]

/-- The walk through the supertypes of a type is a search, breadth first: it ends on every class graph, and it leaves
out no known supertype. The class above all others comes last where the search does not find it. -/
theorem hierarchy_breadthFirst (named : env.Named) (t : JavaType) :
    ∃ above appended, env.hierarchy t = above ++ appended ∧ env.BreadthFirst t above appended := by
  cases found : env.origin? t with
  | none =>
    refine ⟨[], [], by rw [hierarchy, found]; rfl, ?_, found.symm, by simp, by simp, by simp, by simp, by simp,
      by simp⟩
    rw [← env.origin_info, found]
    rfl
  | some a =>
    obtain ⟨above, search, whole⟩ := hierarchy_searched found
    exact ⟨above, _, whole, search.breadthFirst named found⟩

/-- Two classes that extend each other with larger and larger arguments. -/
def expanding : Environment :=
  let nested : JavaType := .named "p.C" [.named "p.C" [.variable "T"]]
  ofLibrary [
    .ofLibrary "p" "C" ["T"] (some (.named "p.D" [nested])) [.ofName "p.I"] [],
    .ofLibrary "p" "D" ["T"] (some (.named "p.C" [.named "p.D" [.variable "T"]])) [.ofName "p.I"] [],
    .ofLibrary "p" "I" [] none [] [],
    .ofLibrary "java.lang" "Object" [] none [] []]

theorem hierarchy_expanding :
    (∃ above appended, expanding.hierarchy (.named "p.C" [.string]) = above ++ appended ∧
      expanding.BreadthFirst (.named "p.C" [.string]) above appended) ∧
    (expanding.hierarchy (.named "p.C" [.string])).map Ancestor.name = ["p.C", "p.D", "p.I", objectName] :=
  ⟨hierarchy_breadthFirst (ofLibrary_keyed _).named _, by decide +kernel⟩

/-- A class above all others that extends a class, -/
def extendingObject : ClassInfo := .ofLibrary "java.lang" "Object" [] (some (.ofName "a.X")) [] []

/-- which is this one. -/
def aboveObject : ClassInfo := .ofLibrary "a" "X" [] none [] []

/-- Both of them, and an interface. -/
def upsideDown : Environment := ofLibrary [extendingObject, aboveObject, .ofLibrary "a" "I" [] none [] []]

/-- The supertypes of the class above all others are not looked for where it is appended. -/
theorem hierarchy_appended_incomplete :
    ¬ ∀ (env : Environment) (t : JavaType), env.Named → ∀ a ∈ env.hierarchy t, ∀ s ∈ a.info.supertypes,
      ∀ name args c, s.substitute a.bindings = .named name args → env.class? name = some c →
        ∃ b ∈ env.hierarchy t, b.info = c := by
  intro complete
  have named : upsideDown.Named := (ofLibrary_keyed _).named
  have names : (upsideDown.hierarchy (.ofName "a.I")).map Ancestor.name = ["a.I", objectName] := by decide +kernel
  have listed : objectName ∈ (upsideDown.hierarchy (.ofName "a.I")).map Ancestor.name := by simp [names]
  obtain ⟨o, ho, called⟩ := List.mem_map.mp listed
  have isObject : o.info = extendingObject :=
    named.eq_of_name (hierarchy_holds ho) ⟨objectName, by rfl⟩ called
  obtain ⟨b, hb, isAbove⟩ := complete upsideDown (.ofName "a.I") named o ho (.ofName "a.X")
    (by rw [isObject]; exact List.mem_cons_self) "a.X" [] aboveObject rfl (by rfl)
  have passed : b.name ∈ (upsideDown.hierarchy (.ofName "a.I")).map Ancestor.name := List.mem_map_of_mem hb
  rw [Ancestor.name, isAbove, names] at passed
  exact absurd passed (by decide +kernel)

end Environment

/-! The methods that a method is linked to as overriding them. All classes above its own are asked, generation after
generation, and a method that is itself overridden on the way is linked all the same. -/

namespace Environment

variable {env : Environment} {c : ClassInfo} {name : String} {params : List JavaType}

/-- A class stands before all classes above it, and nowhere else. -/
theorem hierarchy_selfType (named : env.Named) (known : env.Knows c) :
    ∃ own above, env.hierarchy c.selfType = own :: above ∧ own.info = c ∧ ∀ a ∈ above, a.name ≠ c.qualifiedName := by
  obtain ⟨searched, appended, whole, search⟩ := hierarchy_breadthFirst named c.selfType
  obtain ⟨own, others, start⟩ : ∃ own others, searched = own :: others := by
    cases searched with
    | nil =>
      have first := search.first
      rw [List.head?_nil, Option.map_none] at first
      exact absurd (first.trans known) nofun
    | cons own others => exact ⟨own, others, rfl⟩
  have first : own.info = c := by
    have first := search.first
    rw [start, List.head?_cons, Option.map_some] at first
    exact Option.some.inj (first.trans known)
  have distinct := search.distinct
  rw [start, List.cons_append, List.map_cons, List.nodup_cons] at distinct
  refine ⟨own, others ++ appended, by rw [whole, start, List.cons_append], first, fun a ha same => distinct.1 ?_⟩
  rw [Ancestor.name, first, ← same]
  exact List.mem_map_of_mem ha

/-- What a method is linked to are the methods of its name with parameters that agree, in any class above its own. -/
theorem mem_overridden (named : env.Named) (known : env.Knows c) {s : Symbol} :
    s ∈ env.overridden c name params ↔ ∃ a ∈ env.hierarchy c.selfType, a.name ≠ c.qualifiedName ∧
      ∃ m ∈ a.info.methods, m.name = name ∧ isOverriddenBy m a.bindings params = true ∧ m.symbol = s := by
  obtain ⟨own, above, whole, first, others⟩ := hierarchy_selfType named known
  have name_own : own.name = c.qualifiedName := congrArg ClassInfo.qualifiedName first
  simp only [overridden, whole, List.drop_succ_cons, List.drop_zero, List.mem_flatMap, List.mem_map, List.mem_filter,
    ClassInfo.methodsNamed, beq_iff_eq]
  constructor
  · rintro ⟨a, ha, m, ⟨⟨hm, called⟩, agrees⟩, rfl⟩
    exact ⟨a, List.mem_cons_of_mem _ ha, others a ha, m, hm, called, agrees, rfl⟩
  · rintro ⟨a, ha, other, m, hm, called, agrees, rfl⟩
    obtain rfl | ha := List.mem_cons.mp ha
    · exact absurd name_own other
    · exact ⟨a, ha, m, ⟨⟨hm, called⟩, agrees⟩, rfl⟩

theorem isStatic_of_overridden {m : MethodInfo} {b : JavaType.Bindings} (agrees : isOverriddenBy m b params = true) :
    m.isStatic = false := by
  rw [isOverriddenBy, Bool.and_eq_true] at agrees
  simpa using agrees.2

/-- No method is linked to one of its own class or to a static one. -/
theorem overridden_elsewhere (named : env.Named) (known : env.Knows c) {s : Symbol}
    (linked : s ∈ env.overridden c name params) :
    ∃ a ∈ env.hierarchy c.selfType, a.info ≠ c ∧ ∃ m ∈ a.info.methods, m.symbol = s ∧ m.isStatic = false := by
  obtain ⟨a, ha, other, m, hm, -, agrees, same⟩ := (mem_overridden named known).mp linked
  exact ⟨a, ha, fun own => other (congrArg ClassInfo.qualifiedName own), m, hm, same, isStatic_of_overridden agrees⟩

/-- A class of a library that has a method `m()`, and the class that it extends. -/
def withMethod (simple : String) (superclass : Option JavaType) : ClassInfo :=
  let bare := ClassInfo.ofLibrary "p" simple [] superclass [] []
  { bare with methods := [⟨"m", [], false, .int, false, bare.symbol.child (.method "m" 0) .method⟩] }

/-- The method of the class next above is linked, and so is the one that it overrides. -/
example :
    let c := withMethod "C" (some (.ofName "p.B"))
    let env := ofLibrary [c, withMethod "B" (some (.ofName "p.A")), withMethod "A" none]
    (env.overridden c "m" []).map Symbol.text = ["p/B#m().", "p/A#m()."] := by
  decide +kernel

end Environment
end JavaIndex
