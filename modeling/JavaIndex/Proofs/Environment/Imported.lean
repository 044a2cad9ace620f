import JavaIndex.Environment.ValueNames
import JavaIndex.Proofs.Environment.Keyed

/-! Imports and uses. An import of a type is followed from its package to a class and from class to member type, the
inherited ones too, while a use asks for the class of the whole name. Both come to one class, unless the last segment
of the import is inherited: then the class has another name, and the use does not find it. For static imports methods
and values are looked for in the same classes. Of the methods only the static ones are taken, from all of the
classes; a value is that of the first class with a field of the name, whether the field is static or not. -/
namespace JavaIndex
namespace Environment

/-! Types. -/

section

variable {env : Environment}

theorem Means.knows {place : Place} {names : List String} {c : ClassInfo} (named : env.Named)
    (closed : place.scopes = []) (means : env.Means place names c) : env.Knows c := by
  cases means with
  | bound hsc _ => simp [closed] at hsc
  | around hsc _ _ => simp [closed] at hsc
  | inside found => exact named.knows found
  | imported _ found => exact named.knows found
  | within _ found => exact named.knows found

theorem qualified_known (named : env.Named) {path : List String} {c : ClassInfo}
    (met : .ofClass c ∈ env.qualified path) : env.Knows c := by
  have reads : env.Reads .nowhere path (.ofClass c) := qualified_reads (fun _ hn => hn) met
  exact (reads.ofClass c rfl).knows named rfl

/-- What is imported under its own name is what its simple name means, where no scope binds that. -/
theorem imported_used (named : env.Named) {place : Place} {path : List String} {simple : String} {c : ClassInfo}
    (imported : place.imports.single? simple = some (Dotted.join path))
    (resolved : (env.qualified path).getLast? = some (.ofClass c)) (own : c.qualifiedName = Dotted.join path)
    (unbound : place.scopes.findSome? (env.scopeType? simple) = none) :
    env.simpleType? place simple = some (.ofClass c) := by
  have known : env.Knows c := qualified_known named (List.mem_of_getLast? resolved)
  rw [Knows, own] at known
  rw [simpleType?, unbound, Option.none_or, Imports.typeCandidates, imported]
  simp [known]

end

/-! Members. -/

variable {env : Environment} {place : Place} {name : String}

/-- The methods of the innermost class around that has any hide what is imported. -/
theorem callables_around {inner outer : List ClassInfo} {c : ClassInfo}
    (around : place.scopes.enclosingClasses = inner ++ c :: outer)
    (noneInside : ∀ d ∈ inner, env.methods d.selfType name = []) (any : env.methods c.selfType name ≠ []) :
    env.callables place name = env.methods c.selfType name := by
  have none : (inner.findSome? fun d => some (env.methods d.selfType name) |>.filter (!·.isEmpty)) = none := by
    refine List.findSome?_eq_none_iff.mpr fun d hd => ?_
    rw [noneInside d hd]
    rfl
  have here : (some (env.methods c.selfType name)).filter (!·.isEmpty) = some (env.methods c.selfType name) := by
    rw [Option.filter_some, if_pos (by simpa using any)]
  simp only [callables, around, List.findSome?_append, none, Option.none_or, List.findSome?_cons, here]

/-- A method that is imported is static. -/
theorem mem_callables_imported (noneAround : ∀ c ∈ place.scopes.enclosingClasses, env.methods c.selfType name = [])
    {m : Candidate} :
    m ∈ env.callables place name ↔
      m.isStatic = true ∧ ∃ c ∈ env.staticOwners place name, m ∈ env.methods c.selfType name := by
  have around : (place.scopes.enclosingClasses.findSome? fun c =>
      some (env.methods c.selfType name) |>.filter (!·.isEmpty)) = none := by
    refine List.findSome?_eq_none_iff.mpr fun c hc => ?_
    rw [noneAround c hc]
    rfl
  simp only [callables, around, List.mem_filter, List.mem_flatMap]
  exact And.comm

/-- A value that is imported is the field of the first class that has one of the name. -/
theorem value_imported (noneAround : place.scopes.findSome? (env.scopeValue? name) = none) {b : ValueBinding} :
    env.value? place name = some b ↔ ∃ before c after f, env.staticOwners place name = before ++ c :: after ∧
      (∀ d ∈ before, env.field? d.selfType name = none) ∧ env.field? c.selfType name = some f ∧
      b = .ofField f := by
  simp only [value?, noneAround, Option.none_or, List.findSome?_eq_some_iff, Option.map_eq_some_iff,
    Option.map_eq_none_iff]
  constructor
  · rintro ⟨before, c, after, owners, ⟨f, found, rfl⟩, none⟩
    exact ⟨before, c, after, f, owners, none, found, rfl⟩
  · rintro ⟨before, c, after, f, owners, none, found, rfl⟩
    exact ⟨before, c, after, owners, ⟨f, found, rfl⟩, none⟩

/-- A class of a library with a field `x`. -/
def withField (simple : String) (isStatic : Bool) : ClassInfo :=
  let symbol := (Symbol.package "p" .external).child (.type simple) .classType
  .ofLibrary "p" simple [] none [] [⟨"x", .int, isStatic, symbol.child (.term "x") .field⟩]

/-- The field of a class that is imported first comes before a static one. -/
example :
    let env := ofLibrary [withField "A" false, withField "B" true]
    let place : Place := ⟨[], { (default : Imports) with staticOnDemand := ["p.A", "p.B"] }⟩
    (env.value? place "x").map (·.symbol.text) = some "p/A#x." := by
  decide +kernel

end Environment
end JavaIndex
