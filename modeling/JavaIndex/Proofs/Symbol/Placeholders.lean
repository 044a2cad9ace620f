import JavaIndex.Proofs.Symbol.Text

/-! What stands for unknown names. A placeholder has the shape of its text: it is a lone value, a lone type,
or a package of one segment with types in it. Nothing that is declared is a placeholder, though what
libraries declare can have such a path. -/
namespace JavaIndex
namespace Symbol

/-- What a placeholder can look like. -/
inductive Spelled : SymbolId → Prop
  | value (name : String) : Spelled ⟨.external, [.term name]⟩
  | type (name : String) : Spelled ⟨.external, [.type name]⟩
  | path (head : String) (types : List String) : Spelled ⟨.external, .package head :: types.map .type⟩

/-- The symbol stands for a beginning of an unknown name. -/
def StandsIn (s : Symbol) : Prop := ∃ names isValue, s ∈ placeholderChain names isValue

theorem placeholder_spelled {segments : List String} (some : segments ≠ []) (isValue : Bool) :
    Spelled (placeholder segments isValue).id := by
  match segments with
  | [] => contradiction
  | [single] =>
    cases isValue with
    | true => exact .value single
    | false => exact .type single
  | head :: second :: rest => exact .path head (second :: rest)

theorem StandsIn.isPlaceholder {s : Symbol} (h : s.StandsIn) : s.isPlaceholder = true := by
  obtain ⟨names, isValue, h⟩ := h
  obtain ⟨i, -, rfl⟩ := List.mem_map.mp h
  split <;> rfl

theorem StandsIn.spelled {s : Symbol} (h : s.StandsIn) : Spelled s.id := by
  obtain ⟨names, isValue, h⟩ := h
  obtain ⟨i, hi, rfl⟩ := List.mem_map.mp h
  have some : names.take (i + 1) ≠ [] := by
    have inside := List.mem_range.mp hi
    rw [Ne, List.take_eq_nil_iff]
    rintro (none | rfl)
    · omega
    · cases inside
  split
  · exact .path _ []
  · exact placeholder_spelled some isValue

theorem Spelled.scheme {id : SymbolId} (h : Spelled id) : id.scheme = .external := by
  cases h <;> rfl

/-- A placeholder belongs to no program. -/
theorem StandsIn.scheme {s : Symbol} (h : s.StandsIn) : s.scheme = .external := h.spelled.scheme

theorem last_of_chain {names : List String} (some : names ≠ []) (isValue : Bool) :
    placeholder names isValue ∈ placeholderChain names isValue := by
  have inside := List.length_pos_iff.mpr some
  refine List.mem_map.mpr ⟨names.length - 1, List.mem_range.mpr (by omega), ?_⟩
  have whole : names.take (names.length - 1 + 1) = names := List.take_of_length_le (by omega)
  rw [whole]
  split
  · rename_i long
    simp at long
  · rfl

/-- Every one of these shapes occurs. -/
theorem exists_standsIn {id : SymbolId} (h : Spelled id) : (⟨id, .unknown⟩ : Symbol).StandsIn := by
  cases h with
  | value name => exact ⟨[name], true, last_of_chain (by simp) true⟩
  | type name => exact ⟨[name], false, last_of_chain (by simp) false⟩
  | path head types =>
    cases types with
    | nil => exact ⟨[head, ""], false, by simp [placeholderChain, List.range_succ]⟩
    | cons second rest => exact ⟨head :: second :: rest, false, last_of_chain (by simp) false⟩

/-- The placeholders are the symbols without a kind that have such a shape. -/
theorem standsIn_iff {s : Symbol} : s.StandsIn ↔ s.isPlaceholder = true ∧ Spelled s.id := by
  constructor
  · exact fun h => ⟨h.isPlaceholder, h.spelled⟩
  · rintro ⟨unknown, spelled⟩
    obtain ⟨id, kind⟩ := s
    cases eq_of_beq unknown
    exact exists_standsIn spelled

/-- Among packages these are the ones of one segment. -/
theorem spelled_package_iff (name : String) :
    Spelled (package name .external).id ↔ ∃ head, Dotted.steps name = [head] := by
  constructor
  · intro spelled
    generalize same : (package name .external).id = id at spelled
    simp only [package] at same
    cases spelled with
    | value n => cases steps : Dotted.steps name <;> simp [steps] at same
    | type n => cases steps : Dotted.steps name <;> simp [steps] at same
    | path head types =>
      cases steps : Dotted.steps name with
      | nil => simp [steps] at same
      | cons first rest =>
        cases rest with
        | nil => exact ⟨first, rfl⟩
        | cons second rest => cases types <;> simp [steps] at same
  · rintro ⟨head, steps⟩
    have alone : (package name .external).id = ⟨.external, .package head :: [].map .type⟩ := by
      simp [package, steps]
    rw [alone]
    exact .path head []

/-- Among types these are the ones in a package of one segment, and the outer ones in the package without a
name. -/
theorem spelled_type_iff (packages : List String) (outer : String) (inner : List String) :
    Spelled ⟨.external, packages.map .package ++ (outer :: inner).map .type⟩ ↔
      packages.length = 1 ∨ (packages = [] ∧ inner = []) := by
  match packages with
  | [] =>
    constructor
    · intro spelled
      generalize same : SymbolId.mk .external _ = id at spelled
      cases spelled <;> simp at same
      exact .inr ⟨rfl, same.2⟩
    · rintro (one | ⟨-, rfl⟩)
      · cases one
      · exact .type outer
  | [head] => simpa using Spelled.path head (outer :: inner)
  | first :: second :: rest =>
    constructor
    · intro spelled
      generalize same : SymbolId.mk .external _ = id at spelled
      cases spelled with
      | value n => simp at same
      | type n => simp at same
      | path head types => cases types <;> simp at same
    · simp

/-- Only what is declared in a body can be declared without a kind. -/
theorem ofDeclaration_isPlaceholder {decl : Declaration} {owner : Option Symbol} {s : Symbol}
    (made : ofDeclaration decl owner = .ok s) (unknown : s.isPlaceholder = true) :
    ∃ number, decl = .local number .unknown := by
  have kind : s.kind = .unknown := eq_of_beq unknown
  have named := named_of_ofDeclaration made
  cases owner with
  | none => cases decl <;> cases named; cases kind
  | some owner =>
    cases decl with
    | package name scheme =>
      simp only [Symbol.named] at named
      split at named <;> cases named
      cases kind
    | «local» number sort =>
      simp only [Symbol.named] at named
      split at named <;> cases named
      exact ⟨number, congrArg _ kind⟩
    | _ =>
      -- a kind of types or of fields is asked for, or the kind is that of a method or a type variable
      simp only [Symbol.named] at named
      repeat' split at named
      all_goals cases named <;> simp_all [child, SymbolKind.isType, SymbolKind.isTerm]

/-- What is declared in a body is local, and of the kind it is declared with. -/
theorem local_of_ofDeclaration {number : Nat} {kind : SymbolKind} {owner : Option Symbol} {s : Symbol}
    (made : ofDeclaration (.local number kind) owner = .ok s) : s.scheme = .local ∧ s.kind = kind := by
  have named := named_of_ofDeclaration made
  cases owner with
  | none => cases named
  | some owner =>
    simp only [Symbol.named] at named
    split at named <;> cases named
    exact ⟨rfl, rfl⟩

/-- What is not declared in a body belongs where its owner belongs. -/
theorem ofDeclaration_scheme {decl : Declaration} {owner s : Symbol}
    (made : ofDeclaration decl (some owner) = .ok s) (outside : ∀ number kind, decl ≠ .local number kind) :
    s.scheme = owner.scheme := by
  have named := named_of_ofDeclaration made
  cases decl with
  | package name scheme =>
    simp only [Symbol.named] at named
    split at named <;> cases named
    rfl
  | «local» number kind => exact absurd rfl (outside number kind)
  | _ =>
    simp only [Symbol.named] at named
    repeat' split at named
    all_goals cases named <;> rfl

end Symbol
end JavaIndex
