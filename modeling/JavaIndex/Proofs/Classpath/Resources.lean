import JavaIndex.Classpath.Table
import JavaIndex.Proofs.Classpath.BinaryNames

/-! Generated resources. A name is read back from its segments, however many of those of its package are
called like the class of resources. Only a constant of that name is not found: its segment is taken for the
class. -/
namespace JavaIndex
namespace Resources

theorem aroundLast_none {segments : List String} (free : "R" ∉ segments) (before : List String) :
    aroundLast before segments = none := by
  induction segments generalizing before with
  | nil => rfl
  | cons s rest ih =>
    simp only [List.mem_cons, not_or] at free
    rw [aroundLast, ih free.2, if_neg (Ne.symm free.1)]

theorem aroundLast_append {rest : List String} (free : "R" ∉ rest) (segments before : List String) :
    aroundLast before (segments ++ "R" :: rest) = some (segments.reverse ++ before, rest) := by
  induction segments generalizing before with
  -- The search gives what it finds further on; it finds nothing there exactly when this is the last one.
  | nil => simp [aroundLast, aroundLast_none free]
  | cons s segments ih => simp [aroundLast, ih]

/-- The package of a generated name is all that stands before its last `R`. -/
theorem aroundLast_segments {name package : String} {names : List String} (free : "R" ∉ names)
    (segments : Dotted.segments name = Dotted.segments package ++ "R" :: names) :
    ∃ first outer, aroundLast [] (Dotted.segments name) = some (first :: outer, names) ∧
      Dotted.join (first :: outer).reverse = package := by
  have found := aroundLast_append free (Dotted.segments package) []
  rw [List.append_nil] at found
  cases around : (Dotted.segments package).reverse with
  | nil => exact absurd (List.reverse_eq_nil_iff.mp around) (Dotted.segments_ne_nil package)
  | cons first outer =>
    rw [around] at found
    exact ⟨first, outer, segments ▸ found, by rw [← around, List.reverse_reverse, Dotted.join_segments]⟩

theorem aroundLast_sound {segments before outer rest : List String}
    (found : aroundLast before segments = some (outer, rest)) :
    outer.reverse ++ "R" :: rest = before.reverse ++ segments := by
  induction segments generalizing before with
  | nil => cases found
  | cons s segments ih =>
    rw [aroundLast] at found
    cases later : aroundLast (s :: before) segments with
    | some p =>
      rw [later] at found
      cases found
      rw [ih later, List.reverse_cons, List.append_assoc, List.singleton_append]
    | none =>
      simp only [later, Option.ite_none_right_eq_some, Option.some.injEq, Prod.mk.injEq] at found
      obtain ⟨rfl, rfl, rfl⟩ := found
      rfl

/-- The parts of a name make it up. -/
theorem split?_sound {name : String} {parts : Name} (found : split? name = some parts) :
    name = parts.package ++ "." ++ Dotted.join ("R" :: (parts.type.toList ++ parts.constant.toList)) ∧
      (parts.type = none → parts.constant = none) := by
  unfold split? at found
  cases around : aroundLast [] (Dotted.segments name) with
  | none => simp [around] at found
  | some halves =>
    obtain ⟨outer, rest⟩ := halves
    have whole := aroundLast_sound around
    rw [around] at found
    cases outer with
    | nil => cases found
    | cons package outer =>
      have joined : name = Dotted.join (package :: outer).reverse ++ "." ++ Dotted.join ("R" :: rest) := by
        rw [← Dotted.join_segments name, ← List.nil_append (Dotted.segments name), ← List.reverse_nil, ← whole]
        exact String.intercalate_append_of_ne_nil (by simp) (by simp)
      cases rest with
      | nil => cases found; exact ⟨joined, fun _ => rfl⟩
      | cons type rest =>
        cases rest with
        | nil => cases found; exact ⟨joined, nofun⟩
        | cons constant rest =>
          cases rest with
          | nil => cases found; exact ⟨joined, nofun⟩
          | cons _ _ => cases found

/-- A class belongs to a library, extends nothing and lists no members. -/
structure Generated (c : ClassInfo) : Prop where
  scheme : c.symbol.scheme = .external
  supertypes : c.supertypes = []
  fields : c.fields = []
  methods : c.methods = []
  constructors : c.constructors = []

theorem generate?_class {parts : Name} {c : ClassInfo} (made : generate? parts = some (.ofClass c))
    (whole : parts.type = none → parts.constant = none) :
    c.qualifiedName = parts.package ++ "." ++ Dotted.join ("R" :: (parts.type.toList ++ parts.constant.toList)) ∧
      Generated c := by
  obtain ⟨package, type, constant⟩ := parts
  have outer : package ++ ".R" = package ++ "." ++ "R" := by rw [String.append_assoc]; rfl
  unfold generate? at made
  cases type with
  | none =>
    obtain rfl : constant = none := whole rfl
    cases made
    exact ⟨outer, rfl, rfl, rfl, rfl, rfl⟩
  | some type =>
    dsimp only at made
    split at made
    · cases made
    · cases constant <;> cases made
      refine ⟨?_, rfl, rfl, rfl, rfl, rfl⟩
      change package ++ ".R" ++ "." ++ type = package ++ "." ++ ("R" ++ "." ++ type)
      simp only [outer, String.append_assoc]

theorem generate?_constant {parts : Name} {f : FieldInfo} (made : generate? parts = some (.constant f)) :
    f.type = .int ∧ f.symbol.scheme = .external := by
  obtain ⟨package, type, constant⟩ := parts
  unfold generate? at made
  cases type with
  | none => cases made
  | some type =>
    dsimp only at made
    split at made
    · cases made
    · cases constant <;> cases made
      exact ⟨rfl, rfl⟩

theorem types_plain {type : String} (known : isType type = true) : '.' ∉ type.toList ∧ type ≠ "R" := by
  have all : ∀ type ∈ types, '.' ∉ type.toList ∧ type ≠ "R" := by decide
  exact all type (by simpa [isType] using known)

variable (package : String)

theorem segments_outer : Dotted.segments (package ++ ".R") = Dotted.segments package ++ ["R"] := by
  have name : package ++ ".R" = package ++ "." ++ "R" := by rw [String.append_assoc]; rfl
  rw [name, Dotted.segments_inside]
  rfl

theorem split?_outer : split? (package ++ ".R") = some ⟨package, none, none⟩ := by
  obtain ⟨first, outer, found, joined⟩ := aroundLast_segments List.not_mem_nil (segments_outer package)
  rw [split?, found]
  simp only [joined]

theorem segments_type {type : String} (free : '.' ∉ type.toList) :
    Dotted.segments (package ++ ".R" ++ "." ++ type) = Dotted.segments package ++ ["R", type] := by
  rw [Dotted.segments_inside, segments_outer, Dotted.segments_of_free free, List.append_assoc]
  rfl

theorem split?_type {type : String} (known : isType type = true) :
    split? (package ++ ".R" ++ "." ++ type) = some ⟨package, some type, none⟩ := by
  obtain ⟨free, other⟩ := types_plain known
  have names : "R" ∉ [type] := by simpa using Ne.symm other
  obtain ⟨first, outer, found, joined⟩ := aroundLast_segments names (segments_type package free)
  rw [split?, found]
  simp only [joined]

theorem split?_constant {type constant : String} (known : isType type = true) (free : '.' ∉ constant.toList)
    (other : constant ≠ "R") :
    split? (package ++ ".R" ++ "." ++ type ++ "." ++ constant) = some ⟨package, some type, some constant⟩ := by
  obtain ⟨freeType, otherType⟩ := types_plain known
  have names : "R" ∉ [type, constant] := by simp [Ne.symm other, Ne.symm otherType]
  have segments : Dotted.segments (package ++ ".R" ++ "." ++ type ++ "." ++ constant) =
      Dotted.segments package ++ ["R", type, constant] := by
    rw [Dotted.segments_inside, segments_type package freeType, Dotted.segments_of_free free, List.append_assoc]
    rfl
  obtain ⟨first, outer, found, joined⟩ := aroundLast_segments names segments
  rw [split?, found]
  simp only [joined]

end Resources

namespace ExternalTable

section

variable (t : ExternalTable) {package type : String} (registered : t.isResourcePackage package = true)

include registered

theorem class?_outer (free : t.classes[package ++ ".R"]? = none) :
    t.class? (package ++ ".R") =
      some (Resources.bareClass package (package ++ ".R") (Resources.outerSymbol package)) := by
  simp [class?, free, resource?, Resources.split?_outer, registered, Resources.generate?, entryClass?]

variable (known : Resources.isType type = true)

include known

theorem class?_type (free : t.classes[package ++ ".R" ++ "." ++ type]? = none) :
    ∃ c, t.class? (package ++ ".R" ++ "." ++ type) = some c ∧ c.symbol = Resources.typeSymbol package type ∧
      c.qualifiedName = package ++ ".R" ++ "." ++ type ∧ c.syntheticMembers = true ∧ c.fields = [] ∧
      c.methods = [] := by
  refine ⟨{ Resources.bareClass package (package ++ ".R" ++ "." ++ type) (Resources.typeSymbol package type) with
    syntheticMembers := true }, ?_, rfl, rfl, rfl, rfl, rfl⟩
  simp [class?, free, resource?, Resources.split?_type package known, registered, Resources.generate?, known,
    entryClass?]

/-- Every constant of a generated class is found in its class and by its name, unless it is called like the class
of resources. -/
theorem lookup?_constant {constant : String} (plain : '.' ∉ constant.toList) (other : constant ≠ "R")
    (free : t.classes[package ++ ".R" ++ "." ++ type]? = none) :
    ∃ c field, t.class? (package ++ ".R" ++ "." ++ type) = some c ∧ t.constant? c constant = some field ∧
      field.symbol = (Resources.typeSymbol package type).child (.term constant) .syntheticMember ∧
      t.lookup? (package ++ ".R" ++ "." ++ type ++ "." ++ constant) .member = some field.symbol := by
  obtain ⟨c, owner, -, name, synthetic, fields, methods⟩ := t.class?_type registered known free
  let field : FieldInfo :=
    ⟨constant, .int, true, (Resources.typeSymbol package type).child (.term constant) .syntheticMember⟩
  have resource : t.resource? (c.qualifiedName ++ "." ++ constant) = some (.constant field) := by
    simp only [name, resource?, Resources.split?_constant package known plain other, Option.bind_eq_bind,
      Option.bind_some, registered, if_true, Resources.generate?, known, Bool.not_true, Bool.false_eq_true, if_false]
    rfl
  have constant? : t.constant? c constant = some field := by
    rw [constant?, if_pos synthetic, resource, Option.bind_some, entryConstant?]
  have undeclared : declared? c constant = none := by
    simp [declared?, ClassInfo.field?, ClassInfo.methodsNamed, fields, methods]
  refine ⟨c, field, owner, constant?, rfl, ?_⟩
  rw [lookup?, member?, Dotted.splitLast?_inside _ plain]
  simp only [Option.bind_eq_bind, Option.bind_some, owner, undeclared, constant?, Option.map_some, Option.none_or]

end

/-- A generated class goes by the name that it is generated for. -/
theorem resource?_class (t : ExternalTable) {name : String} {c : ClassInfo}
    (found : t.resource? name = some (.ofClass c)) : c.qualifiedName = name ∧ Resources.Generated c := by
  obtain ⟨parts, split, made⟩ := Option.bind_eq_some_iff.mp found
  obtain ⟨joined, whole⟩ := Resources.split?_sound split
  split at made
  · exact joined ▸ Resources.generate?_class made whole
  · cases made

theorem resource?_constant (t : ExternalTable) {name : String} {f : FieldInfo}
    (found : t.resource? name = some (.constant f)) : f.type = .int ∧ f.symbol.scheme = .external := by
  obtain ⟨parts, -, made⟩ := Option.bind_eq_some_iff.mp found
  split at made
  · exact Resources.generate?_constant made
  · cases made

theorem constant?_generated (t : ExternalTable) {c : ClassInfo} {name : String} {f : FieldInfo}
    (found : t.constant? c name = some f) : f.type = .int ∧ f.symbol.scheme = .external := by
  unfold constant? at found
  split at found
  · obtain ⟨entry, made, isConstant⟩ := Option.bind_eq_some_iff.mp found
    cases entry with
    | ofClass info => cases isConstant
    | constant field => cases isConstant; exact t.resource?_constant made
  · cases found

/-- The constant whose name is that of the class of resources is missed. -/
example :
    let t := empty.addResourcePackage "p"
    (t.lookup? "p.R.id.x" .member).isSome = true ∧ t.lookup? "p.R.id.R" .member = none := by
  decide +kernel

end ExternalTable
end JavaIndex
