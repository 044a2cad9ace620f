import JavaIndex.Tree.WrittenType

/-! Types without what their texts do not say: where they stand, their annotations, and how the dimensions of an
array of arrays are nested. -/
namespace JavaIndex

variable {A : Type}

mutual

/-- The type without the places of its words. -/
def WrittenType.unplaced : WrittenType A → WrittenType A
  | .primitive keyword _ => .primitive keyword ⟨0, 0⟩
  | .named segments _ => .named (TypeSegment.allUnplaced segments) ⟨0, 0⟩
  | .array element dims _ => .array element.unplaced dims ⟨0, 0⟩

def TypeSegment.allUnplaced : List (TypeSegment A) → List (TypeSegment A)
  | [] => []
  | ⟨annotations, name, args⟩ :: rest =>
    ⟨annotations, ⟨name.text, ⟨0, 0⟩⟩, TypeArg.listUnplaced args⟩ :: TypeSegment.allUnplaced rest

def TypeArg.listUnplaced : Option (List (TypeArg A)) → Option (List (TypeArg A))
  | none => none
  | some args => some (TypeArg.allUnplaced args)

def TypeArg.allUnplaced : List (TypeArg A) → List (TypeArg A)
  | [] => []
  | arg :: rest => arg.unplaced :: TypeArg.allUnplaced rest

def TypeArg.unplaced : TypeArg A → TypeArg A
  | .type t => .type t.unplaced
  | .wildcard _ => .wildcard ⟨0, 0⟩
  | .bounded bound t _ => .bounded bound t.unplaced ⟨0, 0⟩

end

mutual

/-- The type without places and annotations, and with all dimensions of an array of arrays in one place. -/
def WrittenType.bare : WrittenType A → WrittenType A
  | .primitive keyword _ => .primitive keyword ⟨0, 0⟩
  | .named segments _ => .named (TypeSegment.allBare segments) ⟨0, 0⟩
  | .array element dims _ => element.bare.element.withDims (dims + element.bare.dimensions)

def TypeSegment.allBare : List (TypeSegment A) → List (TypeSegment A)
  | [] => []
  | ⟨_, name, args⟩ :: rest => ⟨[], ⟨name.text, ⟨0, 0⟩⟩, TypeArg.listBare args⟩ :: TypeSegment.allBare rest

def TypeArg.listBare : Option (List (TypeArg A)) → Option (List (TypeArg A))
  | none => none
  | some args => some (TypeArg.allBare args)

def TypeArg.allBare : List (TypeArg A) → List (TypeArg A)
  | [] => []
  | arg :: rest => arg.bare :: TypeArg.allBare rest

def TypeArg.bare : TypeArg A → TypeArg A
  | .type t => .type t.bare
  | .wildcard _ => .wildcard ⟨0, 0⟩
  | .bounded bound t _ => .bounded bound t.bare ⟨0, 0⟩

end

def TypeSegment.unplaced (s : TypeSegment A) : TypeSegment A :=
  ⟨s.annotations, ⟨s.name.text, ⟨0, 0⟩⟩, TypeArg.listUnplaced s.args⟩

theorem TypeSegment.allUnplaced_eq (ss : List (TypeSegment A)) : allUnplaced ss = ss.map unplaced := by
  induction ss with
  | nil => rfl
  | cons s ss ih =>
    obtain ⟨annotations, name, args⟩ := s
    rw [allUnplaced, ih, List.map_cons, unplaced]

theorem TypeArg.allUnplaced_eq (args : List (TypeArg A)) : allUnplaced args = args.map unplaced := by
  induction args with
  | nil => rfl
  | cons a args ih => rw [allUnplaced, ih, List.map_cons]

def TypeSegment.bare (s : TypeSegment A) : TypeSegment A :=
  ⟨[], ⟨s.name.text, ⟨0, 0⟩⟩, TypeArg.listBare s.args⟩

theorem TypeSegment.allBare_eq (ss : List (TypeSegment A)) : allBare ss = ss.map bare := by
  induction ss with
  | nil => rfl
  | cons s ss ih =>
    obtain ⟨annotations, name, args⟩ := s
    rw [allBare, ih, List.map_cons, bare]

theorem TypeArg.allBare_eq (args : List (TypeArg A)) : allBare args = args.map bare := by
  induction args with
  | nil => rfl
  | cons a args ih => rw [allBare, ih, List.map_cons]

namespace WrittenType

theorem dimensions_unplaced : ∀ t : WrittenType A, t.unplaced.dimensions = t.dimensions
  | .primitive _ _ => rfl
  | .named _ _ => rfl
  | .array element dims _ => congrArg (dims + ·) (dimensions_unplaced element)

theorem element_unplaced : ∀ t : WrittenType A, t.unplaced.element = t.element.unplaced
  | .primitive _ _ => rfl
  | .named _ _ => rfl
  | .array element _ _ => element_unplaced element

theorem element_withDims (t : WrittenType A) (dims : Nat) : (t.withDims dims).element = t.element := by
  unfold withDims
  split <;> rfl

theorem dimensions_withDims (t : WrittenType A) (dims : Nat) :
    (t.withDims dims).dimensions = dims + t.dimensions := by
  unfold withDims
  split
  · rename_i none
    rw [none, Nat.zero_add]
  · rfl

theorem element_element : ∀ t : WrittenType A, t.element.element = t.element ∧ t.element.dimensions = 0
  | .primitive _ _ => ⟨rfl, rfl⟩
  | .named _ _ => ⟨rfl, rfl⟩
  | .array element _ _ => element_element element

theorem dimensions_bare : ∀ t : WrittenType A, t.bare.dimensions = t.dimensions
  | .primitive _ _ => rfl
  | .named _ _ => rfl
  | .array element dims _ => by
    rw [bare, dimensions_withDims, (element_element _).2, dimensions_bare element]
    rfl

theorem element_bare : ∀ t : WrittenType A, t.bare.element = t.element.bare
  | .primitive _ _ => rfl
  | .named _ _ => rfl
  | .array element dims _ => by
    rw [bare, element_withDims, (element_element _).1, element_bare element]
    rfl

theorem range_element_bare : ∀ t : WrittenType A, t.element.bare.range = ⟨0, 0⟩
  | .primitive _ _ => rfl
  | .named _ _ => rfl
  | .array element _ _ => range_element_bare element

/-- A bare type is a bare element with dimensions. -/
theorem bare_eq : ∀ t : WrittenType A, t.bare = t.element.bare.withDims t.dimensions
  | .primitive _ _ => rfl
  | .named _ _ => rfl
  | .array element dims _ => by
    rw [bare, element_bare, dimensions_bare]
    rfl

end WrittenType

end JavaIndex
