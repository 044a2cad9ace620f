import JavaIndex.Classpath.ClassInfo
import Mathlib.Data.List.Basic

/-! Types for type variables, given one after the other. What is put in for the variables of a type may hold
variables in turn; giving types to those is the same as having put in the final types at once. -/
namespace JavaIndex

namespace JavaType

mutual

/-- The type variables that a type mentions. -/
def mentions : JavaType → List String
  | .variable name => [name]
  | .named _ args => mentionsAll args
  | .array element => mentions element
  | .primitive _ | .null | .unknown => []

/-- The type variables that some types mention. -/
def mentionsAll : List JavaType → List String
  | [] => []
  | t :: ts => mentions t ++ mentionsAll ts

end

theorem substituteAll_eq (b : Bindings) (ts : List JavaType) : substituteAll b ts = ts.map (substitute b) := by
  induction ts with
  | nil => rfl
  | cons t ts ih => rw [substituteAll, ih, List.map_cons]

namespace Bindings

variable {b : Bindings} {n : String} {names : List String}

/-- The variable is given a type. -/
def Binds (b : Bindings) (n : String) : Prop := ∃ t, b.get? n = some t

/-- The same variables stand for types in which further variables have been given types. -/
def followedBy (b later : Bindings) : Bindings := b.map fun e => (e.1, e.2.substitute later)

theorem get?_followedBy (b later : Bindings) (n : String) :
    (b.followedBy later).get? n = (b.get? n).map (substitute later) := by
  unfold get? followedBy
  rw [List.find?_map, Option.map_map, Option.map_map]
  rfl

theorem get?_insert (b : Bindings) (m : String) (t : JavaType) (n : String) :
    (b.insert m t).get? n = if m = n then some t else b.get? n := by
  unfold get? insert
  by_cases same : m = n
  · simp [same]
  · rw [if_neg same, List.find?_cons_of_neg (by simpa using same), List.find?_filter]
    congr 2
    funext ⟨k, u⟩
    by_cases here : k = n
    · simp [here, Ne.symm same]
    · simp [here]

theorem insert_followedBy (b : Bindings) (m : String) (t : JavaType) (later : Bindings) :
    (b.insert m t).followedBy later = (b.followedBy later).insert m (t.substitute later) := by
  unfold followedBy insert
  rw [List.map_cons, List.filter_map]
  rfl

/-- Later types are given in the same way. -/
theorem ofLists_followedBy (names : List String) (types : List JavaType) (later : Bindings) :
    (ofLists names types).followedBy later = ofLists names (types.map (substitute later)) := by
  have from_here : ∀ (pairs : List (String × JavaType)) (b : Bindings),
      (pairs.foldl (fun b e => b.insert e.1 e.2) b).followedBy later =
        (pairs.map (Prod.map id (substitute later))).foldl (fun b e => b.insert e.1 e.2) (b.followedBy later) := by
    intro pairs
    induction pairs with
    | nil => exact fun _ => rfl
    | cons e pairs ih =>
      intro b
      rw [List.foldl_cons, ih, insert_followedBy, List.map_cons, List.foldl_cons]
      rfl
  unfold ofLists
  rw [List.zip_map_right]
  exact from_here _ []

theorem get?_foldl_of_notMem {pairs : List (String × JavaType)} (other : n ∉ pairs.map Prod.fst) (b : Bindings) :
    (pairs.foldl (fun b e => b.insert e.1 e.2) b).get? n = b.get? n := by
  induction pairs generalizing b with
  | nil => rfl
  | cons e pairs ih =>
    rw [List.map_cons, List.mem_cons, not_or] at other
    rw [List.foldl_cons, ih other.2, get?_insert, if_neg (Ne.symm other.1)]

/-- Each of different variables stands for the type in its place. -/
theorem get?_ofLists {types : List JavaType} (distinct : names.Nodup) (length : types.length = names.length) :
    names.map (ofLists names types).get? = types.map some := by
  have from_here : ∀ b : Bindings,
      names.map ((names.zip types).foldl (fun b e => b.insert e.1 e.2) b).get? = types.map some := by
    induction names generalizing types with
    | nil =>
      intro b
      rw [List.length_eq_zero_iff.mp length]
      rfl
    | cons m names ih =>
      intro b
      cases types with
      | nil => cases length
      | cons t types =>
        obtain ⟨new, distinct⟩ := List.nodup_cons.mp distinct
        rw [List.zip_cons_cons, List.foldl_cons, List.map_cons, List.map_cons, ih distinct (by simpa using length)]
        congr 1
        rw [get?_foldl_of_notMem, get?_insert, if_pos rfl]
        rw [List.map_fst_zip (by simpa using Nat.le_of_eq length.symm)]
        exact new
  exact from_here []

theorem binds_ofLists {types : List JavaType} (distinct : names.Nodup) (length : types.length = names.length)
    (hn : n ∈ names) : (ofLists names types).Binds n := by
  have given : (ofLists names types).get? n ∈ types.map some :=
    get?_ofLists distinct length ▸ List.mem_map_of_mem hn
  obtain ⟨t, -, same⟩ := List.mem_map.mp given
  exact ⟨t, same.symm⟩

end Bindings

variable {b : Bindings}

mutual

/-- If all variables of a type are given types, it does not matter whether these are completed before or after. -/
theorem substitute_substitute (later : Bindings) : ∀ {t : JavaType}, (∀ n ∈ mentions t, b.Binds n) →
    (t.substitute b).substitute later = t.substitute (b.followedBy later)
  | .variable name, bound => by
    obtain ⟨t, given⟩ := bound name List.mem_cons_self
    rw [substitute, substitute, Bindings.get?_followedBy, given]
    rfl
  | .named name args, bound => by
    rw [substitute, substitute, substitute, substituteAll_substituteAll later bound]
  | .array element, bound => by
    rw [substitute, substitute, substitute, substitute_substitute later (t := element) bound]
  | .primitive _, _ | .null, _ | .unknown, _ => rfl

theorem substituteAll_substituteAll (later : Bindings) : ∀ {ts : List JavaType},
    (∀ n ∈ mentionsAll ts, b.Binds n) →
    substituteAll later (substituteAll b ts) = substituteAll (b.followedBy later) ts
  | [], _ => rfl
  | t :: ts, bound => by
    rw [mentionsAll, List.forall_mem_append] at bound
    rw [substituteAll, substituteAll, substituteAll, substitute_substitute later bound.1,
      substituteAll_substituteAll later bound.2]

end

/-- Type variables are given their types. -/
theorem substitute_variables {names : List String} {types : List JavaType} (distinct : names.Nodup)
    (length : types.length = names.length) :
    (names.map JavaType.variable).map (substitute (.ofLists names types)) = types := by
  have given := Bindings.get?_ofLists distinct length
  apply List.map_injective_iff.mpr (fun _ _ => Option.some.inj)
  rw [← given, List.map_map, List.map_map]
  refine List.map_congr_left fun n hn => ?_
  obtain ⟨t, known⟩ := Bindings.binds_ofLists distinct length hn
  show some (substitute _ (.variable n)) = _
  rw [substitute, known, Option.getD_some]

end JavaType
end JavaIndex
