import JavaIndex.Resolve.LocalClasses
import Mathlib.Data.List.TakeWhile
import Std.Data.String.ToNat

/-! The names under which classes are known. A class of a body goes under a name that no program can
write: its first segment is made up afresh for each class, and no two classes share it. -/
namespace JavaIndex

/-- A word as a program writes it: nothing in it joins names, and nothing in it makes names up. -/
def Plain (word : String) : Prop := '.' ∉ word.toList ∧ '<' ∉ word.toList

namespace ClassName

/-- The name that a class in a body is given. -/
def madeUp (sort : String) (number : Nat) : String := "<" ++ sort ++ ">" ++ toString number

/-- The sorts of classes in bodies. -/
def sorts : List String := ["local", "anon"]

/-- The first segment of a name. -/
def stem (name : String) : List Char := name.toList.takeWhile (· ≠ '.')

/-- The name itself, or the name of something inside. -/
def Within (outer name : String) : Prop := name = outer ∨ ∃ rest, name = outer ++ "." ++ rest

/-- The name belongs to one of so many classes in bodies. -/
def MadeBefore (count : Nat) (name : String) : Prop :=
  ∃ sort ∈ sorts, ∃ number < count, stem name = (madeUp sort number).toList

/-- No class without a name goes under this one. -/
def Mentionable (name : String) : Prop := ∀ number, name ≠ madeUp "anon" number

theorem takeWhile_at_dot (xs ys : List Char) :
    (xs ++ '.' :: ys).takeWhile (· ≠ '.') = xs.takeWhile (· ≠ '.') := by
  induction xs with
  | nil => simp
  | cons x xs ih =>
    by_cases h : x = '.'
    · simp [h]
    · simpa [h] using ih

theorem stem_of_free {name : String} (free : '.' ∉ name.toList) : stem name = name.toList := by
  rw [stem, List.takeWhile_eq_self_iff]
  intro x hx
  simpa using fun h : x = '.' => free (h ▸ hx)

theorem toList_inside (outer name : String) :
    (outer ++ "." ++ name).toList = outer.toList ++ '.' :: name.toList := by
  simp [String.toList_append]

theorem stem_inside (outer name : String) : stem (outer ++ "." ++ name) = stem outer := by
  rw [stem, toList_inside, takeWhile_at_dot, stem]

theorem Within.stem_eq {outer name : String} (inside : Within outer name) :
    stem name = stem outer := by
  obtain rfl | ⟨rest, rfl⟩ := inside
  · rfl
  · exact stem_inside outer rest

theorem Within.refl (name : String) : Within name name := .inl rfl

theorem Within.member (outer name : String) : Within outer (outer ++ "." ++ name) := .inr ⟨name, rfl⟩

theorem Within.trans {a b c : String} (first : Within a b) (second : Within b c) : Within a c := by
  obtain rfl | ⟨r, rfl⟩ := first
  · exact second
  · obtain rfl | ⟨s, rfl⟩ := second
    · exact .inr ⟨r, rfl⟩
    · exact .inr ⟨r ++ "." ++ s, by simp [String.append_assoc]⟩

theorem Within.marked {outer name : String} (inside : Within outer name) (marked : '<' ∈ outer.toList) :
    '<' ∈ name.toList := by
  obtain rfl | ⟨rest, rfl⟩ := inside
  · exact marked
  · simp [String.toList_append, marked]

/-- What is inside a member of a class is not the class itself. -/
theorem Within.ne_outer {outer member name : String} (inside : Within (outer ++ "." ++ member) name) :
    name ≠ outer := by
  intro h
  subst h
  have size : ∀ rest : List Char, name.toList ≠ name.toList ++ '.' :: rest := by
    intro rest e
    have := congrArg List.length e
    simp at this
  obtain e | ⟨rest, e⟩ := inside
  · exact size _ ((congrArg String.toList e).trans (toList_inside name member))
  · refine size (member.toList ++ '.' :: rest.toList) ?_
    have h := congrArg String.toList e
    rw [toList_inside, toList_inside] at h
    simp at h

theorem drop_inside (outer : String) (rest : List Char) :
    (outer.toList ++ '.' :: rest).drop (outer.toList.length + 1) = rest := by
  rw [List.append_cons, List.drop_left']
  simp

/-- Nothing is inside two members of a class that have different names. -/
theorem Within.member_unique {outer a b name : String} (plainA : Plain a) (plainB : Plain b)
    (insideA : Within (outer ++ "." ++ a) name) (insideB : Within (outer ++ "." ++ b) name) :
    a = b := by
  have tail : ∀ {m : String}, Plain m → Within (outer ++ "." ++ m) name →
      ((name.toList.drop (outer.toList.length + 1)).takeWhile (· ≠ '.')) = m.toList := by
    intro m plain inside
    obtain rfl | ⟨rest, rfl⟩ := inside
    · rw [toList_inside, drop_inside]
      exact stem_of_free plain.1
    · rw [toList_inside, toList_inside, List.append_assoc, List.cons_append, drop_inside,
        takeWhile_at_dot]
      exact stem_of_free plain.1
  exact String.toList_inj.mp ((tail plainA insideA).symm.trans (tail plainB insideB))

theorem dot_notMem_toString (number : Nat) : '.' ∉ (toString number).toList := by
  intro h
  have := Nat.isDigit_of_mem_toDigits (b := 10) (by decide) (by decide)
    (show '.' ∈ Nat.toDigits 10 number by simpa [Nat.repr] using h)
  exact absurd this (by decide)

theorem dot_notMem_madeUp {sort : String} (known : sort ∈ sorts) (number : Nat) :
    '.' ∉ (madeUp sort number).toList := by
  have digits := dot_notMem_toString number
  simp only [sorts, List.mem_cons, List.not_mem_nil, or_false] at known
  obtain rfl | rfl := known <;> simpa [madeUp, String.toList_append] using digits

theorem stem_madeUp {sort : String} (known : sort ∈ sorts) (number : Nat) :
    stem (madeUp sort number) = (madeUp sort number).toList :=
  stem_of_free (dot_notMem_madeUp known number)

theorem madeUp_inj {sort sort' : String} {i j : Nat} (known : sort ∈ sorts) (known' : sort' ∈ sorts)
    (same : madeUp sort i = madeUp sort' j) : sort = sort' ∧ i = j := by
  have h := congrArg String.toList same
  simp only [sorts, List.mem_cons, List.not_mem_nil, or_false] at known known'
  obtain rfl | rfl := known <;> obtain rfl | rfl := known' <;>
    simp only [madeUp, String.toList_append, List.append_cancel_left_eq, String.toList_inj] at h
  · exact ⟨rfl, Nat.repr_inj.mp h⟩
  · simp at h
  · simp at h
  · exact ⟨rfl, Nat.repr_inj.mp h⟩

/-- A name that has just been made up is not one of those made up before. -/
theorem not_madeBefore {sort name : String} {count : Nat} (known : sort ∈ sorts)
    (inside : Within (madeUp sort count) name) : ¬ MadeBefore count name := by
  rintro ⟨sort', known', number, less, h⟩
  rw [inside.stem_eq, stem_madeUp known] at h
  have := (madeUp_inj known known' (String.toList_inj.mp h)).2
  omega

theorem madeBefore_succ {sort name : String} {count : Nat} (known : sort ∈ sorts)
    (inside : Within (madeUp sort count) name) : MadeBefore (count + 1) name :=
  ⟨sort, known, count, by omega, by rw [inside.stem_eq, stem_madeUp known]⟩

theorem MadeBefore.mono {i j : Nat} {name : String} (made : MadeBefore i name) (le : i ≤ j) :
    MadeBefore j name := by
  obtain ⟨sort, known, number, less, h⟩ := made
  exact ⟨sort, known, number, by omega, h⟩

/-- A made-up name shows that it is one. -/
theorem MadeBefore.marked {count : Nat} {name : String} (made : MadeBefore count name) :
    '<' ∈ name.toList := by
  obtain ⟨sort, -, number, -, h⟩ := made
  refine (List.takeWhile_subset (fun c => decide (c ≠ '.')) : _ ⊆ name.toList) ?_
  change '<' ∈ stem name
  rw [h]
  simp [madeUp, String.toList_append]

theorem mentionable_of_unmarked {name : String} (unmarked : '<' ∉ name.toList) :
    Mentionable name := by
  rintro number rfl
  exact unmarked (by simp [madeUp, String.toList_append])

theorem mentionable_inside (outer name : String) : Mentionable (outer ++ "." ++ name) := by
  intro number h
  refine dot_notMem_madeUp (by simp [sorts] : "anon" ∈ sorts) number ?_
  rw [← h, toList_inside]
  simp

theorem mentionable_within (outer : String) {name : String} (plain : Plain name) :
    Mentionable (Dotted.within outer name) := by
  unfold Dotted.within
  split
  · exact mentionable_of_unmarked plain.2
  · exact mentionable_inside outer name

theorem mentionable_local (number : Nat) : Mentionable (madeUp "local" number) := by
  intro other h
  have := (madeUp_inj (by simp [sorts]) (by simp [sorts]) h).1
  exact absurd this (by decide)

end ClassName
end JavaIndex
