import JavaIndex.Text.Blank
import JavaIndex.Text.Lists
import Mathlib.Data.List.Basic
import Mathlib.Data.List.TakeWhile

/-! Texts put together and taken apart again: what is cut off at the ends of a text is what was put there, and lines
that were ended one after the other are the lines that are read. -/
namespace JavaIndex

namespace Lists

section

variable {α : Type} [BEq α] [LawfulBEq α]

theorem dropFront?_append (front rest : List α) : dropFront? front (front ++ rest) = some rest := by
  induction front with
  | nil => rfl
  | cons x xs ih => simp [dropFront?, ih]

theorem dropBack?_append (front back : List α) : dropBack? back (front ++ back) = some front := by
  simp [dropBack?, dropFront?_append]

theorem dropFront?_head {x y : α} (differ : x ≠ y) (xs ys : List α) : dropFront? (x :: xs) (y :: ys) = none := by
  simp [dropFront?, differ]

theorem dropBack?_last {x y : α} (differ : x ≠ y) (xs ys : List α) : dropBack? (xs ++ [x]) (ys ++ [y]) = none := by
  simp [dropBack?, dropFront?_head differ]

end

section

variable {α : Type} {p : α → Bool}

theorem dropWhile_append_of_head {front rest : List α} (front_fits : ∀ x ∈ front, p x = true)
    (stop : ∀ x ∈ rest.head?, p x = false) : (front ++ rest).dropWhile p = rest := by
  rw [List.dropWhile_append_of_pos front_fits]
  cases rest with
  | nil => rfl
  | cons x rest => rw [List.dropWhile_cons_of_neg (by simp [stop x rfl])]

/-- What the test accepts around a list is cut off, if it accepts neither end of the list. -/
theorem trimBy_append {front back xs : List α} (front_fits : ∀ x ∈ front, p x = true)
    (back_fits : ∀ x ∈ back, p x = true) (first : ∀ x ∈ xs.head?, p x = false)
    (last : ∀ x ∈ xs.getLast?, p x = false) : trimBy p (front ++ (xs ++ back)) = xs := by
  have last' : ∀ x ∈ xs.reverse.head?, p x = false := by rwa [List.head?_reverse]
  have back_fits' : ∀ x ∈ back.reverse, p x = true := by simpa using back_fits
  unfold trimBy
  cases xs with
  | nil =>
    rw [List.nil_append, List.dropWhile_append_of_pos front_fits, List.dropWhile_eq_nil_iff.mpr back_fits]
    rfl
  | cons x xs =>
    have stop : ∀ y ∈ (x :: xs ++ back).head?, p y = false := first
    rw [dropWhile_append_of_head front_fits stop, List.reverse_append, dropWhile_append_of_head back_fits' last',
      List.reverse_reverse]

end

theorem join_eq_intercalate (separator : List Char) (pieces : List (List Char)) :
    join separator pieces = separator.intercalate pieces := by
  fun_induction join separator pieces with
  | case1 => rfl
  | case2 => simp
  | case3 piece pieces some ih =>
    cases pieces with
    | nil => exact absurd rfl some
    | cons next pieces => rw [ih, List.intercalate_cons_cons]

end Lists

namespace Blank

theorem trimStart_append {indentation rest : List Char} (blank : ∀ c ∈ indentation, isBlank c = true)
    (stop : ∀ c ∈ rest.head?, isBlank c = false) : trimStart (indentation ++ rest) = rest :=
  Lists.dropWhile_append_of_head blank stop

theorem trimEnd_of_last {cs : List Char} (last : ∀ c ∈ cs.getLast?, isBlank c = false) : trimEnd cs = cs := by
  have stop : ∀ c ∈ cs.reverse.head?, isBlank c = false := by rwa [List.head?_reverse]
  have kept : ([] ++ cs.reverse).dropWhile isBlank = cs.reverse := Lists.dropWhile_append_of_head nofun stop
  rw [List.nil_append] at kept
  rw [trimEnd, kept, List.reverse_reverse]

/-- What ends a line: a line feed, or a carriage return with it. -/
def LineEnd (ending : List Char) : Prop := ending = ['\n'] ∨ ending = ['\r', '\n']

theorem linesFrom_append {line : List Char} (free : '\n' ∉ line) (held rest : List Char) :
    linesFrom held (line ++ rest) = linesFrom (line.reverse ++ held) rest := by
  induction line generalizing held with
  | nil => rfl
  | cons c line ih =>
    obtain ⟨other, free⟩ := not_or.mp (mt List.mem_cons.mpr free)
    rw [List.cons_append, linesFrom, if_neg (Ne.symm other), ih free]
    simp

theorem dropReturn_of_head {held : List Char} (other : ∀ c ∈ held.head?, c ≠ '\r') : dropReturn held = held := by
  cases held with
  | nil => rfl
  | cons c held =>
    rw [dropReturn]
    rintro cs same
    exact other c rfl (List.cons.inj same).1

/-- A line that was ended is read as the line that was ended. -/
theorem lines_append {line ending : List Char} (free : '\n' ∉ line) (last : ∀ c ∈ line.getLast?, c ≠ '\r')
    (ends : LineEnd ending) (rest : List Char) : lines (line ++ (ending ++ rest)) = line :: lines rest := by
  have held : dropReturn line.reverse = line.reverse := dropReturn_of_head (by rwa [List.head?_reverse])
  unfold lines
  rw [linesFrom_append free, List.append_nil]
  rcases ends with rfl | rfl
  · rw [List.singleton_append, linesFrom, if_pos rfl, held, List.reverse_reverse]
  · rw [List.cons_append, List.singleton_append, linesFrom, if_neg (by decide), linesFrom, if_pos rfl, dropReturn,
      List.reverse_reverse]

/-- What is left without a line end is one line, if it is anything. -/
theorem lines_of_free {line : List Char} (free : '\n' ∉ line) : ∀ l ∈ lines line, l = line := by
  have read := linesFrom_append free [] []
  rw [List.append_nil, List.append_nil, linesFrom] at read
  intro l mem
  rw [lines, read] at mem
  split at mem
  · cases mem
  · rw [List.mem_singleton.mp mem, List.reverse_reverse]

end Blank
end JavaIndex
