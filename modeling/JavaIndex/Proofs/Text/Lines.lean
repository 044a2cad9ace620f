import JavaIndex.Text.LineIndex
import Mathlib.Algebra.Ring.Nat
import Mathlib.Data.List.DropRight
import Mathlib.Data.List.GetD
import Mathlib.Data.List.Pairwise

/-! Where the bytes of a text stand. Line starts ascend, so bisection finds the line of an offset; a later
offset has a later position, and where no line feed lies between two offsets they share a line. The line of an
offset is how many line feeds come before it, its column how many bytes have come since the last of them, and
from its position the offset is found again. -/
namespace JavaIndex

namespace Rank

/-- The entries in front are at most a number, and all others are above it. -/
structure Splits (table : Array Nat) (x r : Nat) : Prop where
  within : r ≤ table.size
  below : ∀ i < r, table.getD i 0 ≤ x
  above : ∀ i, r ≤ i → i < table.size → x < table.getD i 0

theorem Splits.unique {table : Array Nat} {x r r' : Nat} (first : Splits table x r)
    (second : Splits table x r') : r = r' := by
  rcases Nat.lt_trichotomy r r' with less | same | more
  · have low := second.below r less
    have high := first.above r (Nat.le_refl _) (by have := second.within; omega)
    omega
  · exact same
  · have low := first.below r' more
    have high := second.above r' (Nat.le_refl _) (by have := first.within; omega)
    omega

theorem Splits.of_append {table : Array Nat} {x : Nat} {xs ys : List Nat} (parts : table.toList = xs ++ ys)
    (below : ∀ n ∈ xs, n ≤ x) (above : ∀ n ∈ ys, x < n) : Splits table x xs.length := by
  have size : table.size = xs.length + ys.length := by rw [← Array.length_toList, parts, List.length_append]
  have entry (i : Nat) : table.getD i 0 = (xs ++ ys).getD i 0 := by
    rw [← parts, Array.getD_eq_getD_getElem?, List.getD_eq_getElem?_getD, Array.getElem?_toList]
  refine ⟨by omega, fun i less => ?_, fun i more inside => ?_⟩
  · rw [entry, List.getD_append _ _ _ _ less, List.getD_eq_getElem _ _ less]
    exact below _ (List.getElem_mem less)
  · have inside' : i - xs.length < ys.length := by omega
    rw [entry, List.getD_append_right _ _ _ _ more, List.getD_eq_getElem _ _ inside']
    exact above _ (List.getElem_mem inside')

variable {table : Array Nat} {x : Nat}
  (ascending : ∀ i j, i ≤ j → j < table.size → table.getD i 0 ≤ table.getD j 0)

include ascending

theorem bisect_splits (fuel low high : Nat) (order : low ≤ high) (inside : high ≤ table.size)
    (enough : high - low < 2 ^ fuel) (below : ∀ i < low, table.getD i 0 ≤ x)
    (above : ∀ i, high ≤ i → i < table.size → x < table.getD i 0) :
    Splits table x (bisect table x fuel low high) := by
  induction fuel generalizing low high with
  | zero =>
    have : low = high := by omega
    subst this
    exact ⟨inside, below, above⟩
  | succ fuel ih =>
    simp only [bisect]
    split
    · have : low = high := by omega
      subst this
      exact ⟨inside, below, above⟩
    · rename_i apart
      have half : (low + high) / 2 < high := by omega
      have enough' : high - low < 2 * 2 ^ fuel := by rw [Nat.pow_succ] at enough; omega
      split
      · rename_i small
        apply ih _ _ (by omega) inside (by omega)
        · intro i less
          have := ascending i ((low + high) / 2) (by omega) (by omega)
          omega
        · exact above
      · rename_i large
        apply ih _ _ (by omega) (by omega) (by omega) below
        intro i more less
        have := ascending ((low + high) / 2) i more less
        omega

theorem rank_splits : Splits table x (rank table x) := by
  apply bisect_splits ascending _ _ _ (Nat.zero_le _) (Nat.le_refl _)
  · exact Nat.lt_log2_self
  · intro i less
    omega
  · intro i more less
    omega

end Rank

namespace Span

theorem bytesOf_nil : bytesOf [] = 0 := rfl

theorem bytesOf_cons (c : Char) (cs : List Char) : bytesOf (c :: cs) = c.utf8Size + bytesOf cs := rfl

theorem bytesOf_append (xs ys : List Char) : bytesOf (xs ++ ys) = bytesOf xs + bytesOf ys := by
  induction xs with
  | nil => rw [List.nil_append, bytesOf_nil, Nat.zero_add]
  | cons x xs ih => rw [List.cons_append, bytesOf_cons, bytesOf_cons, ih, Nat.add_assoc]

theorem bytesOf_pos {cs : List Char} (some : cs ≠ []) : 0 < bytesOf cs := by
  cases cs with
  | nil => contradiction
  | cons c cs =>
    have := c.utf8Size_pos
    rw [bytesOf_cons]
    omega

theorem bytesOf_toList (text : String) : bytesOf text.toList = text.utf8ByteSize := by
  have all : ∀ cs : List Char, bytesOf cs = (String.ofList cs).utf8ByteSize := by
    intro cs
    induction cs with
    | nil => rfl
    | cons c cs ih =>
      have parts : String.ofList (c :: cs) = String.singleton c ++ String.ofList cs := by
        rw [← String.toList_inj]
        simp
      rw [parts, String.utf8ByteSize_append, String.utf8ByteSize_singleton, bytesOf_cons, ih]
  rw [all, String.ofList_toList]

/-! How one stretch of bytes lies to another. -/

/-- Both ends lie in the text. -/
def Inside (span : Span) (text : String) : Prop :=
  span.start ≤ text.utf8ByteSize ∧ span.stop ≤ text.utf8ByteSize

/-- One has ended where the other begins. -/
def Disjoint (a b : Span) : Prop := a.stop ≤ b.start ∨ b.stop ≤ a.start

/-- The other lies entirely within this one. -/
def Contains (a b : Span) : Prop := a.start ≤ b.start ∧ b.stop ≤ a.stop

/-- They overlap, and neither lies within the other. -/
def Crosses (a b : Span) : Prop := ¬ a.Disjoint b ∧ ¬ a.Contains b ∧ ¬ b.Contains a

end Span

namespace LineIndex

open Rank (Splits)
open Span (bytesOf bytesOf_nil bytesOf_cons bytesOf_append)

theorem startsAfter_append (offset : Nat) (xs ys : List Char) :
    startsAfter offset (xs ++ ys) = startsAfter offset xs ++ startsAfter (offset + bytesOf xs) ys := by
  induction xs generalizing offset with
  | nil => rfl
  | cons x xs ih =>
    have next : offset + (x.utf8Size + bytesOf xs) = offset + x.utf8Size + bytesOf xs := by omega
    rw [List.cons_append, startsAfter, startsAfter, ih, bytesOf_cons, next]
    split <;> rfl

theorem startsAfter_bounds {offset s : Nat} {cs : List Char} (start : s ∈ startsAfter offset cs) :
    offset < s ∧ s ≤ offset + bytesOf cs := by
  induction cs generalizing offset with
  | nil => cases start
  | cons c cs ih =>
    have size := c.utf8Size_pos
    rw [bytesOf_cons]
    rw [startsAfter] at start
    split at start
    · rcases List.mem_cons.mp start with rfl | later
      · omega
      · have := ih later
        omega
    · have := ih start
      omega

theorem startsAfter_pairwise (offset : Nat) (cs : List Char) :
    (startsAfter offset cs).Pairwise (· < ·) := by
  induction cs generalizing offset with
  | nil => exact .nil
  | cons c cs ih =>
    rw [startsAfter]
    split
    · exact .cons (fun s start => (startsAfter_bounds start).1) (ih _)
    · exact ih _

theorem startsAfter_of_free {offset : Nat} {cs : List Char} (free : '\n' ∉ cs) :
    startsAfter offset cs = [] := by
  induction cs generalizing offset with
  | nil => rfl
  | cons c cs ih =>
    rw [List.mem_cons, not_or] at free
    rw [startsAfter, if_neg (Ne.symm free.1)]
    exact ih free.2

section

variable {text : String} {a b : Nat}

theorem size_ofText (text : String) : (ofText text).size = bytesOf text.toList :=
  (Span.bytesOf_toList text).symm

theorem starts_pairwise (text : String) : (ofText text).starts.toList.Pairwise (· < ·) :=
  .cons (fun _ start => (startsAfter_bounds start).1) (startsAfter_pairwise 0 text.toList)

theorem starts_ascending (text : String) (i j : Nat) (order : i ≤ j) (inside : j < (ofText text).starts.size) :
    (ofText text).starts.getD i 0 ≤ (ofText text).starts.getD j 0 := by
  have inside' : i < (ofText text).starts.size := by omega
  rw [← Array.getElem_eq_getD (h := inside), ← Array.getElem_eq_getD (h := inside')]
  rcases Nat.eq_or_lt_of_le order with rfl | less
  · exact Nat.le_refl _
  · exact Nat.le_of_lt (List.pairwise_iff_getElem.mp (starts_pairwise text) i j inside' inside less)

theorem rank_splits (text : String) (offset : Nat) :
    Rank.Splits (ofText text).starts offset (Rank.rank (ofText text).starts offset) :=
  Rank.rank_splits (starts_ascending text)

/-- The first line starts at zero, so that every offset has a line. -/
theorem rank_pos (text : String) (offset : Nat) : 0 < Rank.rank (ofText text).starts offset := by
  by_contra none
  have first := (rank_splits text offset).above 0 (by omega) (by simp [ofText])
  simp [ofText] at first

theorem position_of_inside (inside : a ≤ (ofText text).size) :
    (ofText text).position a =
      ⟨(ofText text).lineOf a, a - (ofText text).starts.getD ((ofText text).lineOf a) 0⟩ := by
  rw [position, Nat.min_eq_left inside]

theorem start_le (text : String) (offset : Nat) :
    (ofText text).starts.getD ((ofText text).lineOf offset) 0 ≤ offset := by
  have pos := rank_pos text offset
  exact (rank_splits text offset).below _ (by rw [lineOf]; omega)

theorem lineOf_mono (text : String) (order : a ≤ b) : (ofText text).lineOf a ≤ (ofText text).lineOf b := by
  have splitsA := rank_splits text a
  have splitsB := rank_splits text b
  by_contra later
  simp only [lineOf] at later
  have low := splitsA.below (Rank.rank (ofText text).starts b) (by omega)
  have high := splitsB.above (Rank.rank (ofText text).starts b) (Nat.le_refl _) (by
    have := splitsA.within
    omega)
  omega

/-- Positions are ordered as the offsets are. -/
theorem compare_position (insideA : a ≤ (ofText text).size) (insideB : b ≤ (ofText text).size) :
    Position.order ((ofText text).position a) ((ofText text).position b) = compare a b := by
  have forward : ∀ {a b : Nat}, a < b →
      ((compare ((ofText text).lineOf a) ((ofText text).lineOf b)).then
        (compare (a - (ofText text).starts.getD ((ofText text).lineOf a) 0)
          (b - (ofText text).starts.getD ((ofText text).lineOf b) 0))) = .lt := by
    intro a b less
    rcases Nat.eq_or_lt_of_le (lineOf_mono text (Nat.le_of_lt less)) with same | before
    · have start := start_le text a
      rw [← same, Ordering.then_eq_lt, Nat.compare_eq_lt, Nat.compare_eq_lt, Nat.compare_eq_eq]
      omega
    · rw [Ordering.then_eq_lt, Nat.compare_eq_lt]
      exact .inl before
  rw [position_of_inside insideA, position_of_inside insideB, Position.order]
  rcases Nat.lt_trichotomy a b with less | rfl | more
  · rw [forward less, Nat.compare_eq_lt.mpr less]
  · simp
  · rw [Nat.compare_eq_gt.mpr more, ← Ordering.swap_inj, Ordering.swap_then, ← Nat.compare_swap,
      ← Nat.compare_swap (b - _)]
    simpa using forward more

theorem position_injective (insideA : a ≤ (ofText text).size) (insideB : b ≤ (ofText text).size)
    (same : (ofText text).position a = (ofText text).position b) : a = b := by
  have compared := compare_position insideA insideB
  rw [same, Position.order] at compared
  apply Nat.compare_eq_eq.mp
  rw [← compared]
  simp

theorem atMost_iff (p q : Position) : p.atMost q = true ↔ Position.order p q ≠ .gt := by
  simp only [Position.atMost, Position.order, Bool.or_eq_true, Bool.and_eq_true, decide_eq_true_eq,
    beq_iff_eq, ne_eq, Ordering.then_eq_gt, Nat.compare_eq_gt, Nat.compare_eq_eq]
  omega

theorem before_iff (p q : Position) : p.before q = true ↔ Position.order p q = .lt := by
  simp only [Position.before, Position.order, Bool.or_eq_true, Bool.and_eq_true, decide_eq_true_eq,
    beq_iff_eq, Ordering.then_eq_lt, Nat.compare_eq_lt, Nat.compare_eq_eq]

theorem position_atMost (insideA : a ≤ (ofText text).size) (insideB : b ≤ (ofText text).size) :
    ((ofText text).position a).atMost ((ofText text).position b) = true ↔ a ≤ b := by
  rw [atMost_iff, compare_position insideA insideB, ne_eq, Nat.compare_eq_gt]
  omega

theorem position_before (insideA : a ≤ (ofText text).size) (insideB : b ≤ (ofText text).size) :
    ((ofText text).position a).before ((ofText text).position b) = true ↔ a < b := by
  rw [before_iff, compare_position insideA insideB, Nat.compare_eq_lt]

/-- Two offsets with no line feed between them share a line. -/
theorem lineOf_of_free {pre mid post : List Char} (split : text.toList = pre ++ (mid ++ post))
    (free : '\n' ∉ mid) :
    (ofText text).lineOf (bytesOf pre) = (ofText text).lineOf (bytesOf pre + bytesOf mid) := by
  have starts : (ofText text).starts.toList =
      0 :: (startsAfter 0 pre ++ startsAfter (bytesOf pre + bytesOf mid) post) := by
    rw [ofText, split, startsAfter_append, startsAfter_append, startsAfter_of_free free, Nat.zero_add]
    rfl
  -- every line starts before both offsets, or after both
  have apart : ∀ s ∈ (ofText text).starts.toList, s ≤ bytesOf pre + bytesOf mid → s ≤ bytesOf pre := by
    intro s start reached
    rw [starts] at start
    rcases List.mem_cons.mp start with rfl | start
    · exact Nat.zero_le _
    · rcases List.mem_append.mp start with before | after
      · have := startsAfter_bounds before
        omega
      · have := startsAfter_bounds after
        omega
  have splits := rank_splits text (bytesOf pre + bytesOf mid)
  have same := Splits.unique (rank_splits text (bytesOf pre)) ⟨splits.within, ?_, ?_⟩
  · rw [lineOf, lineOf, same]
  · intro i less
    have reached := splits.below i less
    have inside : i < (ofText text).starts.size := by
      have := splits.within
      omega
    rw [← Array.getElem_eq_getD (h := inside)] at reached ⊢
    exact apart _ (Array.getElem_mem_toList inside) reached
  · intro i more inside
    have := splits.above i more inside
    omega

end

/-! Positions read off the bytes of the text. -/

/-- The byte that ends a line. -/
def lineFeed : UInt8 := 10

/-- The text in UTF-8. -/
def bytes (text : String) : List UInt8 := text.toUTF8.data.toList

/-- The bytes of the text in front of an offset. -/
def bytesBefore (text : String) (offset : Nat) : List UInt8 := (bytes text).take offset

theorem bytes_eq_flatMap (text : String) : bytes text = text.toList.flatMap String.utf8EncodeChar := by
  rw [bytes, String.toUTF8_eq_toByteArray, ← String.utf8Encode_toList, List.utf8Encode, List.data_toByteArray,
    List.toList_toArray]

theorem length_bytes (text : String) : (bytes text).length = text.utf8ByteSize :=
  String.size_toByteArray

/-- All bytes of a character that takes more than one have their highest bit set. -/
theorem le_of_mem_encode {c : Char} (long : 127 < c.val.toNat) : ∀ b ∈ String.utf8EncodeChar c, 128 ≤ b.toNat := by
  fun_cases String.utf8EncodeChar c with
  | case1 v short => omega
  | case2 | case3 | case4 =>
    simp only [List.forall_mem_cons, UInt8.toNat_ofNat', List.not_mem_nil, false_implies, implies_true, and_true]
    omega

/-- The byte of a line feed is a part of no other character. -/
theorem eq_of_lineFeed_mem {c : Char} (feed : lineFeed ∈ String.utf8EncodeChar c) : c = '\n' := by
  by_cases short : c.val.toNat ≤ 127
  · rw [String.utf8EncodeChar, if_pos short, List.mem_singleton] at feed
    have value := congrArg UInt8.toNat feed
    rw [UInt8.toNat_ofNat', Nat.mod_eq_of_lt (by omega)] at value
    exact Char.ext (UInt32.toNat_inj.mp value.symm)
  · exact absurd (le_of_mem_encode (by omega) _ feed) (by decide)

theorem startsAfter_eq_idxsOf (offset : Nat) (cs : List Char) :
    startsAfter offset cs = (cs.flatMap String.utf8EncodeChar).idxsOf lineFeed (offset + 1) := by
  induction cs generalizing offset with
  | nil => rfl
  | cons c cs ih =>
    have next : offset + 1 + (String.utf8EncodeChar c).length = offset + c.utf8Size + 1 := by
      rw [String.length_utf8EncodeChar]
      omega
    rw [List.flatMap_cons, List.idxsOf_append, next, ← ih, startsAfter]
    split
    · rename_i feed
      subst feed
      rfl
    · rename_i other
      have free : ∀ b ∈ String.utf8EncodeChar c, (b == lineFeed) = false := fun b here =>
        beq_eq_false_iff_ne.mpr fun feed => other (eq_of_lineFeed_mem (feed ▸ here))
      rw [List.idxsOf_eq_nil_iff.mpr free, List.nil_append]

/-- The first line starts at zero, every other one just after a line feed. -/
theorem starts_eq (text : String) : (ofText text).starts.toList = 0 :: (bytes text).idxsOf lineFeed 1 := by
  rw [bytes_eq_flatMap]
  exact congrArg (0 :: ·) (startsAfter_eq_idxsOf 0 text.toList)

/-! A text after lines that have ended, and a beginning of the next one. -/

/-- Lines that have all ended, or none. -/
def Ended (lines : List UInt8) : Prop := lines = [] ∨ ∃ before, lines = before ++ [lineFeed]

theorem ended_rdropWhile (before : List UInt8) : Ended (before.rdropWhile (· != lineFeed)) := by
  by_cases none : before.rdropWhile (· != lineFeed) = []
  · exact .inl none
  · have last := List.rdropWhile_last_not _ _ none
    rw [bne_iff_ne, not_not] at last
    exact .inr ⟨_, (last ▸ List.dropLast_append_getLast none).symm⟩

section

variable {text : String} {ended line rest : List UInt8} {offset : Nat}

theorem starts_append (split : bytes text = ended ++ (line ++ rest)) (free : lineFeed ∉ line) :
    (ofText text).starts.toList = (0 :: ended.idxsOf lineFeed 1) ++
      rest.idxsOf lineFeed (1 + ended.length + line.length) := by
  have none : line.idxsOf lineFeed (1 + ended.length) = [] :=
    List.idxsOf_eq_nil_iff.mpr fun b here => beq_eq_false_iff_ne.mpr fun feed => free (feed ▸ here)
  rw [starts_eq, split, List.idxsOf_append, List.idxsOf_append, none, List.nil_append, List.cons_append]

theorem lineOf_append (split : bytes text = ended ++ (line ++ rest)) (free : lineFeed ∉ line) :
    (ofText text).lineOf (ended.length + line.length) = ended.count lineFeed := by
  have splits : Splits (ofText text).starts (ended.length + line.length) (0 :: ended.idxsOf lineFeed 1).length := by
    refine .of_append (starts_append split free) ?_ fun n later => ?_
    · intro n start
      rcases List.mem_cons.mp start with rfl | start
      · exact Nat.zero_le _
      · have := List.lt_add_of_mem_idxsOf n start
        omega
    · have := List.ge_of_mem_idxsOf n later
      omega
  rw [lineOf, (rank_splits text _).unique splits, List.length_cons, List.length_idxsOf, Nat.add_sub_cancel]

theorem start_append (split : bytes text = ended ++ (line ++ rest)) (free : lineFeed ∉ line)
    (closed : Ended ended) :
    (ofText text).starts.getD (ended.count lineFeed) 0 = ended.length := by
  rw [Array.getD_eq_getD_getElem?, ← Array.getElem?_toList, ← List.getD_eq_getElem?_getD, starts_append split free]
  rcases closed with rfl | ⟨lines, rfl⟩
  · rfl
  · have index : (lines ++ [lineFeed]).count lineFeed = (0 :: lines.idxsOf lineFeed 1).length := by
      rw [List.count_append, List.count_singleton_self, List.length_cons, List.length_idxsOf]
    have starts : 0 :: (lines ++ [lineFeed]).idxsOf lineFeed 1 =
        (0 :: lines.idxsOf lineFeed 1) ++ [1 + lines.length] := by
      rw [List.idxsOf_append, List.cons_append]
      rfl
    rw [index, starts, List.append_assoc, List.getD_append_right _ _ _ _ (Nat.le_refl _), Nat.sub_self,
      List.length_append, List.length_singleton, Nat.add_comm]
    rfl

/-- The line of an offset is how many line feeds come before it, and the column is how many bytes have come since the
last of them. -/
theorem position_eq (inside : offset ≤ text.utf8ByteSize) :
    (ofText text).position offset = ⟨(bytesBefore text offset).count lineFeed,
      ((bytesBefore text offset).rtakeWhile (· != lineFeed)).length⟩ := by
  let ended := (bytesBefore text offset).rdropWhile (· != lineFeed)
  let line := (bytesBefore text offset).rtakeWhile (· != lineFeed)
  have together : ended ++ line = bytesBefore text offset := List.rdropWhile_append_rtakeWhile
  have split : bytes text = ended ++ (line ++ (bytes text).drop offset) := by
    rw [← List.append_assoc, together, bytesBefore, List.take_append_drop]
  have free : lineFeed ∉ line := fun here => by
    have other := List.mem_rtakeWhile_imp here
    exact bne_iff_ne.mp other rfl
  have here : offset = ended.length + line.length := by
    rw [← List.length_append, together, bytesBefore, List.length_take, length_bytes, Nat.min_eq_left inside]
  have counted : (bytesBefore text offset).count lineFeed = ended.count lineFeed := by
    rw [← together, List.count_append, List.count_eq_zero.mpr free, Nat.add_zero]
  rw [position_of_inside inside, counted]
  conv_lhs => rw [here, lineOf_append split free, start_append split free (ended_rdropWhile _), Nat.add_sub_cancel_left]

/-! Back from a position to the offset. -/

theorem start_of_lineOf (text : String) (offset : Nat) :
    (ofText text).starts[(ofText text).lineOf offset]? =
      some ((ofText text).starts.getD ((ofText text).lineOf offset) 0) := by
  have within := (rank_splits text offset).within
  have pos := rank_pos text offset
  have inside : (ofText text).lineOf offset < (ofText text).starts.size := by
    rw [lineOf]
    omega
  rw [← Array.getElem_eq_getD (h := inside), Array.getElem?_eq_getElem inside]

/-- In a short text the offset is found again from its position. -/
theorem offset?_position (short : text.utf8ByteSize < 2 ^ 32) (inside : offset ≤ text.utf8ByteSize) :
    (ofText text).offset? ((ofText text).position offset) = some offset := by
  have start := start_le text offset
  have fits : Position.wrap offset = offset := Nat.mod_eq_of_lt (Nat.lt_of_le_of_lt inside short)
  rw [position_of_inside inside, offset?, start_of_lineOf, Option.map_some, Nat.add_sub_cancel' start, fits]

/-- No other position of that line has this offset. -/
theorem position_of_offset? {p : Position} (inside : offset ≤ text.utf8ByteSize) (narrow : p.column < 2 ^ 32)
    (line : p.line = ((ofText text).position offset).line) (found : (ofText text).offset? p = some offset) :
    p = (ofText text).position offset := by
  have start := start_le text offset
  rw [position_of_inside inside] at line ⊢
  rw [offset?, line, start_of_lineOf, Option.map_some, Option.some.injEq, Position.wrap] at found
  -- a column that wraps would be longer than a word
  have column : p.column = offset - (ofText text).starts.getD ((ofText text).lineOf offset) 0 := by omega
  cases p
  cases line
  cases column
  rfl

/-! Stretches of bytes and their regions. -/

variable {a b : Span}

theorem region_disjoint (first : a.Inside text) (second : b.Inside text) :
    ((ofText text).region a).disjoint ((ofText text).region b) = true ↔ a.Disjoint b := by
  rw [Region.disjoint, Bool.or_eq_true]
  exact or_congr (position_atMost first.2 second.1) (position_atMost second.2 first.1)

theorem region_contains (first : a.Inside text) (second : b.Inside text) :
    ((ofText text).region a).contains ((ofText text).region b) = true ↔ a.Contains b := by
  rw [Region.contains, Bool.and_eq_true]
  exact and_congr (position_atMost first.1 second.1) (position_atMost second.2 first.2)

theorem region_crosses (first : a.Inside text) (second : b.Inside text) :
    ((ofText text).region a).crosses ((ofText text).region b) = true ↔ a.Crosses b := by
  rw [Region.crosses, Bool.and_eq_true, Bool.and_eq_true, Bool.not_eq_true', Bool.not_eq_true', Bool.not_eq_true',
    ← Bool.not_eq_true, ← Bool.not_eq_true, ← Bool.not_eq_true, region_disjoint first second,
    region_contains first second, region_contains second first, and_assoc, Span.Crosses]

end

/-- In a text that words of 32 bits can address, offsets and positions are inverse: the offset is found again from its
position, and no other position of the line has it. The line of a position counts the line feeds in front, the column
the bytes since the last of them, later offsets have later positions, and stretches of bytes are disjoint, nested or
crossing just if their regions are. -/
theorem position_inverse (text : String) (short : text.utf8ByteSize < 2 ^ 32) :
    (∀ offset ≤ text.utf8ByteSize,
      (ofText text).offset? ((ofText text).position offset) = some offset ∧
      (∀ p : Position, p.column < 2 ^ 32 → p.line = ((ofText text).position offset).line →
        (ofText text).offset? p = some offset → p = (ofText text).position offset) ∧
      (ofText text).position offset = ⟨(bytesBefore text offset).count lineFeed,
        ((bytesBefore text offset).rtakeWhile (· != lineFeed)).length⟩) ∧
    (∀ a ≤ text.utf8ByteSize, ∀ b ≤ text.utf8ByteSize,
      compare ((ofText text).position a) ((ofText text).position b) = compare a b) ∧
    ∀ a b : Span, a.Inside text → b.Inside text →
      (((ofText text).region a).disjoint ((ofText text).region b) = true ↔ a.Disjoint b) ∧
      (((ofText text).region a).contains ((ofText text).region b) = true ↔ a.Contains b) ∧
      (((ofText text).region a).crosses ((ofText text).region b) = true ↔ a.Crosses b) := by
  refine ⟨fun offset inside => ?_, fun a first b second => compare_position first second, fun a b first second => ?_⟩
  · exact ⟨offset?_position short inside, fun p => position_of_offset? inside, position_eq inside⟩
  · exact ⟨region_disjoint first second, region_contains first second, region_crosses first second⟩

/-- A letter of two bytes, a line that ends with a carriage return, a blank line and one without an end. -/
theorem position_inverse_blank_line :
    let text := "é\r\n\nx"
    let index := ofText text
    text.utf8ByteSize < 2 ^ 32 ∧ text.utf8ByteSize = 6 ∧
    index.position 1 = ⟨0, 1⟩ ∧ index.position 3 = ⟨0, 3⟩ ∧ index.position 4 = ⟨1, 0⟩ ∧ index.position 6 = ⟨2, 1⟩ ∧
    index.offset? ⟨2, 1⟩ = some 6 ∧ compare (index.position 3) (index.position 4) = .lt ∧
    Span.Inside ⟨1, 4⟩ text ∧ Span.Inside ⟨3, 6⟩ text ∧ (index.region ⟨1, 4⟩).crosses (index.region ⟨3, 6⟩) = true := by
  intro text index
  have short : text.utf8ByteSize < 2 ^ 32 := by decide
  obtain ⟨places, order, stretches⟩ := position_inverse text short
  have counted (offset : Nat) (inside : offset ≤ text.utf8ByteSize) := (places offset inside).2.2
  have last : index.position 6 = ⟨2, 1⟩ := (counted 6 (by decide)).trans (by decide)
  have found : index.offset? (index.position 6) = some 6 := (places 6 (by decide)).1
  have first : Span.Inside ⟨1, 4⟩ text := ⟨by decide, by decide⟩
  have second : Span.Inside ⟨3, 6⟩ text := ⟨by decide, by decide⟩
  have crossing : Span.Crosses ⟨1, 4⟩ ⟨3, 6⟩ := by unfold Span.Crosses Span.Disjoint Span.Contains; decide
  refine ⟨short, by decide, (counted 1 (by decide)).trans (by decide), (counted 3 (by decide)).trans (by decide),
    (counted 4 (by decide)).trans (by decide), last, last ▸ found, order 3 (by decide) 4 (by decide), first, second,
    (stretches _ _ first second).2.2.mpr crossing⟩

end LineIndex
end JavaIndex
