import JavaIndex.Token.Number
import Mathlib.Computability.Language
import Mathlib.Data.List.Infix

/-! The forms of numbers as languages. A form is made of classes of characters one after the other, and what is
measured in front of a text is the longest word of the form that the text begins with: each part is taken as far
as it goes, and where a part goes on the next one cannot begin. -/
namespace JavaIndex

/-- The measure of a text is the length of its longest beginning in the language, and there is one if any beginning
is in the language. -/
structure Measures (f : List Char → Option Nat) (L : Language Char) : Prop where
  found : ∀ {cs n}, f cs = some n → ∃ w ∈ L, w <+: cs ∧ w.length = n
  most : ∀ {cs w}, w ∈ L → w <+: cs → ∃ n, f cs = some n ∧ w.length ≤ n

/-- A word of the first language does not go on, within that language, with what begins a word of the second. -/
def Measures.Ends (L M : Language Char) : Prop := ∀ u c v w, u ∈ L → u ++ c :: v ∈ L → c :: w ∉ M

namespace Measures

variable {f g : List Char → Option Nat} {L M : Language Char}

theorem of_eq (h : Measures f L) (same : ∀ cs, g cs = f cs) : Measures g L := by
  rwa [funext same]

theorem nothing : Measures (fun _ => none) 0 := ⟨nofun, nofun⟩

theorem perhaps (h : Measures f L) : Measures (fun cs => some ((f cs).getD 0)) (1 + L) where
  found {cs n} same := by
    cases here : f cs with
    | none =>
      simp only [here, Option.getD_none, Option.some.injEq] at same
      exact ⟨[], .inl rfl, List.nil_prefix, same⟩
    | some m =>
      obtain ⟨w, hw, before, size⟩ := h.found here
      simp only [here, Option.getD_some, Option.some.injEq] at same
      exact ⟨w, .inr hw, before, size.trans same⟩
  most {cs w} mem before := by
    refine ⟨_, rfl, ?_⟩
    rcases mem with rfl | mem
    · exact Nat.zero_le _
    · obtain ⟨n, found, longer⟩ := h.most mem before
      rwa [found, Option.getD_some]

/-- The longer one of two. -/
protected theorem max (first : Measures f L) (second : Measures g M) :
    Measures (fun cs => max (f cs) (g cs)) (L + M) where
  found {cs n} same := by
    have either : f cs = some n ∨ g cs = some n := by
      cases here : f cs <;> cases there : g cs <;> simp only [here, there] at same <;> grind
    rcases either with here | here
    · obtain ⟨w, hw, rest⟩ := first.found here
      exact ⟨w, .inl hw, rest⟩
    · obtain ⟨w, hw, rest⟩ := second.found here
      exact ⟨w, .inr hw, rest⟩
  most {cs w} mem before := by
    rcases mem with mem | mem
    · obtain ⟨n, found, longer⟩ := first.most mem before
      cases other : g cs <;> simp only [found] <;> grind
    · obtain ⟨n, found, longer⟩ := second.most mem before
      cases other : f cs <;> simp only [found] <;> grind

/-- One after the other. -/
theorem seq (first : Measures f L) (second : Measures g M) (ends : Ends L M) :
    Measures (fun cs => (f cs).bind fun n => (g (cs.drop n)).map (n + ·)) (L * M) where
  found {cs n} same := by
    obtain ⟨k, hk, later⟩ := Option.bind_eq_some_iff.mp same
    obtain ⟨m, hm, rfl⟩ := Option.map_eq_some_iff.mp later
    obtain ⟨u, hu, ⟨rest, rfl⟩, rfl⟩ := first.found hk
    rw [List.drop_left] at hm
    obtain ⟨v, hv, before, rfl⟩ := second.found hm
    exact ⟨u ++ v, Language.append_mem_mul hu hv, by simpa using before, by simp⟩
  most {cs w} mem before := by
    obtain ⟨u, hu, v, hv, rfl⟩ := Language.mem_mul.mp mem
    have begins := (List.prefix_append u v).trans before
    obtain ⟨n, hn, longer⟩ := first.most hu begins
    obtain ⟨u', hu', before', rfl⟩ := first.found hn
    obtain ⟨more, rfl⟩ := List.prefix_of_prefix_length_le begins before' longer
    obtain ⟨rest, rfl⟩ := before'
    -- the first word goes on no further, or nothing of the second one is left
    have after : v <+: rest := by
      cases v with
      | nil => exact List.nil_prefix
      | cons d v =>
        cases more with
        | nil => simpa using before
        | cons c more =>
          have same : d :: v <+: c :: (more ++ rest) := by simpa using before
          obtain ⟨rfl, -⟩ := List.cons_prefix_cons.mp same
          exact absurd hv (ends u d more v hu hu')
    obtain ⟨m, hm, further⟩ := second.most hv after
    refine ⟨(u ++ more).length + m, by simp only [hn, Option.bind_some, List.drop_left, hm, Option.map_some], ?_⟩
    simp only [List.length_append]
    omega

end Measures

namespace Number

/-! Classes of characters. -/

/-- One character of a class. -/
def one (p : Char → Bool) : Language Char := {w | ∃ c, p c = true ∧ w = [c]}

/-- Characters of a class, or none. -/
def many (p : Char → Bool) : Language Char := {w | ∀ c ∈ w, p c = true}

/-- What may be missing. -/
def perhaps (L : Language Char) : Language Char := 1 + L

/-- A character of a class, and what is measured after it. -/
def front (p : Char → Bool) (f : List Char → Option Nat) : List Char → Option Nat
  | [] => none
  | c :: cs => if p c then (f cs).map (· + 1) else none

theorem measures_front (p : Char → Bool) {f : List Char → Option Nat} {L : Language Char} (h : Measures f L) :
    Measures (front p f) (one p * L) where
  found {cs n} same := by
    cases cs with
    | nil => cases same
    | cons c cs =>
      rw [front] at same
      split at same
      · rename_i isP
        obtain ⟨m, found, rfl⟩ := Option.map_eq_some_iff.mp same
        obtain ⟨w, hw, before, rfl⟩ := h.found found
        exact ⟨c :: w, ⟨[c], ⟨c, isP, rfl⟩, w, hw, rfl⟩, List.cons_prefix_cons.mpr ⟨rfl, before⟩, rfl⟩
      · cases same
  most {cs w} mem before := by
    obtain ⟨_, ⟨c, isP, rfl⟩, v, hv, rfl⟩ := mem
    obtain ⟨rest, rfl⟩ := before
    obtain ⟨n, found, longer⟩ := h.most hv (List.prefix_append v rest)
    exact ⟨n + 1, by simp [front, isP, found], Nat.succ_le_succ longer⟩

theorem measures_run (p : Char → Bool) : Measures (fun cs => some (run p cs)) (many p) where
  found {cs n} same := by
    obtain rfl := Option.some.inj same
    induction cs with
    | nil => exact ⟨[], nofun, List.nil_prefix, rfl⟩
    | cons c cs ih =>
      rw [run]
      split
      · rename_i isP
        obtain ⟨w, hw, before, size⟩ := ih rfl
        exact ⟨c :: w, List.forall_mem_cons.mpr ⟨isP, hw⟩, List.cons_prefix_cons.mpr ⟨rfl, before⟩, by simp [size]⟩
      · exact ⟨[], nofun, List.nil_prefix, rfl⟩
  most {cs w} mem before := by
    refine ⟨_, rfl, ?_⟩
    induction cs generalizing w with
    | nil => simp [List.prefix_nil.mp before]
    | cons c cs ih =>
      cases w with
      | nil => exact Nat.zero_le _
      | cons d w =>
        obtain ⟨rfl, further⟩ := List.cons_prefix_cons.mp before
        obtain ⟨isP, inside⟩ := List.forall_mem_cons.mp mem
        rw [run, if_pos isP]
        exact Nat.succ_le_succ (ih inside further)

theorem measures_atMostOne (p : Char → Bool) :
    Measures (fun cs => some (atMostOne p cs)) (perhaps (one p)) := by
  have end_here : Measures (fun _ => some 0) 1 := ⟨fun same => ⟨[], rfl, List.nil_prefix, Option.some.inj same⟩, by
    rintro cs w rfl -
    exact ⟨0, rfl, Nat.le_refl 0⟩⟩
  have single := (measures_front p end_here).perhaps
  rw [mul_one] at single
  refine single.of_eq fun cs => ?_
  cases cs with
  | nil => rfl
  | cons c cs => cases isP : p c <;> simp [atMostOne, front, isP]

theorem measures_runOne (p : Char → Bool) : Measures (runOne p) (one p * many p) := by
  refine (measures_front p (measures_run p)).of_eq fun cs => ?_
  cases cs with
  | nil => rfl
  | cons c cs => cases isP : p c <;> simp [runOne, run, front, isP]

/-! Where one part goes on the next cannot begin: they are made of different characters. -/

/-- The words are made of characters of a class. -/
def Over (p : Char → Bool) (L : Language Char) : Prop := ∀ w ∈ L, ∀ c ∈ w, p c = true

/-- The words begin with characters of a class, if they are not empty. -/
def Opens (p : Char → Bool) (L : Language Char) : Prop := ∀ c w, c :: w ∈ L → p c = true

section

variable {p q : Char → Bool} {L M : Language Char}

theorem ends_of_classes (made : Over p L) (opens : Opens q M) (apart : ∀ c, q c = true → p c = false) :
    Measures.Ends L M := by
  intro u c v w _ longer begins
  have inside := made _ longer c (by simp)
  rw [apart c (opens c w begins)] at inside
  cases inside

theorem Over.one (within : ∀ c, q c = true → p c = true) : Over p (one q) := by
  rintro w ⟨c, isQ, rfl⟩
  simpa using within c isQ

theorem Over.many (within : ∀ c, q c = true → p c = true) : Over p (many q) :=
  fun _ mem c hc => within c (mem c hc)

theorem Over.mul (first : Over p L) (second : Over p M) : Over p (L * M) := by
  rintro w mem c hc
  obtain ⟨u, hu, v, hv, rfl⟩ := Language.mem_mul.mp mem
  rcases List.mem_append.mp hc with hc | hc
  · exact first u hu c hc
  · exact second v hv c hc

theorem Over.add (first : Over p L) (second : Over p M) : Over p (L + M) :=
  fun w mem => mem.elim (first w) (second w)

theorem Over.nothing : Over p 0 := nofun

theorem Over.perhaps (h : Over p L) : Over p (perhaps L) := by
  refine .add ?_ h
  rintro w rfl
  simp

theorem Opens.one (within : ∀ c, q c = true → p c = true) : Opens p (one q) := by
  rintro c w ⟨d, isQ, same⟩
  rw [(List.cons.inj same).1]
  exact within d isQ

theorem Opens.one_mul (within : ∀ c, q c = true → p c = true) : Opens p (Number.one q * L) := by
  intro c w mem
  obtain ⟨u, ⟨d, isQ, rfl⟩, v, -, same⟩ := Language.mem_mul.mp mem
  rw [← (List.cons.inj same).1]
  exact within d isQ

theorem Opens.mul (first : Opens p L) (second : Opens p M) : Opens p (L * M) := by
  intro c w mem
  obtain ⟨u, hu, v, hv, same⟩ := Language.mem_mul.mp mem
  cases u with
  | nil => exact second c w (same ▸ hv)
  | cons d u =>
    obtain ⟨rfl, -⟩ := List.cons.inj same
    exact first d u hu

theorem Opens.add (first : Opens p L) (second : Opens p M) : Opens p (L + M) :=
  fun c w mem => mem.elim (first c w) (second c w)

theorem Opens.perhaps (h : Opens p L) : Opens p (perhaps L) := .add nofun h

end

/-! Forms. -/

/-- A digit, then digits and underscores. -/
def digitWords : Language Char := one Identifier.isDigit * many isDigitPart

/-- The mark of an exponent. -/
def isExponentMark (c : Char) : Bool := c == 'e' || c == 'E'

/-- The sign of an exponent. -/
def isExponentSign (c : Char) : Bool := c == '+' || c == '-'

/-- May stand in an exponent. -/
def isExponentPart (c : Char) : Bool := isExponentMark c || isExponentSign c || Identifier.isDigit c

/-- Digits of a radix after a zero and the mark of the radix, and perhaps the long suffix. -/
def radixWords (isMark isPart : Char → Bool) : Language Char :=
  one (· == '0') * (one isMark * (one isPart * many isPart * perhaps (one isLongMark)))

/-- A whole number with perhaps a suffix. -/
def wholeWords : Language Char := digitWords * perhaps (one fun c => isLongMark c || isFloatMark c)

/-- An exponent. -/
def exponentWords : Language Char :=
  one isExponentMark * (perhaps (one isExponentSign) * (one Identifier.isDigit * many Identifier.isDigit))

/-- A whole number with an exponent, and perhaps a suffix. -/
def scientificWords : Language Char := digitWords * (exponentWords * perhaps (one isFloatMark))

/-- A point, digits, perhaps an exponent, perhaps a suffix. -/
def fractionWords : Language Char :=
  one (· == '.') * (digitWords * (perhaps exponentWords * perhaps (one isFloatMark)))

/-- Digits before a fraction. -/
def decimalWords : Language Char := digitWords * fractionWords

theorem isDigitPart_of_isDigit (c : Char) (digit : Identifier.isDigit c = true) : isDigitPart c = true := by
  rw [isDigitPart, digit, Bool.true_or]

theorem digitWords_over : Over isDigitPart digitWords :=
  .mul (.one isDigitPart_of_isDigit) (.many fun _ => id)

/-! Every form is measured by its parts. -/

theorem measures_digits : Measures digits digitWords := by
  refine (measures_front _ (measures_run isDigitPart)).of_eq fun cs => ?_
  cases cs with
  | nil => rfl
  | cons c cs => rfl

theorem measures_radix {isMark isPart : Char → Bool} (apart : ∀ c, isLongMark c = true → isPart c = false) :
    Measures (radix isMark isPart) (radixWords isMark isPart) := by
  have digits : Over isPart (one isPart * many isPart) := .mul (.one fun _ => id) (.many fun _ => id)
  have suffixed := (measures_runOne isPart).seq (measures_atMostOne isLongMark)
    (ends_of_classes digits (Opens.one fun _ => id).perhaps apart)
  refine (measures_front (· == '0') (measures_front isMark suffixed)).of_eq fun cs => ?_
  match cs with
  | [] => rfl
  | [c] => cases zero : c == '0' <;> simp [radix, front, zero]
  | c :: d :: cs =>
    by_cases zero : c = '0'
    · subst zero
      cases marked : isMark d with
      | false => simp [radix, front, marked]
      | true =>
        cases parts : runOne isPart cs with
        | none => simp [radix, front, marked, parts]
        | some n =>
          simp [radix, front, marked, parts]
          omega
    · simp [radix, front, zero]

theorem isLongMark_apart {p : Char → Bool} (none : p 'l' = false ∧ p 'L' = false) (c : Char)
    (mark : isLongMark c = true) : p c = false := by
  simp only [isLongMark, Bool.or_eq_true, beq_iff_eq] at mark
  rcases mark with rfl | rfl
  · exact none.1
  · exact none.2

theorem measures_whole : Measures whole wholeWords := by
  have apart : ∀ c, (isLongMark c || isFloatMark c) = true → isDigitPart c = false := by
    intro c mark
    simp only [isLongMark, isFloatMark, Bool.or_eq_true, beq_iff_eq] at mark
    rcases mark with (rfl | rfl) | ((rfl | rfl) | rfl) | rfl <;> rfl
  refine (measures_digits.seq (measures_atMostOne _)
    (ends_of_classes digitWords_over (Opens.one fun _ => id).perhaps apart)).of_eq fun cs => ?_
  rw [whole]
  cases digits cs <;> rfl

theorem measures_exponent : Measures exponent exponentWords := by
  have apart : ∀ c, Identifier.isDigit c = true → isExponentSign c = false := by
    intro c digit
    by_contra sign
    have sign : isExponentSign c = true := by simpa using sign
    simp only [isExponentSign, Bool.or_eq_true, beq_iff_eq] at sign
    rcases sign with rfl | rfl <;> cases digit
  have signed := (measures_atMostOne isExponentSign).seq (measures_runOne Identifier.isDigit)
    (ends_of_classes (Over.one fun _ => id).perhaps (.one_mul fun _ => id) apart)
  refine (measures_front isExponentMark signed).of_eq fun cs => ?_
  cases cs with
  | nil => rfl
  | cons c cs =>
    change (if isExponentMark c then _ else none) = if isExponentMark c then _ else none
    congr 1
    let sign := atMostOne isExponentSign cs
    change (runOne Identifier.isDigit (cs.drop sign)).map (fun n => n + sign + 1) =
      ((runOne Identifier.isDigit (cs.drop sign)).map (sign + ·)).map (· + 1)
    cases runOne Identifier.isDigit (cs.drop sign) with
    | none => rfl
    | some n => simp [Nat.add_comm n]

theorem exponentWords_over : Over isExponentPart exponentWords := by
  have mark (c : Char) (h : isExponentMark c = true) : isExponentPart c = true := by simp [isExponentPart, h]
  have sign (c : Char) (h : isExponentSign c = true) : isExponentPart c = true := by simp [isExponentPart, h]
  have digit (c : Char) (h : Identifier.isDigit c = true) : isExponentPart c = true := by simp [isExponentPart, h]
  exact .mul (.one mark) (.mul (Over.one sign).perhaps (.mul (.one digit) (.many digit)))

theorem opens_exponent (L : Language Char) : Opens isExponentMark (exponentWords * L) := by
  rw [exponentWords, mul_assoc]
  exact .one_mul fun _ => id

theorem isExponentMark_apart (c : Char) (mark : isExponentMark c = true) : isDigitPart c = false := by
  simp only [isExponentMark, Bool.or_eq_true, beq_iff_eq] at mark
  rcases mark with rfl | rfl <;> rfl

theorem isFloatMark_apart {p : Char → Bool} (none : p 'f' = false ∧ p 'F' = false ∧ p 'd' = false ∧ p 'D' = false)
    (c : Char) (mark : isFloatMark c = true) : p c = false := by
  simp only [isFloatMark, Bool.or_eq_true, beq_iff_eq] at mark
  obtain ⟨f, F, d, D⟩ := none
  rcases mark with ((rfl | rfl) | rfl) | rfl <;> assumption

theorem measures_scientific : Measures scientific scientificWords := by
  have suffixed := measures_exponent.seq (measures_atMostOne isFloatMark)
    (ends_of_classes exponentWords_over (Opens.one fun _ => id).perhaps (isFloatMark_apart (by decide)))
  refine (measures_digits.seq suffixed
    (ends_of_classes digitWords_over (opens_exponent _) isExponentMark_apart)).of_eq fun cs => ?_
  cases whole : digits cs with
  | none => simp [scientific, whole]
  | some n =>
    cases power : exponent (cs.drop n) <;> simp [scientific, whole, power, Nat.add_assoc]

theorem measures_fraction : Measures fraction fractionWords := by
  have exponents : Over isExponentPart (perhaps exponentWords) := exponentWords_over.perhaps
  have suffixed := measures_exponent.perhaps.seq (measures_atMostOne isFloatMark)
    (ends_of_classes exponents (Opens.one fun _ => id).perhaps (isFloatMark_apart (by decide)))
  have apart : ∀ c, (isExponentMark c || isFloatMark c) = true → isDigitPart c = false := by
    intro c mark
    exact (Bool.or_eq_true_iff.mp mark).elim (isExponentMark_apart c) (isFloatMark_apart (by decide) c)
  have opens : Opens (fun c => isExponentMark c || isFloatMark c)
      (perhaps exponentWords * perhaps (one isFloatMark)) :=
    .mul (.perhaps (.one_mul fun c mark => by simp [mark]))
      (.perhaps (.one fun c mark => by simp [mark]))
  have tail := measures_digits.seq suffixed (ends_of_classes digitWords_over opens apart)
  refine (measures_front (· == '.') tail).of_eq fun cs => ?_
  cases cs with
  | nil => rfl
  | cons c cs =>
    by_cases point : c = '.'
    · subst point
      cases whole : digits cs with
      | none => simp [fraction, front, whole]
      | some n =>
        simp [fraction, front, whole]
        omega
    · simp [fraction, front, point]

theorem measures_decimal : Measures decimal decimalWords := by
  have apart : ∀ c, (c == '.') = true → isDigitPart c = false := by
    intro c point
    rw [eq_of_beq point]
    rfl
  refine (measures_digits.seq measures_fraction (ends_of_classes digitWords_over (.one_mul fun _ => id) apart)).of_eq fun cs => ?_
  cases whole : digits cs with
  | none => simp [decimal, whole]
  | some n => cases part : fraction (cs.drop n) <;> simp [decimal, whole, part]

/-- The numbers. -/
def numberWords : Language Char :=
  0 + radixWords (fun c => c == 'x' || c == 'X') isHexPart + radixWords (fun c => c == 'b' || c == 'B') isBinaryPart +
    wholeWords + scientificWords + decimalWords + fractionWords

/-- The longest number in front of a text is measured. -/
theorem measures_length : Measures length? numberWords :=
  .max (.max (.max (.max (.max (.max .nothing (measures_radix (isLongMark_apart (by decide))))
    (measures_radix (isLongMark_apart (by decide)))) measures_whole) measures_scientific) measures_decimal)
    measures_fraction

end Number

end JavaIndex
