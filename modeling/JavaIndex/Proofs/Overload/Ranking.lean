import JavaIndex.Overload
import Mathlib.Data.List.MinMax
import Mathlib.Data.Prod.Lex

/-! The choice among overloads as a ranking. Each rule that narrows the candidates keeps those that are foremost by
one key, and rules one after the other keep those that are foremost by their keys together, the earlier key
first. So the candidates that pass all rules are those of the greatest rank, wherever they stand. -/
namespace JavaIndex

namespace Candidate

/-- The types that receive so many arguments, one after the other. The last parameter may take what is left of the
arguments, unless there is one argument for each parameter. -/
def received (c : Candidate) (arity : Nat) : List JavaType :=
  if c.varargs ∧ c.params.length ≠ arity then
    c.params.dropLast
      ++ c.params.getLast?.toList.flatMap fun t => List.replicate (arity + 1 - c.params.length) (elementOf t)
  else c.params

/-- How well the number of arguments fits: exactly, with a last parameter for any number of them, or not. -/
def fitness (c : Candidate) (arity : Nat) : Nat :=
  if c.params.length = arity then 2
  else if c.varargs ∧ c.params.length ≤ arity + 1 then 1
  else 0

/-- How many arguments, where anything is known of them, have the type that receives them. -/
def agreement (c : Candidate) (args : List JavaType) : Nat :=
  (args.zip (c.received args.length)).countP fun (arg, param) => arg.isKnown && param.sameErasure arg

/-- The number of arguments counts before their types. -/
def rank (args : List JavaType) (c : Candidate) : Nat ×ₗ Nat := toLex (c.fitness args.length, c.agreement args)

/-! The parameter that receives an argument. -/

theorem paramFor_eq (c : Candidate) {index arity : Nat} (inside : index < arity) :
    c.paramFor index arity = (c.received arity)[index]? := by
  obtain none | ⟨init, last, params⟩ := List.eq_nil_or_concat c.params
  · simp [paramFor, received, none]
  · rw [List.concat_eq_append] at params
    have length : c.params.length = init.length + 1 := by rw [params, List.length_append, List.length_singleton]
    have spread : c.params.dropLast
          ++ c.params.getLast?.toList.flatMap (fun t => List.replicate (arity + 1 - c.params.length) (elementOf t)) =
        init ++ List.replicate (arity - init.length) (elementOf last) := by simp [params]
    unfold paramFor received
    rw [spread, length]
    dsimp only
    by_cases early : index < init.length
    · have front (after : List JavaType) : (init ++ after)[index]? = init[index]? := List.getElem?_append_left early
      simp [early, params, front, apply_ite (fun l : List JavaType => l[index]?)]
    · by_cases stretched : c.varargs = true ∧ init.length + 1 ≠ arity
      · have rest : index - init.length < arity - init.length := by omega
        rw [if_pos stretched, List.getElem?_append_right (Nat.not_lt.mp early), List.getElem?_replicate, if_pos rest]
        simp [early, stretched.1, Ne.symm stretched.2, params]
      · -- as many arguments as parameters, or a last parameter like any other
        rw [if_neg stretched, if_pos]
        by_cases varargs : c.varargs = true
        · have exact : init.length + 1 = arity := not_not.mp fun other => stretched ⟨varargs, other⟩
          have last : index = init.length := by omega
          simp [exact, last]
        · simp [varargs]

/-- What is counted position by position is counted pair by pair. -/
theorem countP_positions {α β : Type} (f : α → β → Bool) (l : List α) (m : List β) :
    l.zipIdx.countP (fun (a, i) => (m[i]?.map (f a)).getD false) = (l.zip m).countP fun (a, b) => f a b := by
  induction l generalizing m with
  | nil => rfl
  | cons a l ih =>
    cases m with
    | nil => simp
    | cons b m =>
      rw [List.zipIdx_cons', List.countP_cons, List.countP_map, List.zip_cons_cons, List.countP_cons, ← ih m]
      rfl

theorem exactMatches_eq (c : Candidate) (args : List JavaType) : c.exactMatches args = c.agreement args := by
  refine Eq.trans (List.countP_congr fun (arg, i) among => ?_)
    (countP_positions (fun arg param => arg.isKnown && param.sameErasure arg) args (c.received args.length))
  have inside : i < args.length := by simpa using (List.mem_zipIdx among).2.1
  dsimp only
  rw [c.paramFor_eq inside]
  cases (c.received args.length)[i]? <;> simp

/-- The rules that look at the number of arguments, and then the one that looks at their types. -/
def ruleKey (args : List JavaType) (c : Candidate) : Bool ×ₗ Bool ×ₗ Nat :=
  toLex (c.fits args.length || c.stretches args.length, toLex (c.fits args.length, c.exactMatches args))

theorem ruleKey_le (args : List JavaType) (c d : Candidate) :
    c.ruleKey args ≤ d.ruleKey args ↔ c.rank args ≤ d.rank args := by
  have fitness (e : Candidate) : e.fitness args.length =
      if e.fits args.length then 2 else if e.stretches args.length then 1 else 0 := by
    simp [Candidate.fitness, fits, stretches]
  unfold ruleKey rank
  rw [exactMatches_eq, exactMatches_eq, fitness, fitness]
  cases c.fits args.length <;> cases c.stretches args.length <;> cases d.fits args.length <;>
    cases d.stretches args.length <;> simp [Prod.Lex.toLex_le_toLex]

end Candidate

namespace Selection

section

variable {α κ ι : Type} [LinearOrder κ] [LinearOrder ι] {l : List α} {a : α}

/-- Those of a list that no other one exceeds. -/
def foremost (key : α → κ) (l : List α) : List α := l.filter fun a => ∀ b ∈ l, key b ≤ key a

theorem mem_foremost {key : α → κ} : a ∈ foremost key l ↔ a ∈ l ∧ ∀ b ∈ l, key b ≤ key a := by
  simp [foremost]

theorem foremost_eq_nil (key : α → κ) : foremost key l = [] ↔ l = [] := by
  refine ⟨fun none => ?_, fun empty => by rw [empty]; rfl⟩
  cases found : l.argmax key with
  | none => exact List.argmax_eq_none.mp found
  | some a =>
    have above : ∀ b ∈ l, key b ≤ key a := fun b hb => List.le_of_mem_argmax hb found
    exact absurd (mem_foremost.mpr ⟨List.argmax_mem found, above⟩) (none ▸ List.not_mem_nil)

/-- Only the order of the keys counts. -/
theorem foremost_congr {key : α → κ} {key' : α → ι} (same : ∀ a b, key b ≤ key a ↔ key' b ≤ key' a) (l : List α) :
    foremost key l = foremost key' l :=
  List.filter_congr fun a _ => by simp only [same]

/-- The foremost of the foremost are the foremost by both keys. -/
theorem foremost_foremost (key : α → κ) (later : α → ι) (l : List α) :
    foremost later (foremost key l) = foremost (fun a => toLex (key a, later a)) l := by
  unfold foremost
  rw [List.filter_filter]
  refine List.filter_congr fun a ha => ?_
  rw [← Bool.decide_and, decide_eq_decide]
  simp only [List.mem_filter, decide_eq_true_eq, Prod.Lex.toLex_le_toLex]
  constructor
  · rintro ⟨last, first⟩ b hb
    obtain less | same := (first b hb).lt_or_eq
    · exact .inl less
    · exact .inr ⟨same, last b ⟨hb, fun c hc => same ▸ first c hc⟩⟩
  · intro above
    have first : ∀ b ∈ l, key b ≤ key a := fun b hb => (above b hb).elim le_of_lt fun h => h.1.le
    refine ⟨fun b hb => ?_, first⟩
    obtain less | ⟨-, last⟩ := above b hb.1
    · exact absurd (hb.2 a ha) less.not_ge
    · exact last

theorem foremost_perm {l' : List α} (perm : l.Perm l') (key : α → κ) : (foremost key l).Perm (foremost key l') := by
  have same : (fun a => decide (∀ b ∈ l, key b ≤ key a)) = fun a => decide (∀ b ∈ l', key b ≤ key a) :=
    funext fun a => by simp only [perm.mem_iff]
  unfold foremost
  rw [same]
  exact perm.filter _

end

/-! The rules. -/

/-- A rule that all may fail is a key with two values. -/
theorem narrow_eq_foremost (rule : Candidate → Bool) (candidates : List Candidate) :
    narrow rule candidates = foremost rule candidates := by
  unfold narrow foremost
  split
  · rename_i passed
    obtain ⟨d, hd, good⟩ := List.any_eq_true.mp passed
    refine List.filter_congr fun c _ => ?_
    cases fails : rule c with
    | true => simp [Bool.le_true]
    | false =>
      have exceeded : ¬ ∀ b ∈ candidates, rule b ≤ false := fun h => absurd (h d hd) (by simp [good])
      simp [exceeded]
  · rename_i failed
    refine (List.filter_eq_self.mpr fun c _ => ?_).symm
    have all : ∀ b ∈ candidates, rule b = false := by simpa using failed
    exact decide_eq_true fun b hb => (all b hb).symm ▸ Bool.false_le _

theorem mostExact_eq_foremost (args : List JavaType) (candidates : List Candidate) :
    mostExact args candidates = foremost (·.exactMatches args) candidates := by
  refine List.filter_congr fun c hc => ?_
  have present : c.exactMatches args ∈ candidates.map (·.exactMatches args) := List.mem_map_of_mem hc
  rw [List.foldl_max]
  cases greatest : (candidates.map (·.exactMatches args)).max? with
  | none => simp [List.max?_eq_none_iff.mp greatest] at present
  | some best =>
    obtain ⟨among, above⟩ := List.max?_eq_some_iff.mp greatest
    obtain ⟨d, hd, rfl⟩ := List.mem_map.mp among
    rw [Option.getD_some, Nat.zero_max, beq_eq_decide, decide_eq_decide]
    constructor
    · intro same b hb
      exact (above _ (List.mem_map_of_mem hb)).trans same.ge
    · intro foremost
      exact Nat.le_antisymm (above _ present) (foremost d hd)

theorem survivors_eq_foremost (args : List JavaType) (candidates : List Candidate) :
    survivors args candidates = foremost (Candidate.rank args) candidates := by
  unfold survivors
  rw [mostExact_eq_foremost, narrow_eq_foremost, narrow_eq_foremost, foremost_foremost, foremost_foremost]
  exact foremost_congr (fun c d => Candidate.ruleKey_le args d c) candidates

/-! The choice. -/

section

variable {candidates : List Candidate} {args : List JavaType}

theorem select_eq_notFound : select candidates args = .notFound ↔ candidates = [] := by
  rw [← foremost_eq_nil (Candidate.rank args), ← survivors_eq_foremost, select]
  split <;> simp [*]

theorem select_candidate? :
    (select candidates args).candidate? = (foremost (Candidate.rank args) candidates).head? := by
  rw [← survivors_eq_foremost, select]
  split <;> simp [*, candidate?]

theorem select_eq_unique {c : Candidate} :
    select candidates args = .unique c ↔ foremost (Candidate.rank args) candidates = [c] := by
  rw [← survivors_eq_foremost, select]
  split
  · simp [*]
  · simp [*]
  · rename_i first rest several found
    have several : rest ≠ [] := several
    simp [found, several]

theorem select_eq_ambiguous {c : Candidate} {among : List Symbol} :
    let greatest := foremost (Candidate.rank args) candidates
    select candidates args = .ambiguous c among ↔
      greatest.head? = some c ∧ 2 ≤ greatest.length ∧ among = greatest.map Candidate.symbol := by
  intro greatest
  change _ ↔ (foremost _ _).head? = _ ∧ 2 ≤ (foremost _ _).length ∧ _ = (foremost _ _).map _
  rw [← survivors_eq_foremost, select]
  split
  · simp [*]
  · simp [*]
  · rename_i first rest several found
    obtain ⟨next, later, rfl⟩ := List.exists_cons_of_ne_nil several
    simp [found, eq_comm]

end

/-- The choice falls on the first of the candidates of the greatest rank. It is ambiguous if there are several of
these, and then all of them are listed; if there is one, the order of the candidates does not matter. -/
theorem select_ranking (candidates : List Candidate) (args : List JavaType) :
    let greatest := candidates.filter fun c => ∀ d ∈ candidates, d.rank args ≤ c.rank args
    (select candidates args = .notFound ↔ candidates = []) ∧
      (select candidates args).candidate? = greatest.head? ∧
      (∀ c, select candidates args = .unique c ↔ greatest = [c]) ∧
      (∀ c among, select candidates args = .ambiguous c among ↔
        greatest.head? = some c ∧ 2 ≤ greatest.length ∧ among = greatest.map Candidate.symbol) ∧
      ∀ others, candidates.Perm others → ∀ c, select candidates args = .unique c ↔ select others args = .unique c := by
  refine ⟨select_eq_notFound, select_candidate?, fun c => select_eq_unique, fun c among => select_eq_ambiguous,
    fun others perm c => ?_⟩
  have same := foremost_perm perm (Candidate.rank args)
  rw [select_eq_unique, select_eq_unique]
  constructor
  · intro alone
    rw [alone] at same
    exact same.singleton_eq.symm
  · intro alone
    rw [alone] at same
    exact same.eq_singleton

/-- Methods of one name: for any number of texts, for a text and a number, and for two numbers. -/
def threeMethods : List Candidate :=
  let method (n : Nat) (params : List JavaType) (varargs : Bool) : Candidate :=
    ⟨(Symbol.package "p" .project).child (.method "m" n) .method, params, varargs, .int, false⟩
  [method 0 [.array .string] true, method 1 [.string, .int] false, method 2 [.int, .int] false]

theorem select_ranking_reversed :
    threeMethods.Perm threeMethods.reverse ∧
      (select threeMethods [.string, .unknown]).candidate?.map (·.symbol.path) = some [.package "p", .method "m" 1] ∧
      ∀ c, select threeMethods [.string, .unknown] = .unique c ↔
        select threeMethods.reverse [.string, .unknown] = .unique c := by
  have perm : threeMethods.Perm threeMethods.reverse := (List.reverse_perm _).symm
  obtain ⟨-, -, -, -, anyOrder⟩ := select_ranking threeMethods [.string, .unknown]
  exact ⟨perm, by decide, anyOrder _ perm⟩

end Selection
end JavaIndex
