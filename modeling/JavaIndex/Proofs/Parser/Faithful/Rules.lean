import JavaIndex.Proofs.Parser.Progress.Rules
import JavaIndex.Proofs.Tree.Spots
import Mathlib.Data.List.Infix

/-! What rules of the grammar make of the tokens that they go past: the identifiers of an answer are tokens in the
order of the source, and what belongs to a declaration lies in its span. -/
namespace JavaIndex

namespace Token

/-- The identifier that is spelled by a token. -/
def ident (t : Token) : Ident := ⟨t.text, t.range⟩

/-- Tokens stand one after the other. -/
structure InOrder (ts : List Token) : Prop where
  forward : ∀ t ∈ ts, t.range.start ≤ t.range.stop
  apart : ts.Pairwise fun t u => t.range.stop ≤ u.range.start

theorem InOrder.sublist {ts us : List Token} (h : InOrder us) (sub : ts.Sublist us) : InOrder ts :=
  ⟨fun t mem => h.forward t (sub.subset mem), h.apart.sublist sub⟩

end Token

namespace Cursor

/-- Identifiers that have been read on the way from one cursor to another. -/
structure Passed (c₀ c : Cursor) (spots : List Spot) : Prop where
  inOrder : Token.InOrder c₀.rest
  read : ∃ k, c = c₀.past k ∧ (spots.map Spot.ident).Sublist ((c₀.rest.take k).map Token.ident)
  inside : ∀ s ∈ spots, s.Inside

namespace Passed

variable {c₀ c c' : Cursor} {xs ys : List Spot}

theorem begin (inOrder : Token.InOrder c.rest) : Passed c c [] :=
  ⟨inOrder, ⟨0, rfl, List.nil_sublist _⟩, nofun⟩

theorem here (h : Passed c₀ c xs) : Passed c c [] := by
  obtain ⟨k, rfl, -⟩ := h.read
  apply begin
  rw [rest_past]
  exact h.inOrder.sublist (List.drop_sublist ..)

theorem trans (first : Passed c₀ c xs) (second : Passed c c' ys) : Passed c₀ c' (xs ++ ys) := by
  obtain ⟨j, rfl, sub⟩ := first.read
  obtain ⟨k, rfl, sub'⟩ := second.read
  refine ⟨first.inOrder, ⟨j + k, past_past .., ?_⟩, ?_⟩
  · rw [List.map_append, List.take_add, List.map_append]
    rw [rest_past] at sub'
    exact sub.append sub'
  · intro s mem
    rcases List.mem_append.mp mem with mem | mem
    · exact first.inside s mem
    · exact second.inside s mem

theorem sublist (h : Passed c₀ c xs) (sub : ys.Sublist xs) : Passed c₀ c ys := by
  obtain ⟨k, same, read⟩ := h.read
  exact ⟨h.inOrder, ⟨k, same, (sub.map _).trans read⟩, fun s mem => h.inside s (sub.subset mem)⟩

theorem next (h : Passed c₀ c []) : Passed c₀ c.next [] := by
  obtain ⟨k, rfl, -⟩ := h.read
  exact ⟨h.inOrder, ⟨k + 1, past_past c₀ k 1, List.nil_sublist _⟩, nofun⟩

/-- The next token is an identifier that is read. -/
theorem next_ident {t : Token} {rest : List Token} (h : Passed c₀ c []) (same : c.rest = t :: rest) :
    Passed c₀ c.next (Spots.names [t.ident]) := by
  obtain ⟨k, rfl, -⟩ := h.read
  refine ⟨h.inOrder, ⟨k + 1, past_past c₀ k 1, ?_⟩, by simp [Spots.names, Spot.Inside]⟩
  rw [rest_past] at same
  simp [List.take_add, same, Spots.names]

/-- The last of the tokens that have been passed ends where the cursor says. -/
theorem stop_le (inOrder : Token.InOrder c.rest) (k : Nat) :
    ∀ t ∈ c.rest.take k, t.range.stop ≤ (c.past k).before := by
  induction k with
  | zero => simp
  | succ k ih =>
    have last : c.past (k + 1) = (c.past k).next := (past_past c k 1).symm
    rw [last]
    cases left : (c.past k).rest with
    | nil =>
      have short : c.rest.length ≤ k := by simpa [rest_past, List.drop_eq_nil_iff] using left
      rw [Cursor.next, left, List.take_of_length_le (Nat.le_succ_of_le short), ← List.take_of_length_le short]
      exact ih
    | cons u rest =>
      have all : c.rest = c.rest.take k ++ u :: rest := by rw [← left, rest_past, List.take_append_drop]
      have split : c.rest.take (k + 1) = c.rest.take k ++ [u] := by
        rw [List.take_add, ← rest_past, left, List.take_succ_cons, List.take_zero]
      have apart := inOrder.apart
      rw [all] at apart
      intro t mem
      rw [split] at mem
      rw [Cursor.next, left]
      rcases List.mem_append.mp mem with mem | mem
      · have before := (List.pairwise_append.mp apart).2.2 t mem u (List.mem_cons_self ..)
        have forward := inOrder.forward u (by rw [all]; simp)
        exact Nat.le_trans before forward
      · obtain rfl := List.mem_singleton.mp mem
        exact Nat.le_refl _

theorem start_le (inOrder : Token.InOrder c.rest) : ∀ t ∈ c.rest, c.start ≤ t.range.start := by
  unfold Cursor.start Cursor.range
  cases same : c.rest with
  | nil => nofun
  | cons u rest =>
    intro t mem
    rcases List.mem_cons.mp mem with rfl | mem
    · exact Nat.le_refl _
    · have apart := inOrder.apart
      rw [same] at apart
      exact Nat.le_trans (inOrder.forward u (by simp [same])) (List.rel_of_pairwise_cons apart mem)

/-- What has been read from a beginning on lies in the span since then. -/
theorem within (h : Passed c₀ c xs) : Passed c₀ c (Spots.inside (c.since c₀.start) xs) := by
  obtain ⟨k, rfl, sub⟩ := h.read
  refine ⟨h.inOrder, ⟨k, rfl, ?_⟩, ?_⟩
  · simpa [Spots.inside, Spot.within, Function.comp_def] using sub
  · intro s mem
    obtain ⟨s, held, rfl⟩ := List.mem_map.mp mem
    intro range around
    rcases List.mem_cons.mp around with rfl | around
    · obtain ⟨t, mem', same⟩ := List.mem_map.mp (sub.subset (List.mem_map_of_mem held))
      have start := start_le h.inOrder t (List.mem_of_mem_take mem')
      have stop := stop_le h.inOrder k t mem'
      have same : s.ident.range = t.range := by rw [← same]; rfl
      simp only [Spot.within, Cursor.since, same]
      exact ⟨start, Nat.le_trans stop (Nat.le_max_left ..)⟩
    · exact h.inside s held range around

end Passed
end Cursor

namespace Parser

/-- A rule of whose answer the identifiers have been read, if those it was given had been. The reading began at a
cursor of which something is known. -/
structure ReadsFrom {α : Type} (here : Cursor → Prop) (held : List Spot) (p : Parser α) (w : α → List Spot) :
    Prop where
  passed : ∀ c₀ c x c', here c₀ → c₀.Passed c held → p c = .ok (x, c') → c₀.Passed c' (w x)

abbrev Reads {α : Type} (held : List Spot) (p : Parser α) (w : α → List Spot) : Prop :=
  ReadsFrom (fun _ => True) held p w

/-- A rule whose answer holds no identifiers. -/
abbrev Unnamed {α : Type} (p : Parser α) : Prop := Reads [] p fun _ => []

section

variable {α β : Type} {here : Cursor → Prop} {held : List Spot} {p q : Parser α} {w : α → List Spot}
  {f : α → Parser β} {w' : β → List Spot}

/-! How rules are put together. -/

theorem reads_pure {x : α} (sub : (w x).Sublist held) : ReadsFrom here held (pure x) w where
  passed c₀ c y c' _ passed run := by
    cases run
    exact passed.sublist sub

theorem ReadsFrom.seq (first : ReadsFrom here held p w) (second : ∀ x, ReadsFrom here (w x) (f x) w') :
    ReadsFrom here held (p >>= f) w' where
  passed c₀ c y c'' begins passed run := by
    obtain ⟨x, c', read, run⟩ := bind_ok run
    exact (second x).passed c₀ c' y c'' begins (first.passed c₀ c x c' begins passed read) run

theorem ReadsFrom.fewer {w' : α → List Spot} (h : ReadsFrom here held p w) (sub : ∀ x, (w' x).Sublist (w x)) :
    ReadsFrom here held p w' where
  passed c₀ c x c' begins passed run := (h.passed c₀ c x c' begins passed run).sublist (sub x)

/-- What a rule has no use for is left out. -/
theorem ReadsFrom.leaving (kept : List Spot) (sub : kept.Sublist held) (h : ReadsFrom here kept p w) :
    ReadsFrom here held p w where
  passed c₀ c x c' begins passed run := h.passed c₀ c x c' begins (passed.sublist sub) run

/-- What was held before is held still. -/
theorem ReadsFrom.frame (h : Reads [] p w) : ReadsFrom here held p fun x => held ++ w x where
  passed _ c x c' _ passed run := passed.trans (h.passed c c x c' trivial passed.here run)

theorem ReadsFrom.bind (first : Reads [] p w) (second : ∀ x, ReadsFrom here (held ++ w x) (f x) w') :
    ReadsFrom here held (p >>= f) w' :=
  .seq (.frame first) second

theorem ReadsFrom.skip (first : Unnamed p) (second : ∀ x, ReadsFrom here held (f x) w') :
    ReadsFrom here held (p >>= f) w' :=
  .bind first fun x => by simpa using second x

theorem ReadsFrom.cond {c : Prop} [Decidable c] (yes : ReadsFrom here held p w) (no : ReadsFrom here held q w) :
    ReadsFrom here held (if c then p else q) w := by
  split
  · exact yes
  · exact no

/-- The rest is read after a rule that takes two steps. -/
theorem ReadsFrom.steps {γ : Type} {first : Parser γ} {second : γ → Parser α} (h : Reads [] (first >>= second) w)
    (rest : ∀ x, ReadsFrom here (held ++ w x) (f x) w') :
    ReadsFrom here held (first >>= fun a => second a >>= f) w' := by
  rw [← bind_assoc]
  exact .bind h rest

/-- The rest is read after either of two rules. -/
theorem ReadsFrom.either {c : Prop} [Decidable c] (yes : Reads [] p w) (no : Reads [] q w)
    (rest : ∀ x, ReadsFrom here (held ++ w x) (f x) w') :
    ReadsFrom here held (if c then p >>= f else q >>= f) w' :=
  .cond (.bind yes rest) (.bind no rest)

theorem ReadsFrom.stepsOr {γ : Type} {c : Prop} [Decidable c] {first : Parser γ} {second : γ → Parser α}
    (yes : Reads [] (first >>= second) w) (no : Reads [] q w) (rest : ∀ x, ReadsFrom here (held ++ w x) (f x) w') :
    ReadsFrom here held (if c then first >>= fun a => second a >>= f else q >>= f) w' :=
  .cond (.steps yes rest) (.bind no rest)

theorem ReadsFrom.orSteps {γ : Type} {c : Prop} [Decidable c] {first : Parser γ} {second : γ → Parser α}
    (yes : Reads [] p w) (no : Reads [] (first >>= second) w) (rest : ∀ x, ReadsFrom here (held ++ w x) (f x) w') :
    ReadsFrom here held (if c then p >>= f else first >>= fun a => second a >>= f) w' :=
  .cond (.bind yes rest) (.steps no rest)

theorem ReadsFrom.map {f : α → β} (h : ReadsFrom here held p fun x => w' (f x)) :
    ReadsFrom here held (f <$> p) w' where
  passed c₀ c y c' begins passed run := by
    obtain ⟨x, read, rfl⟩ := map_ok run
    exact h.passed c₀ c x c' begins passed read

theorem ReadsFrom.found (h : Reads [] p w) : Reads [] (some <$> p) (·.elim [] w) := .map h

/-- The identifiers of an answer that nobody uses are left out. -/
theorem ReadsFrom.discard (h : Reads [] p w) : Unnamed (discard p) where
  passed c₀ c x c' _ passed run := by
    obtain ⟨y, read, -⟩ := map_ok run
    exact (h.passed c₀ c y c' trivial passed read).sublist (List.nil_sublist _)

theorem fail_reads (what : String) : ReadsFrom here held (fail what) w where
  passed c₀ c x c' _ _ run := by cases run

theorem tooDeep_reads : ReadsFrom here held tooDeep w where
  passed c₀ c x c' _ _ run := by cases run

/-- A rule is read or left out. -/
theorem ReadsFrom.skipIf {c : Prop} [Decidable c] {p : Parser Unit} {rest : Unit → Parser α} (first : Unnamed p)
    (h : ∀ u, ReadsFrom here held (rest u) w) : ReadsFrom here held (if c then p >>= rest else rest ()) w :=
  .cond (.skip first h) (h ())

/-! Looking at tokens and going past them. -/

theorem look_unnamed (f : Cursor → α) : Unnamed (look f) where
  passed c₀ c x c' _ passed run := by
    cases run
    exact passed

theorem sees_unnamed (text : String) : Unnamed (sees text) := look_unnamed _

theorem since_unnamed (start : Nat) : Unnamed (since start) := look_unnamed _

theorem bump_unnamed : Unnamed bump where
  passed c₀ c x c' _ passed run := by
    cases run
    exact passed.next

theorem eat_unnamed (text : String) : Unnamed (eat text) where
  passed c₀ c x c' _ passed run := by
    unfold eat at run
    split at run <;> cases run
    · exact passed.next
    · exact passed

theorem expectAs_unnamed (text what : String) : Unnamed (expectAs text what) where
  passed c₀ c x c' _ passed run := by
    unfold expectAs at run
    split at run <;> cases run
    exact passed.next

theorem expect_unnamed (text : String) : Unnamed (expect text) := expectAs_unnamed ..

theorem ident_reads : Reads [] ident fun name => Spots.names [name] where
  passed c₀ c name c' _ passed run := by
    unfold ident at run
    split at run
    · rename_i t rest same
      split at run <;> cases run
      exact passed.next_ident same
    · cases run

/-! Declarations. They begin at a cursor that is looked at, and end where their span is taken. -/

theorem ReadsFrom.started {rest : Nat → Parser α} (h : ∀ start, ReadsFrom (·.start = start) [] (rest start) w) :
    Reads [] (look Cursor.start >>= rest) w where
  passed c₀ c x c' _ passed run := by
    obtain ⟨start, c'', read, run⟩ := bind_ok run
    cases read
    exact passed.trans ((h c.start).passed c c x c' rfl passed.here run)

theorem ReadsFrom.closed {start : Nat} {f : Span → α} (h : ∀ range, w (f range) = Spots.inside range held) :
    ReadsFrom (·.start = start) held (since start >>= fun range => pure (f range)) w where
  passed c₀ c x c' begins passed run := by
    obtain ⟨range, c'', read, run⟩ := bind_ok run
    cases read
    cases run
    rw [h, ← begins]
    exact passed.within

/-! Trying rules. -/

theorem ReadsFrom.attempt (h : Reads [] p w) : Reads [] (attempt p) (·.elim [] w) where
  passed c₀ c x c' _ passed run := by
    unfold Parser.attempt at run
    split at run
    · rename_i y c'' read
      cases run
      exact h.passed c₀ c y c' trivial passed read
    · cases run
      exact passed

theorem ReadsFrom.attemptSome {p : Parser (Option α)} (h : Reads [] p (·.elim [] w)) :
    Reads [] (attemptSome p) (·.elim [] w) where
  passed c₀ c x c' _ passed run := by
    unfold Parser.attemptSome at run
    split at run
    · rename_i y c'' read
      cases run
      exact h.passed c₀ c (some y) c' trivial passed read
    · cases run
      exact passed
    · cases run

/-! Loops. -/

/-- A loop keeps what every step keeps; the last step gives back what it was given. -/
theorem ReadsFrom.iterate {step : α → Parser (Option α)} {start : α} (first : (w start).Sublist held)
    (h : ∀ x, ReadsFrom here (w x) (step x) fun y => w (y.getD x)) : ReadsFrom here held (iterate step start) w where
  passed c₀ c y c' begins passed run := by
    have all (n : Nat) : ∀ x, ReadsFrom here (w x) (iterateFor step n x) w := by
      induction n with
      | zero => exact fun _ => tooDeep_reads
      | succ n ih =>
        refine fun x => ⟨fun c₀ c y c' begins passed run => ?_⟩
        simp only [iterateFor] at run
        split at run
        · cases run
        · rename_i read
          cases run
          exact (h x).passed c₀ c none c' begins passed read
        · rename_i z c'' read
          exact (ih z).passed c₀ c'' y c' begins ((h x).passed c₀ c (some z) c'' begins passed read) run
    exact (all _ start).passed c₀ c y c' begins (passed.sublist first) run

theorem ReadsFrom.many {p : Parser (Option α)} (h : Reads [] p (·.elim [] w)) :
    Reads [] (many p) fun xs => xs.flatMap w := by
  have loop : Reads [] (Parser.iterate (fun xs => do return (← p).map (· :: xs)) [])
      fun xs => xs.reverse.flatMap w := by
    refine .iterate (.refl []) fun xs => .bind h fun x => reads_pure ?_
    cases x <;> simp
  exact loop.seq fun xs => reads_pure (.refl _)

theorem ReadsFrom.manyWhile (condition : Cursor → Bool) (h : Reads [] p w) :
    Reads [] (manyWhile condition p) fun xs => xs.flatMap w := by
  refine .many (.skip (look_unnamed _) fun b => .cond ?_ (reads_pure (.refl _)))
  exact .bind h fun x => reads_pure (by simp)

theorem ReadsFrom.sepBy (text : String) (h : Reads [] p w) : Reads [] (sepBy text p) fun xs => xs.flatMap w := by
  refine .bind h fun first => .bind (w := fun xs => xs.flatMap w) (.many ?_) fun rest => reads_pure (by simp)
  exact .skip (eat_unnamed _) fun b => .cond (.bind h fun x => reads_pure (by simp)) (reads_pure (.refl _))

theorem ReadsFrom.commaList (close : String) (h : Reads [] p w) :
    Reads [] (commaList close p) fun xs => xs.flatMap w :=
  .skip (sees_unnamed _) fun _ => .cond (reads_pure (.refl _)) (.sepBy "," h)

theorem ReadsFrom.parens (h : Reads [] p w) : Reads [] (parens p) fun xs => xs.flatMap w := by
  refine .skip (.discard (expect_unnamed _)) fun _ => .bind (.commaList ")" h) fun xs => ?_
  exact .skip (.discard (expect_unnamed _)) fun _ => reads_pure (by simp)

theorem pass_unnamed : Unnamed (Functor.discard bump) := .discard bump_unnamed

theorem emptyBrackets_unnamed : Unnamed emptyBrackets := by
  have pair : Unnamed (do Functor.discard bump; Functor.discard bump) := .skip pass_unnamed fun _ => pass_unnamed
  exact .skip (.fewer (.manyWhile _ pair) fun _ => List.nil_sublist _) fun pairs => reads_pure (.refl _)

end
end Parser
end JavaIndex
