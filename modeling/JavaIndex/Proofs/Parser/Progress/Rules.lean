import JavaIndex.Proofs.Parser.Words

/-! How far rules of the grammar read. A rule that succeeds goes past some of the tokens that are left, most rules
past one at least. From this it follows how many levels a rule can need: one that has so many levels never comes
to the last of them, and answers the same whatever lies below. -/
namespace JavaIndex

namespace Cursor

/-- The cursor some tokens further on. -/
def past (c : Cursor) : Nat → Cursor
  | 0 => c
  | k + 1 => c.next.past k

theorem rest_next (c : Cursor) : c.next.rest = c.rest.tail := by
  unfold next
  split <;> simp [*]

theorem rest_past (c : Cursor) (k : Nat) : (c.past k).rest = c.rest.drop k := by
  induction k generalizing c with
  | zero => rfl
  | succ k ih => rw [past, ih, rest_next, List.drop_tail]

theorem past_past (c : Cursor) (j k : Nat) : (c.past j).past k = c.past (j + k) := by
  induction j generalizing c with
  | zero => rw [Nat.zero_add, past]
  | succ j ih => rw [past, ih, Nat.add_right_comm, past]

theorem next_past {c : Cursor} (some : c.rest ≠ []) : 1 ≤ c.rest.length ∧ c.next = c.past 1 :=
  ⟨List.length_pos_of_ne_nil some, rfl⟩

theorem some_of_spellsAt {c : Cursor} {text : String} (spelled : c.spellsAt 0 text = true) : c.rest ≠ [] := by
  obtain ⟨t, rest, same, -⟩ := spellsAt_zero spelled
  simp [same]

theorem some_of_wordAt {c : Cursor} {word : String} (here : c.wordAt 0 word = true) : c.rest ≠ [] := by
  intro none
  simp [wordAt, ahead?, none] at here

theorem some_of_primitiveAt {c : Cursor} (here : c.primitiveAt 0 = true) : c.rest ≠ [] := by
  intro none
  simp [primitiveAt, ahead?, none] at here

theorem some_of_ahead? {c : Cursor} {t : Token} (here : c.ahead? 0 = some t) : c.rest ≠ [] := by
  intro none
  simp [ahead?, none] at here

end Cursor

namespace Parser

variable {α β : Type}

/-- An answer for which a token has to have been read. -/
abbrev always (_ : α) : Bool := true

/-- An answer for which nothing need have been read. -/
abbrev never (_ : α) : Bool := false

/-- One rule in two grammars, read where something is known of the cursor and fewer than `n` tokens are left. Both
answer the same, they go past some of these tokens, past one at least for some of the answers, and they do not
run out of levels. -/
structure AdvancesAt (here : Cursor → Prop) (n : Nat) (gains : α → Bool) (p q : Parser α) : Prop where
  same : ∀ c, here c → c.rest.length < n → q c = p c
  further : ∀ c x c', here c → c.rest.length < n → p c = .ok (x, c') →
    ∃ k, (gains x = true → 0 < k) ∧ k ≤ c.rest.length ∧ c' = c.past k
  shallow : ∀ c e, here c → c.rest.length < n → p c = .error e → e.fault ≠ .tooDeep

abbrev Advances (n : Nat) (gains : α → Bool) (p q : Parser α) : Prop :=
  AdvancesAt (fun _ => True) n gains p q

section

variable {here : Cursor → Prop} {n : Nat} {gains : α → Bool} {gains' : β → Bool} {p q : Parser α}
  {f f' : α → Parser β}

/-! How rules are put together. -/

theorem AdvancesAt.weaken {there : Cursor → Prop} {m : Nat} {fewer : α → Bool} (h : AdvancesAt here n gains p q)
    (known : ∀ c, there c → here c) (le : m ≤ n) (imp : ∀ x, fewer x = true → gains x = true) :
    AdvancesAt there m fewer p q where
  same c inside short := h.same c (known c inside) (Nat.lt_of_lt_of_le short le)
  further c x c' inside short run := by
    obtain ⟨k, gain, rest⟩ := h.further c x c' (known c inside) (Nat.lt_of_lt_of_le short le) run
    exact ⟨k, fun needed => gain (imp x needed), rest⟩
  shallow c e inside short run := h.shallow c e (known c inside) (Nat.lt_of_lt_of_le short le) run

theorem AdvancesAt.anywhere (h : Advances n gains p q) : AdvancesAt here n gains p q :=
  h.weaken (fun _ _ => trivial) (Nat.le_refl n) fun _ => id

theorem AdvancesAt.lower (h : AdvancesAt here (n + 1) gains p q) : AdvancesAt here n gains p q :=
  h.weaken (fun _ => id) (Nat.le_succ n) fun _ => id

/-- How far a rule reads is forgotten. -/
theorem AdvancesAt.moves (h : AdvancesAt here n gains p q) : AdvancesAt here n never p q :=
  h.weaken (fun _ => id) (Nat.le_refl n) fun _ => nofun

theorem AdvancesAt.bind (first : AdvancesAt here n gains p q)
    (read : ∀ x, gains x = true → Advances (n - 1) never (f x) (f' x))
    (unread : ∀ x, gains x = false → Advances n gains' (f x) (f' x)) :
    AdvancesAt here n gains' (p >>= f) (q >>= f') := by
  -- what the second rule does where the first one stopped
  have second {c c' : Cursor} {x : α} (inside : here c) (short : c.rest.length < n) (run : p c = .ok (x, c')) :
      f' x c' = f x c' ∧ (∀ y c'', f x c' = .ok (y, c'') →
        ∃ k, (gains' y = true → 0 < k) ∧ k ≤ c.rest.length ∧ c'' = c.past k) ∧
      ∀ e, f x c' = .error e → e.fault ≠ .tooDeep := by
    obtain ⟨j, gain, within, rfl⟩ := first.further c x c' inside short run
    have left : (c.past j).rest.length = c.rest.length - j := by rw [Cursor.rest_past, List.length_drop]
    cases needed : gains x with
    | true =>
      have rest := read x needed
      have lower : (c.past j).rest.length < n - 1 := by have := gain needed; omega
      refine ⟨rest.same _ trivial lower, fun y c'' run => ?_, fun e => rest.shallow _ e trivial lower⟩
      obtain ⟨k, -, within', rfl⟩ := rest.further _ y c'' trivial lower run
      exact ⟨j + k, fun _ => by have := gain needed; omega, by omega, Cursor.past_past c j k⟩
    | false =>
      have rest := unread x needed
      have short : (c.past j).rest.length < n := by omega
      refine ⟨rest.same _ trivial short, fun y c'' run => ?_, fun e => rest.shallow _ e trivial short⟩
      obtain ⟨k, gain', within', rfl⟩ := rest.further _ y c'' trivial short run
      exact ⟨j + k, fun needed => by have := gain' needed; omega, by omega, Cursor.past_past c j k⟩
  constructor
  · intro c inside short
    have same := first.same c inside short
    cases run : p c with
    | error e =>
      rw [run] at same
      simp [Bind.bind, StateT.bind, Except.bind, run, same]
    | ok r =>
      rw [run] at same
      simpa [Bind.bind, StateT.bind, Except.bind, run, same] using (second inside short run).1
  · intro c y c'' inside short run
    obtain ⟨x, c', read, run⟩ := bind_ok run
    exact (second inside short read).2.1 y c'' run
  · intro c e inside short run
    cases read : p c with
    | error e' =>
      have : e' = e := by simpa [Bind.bind, StateT.bind, Except.bind, read] using run
      exact this ▸ first.shallow c e' inside short read
    | ok r =>
      have run : f r.1 r.2 = .error e := by simpa [Bind.bind, StateT.bind, Except.bind, read] using run
      exact (second inside short read).2.2 e run

/-- A token is read, and the rest is done a level further down. -/
theorem AdvancesAt.next (first : AdvancesAt here (n + 1) always p q)
    (rest : ∀ x, Advances n never (f x) (f' x)) : AdvancesAt here (n + 1) gains' (p >>= f) (q >>= f') :=
  first.bind (fun x _ => rest x) fun _ => nofun

/-- A token is read, and then no other has to be. -/
theorem AdvancesAt.then (first : AdvancesAt here n always p q) (rest : ∀ x, Advances n never (f x) (f' x)) :
    AdvancesAt here n gains' (p >>= f) (q >>= f') :=
  first.bind (fun x _ => (rest x).weaken (fun _ => id) (Nat.sub_le n 1) fun _ => id) fun _ => nofun

/-- Whatever has been read, the rest has to do as much. -/
theorem AdvancesAt.skip (first : AdvancesAt here n gains p q) (rest : ∀ x, Advances n gains' (f x) (f' x)) :
    AdvancesAt here n gains' (p >>= f) (q >>= f') :=
  first.bind (fun x _ => (rest x).weaken (fun _ => id) (Nat.sub_le n 1) fun _ => nofun) fun x _ => rest x

theorem AdvancesAt.map {f : α → β} (h : AdvancesAt here n (fun x => gains' (f x)) p q) :
    AdvancesAt here n gains' (f <$> p) (f <$> q) where
  same c inside short := by simp [Functor.map, StateT.map, h.same c inside short]
  further c y c' inside short run := by
    obtain ⟨x, read, rfl⟩ := map_ok run
    exact h.further c x c' inside short read
  shallow c e inside short run := by
    cases read : p c with
    | ok r => simp [Functor.map, StateT.map, Bind.bind, Except.bind, Pure.pure, Except.pure, read] at run
    | error e' =>
      have : e' = e := by simpa [Functor.map, StateT.map, Bind.bind, Except.bind, read] using run
      exact this ▸ h.shallow c e' inside short read

theorem AdvancesAt.discard (h : AdvancesAt here n always p q) : AdvancesAt here n always (discard p) (discard q) :=
  AdvancesAt.map h

/-- The answer is dropped, and with it how far the rule has read. -/
theorem AdvancesAt.drop (h : AdvancesAt here n gains p q) : AdvancesAt here n never (Functor.discard p) (Functor.discard q) :=
  .map h.moves

theorem AdvancesAt.cond {c : Prop} [Decidable c] {p₁ p₂ q₁ q₂ : Parser α}
    (yes : c → AdvancesAt here n gains p₁ q₁) (no : ¬ c → AdvancesAt here n gains p₂ q₂) :
    AdvancesAt here n gains (if c then p₁ else p₂) (if c then q₁ else q₂) := by
  by_cases test : c
  · simpa [test] using yes test
  · simpa [test] using no test

/-- The rest is read after either of two rules. -/
theorem AdvancesAt.either {c : Prop} [Decidable c] {p₁ p₂ q₁ q₂ : Parser α} (yes : AdvancesAt here n gains p₁ q₁)
    (no : AdvancesAt here n gains p₂ q₂) (rest : ∀ x, Advances n gains' (f x) (f' x)) :
    AdvancesAt here n gains' (if c then p₁ >>= f else p₂ >>= f) (if c then q₁ >>= f' else q₂ >>= f') :=
  .cond (fun _ => yes.skip rest) fun _ => no.skip rest

/-- The same when the first of the rules takes two steps. -/
theorem AdvancesAt.stepsOr {γ : Type} {c : Prop} [Decidable c] {first first' : Parser γ}
    {second second' : γ → Parser α} (yes : AdvancesAt here n gains (first >>= second) (first' >>= second'))
    (no : AdvancesAt here n gains p q) (rest : ∀ x, Advances n gains' (f x) (f' x)) :
    AdvancesAt here n gains' (if c then first >>= fun a => second a >>= f else p >>= f)
      (if c then first' >>= fun a => second' a >>= f' else q >>= f') := by
  rw [← bind_assoc, ← bind_assoc]
  exact .either yes no rest

/-- The same when the second of them does. -/
theorem AdvancesAt.orSteps {γ : Type} {c : Prop} [Decidable c] {first first' : Parser γ}
    {second second' : γ → Parser α} (yes : AdvancesAt here n gains p q)
    (no : AdvancesAt here n gains (first >>= second) (first' >>= second'))
    (rest : ∀ x, Advances n gains' (f x) (f' x)) :
    AdvancesAt here n gains' (if c then p >>= f else first >>= fun a => second a >>= f)
      (if c then q >>= f' else first' >>= fun a => second' a >>= f') := by
  rw [← bind_assoc, ← bind_assoc]
  exact .either yes no rest

/-- A rule is read or left out. -/
theorem AdvancesAt.skipIf {c : Prop} [Decidable c] {p q : Parser Unit} {rest rest' : Unit → Parser β}
    (first : Advances n never p q) (h : ∀ u, Advances n gains' (rest u) (rest' u)) :
    Advances n gains' (if c then p >>= rest else rest ()) (if c then q >>= rest' else rest' ()) :=
  .cond (fun _ => first.skip h) fun _ => h ()

end

section

variable {here : Cursor → Prop} {n : Nat} {gains : α → Bool}

theorem pure_advances {x : α} (free : gains x = false) : AdvancesAt here n gains (pure x) (pure x) where
  same _ _ _ := rfl
  further c y c' _ _ run := by
    cases run
    exact ⟨0, by simp [free], Nat.zero_le _, rfl⟩
  shallow c e _ _ run := by cases run

theorem fail_advances (what : String) : AdvancesAt here n gains (fail what) (fail what) where
  same _ _ _ := rfl
  further c x c' _ _ run := by cases run
  shallow c e _ _ run := by
    cases run
    exact nofun

theorem pure_moves {x : α} : AdvancesAt here n never (pure x) (pure x) := pure_advances rfl

/-! Looking at tokens and going past them. -/

theorem look_advances (f : Cursor → α) : AdvancesAt here n never (look f) (look f) where
  same _ _ _ := rfl
  further c x c' _ _ run := by
    cases run
    exact ⟨0, nofun, Nat.zero_le _, rfl⟩
  shallow c e _ _ run := by cases run

theorem sees_advances (text : String) : AdvancesAt here n never (sees text) (sees text) := look_advances _

theorem since_advances (start : Nat) : AdvancesAt here n never (since start) (since start) := look_advances _

/-- What has been seen of a cursor is known of it. -/
theorem AdvancesAt.looked {f : Cursor → β} {rest rest' : β → Parser α}
    (h : ∀ x, AdvancesAt (fun c => here c ∧ f c = x) n gains (rest x) (rest' x)) :
    AdvancesAt here n gains (look f >>= rest) (look f >>= rest') where
  same c inside short := (h (f c)).same c ⟨inside, rfl⟩ short
  further c x c' inside short run := (h (f c)).further c x c' ⟨inside, rfl⟩ short run
  shallow c e inside short run := (h (f c)).shallow c e ⟨inside, rfl⟩ short run

/-- A token that is there is gone past. -/
theorem bump_advances (some : ∀ c, here c → c.rest ≠ []) : AdvancesAt here n always bump bump where
  same _ _ _ := rfl
  further c x c' inside _ run := by
    cases run
    exact ⟨1, fun _ => Nat.one_pos, Cursor.next_past (some c inside)⟩
  shallow c e _ _ run := by cases run

theorem bump_moves : AdvancesAt here n never bump bump where
  same _ _ _ := rfl
  further c x c' _ _ run := by
    cases run
    cases none : c.rest with
    | nil => exact ⟨0, nofun, Nat.zero_le _, by simp [Cursor.next, none, Cursor.past]⟩
    | cons t rest => exact ⟨1, nofun, by simp, rfl⟩
  shallow c e _ _ run := by cases run

theorem pass_moves : AdvancesAt here n never (discard bump) (discard bump) := .map bump_moves

theorem eat_advances (text : String) : Advances n id (eat text) (eat text) where
  same _ _ _ := rfl
  further c x c' _ _ run := by
    unfold eat at run
    split at run
    · rename_i spelled
      cases run
      exact ⟨1, fun _ => Nat.one_pos, Cursor.next_past (Cursor.some_of_spellsAt spelled)⟩
    · cases run
      exact ⟨0, nofun, Nat.zero_le _, rfl⟩
  shallow c e _ _ run := by
    unfold eat at run
    split at run <;> cases run

theorem expectAs_advances (text what : String) : Advances n always (expectAs text what) (expectAs text what) where
  same _ _ _ := rfl
  further c x c' _ _ run := by
    unfold expectAs at run
    split at run
    · rename_i spelled
      cases run
      exact ⟨1, fun _ => Nat.one_pos, Cursor.next_past (Cursor.some_of_spellsAt spelled)⟩
    · cases run
  shallow c e _ _ run := by
    unfold expectAs at run
    split at run
    · cases run
    · cases run
      exact nofun

theorem expect_advances (text : String) : Advances n always (expect text) (expect text) := expectAs_advances ..

theorem ident_advances : Advances n always ident ident where
  same _ _ _ := rfl
  further c x c' _ _ run := by
    unfold ident at run
    split at run
    · rename_i t rest same
      split at run
      · cases run
        exact ⟨1, fun _ => Nat.one_pos, Cursor.next_past (by simp [same])⟩
      · cases run
    · cases run
  shallow c e _ _ run := by
    unfold ident at run
    split at run
    · split at run <;> cases run
      exact nofun
    · cases run
      exact nofun

end

section

variable {n : Nat} {gains : α → Bool} {p q : Parser α} {f f' : α → Parser β} {gains' : β → Bool}

/-- Where a sign has been eaten the rest is done a level further down. -/
theorem AdvancesAt.eatenNext {text : String} {yes yes' no no' : Parser β} (read : Advances n never yes yes')
    (unread : Advances (n + 1) gains' no no') : Advances (n + 1) gains' (eat text >>= fun b => if b then yes else no)
      (eat text >>= fun b => if b then yes' else no') := by
  refine (eat_advances text).bind (fun b found => ?_) fun b missing => ?_
  · obtain rfl : b = true := found
    simpa using read
  · obtain rfl : b = false := missing
    simpa using unread

/-- Where a sign has been eaten no other token has to be read. -/
theorem AdvancesAt.eaten {text : String} {yes yes' no no' : Parser β} (read : Advances n never yes yes')
    (unread : Advances n gains' no no') : Advances n gains' (eat text >>= fun b => if b then yes else no)
      (eat text >>= fun b => if b then yes' else no') := by
  cases n with
  | zero => exact ⟨fun _ _ => nofun, fun _ _ _ _ => nofun, fun _ _ _ => nofun⟩
  | succ n => exact .eatenNext read.lower unread

/-- A sign is eaten, or a rule is read that takes two steps. Either way a token has been read. -/
theorem AdvancesAt.eatenOrSteps {γ : Type} {text : String} {first first' : Parser γ} {second second' : γ → Parser α}
    (yes : Advances n never p q) (no : Advances (n + 1) always (first >>= second) (first' >>= second'))
    (rest : ∀ x, Advances n never (f x) (f' x)) :
    Advances (n + 1) gains' (eat text >>= fun b => if b then p >>= f else first >>= fun a => second a >>= f)
      (eat text >>= fun b => if b then q >>= f' else first' >>= fun a => second' a >>= f') := by
  refine (eat_advances text).bind (fun b found => ?_) fun b missing => ?_
  · obtain rfl : b = true := found
    exact .cond (fun _ => yes.skip rest) fun other => absurd rfl other
  · obtain rfl : b = false := missing
    rw [← bind_assoc, ← bind_assoc]
    exact .cond nofun fun _ => no.next rest

/-! Trying rules. -/

theorem attempt_advances {gains : Option α → Bool} (free : gains none = false)
    (h : Advances n (fun x => gains (some x)) p q) : Advances n gains (attempt p) (attempt q) where
  same c inside short := by rw [attempt, attempt, h.same c inside short]
  further c x c' inside short run := by
    unfold attempt at run
    split at run
    · rename_i y c'' read
      cases run
      exact h.further c y c' inside short read
    · cases run
      exact ⟨0, by simp [free], Nat.zero_le _, rfl⟩
  shallow c e _ _ run := by
    unfold attempt at run
    split at run <;> cases run

theorem attempt_moves (h : Advances n never p q) : Advances n never (attempt p) (attempt q) :=
  attempt_advances rfl h

theorem attemptSome_advances {p q : Parser (Option α)} {gains : Option α → Bool} (free : gains none = false)
    (h : Advances n gains p q) : Advances n gains (attemptSome p) (attemptSome q) where
  same c inside short := by rw [attemptSome, attemptSome, h.same c inside short]
  further c x c' inside short run := by
    unfold attemptSome at run
    split at run
    · rename_i y c'' read
      cases run
      exact h.further c (some y) c' inside short read
    · cases run
      exact ⟨0, by simp [free], Nat.zero_le _, rfl⟩
    · cases run
  shallow c e inside short run := by
    unfold attemptSome at run
    split at run
    · cases run
    · cases run
    · rename_i e' read
      cases run
      exact h.shallow c e inside short read

theorem attemptSome_moves {p q : Parser (Option α)} (h : Advances n never p q) :
    Advances n never (attemptSome p) (attemptSome q) :=
  attemptSome_advances rfl h

/-- Where something has been found no other token has to be read. -/
theorem AdvancesAt.found {p q : Parser (Option α)} {f f' : Option α → Parser β}
    (first : Advances n Option.isSome p q) (missing : Advances n gains' (f none) (f' none))
    (found : ∀ x, Advances n never (f (some x)) (f' (some x))) : Advances n gains' (p >>= f) (q >>= f') := by
  refine first.bind (fun x read => ?_) fun x unread => ?_
  · obtain ⟨y, rfl⟩ := Option.isSome_iff_exists.mp read
    exact (found y).weaken (fun _ => id) (Nat.sub_le n 1) fun _ => id
  · obtain rfl : x = none := by simpa using unread
    exact missing

/-- Where something is looked for and found, the rest is done a level further down. -/
theorem AdvancesAt.ifFoundNext {c : Prop} [Decidable c] {p q : Parser (Option α)} {f f' : Option α → Parser β}
    (first : Advances (n + 1) Option.isSome p q) (missing : Advances (n + 1) gains' (f none) (f' none))
    (found : ∀ x, Advances n never (f (some x)) (f' (some x))) :
    Advances (n + 1) gains' (if c then p >>= f else pure none >>= f) (if c then q >>= f' else pure none >>= f') := by
  refine .cond (fun _ => first.bind (fun x read => ?_) fun x unread => ?_) fun _ => ?_
  · obtain ⟨y, rfl⟩ := Option.isSome_iff_exists.mp read
    exact found y
  · obtain rfl : x = none := by simpa using unread
    exact missing
  · simpa using missing

/-- A rule that found nothing has left the cursor where it was. -/
theorem attemptSome_none {p : Parser (Option α)} {c c' : Cursor} (run : attemptSome p c = .ok (none, c')) :
    c' = c := by
  unfold attemptSome at run
  split at run <;> cases run
  rfl

/-! Loops. -/

/-- A loop whose steps read tokens comes to its end before its steps are used up. -/
theorem iterate_advances {step step' : α → Parser (Option α)}
    (h : ∀ x, Advances n Option.isSome (step x) (step' x)) (x : α) :
    Advances n never (iterate step x) (iterate step' x) := by
  have all (m : Nat) : ∀ x, AdvancesAt (fun c => c.rest.length < m) n never (iterateFor step m x)
      (iterateFor step' m x) := by
    induction m with
    | zero => exact fun x => ⟨fun _ h => absurd h (Nat.not_lt_zero _), fun _ _ _ h => absurd h (Nat.not_lt_zero _),
        fun _ _ h => absurd h (Nat.not_lt_zero _)⟩
    | succ m ih =>
      intro x
      have fewer {c c' : Cursor} {y : α} (enough : c.rest.length < m + 1) (short : c.rest.length < n)
          (read : step x c = .ok (some y, c')) :
          ∃ k, 0 < k ∧ k ≤ c.rest.length ∧ c' = c.past k ∧ c'.rest.length < m ∧ c'.rest.length < n := by
        obtain ⟨k, gain, within, rfl⟩ := (h x).further c _ c' trivial short read
        have := gain rfl
        have left : (c.past k).rest.length = c.rest.length - k := by rw [Cursor.rest_past, List.length_drop]
        exact ⟨k, this, within, rfl, by omega, by omega⟩
      constructor
      · intro c enough short
        simp only [iterateFor, (h x).same c trivial short]
        split
        · rfl
        · rfl
        · rename_i y c' read
          obtain ⟨k, -, -, -, enough', short'⟩ := fewer enough short read
          exact (ih y).same c' enough' short'
      · intro c z c'' enough short run
        simp only [iterateFor] at run
        split at run
        · cases run
        · rename_i c' read
          cases run
          obtain ⟨k, -, rest⟩ := (h x).further c _ c'' trivial short read
          exact ⟨k, fun gain => absurd gain Bool.false_ne_true, rest⟩
        · rename_i y c' read
          obtain ⟨k, -, within, rfl, enough', short'⟩ := fewer enough short read
          obtain ⟨j, -, within', rfl⟩ := (ih y).further _ z c'' enough' short' run
          rw [Cursor.rest_past, List.length_drop] at within'
          exact ⟨k + j, fun gain => absurd gain Bool.false_ne_true, by omega, Cursor.past_past c k j⟩
      · intro c e enough short run
        simp only [iterateFor] at run
        split at run
        · rename_i e' read
          cases run
          exact (h x).shallow c e trivial short read
        · cases run
        · rename_i y c' read
          obtain ⟨k, -, -, -, enough', short'⟩ := fewer enough short read
          exact (ih y).shallow c' e enough' short' run
  exact {
    same := fun c _ => (all _ x).same c (Nat.lt_succ_self _)
    further := fun c y c' _ => (all _ x).further c y c' (Nat.lt_succ_self _)
    shallow := fun c e _ => (all _ x).shallow c e (Nat.lt_succ_self _) }

theorem many_advances {p q : Parser (Option α)} (h : Advances n Option.isSome p q) :
    Advances n never (many p) (many q) := by
  refine .skip (iterate_advances (fun xs => ?_) []) fun xs => pure_advances rfl
  exact h.bind (fun x _ => pure_advances rfl) fun x none => pure_advances (by simpa using none)

theorem manyWhile_advances {condition : Cursor → Bool}
    (h : AdvancesAt (fun c => condition c = true) n always p q) :
    Advances n never (manyWhile condition p) (manyWhile condition q) := by
  refine many_advances (.looked fun b => .cond ?_ fun _ => pure_advances rfl)
  rintro rfl
  exact (h.weaken (fun _ => And.right) (Nat.le_refl n) fun _ => id).then fun x => pure_advances rfl

theorem sepBy_advances (text : String) (h : Advances n always p q) :
    Advances n always (sepBy text p) (sepBy text q) := by
  refine h.then fun first => .skip (many_advances ?_) fun rest => pure_advances rfl
  exact .skip (eat_advances text) fun b => .cond (fun _ => h.then fun x => pure_advances rfl)
    fun _ => pure_advances rfl

theorem commaList_advances (close : String) (h : Advances n always p q) :
    Advances n never (commaList close p) (commaList close q) :=
  .skip (sees_advances close) fun _ => .cond (fun _ => pure_advances rfl) fun _ => (sepBy_advances "," h).moves

theorem parens_advances (h : Advances n always p q) : Advances (n + 1) always (parens p) (parens q) := by
  refine (expect_advances _).discard.next fun _ => .skip (commaList_advances ")" h) fun xs => ?_
  exact (expect_advances _).discard.then fun _ => pure_advances rfl

theorem emptyBrackets_advances : Advances n never emptyBrackets emptyBrackets := by
  refine .skip (manyWhile_advances ?_) fun pairs => pure_advances rfl
  refine .then (bump_advances fun c opened => ?_).discard fun _ => pass_moves
  rw [Bool.and_eq_true] at opened
  exact Cursor.some_of_spellsAt opened.1

end

end Parser
end JavaIndex
