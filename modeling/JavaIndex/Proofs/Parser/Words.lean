import JavaIndex.Parser.Exprs
import JavaIndex.Proofs.Tree.Idents

/-! Where the words of a tree come from. A rule of the grammar reads tokens, and what it answers holds no
word more often than it was read: no word is made up, and none is used twice. -/
namespace JavaIndex

namespace Token

/-- The keyword calls a constructor: arguments follow it. -/
def callsConstructor (t : Token) (rest : List Token) : Bool :=
  (t.spells "this" || t.spells "super") && rest.head?.any (·.spells "(")

/-- The word that stands at a token, or the keyword after it that names a constructor. -/
def wordsAt (t : Token) (rest : List Token) : List Ident :=
  if t.kind == .identifier || t.callsConstructor rest then [⟨t.text, t.range⟩]
  else if t.spells "::" then
    (rest.head?.filter (·.spells "new")).toList.map fun n => ⟨n.text, n.range⟩
  else []

/-- The words among some tokens: the identifiers and the keywords that stand for a constructor. -/
def words : List Token → List Ident
  | [] => []
  | t :: rest => wordsAt t rest ++ words rest

end Token

/-- The words still to be read. -/
def Cursor.words (c : Cursor) : List Ident := Token.words c.rest

theorem Cursor.words_next (c : Cursor) (i : Ident) : c.next.words.count i ≤ c.words.count i := by
  unfold next
  split
  · rename_i t rest same
    rw [words, words, same, Token.words, List.count_append]
    exact Nat.le_add_left ..
  · exact Nat.le_refl _

theorem Token.kind_of_spells {t : Token} {text : String} (spelled : t.spells text = true) :
    (t.kind == .identifier) = false ∧ t.text = text := by
  unfold Token.spells at spelled
  split at spelled
  · rename_i sort
    exact ⟨by rw [sort]; rfl, eq_of_beq spelled⟩
  · rename_i sort
    exact ⟨by rw [sort]; rfl, eq_of_beq spelled⟩
  · cases spelled

theorem Cursor.spellsAt_zero {c : Cursor} {text : String} (spelled : c.spellsAt 0 text = true) :
    ∃ t rest, c.rest = t :: rest ∧ t.spells text = true := by
  unfold Cursor.spellsAt Cursor.ahead? at spelled
  cases same : c.rest with
  | nil => simp [same] at spelled
  | cons t rest => exact ⟨t, rest, rfl, by simpa [same] using spelled⟩

namespace Parser

/-- A rule that answers with no word more often than it has been read, or was held before. -/
structure Keeps {α : Type} (held : List Ident) (p : Parser α) (w : α → List Ident) : Prop where
  count : ∀ c x c', p c = .ok (x, c') → ∀ i,
    (w x).count i + c'.words.count i ≤ held.count i + c.words.count i

variable {α β : Type} {held : List Ident} {p : Parser α} {w : α → List Ident}

/-- A rule whose answer holds no words. -/
abbrev Silent (p : Parser α) : Prop := Keeps [] p fun _ => []

/-! How rules are put together. -/

theorem bind_ok {f : α → Parser β} {c c'' : Cursor} {y : β} (run : (p >>= f) c = .ok (y, c'')) :
    ∃ x c', p c = .ok (x, c') ∧ f x c' = .ok (y, c'') := by
  cases read : p c with
  | error e => simp [Bind.bind, StateT.bind, read, Except.bind] at run
  | ok r => exact ⟨r.1, r.2, rfl, by simpa [Bind.bind, StateT.bind, read, Except.bind] using run⟩

theorem run_bind {c c' : Cursor} {x : α} (run : p c = .ok (x, c')) (f : α → Parser β) : (p >>= f) c = f x c' := by
  simp [Bind.bind, StateT.bind, run, Except.bind]

theorem map_ok {f : α → β} {c c' : Cursor} {y : β} (run : (f <$> p) c = .ok (y, c')) :
    ∃ x, p c = .ok (x, c') ∧ f x = y := by
  cases read : p c with
  | error e => simp [Functor.map, StateT.map, read, Bind.bind, Except.bind] at run
  | ok r =>
    simp only [Functor.map, StateT.map, read, Bind.bind, Except.bind, Pure.pure, Except.pure] at run
    cases run
    exact ⟨r.1, rfl, rfl⟩

theorem keeps_pure {x : α} (h : FewerWords (w x) held) : Keeps held (pure x) w where
  count := by
    rintro c y c' run i
    cases run
    exact Nat.add_le_add_right (h i) _

theorem Keeps.seq {f : α → Parser β} {w' : β → List Ident} (first : Keeps held p w)
    (second : ∀ x, Keeps (w x) (f x) w') : Keeps held (p >>= f) w' where
  count c y c'' run i := by
    obtain ⟨x, c', read, rest⟩ := bind_ok run
    have := first.count c x c' read i
    have := (second x).count c' y c'' rest i
    omega

theorem Keeps.frame (h : Keeps held p w) (more : List Ident) :
    Keeps (more ++ held) p fun x => more ++ w x where
  count c x c' run i := by
    have := h.count c x c' run i
    simp only [List.count_append]
    omega

theorem Keeps.bind {f : α → Parser β} {w' : β → List Ident} (first : Keeps [] p w)
    (second : ∀ x, Keeps (held ++ w x) (f x) w') : Keeps held (p >>= f) w' :=
  .seq (by simpa using first.frame held) second

/-- What was held before is kept past a rule that answers no words. -/
theorem Keeps.skip {f : α → Parser β} {w' : β → List Ident} (first : Silent p)
    (second : ∀ x, Keeps held (f x) w') : Keeps held (p >>= f) w' :=
  first.bind fun x => by simpa using second x

theorem Keeps.cond {c : Prop} [Decidable c] {q : Parser α} (yes : Keeps held p w)
    (no : Keeps held q w) : Keeps held (if c then p else q) w := by
  split
  · exact yes
  · exact no

/-- The rest is read after either of two rules. -/
theorem Keeps.choose {c : Prop} [Decidable c] {q : Parser α} {f : α → Parser β} {w' : β → List Ident}
    (yes : Keeps held p w) (no : Keeps held q w) (rest : ∀ x, Keeps (w x) (f x) w') :
    Keeps held (if c then p >>= f else q >>= f) w' :=
  .cond (yes.seq rest) (no.seq rest)

theorem Keeps.either {c : Prop} [Decidable c] {q : Parser α} {f : α → Parser β} {w' : β → List Ident}
    (yes : Keeps [] p w) (no : Keeps [] q w) (rest : ∀ x, Keeps (held ++ w x) (f x) w') :
    Keeps held (if c then p >>= f else q >>= f) w' :=
  .choose (by simpa using yes.frame held) (by simpa using no.frame held) rest

/-- The same when the first of the rules takes two steps. -/
theorem Keeps.stepsOr {γ : Type} {c : Prop} [Decidable c] {first : Parser γ} {second : γ → Parser α}
    {q : Parser α} {f : α → Parser β} {w' : β → List Ident} (yes : Keeps [] (first >>= second) w)
    (no : Keeps [] q w) (rest : ∀ x, Keeps (held ++ w x) (f x) w') :
    Keeps held (if c then first >>= fun a => second a >>= f else q >>= f) w' := by
  rw [← bind_assoc]
  exact .either yes no rest

/-- The same when the second of them does. -/
theorem Keeps.orSteps {γ : Type} {c : Prop} [Decidable c] {p : Parser α} {first : Parser γ}
    {second : γ → Parser α} {f : α → Parser β} {w' : β → List Ident} (yes : Keeps [] p w)
    (no : Keeps [] (first >>= second) w) (rest : ∀ x, Keeps (held ++ w x) (f x) w') :
    Keeps held (if c then p >>= f else first >>= fun a => second a >>= f) w' := by
  rw [← bind_assoc]
  exact .either yes no rest

theorem Keeps.weaken {held' : List Ident} {w' : α → List Ident} (h : Keeps held p w)
    (more : FewerWords held held') (fewer : ∀ x, FewerWords (w' x) (w x)) :
    Keeps held' p w' where
  count c x c' run i := by
    have := h.count c x c' run i
    have := more i
    have := fewer x i
    omega

theorem Keeps.map {f : α → β} {w' : β → List Ident} (h : Keeps held p fun x => w' (f x)) :
    Keeps held (f <$> p) w' where
  count c y c' run := by
    obtain ⟨x, read, rfl⟩ := map_ok run
    exact h.count c x c' read

theorem Keeps.found (h : Keeps [] p w) : Keeps [] (some <$> p) (optional w) := .map h

/-- An answer that nobody uses holds no words. -/
theorem Keeps.discard (h : Keeps [] p w) : Silent (discard p) :=
  Keeps.map (h.weaken (.refl _) fun x i => by simp)

theorem fail_keeps (what : String) : Keeps held (fail what) w where
  count c x c' run := by cases run

theorem tooDeep_keeps : Keeps held tooDeep w where
  count c x c' run := by cases run

/-- A rule that answers no words is read or left out. -/
theorem Keeps.skipIf {c : Prop} [Decidable c] {p : Parser Unit} {rest : Unit → Parser α}
    (first : Silent p) (h : ∀ u, Keeps held (rest u) w) :
    Keeps held (if c then p >>= rest else rest ()) w :=
  .cond (.skip first h) (h ())

/-! Looking at tokens and going past them. -/

theorem look_silent (f : Cursor → α) : Silent (look f) where
  count c x c' run i := by
    cases run
    simp

theorem sees_silent (text : String) : Silent (sees text) := look_silent _

theorem since_silent (start : Nat) : Silent (since start) := look_silent _

theorem bump_silent : Silent bump where
  count c x c' run i := by
    cases run
    simpa using c.words_next i

theorem eat_silent (text : String) : Silent (eat text) where
  count c x c' run i := by
    unfold eat at run
    split at run
    · cases run
      simpa using c.words_next i
    · cases run
      simp

theorem expectAs_silent (text what : String) : Silent (expectAs text what) where
  count c x c' run i := by
    unfold expectAs at run
    split at run
    · cases run
      simpa using c.words_next i
    · cases run

theorem expect_silent (text : String) : Silent (expect text) := expectAs_silent ..

theorem ident_keeps : Keeps [] ident fun name => [name] where
  count c name c' run i := by
    unfold ident at run
    split at run
    · rename_i t rest same
      split at run
      · rename_i isWord
        cases run
        have here : Token.wordsAt t rest = [⟨t.text, t.range⟩] := by
          rw [Token.wordsAt, isWord, Bool.true_or, if_pos rfl]
        simp only [Cursor.next, same, Cursor.words, Token.words, here, List.count_append, List.count_nil,
          Nat.zero_add]
        exact Nat.le_refl _
      · cases run
    · cases run

/-! Keywords that stand for a constructor. They are known by what stands beside them, so that a rule may
need to know where it is read. -/

/-- What a rule keeps if it is read at a cursor of which something is known. -/
structure KeepsAt (here : Cursor → Prop) (held : List Ident) (p : Parser α) (w : α → List Ident) :
    Prop where
  count : ∀ c x c', here c → p c = .ok (x, c') → ∀ i,
    (w x).count i + c'.words.count i ≤ held.count i + c.words.count i

theorem Keeps.anywhere {here : Cursor → Prop} (h : Keeps held p w) : KeepsAt here held p w where
  count c x c' _ run := h.count c x c' run

theorem KeepsAt.narrow {here there : Cursor → Prop} (h : KeepsAt here held p w)
    (imp : ∀ c, there c → here c) : KeepsAt there held p w where
  count c x c' inside run := h.count c x c' (imp c inside) run

/-- What has been seen of a cursor is known of it. -/
theorem Keeps.looked {f : Cursor → β} {rest : β → Parser α}
    (h : ∀ x, KeepsAt (fun c => f c = x) held (rest x) w) : Keeps held (look f >>= rest) w where
  count c y c' run := by
    obtain ⟨x, c'', read, run⟩ := bind_ok run
    cases read
    exact (h _).count c y c' rfl run

/-- The keyword of a call from one constructor to another is a word if arguments follow it. -/
theorem KeepsAt.delegate (kind : Delegate) {called other : Span → Parser α}
    (yes : ∀ keyword, Keeps (held ++ [⟨kind.word, keyword⟩]) (called keyword) w)
    (no : ∀ keyword, Keeps held (other keyword) w) :
    KeepsAt (fun c => c.spellsAt 0 kind.word = true) held
      (bump >>= fun keyword => sees "(" >>= fun b => if b then called keyword else other keyword) w where
  count c x c' here run i := by
    obtain ⟨t, rest, same, spelled⟩ := Cursor.spellsAt_zero here
    obtain ⟨keyword, c₁, read, run⟩ := bind_ok run
    cases read
    obtain ⟨opens, c₂, read, run⟩ := bind_ok run
    cases read
    have next : c.next.rest = rest := by rw [Cursor.next, same]
    have range : c.range = t.range := by rw [Cursor.range, same]
    have fewer := c.words_next i
    split at run
    · rename_i opens
      obtain ⟨paren, more, after, opens⟩ := Cursor.spellsAt_zero opens
      have text := (Token.kind_of_spells spelled).2
      have calls : t.callsConstructor rest = true := by
        rw [← next, after, Token.callsConstructor, List.head?_cons, Option.any_some, opens, Bool.and_true]
        cases kind with
        | this => rw [show t.spells "this" = true from spelled, Bool.true_or]
        | super => rw [show t.spells "super" = true from spelled, Bool.or_true]
      have words : c.words = ⟨t.text, t.range⟩ :: c.next.words := by
        rw [Cursor.words, Cursor.words, same, next, Token.words, Token.wordsAt, calls, Bool.or_true,
          if_pos rfl]
        rfl
      have kept := (yes c.range).count c.next x c' run i
      rw [List.count_append, range, ← text] at kept
      rw [words, List.count_cons]
      simp only [List.count_singleton] at kept
      omega
    · have kept := (no c.range).count c.next x c' run i
      omega

/-- The keyword that names a constructor is a word after a double colon. -/
theorem Keeps.namedAfterColons {named : Ident → Parser α} {other : Parser α}
    (yes : ∀ name, Keeps (held ++ [name]) (named name) w) (no : Keeps held other w) :
    Keeps held (eat "::" >>= fun b => if b then Grammar.methodRefName >>= named else other) w where
  count c x c' run i := by
    obtain ⟨found, c₁, read, run⟩ := bind_ok run
    unfold eat at read
    split at read
    · rename_i here
      cases read
      obtain ⟨t, rest, same, spelled⟩ := Cursor.spellsAt_zero here
      rw [if_pos rfl] at run
      obtain ⟨name, c₂, read, run⟩ := bind_ok run
      have kept := (yes name).count c₂ x c' run i
      have fewer := c.words_next i
      rw [List.count_append] at kept
      obtain ⟨constructs, c₃, read', read⟩ := bind_ok read
      cases read'
      split at read
      · rename_i constructs
        obtain ⟨n, more, after, named⟩ := Cursor.spellsAt_zero constructs
        obtain ⟨range, c₄, read', read⟩ := bind_ok read
        cases read'
        cases read
        have next : c.next.rest = rest := by rw [Cursor.next, same]
        have range : c.next.range = n.range := by rw [Cursor.range, after]
        have text : n.text = "new" := (Token.kind_of_spells named).2
        have notCalled : t.callsConstructor rest = false := by
          have text : t.text = "::" := (Token.kind_of_spells spelled).2
          unfold Token.callsConstructor Token.spells
          cases t.kind <;> simp [text]
        have words : c.words = ⟨n.text, n.range⟩ :: c.next.words := by
          rw [Cursor.words, Cursor.words, same, next, Token.words, Token.wordsAt,
            (Token.kind_of_spells spelled).1, notCalled, spelled, ← next, after, List.head?_cons,
            Option.filter_some, if_pos named]
          rfl
        have fewer' := c.next.words_next i
        rw [range, ← text] at kept
        rw [words, List.count_cons]
        simp only [List.count_singleton] at kept
        omega
      · have read := ident_keeps.count c.next name c₂ read i
        simp only [List.count_nil, Nat.zero_add] at read
        omega
    · cases read
      exact no.count _ x c' run i

/-! Trying rules. -/

theorem Keeps.attempt (h : Keeps [] p w) : Keeps [] (attempt p) (optional w) where
  count c x c' run := by
    unfold Parser.attempt at run
    split at run
    · rename_i y c'' read
      cases run
      exact h.count c y c' read
    · cases run
      simp

theorem Keeps.attemptSome {p : Parser (Option α)} (h : Keeps held p (optional w)) :
    Keeps held (attemptSome p) (optional w) where
  count c x c' run := by
    unfold Parser.attemptSome at run
    split at run
    · rename_i y c'' read
      cases run
      exact h.count c (some y) c' read
    · cases run
      simp
    · cases run

/-! Loops. -/

/-- A loop keeps what every step keeps; the last step gives back what it was given. -/
theorem Keeps.iterate {step : α → Parser (Option α)} {start : α} (first : FewerWords (w start) held)
    (h : ∀ x, Keeps (w x) (step x) fun y => w (y.getD x)) : Keeps held (iterate step start) w where
  count c y c' run i := by
    have all : ∀ (n : Nat) (x : α), Keeps (w x) (iterateFor step n x) w := by
      intro n
      induction n with
      | zero => exact fun _ => tooDeep_keeps
      | succ n ih =>
        refine fun x => ⟨fun c y c' run i => ?_⟩
        simp only [iterateFor] at run
        split at run
        · cases run
        · rename_i read
          cases run
          exact (h x).count c none c' read i
        · rename_i z c'' read
          exact Nat.le_trans ((ih z).count c'' y c' run i) ((h x).count c (some z) c'' read i)
    exact Nat.le_trans ((all _ start).count c y c' run i) (Nat.add_le_add_right (first i) _)

theorem Keeps.many {p : Parser (Option α)} (h : Keeps [] p (optional w)) :
    Keeps [] (many p) fun xs => xs.flatMap w := by
  have loop : Keeps [] (Parser.iterate (fun xs => do return (← p).map (· :: xs)) [])
      fun xs => xs.flatMap w := by
    refine .iterate (.refl []) fun xs => h.bind fun x => keeps_pure fun i => ?_
    cases x with
    | none => simp
    | some x =>
      simp only [Option.map_some, Option.getD_some, List.flatMap_cons, List.count_append, optional_some]
      omega
  exact loop.seq fun xs => keeps_pure fun i =>
    Nat.le_of_eq ((xs.reverse_perm.flatMap_right w).count_eq i)

theorem Keeps.manyWhile (condition : Cursor → Bool) (h : Keeps [] p w) :
    Keeps [] (manyWhile condition p) fun xs => xs.flatMap w := by
  refine Keeps.many (.skip (look_silent _) fun b => ?_)
  split
  · exact h.bind fun x => keeps_pure (.refl _)
  · exact keeps_pure (.refl _)

theorem Keeps.sepBy (text : String) (h : Keeps [] p w) :
    Keeps [] (sepBy text p) fun xs => xs.flatMap w := by
  refine h.bind fun first => Keeps.bind (w := fun xs => xs.flatMap w) ?_ fun rest =>
    keeps_pure (by simp [FewerWords])
  refine Keeps.many (.skip (eat_silent _) fun b => ?_)
  split
  · exact h.bind fun x => keeps_pure (.refl _)
  · exact keeps_pure (.refl _)

theorem Keeps.commaList (close : String) (h : Keeps [] p w) :
    Keeps [] (commaList close p) fun xs => xs.flatMap w := by
  refine .skip (sees_silent _) fun b => ?_
  split
  · exact keeps_pure (.refl _)
  · exact h.sepBy ","

theorem Keeps.parens (h : Keeps [] p w) : Keeps [] (parens p) fun xs => xs.flatMap w := by
  refine .skip (expect_silent _).discard fun _ => (h.commaList ")").bind fun xs => ?_
  exact .skip (expect_silent _).discard fun _ => keeps_pure (.refl _)

theorem emptyBrackets_silent : Silent emptyBrackets := by
  refine Keeps.skip ?_ fun pairs => keeps_pure (.refl _)
  have pair : Silent (do Functor.discard bump; Functor.discard bump) :=
    .skip bump_silent.discard fun _ => bump_silent.discard
  exact (pair.manyWhile _).weaken (.refl _) fun _ i => by simp

end Parser
end JavaIndex
