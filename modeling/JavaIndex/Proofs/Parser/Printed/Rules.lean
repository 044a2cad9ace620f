import JavaIndex.Parser.Types
import JavaIndex.Proofs.Environment.Layouts
import JavaIndex.Proofs.Parser.Words

/-! The tokens of a program printed in a text, and how rules of the grammar follow: a rule that is read in
the text does what it does at the tokens themselves, and answers with the same tree in another place. -/
namespace JavaIndex

/-- A text in which the tokens of a program stand. -/
structure Printing where
  layout : Layout
  /-- Where tokens begin, and where the last one ends. -/
  begins : Nat → Prop
  /-- Of those places there is only one in the text. -/
  exact : ∀ p, begins p → layout.start p = layout.offset p

namespace Printing

section

variable (w : Printing)

def token (t : Token) : Token := ⟨t.kind, t.text, w.layout.span t.range, w.layout.doc t.doc⟩

def cursor (c : Cursor) : Cursor := ⟨c.rest.map w.token, w.layout.offset c.before, w.layout.offset c.size⟩

def error (e : SyntaxError) : SyntaxError := ⟨e.fault, w.layout.span e.range⟩

/-- The tokens still to be read are tokens of the program. Closing angle brackets stand side by side in the
text if they do so in the program. -/
structure Fits (c : Cursor) : Prop where
  begin : ∀ t ∈ c.rest, w.begins t.range.start
  size : w.begins c.size
  closing : ∀ before a b after, c.rest = before ++ a :: b :: after → a.spells ">" = true →
    b.spells ">" = true →
      (w.layout.offset a.range.stop = w.layout.offset b.range.start ↔ a.range.stop = b.range.start)

/-- A rule that is read at the tokens of a program and one that is read in the text come to related answers,
or to the same fault at the same place. -/
structure Follows {α β : Type} (R : α → β → Prop) (p : Parser α) (q : Parser β) : Prop where
  ok : ∀ c x c', w.Fits c → p c = .ok (x, c') →
    w.Fits c' ∧ ∃ y, R x y ∧ q (w.cursor c) = .ok (y, w.cursor c')
  error : ∀ c e, w.Fits c → p c = .error e →
    w.begins e.range.start ∧ q (w.cursor c) = .error (w.error e)

end

/-- The answer in the text is a function of the other one. -/
abbrev Becomes {α β : Type} (f : α → β) (x : α) (y : β) : Prop := y = f x

section

variable {w : Printing}

theorem mark_eq {range : Span} (begins : w.begins range.start) : w.layout.mark range = w.layout.span range := by
  rw [Layout.mark, Layout.span, w.exact _ begins]

@[simp] theorem token_spells (t : Token) (text : String) : (w.token t).spells text = t.spells text := rfl
@[simp] theorem token_kind (t : Token) : (w.token t).kind = t.kind := rfl

variable (c : Cursor)

@[simp] theorem cursor_rest : (w.cursor c).rest = c.rest.map w.token := rfl

@[simp] theorem cursor_ahead? (n : Nat) : (w.cursor c).ahead? n = (c.ahead? n).map w.token := by
  simp [Cursor.ahead?]

@[simp] theorem cursor_spellsAt (n : Nat) (text : String) :
    (w.cursor c).spellsAt n text = c.spellsAt n text := by
  rw [Cursor.spellsAt, Cursor.spellsAt, cursor_ahead?]
  cases c.ahead? n <;> rfl

@[simp] theorem cursor_spellsOneAt (n : Nat) (texts : List String) :
    (w.cursor c).spellsOneAt n texts = c.spellsOneAt n texts :=
  congrArg texts.any (funext (cursor_spellsAt c n))

@[simp] theorem cursor_identifierAt (n : Nat) : (w.cursor c).identifierAt n = c.identifierAt n := by
  rw [Cursor.identifierAt, Cursor.identifierAt, cursor_ahead?]
  cases c.ahead? n <;> rfl

@[simp] theorem cursor_wordAt (n : Nat) (word : String) :
    (w.cursor c).wordAt n word = c.wordAt n word := by
  rw [Cursor.wordAt, Cursor.wordAt, cursor_ahead?]
  cases c.ahead? n <;> rfl

@[simp] theorem cursor_primitiveAt (n : Nat) : (w.cursor c).primitiveAt n = c.primitiveAt n := by
  rw [Cursor.primitiveAt, Cursor.primitiveAt, cursor_ahead?]
  cases c.ahead? n <;> rfl

@[simp] theorem cursor_atEnd : (w.cursor c).atEnd = c.atEnd := by
  simp [Cursor.atEnd]

theorem cursor_range : (w.cursor c).range = w.layout.span c.range := by
  rw [Cursor.range, Cursor.range, cursor_rest]
  cases c.rest <;> rfl

theorem cursor_doc : (w.cursor c).doc = w.layout.doc c.doc := by
  rw [Cursor.doc, Cursor.doc, cursor_rest]
  cases c.rest with
  | nil => exact w.layout.undocumented.symm
  | cons t rest => rfl

theorem cursor_since (start : Nat) :
    (w.cursor c).since (w.layout.offset start) = w.layout.span (c.since start) := by
  have stop : max (w.layout.offset c.before) (w.layout.offset start) =
      w.layout.offset (max c.before start) := by
    rcases Nat.le_total c.before start with order | order
    · rw [Nat.max_eq_right order, Nat.max_eq_right (w.layout.mono _ _ order)]
    · rw [Nat.max_eq_left order, Nat.max_eq_left (w.layout.mono _ _ order)]
  exact congrArg (Span.mk _) stop

theorem cursor_next : (w.cursor c).next = w.cursor c.next := by
  rw [Cursor.next, Cursor.next, cursor_rest]
  cases c.rest <;> rfl

variable {c}

theorem Fits.next (fits : w.Fits c) : w.Fits c.next := by
  unfold Cursor.next
  split
  · rename_i t rest same
    refine ⟨fun u hu => fits.begin u (by rw [same]; exact List.mem_cons_of_mem t hu), fits.size, ?_⟩
    intro before a b after split
    exact fits.closing (t :: before) a b after (same.trans (congrArg (t :: ·) split))
  · exact fits

theorem Fits.range (fits : w.Fits c) : w.begins c.range.start := by
  unfold Cursor.range
  split
  · rename_i t rest same
    exact fits.begin t (by rw [same]; exact List.mem_cons_self)
  · exact fits.size

end

namespace Follows

variable {w : Printing} {α β γ δ : Type} {p : Parser α} {q : Parser β} {R : α → β → Prop}
  {f : α → Parser γ} {g : β → Parser δ} {Q : γ → δ → Prop}

/-! How rules are put together. -/

theorem answer {x : α} {y : β} (related : R x y) : Follows w R (Pure.pure x) (Pure.pure y) where
  ok c _ _ fits run := by
    cases run
    exact ⟨fits, y, related, rfl⟩
  error _ _ _ run := by cases run

theorem pure {F : α → β} {x : α} {y : β} (becomes : y = F x) :
    Follows w (Becomes F) (Pure.pure x) (Pure.pure y) :=
  .answer becomes

theorem run_failed {c : Cursor} {e : SyntaxError} (run : p c = .error e) (f : α → Parser γ) :
    (p >>= f) c = .error e := by
  simp [Bind.bind, StateT.bind, run, Except.bind]

theorem seq (first : Follows w R p q) (second : ∀ x y, R x y → Follows w Q (f x) (g y)) :
    Follows w Q (p >>= f) (q >>= g) where
  ok c z c'' fits run := by
    obtain ⟨x, c', read, rest⟩ := Parser.bind_ok run
    obtain ⟨fits', y, related, read'⟩ := first.ok c x c' fits read
    rw [Parser.run_bind read']
    exact (second x y related).ok c' z c'' fits' rest
  error c e fits run := by
    cases read : p c with
    | error e' =>
      rw [run_failed read] at run
      cases run
      obtain ⟨begins, read'⟩ := first.error c e fits read
      exact ⟨begins, run_failed read' g⟩
    | ok r =>
      rw [show (p >>= f) c = f r.1 r.2 from Parser.run_bind read f] at run
      obtain ⟨fits', y, related, read'⟩ := first.ok c r.1 r.2 fits read
      rw [Parser.run_bind read']
      exact (second r.1 y related).error r.2 e fits' run

theorem bind {F : α → β} (first : Follows w (Becomes F) p q)
    (second : ∀ x, Follows w Q (f x) (g (F x))) : Follows w Q (p >>= f) (q >>= g) :=
  first.seq fun x _ becomes => becomes ▸ second x

/-- The rules come to one answer. -/
theorem same {q : Parser α} {g : α → Parser δ} (first : Follows w Eq p q)
    (second : ∀ x, Follows w Q (f x) (g x)) : Follows w Q (p >>= f) (q >>= g) :=
  first.seq fun x _ equal => equal ▸ second x

theorem imp {R' : α → β → Prop} (h : Follows w R p q) (weaker : ∀ x y, R x y → R' x y) :
    Follows w R' p q where
  ok c x c' fits run := by
    obtain ⟨fits', y, related, run'⟩ := h.ok c x c' fits run
    exact ⟨fits', y, weaker x y related, run'⟩
  error := h.error

theorem map {f : α → γ} {g : β → δ} (h : Follows w R p q) (related : ∀ x y, R x y → Q (f x) (g y)) :
    Follows w Q (f <$> p) (g <$> q) := by
  have step : Follows w Q (p >>= fun x => Pure.pure (f x)) (q >>= fun y => Pure.pure (g y)) :=
    h.seq fun x y r => .answer (related x y r)
  rwa [bind_pure_comp, bind_pure_comp] at step

theorem found {F : α → β} (h : Follows w (Becomes F) p q) :
    Follows w (Becomes (Option.map F)) (some <$> p) (some <$> q) :=
  h.map fun _ _ becomes => congrArg some becomes

/-- An answer that nobody uses. -/
theorem discard (h : Follows w R p q) :
    Follows w (fun _ _ => True) (Functor.discard p) (Functor.discard q) :=
  h.map fun _ _ _ => trivial

theorem past {p' : Parser γ} {q' : Parser δ} (first : Follows w R p q) (second : Follows w Q p' q') :
    Follows w Q (Functor.discard p >>= fun _ => p') (Functor.discard q >>= fun _ => q') :=
  first.discard.seq fun _ _ _ => second

theorem cond {c : Prop} [Decidable c] {p' : Parser α} {q' : Parser β} (yes : Follows w R p q)
    (no : Follows w R p' q') : Follows w R (if c then p else p') (if c then q else q') := by
  split
  · exact yes
  · exact no

/-- The rest is read after either of two rules. -/
theorem either {c : Prop} [Decidable c] {p' : Parser α} {q' : Parser β} {F : α → β}
    (yes : Follows w (Becomes F) p q) (no : Follows w (Becomes F) p' q')
    (rest : ∀ x, Follows w Q (f x) (g (F x))) :
    Follows w Q (if c then p >>= f else p' >>= f) (if c then q >>= g else q' >>= g) :=
  .cond (yes.bind rest) (no.bind rest)

/-- The same when the first of the rules takes two steps. -/
theorem stepsOr {α' β' : Type} {c : Prop} [Decidable c] {p : Parser α'} {q : Parser β'}
    {p₂ : α' → Parser α} {q₂ : β' → Parser β} {p' : Parser α} {q' : Parser β} {F : α → β}
    (yes : Follows w (Becomes F) (p >>= p₂) (q >>= q₂)) (no : Follows w (Becomes F) p' q')
    (rest : ∀ x, Follows w Q (f x) (g (F x))) :
    Follows w Q (if c then p >>= fun a => p₂ a >>= f else p' >>= f)
      (if c then q >>= fun b => q₂ b >>= g else q' >>= g) := by
  rw [← bind_assoc, ← bind_assoc]
  exact .either yes no rest

/-- The same when the second of them does. -/
theorem orSteps {α' β' : Type} {c : Prop} [Decidable c] {p : Parser α'} {q : Parser β'}
    {p₂ : α' → Parser α} {q₂ : β' → Parser β} {p' : Parser α} {q' : Parser β} {F : α → β}
    (yes : Follows w (Becomes F) p' q') (no : Follows w (Becomes F) (p >>= p₂) (q >>= q₂))
    (rest : ∀ x, Follows w Q (f x) (g (F x))) :
    Follows w Q (if c then p' >>= f else p >>= fun a => p₂ a >>= f)
      (if c then q' >>= g else q >>= fun b => q₂ b >>= g) := by
  rw [← bind_assoc, ← bind_assoc]
  exact .either yes no rest

/-- A rule is read or left out. -/
theorem skipIf {c : Prop} [Decidable c] {p q : Parser Unit} {f : Unit → Parser γ} {g : Unit → Parser δ}
    (first : Follows w (fun _ _ => True) p q) (rest : ∀ u, Follows w Q (f u) (g u)) :
    Follows w Q (if c then p >>= f else f ()) (if c then q >>= g else g ()) :=
  .cond (first.seq fun _ _ _ => rest ()) (rest ())

theorem fail (what : String) : Follows w R (Parser.fail what) (Parser.fail what) where
  ok _ _ _ _ run := by cases run
  error c e fits run := by
    cases run
    refine ⟨fits.range, ?_⟩
    rw [Parser.fail, cursor_ahead?, cursor_range]
    cases c.ahead? 0 <;> rfl

theorem tooDeep : Follows w R Parser.tooDeep Parser.tooDeep where
  ok _ _ _ _ run := by cases run
  error c e fits run := by
    cases run
    refine ⟨fits.range, ?_⟩
    rw [Parser.tooDeep, cursor_range]
    rfl

/-! Looking at tokens and going past them. -/

theorem looking {k : Cursor → α} {k' : Cursor → β} (related : ∀ c, w.Fits c → R (k c) (k' (w.cursor c))) :
    Follows w R (Parser.look k) (Parser.look k') where
  ok c _ _ fits run := by
    cases run
    exact ⟨fits, _, related c fits, rfl⟩
  error _ _ _ run := by cases run

/-- What is looked for can be seen in the text. -/
theorem look {k : Cursor → α} (seen : ∀ c, k (w.cursor c) = k c) :
    Follows w Eq (Parser.look k) (Parser.look k) :=
  .looking fun c _ => (seen c).symm

theorem sees (text : String) : Follows w Eq (Parser.sees text) (Parser.sees text) :=
  .look fun c => cursor_spellsAt c 0 text

theorem start : Follows w (fun a b => b = w.layout.offset a ∧ w.begins a) (Parser.look Cursor.start)
    (Parser.look Cursor.start) :=
  .looking fun c fits => ⟨congrArg Span.start (cursor_range c), fits.range⟩

theorem doc : Follows w (Becomes w.layout.doc) (Parser.look Cursor.doc) (Parser.look Cursor.doc) :=
  .looking fun c _ => cursor_doc c

theorem sinceStart (start : Nat) :
    Follows w (fun r r' => r' = w.layout.span r ∧ r.start = start) (Parser.since start)
      (Parser.since (w.layout.offset start)) :=
  .looking fun c _ => ⟨cursor_since c start, rfl⟩

theorem since (start : Nat) : Follows w (Becomes w.layout.span) (Parser.since start)
    (Parser.since (w.layout.offset start)) :=
  (sinceStart start).imp fun _ _ => And.left

theorem bumpExact : Follows w (fun r r' => r' = w.layout.span r ∧ w.begins r.start) Parser.bump Parser.bump where
  ok c _ _ fits run := by
    cases run
    refine ⟨fits.next, _, ⟨cursor_range c, fits.range⟩, ?_⟩
    rw [Parser.bump, cursor_next]
  error _ _ _ run := by cases run

theorem bump : Follows w (Becomes w.layout.span) Parser.bump Parser.bump :=
  bumpExact.imp fun _ _ => And.left

theorem eat (text : String) : Follows w Eq (Parser.eat text) (Parser.eat text) where
  ok c x c' fits run := by
    unfold Parser.eat at run ⊢
    rw [cursor_spellsAt, cursor_next]
    split at run <;> rename_i here <;> cases run
    · exact ⟨fits.next, true, rfl, if_pos here⟩
    · exact ⟨fits, false, rfl, if_neg here⟩
  error c e _ run := by
    unfold Parser.eat at run
    split at run <;> cases run

theorem expectAs (text what : String) :
    Follows w (Becomes w.layout.span) (Parser.expectAs text what) (Parser.expectAs text what) where
  ok c x c' fits run := by
    unfold Parser.expectAs at run ⊢
    rw [cursor_spellsAt, cursor_next, cursor_range]
    split at run <;> rename_i here <;> cases run
    exact ⟨fits.next, _, rfl, if_pos here⟩
  error c e fits run := by
    unfold Parser.expectAs at run ⊢
    rw [cursor_spellsAt]
    split at run
    · cases run
    · rename_i here
      rw [if_neg here]
      exact (Follows.fail (R := fun (_ _ : Span) => True) what).error c e fits run

theorem expect (text : String) :
    Follows w (Becomes w.layout.span) (Parser.expect text) (Parser.expect text) :=
  expectAs ..

theorem identExact : Follows w (fun i i' => i' = w.layout.ident i ∧ w.begins i.range.start) Parser.ident
    Parser.ident where
  ok c x c' fits run := by
    unfold Parser.ident at run ⊢
    rw [cursor_rest, cursor_next]
    split at run
    · rename_i t rest same
      split at run
      · rename_i sort
        cases run
        have begins := fits.begin t (by rw [same]; exact List.mem_cons_self)
        refine ⟨fits.next, w.layout.ident ⟨t.text, t.range⟩, ⟨rfl, begins⟩, ?_⟩
        rw [same, List.map_cons]
        simp only [token_kind, sort, if_true]
        rw [Layout.ident, mark_eq begins]
        rfl
      · cases run
    · cases run
  error c e fits run := by
    have failed := (Follows.fail (w := w) (R := fun (_ _ : Ident) => True) "identifier").error c e fits
    unfold Parser.ident at run ⊢
    rw [cursor_rest]
    split at run
    · rename_i t rest same
      split at run
      · cases run
      · rename_i sort
        rw [same, List.map_cons]
        simp only [token_kind, sort]
        exact failed run
    · rename_i same
      rw [same]
      exact failed run

theorem ident : Follows w (Becomes w.layout.ident) Parser.ident Parser.ident :=
  identExact.imp fun _ _ => And.left

/-! Trying rules. -/

theorem attempt {F : α → β} (h : Follows w (Becomes F) p q) :
    Follows w (Becomes (Option.map F)) (Parser.attempt p) (Parser.attempt q) where
  ok c x c' fits run := by
    unfold Parser.attempt at run ⊢
    split at run
    · rename_i y c'' read
      cases run
      obtain ⟨fits', _, rfl, read'⟩ := h.ok c y c' fits read
      exact ⟨fits', some (F y), rfl, by rw [read']⟩
    · rename_i e read
      cases run
      refine ⟨fits, none, rfl, ?_⟩
      rw [(h.error c e fits read).2]
  error c e _ run := by
    unfold Parser.attempt at run
    split at run <;> cases run

theorem attemptSome {F : α → β} {p : Parser (Option α)} {q : Parser (Option β)}
    (h : Follows w (Becomes (Option.map F)) p q) :
    Follows w (Becomes (Option.map F)) (Parser.attemptSome p) (Parser.attemptSome q) where
  ok c x c' fits run := by
    unfold Parser.attemptSome at run ⊢
    split at run
    · rename_i y c'' read
      cases run
      obtain ⟨fits', _, rfl, read'⟩ := h.ok c (some y) c' fits read
      exact ⟨fits', some (F y), rfl, by rw [read']; rfl⟩
    · rename_i c'' read
      cases run
      obtain ⟨-, _, rfl, read'⟩ := h.ok c none c'' fits read
      exact ⟨fits, none, rfl, by rw [read']; rfl⟩
    · cases run
  error c e fits run := by
    unfold Parser.attemptSome at run ⊢
    split at run
    · cases run
    · cases run
    · rename_i e' read
      cases run
      obtain ⟨begins, read'⟩ := h.error c e fits read
      exact ⟨begins, by rw [read']⟩

/-! Loops. -/

/-- Both loops stop, or both go on with related values. -/
inductive Step (R : α → β → Prop) : Option α → Option β → Prop
  | stop : Step R none none
  | go {x : α} {y : β} (related : R x y) : Step R (some x) (some y)

theorem iterateFor {step : α → Parser (Option α)} {step' : β → Parser (Option β)}
    (each : ∀ x y, R x y → Follows w (Step R) (step x) (step' y)) (n : Nat) :
    ∀ x y, R x y → Follows w R (Parser.iterateFor step n x) (Parser.iterateFor step' n y) := by
  induction n with
  | zero => exact fun _ _ _ => .tooDeep
  | succ n ih =>
    intro x y related
    refine ⟨fun c z c' fits run => ?_, fun c e fits run => ?_⟩
    · simp only [Parser.iterateFor] at run ⊢
      split at run
      · cases run
      · rename_i c'' read
        cases run
        obtain ⟨fits', _, same, read'⟩ := (each x y related).ok c none c' fits read
        cases same
        exact ⟨fits', y, related, by rw [read']⟩
      · rename_i x' c'' read
        obtain ⟨fits', _, same, read'⟩ := (each x y related).ok c (some x') c'' fits read
        cases same with
        | go related' =>
          rw [read']
          exact (ih _ _ related').ok c'' z c' fits' run
    · simp only [Parser.iterateFor] at run ⊢
      split at run
      · rename_i e' read
        cases run
        obtain ⟨begins, read'⟩ := (each x y related).error c e fits read
        exact ⟨begins, by rw [read']⟩
      · cases run
      · rename_i x' c'' read
        obtain ⟨fits', _, same, read'⟩ := (each x y related).ok c (some x') c'' fits read
        cases same with
        | go related' =>
          rw [read']
          exact (ih _ _ related').error c'' e fits' run

theorem iterate {step : α → Parser (Option α)} {step' : β → Parser (Option β)} {x : α} {y : β}
    (first : R x y) (each : ∀ x y, R x y → Follows w (Step R) (step x) (step' y)) :
    Follows w R (Parser.iterate step x) (Parser.iterate step' y) where
  ok c z c' fits run := by
    unfold Parser.iterate
    rw [cursor_rest, List.length_map]
    exact (iterateFor each _ x y first).ok c z c' fits run
  error c e fits run := by
    unfold Parser.iterate
    rw [cursor_rest, List.length_map]
    exact (iterateFor each _ x y first).error c e fits run

/-- A loop whose values become others one by one. -/
theorem iterateOn {F : α → β} {step : α → Parser (Option α)} {step' : β → Parser (Option β)} {x : α} {y : β}
    (first : y = F x) (each : ∀ x, Follows w (Becomes (Option.map F)) (step x) (step' (F x))) :
    Follows w (Becomes F) (Parser.iterate step x) (Parser.iterate step' y) := by
  refine .iterate first ?_
  rintro x _ rfl
  refine (each x).imp ?_
  rintro next _ rfl
  cases next with
  | none => exact .stop
  | some y => exact .go rfl

theorem many {F : α → β} {p : Parser (Option α)} {q : Parser (Option β)}
    (h : Follows w (Becomes (Option.map F)) p q) :
    Follows w (Becomes (List.map F)) (Parser.many p) (Parser.many q) := by
  have loop : Follows w (Becomes (List.map F))
      (Parser.iterate (fun xs => do return (← p).map (· :: xs)) [])
      (Parser.iterate (fun xs => do return (← q).map (· :: xs)) []) := by
    refine .iterateOn rfl fun xs => h.bind fun x => .pure ?_
    cases x <;> rfl
  exact loop.bind fun xs => .pure (List.map_reverse ..).symm

theorem manyWhile {F : α → β} {condition : Cursor → Bool} (seen : ∀ c, condition (w.cursor c) = condition c)
    (h : Follows w (Becomes F) p q) :
    Follows w (Becomes (List.map F)) (Parser.manyWhile condition p) (Parser.manyWhile condition q) :=
  .many ((look seen).same fun _ => .cond (h.bind fun _ => .pure rfl) (.pure rfl))

theorem sepBy (text : String) {F : α → β} (h : Follows w (Becomes F) p q) :
    Follows w (Becomes (List.map F)) (Parser.sepBy text p) (Parser.sepBy text q) := by
  refine h.bind fun first => .bind (F := List.map F) (.many ?_) fun rest => .pure rfl
  exact (eat text).same fun _ => .cond (h.bind fun _ => .pure rfl) (.pure rfl)

theorem commaList (close : String) {F : α → β} (h : Follows w (Becomes F) p q) :
    Follows w (Becomes (List.map F)) (Parser.commaList close p) (Parser.commaList close q) :=
  (sees close).same fun _ => .cond (.pure rfl) (h.sepBy ",")

theorem parens {F : α → β} (h : Follows w (Becomes F) p q) :
    Follows w (Becomes (List.map F)) (Parser.parens p) (Parser.parens q) :=
  .past (expect _) ((h.commaList ")").bind fun _ => .past (expect _) (.pure rfl))

theorem emptyBrackets : Follows w Eq Parser.emptyBrackets Parser.emptyBrackets := by
  have pair : Follows w (Becomes id) (do Functor.discard Parser.bump; Functor.discard Parser.bump)
      (do Functor.discard Parser.bump; Functor.discard Parser.bump) :=
    .past bump (bump.map fun _ _ _ => rfl)
  refine (pair.manyWhile fun c => by simp).bind fun pairs => .answer ?_
  rw [List.length_map]

end Follows
end Printing
end JavaIndex
