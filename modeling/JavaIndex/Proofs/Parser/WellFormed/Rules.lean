import JavaIndex.Proofs.Parser.Operators
import JavaIndex.Proofs.Tree.Subtrees
import JavaIndex.Proofs.Tree.TypeWords

/-! What can be relied on in the types and the expressions that rules of the grammar answer with: names are
identifiers of the text, types can be written, and operators are grouped. -/
namespace JavaIndex

namespace Subtree

/-- Identifiers are names, types can be written, and operators are grouped. -/
@[simp] def WellFormed (names : String → Prop) : Subtree → Prop
  | .type t => t.Writable names
  | .expr (.name name) => names name.text
  | .expr (.field _ name _) => names name.text
  | .expr e => e.Grouped

/-- All of these are well formed. -/
def All (names : String → Prop) (ss : List Subtree) : Prop := ∀ s ∈ ss, s.WellFormed names

variable {names : String → Prop}

@[simp] theorem all_nil : All names [] := nofun

@[simp] theorem all_cons (s : Subtree) (ss : List Subtree) :
    All names (s :: ss) ↔ s.WellFormed names ∧ All names ss :=
  List.forall_mem_cons

@[simp] theorem all_append (ss ss' : List Subtree) : All names (ss ++ ss') ↔ All names ss ∧ All names ss' :=
  List.forall_mem_append

@[simp] theorem all_flatMap {α : Type} (xs : List α) (parts : α → List Subtree) :
    All names (xs.flatMap parts) ↔ ∀ x ∈ xs, All names (parts x) := by
  simp only [All, List.mem_flatMap, forall_exists_index, and_imp]
  exact ⟨fun all x hx s hs => all s x hx hs, fun all s x hx hs => all x hx s hs⟩

@[simp] theorem all_elim {α : Type} (x : Option α) (parts : α → List Subtree) :
    All names (x.elim [] parts) ↔ ∀ y ∈ x, All names (parts y) := by
  cases x <;> simp

theorem All.writable {t : TypeRef} (h : All names (Subtrees.typeRef t)) : t.Writable names := by
  cases t <;> simp only [Subtrees.typeRef, all_cons] at h
  · exact h.1
  · exact h.1
  · exact h.1

theorem all_array {t : TypeRef} {dims : Nat} (positive : 0 < dims) (h : All names (Subtrees.typeRef t))
    (range : Span) : All names (Subtrees.typeRef (.array t dims range)) := by
  rw [Subtrees.typeRef, all_cons]
  exact ⟨.array positive h.writable, h⟩

end Subtree

/-- The identifiers still to be read are names. -/
def Cursor.Named (names : String → Prop) (c : Cursor) : Prop :=
  ∀ t ∈ c.rest, t.kind = .identifier → names t.text

theorem Cursor.Named.past {names : String → Prop} {c : Cursor} (named : c.Named names) (k : Nat) :
    (c.past k).Named names := by
  rw [Cursor.Named, rest_past]
  exact fun t ht => named t (List.mem_of_mem_drop ht)

namespace Parser

/-- A loop keeps what every step keeps, and ends with a step that finds nothing to do. -/
theorem iterate_ok {α : Type} {step : α → Parser (Option α)} {I : α → Cursor → Prop} {x y : α} {c c' : Cursor}
    (first : I x c) (more : ∀ x c y c', I x c → step x c = .ok (some y, c') → I y c')
    (run : iterate step x c = .ok (y, c')) : ∃ c'', I y c'' ∧ step y c'' = .ok (none, c') := by
  have all (n : Nat) : ∀ x c, I x c → iterateFor step n x c = .ok (y, c') →
      ∃ c'', I y c'' ∧ step y c'' = .ok (none, c') := by
    induction n with
    | zero =>
      intro x c _ run
      cases run
    | succ n ih =>
      intro x c held run
      simp only [iterateFor] at run
      split at run
      · cases run
      · rename_i last
        cases run
        exact ⟨c, held, last⟩
      · rename_i z c'' read
        exact ih z c'' (more x c z c'' held read) run
  exact all _ x c first run

/-- A rule whose answers have a property if the identifiers that it reads are names. -/
structure Gives {α : Type} (names : String → Prop) (p : Parser α) (w : α → Prop) : Prop where
  answers : ∀ c x c', c.Named names → p c = .ok (x, c') → w x ∧ c'.Named names

section

variable {α β : Type} {names : String → Prop} {p q : Parser α} {v w : α → Prop} {f : α → Parser β} {w' : β → Prop}

/-! How rules are put together. -/

theorem gives_pure {x : α} (held : w x) : Gives names (pure x) w where
  answers c y c' named run := by
    cases run
    exact ⟨held, named⟩

theorem Gives.bind (first : Gives names p v) (second : ∀ x, v x → Gives names (f x) w') :
    Gives names (p >>= f) w' where
  answers c y c'' named run := by
    obtain ⟨x, c', read, run⟩ := bind_ok run
    obtain ⟨held, named'⟩ := first.answers c x c' named read
    exact (second x held).answers c' y c'' named' run

theorem Gives.skip (first : Gives names p v) (second : ∀ x, Gives names (f x) w') : Gives names (p >>= f) w' :=
  .bind first fun x _ => second x

theorem Gives.imp (h : Gives names p v) (imp : ∀ x, v x → w x) : Gives names p w where
  answers c x c' named run := by
    obtain ⟨held, named'⟩ := h.answers c x c' named run
    exact ⟨imp x held, named'⟩

theorem Gives.cond {c : Prop} [Decidable c] (yes : Gives names p w) (no : Gives names q w) :
    Gives names (if c then p else q) w := by
  split
  · exact yes
  · exact no

/-- The rest is read after a rule that takes two steps. -/
theorem Gives.steps {γ : Type} {first : Parser γ} {second : γ → Parser α} (h : Gives names (first >>= second) v)
    (rest : ∀ x, v x → Gives names (f x) w') : Gives names (first >>= fun a => second a >>= f) w' := by
  rw [← bind_assoc]
  exact .bind h rest

/-- The rest is read after either of two rules. -/
theorem Gives.either {c : Prop} [Decidable c] (yes : Gives names p v) (no : Gives names q v)
    (rest : ∀ x, v x → Gives names (f x) w') : Gives names (if c then p >>= f else q >>= f) w' :=
  .cond (.bind yes rest) (.bind no rest)

theorem Gives.stepsOr {γ : Type} {c : Prop} [Decidable c] {first : Parser γ} {second : γ → Parser α}
    (yes : Gives names (first >>= second) v) (no : Gives names q v) (rest : ∀ x, v x → Gives names (f x) w') :
    Gives names (if c then first >>= fun a => second a >>= f else q >>= f) w' :=
  .cond (.steps yes rest) (.bind no rest)

theorem Gives.orSteps {γ : Type} {c : Prop} [Decidable c] {first : Parser γ} {second : γ → Parser α}
    (yes : Gives names p v) (no : Gives names (first >>= second) v) (rest : ∀ x, v x → Gives names (f x) w') :
    Gives names (if c then p >>= f else first >>= fun a => second a >>= f) w' :=
  .cond (.bind yes rest) (.steps no rest)

theorem Gives.map {f : α → β} (h : Gives names p fun x => w' (f x)) : Gives names (f <$> p) w' where
  answers c y c' named run := by
    obtain ⟨x, read, rfl⟩ := map_ok run
    exact h.answers c x c' named read

theorem Gives.found (h : Gives names p w) : Gives names (some <$> p) fun r => ∀ x ∈ r, w x :=
  .map (h.imp fun x held y same => by
    cases same
    exact held)

theorem Gives.discard (h : Gives names p v) : Gives names (discard p) fun _ => True :=
  .map (h.imp fun _ _ => trivial)

theorem fail_gives (what : String) : Gives names (fail what) w where
  answers c x c' _ run := by cases run

theorem tooDeep_gives : Gives names tooDeep w where
  answers c x c' _ run := by cases run

/-- A rule is read or left out. -/
theorem Gives.skipIf {c : Prop} [Decidable c] {p : Parser Unit} {v : Unit → Prop} {rest : Unit → Parser α}
    (first : Gives names p v) (h : ∀ u, Gives names (rest u) w) :
    Gives names (if c then p >>= rest else rest ()) w :=
  .cond (.skip first h) (h ())

/-! Looking at tokens and going past them. -/

theorem look_gives (f : Cursor → α) : Gives names (look f) fun _ => True where
  answers c x c' named run := by
    cases run
    exact ⟨trivial, named⟩

theorem sees_gives (text : String) : Gives names (sees text) fun _ => True := look_gives _

theorem since_gives (start : Nat) : Gives names (since start) fun _ => True := look_gives _

/-- What a rule answers once its span is known. -/
theorem gives_since {start : Nat} {f : Span → α} (held : ∀ range, w (f range)) :
    Gives names (since start >>= fun range => pure (f range)) w :=
  .skip (since_gives _) fun range => gives_pure (held range)

theorem bump_gives : Gives names bump fun _ => True where
  answers c x c' named run := by
    cases run
    exact ⟨trivial, named.past 1⟩

theorem pass_gives : Gives names (Functor.discard bump) fun _ => True := .discard bump_gives

theorem eat_gives (text : String) : Gives names (eat text) fun _ => True where
  answers c x c' named run := by
    unfold eat at run
    split at run <;> cases run
    · exact ⟨trivial, named.past 1⟩
    · exact ⟨trivial, named⟩

theorem expectAs_gives (text what : String) : Gives names (expectAs text what) fun _ => True where
  answers c x c' named run := by
    unfold expectAs at run
    split at run <;> cases run
    exact ⟨trivial, named.past 1⟩

theorem expect_gives (text : String) : Gives names (Functor.discard (expect text)) fun _ => True :=
  .discard (expectAs_gives ..)

theorem ident_gives : Gives names ident fun name => names name.text where
  answers c name c' named run := by
    unfold ident at run
    split at run
    · rename_i t rest same
      split at run <;> cases run
      rename_i word
      exact ⟨named t (by simp [same]) (eq_of_beq word), named.past 1⟩
    · cases run

/-! Trying rules. -/

theorem Gives.attempt (h : Gives names p w) : Gives names (attempt p) fun r => ∀ x ∈ r, w x where
  answers c x c' named run := by
    unfold Parser.attempt at run
    split at run
    · rename_i y c'' read
      cases run
      simpa using h.answers c y c' named read
    · cases run
      simpa using named

theorem Gives.attemptSome {p : Parser (Option α)} (h : Gives names p fun r => ∀ x ∈ r, w x) :
    Gives names (attemptSome p) fun r => ∀ x ∈ r, w x where
  answers c x c' named run := by
    unfold Parser.attemptSome at run
    split at run
    · rename_i y c'' read
      cases run
      exact h.answers c (some y) c' named read
    · cases run
      simpa using named
    · cases run

/-! Loops. -/

theorem Gives.iterate {step : α → Parser (Option α)} {start : α} (first : w start)
    (h : ∀ x, w x → Gives names (step x) fun r => ∀ y ∈ r, w y) : Gives names (iterate step start) w where
  answers c y c' named run := by
    obtain ⟨c'', ⟨held, named'⟩, last⟩ := iterate_ok (I := fun x c => w x ∧ c.Named names) ⟨first, named⟩
      (fun x c y c' held read => by simpa using (h x held.1).answers c (some y) c' held.2 read) run
    exact ⟨held, ((h y held).answers c'' none c' named' last).2⟩

theorem Gives.many {p : Parser (Option α)} (h : Gives names p fun r => ∀ x ∈ r, w x) :
    Gives names (many p) fun xs => ∀ x ∈ xs, w x := by
  refine .bind (v := (∀ x ∈ ·, w x)) (.iterate nofun fun _ held => .bind h fun x found => ?_) ?_
  · refine gives_pure ?_
    cases x with
    | none => simp
    | some x => simpa using ⟨found x rfl, held⟩
  · exact fun xs held => gives_pure (by simpa using held)

theorem Gives.manyWhile (condition : Cursor → Bool) (h : Gives names p w) :
    Gives names (manyWhile condition p) fun xs => ∀ x ∈ xs, w x := by
  refine .many (.skip (look_gives _) fun b => .cond ?_ (gives_pure (by simp)))
  exact .bind h fun x held => gives_pure (by simpa using held)

theorem Gives.sepBy (text : String) (h : Gives names p w) : Gives names (sepBy text p) fun xs => ∀ x ∈ xs, w x := by
  refine .bind h fun first held => .bind (.many (w := w) (.skip (eat_gives _) fun b => .cond ?_ ?_)) fun rest held' => ?_
  · exact .bind h fun x held => gives_pure (by simpa using held)
  · exact gives_pure (by simp)
  · exact gives_pure (by simpa using ⟨held, held'⟩)

theorem Gives.commaList (close : String) (h : Gives names p w) :
    Gives names (commaList close p) fun xs => ∀ x ∈ xs, w x :=
  .skip (sees_gives _) fun _ => .cond (gives_pure nofun) (.sepBy "," h)

theorem Gives.parens (h : Gives names p w) : Gives names (parens p) fun xs => ∀ x ∈ xs, w x :=
  .skip (expect_gives _) fun _ => .bind (.commaList ")" h) fun _ held => .skip (expect_gives _) fun _ => gives_pure held

theorem emptyBrackets_gives : Gives names emptyBrackets fun _ => True := by
  refine .skip (.manyWhile (w := fun _ => True) _ ?_) fun pairs => gives_pure trivial
  exact .skip pass_gives fun _ => pass_gives

end
end Parser
end JavaIndex
