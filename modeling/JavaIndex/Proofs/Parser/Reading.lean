import JavaIndex.Proofs.Parser.Words
import JavaIndex.Proofs.Token.Words

/-! The words that rules of the grammar read. Where tokens stand plays no part in it. -/
namespace JavaIndex

/-- These are the words still to be read. -/
def Cursor.Shows (c : Cursor) (ws : List Token.Word) : Prop := c.rest.map Token.word = ws

/-- Nothing stands there, or one of these signs and then anything. -/
def Ends (signs : List String) (ws : List Token.Word) : Prop := ∀ w ∈ ws.head?, w.1 = .sign ∧ w.2 ∈ signs

namespace Cursor.Shows

variable {c : Cursor} {ws : List Token.Word} (shows : c.Shows ws)

include shows

theorem ahead? (n : Nat) : (c.ahead? n).map Token.word = ws[n]? := by
  rw [← shows, List.getElem?_map, Cursor.ahead?]

theorem spellsAt (n : Nat) (text : String) : c.spellsAt n text = (ws[n]?).any (·.spells text) := by
  rw [← shows.ahead?, Cursor.spellsAt]
  cases c.ahead? n <;> rfl

theorem identifierAt (n : Nat) : c.identifierAt n = (ws[n]?).any (·.1 == .identifier) := by
  rw [← shows.ahead?, Cursor.identifierAt]
  cases c.ahead? n <;> rfl

theorem primitiveAt (n : Nat) :
    c.primitiveAt n = (ws[n]?).any fun w => w.1 == .keyword && Token.primitives.contains w.2 := by
  rw [← shows.ahead?, Cursor.primitiveAt]
  cases c.ahead? n <;> rfl

theorem text : ((c.ahead? 0).map Token.text).getD "" = ((ws[0]?).map (·.2)).getD "" := by
  rw [← shows.ahead?]
  cases c.ahead? 0 <;> rfl

theorem length : c.rest.length = ws.length := by
  rw [← shows, List.length_map]

theorem next : c.next.Shows ws.tail := by
  rw [← shows, Cursor.next]
  split
  · rename_i t rest same
    rw [same]
    rfl
  · rename_i same
    rw [Shows, same]
    rfl

end Cursor.Shows

theorem Ends.not_spells {signs : List String} {ws : List Token.Word} (ends : Ends signs ws) {text : String}
    (other : text ∉ signs) : (ws[0]?).any (·.spells text) = false := by
  rw [← List.head?_eq_getElem?]
  cases first : ws.head? with
  | none => rfl
  | some w =>
    obtain ⟨sign, listed⟩ := ends w first
    simp only [Option.any_some, Token.Word.spells, sign]
    simpa using fun same : w.2 = text => other (same ▸ listed)

theorem Ends.mono {signs signs' : List String} {ws : List Token.Word} (ends : Ends signs ws) (more : signs ⊆ signs') :
    Ends signs' ws :=
  fun w here => ⟨(ends w here).1, more (ends w here).2⟩

theorem ends_cons {signs : List String} {text : String} (listed : text ∈ signs) (ws : List Token.Word) :
    Ends signs ((.sign, text) :: ws) := by
  simpa [Ends] using listed

namespace Parser

/-- The rule takes these words before anything that may follow, and its answer has a property. -/
def Takes {α : Type} (p : Parser α) (ws : List Token.Word) (follow : List Token.Word → Prop) (w : α → Prop) : Prop :=
  ∀ c more, follow more → c.Shows (ws ++ more) → ∃ x c', p c = .ok (x, c') ∧ c'.Shows more ∧ w x

/-- Whatever follows. -/
abbrev anything : List Token.Word → Prop := fun _ => True

namespace Takes

variable {α β γ : Type} {p q : Parser α} {f : α → Parser β} {v w : α → Prop} {w' : β → Prop} {ws ws' : List Token.Word}
  {follow follow' : List Token.Word → Prop} {word : Token.Word}

/-! How rules are put together. -/

theorem pure {x : α} (held : w x) : Takes (pure x) [] follow w :=
  fun c _ _ shows => ⟨x, c, rfl, shows, held⟩

theorem bind (first : Takes p ws follow' v) (link : ∀ more, follow more → follow' (ws' ++ more))
    (second : ∀ x, v x → Takes (f x) ws' follow w') : Takes (p >>= f) (ws ++ ws') follow w' := by
  intro c more after shows
  rw [List.append_assoc] at shows
  obtain ⟨x, c', read, shows', held⟩ := first c _ (link more after) shows
  obtain ⟨y, c'', rest, result⟩ := second x held c' more after shows'
  exact ⟨y, c'', by rw [run_bind read, rest], result⟩

/-- A rule that reads one word, then the rest. -/
theorem step (first : Takes p [word] anything v) (second : ∀ x, v x → Takes (f x) ws follow w') :
    Takes (p >>= f) (word :: ws) follow w' :=
  first.bind (fun _ _ => trivial) second

/-- A rule that reads nothing, then the rest. -/
theorem skip (first : Takes p [] follow' v) (link : ∀ more, follow more → follow' (ws ++ more))
    (second : ∀ x, v x → Takes (f x) ws follow w') : Takes (p >>= f) ws follow w' :=
  first.bind link second

/-- The rest reads nothing. -/
theorem finish (first : Takes p ws follow v) (second : ∀ x, v x → Takes (f x) [] follow w') :
    Takes (p >>= f) ws follow w' := by
  have all : Takes (p >>= f) (ws ++ []) follow w' := first.bind (fun _ after => after) second
  rwa [List.append_nil] at all

theorem imp (h : Takes p ws follow v) (imp : ∀ x, v x → w x) : Takes p ws follow w := by
  intro c more after shows
  obtain ⟨x, c', read, shows', held⟩ := h c more after shows
  exact ⟨x, c', read, shows', imp x held⟩

theorem map {f : α → β} (h : Takes p ws follow fun x => w' (f x)) : Takes (f <$> p) ws follow w' := by
  intro c more after shows
  obtain ⟨x, c', read, result⟩ := h c more after shows
  refine ⟨f x, c', ?_, result⟩
  simp [Functor.map, StateT.map, read, Bind.bind, Except.bind, Pure.pure, Except.pure]

theorem discard (h : Takes p ws follow v) : Takes (discard p) ws follow fun _ => True :=
  .map (h.imp fun _ _ => trivial)

/-- The cursor is looked at where the words are still to be read. -/
theorem look {g : Cursor → γ} {f : γ → Parser α}
    (h : ∀ c more, follow more → c.Shows (ws ++ more) → Takes (f (g c)) ws follow w) :
    Takes (look g >>= f) ws follow w :=
  fun c more after shows => h c more after shows c more after shows

/-! Single words. -/

theorem bump : Takes bump [word] anything fun _ => True :=
  fun c _ _ shows => ⟨c.range, c.next, rfl, shows.next, trivial⟩

theorem expect {text : String} (spelled : word.spells text = true) :
    Takes (Functor.discard (expect text)) [word] anything fun _ => True := by
  refine .discard (v := fun _ => True) fun c more _ shows => ⟨c.range, c.next, ?_, shows.next, trivial⟩
  have here : c.spellsAt 0 text = true := by
    rw [shows.spellsAt]
    simpa using spelled
  rw [Parser.expect, expectAs, if_pos here]

theorem ident {name : String} : Takes ident [(.identifier, name)] anything fun n => n.text = name := by
  intro c more _ shows
  have next := shows.next
  unfold Parser.ident
  split
  · rename_i t rest same
    obtain ⟨word, -⟩ : t.word = (.identifier, name) ∧ rest.map Token.word = more := by
      simpa [Cursor.Shows, same] using shows
    obtain ⟨sort, text⟩ := Prod.mk.inj word
    refine ⟨_, c.next, by rw [if_pos (by simp [sort])], next, text⟩
  · rename_i same
    simp [Cursor.Shows, same] at shows

theorem eaten {text : String} {f : Bool → Parser α} (spelled : word.spells text = true)
    (h : Takes (f true) ws follow w) : Takes (eat text >>= f) (word :: ws) follow w := by
  refine .step (v := (· = true)) ?_ (by rintro _ rfl; exact h)
  intro c more _ shows
  refine ⟨true, c.next, ?_, shows.next, rfl⟩
  rw [eat, if_pos (by rw [shows.spellsAt]; simpa using spelled)]

theorem notEaten {text : String} {f : Bool → Parser α}
    (other : ∀ more, follow more → ((ws ++ more)[0]?).any (·.spells text) = false) (h : Takes (f false) ws follow w) :
    Takes (eat text >>= f) ws follow w := by
  intro c more after shows
  have uneaten : eat text c = .ok (false, c) := by
    rw [eat, if_neg (by rw [shows.spellsAt, other more after]; simp)]
  rw [run_bind uneaten]
  exact h c more after shows

/-! Loops. What is read is compared with what it is read from. -/

section

variable {δ : Type} {xs : List δ} {words : δ → List Token.Word} {f : α → γ} {g : δ → γ}

theorem follow_flatMap (inner : ∀ x ∈ xs, ∀ more, follow (words x ++ more)) {more : List Token.Word}
    (outer : follow more) : follow (xs.flatMap words ++ more) := by
  cases xs with
  | nil => exact outer
  | cons x xs =>
    rw [List.flatMap_cons, List.append_assoc]
    exact inner x List.mem_cons_self _

/-- As many steps as words are enough, since each step reads a word. -/
theorem iterateFor {p : Parser (Option α)} (some : ∀ x ∈ xs, words x ≠ [])
    (each : ∀ x ∈ xs, Takes p (words x) follow' fun r => r.map f = .some (g x))
    (last : Takes p [] follow (· = none)) (inner : ∀ x ∈ xs, ∀ more, follow' (words x ++ more))
    (outer : ∀ more, follow more → follow' more) (n : Nat) (long : (xs.flatMap words).length < n) (held : List α) :
    Takes (iterateFor (fun held => do return (← p).map (· :: held)) n held) (xs.flatMap words) follow fun r =>
      ∃ ys : List α, r = ys.reverse ++ held ∧ ys.map f = xs.map g := by
  obtain ⟨n, rfl⟩ := Nat.exists_eq_succ_of_ne_zero (Nat.ne_of_gt (Nat.zero_lt_of_lt long))
  intro c more after shows
  induction xs generalizing n held c with
  | nil =>
    obtain ⟨x, c', read, shows', rfl⟩ := last c more after shows
    refine ⟨held, c', ?_, shows', [], rfl, rfl⟩
    simp only [Parser.iterateFor, run_bind read]
    rfl
  | cons x xs ih =>
    rw [List.forall_mem_cons] at some each inner
    rw [List.flatMap_cons, List.append_assoc] at shows
    have link := follow_flatMap inner.2 (outer more after)
    have word := List.length_pos_iff.mpr some.1
    rw [List.flatMap_cons, List.length_append] at long
    obtain ⟨n, rfl⟩ : ∃ m, n = m + 1 := ⟨n - 1, by omega⟩
    obtain ⟨r, c', read, shows', answer⟩ := each.1 c _ link shows
    obtain ⟨y, rfl, same⟩ := Option.map_eq_some_iff.mp answer
    obtain ⟨_, c'', rest, shows'', ys, rfl, sames⟩ :=
      ih some.2 each.2 inner.2 (y :: held) n (by omega) c' shows'
    refine ⟨ys.reverse ++ y :: held, c'', ?_, shows'', y :: ys, by simp, by simp [same, sames]⟩
    simp only [Parser.iterateFor, run_bind read]
    exact rest

theorem many {p : Parser (Option α)} (some : ∀ x ∈ xs, words x ≠ [])
    (each : ∀ x ∈ xs, Takes p (words x) follow' fun r => r.map f = .some (g x))
    (last : Takes p [] follow (· = none)) (inner : ∀ x ∈ xs, ∀ more, follow' (words x ++ more))
    (outer : ∀ more, follow more → follow' more) :
    Takes (many p) (xs.flatMap words) follow fun ys => ys.map f = xs.map g := by
  intro c more after shows
  have long : (xs.flatMap words).length < c.rest.length + 1 := by
    rw [shows.length, List.length_append]
    omega
  obtain ⟨_, c', read, shows', ys, rfl, same⟩ := iterateFor some each last inner outer _ long [] c more after shows
  refine ⟨ys, c', ?_, shows', same⟩
  rw [Parser.many, run_bind (show iterate _ _ c = _ from read)]
  rw [List.reverse_append, List.reverse_reverse]
  rfl

/-- A condition tells whether the loop goes on. -/
theorem manyWhile {p : Parser α} {condition : Cursor → Bool} (some : ∀ x ∈ xs, words x ≠ [])
    (each : ∀ x ∈ xs, Takes p (words x) follow' fun y => f y = g x)
    (goes : ∀ x ∈ xs, ∀ c more, c.Shows (words x ++ more) → condition c = true)
    (stops : ∀ c more, follow more → c.Shows more → condition c = false)
    (inner : ∀ x ∈ xs, ∀ more, follow' (words x ++ more)) (outer : ∀ more, follow more → follow' more) :
    Takes (manyWhile condition p) (xs.flatMap words) follow fun ys => ys.map f = xs.map g := by
  refine many some (fun x hx => .look fun c more _ shows => ?_) (.look fun c more after shows => ?_) inner outer
  · rw [goes x hx c more shows, if_pos rfl]
    exact (each x hx).finish fun y same => .pure (congrArg Option.some same)
  · rw [stops c more after shows, if_neg Bool.false_ne_true]
    exact .pure rfl

theorem manyWhile_none {p : Parser α} {condition : Cursor → Bool}
    (stops : ∀ c more, follow more → c.Shows more → condition c = false) :
    Takes (Parser.manyWhile condition p) [] follow (· = []) := by
  have loop : Takes (Parser.manyWhile condition p) (([] : List Unit).flatMap fun _ => []) follow fun ys =>
      ys.map (fun _ => ()) = ([] : List Unit).map id :=
    .manyWhile (by simp) (by simp) (by simp) stops (by simp) fun _ after => after
  exact loop.imp fun ys none => by simpa using none

/-- A keyword or sign stands between each two. -/
theorem sepBy {p : Parser α} {text : String} {x : δ} (each : ∀ y ∈ x :: xs, Takes p (words y) follow' fun z => f z = g y)
    (stops : ∀ more, follow more → (more[0]?).any (·.spells text) = false)
    (inner : ∀ more, follow' ((.sign, text) :: more)) (outer : ∀ more, follow more → follow' more) :
    Takes (sepBy text p) (words x ++ xs.flatMap fun y => (.sign, text) :: words y) follow fun ys =>
      ys.map f = (x :: xs).map g := by
  obtain ⟨first, others⟩ := List.forall_mem_cons.mp each
  have rest : Takes (Parser.many do if ← eat text then return some (← p) else return none)
      (xs.flatMap fun y => (.sign, text) :: words y) follow fun ys => ys.map f = xs.map g := by
    refine many (by simp) (fun y hy => .eaten (by simp [Token.Word.spells]) ?_) (.notEaten stops (.pure rfl))
      (fun y _ more => inner (words y ++ more)) outer
    exact (others y hy).finish fun z same => .pure (congrArg some same)
  refine first.bind (fun more after => ?_) fun y same => rest.finish fun ys sames => .pure (by simp [same, sames])
  exact follow_flatMap (fun y _ more => inner (words y ++ more)) (outer more after)

end

end Takes
end Parser
end JavaIndex
