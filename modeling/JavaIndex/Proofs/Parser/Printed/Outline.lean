import JavaIndex.Proofs.Parser.Printed.Unit
import JavaIndex.Proofs.Parser.Source
import Mathlib.Order.Monotone.Basic

/-! What the tokens of a text are once the text is forgotten: their kinds, their spellings and whether closing
angle brackets stand side by side. In place of its bytes each token has a number. Every text is a printing of
the outline of its tokens, and it is read as its outline is. -/
namespace JavaIndex

namespace Token

/-- The tokens begin with two closing angle brackets side by side. -/
def closesTwice : List Token → Bool
  | a :: b :: _ => a.spells ">" && b.spells ">" && a.range.stop == b.range.start
  | _ => false

/-- A token that knows its number. It begins at an odd place, and it ends at the even place that follows or
where the next token begins. -/
def numbered (n : Nat) (joined : Bool) (t : Token) : Token :=
  ⟨t.kind, t.text, ⟨2 * n + 1, if joined then 2 * n + 3 else 2 * n + 2⟩, some ⟨"", ⟨n, n⟩⟩⟩

def outlineFrom (n : Nat) : List Token → List Token
  | [] => []
  | t :: rest => t.numbered n (closesTwice (t :: rest)) :: outlineFrom (n + 1) rest

/-- The tokens with their numbers in place of the text. -/
def outline (tokens : List Token) : List Token := outlineFrom 0 tokens

/-- The places where tokens begin, and where the text ends. -/
def places (tokens : List Token) (size : Nat) : List Nat := tokens.map (·.range.start) ++ [size]

/-- The texts that these tokens come from spell the same words, and two closing angle brackets stand side by
side in the one where they do in the other. -/
structure SameWords (tokens tokens' : List Token) : Prop where
  words : tokens.map (fun t => (t.kind, t.text)) = tokens'.map fun t => (t.kind, t.text)
  closing : tokens.tails.map closesTwice = tokens'.tails.map closesTwice

theorem outlineFrom_getElem? (tokens : List Token) : ∀ n k : Nat, (outlineFrom n tokens)[k]? =
    tokens[k]?.map (numbered (n + k) (closesTwice (tokens.drop k))) := by
  induction tokens with
  | nil => exact fun _ _ => rfl
  | cons t rest ih =>
    intro n k
    cases k with
    | zero => rfl
    | succ k =>
      rw [outlineFrom, List.getElem?_cons_succ, ih, List.getElem?_cons_succ, List.drop_succ_cons,
        Nat.add_assoc, Nat.add_comm 1 k]

theorem outline_getElem? (tokens : List Token) (k : Nat) :
    (outline tokens)[k]? = tokens[k]?.map (numbered k (closesTwice (tokens.drop k))) := by
  rw [outline, outlineFrom_getElem?, Nat.zero_add]

@[simp] theorem outline_length (tokens : List Token) : (outline tokens).length = tokens.length := by
  have all : ∀ n, (outlineFrom n tokens).length = tokens.length := by
    induction tokens with
    | nil => exact fun _ => rfl
    | cons t rest ih => exact fun n => congrArg (· + 1) (ih (n + 1))
  exact all 0

theorem mem_outline {tokens : List Token} {a : Token} (ha : a ∈ outline tokens) :
    ∃ (k : Nat) (t : Token), tokens[k]? = some t ∧ a = t.numbered k (closesTwice (tokens.drop k)) := by
  obtain ⟨k, here⟩ := List.mem_iff_getElem?.mp ha
  rw [outline_getElem?, Option.map_eq_some_iff] at here
  obtain ⟨t, there, rfl⟩ := here
  exact ⟨k, t, there, rfl⟩

/-- Texts of the same words have one outline. -/
theorem SameWords.outline {tokens tokens' : List Token} (same : SameWords tokens tokens') :
    Token.outline tokens = Token.outline tokens' := by
  obtain ⟨words, closing⟩ := same
  have all : ∀ n, outlineFrom n tokens = outlineFrom n tokens' := by
    induction tokens generalizing tokens' with
    | nil =>
      cases tokens' with
      | nil => exact fun _ => rfl
      | cons => cases words
    | cons t rest ih =>
      cases tokens' with
      | nil => cases words
      | cons t' rest' =>
        rw [List.map_cons, List.map_cons, List.cons.injEq] at words
        rw [List.tails, List.tails, List.map_cons, List.map_cons, List.cons.injEq] at closing
        obtain ⟨word, words⟩ := words
        obtain ⟨kind, text⟩ := Prod.mk.inj word
        intro n
        rw [outlineFrom, outlineFrom, ih words closing.2, closing.1, numbered, numbered, kind, text]
  exact all 0

theorem outline_pairwise (tokens : List Token) :
    (outline tokens).Pairwise fun t u => t.range.stop ≤ u.range.start := by
  rw [List.pairwise_iff_getElem]
  intro i j hi hj less
  have first := outline_getElem? tokens i
  have second := outline_getElem? tokens j
  rw [List.getElem?_eq_getElem hi] at first
  rw [List.getElem?_eq_getElem hj] at second
  obtain ⟨t, -, first⟩ := Option.map_eq_some_iff.mp first.symm
  obtain ⟨u, -, second⟩ := Option.map_eq_some_iff.mp second.symm
  rw [← first, ← second]
  simp only [numbered]
  split <;> omega

/-- No word of the outline stands at two places. -/
theorem outline_words_nodup (tokens : List Token) : (words (outline tokens)).Nodup := by
  apply (words_pairwise (outline_pairwise tokens)).imp_of_mem
  intro i j hi hj before same
  obtain ⟨t, ht, rfl, -⟩ := mem_words hi
  obtain ⟨k, t, -, rfl⟩ := mem_outline ht
  rw [← same] at before
  simp only [numbered] at before
  split at before <;> omega

/-! Where the tokens of a text stand. -/

/-- The tokens stand in a text of so many bytes, one after the other. -/
structure Placed (tokens : List Token) (size : Nat) : Prop where
  nonempty : ∀ t ∈ tokens, t.range.start < t.range.stop
  inside : ∀ t ∈ tokens, t.range.stop ≤ size
  order : tokens.Pairwise fun t u => t.range.stop ≤ u.range.start

def startAt (tokens : List Token) (size k : Nat) : Nat := (tokens[k]?.map (·.range.start)).getD size

def stopAt (tokens : List Token) (size k : Nat) : Nat := (tokens[k]?.map (·.range.stop)).getD size

/-- The byte at a place of the outline. -/
def byteAt (tokens : List Token) (size : Nat) : Nat → Nat
  | 0 => 0
  | p + 1 => if p % 2 = 0 then startAt tokens size (p / 2) else stopAt tokens size (p / 2)

theorem byteAt_start (tokens : List Token) (size k : Nat) :
    byteAt tokens size (2 * k + 1) = startAt tokens size k := by
  have even : 2 * k % 2 = 0 := by omega
  have half : 2 * k / 2 = k := by omega
  rw [byteAt, if_pos even, half]

theorem byteAt_stop (tokens : List Token) (size k : Nat) :
    byteAt tokens size (2 * k + 2) = stopAt tokens size k := by
  have odd : (2 * k + 1) % 2 ≠ 0 := by omega
  have half : (2 * k + 1) / 2 = k := by omega
  rw [byteAt, if_neg odd, half]

theorem places_startAt (tokens : List Token) (size k : Nat) :
    (places tokens size)[min k tokens.length]? = some (startAt tokens size k) := by
  unfold places startAt
  rcases Nat.lt_or_ge k tokens.length with inside | past
  · rw [Nat.min_eq_left (Nat.le_of_lt inside), List.getElem?_append_left (by simpa using inside),
      List.getElem?_map, List.getElem?_eq_getElem inside]
    rfl
  · rw [Nat.min_eq_right past, List.getElem?_append_right (by simp), List.getElem?_eq_none past]
    simp

namespace Placed

variable {tokens : List Token} {size : Nat} (placed : Placed tokens size)

include placed

theorem start_lt {t : Token} (ht : t ∈ tokens) : t.range.start < size :=
  Nat.lt_of_lt_of_le (placed.nonempty t ht) (placed.inside t ht)

theorem startAt_le_stopAt (k : Nat) : startAt tokens size k ≤ stopAt tokens size k := by
  unfold startAt stopAt
  cases here : tokens[k]? with
  | none => exact Nat.le_refl size
  | some t => exact Nat.le_of_lt (placed.nonempty t (List.mem_of_getElem? here))

theorem stopAt_le_startAt {j k : Nat} (less : j < k) : stopAt tokens size j ≤ startAt tokens size k := by
  unfold startAt stopAt
  cases later : tokens[k]? with
  | none =>
    cases here : tokens[j]? with
    | none => exact Nat.le_refl size
    | some t => exact placed.inside t (List.mem_of_getElem? here)
  | some u =>
    obtain ⟨hk, rfl⟩ := List.getElem?_eq_some_iff.mp later
    rw [List.getElem?_eq_getElem (by omega : j < tokens.length)]
    exact List.pairwise_iff_getElem.mp placed.order j k _ hk less

/-- The places of a text stand in the order of their numbers. -/
theorem startAt_lt {j k : Nat} (less : j < k) (inside : j < tokens.length) :
    startAt tokens size j < startAt tokens size k := by
  refine Nat.lt_of_lt_of_le ?_ (placed.stopAt_le_startAt less)
  unfold startAt stopAt
  rw [List.getElem?_eq_getElem inside]
  exact placed.nonempty _ (List.getElem_mem inside)

theorem startAt_le_iff (j k : Nat) : startAt tokens size j ≤ startAt tokens size k ↔
    j ≤ k ∨ tokens.length ≤ k := by
  constructor
  · intro order
    by_contra other
    have := placed.startAt_lt (show k < j by omega) (by omega)
    omega
  · rintro (order | past)
    · rcases Nat.eq_or_lt_of_le order with rfl | less
      · exact Nat.le_refl _
      · exact Nat.le_trans (placed.startAt_le_stopAt j) (placed.stopAt_le_startAt less)
    · rw [show startAt tokens size k = size by rw [startAt, List.getElem?_eq_none past]; rfl]
      unfold startAt
      cases here : tokens[j]? with
      | none => exact Nat.le_refl size
      | some t => exact Nat.le_of_lt (placed.start_lt (List.mem_of_getElem? here))

theorem startAt_le_size (k : Nat) : startAt tokens size k ≤ size := by
  have past := (placed.startAt_le_iff k tokens.length).mpr (.inr (Nat.le_refl _))
  rwa [show startAt tokens size tokens.length = size by
    rw [startAt, List.getElem?_eq_none (Nat.le_refl _)]; rfl] at past

theorem compare_startAt {j k : Nat} (hj : j < tokens.length) (hk : k < tokens.length) :
    compare (startAt tokens size j) (startAt tokens size k) = compare j k := by
  rcases Nat.lt_trichotomy j k with less | rfl | more
  · rw [Nat.compare_eq_lt.mpr less, Nat.compare_eq_lt.mpr (placed.startAt_lt less hj)]
  · rw [Nat.compare_eq_eq.mpr rfl, Nat.compare_eq_eq.mpr rfl]
  · rw [Nat.compare_eq_gt.mpr more, Nat.compare_eq_gt.mpr (placed.startAt_lt more hk)]

theorem apart {j k : Nat} {t u : Token} (first : tokens[j]? = some t) (second : tokens[k]? = some u)
    (different : j ≠ k) : t.range.stop ≤ u.range.start ∨ u.range.stop ≤ t.range.start := by
  obtain ⟨hj, rfl⟩ := List.getElem?_eq_some_iff.mp first
  obtain ⟨hk, rfl⟩ := List.getElem?_eq_some_iff.mp second
  have order := List.pairwise_iff_getElem.mp placed.order
  rcases Nat.lt_or_gt_of_ne different with less | more
  · exact .inl (order j k hj hk less)
  · exact .inr (order k j hk hj more)

theorem byteAt_mono : Monotone (byteAt tokens size) := by
  apply monotone_nat_of_le_succ
  intro p
  rcases p with _ | p
  · exact Nat.zero_le _
  · obtain ⟨k, rfl | rfl⟩ : ∃ k, p = 2 * k ∨ p = 2 * k + 1 := ⟨p / 2, by omega⟩
    · rw [byteAt_start, byteAt_stop]
      exact placed.startAt_le_stopAt k
    · rw [byteAt_stop, show 2 * k + 1 + 1 + 1 = 2 * (k + 1) + 1 by omega, byteAt_start]
      exact placed.stopAt_le_startAt (Nat.lt_succ_self k)

/-- The text as a printing of its outline. -/
def printing : Printing where
  layout := {
    offset := byteAt tokens size
    start := fun p => startAt tokens size ((p - 1) / 2)
    doc := fun c => c.bind fun c => tokens[c.range.start]?.bind Token.doc
    mono := fun _ _ order => placed.byteAt_mono order
    origin := rfl
    undocumented := rfl }
  begins p := p % 2 = 1
  exact p odd := by
    obtain ⟨k, rfl⟩ : ∃ k, p = 2 * k + 1 := ⟨p / 2, by omega⟩
    change startAt tokens size ((2 * k + 1 - 1) / 2) = byteAt tokens size (2 * k + 1)
    rw [byteAt_start, show (2 * k + 1 - 1) / 2 = k by omega]

theorem span_numbered {k : Nat} {t : Token} (here : tokens[k]? = some t) :
    placed.printing.layout.span (t.numbered k (closesTwice (tokens.drop k))).range = t.range := by
  obtain ⟨hk, rfl⟩ := List.getElem?_eq_some_iff.mp here
  have start : byteAt tokens size (2 * k + 1) = tokens[k].range.start := by
    rw [byteAt_start, startAt, here]
    rfl
  have stop : byteAt tokens size (if closesTwice (tokens.drop k) then 2 * k + 3 else 2 * k + 2) =
      tokens[k].range.stop := by
    split
    · rename_i joined
      rw [List.drop_eq_getElem_cons hk] at joined
      cases later : tokens.drop (k + 1) with
      | nil =>
        rw [later] at joined
        cases joined
      | cons u rest =>
        rw [later] at joined
        have next : tokens[k + 1]? = some u := by
          rw [← List.head?_drop, later]
          rfl
        have touching : tokens[k].range.stop = u.range.start := eq_of_beq (Bool.and_eq_true_iff.mp joined).2
        rw [show 2 * k + 3 = 2 * (k + 1) + 1 by omega, byteAt_start, startAt, next, touching]
        rfl
    · rw [byteAt_stop, stopAt, here]
      rfl
  exact Span.mk.injEq .. |>.mpr ⟨start, stop⟩

theorem token_numbered {k : Nat} {t : Token} (here : tokens[k]? = some t) :
    placed.printing.token (t.numbered k (closesTwice (tokens.drop k))) = t := by
  have doc : placed.printing.layout.doc (some ⟨"", ⟨k, k⟩⟩) = t.doc := by
    change tokens[k]?.bind Token.doc = t.doc
    rw [here]
    rfl
  rw [Printing.token, span_numbered placed here]
  change Token.mk _ _ _ (placed.printing.layout.doc (some ⟨"", ⟨k, k⟩⟩)) = t
  rw [doc]
  rfl

/-- The outline printed is the tokens. -/
theorem print_outline : (outline tokens).map placed.printing.token = tokens := by
  apply List.ext_getElem?
  intro k
  rw [List.getElem?_map, outline_getElem?]
  cases here : tokens[k]? with
  | none => rfl
  | some t => exact congrArg some (placed.token_numbered here)

theorem print_size : placed.printing.layout.offset (2 * tokens.length + 1) = size := by
  change byteAt tokens size (2 * tokens.length + 1) = size
  rw [byteAt_start, startAt, List.getElem?_eq_none (Nat.le_refl _)]
  rfl

theorem fits : placed.printing.Fits ⟨outline tokens, 0, 2 * tokens.length + 1⟩ where
  begin a ha := by
    obtain ⟨k, t, -, rfl⟩ := mem_outline ha
    exact Nat.mul_add_mod 2 k 1
  size := Nat.mul_add_mod 2 _ 1
  closing before a b after split first second := by
    change outline tokens = _ at split
    have there : (outline tokens)[before.length]? = some a := by
      rw [split, List.getElem?_append_right (Nat.le_refl _), Nat.sub_self]
      rfl
    have next : (outline tokens)[before.length + 1]? = some b := by
      rw [split, List.getElem?_append_right (Nat.le_add_right ..), Nat.add_sub_cancel_left]
      rfl
    generalize before.length = k at there next
    rw [outline_getElem?, Option.map_eq_some_iff] at there next
    obtain ⟨t, here, rfl⟩ := there
    obtain ⟨u, here', rfl⟩ := next
    have stop : placed.printing.layout.offset (t.numbered k (closesTwice (tokens.drop k))).range.stop =
        t.range.stop := congrArg Span.stop (placed.span_numbered here)
    have start : placed.printing.layout.offset
        (u.numbered (k + 1) (closesTwice (tokens.drop (k + 1)))).range.start = u.range.start :=
      congrArg Span.start (placed.span_numbered here')
    have joined : closesTwice (tokens.drop k) = (t.range.stop == u.range.start) := by
      obtain ⟨hk, rfl⟩ := List.getElem?_eq_some_iff.mp here
      obtain ⟨hk', rfl⟩ := List.getElem?_eq_some_iff.mp here'
      rw [List.drop_eq_getElem_cons hk, List.drop_eq_getElem_cons hk', closesTwice]
      rw [show tokens[k].spells ">" = true from first, show tokens[k + 1].spells ">" = true from second]
      rfl
    -- in the outline the two touch if and only if the first is joined to the second
    rw [stop, start, joined]
    simp only [numbered]
    split
    · rename_i touching
      exact iff_of_true (eq_of_beq touching) (by omega)
    · rename_i apart
      exact iff_of_false (fun touching => apart (beq_iff_eq.mpr touching)) (by omega)

/-- The tokens are read as their outline is. -/
theorem parseTokens_outline : parseTokens tokens size =
      ((parseTokens (outline tokens) (2 * tokens.length + 1)).map placed.printing.layout.unit).mapError
        placed.printing.error ∧
    ∀ e, parseTokens (outline tokens) (2 * tokens.length + 1) = .error e → e.range.start % 2 = 1 := by
  have read := parseTokens_printed placed.printing (outline tokens) _ placed.fits
  rwa [placed.print_outline, placed.print_size] at read

/-- A word of the outline is printed as the token of its number. -/
theorem mark_word {i : Ident} (word : i ∈ words (outline tokens)) : ∃ (k : Nat) (t : Token),
    tokens[k]? = some t ∧ i = ⟨t.text, (t.numbered k (closesTwice (tokens.drop k))).range⟩ ∧
      placed.printing.layout.mark i.range = t.range := by
  obtain ⟨a, ha, rfl, -⟩ := mem_words word
  obtain ⟨k, t, here, rfl⟩ := mem_outline ha
  exact ⟨k, t, here, rfl, (Printing.mark_eq (Nat.mul_add_mod 2 k 1)).trans (placed.span_numbered here)⟩

end Placed
end Token

theorem tokenize_placed {source : String} {tokens : List Token} (read : tokenize source = .ok tokens) :
    Token.Placed tokens source.utf8ByteSize where
  nonempty t ht := by
    obtain ⟨pre, letters, post, -, some, -, range, -⟩ := (tokenize_spread read).spelled ht
    have := Span.bytesOf_pos some
    rw [range]
    simp only
    omega
  inside t ht := by
    obtain ⟨pre, letters, post, split, -, -, range, -⟩ := (tokenize_spread read).spelled ht
    rw [range, ← Span.bytesOf_toList, split, Span.bytesOf_append, Span.bytesOf_append]
    simp only
    omega
  order := tokenize_pairwise read

end JavaIndex
