import JavaIndex.Proofs.Parser.Reading
import JavaIndex.Proofs.Parser.Source
import JavaIndex.Proofs.Parser.WellFormed.Unit
import JavaIndex.Proofs.Tree.BareTypes

/-! A type that a program writes is read back from its text. Lost are where it stands and its annotations, and an
array of arrays comes back as one array with all the dimensions. -/
namespace JavaIndex

namespace Grammar

open JavaIndex.Parser

/-! Where a type ends that is an argument or stands alone, where its element ends, and where a segment does. -/

abbrev endType : List Token.Word → Prop := Ends [",", ">"]
abbrev endElement : List Token.Word → Prop := Ends [",", ">", "["]
abbrev endSegment : List Token.Word → Prop := Ends [",", ">", "[", "."]

theorem emptyBrackets_takes (n : Nat) : Takes emptyBrackets (bracketWords n) endType (· = n) := by
  have pairs : bracketWords n = (List.replicate n ()).flatMap fun _ => [(.sign, "["), (.sign, "]")] := by
    induction n with
    | zero => rfl
    | succ n ih => rw [bracketWords, ih, List.replicate_succ, List.flatMap_cons]; rfl
  have loop : Takes (manyWhile (fun c => c.spellsAt 0 "[" && c.spellsAt 1 "]") (do discard bump; discard bump))
      (bracketWords n) endType fun ys => ys.map (fun _ => ()) = (List.replicate n ()).map fun _ => () := by
    rw [pairs]
    refine .manyWhile (by simp) (fun _ _ => ?_) ?_ ?_ (fun _ _ _ => trivial) fun _ _ => trivial
    · exact .step (.discard .bump) fun _ _ => (Takes.discard .bump).imp fun _ _ => rfl
    · intro _ _ c more shows
      rw [shows.spellsAt, shows.spellsAt]
      rfl
    · intro c more after shows
      rw [shows.spellsAt, after.not_spells (by decide), Bool.false_and]
  exact loop.finish fun ys same => .pure (by simpa using congrArg List.length same)

variable {t : TypeRef}

theorem arrayOf_takes {base : TypeRef} (same : base.unplaced = t.element.bare) :
    Takes (arrayOf base) (bracketWords t.dimensions) endType fun t' => t'.unplaced = t.bare := by
  refine (emptyBrackets_takes t.dimensions).finish ?_
  rintro _ rfl
  rw [WrittenType.bare_eq t]
  by_cases none : t.dimensions = 0
  · rw [if_pos none, none]
    exact .pure same
  · rw [if_neg none]
    refine .look fun c more _ shows => .pure ?_
    rw [WrittenType.unplaced, same, WrittenType.withDims, if_neg none, t.range_element_bare]

variable {names : String → Prop} {g : Grammar} {n : Nat}

theorem annotations_takes : Takes g.annotations [] (fun ws => (ws[0]?).any (·.spells "@") = false) (· = []) :=
  .manyWhile_none fun c more after shows => by
    rw [atAnnotationSign, shows.spellsAt, after, Bool.false_and]

theorem typeRef_takes (writable : t.Writable names)
    (plain : Takes (g.plainType []) t.element.words endElement fun b => b.unplaced = t.element.bare) :
    Takes g.typeRef t.words endType fun t' => t'.unplaced = t.bare := by
  obtain ⟨w, ws, first, other⟩ := writable.starts
  refine .skip annotations_takes (fun more _ => ?_) ?_
  · simpa [first] using other "@" (by decide)
  · rintro _ rfl
    rw [t.words_eq]
    refine plain.bind (fun more after => ?_) fun base same => arrayOf_takes same
    cases t.dimensions with
    | zero => exact after.mono (by decide)
    | succ dims => exact ends_cons (by decide) _

theorem typeArg_takes {a : TypeArg Annotation} (writable : ∀ t ∈ a.type?, t.Writable names)
    (each : ∀ t ∈ a.type?, Takes g.type t.words endType fun t' => t'.unplaced = t.bare) :
    Takes g.typeArg a.words endType fun a' => a'.unplaced = a.bare := by
  cases a with
  | type t =>
    obtain ⟨w, ws, first, other⟩ := (writable t rfl).starts
    refine .look fun c more _ shows => ?_
    rw [shows.spellsAt, TypeArg.words, first]
    rw [if_neg (by simpa using other "?" (by decide)), ← first]
    exact (each t rfl).finish fun t' same => .pure (congrArg TypeArg.type same)
  | wildcard range =>
    refine .look fun c more _ shows => ?_
    rw [shows.spellsAt, if_pos (by rfl)]
    refine .look fun c more _ shows => .step (.discard .bump) fun _ _ => ?_
    refine .notEaten (fun more after => after.not_spells (by decide)) ?_
    refine .notEaten (fun more after => after.not_spells (by decide)) ?_
    exact .look fun c more _ shows => .pure (by rfl)
  | bounded bound t range =>
    refine .look fun c more _ shows => ?_
    rw [shows.spellsAt, if_pos (by rfl)]
    refine .look fun c more _ shows => .step (.discard .bump) fun _ _ => ?_
    have rest (start : Nat) : Takes (do
        let type ← g.type
        return (TypeArg.bounded bound type (← since start) : TypeArg Annotation)) t.words endType fun a' =>
          a'.unplaced = (TypeArg.bounded bound t range).bare :=
      (each t rfl).finish fun t' same => .look fun c more _ shows => .pure (by rw [TypeArg.unplaced, TypeArg.bare, same])
    cases bound with
    | upper => exact .eaten rfl (rest _)
    | lower => exact .notEaten (fun _ _ => rfl) (.eaten rfl (rest _))

/-- An argument does not begin like the end of a list. -/
theorem typeArg_opens {a : TypeArg Annotation} (writable : ∀ t ∈ a.type?, t.Writable names) (more : List Token.Word) :
    ((a.words ++ more)[0]?).any (·.spells ">") = false := by
  cases a with
  | type t =>
    obtain ⟨w, ws, first, other⟩ := (writable t rfl).starts
    rw [TypeArg.words, first]
    exact other ">" (by decide)
  | wildcard range => rfl
  | bounded bound t range => rfl

theorem typeArgs_takes {args : List (TypeArg Annotation)} {follow : List Token.Word → Prop}
    (writable : ∀ a ∈ args, ∀ t ∈ a.type?, t.Writable names)
    (each : ∀ a ∈ args, ∀ t ∈ a.type?, Takes g.type t.words endType fun t' => t'.unplaced = t.bare) :
    Takes g.typeArgs (TypeArg.listWords (some args)) follow fun as => as.map TypeArg.unplaced = args.map TypeArg.bare := by
  cases args with
  | nil =>
    rw [TypeArg.listWords, TypeArg.rows]
    exact .step (.expect rfl) fun _ _ => .eaten rfl (.pure rfl)
  | cons a args =>
    have list : Takes (sepBy "," g.typeArg) (a.words ++ args.flatMap fun a => (.sign, ",") :: a.words) (Ends [">"])
        fun as => as.map TypeArg.unplaced = (a :: args).map TypeArg.bare :=
      .sepBy (fun b hb => typeArg_takes (writable b hb) (each b hb)) (fun more after => after.not_spells (by decide))
        (ends_cons (by decide)) fun more after => after.mono (by decide)
    rw [TypeArg.listWords_some, ← List.append_assoc]
    refine .step (.expect rfl) fun _ _ => .notEaten (fun more _ => ?_) ?_
    · rw [List.append_assoc, List.append_assoc]
      exact typeArg_opens (writable a List.mem_cons_self) _
    · exact list.bind (fun more _ => ends_cons (by decide) more) fun as same => .step (.expect rfl) fun _ _ => .pure same

theorem typeSegment_takes {s : TypeSegment Annotation}
    (writable : ∀ args ∈ s.args, ∀ a ∈ args, ∀ t ∈ a.type?, t.Writable names)
    (each : ∀ args ∈ s.args, ∀ a ∈ args, ∀ t ∈ a.type?, Takes g.type t.words endType fun t' => t'.unplaced = t.bare) :
    Takes (g.typeSegment []) s.words endSegment fun s' => s'.unplaced = s.bare := by
  obtain ⟨annotations, name, args⟩ := s
  refine .step .ident fun name' named => .look fun c more after shows => ?_
  rw [shows.spellsAt]
  cases args with
  | none =>
    rw [TypeArg.listWords, List.nil_append, after.not_spells (by decide), if_neg Bool.false_ne_true, pure_bind]
    exact .pure (by rw [TypeSegment.unplaced, TypeSegment.bare, named]; rfl)
  | some args =>
    rw [if_pos (by rfl)]
    have found : Takes (some <$> g.typeArgs) (TypeArg.listWords (some args)) endSegment
        fun r => TypeArg.listUnplaced r = TypeArg.listBare (some args) :=
      .map ((typeArgs_takes (writable args rfl) (each args rfl)).imp fun as same => by
        rw [TypeArg.listUnplaced, TypeArg.listBare, TypeArg.allUnplaced_eq, TypeArg.allBare_eq, same])
    exact found.finish fun args' same => .pure (by rw [TypeSegment.unplaced, TypeSegment.bare, named, same])

theorem named_takes {s : TypeSegment Annotation} {ss : List (TypeSegment Annotation)} (range : Span)
    (segment : ∀ s' ∈ s :: ss, Takes (g.typeSegment []) s'.words endSegment fun s'' => s''.unplaced = s'.bare) :
    Takes (g.plainType []) (WrittenType.named (s :: ss) range).words endElement fun b =>
      b.unplaced = (WrittenType.named (s :: ss) range).bare := by
  obtain ⟨first, others⟩ := List.forall_mem_cons.mp segment
  have dotted : ∀ s' ∈ ss, Takes (do discard bump; g.typeSegment []) ((.sign, ".") :: s'.words) endSegment
      fun s'' => s''.unplaced = s'.bare := fun s' hs => .step (.discard .bump) fun _ _ => others s' hs
  have rest : Takes (manyWhile (fun c => c.spellsAt 0 "." && c.identifierAt 1) (do discard bump; g.typeSegment []))
      (ss.flatMap fun s => (.sign, ".") :: s.words) endElement fun ss' =>
        ss'.map TypeSegment.unplaced = ss.map TypeSegment.bare := by
    refine .manyWhile (by simp) dotted (fun s' _ c more shows => ?_) (fun c more after shows => ?_)
      (fun _ _ _ => ends_cons (by decide) _) fun _ after => after.mono (by decide)
    · rw [shows.spellsAt, shows.identifierAt]
      rfl
    · rw [shows.spellsAt, after.not_spells (by decide), Bool.false_and]
  rw [WrittenType.named_words]
  refine .look fun c more _ shows => ?_
  rw [if_neg (by rw [shows.primitiveAt, shows.spellsAt]; exact Bool.false_ne_true)]
  refine .look fun c more _ shows => ?_
  rw [if_pos (by rw [shows.identifierAt]; rfl)]
  refine .look fun c more _ shows => first.bind (fun more after => ?_) fun s' same => ?_
  · exact Takes.follow_flatMap (fun _ _ _ => ends_cons (by decide) _) (after.mono (by decide))
  · refine rest.finish fun ss' sames => .look fun c more _ shows => .pure ?_
    rw [WrittenType.unplaced, WrittenType.bare, TypeSegment.allUnplaced_eq, TypeSegment.allBare_eq, List.map_cons,
      List.map_cons, same, sames]

theorem plainType_takes {names : String → Prop} {t : TypeRef} (writable : t.Writable names) (n : Nat)
    (enough : t.words.length ≤ n) :
    Takes ((level n).plainType []) t.element.words endElement fun b => b.unplaced = t.element.bare := by
  induction writable generalizing n with
  | @primitive keyword range listed =>
    rw [WrittenType.element_primitive, WrittenType.words]
    refine .look fun c more _ shows => ?_
    have here : (c.primitiveAt 0 || c.spellsAt 0 "void") = true := by
      rw [shows.primitiveAt, shows.spellsAt]
      simpa [Token.Word.spells] using listed
    rw [if_pos here]
    refine .look fun c more _ shows => .step .bump fun place _ => .pure ?_
    rw [shows.text]
    rfl
  | @named ss range some named inner ih =>
    obtain ⟨s, ss, rfl⟩ := List.exists_cons_of_ne_nil some
    obtain ⟨m, rfl⟩ : ∃ m, n = m + 1 := by
      rw [WrittenType.named_words, List.length_append, TypeSegment.words, List.length_cons] at enough
      exact Nat.exists_eq_add_of_le' (by omega)
    have each : ∀ s' ∈ s :: ss, ∀ args ∈ s'.args, ∀ a ∈ args, ∀ t ∈ a.type?,
        Takes (level (m + 1)).type t.words endType fun t' => t'.unplaced = t.bare := by
      intro s' hs args given a ha t inside
      have := WrittenType.length_le hs range
      have := TypeSegment.length_lt given ha
      have := TypeArg.length_le inside
      exact typeRef_takes (inner s' hs args given a ha t inside) (ih s' hs args given a ha t inside m (by omega))
    exact named_takes range fun s' hs => typeSegment_takes (inner s' hs) (each s' hs)
  | @array element dims range positive inner ih =>
    rw [WrittenType.words, List.length_append] at enough
    exact ih n (by omega)

end Grammar

/-- The tokens are read as a type with none left over, and the type is this one but for places, annotations and the
way in which dimensions are nested. -/
def Grammar.ReadsBack (g : Grammar) (t : TypeRef) (tokens : List Token) : Prop :=
  ∃ t' c, g.typeRef ⟨tokens, 0, t.text.utf8ByteSize⟩ = .ok (t', c) ∧ c.rest = [] ∧ t'.unplaced = t.bare ∧
    t'.dimensions = t.dimensions ∧ t'.element.unplaced = t.element.bare

/-- Every type of a program is read back from its text. -/
theorem parse_types_read_back {source : String} {u : CompilationUnit} (parsed : parse source = .ok u) {t : TypeRef}
    (inside : .type t ∈ Subtrees.unit u) : ∃ tokens, tokenize t.text = .ok tokens ∧
      ∀ n, tokens.length ≤ n → (Grammar.level n).ReadsBack t tokens := by
  obtain ⟨tokens, read, built⟩ := parse_tokens parsed
  have writable : t.Writable Lexer.IsName := parseTokens_wellFormed (tokenize_names read) built _ inside
  obtain ⟨tokens, read, words⟩ := tokenize_reads writable.legible.2
  refine ⟨tokens, read, fun n enough => ?_⟩
  have shows : Cursor.Shows ⟨tokens, 0, t.text.utf8ByteSize⟩ (t.words ++ []) := by rwa [List.append_nil]
  have length : t.words.length ≤ n := by rwa [← words, List.length_map]
  obtain ⟨t', c, run, rest, same⟩ :=
    Grammar.typeRef_takes writable (Grammar.plainType_takes writable n length) _ [] nofun shows
  refine ⟨t', c, run, List.map_eq_nil_iff.mp rest, same, ?_, ?_⟩
  · rw [← t'.dimensions_unplaced, same, t.dimensions_bare]
  · rw [← t'.element_unplaced, same, t.element_bare]

/-- Closing brackets stand side by side in the text. -/
theorem parse_types_read_back_nested :
    let source := "class C extends a.L<M<? super @B K[]>>[] \x7b\x7d"
    ∃ u t tokens, parse source = .ok u ∧ .type t ∈ Subtrees.unit u ∧ t.text = "a.L<M<? super K[]>>[]" ∧
      tokenize t.text = .ok tokens ∧ ∀ n, tokens.length ≤ n → (Grammar.level n).ReadsBack t tokens := by
  intro source
  have found : (do
      let u ← (parse source).toOption
      let d ← u.types.head?
      return (← d.extending.head?).text) = some "a.L<M<? super K[]>>[]" := by
    decide +kernel
  obtain ⟨u, tree, found⟩ := Option.bind_eq_some_iff.mp found
  obtain ⟨d, first, found⟩ := Option.bind_eq_some_iff.mp found
  obtain ⟨t, head, text⟩ := Option.bind_eq_some_iff.mp found
  have parsed : parse source = .ok u :=
    (parse_eq_ok (Option.isSome_of_mem tree)).trans (congrArg _ (Option.get_of_mem _ tree))
  have inside : .type t ∈ Subtrees.unit u := by
    have self : .type t ∈ Subtrees.typeRef t := by cases t <;> simp
    refine List.mem_append_right _ (List.mem_flatMap.mpr ⟨d, List.mem_of_mem_head? first, ?_⟩)
    obtain ⟨_, _, _, _, _, _, _, _, _, _, _, _⟩ := d
    simp only [Subtrees.typeDecl, Subtrees.typeRefs_eq, List.mem_append, List.mem_flatMap]
    exact .inr (.inr (.inr (.inl ⟨t, List.mem_of_mem_head? head, self⟩)))
  obtain ⟨tokens, read, back⟩ := parse_types_read_back parsed inside
  exact ⟨u, t, tokens, parsed, inside, Option.some.inj text, read, back⟩

end JavaIndex
