import JavaIndex.Parser.Types
import JavaIndex.Proofs.Parser.WellFormed.Rules

/-! Types are read so that they can be written: each has a name or a keyword, and an array has a dimension. -/
namespace JavaIndex

/-- What is taken for the keyword of a type is one. -/
theorem Cursor.keyword_of_primitiveAt {c : Cursor} (here : (c.primitiveAt 0 || c.spellsAt 0 "void") = true) :
    ((c.ahead? 0).map Token.text).getD "" ∈ Token.primitives ∨ ((c.ahead? 0).map Token.text).getD "" = "void" := by
  unfold primitiveAt spellsAt at here
  cases ahead : c.ahead? 0 with
  | none => simp [ahead] at here
  | some t =>
    rcases Bool.or_eq_true_iff.mp here with primitive | void
    · have listed : t.isPrimitive = true := by simpa [ahead] using primitive
      exact .inl (by simpa [Token.isPrimitive] using (Bool.and_eq_true_iff.mp listed).2)
    · have spelled : t.spells "void" = true := by simpa [ahead] using void
      exact .inr (Token.kind_of_spells spelled).2

namespace Grammar

open JavaIndex.Parser Subtree

/-- The rules one level down answer with what is well formed. -/
structure Forming (names : String → Prop) (g : Grammar) : Prop where
  type : Gives names g.type fun t => All names (Subtrees.typeRef t)
  elementValue : Gives names g.elementValue fun e => All names (Subtrees.expr e)
  variableInit : Gives names g.variableInit fun e => All names (Subtrees.expr e)
  expr : Gives names g.expr fun e => All names (Subtrees.expr e)
  ternary : Gives names g.ternary fun e => All names (Subtrees.expr e)
  binary : ∀ least, Gives names (g.binary least) fun e => All names (Subtrees.expr e)
  climbed : ∀ least c e c', c.Named names → g.binary least c = .ok (e, c') → Climbed least e c'
  unary : Gives names g.unary fun e => All names (Subtrees.expr e)
  statement : Gives names g.statement fun s => All names (Subtrees.stmt s)
  member : ∀ name isRecord, Gives names (g.member name isRecord) fun m => All names (Subtrees.member m)
  classBody : Gives names g.classBody fun ms => ∀ m ∈ ms, All names (Subtrees.member m)

variable {names : String → Prop} {g : Grammar}

theorem qualifiedName_gives : Gives names qualifiedName fun _ => True := by
  refine .skip ident_gives fun first => .skip (.manyWhile (w := fun _ => True) _ ?_) fun rest => gives_pure trivial
  exact .skip pass_gives fun _ => ident_gives.imp fun _ _ => trivial

theorem annotationArg_gives (forming : g.Forming names) :
    Gives names g.annotationArg fun a => All names (Subtrees.annotationArg a) := by
  refine .skip (look_gives _) fun named => .cond ?_ ?_
  · refine .skip ident_gives fun name => .skip pass_gives fun _ => .bind forming.elementValue fun value held => ?_
    exact gives_pure (by simpa only [Subtrees.annotationArg])
  · exact .bind forming.elementValue fun value held => gives_pure (by simpa only [Subtrees.annotationArg])

theorem annotationHere_gives (forming : g.Forming names) :
    Gives names g.annotationHere fun a => All names (Subtrees.annotation a) := by
  refine .skip (look_gives _) fun start => .skip (expect_gives _) fun _ => ?_
  refine .skip qualifiedName_gives fun name => .skip (sees_gives _) fun given => ?_
  refine .either (.parens (annotationArg_gives forming)) (gives_pure nofun) fun args held => ?_
  exact gives_since fun range => by simpa using held

theorem annotations_gives (forming : g.Forming names) :
    Gives names g.annotations fun as => ∀ a ∈ as, All names (Subtrees.annotation a) :=
  .manyWhile _ (annotationHere_gives forming)

theorem typeArg_gives (forming : g.Forming names) :
    Gives names g.typeArg fun a => All names (Subtrees.typeArg a) := by
  refine .skip (sees_gives _) fun wild => .cond ?_ ?_
  · refine .skip (look_gives _) fun start => .skip pass_gives fun _ => .skip (eat_gives _) fun upper => ?_
    refine .cond ?_ (.skip (eat_gives _) fun lower => .cond ?_ ?_)
    · refine .bind forming.type fun type held => gives_since fun range => ?_
      simpa using held
    · refine .bind forming.type fun type held => gives_since fun range => ?_
      simpa using held
    · exact gives_since (by simp)
  · exact .bind forming.type fun type held => gives_pure (by simpa using held)

theorem typeArgs_gives (forming : g.Forming names) :
    Gives names g.typeArgs fun as => ∀ a ∈ as, All names (Subtrees.typeArg a) := by
  refine .skip (expect_gives _) fun _ => .skip (eat_gives _) fun empty => .cond (gives_pure nofun) ?_
  exact .bind (.sepBy _ (typeArg_gives forming)) fun args held => .skip (expect_gives _) fun _ => gives_pure held

/-- A name of a dotted type is a name, and its arguments are well formed. -/
abbrev SegmentFormed (names : String → Prop) (s : TypeSegment Annotation) : Prop :=
  names s.name.text ∧ All names (Subtrees.segment s)

theorem SegmentFormed.writable {s : TypeSegment Annotation} (formed : SegmentFormed names s) :
    ∀ args ∈ s.args, ∀ a ∈ args, ∀ t ∈ a.type?, t.Writable names := by
  intro args given a mem t inside
  have all : All names (Subtrees.typeArg a) := by
    obtain ⟨annotations, name, given'⟩ := s
    have parts := formed.2
    rw [Subtrees.segment, Subtrees.typeArgs?_eq, all_append, all_elim] at parts
    exact (all_flatMap ..).mp (parts.2 args given) a mem
  cases a <;> cases inside <;> exact All.writable (by simpa using all)

theorem typeSegment_gives (forming : g.Forming names) {as : List Annotation}
    (formed : ∀ a ∈ as, All names (Subtrees.annotation a)) :
    Gives names (g.typeSegment as) (SegmentFormed names) := by
  refine .bind ident_gives fun name named => .skip (sees_gives _) fun given => ?_
  refine .either (.found (typeArgs_gives forming)) (gives_pure (by simp)) fun args held => gives_pure ⟨named, ?_⟩
  cases args with
  | none => simpa using formed
  | some args => simpa using ⟨formed, held args rfl⟩

theorem plainType_gives (forming : g.Forming names) {as : List Annotation}
    (formed : ∀ a ∈ as, All names (Subtrees.annotation a)) :
    Gives names (g.plainType as) fun t => All names (Subtrees.typeRef t) where
  answers c t c' named run := by
    unfold plainType at run
    obtain ⟨primitive, c₁, seen, run⟩ := bind_ok run
    obtain ⟨rfl, rfl⟩ := look_ok seen
    split at run
    · rename_i here
      obtain ⟨keyword, c₁, seen, run⟩ := bind_ok run
      obtain ⟨rfl, rfl⟩ := look_ok seen
      cases run
      have writable : (WrittenType.primitive _ c.range : TypeRef).Writable names :=
        .primitive (Cursor.keyword_of_primitiveAt here)
      exact ⟨by simpa using writable, named.past 1⟩
    · refine Gives.answers (w := fun t => All names (Subtrees.typeRef t)) ?_ c t c' named run
      refine .skip (look_gives _) fun word => .cond ?_ (fail_gives _)
      refine .skip (look_gives _) fun start => .bind (typeSegment_gives forming formed) fun first held => ?_
      have more : Gives names (do discard bump; g.typeSegment []) (SegmentFormed names) :=
        .skip pass_gives fun _ => typeSegment_gives forming nofun
      refine .bind (.manyWhile _ more) fun rest held' => gives_since fun range => ?_
      have all : ∀ s ∈ first :: rest, SegmentFormed names s := List.forall_mem_cons.mpr ⟨held, held'⟩
      rw [Subtrees.typeRef, all_cons, Subtrees.segments_eq, all_flatMap]
      exact ⟨.named (by simp) (fun s hs => (all s hs).1) fun s hs => (all s hs).writable, fun s hs => (all s hs).2⟩

theorem arrayOf_gives {base : TypeRef} (formed : All names (Subtrees.typeRef base)) :
    Gives names (arrayOf base) fun t => All names (Subtrees.typeRef t) := by
  refine .skip emptyBrackets_gives fun dims => ?_
  by_cases none : dims = 0
  · rw [if_pos none]
    exact gives_pure formed
  · rw [if_neg none]
    exact gives_since (all_array (Nat.pos_of_ne_zero none) formed)

theorem typeRef_gives (forming : g.Forming names) :
    Gives names g.typeRef fun t => All names (Subtrees.typeRef t) :=
  .bind (annotations_gives forming) fun _ formed => .bind (plainType_gives forming formed) fun _ => arrayOf_gives

theorem typeList_gives (forming : g.Forming names) :
    Gives names g.typeList fun ts => ∀ t ∈ ts, All names (Subtrees.typeRef t) :=
  .sepBy _ (typeRef_gives forming)

theorem typeParam_gives (forming : g.Forming names) :
    Gives names g.typeParam fun p => All names (Subtrees.typeParam p) := by
  refine .bind (annotations_gives forming) fun as formed => .skip ident_gives fun name => ?_
  refine .skip (eat_gives _) fun bounded => ?_
  refine .either (.sepBy _ (typeRef_gives forming)) (gives_pure nofun) fun bounds held => ?_
  exact gives_pure (by simpa using ⟨formed, held⟩)

theorem typeParams_gives (forming : g.Forming names) :
    Gives names g.typeParams fun ps => ∀ p ∈ ps, All names (Subtrees.typeParam p) :=
  .skip (expect_gives _) fun _ => .bind (.sepBy _ (typeParam_gives forming)) fun _ held =>
    .skip (expect_gives _) fun _ => gives_pure held

theorem optionalTypeParams_gives (forming : g.Forming names) :
    Gives names g.optionalTypeParams fun ps => ∀ p ∈ ps, All names (Subtrees.typeParam p) :=
  .skip (sees_gives _) fun _ => .cond (typeParams_gives forming) (gives_pure nofun)

theorem addModifier_gives (forming : g.Forming names) {m : Modifiers} (formed : All names (Subtrees.modifiers m)) :
    Gives names (g.addModifier m) fun r => ∀ m ∈ r, All names (Subtrees.modifiers m) := by
  rw [Subtrees.modifiers_eq, all_flatMap] at formed
  refine .skip (look_gives _) fun annotated => .cond ?_ ?_
  · refine .bind (annotationHere_gives forming) fun a held => gives_pure ?_
    simpa [or_imp, forall_and] using ⟨formed, held⟩
  refine .skip (look_gives _) fun closed => .cond ?_ ?_
  · exact .skip pass_gives fun _ => gives_pure (by simpa using formed)
  refine .skip (look_gives _) fun opened => .cond ?_ ?_
  · refine .skip pass_gives fun _ => .skip pass_gives fun _ => .skip pass_gives fun _ => ?_
    exact gives_pure (by simpa using formed)
  refine .skip (look_gives _) fun word => ?_
  cases word with
  | none => exact gives_pure nofun
  | some word => exact .skip pass_gives fun _ => gives_pure (by simpa using formed)

theorem modifiers_gives (forming : g.Forming names) :
    Gives names g.modifiers fun m => All names (Subtrees.modifiers m) :=
  .iterate (by simp [Modifiers.none]) fun _ => addModifier_gives forming

end Grammar
end JavaIndex
