import JavaIndex.Parser.Decls
import JavaIndex.Proofs.Parser.Printed.Exprs

/-! Declarations are read in a text as they are read at the tokens. -/
namespace JavaIndex.Grammar

open JavaIndex.Printing (Follows Becomes)

variable {w : Printing} {g : Grammar}

@[simp] theorem typeRef_withDims (type : TypeRef) (dims : Nat) :
    w.layout.typeRef (type.withDims dims) = (w.layout.typeRef type).withDims dims := by
  unfold WrittenType.withDims
  split
  · rfl
  · rw [Layout.typeRef, typeRef_range]

theorem param_printed (printed : g.Printed w) : w.Follows (Becomes w.layout.param) g.param g.param := by
  refine Follows.start.seq ?_
  rintro start _ ⟨rfl, -⟩
  refine (modifiers_printed printed).bind fun mods => (typeRef_printed printed).bind fun type => ?_
  refine (Follows.eat _).same fun varargs => Follows.ident.bind fun name => ?_
  refine Follows.emptyBrackets.same fun dims => (Follows.since start).bind fun range => .pure ?_
  rw [Layout.param, typeRef_withDims]

theorem params_printed (printed : g.Printed w) :
    w.Follows (Becomes (List.map w.layout.param)) g.params g.params :=
  (param_printed printed).parens

theorem declarator_printed (printed : g.Printed w) (name : Ident) :
    w.Follows (Becomes w.layout.declarator) (g.declarator name) (g.declarator (w.layout.ident name)) := by
  refine Follows.emptyBrackets.same fun dims => (Follows.eat _).same fun assigned => ?_
  refine .either (initializer_printed printed).found (.pure rfl) fun init => .pure ?_
  simp [Layout.declarator]

theorem declarators_printed (printed : g.Printed w) :
    w.Follows (Becomes (List.map w.layout.declarator)) g.declarators g.declarators :=
  .sepBy _ (Follows.ident.bind fun name => declarator_printed printed name)

/-- A method in its place, as far as it has been read. -/
def MethodHead.laid (l : Layout) (head : MethodHead) : MethodHead :=
  ⟨l.modifiers head.modifiers, head.typeParams.map l.typeParam, head.returns.map l.typeRef,
    l.ident head.name, l.doc head.doc, l.offset head.start⟩

theorem methodRest_printed (printed : g.Printed w) (head : MethodHead) (params : List Param) (compact : Bool) :
    w.Follows (Becomes w.layout.methodDecl) (g.methodRest head params compact)
      (g.methodRest (head.laid w.layout) (params.map w.layout.param) compact) := by
  refine .past .emptyBrackets ((Follows.eat _).same fun throws => ?_)
  refine .either (typeList_printed printed) (.pure rfl) fun throwing => ?_
  refine (Follows.eat _).same fun defaults => ?_
  refine .either printed.elementValue.found (.pure rfl) fun defaultValue => ?_
  refine (Follows.sees _).same fun braced => ?_
  have bodiless : w.Follows (Becomes (Option.map w.layout.block))
      (do discard (Parser.expectAs ";" "`;` or method body"); pure none)
      (do discard (Parser.expectAs ";" "`;` or method body"); pure none) :=
    .past (.expectAs _ _) (.pure rfl)
  refine .orSteps (block_printed printed).found bodiless fun body => ?_
  refine (Follows.since head.start).bind fun range => .pure ?_
  simp [Layout.methodDecl, MethodHead.laid]

theorem enumConstant_printed (printed : g.Printed w) :
    w.Follows (Becomes w.layout.enumConstant) g.enumConstant g.enumConstant := by
  refine Follows.doc.bind fun doc => (annotations_printed printed).bind fun as => ?_
  refine Follows.ident.bind fun name => (Follows.sees _).same fun given => ?_
  refine .either (args_printed printed).found (.pure rfl) fun args => (Follows.sees _).same fun braced => ?_
  refine .either printed.classBody.found (.pure rfl) fun body => .pure ?_
  simp only [Layout.enumConstant, Layout.annotations_eq, Layout.exprList?_eq, Layout.unnamedBody_eq]

theorem enumConstants_printed (printed : g.Printed w) :
    w.Follows (Becomes (List.map w.layout.enumConstant)) g.enumConstants g.enumConstants := by
  refine .bind (F := Prod.map (List.map w.layout.enumConstant) id) (.iterateOn rfl fun (found, more) => ?_)
    fun (found, more) => .past (.eat _) (.pure (List.map_reverse ..).symm)
  refine (Follows.look fun c => by simp).same fun closed => .cond (.pure rfl) ?_
  exact (enumConstant_printed printed).bind fun k => (Follows.eat _).same fun more => .pure rfl

theorem semicolons_printed : w.Follows (fun _ _ => True) semicolons semicolons :=
  (Follows.bump.manyWhile fun c => by simp).discard

theorem members_printed (printed : g.Printed w) (shape : BodyShape) :
    w.Follows (Becomes (List.map w.layout.member)) (g.members shape) (g.members shape) := by
  refine .many (semicolons_printed.seq fun _ _ _ => (Follows.eat _).same fun closed => .cond (.pure rfl) ?_)
  refine (Follows.look Printing.cursor_atEnd).same fun atEnd => .skipIf (.fail _) fun _ => ?_
  exact (printed.member _ _).bind fun m => .pure rfl

theorem body_printed (printed : g.Printed w) (shape : BodyShape) :
    w.Follows (Becomes (Prod.map (List.map w.layout.enumConstant) (List.map w.layout.member))) (g.body shape)
      (g.body shape) := by
  refine .past (.expect _) (.either (enumConstants_printed printed) (.pure rfl) fun ks => ?_)
  exact (members_printed printed shape).bind fun ms => .pure rfl

theorem declKind_printed : w.Follows Eq declKind declKind := by
  refine (Follows.eat _).same fun isClass => .cond (.answer rfl) ?_
  refine (Follows.eat _).same fun isInterface => .cond (.answer rfl) ?_
  refine (Follows.eat _).same fun isEnum => .cond (.answer rfl) ?_
  refine (Follows.look fun c => by simp).same fun isAnnotation => .cond ?_ ?_
  · exact .past .bump (.past .bump (.answer rfl))
  exact (Follows.look fun c => by simp).same fun isRecord => .cond (.past .bump (.answer rfl)) (.fail _)

theorem typeDecl_printed (printed : g.Printed w) (mods : Modifiers) (doc : Option Comment) (start : Nat) :
    w.Follows (Becomes w.layout.typeDecl) (g.typeDecl mods doc start)
      (g.typeDecl (w.layout.modifiers mods) (w.layout.doc doc) (w.layout.offset start)) := by
  refine declKind_printed.same fun kind => Follows.ident.bind fun name => ?_
  refine (optionalTypeParams_printed printed).bind fun params => ?_
  refine .either (params_printed printed) (.pure rfl) fun components => ?_
  refine (Follows.eat _).same fun extended => ?_
  refine .either (typeList_printed printed) (.pure rfl) fun extending => ?_
  refine (Follows.eat _).same fun implemented => ?_
  refine .either (typeList_printed printed) (.pure rfl) fun implementing => ?_
  refine (Follows.look fun c => by simp).same fun permitted => ?_
  have types : w.Follows (Becomes (List.map w.layout.typeRef)) (do discard Parser.bump; g.typeList)
      (do discard Parser.bump; g.typeList) := .past .bump (typeList_printed printed)
  refine .stepsOr types (.pure rfl) fun permitting => (body_printed printed _).bind fun r => ?_
  refine (Follows.since start).bind fun range => .pure ?_
  simp [Layout.typeDecl]

theorem classMember_printed (printed : g.Printed w) (className : Option String) (isRecord : Bool) :
    w.Follows (Becomes w.layout.member) (g.classMember className isRecord)
      (g.classMember className isRecord) := by
  have names (c : Cursor) : (className.map ((w.cursor c).wordAt 0)).getD false =
      (className.map (c.wordAt 0)).getD false := by
    cases className with
    | none => rfl
    | some name => exact Printing.cursor_wordAt c 0 name
  refine (Follows.sees _).same fun braced => .cond ?_ ?_
  · exact (block_printed printed).bind fun b => .pure (by rw [Layout.member])
  refine (Follows.look fun c => by simp).same fun static => .cond ?_ ?_
  · exact .past .bump ((block_printed printed).bind fun b => .pure (by rw [Layout.member]))
  refine Follows.doc.bind fun doc => Follows.start.seq ?_
  rintro start _ ⟨rfl, -⟩
  refine (modifiers_printed printed).bind fun mods => ?_
  refine (Follows.look atTypeDecl_printed).same fun declares => .cond ?_ ?_
  · exact (typeDecl_printed printed mods doc start).bind fun d => .pure (by rw [Layout.member])
  refine (optionalTypeParams_printed printed).bind fun typeParams => ?_
  have method (head : MethodHead) (ps : List Param) (compact : Bool) :
      w.Follows (Becomes w.layout.member) (do return .method (← g.methodRest head ps compact))
        (do return .method (← g.methodRest (head.laid w.layout) (ps.map w.layout.param) compact)) :=
    (methodRest_printed printed head ps compact).bind fun m => .pure (by rw [Layout.member])
  refine (Follows.look fun c => by simp [names]).same fun constructs => .cond ?_ ?_
  · refine Follows.ident.bind fun name => (params_printed printed).bind fun ps => ?_
    exact method ⟨mods, typeParams, none, name, doc, start⟩ ps false
  refine (Follows.look fun c => by simp [names]).same fun compact => .cond ?_ ?_
  · exact Follows.ident.bind fun name => method ⟨mods, typeParams, none, name, doc, start⟩ [] true
  refine (typeRef_printed printed).bind fun type => ?_
  refine (Follows.look fun c => by simp).same fun called => .cond ?_ ?_
  · refine Follows.ident.bind fun name => (params_printed printed).bind fun ps => ?_
    exact method ⟨mods, typeParams, some type, name, doc, start⟩ ps false
  refine (declarators_printed printed).bind fun vs => .past (.expect _) ?_
  refine (Follows.since start).bind fun range => .pure ?_
  simp [Layout.member, Layout.varDecl]

end JavaIndex.Grammar
