import JavaIndex.Parser.Unit
import JavaIndex.Proofs.Parser.Progress.Decls

/-! Statements are not read without a token, and a text has enough tokens for the levels of the grammar. Every rule at
every cursor reads on or gives up, and so the reading of a text comes to an end in a tree or in a fault of the text. -/
namespace JavaIndex

namespace Grammar

open JavaIndex.Parser

variable {n : Nat} {g h : Grammar}

theorem localDecl?_advances (agrees : g.Agrees n h) (mods : Modifiers) :
    Advances (n + 1) never (g.localDecl? mods) (h.localDecl? mods) := by
  refine .skip (attemptSome_moves ?_) fun type? => ?_
  · refine .skip (look_advances _) fun typed => .cond (fun _ => pure_advances rfl) fun _ => ?_
    refine .found (attempt_advances rfl (typeRef_advances agrees)) (pure_advances rfl) fun type => ?_
    exact .skip (look_advances _) fun declares => .cond (fun _ => pure_advances rfl) fun _ => pure_advances rfl
  · cases type? with
    | none => exact pure_advances rfl
    | some type => exact .skip (declarators_advances agrees) fun vars => pure_advances rfl

/-- Where no variables are declared the cursor is where it was. -/
theorem localDecl?_none {mods : Modifiers} {c c' : Cursor} (run : g.localDecl? mods c = .ok (none, c')) :
    c' = c := by
  obtain ⟨type?, c'', read, run⟩ := bind_ok run
  cases type? with
  | none =>
    cases run
    exact attemptSome_none read
  | some type =>
    obtain ⟨vars, c''', -, run⟩ := bind_ok run
    cases run

theorem elementVariable?_advances (agrees : g.Agrees n h) :
    Advances (n + 1) never g.elementVariable? h.elementVariable? := by
  refine attemptSome_advances rfl (.skip (modifiers_advances agrees) fun mods => ?_)
  refine .skip (look_advances _) fun typed => .cond (fun _ => pure_advances rfl) fun _ => ?_
  refine .found (attempt_advances rfl (typeRef_advances agrees)) (pure_advances rfl) fun type => ?_
  refine .skip (look_advances _) fun binds => .cond (fun _ => ?_) fun _ => pure_advances rfl
  exact .skip ident_advances fun name => .skip pass_moves fun _ => pure_advances rfl

theorem forInit_advances (agrees : g.Agrees n h) : Advances n never g.forInit h.forInit := by
  refine .skip (sees_advances _) fun empty => .cond (fun _ => pure_advances rfl) fun _ => ?_
  refine .skip (modifiers_advances agrees).lower fun mods => .skip (localDecl?_advances agrees mods).lower fun decl? => ?_
  cases decl? with
  | some decl => exact pure_advances rfl
  | none =>
    have one : Advances n always (Stmt.expr <$> g.expr) (Stmt.expr <$> h.expr) := .map agrees.expr
    exact (sepBy_advances _ one).moves

theorem forStmt_advances (agrees : g.Agrees n h) : Advances (n + 1) always g.forStmt h.forStmt := by
  refine (expect_advances _).discard.next fun _ => .skip (expect_advances _).discard fun _ => ?_
  refine .skip (elementVariable?_advances agrees).lower fun decl? => ?_
  cases decl? with
  | some decl =>
    refine .skip agrees.expr fun iterable => .skip (expect_advances _).discard fun _ => ?_
    exact .skip agrees.statement fun body => pure_advances rfl
  | none =>
    refine .skip (forInit_advances agrees) fun init => .skip (expect_advances _).discard fun _ => ?_
    have condition : Advances n never (some <$> g.expr) (some <$> h.expr) := .map agrees.expr.moves
    refine .skip (sees_advances _) fun endless => .either (pure_advances rfl) condition fun condition => ?_
    refine .skip (expect_advances _).discard fun _ => .skip (commaList_advances _ agrees.expr) fun update => ?_
    refine .skip (expect_advances _).discard fun _ => ?_
    exact .skip agrees.statement fun body => pure_advances rfl

theorem resource_advances (agrees : g.Agrees n h) : Advances n never g.resource h.resource := by
  refine .skip (modifiers_advances agrees).lower fun mods => .skip (localDecl?_advances agrees mods).lower fun decl? => ?_
  cases decl? with
  | some decl => exact pure_advances rfl
  | none => exact .skip agrees.expr fun e => pure_advances rfl

theorem resources_advances (agrees : g.Agrees n h) : Advances n never g.resources h.resources := by
  refine .skip (eat_advances _) fun given => .cond (fun _ => pure_advances rfl) fun _ => ?_
  refine .skip (iterate_advances ?_ _) fun found => pure_advances rfl
  refine fun (found, more) => .cond (fun _ => pure_advances rfl) fun _ => ?_
  refine .skip (eat_advances _) fun closed => .cond (fun _ => pure_advances rfl) fun _ => ?_
  refine .skip (resource_advances agrees) fun r => .eaten (pure_advances rfl) ?_
  exact (expect_advances _).discard.then fun _ => pure_advances rfl

theorem catchClause_advances (agrees : g.Agrees n h) : Advances (n + 1) always g.catchClause h.catchClause := by
  refine (expect_advances _).discard.next fun _ => .skip (modifiers_advances agrees).lower fun mods => ?_
  refine .skip (sepBy_advances _ (typeRef_advances agrees).lower) fun types => .skip ident_advances fun name => ?_
  refine .skip (expect_advances _).discard fun _ => ?_
  exact .skip (block_advances agrees).lower fun body => pure_advances rfl

theorem tryStmt_advances (agrees : g.Agrees n h) : Advances (n + 1) always g.tryStmt h.tryStmt := by
  refine (expect_advances _).discard.next fun _ => .skip (resources_advances agrees) fun resources => ?_
  refine .skip (block_advances agrees).lower fun body => .skip (many_advances ?_) fun catches => ?_
  · refine .skip (eat_advances _) fun catches => .cond (fun _ => ?_) fun _ => pure_advances rfl
    exact (catchClause_advances agrees).lower.then fun c => pure_advances rfl
  have closing : Advances n never (some <$> g.block) (some <$> h.block) := .map (block_advances agrees).lower.moves
  refine .skip (eat_advances _) fun closes => .either closing (pure_advances rfl) fun closing => ?_
  exact .skipIf (fail_advances _) fun _ => pure_advances rfl

theorem localOrExpr_advances (agrees : g.Agrees n h) : Advances (n + 1) always g.localOrExpr h.localOrExpr := by
  refine .skip (look_advances _) fun doc => .skip (look_advances _) fun start => ?_
  refine .skip (look_advances _) fun declares => .cond (fun _ => ?_) fun _ => ?_
  · refine .skip (modifiers_advances agrees) fun mods => .skip (look_advances _) fun isType => ?_
    refine .cond (fun _ => (typeDecl_advances agrees mods doc start).then fun d => pure_advances rfl) fun _ => ?_
    refine .skip (localDecl?_advances agrees mods) fun decl? => ?_
    cases decl? with
    | some decl => exact (expect_advances _).discard.then fun _ => pure_advances rfl
    | none => exact fail_advances _
  · refine .skip (localDecl?_advances agrees .none) fun decl? => ?_
    cases decl? with
    | some decl => exact (expect_advances _).discard.then fun _ => pure_advances rfl
    | none =>
      refine (fullExpr_advances agrees).then fun e => ?_
      exact .skip (expect_advances _).discard fun _ => pure_advances rfl

theorem jump_advances (make : Option Ident → Stmt) : Advances n always (jump make) (jump make) := by
  have name : Advances n never (some <$> ident) (some <$> ident) := .map ident_advances.moves
  refine .skip pass_moves fun _ => .skip (look_advances _) fun named => ?_
  refine .either name (pure_advances rfl) fun label => ?_
  exact (expect_advances _).discard.then fun _ => pure_advances rfl

theorem keywordExpr_advances (agrees : g.Agrees n h) {here : Cursor → Prop} (some : ∀ c, here c → c.rest ≠ [])
    (make : Expr → Stmt) : AdvancesAt here (n + 1) always (g.keywordExpr make) (h.keywordExpr make) := by
  refine (bump_advances some).discard.next fun _ => .skip agrees.expr fun e => ?_
  exact .skip (expect_advances _).discard fun _ => pure_advances rfl

theorem ifStmt_advances (agrees : g.Agrees n h) : Advances (n + 1) always g.ifStmt h.ifStmt := by
  refine (expect_advances _).discard.next fun _ => .skip (parenExpr_advances agrees).lower fun condition => ?_
  refine .skip agrees.statement fun thenBranch => .skip (eat_advances _) fun other => .cond (fun _ => ?_) fun _ => ?_
  · exact .skip agrees.statement fun elseBranch => pure_advances rfl
  · exact pure_advances rfl

theorem doStmt_advances (agrees : g.Agrees n h) : Advances (n + 1) always g.doStmt h.doStmt := by
  refine (expect_advances _).discard.next fun _ => .skip agrees.statement fun body => ?_
  refine .skip (expect_advances _).discard fun _ => .skip (parenExpr_advances agrees).lower fun condition => ?_
  exact .skip (expect_advances _).discard fun _ => pure_advances rfl

theorem returnStmt_advances (agrees : g.Agrees n h) : Advances (n + 1) always g.returnStmt h.returnStmt := by
  have value : Advances n never (some <$> g.expr) (some <$> h.expr) := .map agrees.expr.moves
  refine (expect_advances _).discard.next fun _ => .skip (sees_advances _) fun empty => ?_
  refine .either (pure_advances rfl) value fun value => ?_
  exact .skip (expect_advances _).discard fun _ => pure_advances rfl

theorem assertStmt_advances (agrees : g.Agrees n h) : Advances (n + 1) always g.assertStmt h.assertStmt := by
  have message : Advances n never (some <$> g.expr) (some <$> h.expr) := .map agrees.expr.moves
  refine (expect_advances _).discard.next fun _ => .skip agrees.expr fun condition => ?_
  refine .skip (eat_advances _) fun told => .either message (pure_advances rfl) fun message => ?_
  exact .skip (expect_advances _).discard fun _ => pure_advances rfl

theorem stmt_advances (agrees : g.Agrees n h) : Advances (n + 1) always g.stmt h.stmt := by
  have seen {text : String} (c : Cursor) (sees : True ∧ c.spellsAt 0 text = true) : c.rest ≠ [] :=
    Cursor.some_of_spellsAt sees.2
  refine .skip (look_advances _) fun atEnd => .cond (fun _ => fail_advances _) fun _ => ?_
  refine .skip (sees_advances _) fun braced => .cond (fun _ => ?_) fun _ => ?_
  · exact (block_advances agrees).then fun b => pure_advances rfl
  refine .eaten (pure_advances rfl) ?_
  refine .skip (sees_advances _) fun chooses => .cond (fun _ => ifStmt_advances agrees) fun _ => ?_
  refine .skip (eat_advances _) fun loops => .cond (fun _ => ?_) fun _ => ?_
  · refine (parenExpr_advances agrees).next fun condition => ?_
    exact .skip agrees.statement fun body => pure_advances rfl
  refine .skip (sees_advances _) fun does => .cond (fun _ => doStmt_advances agrees) fun _ => ?_
  refine .skip (sees_advances _) fun counts => .cond (fun _ => forStmt_advances agrees) fun _ => ?_
  refine .skip (sees_advances _) fun returns => .cond (fun _ => returnStmt_advances agrees) fun _ => ?_
  refine .looked fun throws => .cond ?_ fun _ => .anywhere ?_
  · rintro rfl
    exact keywordExpr_advances agrees seen _
  refine .skip (sees_advances _) fun breaks => .cond (fun _ => jump_advances _) fun _ => ?_
  refine .skip (sees_advances _) fun continues => .cond (fun _ => jump_advances _) fun _ => ?_
  refine .skip (sees_advances _) fun tries => .cond (fun _ => tryStmt_advances agrees) fun _ => ?_
  refine .skip (sees_advances _) fun switches => .cond (fun _ => ?_) fun _ => ?_
  · refine (switchOf_advances agrees _).then fun s => ?_
    exact .skip (eat_advances _).drop fun _ => pure_advances rfl
  refine .skip (look_advances _) fun locks => .cond (fun _ => .skip pass_moves fun _ => ?_) fun _ => ?_
  · refine (parenExpr_advances agrees).then fun lock => ?_
    exact .skip (block_advances agrees) fun b => pure_advances rfl
  refine .skip (sees_advances _) fun asserts => .cond (fun _ => assertStmt_advances agrees) fun _ => ?_
  refine .skip (look_advances _) fun labels => .cond (fun _ => ident_advances.next fun label => ?_) fun _ => ?_
  · exact .skip pass_moves fun _ => .skip agrees.statement fun body => pure_advances rfl
  refine .looked fun yields => .cond ?_ fun _ => .anywhere (localOrExpr_advances agrees)
  rintro rfl
  exact keywordExpr_advances agrees (fun c seen => Cursor.some_of_wordAt (Bool.and_eq_true .. |>.mp seen.2).1) _

end Grammar

/-! Files. -/

namespace Parser

/-- A rule, given for each number of levels, has enough of them if there are as many as tokens are left: it does not
run out of them, and with more it answers the same. -/
structure Settles {α : Type} (p : Nat → Parser α) (c : Cursor) : Prop where
  ends : ∀ e, p c.rest.length c = .error e → e.fault ≠ .tooDeep
  settled : ∀ extra, p (c.rest.length + extra) c = p c.rest.length c

/-- A rule that succeeds has read a token at least, and not more than there are. -/
structure Proceeds {α : Type} (p : Nat → Parser α) (c : Cursor) : Prop extends Settles p c where
  further : ∀ x c', p c.rest.length c = .ok (x, c') → ∃ k, 0 < k ∧ k ≤ c.rest.length ∧ c' = c.past k

section

variable {α : Type} {p : Nat → Parser α} {gains : α → Bool} (c : Cursor)

theorem Settles.of_advances (h : ∀ n extra, Advances (n + 1) gains (p n) (p (n + extra))) : Settles p c where
  ends e run := (h c.rest.length 0).shallow c e trivial (Nat.lt_succ_self _) run
  settled extra := (h c.rest.length extra).same c trivial (Nat.lt_succ_self _)

theorem Proceeds.of_advances (h : ∀ n extra, Advances (n + 1) always (p n) (p (n + extra))) : Proceeds p c where
  toSettles := .of_advances c h
  further x c' run := by
    obtain ⟨k, gain, rest⟩ := (h c.rest.length 0).further c x c' trivial (Nat.lt_succ_self _) run
    exact ⟨k, gain rfl, rest⟩

end

theorem advances_zero {α : Type} {gains : α → Bool} {p q : Parser α} : Advances 0 gains p q :=
  ⟨fun _ _ => nofun, fun _ _ _ _ => nofun, fun _ _ _ => nofun⟩

end Parser

namespace Grammar

open JavaIndex.Parser

/-- So many levels are enough for as many tokens. -/
theorem level_agrees (n extra : Nat) : (level n).Agrees n (level (n + extra)) := by
  induction n with
  | zero => constructor <;> intros <;> exact advances_zero
  | succ n ih =>
    rw [Nat.add_right_comm]
    exact {
      type := typeRef_advances ih
      elementValue := annotationValue_advances ih
      variableInit := initializer_advances ih
      expr := fullExpr_advances ih
      ternary := ternaryExpr_advances ih
      binary := binaryExpr_advances ih
      unary := unaryExpr_advances ih
      statement := stmt_advances ih
      member := classMember_advances ih
      classBody := .map (body_advances ih _) }

variable {n : Nat} {g h : Grammar}

theorem packageClause_advances (agrees : g.Agrees n h) :
    Advances (n + 1) never g.packageClause h.packageClause := by
  refine attemptSome_advances rfl (.skip (look_advances _) fun start => ?_)
  refine .skip (annotations_advances agrees) fun as => .skip (eat_advances _) fun named => ?_
  refine .cond (fun _ => pure_advances rfl) fun _ => .skip qualifiedName_advances fun name => ?_
  refine .skip (expect_advances _).discard fun _ => ?_
  exact .skip (since_advances _) fun range => pure_advances rfl

theorem importStep_advances (r : List Ident × Bool) :
    Advances n Option.isSome (importStep r) (importStep r) := by
  obtain ⟨names, done⟩ := r
  cases done with
  | true => exact pure_advances rfl
  | false =>
    refine (eat_advances _).bind (fun dot found => ?_) fun dot missing => ?_
    · obtain rfl : dot = true := found
      refine .skip (eat_advances _) fun star => .cond (fun _ => pure_advances rfl) fun _ => ?_
      exact .skip ident_advances fun name => pure_advances rfl
    · obtain rfl : dot = false := missing
      exact pure_advances rfl

theorem importDecl_advances : Advances n always importDecl importDecl := by
  refine .skip (look_advances _) fun start => (expect_advances _).discard.then fun _ => ?_
  refine .skip (eat_advances _) fun static => .skip ident_advances fun first => ?_
  refine .skip (iterate_advances importStep_advances _) fun (path, all) => ?_
  refine .skip (expect_advances _).discard fun _ => ?_
  exact .skip (since_advances _) fun range => pure_advances rfl

theorem topLevelType_advances (agrees : g.Agrees n h) :
    Advances (n + 1) always g.topLevelType h.topLevelType := by
  refine .skip (look_advances _) fun doc => .skip (look_advances _) fun start => ?_
  exact .skip (modifiers_advances agrees) fun mods => typeDecl_advances agrees mods doc start

theorem compilationUnit_advances (agrees : g.Agrees n h) :
    Advances (n + 1) never g.compilationUnit h.compilationUnit := by
  refine .skip (packageClause_advances agrees) fun package => ?_
  refine .skip (manyWhile_advances importDecl_advances.anywhere) fun imports => ?_
  refine .skip (many_advances (.skip semicolons_advances fun _ => ?_)) fun types => pure_advances rfl
  refine .skip (look_advances _) fun atEnd => .cond (fun _ => pure_advances rfl) fun _ => ?_
  exact (topLevelType_advances agrees).then fun d => pure_advances rfl

/-- At a cursor the rules that stand for something written read on, those that only try something and find nothing
leave the cursor where it is, and all of them come to an end. -/
structure Proceeding (c : Cursor) : Prop where
  annotationHere : Proceeds (fun n => (level n).annotationHere) c
  param : Proceeds (fun n => (level n).param) c
  typeRef : Proceeds (fun n => (level n).typeRef) c
  typeArgs : Proceeds (fun n => (level n).typeArgs) c
  fullExpr : Proceeds (fun n => (level n).fullExpr) c
  ternaryExpr : Proceeds (fun n => (level n).ternaryExpr) c
  unaryExpr : Proceeds (fun n => (level n).unaryExpr) c
  primary : Proceeds (fun n => (level n).primary) c
  block : Proceeds (fun n => (level n).block) c
  stmt : Proceeds (fun n => (level n).stmt) c
  switchOf : ∀ {α : Type} (make : Expr → List SwitchCase → Span → α), Proceeds (fun n => (level n).switchOf make) c
  classMember : ∀ name isRecord, Proceeds (fun n => (level n).classMember name isRecord) c
  typeDecl : ∀ mods doc start, Proceeds (fun n => (level n).typeDecl mods doc start) c
  localDecl? : ∀ mods, Settles (fun n => (level n).localDecl? mods) c ∧
    ∀ n c', (level n).localDecl? mods c = .ok (none, c') → c' = c
  castTypes : Settles (fun n => (level n).castTypes) c ∧
    ∀ n c', (level n).castTypes c = .ok (none, c') → c' = c
  compilationUnit : Settles (fun n => (level n).compilationUnit) c

theorem proceeding (c : Cursor) : Proceeding c where
  annotationHere := .of_advances c fun n extra => annotationHere_advances (level_agrees n extra)
  param := .of_advances c fun n extra => param_advances (level_agrees n extra)
  typeRef := .of_advances c fun n extra => typeRef_advances (level_agrees n extra)
  typeArgs := .of_advances c fun n extra => typeArgs_advances (level_agrees n extra)
  fullExpr := .of_advances c fun n extra => fullExpr_advances (level_agrees n extra)
  ternaryExpr := .of_advances c fun n extra => ternaryExpr_advances (level_agrees n extra)
  unaryExpr := .of_advances c fun n extra => unaryExpr_advances (level_agrees n extra)
  primary := .of_advances c fun n extra => primary_advances (level_agrees n extra)
  block := .of_advances c fun n extra => block_advances (level_agrees n extra)
  stmt := .of_advances c fun n extra => stmt_advances (level_agrees n extra)
  switchOf make := .of_advances c fun n extra => switchOf_advances (level_agrees n extra) make
  classMember name isRecord := .of_advances c fun n extra => classMember_advances (level_agrees n extra) name isRecord
  typeDecl mods doc start := .of_advances c fun n extra => typeDecl_advances (level_agrees n extra) mods doc start
  localDecl? mods := ⟨.of_advances c fun n extra => localDecl?_advances (level_agrees n extra) mods,
    fun _ _ => localDecl?_none⟩
  castTypes := ⟨.of_advances c fun n extra => castTypes_advances (level_agrees n extra), fun _ _ => attemptSome_none⟩
  compilationUnit := .of_advances c fun n extra => compilationUnit_advances (level_agrees n extra)

end Grammar

/-- The rules of the grammar read on at every cursor, and every text has a tree or a fault of its own: its rules are
never nested more deeply than there are levels. -/
theorem parse_proceeds : (∀ c, Grammar.Proceeding c) ∧
    ∀ source e, parse source = .error e → e.fault ≠ .tooDeep := by
  refine ⟨Grammar.proceeding, fun source e failed => ?_⟩
  unfold parse at failed
  split at failed
  · cases failed
    exact nofun
  · rename_i tokens _
    unfold parseTokens at failed
    split at failed
    · cases failed
    · rename_i e' run
      cases failed
      have whole := (Grammar.proceeding ⟨tokens, 0, source.utf8ByteSize⟩).compilationUnit
      rw [whole.settled 1] at run
      exact whole.ends e run

end JavaIndex
