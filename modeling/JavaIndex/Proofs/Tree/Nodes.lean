import JavaIndex.Resolve.Calls

/-! What a tree holds for those who ask about its declarations: every identifier that declares, every
name that is looked up, and every class, in the order in which a file is resolved. A keyword that stands
for a constructor counts as a name. Resolution passes over a few parts of a tree. What stands there is
listed too, but it is marked as not reached. -/
namespace JavaIndex

/-- A class as it is written: a declared type, or a body without a name. -/
inductive ClassSyntax where
  | declared (decl : TypeDecl)
  | unnamed (members : List Member)

namespace ClassSyntax

/-- What declares its members. -/
def body : ClassSyntax → ClassBody
  | declared d => .ofDecl d
  | unnamed ms => .unnamed ms

/-- The identifier that declares it. -/
def name? : ClassSyntax → Option Ident
  | declared d => some d.name
  | unnamed _ => none

def typeParams : ClassSyntax → List TypeParam
  | declared d => d.typeParams
  | unnamed _ => []

end ClassSyntax

/-- Something that stands in a tree. -/
inductive Part where
  /-- An identifier that is looked up. -/
  | mention (name : Ident)
  /-- An identifier that declares. -/
  | declaration (name : Ident)
  | ofClass (written : ClassSyntax)

/-- A part of a tree, which resolution comes to or passes over. -/
structure Node where
  part : Part
  reached : Bool
  /-- The classes around it, outermost first. -/
  around : List ClassSyntax

namespace Node

/-- A part that resolution comes to. -/
def ofPart (part : Part) : Node := ⟨part, true, []⟩

/-- The same part passed over. -/
def passed (n : Node) : Node := { n with reached := false }

/-- The same part in one more class. -/
def within (b : ClassSyntax) (n : Node) : Node := { n with around := b :: n.around }

/-- The identifier of a node. -/
def ident? (n : Node) : Option Ident :=
  match n.part with
  | .mention name | .declaration name => some name
  | .ofClass _ => none

/-- The identifier that declares, if the node is one. -/
def declared? (n : Node) : Option Ident :=
  match n.part with
  | .declaration name => some name
  | .mention _ | .ofClass _ => none

end Node

namespace Nodes

/-- The names of a path. -/
def mentions (names : List Ident) : List Node := names.map fun n => .ofPart (.mention n)

/-- An identifier that declares. -/
def declaration (name : Ident) : List Node := [.ofPart (.declaration name)]

/-- A class, without what is in it. -/
def classNode (b : ClassSyntax) : List Node := [.ofPart (.ofClass b)]

/-- Nodes that resolution passes over. -/
def hide (ns : List Node) : List Node := ns.map Node.passed

/-- Nodes that stand in a class. -/
def inside (b : ClassSyntax) (ns : List Node) : List Node := ns.map (Node.within b)

/-- The identifiers of some nodes. -/
def idents (ns : List Node) : List Ident := ns.filterMap Node.ident?

/-- The identifiers that declare. -/
def declared (ns : List Node) : List Ident := ns.filterMap Node.declared?

/-- The nodes that resolution comes to. -/
def reached (ns : List Node) : List Node := ns.filter Node.reached

mutual

/-- A written type. An inferred one is passed over with its annotations. -/
def typeRef : TypeRef → List Node
  | .primitive _ _ => []
  | .array element _ _ => typeRef element
  | .named segments range =>
    if (WrittenType.named segments range).isVar then
      hide (segmentAnnotations segments ++ segmentArgs segments)
    else
      mentions (segments.map TypeSegment.name) ++
        (segmentAnnotations segments ++ segmentArgs segments)

def typeRefs : List TypeRef → List Node
  | [] => []
  | t :: rest => typeRef t ++ typeRefs rest

def typeRef? : Option TypeRef → List Node
  | none => []
  | some t => typeRef t

def segmentAnnotations : List (TypeSegment Annotation) → List Node
  | [] => []
  | ⟨as, _, _⟩ :: rest => annotations as ++ segmentAnnotations rest

def segmentArgs : List (TypeSegment Annotation) → List Node
  | [] => []
  | ⟨_, _, args⟩ :: rest => typeArgList args ++ segmentArgs rest

def typeArgList : Option (List (TypeArg Annotation)) → List Node
  | none => []
  | some args => typeArgs args

def typeArgs : List (TypeArg Annotation) → List Node
  | [] => []
  | arg :: rest => typeArg arg ++ typeArgs rest

def typeArg : TypeArg Annotation → List Node
  | .type t => typeRef t
  | .wildcard _ => []
  | .bounded _ t _ => typeRef t

def annotations : List Annotation → List Node
  | [] => []
  | a :: rest => annotation a ++ annotations rest

def annotation : Annotation → List Node
  | ⟨name, args, _⟩ => mentions name ++ annotationArgs args

def annotationArgs : List AnnotationArg → List Node
  | [] => []
  | ⟨name, value⟩ :: rest => mentions name.toList ++ (expr value ++ annotationArgs rest)

def modifiers : Modifiers → List Node
  | ⟨_, as⟩ => annotations as

def exprs : List Expr → List Node
  | [] => []
  | e :: rest => expr e ++ exprs rest

def exprList? : Option (List Expr) → List Node
  | none => []
  | some es => exprs es

def expr? : Option Expr → List Node
  | none => []
  | some e => expr e

/-- An expression. The creation of an inner object passes over all but the last segment of the name, and over
annotations and type arguments of the name; that of an array or a primitive value passes over what stands
before it and its body. -/
def expr : Expr → List Node
  | .literal _ _ => []
  | .name name => mentions [name]
  | .field target name _ => expr target ++ mentions [name]
  | .call target types name args _ =>
    typeRefs types ++ (expr? target ++ (exprs args ++ mentions [name]))
  | .delegate kind keyword qualifier args _ =>
    expr? qualifier ++ (exprs args ++ mentions [⟨kind.word, keyword⟩])
  | .create qualifier type args body _ =>
    exprs args ++
      match type with
      | .primitive keyword range =>
        typeRef (.primitive keyword range) ++ hide (expr? qualifier ++ unnamedBody body)
      | .array element dims range =>
        typeRef (.array element dims range) ++ hide (expr? qualifier ++ unnamedBody body)
      | .named segments _ =>
        if segments.isEmpty then hide (expr? qualifier ++ unnamedBody body)
        else
          match qualifier with
          | some outer =>
            expr outer ++
              (hide (mentions (segments.map TypeSegment.name).dropLast ++
                (segmentAnnotations segments ++ segmentArgs segments)) ++
                  (mentions (segments.map TypeSegment.name).getLast?.toList ++ unnamedBody body))
          | none =>
            mentions (segments.map TypeSegment.name) ++
              (segmentAnnotations segments ++ segmentArgs segments) ++ unnamedBody body
  | .createArray element sizes init _ => typeRef element ++ (exprs sizes ++ exprList? init)
  | .arrayInit elements _ => exprs elements
  | .index array index _ => expr array ++ expr index
  | .unary _ operand _ => expr operand
  | .binary _ left right _ => expr left ++ expr right
  | .assign target value _ => expr target ++ expr value
  | .conditional condition thenValue elseValue _ =>
    expr condition ++ (expr thenValue ++ expr elseValue)
  | .cast type bounds value _ => typeRef type ++ (typeRefs bounds ++ expr value)
  | .instanceOf value type binding _ =>
    expr value ++ (typeRef type ++
      match binding with
      | some name => declaration name
      | none => [])
  | .lambda params body _ => lambdaParams params ++ expr body
  | .blockLambda params body _ => lambdaParams params ++ block body
  | .methodRef target name _ => expr target ++ mentions [name]
  | .typeMethodRef target name _ => typeRef target ++ mentions [name]
  | .this qualifier _ => expr? qualifier
  | .super qualifier _ => expr? qualifier
  | .classLiteral type _ => typeRef type
  | .paren inner _ => expr inner
  | .switching selector cases _ => expr selector ++ switchCases cases
  | .annotated a => annotation a

def lambdaParams : List LambdaParam → List Node
  | [] => []
  | ⟨mods, type, name⟩ :: rest =>
    modifiers mods ++ (typeRef? type ++ (declaration name ++ lambdaParams rest))

def unnamedBody : Option (List Member) → List Node
  | none => []
  | some body => classNode (.unnamed body) ++ inside (.unnamed body) (members body)

def block : Block → List Node
  | ⟨body, _⟩ => stmts body

def block? : Option Block → List Node
  | none => []
  | some b => block b

def stmts : List Stmt → List Node
  | [] => []
  | s :: rest => stmt s ++ stmts rest

def stmt : Stmt → List Node
  | .locals decl => varDecl decl
  | .localType decl => typeDecl decl
  | .expr value => expr value
  | .block body => block body
  | .ifThen condition thenBranch => expr condition ++ stmt thenBranch
  | .ifElse condition thenBranch elseBranch =>
    expr condition ++ (stmt thenBranch ++ stmt elseBranch)
  | .whileLoop condition body => expr condition ++ stmt body
  | .doLoop body condition => stmt body ++ expr condition
  | .forLoop init condition update body =>
    stmts init ++ (expr? condition ++ (exprs update ++ stmt body))
  | .forEach decl iterable body => expr iterable ++ (varDecl decl ++ stmt body)
  | .returning value => expr? value
  | .throwing value => expr value
  | .yielding value => expr value
  | .breaking _ => []
  | .continuing _ => []
  | .trying resources body catches closing =>
    (stmts resources ++ block body) ++ (catchClauses catches ++ block? closing)
  | .switching selector cases _ => expr selector ++ switchCases cases
  | .synchronized lock body => expr lock ++ block body
  | .labeled _ body => stmt body
  | .asserting condition message => expr condition ++ expr? message
  | .empty => []

def varDecl : VarDecl → List Node
  | ⟨mods, type, declarators⟩ => modifiers mods ++ (typeRef type ++ varDeclarators declarators)

/-- The variables of a declaration, of fields as of local ones. -/
def varDeclarators : List Declarator → List Node
  | [] => []
  | ⟨name, _, init⟩ :: rest => (declaration name ++ expr? init) ++ varDeclarators rest

def catchClauses : List CatchClause → List Node
  | [] => []
  | ⟨mods, types, name, body⟩ :: rest =>
    (modifiers mods ++ (typeRefs types ++ (declaration name ++ block body))) ++ catchClauses rest

def switchCases : List SwitchCase → List Node
  | [] => []
  | .group labels guard body :: rest =>
    (caseLabels labels ++ (expr? guard ++ stmts body)) ++ switchCases rest
  | .rule labels guard body :: rest =>
    (caseLabels labels ++ (expr? guard ++ stmt body)) ++ switchCases rest

def caseLabels : List CaseLabel → List Node
  | [] => []
  | .default :: rest => caseLabels rest
  | .expr value :: rest => expr value ++ caseLabels rest
  | .pattern type name :: rest => typeRef type ++ (declaration name ++ caseLabels rest)

def typeDecl : TypeDecl → List Node
  | ⟨kind, mods, name, params, extending, implementing, permitting, components, constants, body, doc,
      range⟩ =>
    let b : ClassSyntax := .declared ⟨kind, mods, name, params, extending, implementing, permitting,
      components, constants, body, doc, range⟩
    classNode b ++ (modifiers mods ++ (declaration name ++ inside b (typeParams params ++
      (typeRefs extending ++ (typeRefs implementing ++ (typeRefs permitting ++
        (enumConstants constants ++ (recordComponents components ++ members body))))))))

def typeParams : List TypeParam → List Node
  | [] => []
  | ⟨as, name, bounds⟩ :: rest =>
    annotations as ++ (declaration name ++ (typeRefs bounds ++ typeParams rest))

def enumConstants : List EnumConstant → List Node
  | [] => []
  | ⟨as, name, args, body, _⟩ :: rest =>
    annotations as ++ ((declaration name ++ (exprList? args ++ unnamedBody body)) ++
      enumConstants rest)

def recordComponents : List Param → List Node
  | [] => []
  | ⟨mods, type, _, name, _⟩ :: rest =>
    modifiers mods ++ (declaration name ++ (typeRef type ++ recordComponents rest))

def members : List Member → List Node
  | [] => []
  | m :: rest => member m ++ members rest

def member : Member → List Node
  | .field decl _ _ => varDecl decl
  | .method m => methodDecl m
  | .initializer _ body => block body
  | .type d => typeDecl d

def methodDecl : MethodDecl → List Node
  | ⟨mods, params, returns, name, parameters, throwing, body, defaultValue, _, _, _⟩ =>
    modifiers mods ++ (declaration name ++ (typeParams params ++ (typeRef? returns ++
      (methodParams parameters ++ (typeRefs throwing ++ (block? body ++ expr? defaultValue))))))

def methodParams : List Param → List Node
  | [] => []
  | ⟨mods, type, _, name, _⟩ :: rest =>
    modifiers mods ++ (typeRef type ++ (declaration name ++ methodParams rest))

end

def importDecls : List ImportDecl → List Node
  | [] => []
  | i :: rest => mentions i.path ++ importDecls rest

def topTypes : List TypeDecl → List Node
  | [] => []
  | d :: rest => typeDecl d ++ topTypes rest

def package : Option PackageDecl → List Node
  | none => []
  | some p => annotations p.annotations

/-- A whole file. The name of its package is not looked up. -/
def unit (u : CompilationUnit) : List Node :=
  package u.package ++ (importDecls u.imports ++ topTypes u.types)

end Nodes
end JavaIndex
