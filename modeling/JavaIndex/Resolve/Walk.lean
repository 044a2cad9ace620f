import JavaIndex.Resolve.Calls
import JavaIndex.Resolve.Members

/-! The way through the tree of a file: every declaration is named and every name is resolved, in the order
in which the program makes them visible. An expression yields what it denotes, so that what is selected
from it and called with it can be resolved in turn. -/
namespace JavaIndex.Resolve

/-- The type of what a step denotes. -/
def typeOf (step : Resolve Receiver) : Resolve JavaType := return (← step).type

/-- An expression that denotes nothing but a value. -/
def valueOf (step : Resolve JavaType) : Resolve Receiver := return .value (← step)

/-- The step in a scope of its own, if so said. -/
def inScopeIf (own : Bool) (step : Resolve α) : Resolve α :=
  if own then inScope .block step else step

/-- The case of a `switch` has an arrow. -/
def hasArrow : SwitchCase → Bool
  | .rule _ _ _ => true
  | .group _ _ _ => false

/-- The step in the scope that the cases of a `switch` share. Where there is a case with an arrow, each case
has a scope of its own instead. -/
def switchScope (cases : List SwitchCase) (step : Resolve α) : Resolve α :=
  inScopeIf (!cases.any hasArrow) step

mutual

-- Types.

/-- A written type. An inferred one mentions nothing. -/
def typeRef : TypeRef → Resolve JavaType
  | .primitive keyword _ => return .primitive keyword
  | .array element dims _ => return .arrayOf dims (← typeRef element)
  | .named segments range =>
    if (WrittenType.named segments range).isVar then return .unknown
    else
      return (← namedType (segments.map TypeSegment.name) true (segmentAnnotations segments)
        (segmentArgs segments)).type

/-- Each of some written types. -/
def typeRefs : List TypeRef → Resolve (List JavaType)
  | [] => return []
  | t :: rest => return (← typeRef t) :: (← typeRefs rest)

/-- A written type, if there is one. -/
def typeRef? : Option TypeRef → Resolve JavaType
  | none => return .unknown
  | some t => typeRef t

/-- The annotations on the segments of a type. -/
def segmentAnnotations : List (TypeSegment Annotation) → Resolve Unit
  | [] => return
  | ⟨as, _, _⟩ :: rest => do
    annotations as
    segmentAnnotations rest

/-- The type arguments of all segments of a type, of which those of the last one count. -/
def segmentArgs : List (TypeSegment Annotation) → Resolve (List JavaType)
  | [] => return []
  | ⟨_, _, args⟩ :: rest => do
    let here ← typeArgList args
    let later ← segmentArgs rest
    return if rest.isEmpty then here else later

/-- Type arguments, if there are angle brackets. -/
def typeArgList : Option (List (TypeArg Annotation)) → Resolve (List JavaType)
  | none => return []
  | some args => typeArgs args

/-- Each of the type arguments. -/
def typeArgs : List (TypeArg Annotation) → Resolve (List JavaType)
  | [] => return []
  | arg :: rest => return (← typeArg arg) :: (← typeArgs rest)

/-- A type argument. A wildcard counts as its upper bound. -/
def typeArg : TypeArg Annotation → Resolve JavaType
  | .type t => typeRef t
  | .wildcard _ => return .object
  | .bounded bound t _ => do
    let type ← typeRef t
    return if bound = .upper then type else .object

-- Annotations.

/-- Each of the annotations. -/
def annotations : List Annotation → Resolve Unit
  | [] => return
  | a :: rest => do
    annotationUse a
    annotations rest

/-- An annotation and its values. -/
def annotationUse : Annotation → Resolve Unit
  | ⟨name, args, _⟩ => do
    let c ← annotationType name
    annotationArgs c args

/-- The values of an annotation. -/
def annotationArgs (c : Option ClassInfo) : List AnnotationArg → Resolve Unit
  | [] => return
  | ⟨name, value⟩ :: rest => do
    annotationElement c name
    discard (denote value)
    annotationArgs c rest

/-- The annotations among modifiers. -/
def modifiers : Modifiers → Resolve Unit
  | ⟨_, as⟩ => annotations as

-- Expressions.

/-- The types of some expressions. -/
def exprs : List Expr → Resolve (List JavaType)
  | [] => return []
  | e :: rest => return (← typeOf (denote e)) :: (← exprs rest)

/-- The types of some expressions, if there is a list of them. -/
def exprList? : Option (List Expr) → Resolve (List JavaType)
  | none => return []
  | some es => exprs es

/-- The type of an expression, if there is one. -/
def exprType? : Option Expr → Resolve JavaType
  | none => return .unknown
  | some e => typeOf (denote e)

/-- What an expression denotes, if there is one. -/
def denote? : Option Expr → Resolve (Option Receiver)
  | none => return none
  | some e => return some (← denote e)

/-- What an expression denotes. -/
def denote : Expr → Resolve Receiver
  | .literal kind _ => return .value (.ofLiteral kind)
  | .name name => nameChain [name]
  | .field target name _ =>
    match target.nameChain? with
    | some names => nameChain (names ++ [name])
    | none => valueOf do selectMember (← denote target) name
  | .call target types name args _ => valueOf do
    discard (typeRefs types)
    let receiver ← denote? target
    let candidates ← calledMethods receiver name.text
    callMethod name candidates (← exprs args)
  | .delegate kind keyword qualifier args _ => valueOf do
    discard (denote? qualifier)
    callDelegate kind keyword (← exprs args)
    return .primitive "void"
  | .create qualifier type args body range => valueOf do
    let args ← exprs args
    match type with
    | .primitive keyword typeRange => typeRef (.primitive keyword typeRange)
    | .array element dims typeRange => typeRef (.array element dims typeRange)
    | .named segments _ =>
      match (segments.map TypeSegment.name).getLast? with
      | none => return .unknown
      | some name =>
        let created ←
          match ← denote? qualifier with
          | some outer => innerClass outer name
          | none =>
            namedType (segments.map TypeSegment.name) false (segmentAnnotations segments)
              (segmentArgs segments)
        callConstructor name created args
        createdBody created range body
  | .createArray element sizes init _ => valueOf do
    let element ← typeRef element
    discard (exprs sizes)
    discard (exprList? init)
    return .arrayOf (max sizes.length 1) element
  | .arrayInit elements _ => valueOf do
    discard (exprs elements)
    return .unknown
  | .index array index _ => valueOf do
    let array ← typeOf (denote array)
    discard (denote index)
    return array.elementOfArray
  | .unary op operand _ => valueOf do
    return .ofUnary op (← typeOf (denote operand))
  | .binary op left right _ => valueOf do
    let left ← typeOf (denote left)
    let right ← typeOf (denote right)
    return .ofBinary op left right
  | .assign target value _ => valueOf do
    let type ← typeOf (denote target)
    discard (denote value)
    return type
  | .conditional condition thenValue elseValue _ => valueOf do
    discard (denote condition)
    let thenType ← typeOf (denote thenValue)
    let elseType ← typeOf (denote elseValue)
    return if thenType.isKnown then thenType else elseType
  | .cast type bounds value _ => valueOf do
    let type ← typeRef type
    discard (typeRefs bounds)
    discard (denote value)
    return type
  | .instanceOf value type binding _ => valueOf do
    discard (denote value)
    let checked ← typeRef type
    match binding with
    | some name => declareLocal name .localVariable checked (Signature.pattern type name)
    | none => pure ()
    return .boolean
  | .lambda params body _ => valueOf do
    inScope .block do
      lambdaParams params
      discard (denote body)
    return .unknown
  | .blockLambda params body _ => valueOf do
    inScope .block do
      lambdaParams params
      blockBody body
    return .unknown
  | .methodRef target name _ => valueOf do
    mentionMethod (← denote target) name
    return .unknown
  | .typeMethodRef target name _ => valueOf do
    mentionMethod (← receiverOfType (← typeRef target)) name
    return .unknown
  | .this qualifier _ => valueOf do
    match ← denote? qualifier with
    | some outer => return outer.type
    | none => thisType
  | .super qualifier _ => do superOf (← denote? qualifier)
  | .classLiteral type _ => valueOf do
    discard (typeRef type)
    return .ofName "java.lang.Class"
  | .paren inner _ => valueOf (typeOf (denote inner))
  | .switching selector cases _ => valueOf do
    let selector ← typeOf (denote selector)
    switchScope cases (switchCases selector (cases.any hasArrow) cases)
    return .unknown
  | .annotated a => valueOf do
    annotationUse a
    return .unknown

/-- The parameters of a lambda expression. -/
def lambdaParams : List LambdaParam → Resolve Unit
  | [] => return
  | ⟨mods, type, name⟩ :: rest => do
    modifiers mods
    let t ← typeRef? type
    declareLocal name .parameter t (Signature.lambdaParam (← read).source ⟨mods, type, name⟩)
    lambdaParams rest

/-- The body that comes with the creation of an object, if there is one, and the type of what is
created. -/
def createdBody (created : NamedType) (span : Span) : Option (List Member) → Resolve JavaType
  | none => return created.type
  | some body => do
    match ← unnamedClass created.info created.type body span with
    | none => return .unknown
    | some c =>
      enclosedBy (some c.symbol) (inClass c [] (members (.start c) body))
      return c.selfType

-- Statements.

/-- Statements between braces. -/
def blockBody : Block → Resolve Unit
  | ⟨body, _⟩ => inScope .block (stmts body)

/-- A block, if there is one. -/
def blockBody? : Option Block → Resolve Unit
  | none => return
  | some b => blockBody b

/-- Each of the statements. -/
def stmts : List Stmt → Resolve Unit
  | [] => return
  | s :: rest => do
    stmt s
    stmts rest

/-- A statement. One that depends on a condition has a scope of its own. -/
def stmt : Stmt → Resolve Unit
  | .locals decl => varDecl none decl
  | .localType decl => typeDecl (localClass decl) decl
  | .expr value => discard (denote value)
  | .block body => blockBody body
  | .ifThen condition thenBranch => do
    discard (denote condition)
    inScope .block (stmt thenBranch)
  | .ifElse condition thenBranch elseBranch => do
    discard (denote condition)
    inScope .block (stmt thenBranch)
    inScope .block (stmt elseBranch)
  | .whileLoop condition body => do
    discard (denote condition)
    inScope .block (stmt body)
  | .doLoop body condition => do
    inScope .block (stmt body)
    discard (denote condition)
  | .forLoop init condition update body => inScope .block do
    stmts init
    discard (exprType? condition)
    discard (exprs update)
    inScope .block (stmt body)
  | .forEach decl iterable body => inScope .block do
    let iterable ← typeOf (denote iterable)
    varDecl (some iterable.elementOfIterable) decl
    inScope .block (stmt body)
  | .returning value => discard (exprType? value)
  | .throwing value => discard (denote value)
  | .yielding value => discard (denote value)
  | .breaking _ => return
  | .continuing _ => return
  | .trying resources body catches closing => do
    inScope .block do
      stmts resources
      blockBody body
    catchClauses catches
    blockBody? closing
  | .switching selector cases _ => do
    let selector ← typeOf (denote selector)
    switchScope cases (switchCases selector (cases.any hasArrow) cases)
  | .synchronized lock body => do
    discard (denote lock)
    blockBody body
  | .labeled _ body => stmt body
  | .asserting condition message => do
    discard (denote condition)
    discard (exprType? message)
  | .empty => return

/-- A declaration of variables. In a loop over all elements an inferred type is that of an element. -/
def varDecl (element : Option JavaType) : VarDecl → Resolve Unit
  | ⟨mods, type, declarators⟩ => do
    modifiers mods
    let declared ← typeRef type
    varDeclarators mods type (if type.isVar then element else some declared) type.isVar declarators

/-- The variables of a declaration, whose type is given unless each has that of its initial value. -/
def varDeclarators (mods : Modifiers) (type : TypeRef) (given : Option JavaType) (inferred : Bool) :
    List Declarator → Resolve Unit
  | [] => return
  | ⟨name, dims, init⟩ :: rest => do
    let signature := Signature.declarator (← read).source mods type ⟨name, dims, init⟩
    let given' := given.map (JavaType.arrayOf (if inferred then 0 else dims))
    declareVariable name given' signature (exprType? init)
    varDeclarators mods type given inferred rest

/-- Each of the handlers. -/
def catchClauses : List CatchClause → Resolve Unit
  | [] => return
  | ⟨mods, types, name, body⟩ :: rest => do
    inScope .block do
      modifiers mods
      let caught ← typeRefs types
      declareLocal name .localVariable (caught.head?.getD .unknown) (Signature.caught types name)
      blockBody body
    catchClauses rest

/-- The cases of a `switch`. -/
def switchCases (selector : JavaType) (own : Bool) : List SwitchCase → Resolve Unit
  | [] => return
  | .group labels guard body :: rest => do
    inScopeIf own do
      caseLabels selector labels
      discard (exprType? guard)
      stmts body
    switchCases selector own rest
  | .rule labels guard body :: rest => do
    inScopeIf own do
      caseLabels selector labels
      discard (exprType? guard)
      stmt body
    switchCases selector own rest

/-- What a case stands for. -/
def caseLabels (selector : JavaType) : List CaseLabel → Resolve Unit
  | [] => return
  | .default :: rest => caseLabels selector rest
  | .expr value :: rest => do
    caseLabel selector value (discard (denote value))
    caseLabels selector rest
  | .pattern type name :: rest => do
    let checked ← typeRef type
    declareLocal name .localVariable checked (Signature.pattern type name)
    caseLabels selector rest

-- Declarations.

/-- A declared type, whose class is found by the given step. -/
def typeDecl (find : Resolve (Option (ClassInfo × List (String × Symbol)))) : TypeDecl → Resolve Unit
  | ⟨kind, mods, name, params, extending, implementing, permitting, components, constants, body, doc,
      range⟩ => do
    match ← find with
    | none => return
    | some (c, typeVars) =>
      modifiers mods
      let d : TypeDecl := ⟨kind, mods, name, params, extending, implementing, permitting, components,
        constants, body, doc, range⟩
      define name c.symbol (Signature.typeDecl (← read).source d) doc []
      enclosedBy (some c.symbol) do
        inClass c typeVars do
          typeParams (boundTypeParams typeVars params) params
          discard (typeRefs extending)
          discard (typeRefs implementing)
          discard (typeRefs permitting)
          enumConstants c constants
          recordComponents c components
          members (.start c) body

/-- Type variables, those that have symbols, and their bounds. -/
def typeParams : List (Option Symbol) → List TypeParam → Resolve Unit
  | _, [] => return
  | [], _ :: _ => return
  | none :: symbols, _ :: rest => typeParams symbols rest
  | some symbol :: symbols, ⟨as, name, bounds⟩ :: rest => do
    annotations as
    define name symbol (Signature.typeParam ⟨as, name, bounds⟩) none []
    discard (typeRefs bounds)
    typeParams symbols rest

/-- The constants of an enum, with their arguments and bodies. -/
def enumConstants (c : ClassInfo) : List EnumConstant → Resolve Unit
  | [] => return
  | ⟨as, name, args, body, doc⟩ :: rest => do
    annotations as
    match ← nameOrReport name ((MemberNames.start c).field name.text .enumConstant) with
    | some symbol =>
      define name symbol (Signature.constant ⟨as, name, args, body, doc⟩) doc []
      inBody (some symbol) do
        discard (exprList? args)
        discard (createdBody ⟨c.selfType, some c⟩ name.range body)
    | none => pure ()
    enumConstants c rest

/-- The components of a record. -/
def recordComponents (c : ClassInfo) : List Param → Resolve Unit
  | [] => return
  | ⟨mods, type, varargs, name, range⟩ :: rest => do
    modifiers mods
    match ← nameOrReport name ((MemberNames.start c).field name.text .field) with
    | some symbol =>
      let signature := Signature.param (← read).source ⟨mods, type, varargs, name, range⟩
      define name symbol signature none []
    | none => pure ()
    discard (typeRef type)
    recordComponents c rest

/-- The members of a class. -/
def members (names : MemberNames) : List Member → Resolve Unit
  | [] => return
  | m :: rest => do
    member names m
    members (names.after m) rest

/-- A member of a class. -/
def member (names : MemberNames) : Member → Resolve Unit
  | .field ⟨mods, type, declarators⟩ doc _ => do
    modifiers mods
    discard (typeRef type)
    fieldDeclarators names mods type doc declarators
  | .method m => methodDecl names.info (names.callable m) m
  | .initializer _ body => inBody none (blockBody body)
  | .type d => typeDecl (knownClass d (names.info.qualifiedName ++ "." ++ d.name.text)) d

/-- The variables of a field declaration. -/
def fieldDeclarators (names : MemberNames) (mods : Modifiers) (type : TypeRef)
    (doc : Option Comment) : List Declarator → Resolve Unit
  | [] => return
  | ⟨name, dims, init⟩ :: rest => do
    match ← nameOrReport name (names.field name.text .field) with
    | some symbol =>
      let signature := Signature.declarator (← read).source mods type ⟨name, dims, init⟩
      define name symbol signature doc []
      fieldInit symbol init
    | none => pure ()
    fieldDeclarators names mods type doc rest

/-- The initial value of a field, if there is one. -/
def fieldInit (symbol : Symbol) : Option Expr → Resolve Unit
  | none => return
  | some e => inBody (some symbol) (discard (denote e))

/-- A method of a class, by its symbol. -/
def methodDecl (c : ClassInfo) (symbol : Except NamingError Symbol) : MethodDecl → Resolve Unit
  | ⟨mods, params, returns, name, parameters, throwing, body, defaultValue, compact, doc, range⟩ => do
    match ← nameOrReport name symbol with
    | none => return
    | some symbol =>
      modifiers mods
      let m : MethodDecl := ⟨mods, params, returns, name, parameters, throwing, body, defaultValue,
        compact, doc, range⟩
      let overrides ← overriddenBy c symbol m
      define name symbol (Signature.method (← read).source m) doc overrides
      inBody (some symbol) do
        typeParams (← methodTypeParams symbol params) params
        discard (typeRef? returns)
        methodParams parameters
        discard (typeRefs throwing)
        blockBody? body
        discard (exprType? defaultValue)

/-- The parameters of a method. -/
def methodParams : List Param → Resolve Unit
  | [] => return
  | ⟨mods, type, varargs, name, range⟩ :: rest => do
    modifiers mods
    let t ← typeRef type
    let signature := Signature.param (← read).source ⟨mods, type, varargs, name, range⟩
    declareLocal name .parameter (.arrayOf (if varargs then 1 else 0) t) signature
    methodParams rest

end

end JavaIndex.Resolve
