import JavaIndex.Proofs.Tree.Nodes
import JavaIndex.Resolve.Members

/-! Which symbol each declaring identifier of a class is to be defined with, given what is known of the
class. Resolution follows this plan, and the descriptions of classes are held against it. -/
namespace JavaIndex

namespace ClassBody

/-- The methods of some members, constructors among them. -/
def callablesOf : List Member → List MethodDecl
  | [] => []
  | .method m :: rest => m :: callablesOf rest
  | .field _ _ _ :: rest | .initializer _ _ :: rest | .type _ :: rest => callablesOf rest

/-- The types declared among some members. -/
def typesOf : List Member → List TypeDecl
  | [] => []
  | .type d :: rest => d :: typesOf rest
  | .field _ _ _ :: rest | .initializer _ _ :: rest | .method _ :: rest => typesOf rest

/-- The names of the fields among some members. -/
def fieldsOf : List Member → List Ident
  | [] => []
  | .field d _ _ :: rest => d.declarators.map Declarator.name ++ fieldsOf rest
  | .type _ :: rest | .initializer _ _ :: rest | .method _ :: rest => fieldsOf rest

/-- The names of all fields: constants, components, and fields that are declared as such. -/
def fieldNames (b : ClassBody) : List Ident :=
  b.constants.map EnumConstant.name ++ (b.components.map Param.name ++ fieldsOf b.members)

def methods (b : ClassBody) : List MethodDecl :=
  (callablesOf b.members).filter fun m => !m.isConstructor

def constructors (b : ClassBody) : List MethodDecl :=
  (callablesOf b.members).filter MethodDecl.isConstructor

def types (b : ClassBody) : List TypeDecl := typesOf b.members

end ClassBody

namespace Plan

/-- The symbol that a type variable is bound to. -/
def bound (vars : List (String × Symbol)) (p : TypeParam) : Option Symbol :=
  (vars.find? fun (name, _) => name == p.name.text).map Prod.snd

/-- The type variables of a method belong to it. -/
def methodTypeParam (method : Symbol) (m : MethodDecl) (i : Ident) (s : Symbol) : Prop :=
  ∃ p ∈ m.typeParams, i = p.name ∧
    Symbol.ofDeclaration (.typeParameter p.name.text) (some method) = .ok s

/-- What the identifiers of one member are to be defined with. -/
def member (names : MemberNames) : Member → Ident → Symbol → Prop
  | .field d _ _, i, s => ∃ v ∈ d.declarators, i = v.name ∧ names.field v.name.text .field = .ok s
  | .method m, i, s =>
    ∃ method, names.callable m = .ok method ∧
      ((i = m.name ∧ s = method) ∨ methodTypeParam method m i s)
  | .initializer _ _, _, _ => False
  | .type _, _, _ => False

/-- The same of some members one after the other. -/
def members (names : MemberNames) : List Member → Ident → Symbol → Prop
  | [], _, _ => False
  | m :: rest, i, s => member names m i s ∨ members (names.after m) rest i s

def constants (c : ClassInfo) (ks : List EnumConstant) (i : Ident) (s : Symbol) : Prop :=
  ∃ k ∈ ks, i = k.name ∧ (MemberNames.start c).field k.name.text .enumConstant = .ok s

def components (c : ClassInfo) (ps : List Param) (i : Ident) (s : Symbol) : Prop :=
  ∃ p ∈ ps, i = p.name ∧ (MemberNames.start c).field p.name.text .field = .ok s

def typeParams (vars : List (String × Symbol)) (ps : List TypeParam) (i : Ident) (s : Symbol) : Prop :=
  ∃ p ∈ ps, i = p.name ∧ bound vars p = some s

/-- What all identifiers of a class are to be defined with, its own name among them. -/
inductive ofClass (c : ClassInfo) (vars : List (String × Symbol)) (b : ClassSyntax) :
    Ident → Symbol → Prop
  | name {i} : b.name? = some i → ofClass c vars b i c.symbol
  | typeParam {i s} : typeParams vars b.typeParams i s → ofClass c vars b i s
  | constant {i s} : constants c b.body.constants i s → ofClass c vars b i s
  | component {i s} : components c b.body.components i s → ofClass c vars b i s
  | member {i s} : members (.start c) b.body.members i s → ofClass c vars b i s

end Plan
end JavaIndex
