import JavaIndex.Environment.Outline
import JavaIndex.Environment.ValueNames
import Mathlib.Data.List.Basic

/-! Where a class is declared is told to no one who looks up names: if the classes of an environment change
nothing but the place of their declaration, whatever is looked up changes nothing else either. Only whether
a class is declared in a body must stay. -/
namespace JavaIndex

/-- New places for the declarations of classes. -/
structure Homes where
  move : Origin → Origin
  isLocal : ∀ o, move o = .local ↔ o = .local

namespace Homes

/-- All classes stay where they are. -/
def same : Homes := ⟨id, fun _ => Iff.rfl⟩

def classInfo (h : Homes) (c : ClassInfo) : ClassInfo := { c with origin := h.move c.origin }

def ancestor (h : Homes) (a : Ancestor) : Ancestor := { a with info := h.classInfo a.info }

def typeBinding (h : Homes) : TypeBinding → TypeBinding
  | .ofClass c => .ofClass (h.classInfo c)
  | .typeParam name symbol => .typeParam name symbol

def scope (h : Homes) (s : Scope) : Scope :=
  { s with
    classInfo := s.classInfo.map h.classInfo
    types := s.types.map fun b => (b.1, h.typeBinding b.2) }

def scopes (h : Homes) (ss : Scopes) : Scopes := ss.map h.scope

def place (h : Homes) (p : Place) : Place := { p with scopes := h.scopes p.scopes }

def segment (h : Homes) : Segment → Segment
  | .ofClass c => .ofClass (h.classInfo c)
  | .package symbol => .package symbol
  | .typeParam name symbol => .typeParam name symbol
  | .unresolved => .unresolved

def receiver (h : Homes) : Receiver → Receiver
  | .ofClass c => .ofClass (h.classInfo c)
  | .value type => .value type
  | .unknown => .unknown

def selected (h : Homes) (s : Selected) : Selected := { s with receiver := h.receiver s.receiver }

/-- The classes of one environment are those of another one in their new places. -/
structure Moves (h : Homes) (env env' : Environment) : Prop where
  inBodies : ∀ name : String, env'.locals[name]? = env.locals[name]?.map h.classInfo
  bodyCount : env'.locals.size = env.locals.size
  outside : ∀ name, (env'.project.class? name).or (env'.external.class? name) =
    ((env.project.class? name).or (env.external.class? name)).map h.classInfo
  count : env'.project.size + env'.external.size = env.project.size + env.external.size
  constants : ∀ c name, env'.external.constant? c name = env.external.constant? c name
  packages : ∀ p, env'.hasPackage p = env.hasPackage p
  own : ∀ p, env'.project.hasPackage p = env.project.hasPackage p

/-- Nothing is told of an environment that has not moved. -/
theorem Moves.same (env : Environment) : Homes.same.Moves env env where
  inBodies name := by cases env.locals[name]? <;> rfl
  bodyCount := rfl
  outside name := by cases (env.project.class? name).or (env.external.class? name) <;> rfl
  count := rfl
  constants _ _ := rfl
  packages _ := rfl
  own _ := rfl

section

variable (h : Homes) (c : ClassInfo)

@[simp] theorem classInfo_qualifiedName : (h.classInfo c).qualifiedName = c.qualifiedName := rfl
@[simp] theorem classInfo_symbol : (h.classInfo c).symbol = c.symbol := rfl
@[simp] theorem classInfo_superclass : (h.classInfo c).superclass = c.superclass := rfl
@[simp] theorem classInfo_selfType : (h.classInfo c).selfType = c.selfType := rfl
@[simp] theorem classInfo_typeParamSymbols :
    (h.classInfo c).typeParamSymbols = c.typeParamSymbols := rfl
@[simp] theorem receiver_type (r : Receiver) : (h.receiver r).type = r.type := by cases r <;> rfl
@[simp] theorem ancestor_name (a : Ancestor) : (h.ancestor a).name = a.name := rfl
@[simp] theorem segment_symbol? (s : Segment) : (h.segment s).symbol? = s.symbol? := by
  cases s <;> rfl
@[simp] theorem segment_class? (s : Segment) :
    (h.segment s).class? = s.class?.map h.classInfo := by
  cases s <;> rfl

end

/-! Scopes. -/

section

variable (h : Homes)

theorem scope_value? (s : Scope) (name : String) : (h.scope s).value? name = s.value? name := rfl

theorem scope_type? (s : Scope) (name : String) :
    (h.scope s).type? name = (s.type? name).map h.typeBinding := by
  unfold Scope.type? scope
  rw [List.find?_map, Option.map_map, Option.map_map]
  rfl

@[simp] theorem scopes_push (ss : Scopes) (kind : ScopeKind) (owner : Option Symbol) :
    h.scopes (ss.push kind owner) = (h.scopes ss).push kind owner := rfl

@[simp] theorem scopes_pushClass (ss : Scopes) (c : ClassInfo) (vars : List (String × Symbol)) :
    h.scopes (ss.pushClass c vars) = (h.scopes ss).pushClass (h.classInfo c) vars := by
  simp [scopes, scope, Scopes.pushClass, Scope.ofClass, Scope.opened, typeBinding, Function.comp_def]

@[simp] theorem scopes_bindValue (ss : Scopes) (name : String) (b : ValueBinding) :
    h.scopes (ss.bindValue name b) = (h.scopes ss).bindValue name b := by
  cases ss <;> rfl

@[simp] theorem scopes_bindType (ss : Scopes) (name : String) (b : TypeBinding) :
    h.scopes (ss.bindType name b) = (h.scopes ss).bindType name (h.typeBinding b) := by
  cases ss <;> rfl

@[simp] theorem scopes_enclosingClass? (ss : Scopes) :
    (h.scopes ss).enclosingClass? = ss.enclosingClass?.map h.classInfo := by
  unfold Scopes.enclosingClass? scopes
  rw [List.findSome?_map, List.map_findSome?]
  rfl

theorem scopes_enclosingClasses (ss : Scopes) :
    (h.scopes ss).enclosingClasses = ss.enclosingClasses.map h.classInfo := by
  unfold Scopes.enclosingClasses scopes
  rw [List.filterMap_map, List.map_filterMap]
  rfl

@[simp] theorem scopes_pushTypeParams (ss : Scopes) (params : List TypeParam)
    (symbol? : TypeParam → Option Symbol) :
    h.scopes (ss.pushTypeParams params symbol?) = (h.scopes ss).pushTypeParams params symbol? := by
  unfold Scopes.pushTypeParams
  rw [← scopes_push]
  generalize ss.push .methodBody none = inner
  induction params generalizing inner with
  | nil => rfl
  | cons p rest ih =>
    rw [List.foldl_cons, List.foldl_cons, ih]
    cases symbol? p with
    | none => rfl
    | some s => rw [scopes_bindType]; rfl

end

namespace Moves

variable {h : Homes} {env env' : Environment}

section

variable (moves : h.Moves env env')

include moves

theorem class? (name : String) : env'.class? name = (env.class? name).map h.classInfo := by
  rw [Environment.class?, Environment.class?, Option.or_assoc, Option.or_assoc, moves.inBodies,
    moves.outside, ← Option.map_or]

theorem packageSymbol (name : String) : env'.packageSymbol name = env.packageSymbol name := by
  rw [Environment.packageSymbol, Environment.packageSymbol, moves.own]

theorem listedCount : env'.listedCount = env.listedCount := by
  have body := moves.bodyCount
  have rest := moves.count
  rw [Environment.listedCount, Environment.listedCount]
  omega

theorem constant? (c : ClassInfo) (name : String) :
    env'.external.constant? (h.classInfo c) name = env.external.constant? c name :=
  moves.constants c name

theorem addLocal (c : ClassInfo) : h.Moves (env.addLocal c) (env'.addLocal (h.classInfo c)) where
  inBodies name := by
    simp only [Environment.addLocal, Std.TreeMap.getElem?_insert, classInfo_qualifiedName]
    split
    · rfl
    · exact moves.inBodies name
  bodyCount := by
    have known : env'.locals.contains c.qualifiedName = env.locals.contains c.qualifiedName := by
      rw [Std.TreeMap.contains_eq_isSome_getElem?, Std.TreeMap.contains_eq_isSome_getElem?,
        moves.inBodies, Option.isSome_map]
    simp only [Environment.addLocal, Std.TreeMap.size_insert, classInfo_qualifiedName,
      known, moves.bodyCount]
  outside := moves.outside
  count := moves.count
  constants := moves.constants
  packages := moves.packages
  own := moves.own

/-! Supertypes. -/

theorem instance? (t : JavaType) : env'.instance? t = (env.instance? t).map h.ancestor := by
  cases t with
  | named name args =>
    simp only [Environment.instance?, moves.class?, Option.map_map]
    rfl
  | _ => rfl

theorem parents (a : Ancestor) : env'.parents (h.ancestor a) = (env.parents a).map h.ancestor := by
  unfold Environment.parents
  rw [List.map_filterMap]
  exact List.filterMap_congr fun t _ => moves.instance? _

omit moves in
theorem unseen (seen : List String) (as : List Ancestor) :
    Environment.unseen seen (as.map h.ancestor) = (Environment.unseen seen as).map h.ancestor := by
  induction as generalizing seen with
  | nil => rfl
  | cons a as ih =>
    rw [List.map_cons, Environment.unseen, Environment.unseen, ancestor_name]
    split
    · exact ih seen
    · rw [List.map_cons, ih]

theorem generations (n : Nat) (seen : List String) (as : List Ancestor) :
    env'.generations n seen (as.map h.ancestor) = (env.generations n seen as).map h.ancestor := by
  induction n generalizing seen as with
  | zero => cases as <;> rfl
  | succ n ih =>
    cases as with
    | nil => rfl
    | cons a rest =>
      have next : Environment.unseen seen (((a :: rest).map h.ancestor).flatMap env'.parents) =
          (Environment.unseen seen ((a :: rest).flatMap env.parents)).map h.ancestor := by
        rw [← unseen, List.map_flatMap, List.flatMap_map]
        congr 1
        exact List.flatMap_congr fun b _ => moves.parents b
      rw [List.map_cons] at next
      simp only [List.map_cons, Environment.generations, next, List.map_map]
      rw [ih, List.map_append, List.map_cons]
      rfl

theorem root? : env'.root? = env.root?.map h.ancestor := by
  rw [Environment.root?, Environment.root?, moves.class?, Option.map_map, Option.map_map]
  rfl

theorem origin? (t : JavaType) : env'.origin? t = (env.origin? t).map h.ancestor := by
  cases t with
  | «variable» name => exact moves.root?
  | _ => simp only [Environment.origin?, moves.instance?]

theorem hierarchy (t : JavaType) : env'.hierarchy t = (env.hierarchy t).map h.ancestor := by
  unfold Environment.hierarchy
  rw [moves.origin?]
  cases env.origin? t with
  | none => rfl
  | some a =>
    simp only [Option.map_some, moves.listedCount, ancestor_name]
    rw [show [h.ancestor a] = [a].map h.ancestor from rfl, moves.generations, moves.root?, List.any_map]
    simp only [Function.comp_def, ancestor_name, apply_ite (List.map h.ancestor), List.map_append]
    cases env.root? <;> rfl

/-- What is asked of the supertypes one after the other. -/
theorem findSome_hierarchy {α β : Type} (t : JavaType) (f' : Ancestor → Option β) (f : Ancestor → Option α)
    (move : α → β) (each : ∀ a, f' (h.ancestor a) = (f a).map move) :
    (env'.hierarchy t).findSome? f' = ((env.hierarchy t).findSome? f).map move := by
  rw [moves.hierarchy, List.findSome?_map, List.map_findSome?]
  congr 1
  funext a
  exact each a

/-! Members. -/

theorem memberType? (c : ClassInfo) (name : String) :
    env'.memberType? (h.classInfo c) name = (env.memberType? c name).map h.classInfo :=
  moves.findSome_hierarchy _ _ _ _ fun _ => moves.class? _

theorem declaredField? (a : Ancestor) (name : String) :
    env'.declaredField? (h.ancestor a) name = env.declaredField? a name := by
  unfold Environment.declaredField?
  rw [show (h.ancestor a).info.field? name = a.info.field? name from rfl]
  split
  · rfl
  · exact moves.constant? a.info name

theorem field? (t : JavaType) (name : String) : env'.field? t name = env.field? t name := by
  have each : ∀ a, env'.declaredField? (h.ancestor a) name = (env.declaredField? a name).map id := by
    intro a
    rw [moves.declaredField?, Option.map_id]
    rfl
  have all := moves.findSome_hierarchy t (env'.declaredField? · name) (env.declaredField? · name) id each
  rw [Option.map_id] at all
  exact all

theorem methods (t : JavaType) (name : String) : env'.methods t name = env.methods t name := by
  unfold Environment.methods
  rw [moves.hierarchy, List.flatMap_map]
  rfl

theorem overridden (c : ClassInfo) (name : String) (params : List JavaType) :
    env'.overridden (h.classInfo c) name params = env.overridden c name params := by
  unfold Environment.overridden
  rw [classInfo_selfType, moves.hierarchy, ← List.map_drop, List.flatMap_map]
  rfl

/-! Names of types. -/

theorem scopeType? (name : String) (s : Scope) :
    env'.scopeType? name (h.scope s) = (env.scopeType? name s).map h.typeBinding := by
  unfold Environment.scopeType?
  rw [scope_type?, Option.map_or]
  congr 1
  rw [show (h.scope s).classInfo = s.classInfo.map h.classInfo from rfl]
  cases s.classInfo with
  | none => rfl
  | some c =>
    simp only [Option.map_some]
    rw [show (h.classInfo c).simpleName = c.simpleName from rfl,
      show Environment.isWritable (h.classInfo c) = Environment.isWritable c from rfl]
    split
    · rfl
    · rw [moves.memberType?, Option.map_map, Option.map_map]
      rfl

theorem simpleType? (p : Place) (name : String) :
    env'.simpleType? (h.place p) name = (env.simpleType? p name).map h.typeBinding := by
  unfold Environment.simpleType?
  have inScopes : (h.place p).scopes.findSome? (env'.scopeType? name) =
      (p.scopes.findSome? (env.scopeType? name)).map h.typeBinding := by
    rw [place, scopes, List.findSome?_map, List.map_findSome?]
    congr 1
    funext s
    exact moves.scopeType? name s
  have imported : ((h.place p).imports.typeCandidates name).findSome? env'.class? =
      ((p.imports.typeCandidates name).findSome? env.class?).map h.classInfo := by
    rw [List.map_findSome?]
    congr 1
    funext n
    exact moves.class? n
  rw [inScopes, imported, Option.map_or, Option.map_map, Option.map_map]
  rfl

theorem memberPath (c : ClassInfo) (names : List String) :
    env'.memberPath (h.classInfo c) names = (env.memberPath c names).map h.segment := by
  induction names generalizing c with
  | nil => rfl
  | cons name rest ih =>
    rw [Environment.memberPath, Environment.memberPath, moves.memberType?]
    cases env.memberType? c name with
    | none => simp [segment]
    | some inner => simp only [Option.map_some, ih, List.map_cons]; rfl

/-- A class that a package leads to. -/
def below (h : Homes) (found : List String × ClassInfo × List String) :
    List String × ClassInfo × List String :=
  (found.1, h.classInfo found.2.1, found.2.2)

theorem classBelow? (package names : List String) :
    env'.classBelow? package names = (env.classBelow? package names).map (below h) := by
  induction names generalizing package with
  | nil => rfl
  | cons name rest ih =>
    rw [Environment.classBelow?, Environment.classBelow?, moves.packages, moves.class?]
    split
    · rfl
    · cases env.class? (Dotted.within (Dotted.join package) name) with
      | none => exact ih _
      | some c => rfl

theorem qualifiedClass? (path : List String) :
    env'.qualifiedClass? path = (env.qualifiedClass? path).map (below h) := by
  cases path with
  | nil => rfl
  | cons first rest => exact moves.classBelow? [first] rest

theorem packagePath (package : List String) :
    (env.packagePath package).map h.segment = env'.packagePath package := by
  rw [Environment.packagePath, Environment.packagePath, List.map_map]
  apply List.map_congr_left
  intro name _
  simp [segment, moves.packageSymbol]

theorem knownPackages (path : List String) :
    (env.knownPackages path).map h.segment = env'.knownPackages path := by
  have known : env'.hasPackage = env.hasPackage := funext moves.packages
  rw [Environment.knownPackages, Environment.knownPackages, known, List.map_append, List.map_map,
    List.map_replicate]
  congr 1
  apply List.map_congr_left
  intro name _
  simp [segment, moves.packageSymbol]

theorem qualified (path : List String) :
    env'.qualified path = (env.qualified path).map h.segment := by
  unfold Environment.qualified
  rw [moves.qualifiedClass?]
  cases env.qualifiedClass? path with
  | none => exact (moves.knownPackages path).symm
  | some found =>
    obtain ⟨package, c, rest⟩ := found
    simp only [Option.map_some, below, List.map_append, List.map_cons, moves.packagePath,
      moves.memberPath]
    rfl

theorem typePath (p : Place) (names : List String) :
    env'.typePath (h.place p) names = (env.typePath p names).map h.segment := by
  cases names with
  | nil => rfl
  | cons first rest =>
    rw [Environment.typePath, Environment.typePath, moves.simpleType?]
    cases env.simpleType? p first with
    | none =>
      simp only [Option.map_none]
      split
      · rfl
      · exact moves.qualified _
    | some b =>
      cases b with
      | ofClass c => simp only [Option.map_some, typeBinding, List.map_cons, moves.memberPath]; rfl
      | typeParam name symbol => simp [typeBinding, segment]

omit moves in
theorem typeOfPath (path : List Segment) (names : List String) (args : List JavaType) :
    Environment.typeOfPath (path.map h.segment) names args = Environment.typeOfPath path names args := by
  unfold Environment.typeOfPath
  rw [List.getLast?_map]
  cases path.getLast? with
  | none => rfl
  | some s => cases s <;> rfl

end

mutual

theorem convert {A : Type} (moves : h.Moves env env') (p : Place) : ∀ t : WrittenType A,
    env'.convert (h.place p) t = env.convert p t
  | .primitive _ _ => rfl
  | .array element _ _ => by rw [Environment.convert, convert moves p element, Environment.convert]
  | .named segments _ => by
    rw [Environment.convert, Environment.convert, lastArgs moves p segments, moves.typePath, typeOfPath]

theorem lastArgs {A : Type} (moves : h.Moves env env') (p : Place) : ∀ ss : List (TypeSegment A),
    env'.lastArgs (h.place p) ss = env.lastArgs p ss
  | [] => rfl
  | [⟨_, _, args⟩] => by rw [Environment.lastArgs, Environment.lastArgs, convertArgList moves p args]
  | _ :: s :: rest => by rw [Environment.lastArgs, Environment.lastArgs, lastArgs moves p (s :: rest)]

theorem convertArgList {A : Type} (moves : h.Moves env env') (p : Place) : ∀ args : Option (List (TypeArg A)),
    env'.convertArgList (h.place p) args = env.convertArgList p args
  | none => rfl
  | some args => by rw [Environment.convertArgList, Environment.convertArgList, convertArgs moves p args]

theorem convertArgs {A : Type} (moves : h.Moves env env') (p : Place) : ∀ args : List (TypeArg A),
    env'.convertArgs (h.place p) args = env.convertArgs p args
  | [] => rfl
  | arg :: rest => by
    rw [Environment.convertArgs, Environment.convertArgs, convertArg moves p arg, convertArgs moves p rest]

theorem convertArg {A : Type} (moves : h.Moves env env') (p : Place) : ∀ arg : TypeArg A,
    env'.convertArg (h.place p) arg = env.convertArg p arg
  | .type t => by rw [Environment.convertArg, Environment.convertArg, convert moves p t]
  | .wildcard _ => rfl
  | .bounded .upper t _ => by rw [Environment.convertArg, Environment.convertArg, convert moves p t]
  | .bounded .lower _ _ => rfl

end

section

variable (moves : h.Moves env env')

include moves

theorem convertParam (p : Place) (param : Param) :
    env'.convertParam (h.place p) param = env.convertParam p param := by
  rw [Environment.convertParam, Environment.convertParam, moves.convert]

/-! Names of values. -/

theorem scopeValue? (name : String) (s : Scope) :
    env'.scopeValue? name (h.scope s) = env.scopeValue? name s := by
  unfold Environment.scopeValue?
  rw [scope_value?, show (h.scope s).classInfo = s.classInfo.map h.classInfo from rfl]
  cases s.classInfo with
  | none => rw [Option.map_none, Option.bind_none, Option.bind_none]
  | some c => simp only [Option.map_some, Option.bind_some, classInfo_selfType, moves.field?]

theorem staticOwners (p : Place) (name : String) :
    env'.staticOwners (h.place p) name = (env.staticOwners p name).map h.classInfo := by
  unfold Environment.staticOwners
  rw [List.map_filterMap]
  exact List.filterMap_congr fun n _ => moves.class? n

theorem value? (p : Place) (name : String) : env'.value? (h.place p) name = env.value? p name := by
  unfold Environment.value?
  rw [moves.staticOwners, List.findSome?_map, place, scopes, List.findSome?_map]
  congr 1
  · congr 1
    funext s
    exact moves.scopeValue? name s
  · congr 1
    funext c
    simp only [Function.comp_apply, classInfo_selfType, moves.field?]

theorem callables (p : Place) (name : String) :
    env'.callables (h.place p) name = env.callables p name := by
  unfold Environment.callables
  have around : (h.place p).scopes.enclosingClasses.findSome? (fun c =>
      some (env'.methods c.selfType name) |>.filter (!·.isEmpty)) =
      p.scopes.enclosingClasses.findSome? fun c =>
        some (env.methods c.selfType name) |>.filter (!·.isEmpty) := by
    rw [place, scopes_enclosingClasses, List.findSome?_map]
    congr 1
    funext c
    simp only [Function.comp_apply, classInfo_selfType, moves.methods]
  have imported : (env'.staticOwners (h.place p) name).flatMap (fun c => env'.methods c.selfType name) =
      (env.staticOwners p name).flatMap fun c => env.methods c.selfType name := by
    rw [moves.staticOwners, List.flatMap_map]
    exact List.flatMap_congr fun c _ => moves.methods _ _
  rw [around, imported]

theorem member? (r : Receiver) (name : String) :
    env'.member? (h.receiver r) name = (env.member? r name).map h.selected := by
  have field (t : JavaType) : (env'.field? t name).map Selected.ofField =
      ((env.field? t name).map Selected.ofField).map h.selected := by
    rw [moves.field?, Option.map_map]
    rfl
  cases r with
  | unknown => rfl
  | ofClass c =>
    rw [receiver, Environment.member?, Environment.member?, classInfo_selfType, field, moves.memberType?,
      Option.map_or, Option.map_map]
    cases env.memberType? c name <;> rfl
  | value t =>
    cases t with
    | array e =>
      simp only [receiver, Environment.member?, field]
      split <;> rfl
    | _ => simp only [receiver, Environment.member?, field]

/-- The beginning of a chain. -/
def head (h : Homes) (found : List Selected × Receiver × List String) :
    List Selected × Receiver × List String :=
  (found.1.map h.selected, h.receiver found.2.1, found.2.2)

theorem chainHead? (p : Place) (names : List String) :
    env'.chainHead? (h.place p) names = (env.chainHead? p names).map (head h) := by
  cases names with
  | nil => rfl
  | cons first rest =>
    rw [Environment.chainHead?, Environment.chainHead?, moves.value?]
    cases env.value? p first with
    | some b => rfl
    | none =>
      rw [moves.simpleType?]
      cases env.simpleType? p first with
      | some b => cases b <;> rfl
      | none =>
        simp only [Option.map_none, moves.qualifiedClass?]
        cases env.qualifiedClass? (first :: rest) with
        | none => rfl
        | some found =>
          obtain ⟨package, c, rest⟩ := found
          simp only [Option.map_some, below, head, List.map_append, List.map_map]
          congr 3
          apply List.map_congr_left
          intro name _
          simp [selected, receiver, moves.packageSymbol]

theorem memberChain (r : Receiver) (names : List String) :
    env'.memberChain (h.receiver r) names = (env.memberChain r names).map h.selected := by
  induction names generalizing r with
  | nil => rfl
  | cons name rest ih =>
    rw [Environment.memberChain, Environment.memberChain, moves.member?]
    cases env.member? r name with
    | none => rfl
    | some s => simp only [Option.map_some, List.map_cons, ← ih]; rfl

theorem chain (p : Place) (names : List String) :
    env'.chain (h.place p) names = (env.chain p names).map h.selected := by
  unfold Environment.chain
  rw [moves.chainHead?]
  cases env.chainHead? p names with
  | none => rfl
  | some found =>
    obtain ⟨first, r, rest⟩ := found
    simp only [Option.map_some, head, List.map_append, moves.memberChain]

/-! Heads of declarations. -/

theorem knownTypes (p : Place) (types : List TypeRef) :
    env'.knownTypes (h.place p) types = env.knownTypes p types := by
  unfold Environment.knownTypes
  congr 1
  exact List.map_congr_left fun t _ => moves.convert p t

theorem supertypesOf (p : Place) (d : TypeDecl) (c : ClassInfo) :
    env'.supertypesOf (h.place p) d (h.classInfo c) = env.supertypesOf p d c := by
  unfold Environment.supertypesOf
  simp only [moves.knownTypes, classInfo_qualifiedName, classInfo_selfType]
  rfl

theorem componentTypes (p : Place) (components : List Param) :
    env'.componentTypes (h.place p) components = env.componentTypes p components := by
  unfold Environment.componentTypes
  exact List.map_congr_left fun c _ => by rw [moves.convertParam]

theorem callableTypes (p : Place) (components : List (Ident × JavaType)) (m : MethodDecl) :
    env'.callableTypes (h.place p) components m = env.callableTypes p components m := by
  unfold Environment.callableTypes
  have params : m.params.map (env'.convertParam (h.place p)) = m.params.map (env.convertParam p) :=
    List.map_congr_left fun c _ => moves.convertParam p c
  have returns : m.returns.map (env'.convert (h.place p)) = m.returns.map (env.convert p) := by
    cases m.returns with
    | none => rfl
    | some t => rw [Option.map_some, Option.map_some, moves.convert]
  rw [params, returns]

end

end Moves
end Homes

/-! Projects that differ in where they declare their classes, and in nothing else. To those who look up
names both are one project, in which nobody can tell a file from a library any more. -/

/-- All places outside bodies, as one. -/
def Origin.blurred : Origin → Origin
  | .local => .local
  | .project _ | .external => .external

/-- All classes outside bodies in one place. -/
def Homes.blurred : Homes where
  move := Origin.blurred
  isLocal o := by cases o <;> simp [Origin.blurred]

namespace ProjectClasses

/-- The same project without the places of its classes. -/
def blurred (p : ProjectClasses) : ProjectClasses :=
  { p with classes := p.classes.map fun _ => Homes.blurred.classInfo }

theorem class?_blurred (p : ProjectClasses) (name : String) :
    p.blurred.class? name = (p.class? name).map Homes.blurred.classInfo :=
  Std.TreeMap.getElem?_map

theorem size_blurred (p : ProjectClasses) : p.blurred.size = p.size := Std.TreeMap.size_map

/-- Two projects differ at most in the places of their classes. -/
structure Alike (p q : ProjectClasses) : Prop where
  classes : ∀ name, (p.class? name).map Homes.blurred.classInfo = (q.class? name).map Homes.blurred.classInfo
  size : p.size = q.size
  packages : ∀ package, p.hasPackage package = q.hasPackage package

theorem Alike.refl (p : ProjectClasses) : p.Alike p := ⟨fun _ => rfl, rfl, fun _ => rfl⟩

theorem Alike.symm {p q : ProjectClasses} (alike : p.Alike q) : q.Alike p :=
  ⟨fun name => (alike.classes name).symm, alike.size.symm, fun package => (alike.packages package).symm⟩

end ProjectClasses

namespace ExternalTable

/-- The same libraries, each class with no place but that of libraries. -/
def blurred (t : ExternalTable) : ExternalTable :=
  { t with classes := t.classes.map fun _ => Homes.blurred.classInfo }

/-- What is generated has that place already. -/
theorem generated_blurred {parts : Resources.Name} {entry : ResourceEntry}
    (made : Resources.generate? parts = some entry) :
    (entryClass? entry).map Homes.blurred.classInfo = entryClass? entry := by
  unfold Resources.generate? at made
  split at made
  · cases made
    rfl
  · simp only at made
    split at made
    · cases made
    · split at made <;> cases made <;> rfl

theorem resource?_blurred (t : ExternalTable) (name : String) :
    ((t.resource? name).bind entryClass?).map Homes.blurred.classInfo =
      (t.resource? name).bind entryClass? := by
  cases found : t.resource? name with
  | none => rfl
  | some entry =>
    obtain ⟨parts, -, made⟩ := Option.bind_eq_some_iff.mp found
    split at made
    · exact generated_blurred made
    · cases made

theorem class?_blurred (t : ExternalTable) (name : String) :
    t.blurred.class? name = (t.class? name).map Homes.blurred.classInfo := by
  have listed : t.blurred.classes[name]? = t.classes[name]?.map Homes.blurred.classInfo :=
    Std.TreeMap.getElem?_map
  rw [class?, class?, listed, Option.map_or, resource?_blurred]
  rfl

theorem size_blurred (t : ExternalTable) : t.blurred.size = t.size := Std.TreeMap.size_map

end ExternalTable

/-- What is known with the one project and with the other is, up to the places of classes, one and the
same. -/
theorem ProjectClasses.Alike.moves {p q : ProjectClasses} (alike : p.Alike q) (external : ExternalTable) :
    Homes.blurred.Moves (.start p external) (.start q.blurred external.blurred) where
  inBodies _ := rfl
  bodyCount := rfl
  outside name := by
    change (q.blurred.class? name).or (external.blurred.class? name) =
      ((p.class? name).or (external.class? name)).map Homes.blurred.classInfo
    rw [class?_blurred, ExternalTable.class?_blurred, ← alike.classes, Option.map_or]
  count := by
    change q.blurred.size + external.blurred.size = p.size + external.size
    rw [size_blurred, ExternalTable.size_blurred, alike.size]
  constants _ _ := rfl
  packages package := congrArg (· || external.hasPackage package) (alike.packages package).symm
  own package := (alike.packages package).symm

end JavaIndex
