import JavaIndex.Proofs.Project.Names

/-! How the plan of a class outside all bodies agrees with its description. Every symbol of the plan is made
of the symbol of the class by steps that tell the identifier; so no two identifiers share one, unless the
class repeats a name. -/
namespace JavaIndex

variable {c : ClassInfo} {env : Environment} {place : Place} {d : TypeDecl} {i : Ident} {s : Symbol}

/-- A class that has been described as its declaration says. -/
structure ClassInfo.Declares (c : ClassInfo) (env : Environment) (place : Place) (d : TypeDecl) : Prop where
  type : c.symbol.IsType
  kind : c.symbol.kind = .ofDecl d.kind
  outside : c.origin ≠ .local
  typeParams : c.typeParams = d.typeParams.map fun p => p.name.text
  fields : List.Forall₂ (DeclaredField c) (ClassBody.ofDecl d).fieldNames c.fields
  methods : ∀ before m after, d.members = before ++ .method m :: after → m.isConstructor = false →
    ∃ info, c.methods[methodCount before]? = some info ∧
      DeclaredMethod c env place (.ofDecl d) before m info
  constructors : Symbol.mayConstruct c.symbol.kind = true → ∀ before m after,
    d.members = before ++ .method m :: after → m.isConstructor = true →
      ∃ info, c.constructors[constructorCount before]? = some info ∧
        DeclaredMethod c env place (.ofDecl d) before m info
  constructorCount : c.constructors.length =
    if Symbol.mayConstruct c.symbol.kind then constructorCount d.members else 0
  implied : ∀ m ∈ c.methods.drop (methodCount d.members), Implied (.ofDecl d) m

/-- Only the names of the members decide how the next ones are named. -/
theorem MemberNames.callable_congr {c c' : ClassInfo} (symbol : c.symbol = c'.symbol)
    (outside : c.origin ≠ .local) (outside' : c'.origin ≠ .local) (before : List Member) (m : MethodDecl) :
    (past c before).callable m = (past c' before).callable m := by
  rw [SoFar.callable_outside _ outside, SoFar.callable_outside _ outside', past_seen, past_seen, symbol]

theorem ClassInfo.MembersOf.declares {final c : ClassInfo} (h : final.MembersOf c env place (.ofDecl d))
    (type : c.symbol.IsType) (kind : c.symbol.kind = .ofDecl d.kind) (outside : c.origin ≠ .local)
    (typeParams : c.typeParams = d.typeParams.map fun p => p.name.text) : final.Declares env place d := by
  obtain ⟨own, implied, split, free, members⟩ := h.members
  have symbol : final.symbol = c.symbol := by rw [h.header]
  have origin : final.origin ≠ .local := by
    rw [h.header]
    exact outside
  have declared {before : List Member} {m : MethodDecl} {info : MethodInfo}
      (h : DeclaredMethod c env place (.ofDecl d) before m info) :
      DeclaredMethod final env place (.ofDecl d) before m info :=
    ⟨(MemberNames.callable_congr symbol origin outside before m).trans h.symbol, h.name, h.params⟩
  refine ⟨symbol ▸ type, symbol ▸ kind, origin, by rw [h.header]; exact typeParams, ?_, ?_, ?_, ?_, ?_⟩
  · refine members.fields.imp fun i f ⟨name, made⟩ => ⟨name, ?_⟩
    rw [symbol]
    exact made
  · intro before m after here sort
    obtain ⟨info, found, method⟩ := members.methods before m after here sort
    refine ⟨info, ?_, declared method⟩
    rw [split, List.getElem?_append_left (List.getElem?_eq_some_iff.mp found).1, found]
  · intro may before m after here sort
    obtain ⟨info, found, method⟩ := members.constructors (symbol ▸ may) before m after here sort
    exact ⟨info, found, declared method⟩
  · rw [symbol]
    exact members.constructorCount
  · intro m hm
    have count : methodCount d.members = own.length := members.methodCount.symm
    rw [split, count, List.drop_left] at hm
    exact free m hm

theorem ProjectClasses.describe_header (units : List SourceUnit) (external : ExternalTable)
    (config : Config) {site : Site}
    (plain : ∀ m ∈ ClassBody.callablesOf site.decl.members, Plain m.name.text) :
    (describe units external config site).qualifiedName = site.name ∧
      (describe units external config site).symbol = site.symbol := by
  have header := (headerOf_of_members units external config plain
    (.start (headed units external config) external)).header
  rw [describe, header]
  exact ⟨rfl, rfl⟩

theorem ProjectClasses.describe_package (units : List SourceUnit) (external : ExternalTable)
    (config : Config) {site : Site}
    (plain : ∀ m ∈ ClassBody.callablesOf site.decl.members, Plain m.name.text) :
    (describe units external config site).package = site.package := by
  rw [describe, (headerOf_of_members units external config plain _).header]
  rfl

/-- The project knows a class of it by its declaration. -/
theorem ProjectClasses.describe_declares (units : List SourceUnit) (external : ExternalTable)
    (config : Config) {site : Site}
    (plain : ∀ m ∈ ClassBody.callablesOf site.decl.members, Plain m.name.text) :
    (describe units external config site).Declares (.start (headed units external config) external)
      (site.place (.start (headed units external config) external) config) site.decl :=
  (headerOf_of_members units external config plain _).declares site.symbol_isType rfl
    (by simp [headerOf, withSupertypes, Site.header]) rfl

/-- How many methods of its name stand before a method. -/
def overload (before : List Member) (m : MethodDecl) : Nat :=
  ((ClassBody.callablesOf before).map MemberNames.counted).count (MemberNames.counted m)

/-- The steps from the symbol of a class to those of the identifiers that it declares. -/
inductive Stands (d : TypeDecl) : Ident → List Descriptor → Prop
  | name : Stands d d.name []
  | typeParam {p} : p ∈ d.typeParams → Stands d p.name [.typeParameter p.name.text]
  | field {j} : j ∈ (ClassBody.ofDecl d).fieldNames → Stands d j [.term j.text]
  | method {before m after} : d.members = before ++ .method m :: after →
      Stands d m.name [.method (MemberNames.counted m) (overload before m)]
  | methodTypeParam {before m after p} : d.members = before ++ .method m :: after → p ∈ m.typeParams →
      Stands d p.name [.method (MemberNames.counted m) (overload before m), .typeParameter p.name.text]

/-- A symbol that is reached from another one by steps outside all bodies. -/
def Symbol.Below (owner s : Symbol) : Prop :=
  ∃ steps : List Descriptor, (∀ step ∈ steps, step.isLocal = false) ∧
    s.id = ⟨owner.scheme, owner.path ++ steps⟩

namespace Symbol.Below

theorem refl (s : Symbol) : s.Below s := ⟨[], by simp, by rw [List.append_nil]; rfl⟩

theorem trans {a b c : Symbol} (first : a.Below b) (second : b.Below c) : a.Below c := by
  obtain ⟨steps, outside, same⟩ := first
  obtain ⟨steps', outside', same'⟩ := second
  have scheme : b.scheme = a.scheme := by rw [Symbol.scheme, same]
  have path : b.path = a.path ++ steps := by rw [Symbol.path, same]
  refine ⟨steps ++ steps', fun step h => ?_, ?_⟩
  · exact (List.mem_append.mp h).elim (outside step) (outside' step)
  · rw [same', scheme, path, List.append_assoc]

theorem child {owner : Symbol} {step : Descriptor} {kind : SymbolKind} (outside : step.isLocal = false) :
    owner.Below (owner.child step kind) :=
  ⟨[step], by simpa using outside, rfl⟩

/-- What is declared inside an owner, unless it is numbered. -/
theorem ofDeclaration {owner : Symbol} {decl : Declaration} (made : ofDeclaration decl (some owner) = .ok s)
    (unnumbered : ∀ number kind, decl ≠ .local number kind) : owner.Below s := by
  have named := named_of_ofDeclaration made
  cases decl with
  | package name scheme =>
    simp only [Symbol.named] at named
    split at named
    · cases named
    · cases named
      exact ⟨_, by simp [Descriptor.isLocal], rfl⟩
  | «local» number kind => exact absurd rfl (unnumbered number kind)
  | _ =>
    -- every other declaration is one step further, if there can be one
    simp only [Symbol.named] at named
    repeat' split at named
    all_goals first
      | contradiction
      | exact Except.ok.inj named ▸ child rfl

end Symbol.Below

theorem Symbol.typeParameter_ok {owner : Symbol} {name : String}
    (made : ofDeclaration (.typeParameter name) (some owner) = .ok s) :
    s = owner.child (.typeParameter name) .typeParameter := by
  simp only [ofDeclaration, named] at made
  split at made
  · rename_i h
    split at h
    · cases h
    · split at h
      · cases h
      · cases h
        exact (Except.ok.inj made).symm
  · cases made

/-- A method goes by its description. -/
theorem DeclaredMethod.planned {vars : List (String × Symbol)} {before after : List Member} {m : MethodDecl}
    {info : MethodInfo} (method : DeclaredMethod c env place (.ofDecl d) before m info)
    (split : d.members = before ++ .method m :: after) :
    Plan.ofClass c vars (.declared d) m.name info.symbol :=
  .member (Plan.members_start.mpr
    ⟨before, .method m, after, split, info.symbol, method.symbol, .inl ⟨rfl, rfl⟩⟩)

namespace ClassInfo

theorem typeParamSymbols_eq (type : c.symbol.IsType) :
    c.typeParamSymbols = c.typeParams.map fun name =>
      (name, c.symbol.child (.typeParameter name) .typeParameter) := by
  simp only [typeParamSymbols, type.typeParameter, List.filterMap_eq_map']

namespace Declares

variable (h : c.Declares env place d)

include h

theorem bound {p : TypeParam} (declared : p ∈ d.typeParams) :
    Plan.bound c.typeParamSymbols p =
      some (c.symbol.child (.typeParameter p.name.text) .typeParameter) := by
  have matched : List.Forall₂ (fun (p : TypeParam) (v : String × Symbol) =>
      v.1 = p.name.text ∧ v.2 = c.symbol.child (.typeParameter p.name.text) .typeParameter)
      d.typeParams c.typeParamSymbols := by
    rw [typeParamSymbols_eq h.type, h.typeParams, List.map_map]
    exact List.forall₂_map_right_iff.mpr (List.forall₂_same.mpr fun _ _ => ⟨rfl, rfl⟩)
  obtain ⟨q, -, v, found, ⟨-, made⟩, same⟩ :=
    find_of_match matched (fun (p : TypeParam) _ h => show _ = p.name.text from h.1) declared
  have same : q.name.text = p.name.text := same
  rw [Plan.bound, show c.typeParamSymbols.find? _ = some v from found, Option.map_some, made, same]

theorem field (declared : i ∈ (ClassBody.ofDecl d).fieldNames) :
    ∃ f, c.field? i.text = some f ∧ ∃ kind, f.symbol = c.symbol.child (.term i.text) kind := by
  obtain ⟨j, -, f, found, ⟨-, kind, made⟩, same⟩ := find_of_match h.fields (fun _ _ h => h.1) declared
  exact ⟨f, found, kind, same ▸ made⟩

theorem callable {before : List Member} {m : MethodDecl}
    (named : (MemberNames.past c before).callable m = .ok s) :
    ∃ kind, s = c.symbol.child (.method (MemberNames.counted m) (overload before m)) kind := by
  have number : (MemberNames.past c before).seen.peek (MemberNames.counted m) = overload before m := by
    rw [MemberNames.past_seen, OverloadCounter.peek, List.count_reverse]
    rfl
  rw [SoFar.callable_outside _ h.outside, number] at named
  cases sort : m.isConstructor with
  | false =>
    have name : MemberNames.counted m = m.name.text := by simp [MemberNames.counted, sort]
    rw [sort] at named
    exact ⟨.method, (Except.ok.inj ((h.type.method _ _).symm.trans named)).symm.trans (by rw [name])⟩
  | true =>
    have name : MemberNames.counted m = Symbol.constructorName := by simp [MemberNames.counted, sort]
    rw [sort] at named
    cases may : Symbol.mayConstruct c.symbol.kind with
    | true =>
      exact ⟨.constructor, (Except.ok.inj ((h.type.constructor _ may).symm.trans named)).symm.trans
        (by rw [name])⟩
    | false => exact absurd named (h.type.no_constructor _ may s)

/-- What is planned for an identifier is where the identifier stands. -/
theorem planned (plan : Plan.ofClass c c.typeParamSymbols (.declared d) i s) :
    ∃ steps, Stands d i steps ∧ s.id = ⟨c.symbol.scheme, c.symbol.path ++ steps⟩ := by
  have ofField {i : Ident} {kind : SymbolKind} {names : MemberNames} (owner : names.info = c)
      (declared : i ∈ (ClassBody.ofDecl d).fieldNames) (named : names.field i.text kind = .ok s) :
      ∃ steps, Stands d i steps ∧ s.id = ⟨c.symbol.scheme, c.symbol.path ++ steps⟩ := by
    obtain ⟨f, found, kind, made⟩ := h.field declared
    simp only [MemberNames.field, owner, found, Except.ok.injEq] at named
    exact ⟨_, .field declared, by rw [← named, made]; rfl⟩
  cases plan with
  | name named =>
    cases Option.some.inj named
    exact ⟨[], .name, by rw [List.append_nil]; rfl⟩
  | typeParam planned =>
    obtain ⟨p, hp, rfl, bound⟩ := planned
    cases Option.some.inj (bound.symm.trans (h.bound hp))
    exact ⟨_, .typeParam hp, rfl⟩
  | constant planned =>
    obtain ⟨k, hk, rfl, named⟩ := planned
    exact ofField rfl (List.mem_append_left _ (List.mem_map_of_mem hk)) named
  | component planned =>
    obtain ⟨p, hp, rfl, named⟩ := planned
    refine ofField rfl (List.mem_append_right _ (List.mem_append_left _ ?_)) named
    exact List.mem_map_of_mem hp
  | member planned =>
    obtain ⟨before, m, after, split, planned⟩ := Plan.members_start.mp planned
    have split : d.members = before ++ m :: after := split
    cases m with
    | field decl doc range =>
      obtain ⟨v, hv, rfl, named⟩ := planned
      refine ofField (MemberNames.past_info c before) ?_ named
      exact List.mem_append_right _ (List.mem_append_right _
        (ClassBody.mem_fieldsOf.mpr ⟨before, decl, doc, range, after, split, v, hv, rfl⟩))
    | method m =>
      obtain ⟨method, named, planned⟩ := planned
      obtain ⟨kind, rfl⟩ := h.callable named
      obtain ⟨rfl, rfl⟩ | ⟨p, hp, rfl, made⟩ := planned
      · exact ⟨_, .method split, rfl⟩
      · refine ⟨_, .methodTypeParam split hp, ?_⟩
        rw [Symbol.typeParameter_ok made]
        simp [Symbol.child, Symbol.path, Symbol.scheme]
    | initializer isStatic body => exact planned.elim
    | type d => exact planned.elim

/-- What can be found in a class is planned for one of its identifiers, unless the class has it without declaring
it. -/
theorem offered (offers : Offers c s) : (∃ i, Plan.ofClass c c.typeParamSymbols (.declared d) i s) ∨
    ∃ m ∈ c.methods.drop (methodCount d.members), Implied (.ofDecl d) m ∧ m.symbol = s := by
  cases offers with
  | field found =>
    have named := h.fields.imp fun _ _ field => field.1
    exact .inl (LocalBody.field_planned (b := .declared d) named found)
  | @method info member =>
    obtain ⟨k, hk, rfl⟩ := List.getElem_of_mem member
    obtain less | more := Nat.lt_or_ge k (methodCount d.members)
    · obtain ⟨before, after, split, sort, rfl⟩ := ClassBody.callable_at.mp (List.getElem?_eq_getElem less)
      obtain ⟨info, found, method⟩ := h.methods before _ after split (by simpa using sort)
      cases Option.some.inj ((List.getElem?_eq_getElem hk).symm.trans found)
      exact .inl ⟨_, method.planned split⟩
    · have member : c.methods[k] ∈ c.methods.drop (methodCount d.members) := by
        refine List.mem_iff_getElem?.mpr ⟨k - methodCount d.members, ?_⟩
        rw [List.getElem?_drop, Nat.add_sub_cancel' more, List.getElem?_eq_getElem hk]
      exact .inr ⟨_, member, h.implied _ member, rfl⟩
  | @constructor info member =>
    obtain ⟨k, hk, rfl⟩ := List.getElem_of_mem member
    have count := h.constructorCount
    cases may : Symbol.mayConstruct c.symbol.kind with
    | false =>
      rw [may, if_neg Bool.false_ne_true] at count
      omega
    | true =>
      rw [may, if_pos rfl] at count
      have less : k < JavaIndex.constructorCount d.members := count ▸ hk
      obtain ⟨before, after, split, sort, rfl⟩ := ClassBody.callable_at.mp (List.getElem?_eq_getElem less)
      obtain ⟨info, found, method⟩ := h.constructors may before _ after split sort
      cases Option.some.inj ((List.getElem?_eq_getElem hk).symm.trans found)
      exact .inl ⟨_, method.planned split⟩

/-- Every type variable of a class is planned for one of its identifiers. -/
theorem typeParam_planned {v : String × Symbol} (hv : v ∈ c.typeParamSymbols) :
    ∃ i, Plan.ofClass c c.typeParamSymbols (.declared d) i v.2 := by
  rw [typeParamSymbols_eq h.type, h.typeParams, List.map_map] at hv
  obtain ⟨p, hp, rfl⟩ := List.mem_map.mp hv
  exact ⟨p.name, .typeParam ⟨p, hp, rfl, h.bound hp⟩⟩

/-- Whatever declaration a class goes by, what it plans for another one lies outside all bodies too. -/
theorem planned_below {d' : TypeDecl} (plan : Plan.ofClass c c.typeParamSymbols (.declared d') i s) :
    c.symbol.Below s := by
  have ofField {name : String} {kind : SymbolKind} {names : MemberNames} (owner : names.info = c)
      (named : names.field name kind = .ok s) : c.symbol.Below s := by
    cases found : c.field? name with
    | none =>
      simp only [MemberNames.field, owner, found] at named
      exact .ofDeclaration named (by rintro _ _ ⟨⟩)
    | some f =>
      simp only [MemberNames.field, owner, found, Except.ok.injEq] at named
      obtain ⟨k, hk, rfl⟩ := List.getElem_of_mem (List.mem_of_find?_eq_some found)
      have long : k < (ClassBody.ofDecl d).fieldNames.length := h.fields.length_eq ▸ hk
      obtain ⟨-, kind', made⟩ := (List.forall₂_iff_get.mp h.fields).2 k long hk
      rw [← named, show c.fields[k].symbol = _ from made]
      exact .child rfl
  cases plan with
  | name _ => exact .refl c.symbol
  | typeParam planned =>
    obtain ⟨p, -, -, bound⟩ := planned
    obtain ⟨v, found, rfl⟩ := Option.map_eq_some_iff.mp bound
    have hv := List.mem_of_find?_eq_some found
    rw [typeParamSymbols_eq h.type] at hv
    obtain ⟨name, -, rfl⟩ := List.mem_map.mp hv
    exact .child rfl
  | constant planned =>
    obtain ⟨k, -, -, named⟩ := planned
    exact ofField rfl named
  | component planned =>
    obtain ⟨p, -, -, named⟩ := planned
    exact ofField rfl named
  | member planned =>
    obtain ⟨before, m, after, -, planned⟩ := Plan.members_start.mp planned
    cases m with
    | field decl doc range =>
      obtain ⟨v, -, -, named⟩ := planned
      exact ofField (MemberNames.past_info c before) named
    | method m =>
      obtain ⟨method, named, planned⟩ := planned
      rw [SoFar.callable_outside _ h.outside] at named
      have below : c.symbol.Below method := .ofDeclaration named (by split <;> rintro _ _ ⟨⟩)
      obtain ⟨-, rfl⟩ | ⟨p, -, -, made⟩ := planned
      · exact below
      · exact below.trans (.ofDeclaration made (by rintro _ _ ⟨⟩))
    | initializer isStatic body => exact planned.elim
    | type d => exact planned.elim

end Declares
end ClassInfo

/-! A project that is built of files of plain words, none of which declares a type twice, is as resolution
relies on it to be: every class in a file is known under its name, as its declaration says. -/

/-- The words of a file are plain, those of its package too. -/
structure CompilationUnit.Worded (u : CompilationUnit) : Prop where
  nodes : Nodes.Worded (Nodes.unit u)
  package : ∀ p, u.package = some p → ∀ i ∈ p.name, Plain i.text

/-- The types of some files that stand outside all bodies. -/
def SourceUnit.sites (units : List SourceUnit) : List Site := units.flatMap Site.ofUnit

/-- No two types of some files have one qualified name. -/
def SourceUnit.Separate (units : List SourceUnit) : Prop := ((SourceUnit.sites units).map Site.name).Nodup

instance : DecidablePred SourceUnit.Separate := fun units =>
  inferInstanceAs (Decidable ((SourceUnit.sites units).map Site.name).Nodup)

section

variable {units : List SourceUnit} {u : SourceUnit} {site : Site}

theorem SourceUnit.mem_sites (hu : u ∈ units) (hs : site ∈ Site.ofUnit u) : site ∈ SourceUnit.sites units :=
  List.mem_flatMap.mpr ⟨u, hu, hs⟩

theorem Site.plain (worded : u.tree.Worded) (hs : site ∈ Site.ofUnit u) :
    ∀ m ∈ ClassBody.callablesOf site.decl.members, Plain m.name.text :=
  (worded.nodes.of_part ((Nodes.members_part site.decl).trans (Site.ofUnit_part hs))).callables

theorem Site.path_outside (s : Site) : ∀ step ∈ s.path, step.isLocal = false := by
  intro step h
  obtain h | h := List.mem_append.mp h
  · obtain ⟨_, -, rfl⟩ := List.mem_map.mp h
    rfl
  · obtain ⟨_, -, rfl⟩ := List.mem_map.mp h
    rfl

theorem house_of_outside {path : List Descriptor} (outside : ∀ step ∈ path, step.isLocal = false) :
    house path = path :=
  List.takeWhile_eq_self_iff.mpr fun step h => by simp [outside step h]

theorem Site.path_inType (s : Site) : InType s.path := by
  refine ⟨Dotted.last s.name, ?_⟩
  rw [house_of_outside s.path_outside]
  simp [Site.path]

/-- What the libraries declare belongs to them, and goes by its own name. -/
structure ExternalTable.Lawful (t : ExternalTable) : Prop where
  classes : ∀ name c, t.class? name = some c →
    (ClassName.Mentionable name → ClassName.Mentionable c.qualifiedName) ∧ c.symbol.scheme = .external ∧
      ∀ s, Offers c s → s.scheme = .external
  constants : ∀ c name f, t.constant? c name = some f → f.symbol.scheme = .external

namespace ProjectClasses

variable (external : ExternalTable) (config : Config)

/-- The classes of a project are those of its files. -/
theorem build_known (separate : SourceUnit.Separate units) (worded : ∀ u ∈ units, u.tree.Worded) :
    Covered (build units external config) (SourceUnit.sites units) (describe units external config) := by
  refine (build_latest external config fun s hs => ?_).covered separate
  obtain ⟨u, hu, hs⟩ := List.mem_flatMap.mp hs
  exact Site.plain (worded u hu) hs

theorem build_class? (worded : ∀ u ∈ units, u.tree.Worded) {name : String} {c : ClassInfo}
    (found : (build units external config).class? name = some c) :
    ∃ u ∈ units, ∃ s ∈ Site.ofUnit u, s.name = name ∧ c = describe units external config s := by
  have latest := build_latest external config (fun (s : Site) (hs : s ∈ SourceUnit.sites units) => by
    obtain ⟨u, hu, hs⟩ := List.mem_flatMap.mp hs
    exact Site.plain (worded u hu) hs) name
  obtain ⟨s, last, rfl⟩ := Option.map_eq_some_iff.mp (latest.symm.trans found)
  obtain ⟨hs, named⟩ := Site.latest?_some last
  obtain ⟨u, hu, hs⟩ := List.mem_flatMap.mp hs
  exact ⟨u, hu, s, hs, named, rfl⟩

/-- Every declared type has a class under its name, be it that of a later type of the same name. -/
theorem build_isSome (worded : ∀ u ∈ units, u.tree.Worded) (hu : u ∈ units) (hs : site ∈ Site.ofUnit u) :
    ∃ c, (build units external config).class? site.name = some c := by
  have latest := build_latest external config (fun (s : Site) (hs : s ∈ SourceUnit.sites units) => by
    obtain ⟨u, hu, hs⟩ := List.mem_flatMap.mp hs
    exact Site.plain (worded u hu) hs) site.name
  obtain ⟨s, last⟩ := Option.isSome_iff_exists.mp (Site.latest?_isSome (SourceUnit.mem_sites hu hs))
  exact ⟨_, latest.trans (congrArg (Option.map _) last)⟩

end ProjectClasses

/-- The classes of a project lie outside all bodies, and so does what is planned for them, whichever of several
types of one name a class goes by. -/
theorem World.ofUnit_grounded {source : String} {external : ExternalTable} {config : Config}
    {distinct lax : Prop} (hu : u ∈ units) (worded : ∀ u ∈ units, u.tree.Worded)
    (libraries : lax ∨ external.Lawful) :
    (World.ofUnit u source (.build units external config) external config distinct lax).Grounded where
  named name c found := by
    obtain ⟨u', hu', s, hs, rfl, rfl⟩ := ProjectClasses.build_class? _ _ worded found
    refine ⟨(ProjectClasses.describe_header _ _ _ (Site.plain (worded u' hu') hs)).1, ?_⟩
    exact (Site.ofUnit_spelled (worded u' hu').nodes (worded u' hu').package hs).1.unmarked
  sites site hs := by
    obtain ⟨c, found⟩ := ProjectClasses.build_isSome external config worded hu hs
    obtain ⟨u', hu', last, hlast, -, rfl⟩ := ProjectClasses.build_class? _ _ worded found
    have plain := Site.plain (worded u' hu') hlast
    have declares := ProjectClasses.describe_declares units external config plain
    have symbol := (ProjectClasses.describe_header units external config plain).2
    refine ⟨_, found, ?_, fun i s plan => ?_⟩
    · rw [symbol]
      exact last.path_inType
    · obtain ⟨steps, outside, same⟩ := declares.planned_below plan
      rw [symbol] at same
      refine ⟨congrArg SymbolId.scheme same, ?_⟩
      rw [Symbol.path, same]
      refine house_of_outside fun step h => ?_
      obtain h | h := List.mem_append.mp h
      · exact last.path_outside step h
      · exact outside step h
  nested site hs := Site.ofUnit_inner hs
  external := libraries.imp_right ExternalTable.Lawful.classes
  constants := libraries.imp_right ExternalTable.Lawful.constants

theorem World.ofUnit_lawful {source : String} {external : ExternalTable} {config : Config}
    {distinct lax : Prop} (hu : u ∈ units) (separate : SourceUnit.Separate units)
    (worded : ∀ u ∈ units, u.tree.Worded) (libraries : lax ∨ external.Lawful) :
    (World.ofUnit u source (.build units external config) external config distinct lax).Lawful where
  toGrounded := World.ofUnit_grounded hu worded libraries
  params site hs c found p hp := by
    have covered := ProjectClasses.build_known external config separate worded
    have known := covered.known site (SourceUnit.mem_sites hu hs)
    cases Option.some.inj (known.symm.trans found)
    have declares := ProjectClasses.describe_declares units external config (Site.plain (worded u hu) hs)
    exact ⟨_, declares.bound hp⟩

end

end JavaIndex
