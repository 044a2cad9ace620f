import JavaIndex.Proofs.Resolve.Known
import JavaIndex.Proofs.Resolve.TypeSegments
import JavaIndex.Resolve.Walk

/-! The steps between the parts of a tree: names are looked up and mentioned, calls choose their methods, and
classes in bodies are described. All of them uphold that what is mentioned is known. -/
namespace JavaIndex

variable {given : Symbol → Prop}

/-- The class that the name of a type leads to is known. -/
def NamedType.Known (given : Symbol → Prop) (n : NamedType) : Prop := ∀ c, n.info = some c → c.Known given

namespace Upholds

variable {α : Type}

/-! Names of types. -/

theorem typePath (names : List Ident) :
    Upholds given (Resolve.typePath names) fun path => ∀ g ∈ path, g.Known given :=
  environment.bind fun _ known => place.bindPure fun _ scopes _ hg =>
    known.reads scopes (Environment.typePath_reads (fun _ hn => hn) hg)

theorem mentionPath (names : List Ident) {path : List Segment} (known : ∀ g ∈ path, g.Known given) :
    KeepsKnown given (Resolve.mentionPath names path) := by
  refine (mentionAll fun n hn s hs => ?_).seq (unresolved _ _)
  obtain ⟨g, hg, same⟩ := List.mem_map.mp (List.of_mem_zip (a := n.1) (b := n.2) hn).2
  exact (known g (List.takeWhile_subset _ hg)).1 s (same.trans hs)

theorem pathClass {path : List Segment} (known : ∀ g ∈ path, g.Known given) {c : ClassInfo}
    (found : Resolve.pathClass? path = some c) : c.Known given := by
  obtain ⟨g, last, hc⟩ := Option.bind_eq_some_iff.mp found
  exact (known g (List.mem_of_getLast? last)).2 c hc

theorem namedType (names : List Ident) (mentionClass : Bool) {annotations : Resolve Unit}
    {args : Resolve (List JavaType)} (onNames : KeepsKnown given annotations) (inBrackets : KeepsKnown given args) :
    Upholds given (Resolve.namedType names mentionClass annotations args) fun n => n.Known given := by
  rw [Resolve.namedType_eq]
  refine (typePath names).bind fun path known => onNames.seq ?_
  have whole : Upholds given (args >>= fun args => Pure.pure
      (⟨Environment.typeOfPath path (names.map Ident.text) args, Resolve.pathClass? path⟩ : NamedType))
      fun n => n.Known given := inBrackets.bindPure fun _ _ _ found => pathClass known found
  cases mentionClass with
  | true => exact (mentionPath names known).seq whole
  | false =>
    refine (mentionPath _ fun g hg => known g ?_).seq whole
    unfold Resolve.withoutClass at hg
    split at hg
    · exact List.dropLast_subset _ hg
    · exact hg

theorem annotationType (names : List Ident) :
    Upholds given (Resolve.annotationType names) fun found => ∀ c, found = some c → c.Known given :=
  (typePath names).bind fun _ known => (mentionPath names known).bindPure fun _ _ _ found =>
    pathClass known found

theorem annotationElement {c? : Option ClassInfo} (known : ∀ c, c? = some c → c.Known given)
    (name : Option Ident) : KeepsKnown given (Resolve.annotationElement c? name) := by
  unfold Resolve.annotationElement
  split
  · rename_i c name
    refine mention name fun s hs => ?_
    obtain ⟨m, hm, rfl⟩ := Option.map_eq_some_iff.mp hs
    exact (known c rfl).members _ (.method (List.mem_of_mem_filter (List.mem_of_head? hm)))
  · exact pure trivial

theorem qualifiedName (names : List Ident) :
    Upholds given (Resolve.qualifiedName names) fun found => ∀ c, found = some c → c.Known given := by
  refine environment.bind fun env known => ?_
  have segments : ∀ g ∈ env.qualified (names.map Ident.text), g.Known given := fun g hg =>
    known.reads .nowhere (Environment.qualified_reads (fun _ hn => hn) hg)
  exact (mentionPath names segments).bindPure fun _ _ _ found => pathClass segments found

theorem importedMember (c : ClassInfo) (name : Ident) : KeepsKnown given (Resolve.importedMember c name) := by
  refine environment.bind fun env known => ?_
  split
  · rename_i symbol found
    refine reference name.range ?_
    obtain (h | ⟨-, h⟩) | ⟨-, h⟩ := by
      simpa only [Resolve.importable?, Option.or_eq_some_iff] using found
    · obtain ⟨f, hf, rfl⟩ := Option.map_eq_some_iff.mp h
      exact known.supplied (Environment.field_supplied hf)
    · obtain ⟨m, hm, rfl⟩ := Option.map_eq_some_iff.mp h
      exact known.supplied (Environment.methods_supplied (List.mem_of_head? hm))
    · obtain ⟨inner, hinner, rfl⟩ := Option.map_eq_some_iff.mp h
      exact (known.memberType hinner).symbol
  · exact unresolved _ _

theorem importDecl (i : ImportDecl) : KeepsKnown given (Resolve.importDecl i) := by
  unfold Resolve.importDecl
  split
  · split
    · exact pure trivial
    · refine (qualifiedName _).bind fun found _ => ?_
      cases found with
      | none => exact pure trivial
      | some c => exact importedMember c _
  · exact (qualifiedName _).discard

/-! Names of values. -/

theorem nameChain (names : List Ident) :
    Upholds given (Resolve.nameChain names) fun r => r.Known given := by
  refine environment.bind fun env known => place.bind fun place scopes => ?_
  have selected : ∀ x ∈ env.chain place (names.map Ident.text), x.Known given := fun x hx =>
    known.selects scopes (Environment.chain_selects (fun _ hn => hn) hx)
  refine (mentionAll fun n hn s hs => ?_).seq ?_
  · obtain ⟨x, hx, same⟩ := List.mem_map.mp (List.of_mem_zip (a := n.1) (b := n.2) hn).2
    exact (selected x hx).1 s (same.trans hs)
  · split
    · refine pure fun c hc => ?_
      cases last : (env.chain place (names.map Ident.text)).getLast? with
      | none =>
        rw [last] at hc
        cases hc
      | some x =>
        rw [last] at hc
        exact (selected x (List.mem_of_getLast? last)).2 c hc
    · exact (unresolved _ _).bindPure fun _ _ => fun _ h => nomatch h

theorem selectMember (r : Receiver) (name : Ident) : KeepsKnown given (Resolve.selectMember r name) := by
  refine environment.bind fun env known => ?_
  split
  · rename_i x found
    have selects : env.Selects .nowhere [] x := Environment.member_selects found
    have selected : x.Known given := known.selects .nowhere selects
    exact (mention name fun s hs => selected.1 s hs).bindPure fun _ _ => trivial
  · exact (unresolved _ _).bindPure fun _ _ => trivial

/-! Calls. -/

/-- The candidates for a call are known. -/
def Candidates (given : Symbol → Prop) (cs : List Candidate) : Prop := ∀ c ∈ cs, c.symbol.Known given

theorem constructors {c : ClassInfo} (known : c.Known given) (args : List JavaType) :
    Candidates given (Environment.constructors c args) :=
  fun _ h => known.members _ (Environment.constructors_offered h)

theorem mentionSelected (span : Span) (name : String) {cs : List Candidate} (known : Candidates given cs)
    (args : List JavaType) : KeepsKnown given (Resolve.mentionSelected span name cs args) := by
  have chosen (c : Candidate) (h : (Selection.select cs args).candidate? = some c) :
      KeepsKnown given (Resolve.reference span c.symbol) :=
    reference span (known c (Selection.chosen_mem h))
  unfold Resolve.mentionSelected
  split
  · rename_i c same
    exact (chosen c (by simp [same, Selection.candidate?])).bindPure fun _ _ => trivial
  · rename_i c survivors same
    exact (chosen c (by simp [same, Selection.candidate?])).seq
      ((report _ (by simp [Problem.code])).bindPure fun _ _ => trivial)
  · exact pure trivial

theorem calledMethods (r : Option Receiver) (name : String) :
    Upholds given (Resolve.calledMethods r name) (Candidates given) := by
  cases r with
  | some r => exact environment.bindPure fun _ known _ h => known.supplied (Environment.methods_supplied h)
  | none =>
    exact environment.bind fun _ known => place.bindPure fun _ _ _ h =>
      known.supplied (Environment.callables_supplied h)

theorem callMethod (name : Ident) {cs : List Candidate} (known : Candidates given cs) (args : List JavaType) :
    KeepsKnown given (Resolve.callMethod name cs args) := by
  refine (mentionSelected _ _ known args).bind fun chosen _ => ?_
  cases chosen with
  | some c => exact pure trivial
  | none => exact (unresolved _ _).bindPure fun _ _ => trivial

theorem delegateClass (kind : Delegate) :
    Upholds given (Resolve.delegateClass kind) fun found => ∀ c, found = some c → c.1.Known given := by
  refine progress.bind fun p known => ?_
  split
  · exact pure fun _ h => nomatch h
  · rename_i c around
    split
    · refine pure fun c' hc => ?_
      cases hc
      exact known.scopes.enclosingClass around
    · refine environment.bindPure fun env known c' hc => ?_
      obtain ⟨parent, found, rfl⟩ := Option.map_eq_some_iff.mp hc
      exact known.classes _ parent found
    · exact pure fun _ h => nomatch h

theorem callDelegate (kind : Delegate) (keyword : Span) (args : List JavaType) :
    KeepsKnown given (Resolve.callDelegate kind keyword args) := by
  refine (delegateClass kind).bind fun found known => ?_
  cases found with
  | some c => exact (mentionSelected _ _ (constructors (known c rfl) c.2) args).discard
  | none => exact pure trivial

theorem innerClass (outer : Receiver) (name : Ident) :
    Upholds given (Resolve.innerClass outer name) fun n => n.Known given := by
  refine environment.bind fun env known => ?_
  dsimp only
  split
  · rename_i inner found
    obtain ⟨c, -, h⟩ := Option.bind_eq_some_iff.mp found
    refine pure fun c' hc => ?_
    cases hc
    exact known.memberType h
  · exact (unresolved _ _).bindPure fun _ _ => fun _ h => nomatch h

theorem callConstructor (name : Ident) {created : NamedType} (known : created.Known given)
    (args : List JavaType) : KeepsKnown given (Resolve.callConstructor name created args) := by
  unfold Resolve.callConstructor
  split
  · exact pure trivial
  · rename_i c hc
    refine (mentionSelected _ _ (constructors (known c hc) _) args).bind fun chosen _ => ?_
    cases chosen with
    | some _ => exact pure trivial
    | none => exact reference name.range (known c hc).symbol

theorem mentionFirst (name : Ident) {cs : List Candidate} (known : Candidates given cs) :
    KeepsKnown given (Resolve.mentionFirst name cs) := by
  cases cs with
  | nil => exact pure trivial
  | cons c rest =>
    refine (reference name.range (known c List.mem_cons_self)).seq ?_
    dsimp only
    split
    · exact pure trivial
    · exact (report _ (by simp [Problem.code])).bindPure fun _ _ => trivial

theorem mentionMethod {r : Receiver} (known : r.Known given) (name : Ident) :
    KeepsKnown given (Resolve.mentionMethod r name) := by
  unfold Resolve.mentionMethod
  split
  · split
    · rename_i c
      refine (mentionFirst name (constructors (known c rfl) [])).bind fun found _ => ?_
      cases found with
      | true => exact pure trivial
      | false => exact reference name.range (known c rfl).symbol
    · exact pure trivial
  · refine environment.bind fun env known => ?_
    have methods : Candidates given (env.methods r.type name.text) :=
      fun _ h => known.supplied (Environment.methods_supplied h)
    refine (mentionFirst name methods).bind fun found _ => ?_
    split
    · exact pure trivial
    · exact unresolved _ _

theorem receiverOfType (type : JavaType) :
    Upholds given (Resolve.receiverOfType type) fun r => r.Known given := by
  refine environment.bind fun env known => ?_
  split
  · rename_i c found
    obtain ⟨name, -, hc⟩ := Option.bind_eq_some_iff.mp found
    refine pure fun c' same => ?_
    cases same
    exact known.classes name c hc
  · exact pure fun _ h => nomatch h

theorem thisType : KeepsKnown given Resolve.thisType := progress.bindPure fun _ _ => trivial

theorem superOf {qualifier : Option Receiver} (known : ∀ r, qualifier = some r → r.Known given) :
    Upholds given (Resolve.superOf qualifier) fun r => r.Known given := by
  unfold Resolve.superOf
  split
  · exact pure fun _ h => nomatch h
  · exact pure (known _ rfl)
  · refine progress.bindPure fun p _ c hc => ?_
    cases around : (p.scopes.enclosingClass?).bind ClassInfo.superclass <;> simp [around] at hc

theorem caseLabel (selector : JavaType) (label : Expr) {x : Resolve Unit} (h : KeepsKnown given x) :
    KeepsKnown given (Resolve.caseLabel selector label x) := by
  have constant : Upholds given (Resolve.enumConstant? selector label)
      fun found => ∀ x, found = some x → x.2.Known given := by
    refine environment.bind fun env known => ?_
    split
    · split
      · refine pure fun x hx => ?_
        obtain ⟨f, hf, rfl⟩ := Option.map_eq_some_iff.mp hx
        exact known.supplied (Environment.field_supplied hf)
      · exact pure nofun
    · exact pure nofun
  refine constant.bind fun found known => ?_
  cases found with
  | some x => exact reference _ (known x rfl)
  | none => exact h

/-! Types and members that are declared. -/

/-- A class and its type variables are known. -/
def KnownWithVars (given : Symbol → Prop) (found : ClassInfo × List (String × Symbol)) : Prop :=
  found.1.Known given ∧ ∀ v ∈ found.2, v.2.Known given

theorem knownClass (d : TypeDecl) (name : String) :
    Upholds given (Resolve.knownClass d name) fun found => ∀ r, found = some r → KnownWithVars given r := by
  refine environment.bind fun env known => ?_
  cases found : env.class? name with
  | some c =>
    refine progress.bindPure fun p before r hr => ?_
    cases hr
    refine ⟨known.classes name c found, fun v hv => ?_⟩
    cases vars : p.typeParams[c.qualifiedName]? with
    | some vs =>
      rw [vars] at hv
      exact before.typeParams _ vs vars v hv
    | none =>
      rw [vars] at hv
      obtain ⟨param, -, made⟩ := List.mem_filterMap.mp hv
      cases named : Symbol.ofDeclaration (.typeParameter param) (some c.symbol) with
      | ok s =>
        rw [named] at made
        cases made
        exact .ofDeclaration named nofun
      | error e =>
        rw [named] at made
        cases made
  | none =>
    refine environment.bind fun env _ => setting.bind fun s _ => progress.bind fun p _ => ?_
    dsimp only
    cases Symbol.ofDeclaration (.type d.name.text (.ofDecl d.kind))
        (some (p.enclosing.head?.getD (env.packageSymbol s.imports.package))) with
    | ok _ => exact pure fun _ h => nomatch h
    | error e => exact (report _ (by simp [Problem.code])).seq (pure fun _ h => nomatch h)

theorem boundTypeParams {vars : List (String × Symbol)} (known : ∀ v ∈ vars, v.2.Known given)
    (params : List TypeParam) :
    ∀ symbol ∈ Resolve.boundTypeParams vars params, ∀ s, symbol = some s → s.Known given := by
  intro symbol hsymbol s hs
  obtain ⟨p, -, rfl⟩ := List.mem_map.mp hsymbol
  obtain ⟨v, hv, rfl⟩ := Option.map_eq_some_iff.mp hs
  exact known v (List.mem_of_find?_eq_some hv)

theorem field {c : ClassInfo} (known : c.Known given) (seen : OverloadCounter) (name : String)
    {kind : SymbolKind} :
    ∀ s, MemberNames.field ⟨c, seen⟩ name kind = .ok s → s.Known given := by
  intro s made
  unfold MemberNames.field at made
  split at made
  · rename_i f found
    cases made
    exact known.members _ (.field found)
  · exact .ofDeclaration made nofun

theorem callable {names : MemberNames} (known : names.info.Known given) (m : MethodDecl) :
    ∀ s, names.callable m = .ok s → s.Known given := by
  intro s made
  unfold MemberNames.callable at made
  split at made
  · split at made <;> cases made
    rename_i described found
    unfold MemberNames.described? at found
    dsimp only at found
    split at found
    · exact known.members _ (.constructor (List.mem_of_getElem? found))
    · exact known.members _ (.method (List.mem_of_getElem? found))
  · dsimp only at made
    split at made <;> exact .ofDeclaration made nofun

theorem overriddenBy (c : ClassInfo) (symbol : Symbol) (m : MethodDecl) :
    KeepsKnown given (Resolve.overriddenBy c symbol m) := by
  unfold Resolve.overriddenBy
  split
  · exact pure trivial
  · exact environment.bindPure fun _ _ => trivial

theorem methodTypeParams (method : Symbol) (params : List TypeParam) :
    Upholds given (Resolve.methodTypeParams method params)
      fun symbols => ∀ symbol ∈ symbols, ∀ s, symbol = some s → s.Known given := by
  have one (p : TypeParam) : Upholds given (Resolve.methodTypeParam method p)
      fun found => ∀ s, found = some s → s.Known given := by
    unfold Resolve.methodTypeParam
    split
    · exact localSymbol (by decide) _
    · exact nameOrReport _ fun s made => .ofDeclaration made nofun
  induction params with
  | nil => exact pure nofun
  | cons p rest ih =>
    refine (one p).bind fun symbol known => ?_
    have later : Upholds given (do return symbol :: (← Resolve.methodTypeParams method rest))
        fun symbols => ∀ symbol ∈ symbols, ∀ s, symbol = some s → s.Known given := by
      refine ih.bind fun symbols others => ?_
      refine pure fun x hx => ?_
      rcases List.mem_cons.mp hx with rfl | hx
      · exact known
      · exact others x hx
    cases symbol with
    | none => exact later
    | some s => exact (bindType (b := .typeParam p.name.text s) _ (known s rfl)).seq later

end Upholds
end JavaIndex
