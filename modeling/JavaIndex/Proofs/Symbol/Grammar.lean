import JavaIndex.Proofs.Symbol.Text

/-! The grammar of symbols. Whatever chain of declarations a symbol is named by, its path holds packages, then types
and at most one member of the last type, and the kind is that of the last step. What is declared in a body
follows the path of what the body belongs to. A declaration that would lead out of this grammar has no name. -/
namespace JavaIndex

/-- What is declared in a body is no package. -/
def Declaration.Proper : Declaration → Prop
  | .local _ kind => kind ≠ .package
  | _ => True

namespace Symbol

/-! Chains of declarations. -/

/-- The symbol is reached from a package of the universe by naming one proper declaration inside another. -/
inductive NamedFrom (root : Scheme) : Symbol → Prop
  | package {name : String} {s : Symbol} (named : ofDeclaration (.package name root) none = .ok s) : NamedFrom root s
  | inside {owner s : Symbol} {decl : Declaration} (around : NamedFrom root owner) (proper : decl.Proper)
      (named : ofDeclaration decl (some owner) = .ok s) : NamedFrom root s

/-- The symbol that a declaration would have in an owner if nothing were asked of the two. -/
def unchecked (owner : Symbol) : Declaration → Symbol
  | .package name _ => ⟨⟨owner.scheme, owner.path ++ (Dotted.steps name).map .package⟩, .package⟩
  | .type name kind => owner.child (.type name) kind
  | .member name kind => owner.child (.term name) kind
  | .method name overload => owner.child (.method name overload) .method
  | .constructor overload => owner.child (.method constructorName overload) .constructor
  | .typeParameter name => owner.child (.typeParameter name) .typeParameter
  | .local number kind => ⟨⟨.local, owner.path ++ [.local number]⟩, kind⟩

/-- What is asked of an owner and a declaration in it. -/
def Admits (owner : Symbol) : Declaration → Prop
  | .package _ _ => owner.kind = .package
  | .type _ kind =>
    owner.scheme ≠ .local ∧ kind.isType = true ∧ (owner.kind = .package ∨ owner.kind.isType = true)
  | .member _ kind => owner.scheme ≠ .local ∧ kind.isTerm = true ∧ owner.kind.isType = true
  | .method _ _ => owner.scheme ≠ .local ∧ owner.kind.isType = true
  | .constructor _ => owner.scheme ≠ .local ∧ mayConstruct owner.kind = true
  | .typeParameter _ => owner.scheme ≠ .local ∧ (owner.kind.isType = true ∨ owner.kind.isCallable = true)
  | .local _ _ => owner.kind ≠ .package

variable {root : Scheme} {owner s : Symbol} {decl : Declaration} {path : List Descriptor} {kind : SymbolKind}

theorem named_inside (named : ofDeclaration decl (some owner) = .ok s) :
    owner.Admits decl ∧ s = owner.unchecked decl := by
  have named := named_of_ofDeclaration named
  cases decl with
  | package name scheme =>
    simp only [Symbol.named] at named
    split at named <;> cases named
    rename_i inPackage
    exact ⟨not_not.mp inPackage, rfl⟩
  | «local» number kind =>
    simp only [Symbol.named] at named
    split at named <;> cases named
    rename_i outside
    exact ⟨outside, rfl⟩
  | _ =>
    simp only [Symbol.named] at named
    split at named
    · cases named
    · rename_i inside
      have outside : owner.scheme ≠ .local := by simpa [isLocal] using inside
      repeat' split at named
      all_goals first
        | contradiction
        | cases named
          simp_all [Admits, unchecked, or_iff_not_imp_left]

/-- The only way out is the fault that the naming scheme reports. -/
theorem refused {owner : Option Symbol} (notNamed : ∀ s, ofDeclaration decl owner ≠ .ok s) :
    ∃ fault, ofDeclaration decl owner = .error ⟨decl.describe, fault⟩ := by
  unfold ofDeclaration at *
  split
  · rename_i s named
    exact absurd (by rw [named]) (notNamed s)
  · rename_i fault _
    exact ⟨fault, rfl⟩

/-! Paths. -/

/-- Packages, then types. -/
def outer (packages types : List String) : List Descriptor := packages.map .package ++ types.map .type

/-- The paths of what is declared outside all bodies, with the kinds of what they lead to. -/
inductive Shape : List Descriptor → SymbolKind → Prop
  | package (packages : List String) : Shape (packages.map .package) .package
  | type (packages : List String) {types : List String} {kind : SymbolKind} (some : types ≠ [])
      (fits : kind.isType = true) : Shape (outer packages types) kind
  | term (packages : List String) {types : List String} (name : String) {kind : SymbolKind} (some : types ≠ [])
      (fits : kind.isTerm = true) : Shape (outer packages types ++ [.term name]) kind
  | typeParameter (packages : List String) {types : List String} (name : String) (some : types ≠ []) :
      Shape (outer packages types ++ [.typeParameter name]) .typeParameter
  | method (packages : List String) {types : List String} (name : String) (overload : Nat) {kind : SymbolKind}
      (some : types ≠ []) (fits : kind.isCallable = true) :
      Shape (outer packages types ++ [.method name overload]) kind
  | methodTypeParameter (packages : List String) {types : List String} (name : String) (overload : Nat)
      (param : String) (some : types ≠ []) :
      Shape (outer packages types ++ [.method name overload, .typeParameter param]) .typeParameter

namespace Shape

theorem packages (h : Shape path .package) : ∃ packages : List String, path = packages.map .package := by
  cases h with
  | package packages => exact ⟨packages, rfl⟩
  | type _ _ fits | term _ _ _ fits | method _ _ _ _ fits => cases fits

theorem types (h : Shape path kind) (isType : kind.isType = true) :
    ∃ packages types, types ≠ [] ∧ path = outer packages types := by
  cases h with
  | type packages some _ => exact ⟨packages, _, some, rfl⟩
  | package | typeParameter | methodTypeParameter => cases isType
  | term _ _ _ fits | method _ _ _ _ fits => cases kind <;> simp [SymbolKind.isType] at isType <;> cases fits

theorem callable (h : Shape path kind) (isCallable : kind.isCallable = true) :
    ∃ packages types name overload, types ≠ [] ∧ path = outer packages types ++ [.method name overload] := by
  cases h with
  | method packages name overload some _ => exact ⟨packages, _, name, overload, some, rfl⟩
  | package | typeParameter | methodTypeParameter => cases isCallable
  | type _ _ fits | term _ _ _ fits =>
    cases kind <;> simp [SymbolKind.isCallable] at isCallable <;> cases fits

end Shape

theorem outer_concat (packages types : List String) (name : String) :
    outer packages types ++ [.type name] = outer packages (types ++ [name]) := by
  simp [outer]

theorem isType_of_mayConstruct (h : mayConstruct kind = true) : kind.isType = true := by
  cases kind <;> first | rfl | cases h

/-- One step outside all bodies keeps to the shapes. -/
theorem Shape.inside (around : Shape owner.path owner.kind) (admits : owner.Admits decl)
    (outside : ∀ number kind, decl ≠ .local number kind) :
    Shape (owner.unchecked decl).path (owner.unchecked decl).kind := by
  cases decl with
  | package name scheme =>
    rw [show owner.kind = .package from admits] at around
    obtain ⟨packages, whole⟩ := around.packages
    have path : (owner.unchecked (.package name scheme)).path = (packages ++ Dotted.steps name).map .package := by
      change owner.path ++ _ = _
      rw [whole, List.map_append]
    rw [path]
    exact .package _
  | type name kind =>
    obtain ⟨-, fits, inPackage | inType⟩ := admits
    · rw [inPackage] at around
      obtain ⟨packages, whole⟩ := around.packages
      have path : (owner.unchecked (.type name kind)).path = outer packages [name] := by
        change owner.path ++ _ = _
        rw [whole]
        rfl
      rw [path]
      exact .type packages (List.cons_ne_nil _ _) fits
    · obtain ⟨packages, types, -, whole⟩ := around.types inType
      have path : (owner.unchecked (.type name kind)).path = outer packages (types ++ [name]) := by
        change owner.path ++ _ = _
        rw [whole, outer_concat]
      rw [path]
      exact .type packages (by simp) fits
  | member name kind =>
    obtain ⟨-, fits, inType⟩ := admits
    obtain ⟨packages, types, some, whole⟩ := around.types inType
    change Shape (owner.path ++ _) _
    rw [whole]
    exact .term packages name some fits
  | method name overload =>
    obtain ⟨packages, types, some, whole⟩ := around.types admits.2
    change Shape (owner.path ++ _) _
    rw [whole]
    exact .method packages name overload some rfl
  | constructor overload =>
    obtain ⟨packages, types, some, whole⟩ := around.types (isType_of_mayConstruct admits.2)
    change Shape (owner.path ++ _) _
    rw [whole]
    exact .method packages constructorName overload some rfl
  | typeParameter name =>
    obtain ⟨-, inType | inMethod⟩ := admits
    · obtain ⟨packages, types, some, whole⟩ := around.types inType
      change Shape (owner.path ++ _) _
      rw [whole]
      exact .typeParameter packages name some
    · obtain ⟨packages, types, method, overload, some, whole⟩ := around.callable inMethod
      change Shape (owner.path ++ _) _
      rw [whole, List.append_assoc]
      exact .methodTypeParameter packages method overload name some
  | «local» number kind => exact absurd rfl (outside number kind)

/-- The path of something outside all bodies that is no package, and the numbers of local declarations after it. -/
def InBody (path : List Descriptor) : Prop :=
  ∃ before kind, ∃ numbers : List Nat, Shape before kind ∧ kind ≠ .package ∧ numbers ≠ [] ∧
    path = before ++ numbers.map .local

/-- The symbols of a universe. Packages alone can be put into the universe of local declarations. -/
inductive Grammatical (root : Scheme) : Symbol → Prop
  | outside {path : List Descriptor} {kind : SymbolKind} (ordinary : root ≠ .local) (shape : Shape path kind) :
      Grammatical root ⟨⟨root, path⟩, kind⟩
  | inBody {path : List Descriptor} {kind : SymbolKind} (ordinary : root ≠ .local) (body : InBody path)
      (proper : kind ≠ .package) : Grammatical root ⟨⟨.local, path⟩, kind⟩
  | localPackage (isLocal : root = .local) (packages : List String) :
      Grammatical root ⟨⟨.local, packages.map .package⟩, .package⟩

theorem InBody.further (body : InBody path) (number : Nat) : InBody (path ++ [.local number]) := by
  obtain ⟨before, kind, numbers, shape, proper, -, rfl⟩ := body
  exact ⟨before, kind, numbers ++ [number], shape, proper, by simp, by simp⟩

theorem unchecked_scheme (outside : ∀ number kind, decl ≠ .local number kind) :
    (owner.unchecked decl).scheme = owner.scheme := by
  cases decl with
  | «local» number kind => exact absurd rfl (outside number kind)
  | _ => rfl

theorem Grammatical.of_shape (ordinary : root ≠ .local) (scheme : s.scheme = root) (shape : Shape s.path s.kind) :
    Grammatical root s := by
  obtain ⟨⟨_, path⟩, kind⟩ := s
  cases scheme
  exact .outside ordinary shape

theorem Grammatical.shape (grammatical : Grammatical root s) (outside : s.scheme ≠ .local) : Shape s.path s.kind := by
  cases grammatical with
  | outside _ shape => exact shape
  | inBody | localPackage => exact absurd rfl outside

theorem Admits.of_local (admits : owner.Admits decl) (isLocal : owner.scheme = .local) :
    (∃ name scheme, decl = .package name scheme) ∨ ∃ number kind, decl = .local number kind := by
  cases decl with
  | package name scheme => exact .inl ⟨name, scheme, rfl⟩
  | «local» number kind => exact .inr ⟨number, kind, rfl⟩
  | _ => exact absurd isLocal admits.1

/-- One declaration that an owner admits keeps to the grammar. -/
theorem Grammatical.inside (around : Grammatical root owner) (proper : decl.Proper) (admits : owner.Admits decl) :
    Grammatical root (owner.unchecked decl) := by
  cases around with
  | @outside path kind ordinary shape =>
    by_cases outside : ∀ number kind, decl ≠ .local number kind
    · have around : Shape (Symbol.path ⟨⟨root, path⟩, kind⟩) (Symbol.kind ⟨⟨root, path⟩, kind⟩) := shape
      exact .of_shape ordinary (unchecked_scheme outside) (around.inside admits outside)
    · push Not at outside
      obtain ⟨number, inner, rfl⟩ := outside
      exact .inBody ordinary ⟨path, kind, [number], shape, admits, List.cons_ne_nil _ _, rfl⟩ proper
  | inBody ordinary body notPackage =>
    obtain ⟨name, scheme, rfl⟩ | ⟨number, kind, rfl⟩ := admits.of_local rfl
    · exact absurd admits notPackage
    · exact .inBody ordinary (body.further number) proper
  | localPackage isLocal packages =>
    obtain ⟨name, scheme, rfl⟩ | ⟨number, kind, rfl⟩ := admits.of_local rfl
    · have further := Grammatical.localPackage isLocal (packages ++ Dotted.steps name)
      rwa [List.map_append] at further
    · exact absurd rfl admits

theorem NamedFrom.grammatical (named : NamedFrom root s) : Grammatical root s := by
  induction named with
  | @package name s named =>
    cases named
    by_cases ordinary : root = .local
    · subst ordinary
      exact .localPackage rfl _
    · exact .outside ordinary (.package _)
  | inside _ proper named ih =>
    obtain ⟨admits, rfl⟩ := named_inside named
    exact ih.inside proper admits

/-- Every chain of declarations keeps to the grammar of symbols, and a declaration has no name where its symbol
would leave the grammar, or where it has no owner and is no package. -/
theorem chain_grammatical (root : Scheme) :
    (∀ s, NamedFrom root s → Grammatical root s) ∧
    (∀ owner decl, NamedFrom root owner → decl.Proper → ¬ Grammatical root (owner.unchecked decl) →
      ∃ fault, ofDeclaration decl (some owner) = .error ⟨decl.describe, fault⟩) ∧
    ∀ decl, (∀ name scheme, decl ≠ .package name scheme) →
      ∃ fault, ofDeclaration decl none = .error ⟨decl.describe, fault⟩ := by
  refine ⟨fun s named => named.grammatical, fun owner decl around proper leaves => ?_, fun decl noPackage => ?_⟩
  · apply refused
    intro s named
    obtain ⟨admits, -⟩ := named_inside named
    exact leaves (around.grammatical.inside proper admits)
  · cases decl with
    | package name scheme => exact absurd rfl (noPackage name scheme)
    | _ => exact ⟨.missingOwner, rfl⟩

/-- What can be called is no member of a package. -/
theorem not_grammatical_inPackage {packages : List String} {name : String} {overload : Nat} (ordinary : root ≠ .local)
    (callable : kind.isCallable = true) :
    ¬ Grammatical root ⟨⟨root, packages.map .package ++ [.method name overload]⟩, kind⟩ := by
  intro grammatical
  obtain ⟨_, types, _, _, some, same⟩ := (grammatical.shape ordinary).callable callable
  obtain ⟨before, -⟩ := List.append_inj' same rfl
  obtain ⟨type, types, rfl⟩ := List.exists_cons_of_ne_nil some
  have among : Descriptor.type type ∈ packages.map Descriptor.package := by
    rw [before]
    simp [outer]
  simp at among

/-- A parameter in a class that is declared in an overloaded method, and a method that stands in a package. -/
theorem chain_grammatical_parameter :
    ∃ p inner : Symbol, p = package "p.q" .project ∧ inner.kind = .parameter ∧
      inner.path = [.package "p", .package "q", .type "C", .method "m" 1, .local 0, .local 1] ∧
      NamedFrom .project inner ∧ Grammatical .project inner ∧
      NamedFrom .project p ∧ ¬ Grammatical .project (p.unchecked (.method "f" 0)) ∧
      (∃ fault, ofDeclaration (.method "f" 0) (some p) = .error ⟨"method f", fault⟩) ∧
      ∃ fault, ofDeclaration (.constructor 0) none = .error ⟨"constructor", fault⟩ := by
  let p : Symbol := package "p.q" .project
  let c : Symbol := p.child (.type "C") .classType
  let m : Symbol := c.child (.method "m" 1) .method
  let body : Symbol := ⟨⟨.local, m.path ++ [.local 0]⟩, .classType⟩
  let inner : Symbol := ⟨⟨.local, body.path ++ [.local 1]⟩, .parameter⟩
  have namedP : NamedFrom .project p := @NamedFrom.package _ "p.q" _ rfl
  have namedC : NamedFrom .project c := @NamedFrom.inside _ p c (.type "C" .classType) namedP trivial rfl
  have namedM : NamedFrom .project m := @NamedFrom.inside _ c m (.method "m" 1) namedC trivial rfl
  have namedBody : NamedFrom .project body :=
    @NamedFrom.inside _ m body (.local 0 .classType) namedM SymbolKind.noConfusion rfl
  have namedInner : NamedFrom .project inner :=
    @NamedFrom.inside _ body inner (.local 1 .parameter) namedBody SymbolKind.noConfusion rfl
  have leaves : ¬ Grammatical .project (p.unchecked (.method "f" 0)) := not_grammatical_inPackage nofun rfl
  obtain ⟨chains, refusals, ownerless⟩ := chain_grammatical .project
  exact ⟨p, inner, rfl, rfl, by decide +kernel, namedInner, chains inner namedInner, namedP, leaves,
    refusals p (.method "f" 0) namedP trivial leaves, ownerless (.constructor 0) nofun⟩

/-- A package in the universe of local declarations belongs to no body. -/
theorem localPackage_notInBody :
    NamedFrom .local (package "p" .local) ∧ (package "p" .local).scheme = .local ∧
      ¬ InBody (package "p" .local).path := by
  refine ⟨@NamedFrom.package _ "p" _ rfl, rfl, ?_⟩
  rintro ⟨before, kind, numbers, -, -, some, same⟩
  have single : (package "p" .local).path = [.package "p"] := by decide +kernel
  have last := congrArg List.getLast? (single.symm.trans same)
  rw [List.getLast?_append_of_ne_nil _ (by simpa using some), List.getLast?_map] at last
  cases final : numbers.getLast? <;> simp [final] at last

end Symbol
end JavaIndex
