import JavaIndex.Proofs.Resolve.Moments

/-! What resolution relies on and keeps up. Every symbol that it can come by in a file is sound: it belongs
to a library or a package, or the project declares it, or the file has defined it, or it is about to. Every
definition is backed: its symbol comes from the description of the class around, or from a number of its
own. -/
namespace JavaIndex

open ClassName (Mentionable MadeBefore)

/-- What stays the same on the way through a file. -/
structure World where
  lines : LineIndex
  policy : LocalNumbering
  /-- The declared types of the file outside all bodies. -/
  sites : List Site
  project : ProjectClasses
  external : ExternalTable
  /-- The classes written in the file. -/
  classes : ClassSyntax → Prop
  /-- No class repeats the name of a field or of a type variable. -/
  distinct : Prop
  /-- Nothing is asked of the symbols that are used. -/
  lax : Prop
  /-- Symbols that will have been defined when the present class or method is left. -/
  expected : SymbolId → Prop

namespace World

/-- The same with other things to come. -/
def withExpected (w : World) (expected : SymbolId → Prop) : World := { w with expected }

/-- The same with more to come. -/
def expecting (w : World) (more : SymbolId → Prop) : World :=
  w.withExpected fun s => w.expected s ∨ more s

end World

/-- The symbols of the members that can be found in a class. -/
inductive Offers (c : ClassInfo) : Symbol → Prop
  | field {name f} : c.field? name = some f → Offers c f.symbol
  | method {m} : m ∈ c.methods → Offers c m.symbol
  | constructor {m} : m ∈ c.constructors → Offers c m.symbol

/-- The project declares a symbol. -/
inductive ProjectClasses.Declares (p : ProjectClasses) : Symbol → Prop
  | ofClass {name c} : p.class? name = some c → p.Declares c.symbol
  | member {name c s} : p.class? name = some c → Offers c s → p.Declares s
  | typeParam {name c v} : p.class? name = some c → v ∈ c.typeParamSymbols → p.Declares v.2

/-- A symbol of a class in a body that nothing defines: the index has made up the method, or another type
variable of the class has taken its name. -/
inductive Undefined (w : World) (t : Moment) : SymbolId → Prop
  | implied {c vars b m} : w.classes b → LocalBody t c vars b → (∀ i, b.name? = some i → t.Defines i c.symbol) →
      m ∈ c.methods.drop b.body.methods.length → Undefined w t m.symbol.id
  | repeated {c vars b} {i j : Nat} {v v' : String × Symbol} : w.classes b → LocalBody t c vars b →
      i < j → vars[i]? = some v → vars[j]? = some v' → v.1 = v'.1 → Undefined w t v'.2.id

/-- The symbol may be used. -/
inductive Sound (w : World) (t : Moment) (s : Symbol) : Prop
  | unasked (h : w.lax)
  | external (h : s.scheme = .external)
  | package (kind : s.kind = .package) (outside : s.scheme ≠ .local)
  | project (h : w.project.Declares s)
  | defined {i} (h : t.Defines i s)
  | expected (h : w.expected s.id)
  | undefined (h : Undefined w t s.id)

section

variable (w : World) (t : Moment)

/-- The symbol has been defined, or nothing defines it. -/
def Met (s : SymbolId) : Prop := (∃ e ∈ t.ledger.entries, e.symbol = s) ∨ Undefined w t s

/-- The members of a class may be used. -/
def ClassSound (c : ClassInfo) : Prop := ∀ s, Offers c s → Sound w t s

/-- A class of this name may be used. -/
def Safe (name : String) : Prop := w.lax ∨ Mentionable name

/-- A class may be used, and its members. -/
structure ClassNamed (c : ClassInfo) : Prop where
  members : ClassSound w t c
  symbol : Sound w t c.symbol
  safe : Safe w c.qualifiedName

/-- What the name of a type means may be used. -/
def BindingSound : TypeBinding → Prop
  | .ofClass c => ClassNamed w t c
  | .typeParam _ s => Sound w t s

/-- What a scope leads to may be used. -/
structure ScopeSound (sc : Scope) : Prop where
  values : ∀ b ∈ sc.values, Sound w t b.2.symbol
  types : ∀ b ∈ sc.types, BindingSound w t b.2
  members : ∀ c, sc.classInfo = some c → ClassSound w t c
  ofClass : ∀ c, sc.classInfo = some c → Environment.isWritable c = true → ClassNamed w t c

/-- The symbol stands for what is at a stretch of the text, and for nothing else. -/
inductive Given : SymbolId → Span → Prop
  | planned {site c i s} : site ∈ w.sites → w.project.class? site.name = some c →
      Plan.ofClass c c.typeParamSymbols (.declared site.decl) i s → Given s.id i.range
  | granted {g} : g ∈ t.ledger.grants → Given g.symbol g.span

/-- The description that a class in the file has. -/
def Matched (c : ClassInfo) (vars : List (String × Symbol)) (b : ClassSyntax) : Prop :=
  (∃ site ∈ w.sites, b = .declared site.decl ∧ w.project.class? site.name = some c ∧
    vars = c.typeParamSymbols) ∨ LocalBody t c vars b

/-- A class is known under its own name. -/
inductive Listed (c : ClassInfo) : Prop
  | inBody : t.locals[c.qualifiedName]? = some c → Listed c
  | project : '<' ∉ c.qualifiedName.toList → w.project.class? c.qualifiedName = some c → Listed c

/-- A class in the file is known and described, and all that it declares is defined as described. -/
structure Accounted (b : ClassSyntax) : Prop where
  written : w.classes b
  plain : ∀ m ∈ ClassBody.callablesOf b.body.members, Plain m.name.text
  known : ∃ c vars, Listed w t c ∧ Matched w t c vars b ∧
    ∀ i s, Plan.ofClass c vars b i s → t.Defines i s

/-- A class and its type variables are known under a name. -/
inductive Found (name : String) : ClassInfo → List (String × Symbol) → Prop
  | inBody {c} {vars : List (String × Symbol)} : t.locals[name]? = some c →
      t.progress.typeParams[name]? = some vars → Found name c vars
  | project {c} : '<' ∉ name.toList → w.project.class? name = some c →
      Found name c c.typeParamSymbols

/-- A declared type is known under a name, and so are those declared in it. -/
inductive Known : String → TypeDecl → Prop
  | intro {name d c vars} : Found w t name c vars → c.qualifiedName = name →
      Matched w t c vars (.declared d) → Housed t c.symbol.path →
      (∀ inner ∈ ClassBody.typesOf d.members, Known (name ++ "." ++ inner.name.text) inner) →
      Known name d

/-- A declared type is known under a name and defined as described, and so are those declared in it. -/
inductive Settled : String → TypeDecl → Prop
  | intro {name d c vars} : Found w t name c vars →
      (∀ i s, Plan.ofClass c vars (.declared d) i s → t.Defines i s) →
      (∀ inner ∈ ClassBody.typesOf d.members, Settled (name ++ "." ++ inner.name.text) inner) →
      Settled name d

end

/-- What holds of the project and the libraries, even where several types have one name. -/
structure World.Grounded (w : World) : Prop where
  named : ∀ name c, w.project.class? name = some c → c.qualifiedName = name ∧ '<' ∉ name.toList
  sites : ∀ site ∈ w.sites, ∃ c, w.project.class? site.name = some c ∧ InType c.symbol.path ∧
    ∀ i s, Plan.ofClass c c.typeParamSymbols (.declared site.decl) i s →
      s.scheme = .project ∧ house s.path = s.path
  nested : ∀ site ∈ w.sites, ∀ inner ∈ ClassBody.typesOf site.decl.members,
    ∃ site' ∈ w.sites, site'.name = site.name ++ "." ++ inner.name.text ∧ site'.decl = inner
  external : w.lax ∨ ∀ name c, w.external.class? name = some c →
    (Mentionable name → Mentionable c.qualifiedName) ∧ c.symbol.scheme = .external ∧
      ∀ s, Offers c s → s.scheme = .external
  constants : w.lax ∨ ∀ c name f, w.external.constant? c name = some f → f.symbol.scheme = .external

/-- What holds of them where every type has a name of its own. -/
structure World.Lawful (w : World) : Prop extends World.Grounded w where
  params : ∀ site ∈ w.sites, ∀ c, w.project.class? site.name = some c →
    ∀ p ∈ site.decl.typeParams, ∃ s, Plan.bound c.typeParamSymbols p = some s

instance {w : World} : Coe w.Lawful w.Grounded := ⟨World.Lawful.toGrounded⟩

/-- What is asked of the parts of a tree. -/
def Fine (w : World) (n : Node) : Prop :=
  match n.part with
  | .mention name | .declaration name => Plain name.text
  | .ofClass b =>
    w.classes b ∧ ((ClassBody.typesOf b.body.members).map fun d => d.name.text).Nodup ∧
      (w.distinct → (b.body.fieldNames.map Ident.text).Nodup ∧
        (b.typeParams.map fun p => p.name.text).Nodup)

/-- No number has been given out twice in one epoch. -/
structure Numbered (t : Moment) : Prop where
  epochs : ∀ g ∈ t.ledger.grants, g.epoch ≤ t.ledger.epoch ∧
    (g.epoch = t.ledger.epoch → g.number < t.progress.ids.next)
  numbers : ∀ g ∈ t.ledger.grants, ∀ h ∈ t.ledger.grants,
    g.epoch = h.epoch → g.number = h.number → g = h
  homes : ∀ g ∈ t.ledger.grants, HousedAt t g.epoch g.owner

/-- What holds at every moment. -/
structure Ready (w : World) (s : Setting) (t : Moment) : Prop extends Numbered t where
  lines : s.lines = w.lines
  imports : ∀ simple name, s.imports.single? simple = some name → Mentionable name
  project : t.progress.environment.project = w.project
  external : t.progress.environment.external = w.external
  policy : t.progress.ids.policy = w.policy
  named : ∀ name c, t.locals[name]? = some c →
    c.qualifiedName = name ∧ MadeBefore t.progress.classCount name
  known : ∀ (name : String) (c : ClassInfo), t.locals[name]? = some c →
    ClassSound w t c ∧ (Safe w name → Sound w t c.symbol)
  typeParams : ∀ (name : String) (vars : List (String × Symbol)),
    t.progress.typeParams[name]? = some vars →
      MadeBefore t.progress.classCount name ∧ ∀ v ∈ vars, Sound w t v.2
  scopes : ∀ sc ∈ t.progress.scopes, ScopeSound w t sc
  definitions : (t.progress.emission.occurrences.filter Occurrence.isDefinition).map
      (fun o => (o.region, o.symbol.id)) =
    (t.ledger.entries.map fun e => (w.lines.region e.name.range, e.symbol)).reverse
  references : ∀ o ∈ t.progress.emission.occurrences, o.isDefinition = false → Sound w t o.symbol
  infos : (t.progress.emission.infos.map fun i => i.symbol.id).Nodup ∧
    ∀ id, id ∈ t.progress.emission.infos.map (fun i => i.symbol.id) ↔
      ∃ e ∈ t.ledger.entries, e.symbol = id
  given : w.distinct → ∀ e ∈ t.ledger.entries, Given w t e.symbol e.name.range
  enclosing : ∀ o ∈ t.progress.enclosing, Housed t o.path
  oneEpoch : w.policy = .perUnit → t.ledger.epoch = 0

/-- What has been defined in between: the identifiers of the nodes that resolution came to, which are all
those it should come to unless a declaration had to be passed over. -/
def Covers (w : World) (ns : List Node) (t u : Moment) : Prop :=
  ∃ visited added, visited.Sublist (Nodes.reached ns) ∧ (u.Clean → visited = Nodes.reached ns) ∧
    u.ledger.entries = t.ledger.entries ++ added ∧ added.map Entry.name = Nodes.declared visited ∧
    ∀ n ∈ visited, ∀ b ∈ n.around, Accounted w u b

/-- What a step has come to from a moment: to another one at which all is well, with the nodes resolved. -/
def Leads {α : Type} (w : World) (s : Setting) (t : Moment) (ns : List Node) (r : α × Progress)
    (post : α → Moment → Prop) : Prop :=
  ∃ u, r.2 = u.progress ∧ t ≤ u ∧ t.Around u ∧ Ready w s u ∧ Covers w ns t u ∧ post r.1 u

/-- The step resolves the nodes whenever it is taken from a moment on. -/
def Walks {α : Type} (w : World) (since : Moment) (ns : List Node) (x : Resolve α)
    (post : α → Moment → Prop) : Prop :=
  (∀ n ∈ ns, Fine w n) → ∀ s t, Ready w s t → since ≤ t → Leads w s t ns (x s t.progress) post

/-- The same of a step whose answer does not matter. -/
abbrev Resolves {α : Type} (w : World) (since : Moment) (ns : List Node) (x : Resolve α) : Prop :=
  Walks w since ns x fun _ _ => True

end JavaIndex
