import JavaIndex.Proofs.Resolve.Lookups
import JavaIndex.Proofs.Resolve.TypeSegments
import JavaIndex.Proofs.Symbol.Placeholders
import JavaIndex.Resolve.Walk

/-! The steps that use what is known: they look names up, mention symbols and report problems. Nothing is
defined by them, and every symbol that they mention is sound. -/
namespace JavaIndex

open ClassName (Mentionable)

variable {w : World} {since t u : Moment} {ns ms : List Node} {α : Type}

theorem EnvironmentSound.mono {env : Environment} (h : EnvironmentSound w t env) (le : t.Keeps u) :
    EnvironmentSound w u env :=
  ⟨fun name c found => (h.members name c found).mono le,
    fun name c found safe => (h.named name c found safe).mono le,
    fun c name f found => (h.constants c name f found).mono le⟩

theorem SegmentSound.mono {g : Segment} (h : SegmentSound w t g) (le : t.Keeps u) : SegmentSound w u g :=
  ⟨fun s hs => (h.symbol s hs).mono le, fun c hc => (h.ofClass c hc).mono le⟩

theorem ReceiverSound.mono {r : Receiver} (h : ReceiverSound w t r) (le : t.Keeps u) : ReceiverSound w u r :=
  fun c hc => (h c hc).mono le

/-- What can be found at a place may be used. -/
structure PlaceSound (w : World) (t : Moment) (place : Place) : Prop where
  scopes : ∀ sc ∈ place.scopes, ScopeSound w t sc
  imports : ∀ simple name, place.imports.single? simple = some name → Mentionable name

/-- The candidates for a call may be used. -/
def CandidatesSound (w : World) (t : Moment) (cs : List Candidate) : Prop :=
  ∀ c ∈ cs, Sound w t c.symbol

/-- What the name of a type leads to may be used. -/
structure NamedTypeSound (w : World) (t : Moment) (n : NamedType) : Prop where
  ofClass : ∀ c, n.info = some c → ClassNamed w t c
  safe : ∀ name, n.type.className? = some name → Safe w name

/-! What is noted. -/

namespace Moment

/-- The same moment with more mentions and problems. -/
def withNotes (t : Moment) (emission : Emission) (problems : List Diagnostic) : Moment :=
  { t with progress := { t.progress with emission, problems } }

theorem le_withNotes (t : Moment) (emission : Emission) {problems : List Diagnostic}
    (more : ∀ d ∈ t.progress.problems, d ∈ problems) : t ≤ t.withNotes emission problems :=
  ⟨.of_eq rfl, fun _ _ h => h, fun _ _ h => h, le_refl _, le_refl _, fun _ => rfl,
    fun clean d hd => clean d (more d hd)⟩

end Moment

theorem Ready.withNotes {s : Setting} {emission : Emission} {problems : List Diagnostic}
    (ready : Ready w s t) (more : ∀ d ∈ t.progress.problems, d ∈ problems)
    (definitions : emission.occurrences.filter Occurrence.isDefinition =
      t.progress.emission.occurrences.filter Occurrence.isDefinition)
    (infos : emission.infos = t.progress.emission.infos)
    (references : ∀ o ∈ emission.occurrences, o.isDefinition = false → Sound w t o.symbol) :
    Ready w s (t.withNotes emission problems) where
  lines := ready.lines
  imports := ready.imports
  project := ready.project
  external := ready.external
  policy := ready.policy
  named := ready.named
  known name c hc :=
    let ⟨members, symbol⟩ := ready.known name c hc
    ⟨members.mono (.of_eq rfl),
      fun safe => (symbol safe).mono (.of_eq rfl)⟩
  typeParams name vars hvars :=
    let ⟨made, sound⟩ := ready.typeParams name vars hvars
    ⟨made, fun v hv => (sound v hv).mono (.of_eq rfl)⟩
  scopes sc hsc := (ready.scopes sc hsc).mono (.of_eq rfl)
  definitions := by
    simpa [Moment.withNotes, definitions] using ready.definitions
  references o ho used := (references o ho used).mono (.of_eq rfl)
  infos := by
    simpa [Moment.withNotes, infos] using ready.infos
  epochs := ready.epochs
  numbers := ready.numbers
  homes := ready.homes
  given distinct e he := (ready.given distinct e he).mono (.of_eq rfl)
  enclosing o ho := (ready.enclosing o ho).mono (t.le_withNotes emission more)
  oneEpoch := ready.oneEpoch

namespace Walks

/-- Nodes that declare nothing need no step of their own. -/
theorem silently {x : Resolve α} {post : α → Moment → Prop}
    (none : ∀ n ∈ ns, n.declared? = none ∧ n.around = [])
    (h : (∀ n ∈ ns, Fine w n) → Walks w since [] x post) : Walks w since ns x post := by
  intro fine s t ready le
  obtain ⟨u, hu, le₁, around₁, ready₁, covers, hpost⟩ := h fine (by simp) s t ready le
  exact ⟨u, hu, le₁, around₁, ready₁, .silent none covers.entries_eq, hpost⟩

theorem mentions_silent (names : List Ident) :
    ∀ n ∈ Nodes.mentions names, n.declared? = none ∧ n.around = [] := by
  intro n hn
  obtain ⟨i, -, rfl⟩ := List.mem_map.mp hn
  exact ⟨rfl, rfl⟩

theorem plain_of_fine {names : List Ident} (fine : ∀ n ∈ Nodes.mentions names, Fine w n) :
    ∀ n ∈ names.map Ident.text, Plain n := by
  intro n hn
  obtain ⟨i, hi, rfl⟩ := List.mem_map.mp hn
  exact fine _ (List.mem_map_of_mem hi)

/-- Mentions are looked up, and their words are plain. -/
theorem mentioning {names : List Ident} {x : Resolve α} {post : α → Moment → Prop}
    (h : (∀ n ∈ names.map Ident.text, Plain n) → Walks w since [] x post) :
    Walks w since (Nodes.mentions names) x post :=
  silently (mentions_silent names) fun fine => h (plain_of_fine fine)

theorem report (span : Span) (problem : Problem) :
    Walks w since [] (Resolve.report span problem) fun _ _ => True := by
  intro _ s t ready le
  have more : ∀ d ∈ t.progress.problems,
      d ∈ (⟨s.file, s.lines.region span, problem⟩ : Diagnostic) :: t.progress.problems :=
    fun d hd => List.mem_cons_of_mem _ hd
  exact ⟨t.withNotes t.progress.emission _, rfl, t.le_withNotes _ more, ⟨rfl, rfl⟩,
    ready.withNotes more rfl rfl ready.references, .nil rfl, trivial⟩

theorem reference (span : Span) {symbol : Symbol} (sound : Sound w since symbol) :
    Walks w since [] (Resolve.reference span symbol) fun _ _ => True := by
  intro _ s t ready le
  refine ⟨t.withNotes (t.progress.emission.reference (s.lines.region span) symbol
    t.progress.enclosing.head?) t.progress.problems, rfl, t.le_withNotes _ (fun d hd => hd), ⟨rfl, rfl⟩,
    ready.withNotes (fun d hd => hd) rfl rfl ?_, .nil rfl, trivial⟩
  intro o ho used
  obtain rfl | ho := List.mem_cons.mp ho
  · exact sound.mono le.toKeeps
  · exact ready.references o ho used

theorem mention (name : Ident) {symbol : Option Symbol}
    (sound : ∀ s, symbol = some s → Sound w since s) :
    Walks w since [] (Resolve.mention name symbol) fun _ _ => True := by
  cases symbol with
  | none => exact Walks.pure fun _ _ => trivial
  | some s => exact reference name.range (sound s rfl)

theorem mentionAll {names : List (Ident × Option Symbol)}
    (sound : ∀ n ∈ names, ∀ s, n.2 = some s → Sound w since s) :
    Walks w since [] (Resolve.mentionAll names) fun _ _ => True := by
  induction names with
  | nil => exact Walks.pure fun _ _ => trivial
  | cons n rest ih =>
    refine (mention n.1 (sound n List.mem_cons_self)).seq fun t le => ?_
    exact (ih fun m hm => sound m (List.mem_cons_of_mem _ hm)).from_later le

theorem readSetting : Walks w since [] (read : Resolve Setting) fun s _ => s.lines = w.lines :=
  Walks.still (fun _ _ => rfl) fun _ _ ready _ => ready.lines

theorem unresolved (names : List Ident) (isValue : Bool) :
    Walks w since [] (Resolve.unresolved names isValue) fun _ _ => True := by
  unfold Resolve.unresolved
  split
  · exact Walks.pure fun _ _ => trivial
  · rename_i first rest
    refine (report _ _).seq fun t le => readSetting.bind_nil fun s u le' _ => ?_
    split
    · refine mentionAll fun n hn s hs => .external ?_
      obtain ⟨x, hx, h⟩ := List.mem_map.mp (List.of_mem_zip (a := n.1) (b := n.2) hn).2
      cases Option.some.inj (h.trans hs)
      have unknown : s.StandsIn := ⟨_, isValue, hx⟩
      exact unknown.scheme
    · exact Walks.pure fun _ _ => trivial

/-! What is read. -/

variable (grounded : w.Grounded)

include grounded in
theorem environment : Walks w since [] Resolve.environment fun env t => EnvironmentSound w t env :=
  Walks.still (fun _ _ => rfl) fun _ _ ready _ => ready.environment grounded

theorem place : Walks w since [] Resolve.place fun place t => PlaceSound w t place :=
  Walks.still (fun _ _ => rfl) fun _ _ ready _ => ⟨ready.scopes, ready.imports⟩

/-- The class around, of which at least the members may be used. -/
theorem progress : Walks w since [] (get : Resolve Progress) fun p t =>
    ∀ c, p.scopes.enclosingClass? = some c → ClassSound w t c := by
  refine Walks.still (fun _ _ => rfl) fun s t ready _ c hc => ?_
  obtain ⟨sc, hsc, h⟩ := List.exists_of_findSome?_eq_some hc
  exact (ready.scopes sc hsc).members c h

/-! Names of types. -/

include grounded

theorem typePath {names : List Ident} (plain : ∀ n ∈ names.map Ident.text, Plain n) :
    Walks w since [] (Resolve.typePath names) fun path t => ∀ g ∈ path, SegmentSound w t g := by
  refine (environment grounded).bind_nil fun env t _ sound => ?_
  refine place.bind_pure fun place u le h v le' g hg => ?_
  exact ((sound.mono le.toKeeps).typePath h.scopes h.imports plain g hg).mono le'.toKeeps

omit grounded in
theorem mentionPath (names : List Ident) {path : List Segment}
    (sound : ∀ g ∈ path, SegmentSound w since g) :
    Walks w since [] (Resolve.mentionPath names path) fun _ _ => True := by
  refine (mentionAll fun n hn s hs => ?_).seq fun t le => unresolved _ _
  obtain ⟨g, hg, h⟩ := List.mem_map.mp (List.of_mem_zip (a := n.1) (b := n.2) hn).2
  exact (sound g (List.takeWhile_subset _ hg)).symbol s (h.trans hs)

omit grounded in
theorem pathClass_named {path : List Segment} {c : ClassInfo} (sound : ∀ g ∈ path, SegmentSound w t g)
    (h : Resolve.pathClass? path = some c) : ClassNamed w t c := by
  obtain ⟨g, last, hg⟩ := Option.bind_eq_some_iff.mp h
  exact (sound g (List.mem_of_getLast? last)).ofClass c hg

theorem annotationType (names : List Ident) :
    Walks w since (Nodes.mentions names) (Resolve.annotationType names) fun c? t =>
      ∀ c, c? = some c → ClassNamed w t c := by
  refine mentioning fun plain => (typePath grounded plain).bind_nil fun path t _ sound => ?_
  refine (mentionPath names sound).bind_pure fun _ u le _ v le' c hc => ?_
  exact (pathClass_named sound hc).mono (Moment.keeps_of_le (le.trans le'))

omit grounded in
theorem annotationElement {c? : Option ClassInfo} (name : Option Ident)
    (named : ∀ c, c? = some c → ClassNamed w since c) :
    Walks w since [] (Resolve.annotationElement c? name) fun _ _ => True := by
  unfold Resolve.annotationElement
  split
  · rename_i c name
    refine mention name fun s hs => ?_
    obtain ⟨m, hm, rfl⟩ := Option.map_eq_some_iff.mp hs
    exact (named c rfl).members _ (.method (List.mem_of_mem_filter (List.mem_of_head? hm)))
  · exact Walks.pure fun _ _ => trivial

theorem namedType {names : List Ident} {mentionClass : Bool} {annotations : Resolve Unit}
    {args : Resolve (List JavaType)} (onNames : Walks w since ns annotations fun _ _ => True)
    (inBrackets : Walks w since ms args fun _ _ => True) :
    Walks w since (Nodes.mentions names ++ (ns ++ ms))
      (Resolve.namedType names mentionClass annotations args) fun n t => NamedTypeSound w t n := by
  rw [Resolve.namedType_eq]
  have path : Walks w since (Nodes.mentions names) (Resolve.typePath names)
      fun path t => ∀ g ∈ path, SegmentSound w t g := mentioning (typePath grounded)
  refine path.bind fun path t le sound => (onNames.from_later le).seq fun u le' => ?_
  have later : ∀ g ∈ path, SegmentSound w u g := fun g hg => (sound g hg).mono le'.toKeeps
  have rest : ∀ v, u ≤ v → Walks w v ms
      (args >>= fun args => Pure.pure (⟨Environment.typeOfPath path (names.map Ident.text) args,
        Resolve.pathClass? path⟩ : NamedType)) fun n t => NamedTypeSound w t n := by
    intro v le''
    refine (inBrackets.from_later ((le.trans le').trans le'')).bind_pure fun args x le₁ _ y le₂ => ?_
    have atEnd : ∀ g ∈ path, SegmentSound w y g :=
      fun g hg => (later g hg).mono (Moment.keeps_of_le ((le''.trans le₁).trans le₂))
    exact ⟨fun c hc => pathClass_named atEnd hc,
      fun name hname => EnvironmentSound.typeOfPath atEnd hname⟩
  cases mentionClass with
  | true => exact (mentionPath names later).seq_nil rest
  | false =>
    refine (mentionPath _ fun g hg => later g ?_).seq_nil rest
    unfold Resolve.withoutClass at hg
    split at hg
    · exact List.dropLast_subset _ hg
    · exact hg

theorem qualifiedName (names : List Ident) :
    Walks w since (Nodes.mentions names) (Resolve.qualifiedName names) fun c? t =>
      ∀ c, c? = some c → ClassNamed w t c := by
  refine mentioning fun plain => (environment grounded).bind_nil fun env t _ sound => ?_
  have segments := sound.qualified plain
  refine (mentionPath names segments).bind_pure fun _ u le _ v le' c hc => ?_
  exact (pathClass_named segments hc).mono (Moment.keeps_of_le (le.trans le'))

theorem importedMember {c : ClassInfo} (name : Ident) :
    Walks w since [] (Resolve.importedMember c name) fun _ _ => True := by
  refine (environment grounded).bind_nil fun env t _ sound => ?_
  split
  · rename_i symbol found
    refine reference name.range ?_
    obtain (h | ⟨-, h⟩) | ⟨-, h⟩ := by
      simpa only [Resolve.importable?, Option.or_eq_some_iff] using found
    · obtain ⟨f, hf, rfl⟩ := Option.map_eq_some_iff.mp h
      exact sound.field hf
    · obtain ⟨m, hm, rfl⟩ := Option.map_eq_some_iff.mp h
      exact sound.methods m (List.mem_of_head? hm)
    · obtain ⟨inner, hinner, rfl⟩ := Option.map_eq_some_iff.mp h
      exact (sound.memberType hinner).symbol
  · exact unresolved _ _

theorem importDecl (i : ImportDecl) :
    Walks w since (Nodes.mentions i.path) (Resolve.importDecl i) fun _ _ => True := by
  unfold Resolve.importDecl
  split
  · split
    · exact silently (mentions_silent _) fun _ => Walks.pure fun _ _ => trivial
    · rename_i member last
      have split : Nodes.mentions i.path =
          Nodes.mentions i.path.dropLast ++ Nodes.mentions [member] := by
        conv => lhs; rw [← List.dropLast_append_getLast? member last]
        simp [Nodes.mentions]
      rw [split]
      refine (qualifiedName grounded i.path.dropLast).bind fun c? t _ _ => ?_
      refine silently (mentions_silent _) fun _ => ?_
      split
      · exact importedMember grounded member
      · exact Walks.pure fun _ _ => trivial
  · exact (qualifiedName grounded i.path).trivially.discard

/-! Names of values. -/

theorem nameChain (names : List Ident) :
    Walks w since (Nodes.mentions names) (Resolve.nameChain names) fun r t => ReceiverSound w t r := by
  refine mentioning fun plain => (environment grounded).bind_nil fun env t _ sound => ?_
  refine place.bind_nil fun place u le h => ?_
  have selected := (sound.mono le.toKeeps).chain h.scopes h.imports plain
  refine (mentionAll fun n hn s hs => ?_).bind_nil fun _ v le' _ => ?_
  · obtain ⟨x, hx, hsymbol⟩ := List.mem_map.mp (List.of_mem_zip (a := n.1) (b := n.2) hn).2
    exact (selected x hx).symbol s (hsymbol.trans hs)
  · split
    · refine Walks.pure fun v' le'' => ?_
      cases last : (env.chain place (names.map Ident.text)).getLast? with
      | none => exact .unknown
      | some x =>
        exact ((selected x (List.mem_of_getLast? last)).receiver).mono (Moment.keeps_of_le (le'.trans le''))
    · exact (unresolved _ _).bind_pure fun _ _ _ _ _ _ => .unknown

theorem selectMember (r : Receiver) (name : Ident) :
    Walks w since [] (Resolve.selectMember r name) fun _ _ => True := by
  refine (environment grounded).bind_nil fun env t _ sound => ?_
  split
  · rename_i x found
    exact (mention name (sound.member found).symbol).bind_pure fun _ _ _ _ _ _ => trivial
  · exact (unresolved _ _).bind_pure fun _ _ _ _ _ _ => trivial

/-! Calls. -/

omit grounded in
theorem mentionSelected (span : Span) (name : String) {cs : List Candidate} (args : List JavaType)
    (sound : CandidatesSound w since cs) :
    Walks w since [] (Resolve.mentionSelected span name cs args) fun _ _ => True := by
  have chosen : ∀ c, (Selection.select cs args).candidate? = some c → Sound w since c.symbol :=
    fun c h => sound c (Selection.chosen_mem h)
  unfold Resolve.mentionSelected
  split
  · rename_i c same
    exact (reference span (chosen c (by simp [same, Selection.candidate?]))).bind_pure
      fun _ _ _ _ _ _ => trivial
  · rename_i c survivors same
    refine (reference span (chosen c (by simp [same, Selection.candidate?]))).seq_nil fun _ _ => ?_
    exact (report _ _).bind_pure fun _ _ _ _ _ _ => trivial
  · exact Walks.pure fun _ _ => trivial

theorem calledMethods (r : Option Receiver) (name : String) :
    Walks w since [] (Resolve.calledMethods r name) fun cs t => CandidatesSound w t cs := by
  unfold Resolve.calledMethods
  split
  · refine (environment grounded).bind_pure fun env t _ sound u le c hc => ?_
    exact (sound.methods c hc).mono le.toKeeps
  · refine (environment grounded).bind_nil fun env t _ sound => ?_
    refine place.bind_pure fun place u le h v le' c hc => ?_
    exact (sound.callables c hc).mono (Moment.keeps_of_le (le.trans le'))

omit grounded in
theorem callMethod (name : Ident) {cs : List Candidate} (args : List JavaType)
    (sound : CandidatesSound w since cs) :
    Walks w since [] (Resolve.callMethod name cs args) fun _ _ => True := by
  refine (mentionSelected name.range name.text args sound).bind_nil fun c? t _ _ => ?_
  split
  · exact Walks.pure fun _ _ => trivial
  · exact (unresolved _ _).bind_pure fun _ _ _ _ _ _ => trivial

theorem delegateClass (kind : Delegate) :
    Walks w since [] (Resolve.delegateClass kind) fun found t =>
      ∀ c, found = some c → ClassSound w t c.1 := by
  refine progress.bind_nil fun p t _ around => ?_
  split
  · exact Walks.pure fun _ _ => by simp
  · rename_i c hc
    split
    · refine Walks.pure fun u le c' hc' => ?_
      cases Option.some.inj hc'
      exact (around c hc).mono le.toKeeps
    · rename_i name args _
      refine (environment grounded).bind_pure fun env u le sound v le' c' hc' => ?_
      obtain ⟨parent, found, rfl⟩ := Option.map_eq_some_iff.mp hc'
      exact (sound.members name parent found).mono le'.toKeeps
    · exact Walks.pure fun _ _ => by simp

theorem callDelegate (kind : Delegate) (keyword : Span) (args : List JavaType) :
    Walks w since [] (Resolve.callDelegate kind keyword args) fun _ _ => True := by
  refine (delegateClass grounded kind).bind_nil fun found t _ sound => ?_
  split
  · rename_i c typeArgs
    exact (mentionSelected keyword _ args
      (EnvironmentSound.constructors (sound (c, typeArgs) rfl))).discard
  · exact Walks.pure fun _ _ => trivial

theorem innerClass (outer : Receiver) (name : Ident) :
    Walks w since [] (Resolve.innerClass outer name) fun n t => ∀ c, n.info = some c → ClassNamed w t c := by
  refine (environment grounded).bind_nil fun env t _ sound => ?_
  dsimp only
  split
  · rename_i inner found
    obtain ⟨c, -, h⟩ := Option.bind_eq_some_iff.mp found
    refine Walks.pure fun u le c' hc' => ?_
    cases Option.some.inj hc'
    exact (sound.memberType h).mono le.toKeeps
  · exact (unresolved _ _).bind_pure fun _ _ _ _ _ _ => by simp

omit grounded in
theorem callConstructor (name : Ident) {created : NamedType} (args : List JavaType)
    (named : ∀ c, created.info = some c → ClassNamed w since c) :
    Walks w since [] (Resolve.callConstructor name created args) fun _ _ => True := by
  unfold Resolve.callConstructor
  split
  · exact Walks.pure fun _ _ => trivial
  · rename_i c hc
    refine (mentionSelected name.range name.text args
      (EnvironmentSound.constructors (named c hc).members)).bind_nil fun found t le _ => ?_
    split
    · exact Walks.pure fun _ _ => trivial
    · exact reference name.range ((named c hc).symbol.mono le.toKeeps)

omit grounded in
theorem mentionFirst (name : Ident) {cs : List Candidate} (sound : CandidatesSound w since cs) :
    Walks w since [] (Resolve.mentionFirst name cs) fun _ _ => True := by
  unfold Resolve.mentionFirst
  split
  · exact Walks.pure fun _ _ => trivial
  · rename_i c rest
    refine (reference name.range (sound c List.mem_cons_self)).seq_nil fun _ _ => ?_
    dsimp only
    split
    · exact Walks.pure fun _ _ => trivial
    · exact (report _ _).bind_pure fun _ _ _ _ _ _ => trivial

theorem mentionMethod {r : Receiver} (name : Ident) (sound : ReceiverSound w since r) :
    Walks w since [] (Resolve.mentionMethod r name) fun _ _ => True := by
  unfold Resolve.mentionMethod
  split
  · split
    · rename_i c
      have named := sound c rfl
      refine (mentionFirst name (EnvironmentSound.constructors named.members)).bind_nil fun _ t le _ => ?_
      split
      · exact Walks.pure fun _ _ => trivial
      · exact reference name.range (named.symbol.mono le.toKeeps)
    · exact Walks.pure fun _ _ => trivial
  · refine (environment grounded).bind_nil fun env t _ sound => ?_
    refine (mentionFirst name sound.methods).bind_nil fun _ u le _ => ?_
    split
    · exact Walks.pure fun _ _ => trivial
    · exact unresolved _ _

theorem receiverOfType {type : JavaType} (safe : ∀ name, type.className? = some name → Safe w name) :
    Walks w since [] (Resolve.receiverOfType type) fun r t => ReceiverSound w t r := by
  refine (environment grounded).bind_nil fun env t _ sound => ?_
  split
  · rename_i c found
    obtain ⟨name, hname, hc⟩ := Option.bind_eq_some_iff.mp found
    exact Walks.pure fun u le => .ofClassNamed ((sound.named name c hc (safe name hname)).mono le.toKeeps)
  · exact Walks.pure fun _ _ => .value type

omit grounded in
theorem thisType : Walks w since [] Resolve.thisType fun _ _ => True :=
  Walks.still (fun _ _ => rfl) fun _ _ _ _ => trivial

omit grounded in
theorem superOf (qualifier : Option Receiver)
    (sound : ∀ r, qualifier = some r → ReceiverSound w since r) :
    Walks w since [] (Resolve.superOf qualifier) fun r t => ReceiverSound w t r := by
  unfold Resolve.superOf
  split
  · exact Walks.pure fun _ _ => .value _
  · exact Walks.pure fun t le => (sound _ rfl).mono le.toKeeps
  · refine Walks.still (fun _ _ => rfl) fun s t _ _ => ?_
    change ReceiverSound w t
      ((((t.progress.scopes.enclosingClass?).bind ClassInfo.superclass).map Receiver.value).getD .unknown)
    cases (t.progress.scopes.enclosingClass?).bind ClassInfo.superclass with
    | none => exact .unknown
    | some type => exact .value type

theorem enumConstant (selector : JavaType) (label : Expr) :
    Walks w since [] (Resolve.enumConstant? selector label) fun found t =>
      ∀ x, found = some x → Sound w t x.2 ∧ label = .name x.1 := by
  refine (environment grounded).bind_nil fun env t _ sound => ?_
  split
  · rename_i name c found
    split
    · refine Walks.pure fun u le x hx => ?_
      obtain ⟨f, hf, rfl⟩ := Option.map_eq_some_iff.mp hx
      exact ⟨(sound.field hf).mono le.toKeeps, rfl⟩
    · exact Walks.pure fun _ _ => by simp
  · exact Walks.pure fun _ _ => by simp

end Walks
end JavaIndex
