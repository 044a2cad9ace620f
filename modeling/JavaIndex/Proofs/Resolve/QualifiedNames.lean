import JavaIndex.Proofs.Environment.Keyed
import JavaIndex.Proofs.Resolve.Known
import JavaIndex.Proofs.Resolve.TypeSegments
import JavaIndex.Proofs.Resolve.World
import JavaIndex.Proofs.Text.Segments

/-! Fully qualified names. An import, a type, an annotation and an expression each come to the class of such a name in
their own way. They cut the name at the same place, where the first class is reached, mention the same packages and
the same class, and go on from that class to what follows it. -/
namespace JavaIndex

namespace Environment

variable {env : Environment} {project : ProjectClasses} {external : ExternalTable} {package : List String}
  {simple : String} {c : ClassInfo}

/-- The name of a class in a package: all beginnings of the package's name are packages, and none of them but a lone
first segment, which stands in no package, is a class. A segment that could be both is the class. -/
structure DenotesClass (env : Environment) (package : List String) (simple : String) (c : ClassInfo) : Prop where
  packages : ∀ path, path <+: package → path ≠ [] → env.hasPackage (Dotted.join path) = true
  noClass : ∀ path name, path ++ [name] <+: package → path ≠ [] →
    env.class? (Dotted.within (Dotted.join path) name) = none
  found : env.class? (Dotted.within (Dotted.join package) simple) = some c

/-- The symbols of the packages and of the class, one for each segment. -/
def spelling (env : Environment) (package : List String) (c : ClassInfo) : List Symbol :=
  (beginnings package).map env.packageSymbol ++ [c.symbol]

/-- What the segments select in an expression, where a package has no members. -/
def selections (env : Environment) (package : List String) (c : ClassInfo) : List Selected :=
  (beginnings package).map (fun name => ⟨some (env.packageSymbol name), .unknown⟩) ++ [.ofClass c]

theorem symbols_selections (package : List String) :
    (env.selections package c).map Selected.symbol = (env.spelling package c).map some := by
  simp [selections, spelling, Selected.ofClass]

/-- A project and libraries, and classes in bodies, whose names have a mark that no program can write. -/
structure Over (project : ProjectClasses) (external : ExternalTable) (env : Environment) : Prop where
  project : env.project = project
  external : env.external = external
  marked : ∀ (name : String) (c : ClassInfo), env.locals[name]? = some c → '<' ∈ name.toList

namespace Over

variable (stands : env.Over project external)

theorem start (project : ProjectClasses) (external : ExternalTable) :
    (Environment.start project external).Over project external :=
  ⟨rfl, rfl, fun name c found => by simp [Environment.start] at found⟩

include stands

theorem class? {name : String} (plain : '<' ∉ name.toList) :
    env.class? name = (Environment.start project external).class? name := by
  have notInBody : env.locals[name]? = none := by
    cases found : env.locals[name]? with
    | none => rfl
    | some c => exact absurd (stands.marked name c found) plain
  have notAtStart : (Environment.start project external).locals[name]? = none := by simp [Environment.start]
  rw [Environment.class?, Environment.class?, notInBody, notAtStart, stands.project, stands.external]
  rfl

theorem hasPackage (name : String) : env.hasPackage name = (Environment.start project external).hasPackage name := by
  rw [Environment.hasPackage, Environment.hasPackage, stands.project, stands.external]
  rfl

theorem spelling (package : List String) (c : ClassInfo) :
    env.spelling package c = (Environment.start project external).spelling package c := by
  have same : env.packageSymbol = (Environment.start project external).packageSymbol :=
    funext fun name => by rw [packageSymbol, packageSymbol, stands.project]; rfl
  rw [Environment.spelling, Environment.spelling, same]

/-- What a name denotes that can be written does not depend on the classes in bodies. -/
theorem denotesClass (denotes : (Environment.start project external).DenotesClass package simple c)
    (plain : ∀ n ∈ package, '<' ∉ n.toList) (last : '<' ∉ simple.toList) : env.DenotesClass package simple c := by
  have joined {path : List String} (h : ∀ n ∈ path, '<' ∉ n.toList) {name : String} (own : '<' ∉ name.toList) :
      '<' ∉ (Dotted.within (Dotted.join path) name).toList := by
    have outer : '<' ∉ (Dotted.join path).toList := notMem_intercalate (by decide) h
    unfold Dotted.within
    split
    · exact own
    · simp [String.toList_append, outer, own]
  refine ⟨fun path front nonempty => ?_, fun path name front nonempty => ?_, ?_⟩
  · rw [stands.hasPackage]
    exact denotes.packages path front nonempty
  · have here := fun n hn => plain n (front.subset hn)
    rw [stands.class? (joined (fun n hn => here n (List.mem_append_left _ hn)) (here name (by simp)))]
    exact denotes.noClass path name front nonempty
  · rw [stands.class? (joined plain last)]
    exact denotes.found

end Over

/-- At every moment of the way through a file there is no more than the project, the libraries and such classes. -/
theorem Over.ofReady {w : World} {s : Setting} {t : Moment} (ready : Ready w s t) :
    t.progress.environment.Over w.project w.external :=
  ⟨ready.project, ready.external, fun name c found => (ready.named name c found).2.marked⟩

/-! The place where a name is cut. -/

theorem exists_denotesClass_below {before more : List String} (nonempty : before ≠ [])
    (packages : ∀ path, path <+: before ++ more → path ≠ [] → env.hasPackage (Dotted.join path) = true)
    (noClass : ∀ path name, path ++ [name] <+: before → path ≠ [] →
      env.class? (Dotted.within (Dotted.join path) name) = none)
    (found : env.class? (Dotted.within (Dotted.join (before ++ more)) simple) = some c) :
    ∃ package name d rest, package ≠ [] ∧ env.DenotesClass package name d ∧
      before ++ more ++ [simple] = package ++ name :: rest := by
  induction more generalizing before with
  | nil =>
    rw [List.append_nil] at packages found ⊢
    exact ⟨before, simple, c, [], nonempty, ⟨packages, noClass, found⟩, rfl⟩
  | cons next more ih =>
    cases here : env.class? (Dotted.within (Dotted.join before) next) with
    | some d =>
      have front (path : List String) (h : path <+: before) : path <+: before ++ next :: more :=
        h.trans (List.prefix_append _ _)
      exact ⟨before, next, d, more ++ [simple], nonempty, ⟨fun path h => packages path (front path h), noClass, here⟩,
        by simp⟩
    | none =>
      have none : ∀ path name, path ++ [name] <+: before ++ [next] → path ≠ [] →
          env.class? (Dotted.within (Dotted.join path) name) = none := by
        intro path name front inside
        obtain whole | shorter := List.prefix_concat_iff.mp front
        · obtain ⟨rfl, last⟩ := List.append_inj' whole rfl
          cases last
          exact here
        · exact noClass path name shorter inside
      have together : before ++ [next] ++ more = before ++ next :: more := by simp
      have later := ih (by simp : before ++ [next] ≠ []) (by rwa [together]) none (by rwa [together])
      rwa [together] at later

/-- Nothing stands before the end of a lone segment. -/
theorem eq_nil_of_front {path : List String} {name first : String} (front : path ++ [name] <+: [first]) :
    path = [] := by
  have short := front.length_le
  rw [List.length_append, List.length_singleton, List.length_singleton] at short
  exact List.length_eq_zero_iff.mp (by omega)

/-- A name that can be read as packages and a class in the last of them begins with one that denotes a class. -/
theorem exists_denotesClass {first : String} {inner : List String}
    (packages : ∀ path, path <+: first :: inner → path ≠ [] → env.hasPackage (Dotted.join path) = true)
    (found : env.class? (Dotted.within (Dotted.join (first :: inner)) simple) = some c) :
    ∃ package name d rest, package ≠ [] ∧ env.DenotesClass package name d ∧
      first :: inner ++ [simple] = package ++ name :: rest :=
  exists_denotesClass_below (List.cons_ne_nil first []) packages
    (fun _ _ front inside => absurd (eq_nil_of_front front) inside) found

theorem DenotesClass.classBelow? {before more : List String} (denotes : env.DenotesClass (before ++ more) simple c)
    (nonempty : before ≠ []) (rest : List String) :
    env.classBelow? before (more ++ simple :: rest) = some (before ++ more, c, rest) := by
  induction more generalizing before with
  | nil =>
    rw [List.append_nil] at denotes ⊢
    rw [List.nil_append, Environment.classBelow?, denotes.packages before (List.prefix_refl _) nonempty,
      denotes.found]
    rfl
  | cons name more ih =>
    have here : before <+: before ++ name :: more := List.prefix_append _ _
    have next : before ++ [name] <+: before ++ name :: more := ⟨more, by simp⟩
    rw [List.cons_append, Environment.classBelow?, denotes.packages before here nonempty,
      denotes.noClass before name next nonempty]
    have onward : env.DenotesClass (before ++ [name] ++ more) simple c := by simpa using denotes
    simpa using ih onward (by simp)

theorem DenotesClass.qualifiedClass? {first : String} {inner : List String}
    (denotes : env.DenotesClass (first :: inner) simple c) (rest : List String) :
    env.qualifiedClass? (first :: inner ++ simple :: rest) = some (first :: inner, c, rest) :=
  have onward : env.DenotesClass ([first] ++ inner) simple c := denotes
  onward.classBelow? (List.cons_ne_nil _ _) rest

/-! What the segments of the name mean, in each of the ways to read it. -/

section

variable {first : String} {inner : List String} {place : Place} (denotes : env.DenotesClass (first :: inner) simple c)
  (rest : List String)
include denotes

theorem DenotesClass.qualified : env.qualified (first :: inner ++ simple :: rest) =
    env.packagePath (first :: inner) ++ .ofClass c :: env.memberPath c rest := by
  rw [Environment.qualified, denotes.qualifiedClass?]

theorem DenotesClass.typePath (noType : env.simpleType? place first = none) :
    env.typePath place (first :: inner ++ simple :: rest) =
      env.packagePath (first :: inner) ++ .ofClass c :: env.memberPath c rest := by
  have more : (inner ++ simple :: rest).isEmpty = false := by simp
  rw [List.cons_append, Environment.typePath, noType, more]
  exact denotes.qualified rest

theorem DenotesClass.chain (noValue : env.value? place first = none) (noType : env.simpleType? place first = none) :
    env.chain place (first :: inner ++ simple :: rest) =
      env.selections (first :: inner) c ++ env.memberChain (.ofClass c) rest := by
  have cut := denotes.qualifiedClass? rest
  rw [List.cons_append] at cut ⊢
  rw [Environment.chain, chainHead?, noValue, noType, cut]
  rfl

end

end Environment

namespace Resolve

/-- Member types selected one after the other, from a class on. The first name that selects none ends the way, and is
reported with all that follow it. -/
def memberTypes (env : Environment) (c : ClassInfo) : List Ident → Resolve (Option ClassInfo)
  | [] => return some c
  | name :: rest =>
    match env.memberType? c name.text with
    | some inner => do
      reference name.range inner.symbol
      memberTypes env inner rest
    | none => do
      unresolved (name :: rest) false
      return none

/-- Fields and member types selected one after the other. The first name that selects none ends the way, and is
reported with all that follow it. -/
def memberNames (env : Environment) (r : Receiver) : List Ident → Resolve Receiver
  | [] => return r
  | name :: rest =>
    match env.member? r name.text with
    | some s => do
      mention name s.symbol
      memberNames env s.receiver rest
    | none => do
      unresolved (name :: rest) true
      return .unknown

/-! Names mentioned one part after the other. -/

theorem mentionAll_append (names more : List (Ident × Option Symbol)) :
    mentionAll (names ++ more) = (do mentionAll names; mentionAll more) := by
  induction names with
  | nil => rfl
  | cons name names ih => rw [List.cons_append, mentionAll, mentionAll, ih, bind_assoc]

theorem mentionPath_append {names : List Ident} {symbols : List Symbol} {known : List Segment}
    (means : known.map Segment.symbol? = symbols.map some) (length : names.length = symbols.length)
    (rest : List Ident) (path : List Segment) :
    mentionPath (names ++ rest) (known ++ path) = (do
      mentionAll (names.zip (symbols.map some))
      mentionPath rest path) := by
  induction known generalizing names symbols with
  | nil =>
    obtain rfl : symbols = [] := by simpa using means.symm
    obtain rfl := List.length_eq_zero_iff.mp length
    rfl
  | cons g known ih =>
    cases symbols with
    | nil => cases means
    | cons symbol symbols =>
      cases names with
      | nil => cases length
      | cons name names =>
        obtain ⟨here, later⟩ := List.cons.inj means
        rw [List.cons_append, List.cons_append, mentionPath_cons here, ih later (Nat.succ.inj length), ← bind_assoc]
        rfl

variable {env : Environment}

/-- The segments behind a class at once, or one after the other. -/
theorem memberPath_eq (c : ClassInfo) (front : List Segment) (rest : List Ident) :
    (do
      mentionPath rest (env.memberPath c (rest.map Ident.text))
      return pathClass? (front ++ .ofClass c :: env.memberPath c (rest.map Ident.text))) =
        memberTypes env c rest := by
  induction rest generalizing c front with
  | nil => simp [Environment.memberPath, memberTypes, pathClass?, Segment.class?, mentionPath, mentionAll, unresolved]
  | cons name rest ih =>
    rw [List.map_cons, Environment.memberPath, memberTypes]
    cases env.memberType? c name.text with
    | none =>
      have last : pathClass? (front ++ .ofClass c :: .unresolved :: (rest.map Ident.text).map fun _ => .unresolved) =
          none := by
        rw [pathClass?, List.getLast?_append_cons, List.getLast?_cons_cons, getLast?_lost (by simp)]
        rfl
      rw [mentionPath_lost, last]
    | some inner =>
      have later := ih inner (front ++ [.ofClass c])
      rw [List.append_assoc] at later
      rw [mentionPath_cons rfl, bind_assoc]
      exact congrArg _ (funext fun _ => later)

/-- Names mentioned by what they select, behind a receiver. Those that select nothing are reported. -/
def follow (r : Receiver) (names : List Ident) (selected : List Selected) : Resolve Receiver := do
  mentionAll (names.zip (selected.map Selected.symbol))
  match names.drop selected.length with
  | [] => return (selected.getLast?.map Selected.receiver).getD r
  | left => do
    unresolved left true
    return .unknown

theorem follow_append (r : Receiver) {names : List Ident} {selected : List Selected}
    (length : names.length = selected.length) (rest : List Ident) (more : List Selected) :
    follow r (names ++ rest) (selected ++ more) = (do
      mentionAll (names.zip (selected.map Selected.symbol))
      follow ((selected.getLast?.map Selected.receiver).getD r) rest more) := by
  have left : (names ++ rest).drop (selected ++ more).length = rest.drop more.length := by
    rw [List.length_append, ← length, List.drop_length_add_append]
  have last : ((selected ++ more).getLast?.map Selected.receiver).getD r =
      (more.getLast?.map Selected.receiver).getD ((selected.getLast?.map Selected.receiver).getD r) := by
    rw [List.getLast?_append]
    cases more.getLast? <;> rfl
  rw [follow, follow, left, last, List.map_append, List.zip_append (by simpa using length), mentionAll_append,
    bind_assoc]

/-- The names behind a receiver at once, or one after the other. -/
theorem follow_memberChain (r : Receiver) (rest : List Ident) :
    follow r rest (env.memberChain r (rest.map Ident.text)) = memberNames env r rest := by
  induction rest generalizing r with
  | nil => rfl
  | cons name rest ih =>
    rw [List.map_cons, Environment.memberChain, memberNames]
    cases env.member? r name.text with
    | none => rfl
    | some s =>
      have first := follow_append r (show [name].length = [s].length from rfl) rest
        (env.memberChain s.receiver (rest.map Ident.text))
      rw [List.singleton_append, List.singleton_append] at first
      refine first.trans ?_
      show _ = (mention name s.symbol >>= fun _ => memberNames env s.receiver rest)
      rw [← ih]
      rfl

/-! The places where the name may stand. -/

theorem notVar_of_dotted {segments : List (TypeSegment Annotation)} {range : Span} (dotted : 1 < segments.length) :
    (WrittenType.named segments range).isVar = false := by
  unfold WrittenType.isVar
  split
  · rename_i alone
    cases alone
    exact absurd dotted (Nat.lt_irrefl 1)
  · rfl

theorem bind_at {α β : Type} {s : Setting} {p : Progress} {step other : Resolve α} (same : step s p = other s p)
    (next : α → Resolve β) : (step >>= next) s p = (other >>= next) s p := by
  show (match step s p with | (a, q) => next a s q) = _
  rw [same]
  rfl

/-- The type that a class is with these type arguments, if there is a class. -/
def typeOfClass? (args : List JavaType) : Option ClassInfo → JavaType
  | some d => .named d.qualifiedName args
  | none => .unknown

theorem typeOfPath_trail {path : List Segment} (trail : Environment.Trail path) (texts : List String)
    (args : List JavaType) : Environment.typeOfPath path texts args = typeOfClass? args (pathClass? path) := by
  have named := atEnd_trail trail texts
  have whole := withArgs_typeOfPath path texts (pathClass? path) args
  rw [← named] at whole
  rw [show Environment.typeOfPath path texts args = (NamedType.withArgs (atEnd path) args).type by rw [whole]]
  unfold atEnd pathClass?
  cases path.getLast? with
  | none => rfl
  | some g => cases g <;> rfl

theorem denote_chain {e : Expr} {names : List Ident} (chain : e.nameChain? = some names) :
    denote e = nameChain names := by
  cases e with
  | name n =>
    cases chain
    rw [denote]
  | field target n range =>
    obtain ⟨before, whole, rfl⟩ := Option.map_eq_some_iff.mp chain
    rw [denote, whole]
  | _ => cases chain

/-- Mentions of the packages and of the class, one over each segment. -/
def spell (env : Environment) (package : List String) (c : ClassInfo) (names : List Ident) : Resolve Unit :=
  mentionAll (names.zip ((env.spelling package c).map some))

section

variable {first : String} {inner : List String} {simple : String} {c : ClassInfo} {names : List Ident}
  {s : Setting} {p : Progress} (denotes : p.environment.DenotesClass (first :: inner) simple c)
  (texts : names.map Ident.text = first :: inner ++ [simple]) (rest : List Ident)

theorem length_spelling (texts : names.map Ident.text = first :: inner ++ [simple]) :
    names.length = (env.spelling (first :: inner) c).length := by
  have segments := congrArg List.length texts
  simpa [Environment.spelling, Environment.length_beginnings] using segments

theorem texts_append (texts : names.map Ident.text = first :: inner ++ [simple]) :
    (names ++ rest).map Ident.text = first :: inner ++ simple :: rest.map Ident.text := by
  rw [List.map_append, texts, List.append_assoc, List.singleton_append]

theorem mentionPath_qualified (texts : names.map Ident.text = first :: inner ++ [simple]) :
    let path := env.packagePath (first :: inner) ++ .ofClass c :: env.memberPath c (rest.map Ident.text)
    (do
      mentionPath (names ++ rest) path
      return pathClass? path) = (do
        spell env (first :: inner) c names
        memberTypes env c rest) := by
  intro path
  have means : (env.packagePath (first :: inner) ++ [Segment.ofClass c]).map Segment.symbol? =
      (env.spelling (first :: inner) c).map some := by
    simp [Environment.packagePath, Environment.spelling, Segment.symbol?]
  have cut : path = env.packagePath (first :: inner) ++ [.ofClass c] ++ env.memberPath c (rest.map Ident.text) := by
    simp [path]
  have mentioned : mentionPath (names ++ rest) path = (do
      spell env (first :: inner) c names
      mentionPath rest (env.memberPath c (rest.map Ident.text))) := by
    rw [cut]
    exact mentionPath_append means (length_spelling texts) rest _
  rw [mentioned, bind_assoc]
  exact congrArg _ (funext fun _ => memberPath_eq c _ rest)

include denotes texts

theorem qualifiedName_qualified : qualifiedName (names ++ rest) s p = (do
    spell p.environment (first :: inner) c names
    memberTypes p.environment c rest) s p := by
  rw [← mentionPath_qualified rest texts, ← denotes.qualified, ← texts_append rest texts]
  rfl

theorem annotationType_qualified (noType : p.environment.simpleType? ⟨p.scopes, s.imports⟩ first = none) :
    annotationType (names ++ rest) s p = (do
      spell p.environment (first :: inner) c names
      memberTypes p.environment c rest) s p := by
  rw [← mentionPath_qualified rest texts, ← denotes.typePath _ noType, ← texts_append rest texts]
  rfl

theorem nameChain_qualified (noValue : p.environment.value? ⟨p.scopes, s.imports⟩ first = none)
    (noType : p.environment.simpleType? ⟨p.scopes, s.imports⟩ first = none) :
    nameChain (names ++ rest) s p = (do
      spell p.environment (first :: inner) c names
      memberNames p.environment (.ofClass c) rest) s p := by
  have cut := denotes.chain (rest.map Ident.text) noValue noType
  rw [← texts_append rest texts] at cut
  have length : names.length = (p.environment.selections (first :: inner) c).length := by
    rw [length_spelling texts, ← List.length_map some, ← Environment.symbols_selections, List.length_map]
  have last : (((p.environment.selections (first :: inner) c).getLast?).map Selected.receiver).getD .unknown =
      .ofClass c := by
    rw [Environment.selections, List.getLast?_concat]
    rfl
  show follow .unknown (names ++ rest)
    (p.environment.chain ⟨p.scopes, s.imports⟩ ((names ++ rest).map Ident.text)) s p = _
  rw [cut, follow_append .unknown length, Environment.symbols_selections, last, follow_memberChain]
  rfl

theorem importDecl_whole {i : ImportDecl} (path : i.path = names ++ rest)
    (whole : (i.isStatic && !i.onDemand) = false) : importDecl i s p = (do
      spell p.environment (first :: inner) c names
      discard (memberTypes p.environment c rest)) s p := by
  have read := bind_at (qualifiedName_qualified (s := s) denotes texts rest) fun _ => pure ()
  rw [bind_assoc] at read
  rw [importDecl, whole, path]
  exact read

theorem importDecl_member {i : ImportDecl} {member : Ident} (path : i.path = names ++ rest ++ [member])
    (single : (i.isStatic && !i.onDemand) = true) :
    importDecl i s p = (do
      spell p.environment (first :: inner) c names
      match ← memberTypes p.environment c rest with
      | some d => importedMember d member
      | none => return) s p := by
  have read := bind_at (qualifiedName_qualified (s := s) denotes texts rest) fun
    | some d => importedMember d member
    | none => return
  rw [bind_assoc] at read
  rw [importDecl, single, path, if_pos rfl, List.getLast?_concat, List.dropLast_concat]
  exact read

theorem annotationUse_qualified (noType : p.environment.simpleType? ⟨p.scopes, s.imports⟩ first = none)
    (args : List AnnotationArg) (range : Span) :
    annotationUse ⟨names ++ rest, args, range⟩ s p = (do
      spell p.environment (first :: inner) c names
      annotationArgs (← memberTypes p.environment c rest) args) s p := by
  have read := bind_at (annotationType_qualified denotes texts rest noType) fun d => annotationArgs d args
  rw [bind_assoc] at read
  rw [annotationUse]
  exact read

theorem typeRef_qualified (noType : p.environment.simpleType? ⟨p.scopes, s.imports⟩ first = none)
    {segments : List (TypeSegment Annotation)} (named : segments.map TypeSegment.name = names ++ rest) (range : Span) :
    typeRef (.named segments range) s p = (do
      segmentAnnotations segments
      spell p.environment (first :: inner) c names
      let d ← memberTypes p.environment c rest
      return typeOfClass? (← segmentArgs segments) d) s p := by
  let path := p.environment.typePath ⟨p.scopes, s.imports⟩ ((names ++ rest).map Ident.text)
  have cut : path = p.environment.qualified ((names ++ rest).map Ident.text) := by
    simp only [path, texts_append rest texts, denotes.typePath _ noType, denotes.qualified]
  have trail : Environment.Trail path := cut ▸ Environment.qualified_trail _
  have read : (do
      mentionPath (names ++ rest) path
      let args ← segmentArgs segments
      return Environment.typeOfPath path ((names ++ rest).map Ident.text) args) = (do
        spell p.environment (first :: inner) c names
        let d ← memberTypes p.environment c rest
        return typeOfClass? (← segmentArgs segments) d) := by
    have whole : (mentionPath (names ++ rest) path >>= fun _ => pure (pathClass? path)) = (do
        spell p.environment (first :: inner) c names
        memberTypes p.environment c rest) := by
      rw [← mentionPath_qualified rest texts, ← denotes.qualified, ← texts_append rest texts, ← cut]
    have next := congrArg (· >>= fun d => do return typeOfClass? (← segmentArgs segments) d) whole
    simp only [bind_assoc, pure_bind] at next
    simp only [typeOfPath_trail trail]
    exact next
  have notVar : (WrittenType.named segments range).isVar = false := by
    have all := congrArg List.length named
    have package := congrArg List.length texts
    simp only [List.length_map, List.length_append, List.length_cons] at all package
    exact notVar_of_dotted (by omega)
  rw [typeRef, notVar, namedType_eq, named]
  show (segmentAnnotations segments >>= fun _ => mentionPath (names ++ rest) path >>= fun _ =>
    segmentArgs segments >>= fun args =>
      pure (Environment.typeOfPath path ((names ++ rest).map Ident.text) args)) s p = _
  rw [read]

theorem denote_qualified (noValue : p.environment.value? ⟨p.scopes, s.imports⟩ first = none)
    (noType : p.environment.simpleType? ⟨p.scopes, s.imports⟩ first = none) {e : Expr}
    (chain : e.nameChain? = some (names ++ rest)) :
    denote e s p = (do
      spell p.environment (first :: inner) c names
      memberNames p.environment (.ofClass c) rest) s p := by
  rw [denote_chain chain]
  exact nameChain_qualified denotes texts rest noValue noType

end

/-- A fully qualified name, as a program can write it, mentions the same packages and the same class wherever it stands,
one symbol over each segment, and what follows it is looked for in that class. In an import it does so in any case; in
a type, in an annotation and in an expression, if its first segment is no type in sight, and in an expression no value
either. All moments of the way through a file are such as is asked here, by `Environment.Over.ofReady`. -/
theorem qualifiedName_everywhere {project : ProjectClasses} {external : ExternalTable} {first : String}
    {inner : List String} {simple : String} {c : ClassInfo} {names : List Ident}
    (denotes : (Environment.start project external).DenotesClass (first :: inner) simple c)
    (texts : names.map Ident.text = first :: inner ++ [simple]) (plain : ∀ n ∈ names, '<' ∉ n.text.toList) :
    let symbols := (Environment.start project external).spelling (first :: inner) c
    let spelled := mentionAll (names.zip (symbols.map some))
    symbols.length = names.length ∧
    ∀ (s : Setting) (p : Progress) (rest : List Ident), p.environment.Over project external →
      let env := p.environment
      let place : Place := ⟨p.scopes, s.imports⟩
      (spelled s p).2 = { p with emission := { p.emission with occurrences := ((names.zip symbols).map fun m =>
        ⟨s.lines.region m.1.range, m.2, .reference, p.enclosing.head?, none⟩).reverse ++ p.emission.occurrences } } ∧
      (∀ i : ImportDecl, i.path = names ++ rest → (i.isStatic && !i.onDemand) = false →
        importDecl i s p = (do
          spelled
          discard (memberTypes env c rest)) s p) ∧
      (∀ (i : ImportDecl) (member : Ident), i.path = names ++ rest ++ [member] → (i.isStatic && !i.onDemand) = true →
        importDecl i s p = (do
          spelled
          match ← memberTypes env c rest with
          | some d => importedMember d member
          | none => return) s p) ∧
      (env.simpleType? place first = none →
        (∀ (segments : List (TypeSegment Annotation)) (range : Span), segments.map TypeSegment.name = names ++ rest →
          typeRef (.named segments range) s p = (do
            segmentAnnotations segments
            spelled
            let d ← memberTypes env c rest
            return typeOfClass? (← segmentArgs segments) d) s p) ∧
        (∀ (args : List AnnotationArg) (range : Span),
          annotationUse ⟨names ++ rest, args, range⟩ s p = (do
            spelled
            annotationArgs (← memberTypes env c rest) args) s p) ∧
        (env.value? place first = none → ∀ e : Expr, e.nameChain? = some (names ++ rest) →
          denote e s p = (do
            spelled
            memberNames env (.ofClass c) rest) s p)) := by
  intro symbols spelled
  refine ⟨(length_spelling texts).symm, fun s p rest stands => ?_⟩
  have segments : ∀ n ∈ first :: inner ++ [simple], '<' ∉ n.toList := by
    rw [← texts]
    simpa using plain
  have here := stands.denotesClass denotes (fun n hn => segments n (List.mem_append_left _ hn))
    (segments simple (by simp))
  have same : spell p.environment (first :: inner) c names = spelled := by rw [spell, stands.spelling]
  refine ⟨mentionAll_run names symbols s p, fun i path whole => ?_, fun i member path single => ?_, fun noType =>
    ⟨fun segments range named => ?_, fun args range => ?_, fun noValue e chain => ?_⟩⟩
  · exact same ▸ importDecl_whole here texts rest path whole
  · exact same ▸ importDecl_member here texts rest path single
  · exact same ▸ typeRef_qualified here texts rest noType named range
  · exact same ▸ annotationUse_qualified here texts rest noType args range
  · exact same ▸ denote_qualified here texts rest noValue noType chain

/-- A class `p.q` beside a package `p.q` that has a class `Box`. -/
def twofold : ExternalTable :=
  (ExternalTable.empty.insert (.ofLibrary "p.q" "Box" [] none [] [])).insert (.ofLibrary "p" "q" [] none [] [])

/-- The name `p.q.Box` is cut at the class. -/
theorem qualifiedName_everywhere_twofold :
    let s : Setting := ⟨0, "p.q.Box", .ofText "p.q.Box", .standard, default⟩
    let t : Progress := .start .empty twofold .standard
    let c : ClassInfo := .ofLibrary "p" "q" [] none [] []
    let names : List Ident := [⟨"p", ⟨0, 1⟩⟩, ⟨"q", ⟨2, 3⟩⟩]
    let box : Ident := ⟨"Box", ⟨4, 7⟩⟩
    let i : ImportDecl := ⟨false, names ++ [box], false, ⟨0, 7⟩⟩
    let e : Expr := .field (.field (.name ⟨"p", ⟨0, 1⟩⟩) ⟨"q", ⟨2, 3⟩⟩ ⟨0, 3⟩) box ⟨0, 7⟩
    t.environment.hasPackage "p.q" = true ∧ t.environment.DenotesClass ["p"] "q" c ∧
      importDecl i s t = (do
        spell t.environment ["p"] c names
        discard (memberTypes t.environment c [box])) s t ∧
      denote e s t = (do
        spell t.environment ["p"] c names
        memberNames t.environment (.ofClass c) [box]) s t := by
  intro s t c names box i e
  have denotes : (Environment.start .empty twofold).DenotesClass ["p"] "q" c := by
    refine ⟨fun path front nonempty => ?_, fun _ _ front inside =>
      absurd (Environment.eq_nil_of_front front) inside, by rfl⟩
    obtain rfl | ⟨path, rfl, shorter⟩ := List.prefix_cons_iff.mp front
    · exact absurd rfl nonempty
    · obtain rfl := List.prefix_nil.mp shorter
      decide +kernel
  have noType : t.environment.simpleType? ⟨t.scopes, s.imports⟩ "p" = none :=
    Option.isNone_iff_eq_none.mp (by decide +kernel)
  have noValue : t.environment.value? ⟨t.scopes, s.imports⟩ "p" = none :=
    Option.isNone_iff_eq_none.mp (by decide +kernel)
  have texts : names.map Ident.text = ["p", "q"] := rfl
  have read := (qualifiedName_everywhere denotes texts (by decide +kernel)).2 s t [box] (.start _ _)
  exact ⟨by decide +kernel, denotes, read.2.1 i rfl rfl, (read.2.2.2 noType).2.2 noValue e rfl⟩

end Resolve
end JavaIndex
