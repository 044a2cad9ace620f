import JavaIndex.Resolve.Names
import Mathlib.Data.List.Basic

/-! The name of a type, segment by segment and at once. The way along the segments ends at the first that means
nothing, and what it leads to is said by the segment where it ends; the last segment of the whole name says the same,
since nothing means anything behind one that means nothing. -/
namespace JavaIndex

namespace Environment

variable {env : Environment}

/-! A path says as much as there are names. -/

theorem length_beginnings (path : List String) : (beginnings path).length = path.length := by
  simp [beginnings]

theorem length_memberPath (c : ClassInfo) (names : List String) :
    (env.memberPath c names).length = names.length := by
  induction names generalizing c with
  | nil => rfl
  | cons name rest ih =>
    rw [memberPath]
    split
    · rw [List.length_cons, ih, List.length_cons]
    · simp

theorem length_classBelow? {package names before after : List String} {c : ClassInfo}
    (found : env.classBelow? package names = some (before, c, after)) :
    before.length + 1 + after.length = package.length + names.length := by
  induction names generalizing package with
  | nil => cases found
  | cons name rest ih =>
    rw [classBelow?] at found
    split at found
    · cases found
    · split at found
      · cases found
        rw [List.length_cons]
        omega
      · have := ih found
        rw [List.length_append, List.length_singleton] at this
        rw [List.length_cons]
        omega

theorem length_qualified (path : List String) : (env.qualified path).length = path.length := by
  rw [qualified]
  split
  · rename_i before c after found
    cases path with
    | nil => cases found
    | cons first rest =>
      have := length_classBelow? found
      rw [List.length_singleton] at this
      simp only [packagePath, List.length_append, List.length_map, length_beginnings, List.length_cons,
        length_memberPath]
      omega
  · have known := (List.takeWhile_sublist env.hasPackage (l := beginnings path)).length_le
    rw [length_beginnings] at known
    simp only [knownPackages, List.length_append, List.length_map, List.length_replicate]
    omega

theorem length_typePath (place : Place) (names : List String) :
    (env.typePath place names).length = names.length := by
  cases names with
  | nil => rfl
  | cons first rest =>
    rw [typePath]
    split
    · rw [List.length_cons, length_memberPath, List.length_cons]
    · simp
    · split
      · rename_i alone
        rw [List.isEmpty_iff.mp alone]
        rfl
      · exact length_qualified _

/-! What a path consists of. -/

/-- Packages and classes, and nothing known behind the first segment that means nothing. -/
inductive Trail : List Segment → Prop
  | nil : Trail []
  | lost {path} : (∀ g ∈ path, g = .unresolved) → Trail (.unresolved :: path)
  | package {symbol path} : Trail path → Trail (.package symbol :: path)
  | ofClass {c path} : Trail path → Trail (.ofClass c :: path)

theorem Trail.ofLost {path : List Segment} (lost : ∀ g ∈ path, g = .unresolved) : Trail path := by
  cases path with
  | nil => exact .nil
  | cons g path =>
    obtain ⟨rfl, behind⟩ := List.forall_mem_cons.mp lost
    exact .lost behind

theorem Trail.afterPackages {path : List Segment} (trail : Trail path) (packages : List String) :
    Trail (packages.map (fun name => .package (env.packageSymbol name)) ++ path) := by
  induction packages with
  | nil => exact trail
  | cons name packages ih => exact .package ih

theorem memberPath_trail (c : ClassInfo) (names : List String) : Trail (env.memberPath c names) := by
  induction names generalizing c with
  | nil => exact .nil
  | cons name rest ih =>
    rw [memberPath]
    split
    · exact .ofClass (ih _)
    · exact .lost (by simp)

theorem qualified_trail (path : List String) : Trail (env.qualified path) := by
  rw [qualified]
  split
  · exact (Trail.ofClass (memberPath_trail _ _)).afterPackages _
  · exact (Trail.ofLost fun g hg => List.eq_of_mem_replicate hg).afterPackages _

/-- A type variable stands at the beginning if it stands anywhere. -/
theorem typePath_trail (place : Place) (names : List String) : Trail (env.typePath place names) ∨
    ∃ name symbol path, env.typePath place names = .typeParam name symbol :: path ∧ ∀ g ∈ path, g = .unresolved := by
  cases names with
  | nil => exact .inl .nil
  | cons first rest =>
    rw [typePath]
    split
    · exact .inl (.ofClass (memberPath_trail _ _))
    · exact .inr ⟨_, _, _, rfl, by simp⟩
    · split
      · exact .inl (.lost nofun)
      · exact .inl (qualified_trail _)

end Environment

namespace Resolve

/-! Mentions. -/

/-- The segments to mention if the class at the end is mentioned otherwise. -/
def withoutClass (path : List Segment) : List Segment :=
  match path.getLast? with
  | some (.ofClass _) => path.dropLast
  | _ => path

/-- Mentions of all segments, or of those before the class at the end. -/
def mentionShown (mentionClass : Bool) (names : List Ident) (path : List Segment) : Resolve Unit :=
  if mentionClass then mentionPath names path
  else mentionPath (names.take (withoutClass path).length) (withoutClass path)

theorem mentionPath_cons {g : Segment} {symbol : Symbol} (means : g.symbol? = some symbol) (name : Ident)
    (names : List Ident) (path : List Segment) :
    mentionPath (name :: names) (g :: path) = (do
      reference name.range symbol
      mentionPath names path) := by
  have known : (g :: path).takeWhile (·.symbol?.isSome) = g :: path.takeWhile (·.symbol?.isSome) :=
    List.takeWhile_cons_of_pos (by rw [means]; rfl)
  simp only [mentionPath, known, List.map_cons, List.zip_cons_cons, mentionAll, means, List.length_cons,
    List.drop_succ_cons, bind_assoc]
  rfl

theorem mentionPath_lost (names : List Ident) (path : List Segment) :
    mentionPath names (.unresolved :: path) = unresolved names false := by
  cases names <;> rfl

variable {mentionClass : Bool} {names : List Ident} {path : List Segment}

theorem mentionShown_cons {g next : Segment} {symbol : Symbol} (means : g.symbol? = some symbol) (name : Ident) :
    mentionShown mentionClass (name :: names) (g :: next :: path) = (do
      reference name.range symbol
      mentionShown mentionClass names (next :: path)) := by
  have shown : withoutClass (g :: next :: path) = g :: withoutClass (next :: path) := by
    unfold withoutClass
    rw [List.getLast?_cons_cons]
    split <;> rfl
  cases mentionClass with
  | true => exact mentionPath_cons means name names _
  | false =>
    rw [mentionShown, mentionShown, shown]
    exact mentionPath_cons means name _ _

theorem getLast?_lost (lost : ∀ g ∈ path, g = .unresolved) :
    (Segment.unresolved :: path).getLast? = some .unresolved := by
  rw [List.getLast?_cons]
  cases last : path.getLast? with
  | none => rfl
  | some g => rw [lost g (List.mem_of_getLast? last)]; rfl

/-- What is left unknown is reported as it stands. -/
theorem mentionShown_lost (lost : ∀ g ∈ path, g = .unresolved) (length : path.length + 1 = names.length) :
    mentionShown mentionClass names (.unresolved :: path) = unresolved names false := by
  have whole : withoutClass (.unresolved :: path) = .unresolved :: path := by
    unfold withoutClass
    rw [getLast?_lost lost]
  cases mentionClass with
  | true => exact mentionPath_lost names path
  | false =>
    rw [mentionShown, whole, List.length_cons, length, List.take_length]
    exact mentionPath_lost names path

/-! The way along the segments. -/

/-- What the segment at the end of a path says, if it is no type variable. -/
def atEnd (path : List Segment) : NamedType :=
  match path.getLast? with
  | some (.ofClass c) => ⟨.named c.qualifiedName [], some c⟩
  | _ => .unknown

theorem typeSegments_trail (trail : Environment.Trail path) (length : path.length = names.length) :
    typeSegments mentionClass names path = (do
      mentionShown mentionClass names path
      return atEnd path) := by
  induction trail generalizing names with
  | nil =>
    obtain rfl := List.length_eq_zero_iff.mp length.symm
    cases mentionClass <;> rfl
  | lost lost =>
    rw [mentionShown_lost lost length, atEnd, getLast?_lost lost]
    cases names with
    | nil => cases length
    | cons name names => rfl
  | @package symbol path trail ih =>
    cases names with
    | nil => cases length
    | cons name names =>
      rw [typeSegments, ih (Nat.succ.inj length)]
      cases path with
      | nil =>
        obtain rfl := List.length_eq_zero_iff.mp (Nat.succ.inj length).symm
        cases mentionClass <;> rfl
      | cons next path => rw [mentionShown_cons rfl, bind_assoc]; rfl
  | @ofClass c path trail ih =>
    cases names with
    | nil => cases length
    | cons name names =>
      rw [typeSegments]
      cases path with
      | nil =>
        obtain rfl := List.length_eq_zero_iff.mp (Nat.succ.inj length).symm
        cases mentionClass <;> rfl
      | cons next path =>
        cases names with
        | nil => cases length
        | cons second names =>
          rw [ih (Nat.succ.inj length), mentionShown_cons rfl, bind_assoc]
          rfl

theorem atEnd_trail (trail : Environment.Trail path) (names : List String) :
    atEnd path = ⟨Environment.typeOfPath path names [], pathClass? path⟩ := by
  have noVariable : ∀ name symbol, .typeParam name symbol ∉ path := by
    induction trail with
    | nil => simp
    | lost lost =>
      intro name symbol h
      obtain h | h := List.mem_cons.mp h
      · cases h
      · cases lost _ h
    | package _ ih => simpa using ih
    | ofClass _ ih => simpa using ih
  unfold atEnd Environment.typeOfPath pathClass?
  cases last : path.getLast? with
  | none => rfl
  | some g =>
    cases g with
    | typeParam name symbol => exact absurd (List.mem_of_getLast? last) (noVariable name symbol)
    | ofClass c => rfl
    | package symbol => rfl
    | unresolved => rfl

theorem withArgs_typeOfPath (path : List Segment) (names : List String) (info : Option ClassInfo)
    (args : List JavaType) :
    NamedType.withArgs ⟨Environment.typeOfPath path names [], info⟩ args =
      ⟨Environment.typeOfPath path names args, info⟩ := by
  unfold Environment.typeOfPath
  split <;> rfl

/-- A type variable is a type if it stands alone. -/
theorem typeSegments_variable (text : String) (symbol : Symbol) (lost : ∀ g ∈ path, g = .unresolved)
    (length : path.length + 1 = names.length) :
    typeSegments mentionClass names (.typeParam text symbol :: path) = (do
      mentionShown mentionClass names (.typeParam text symbol :: path)
      return ⟨Environment.typeOfPath (.typeParam text symbol :: path) (names.map Ident.text) [],
        pathClass? (.typeParam text symbol :: path)⟩) := by
  cases names with
  | nil => cases length
  | cons name names =>
    rw [typeSegments]
    cases path with
    | nil =>
      obtain rfl := List.length_eq_zero_iff.mp (Nat.succ.inj length).symm
      cases mentionClass <;> rfl
    | cons next path =>
      obtain ⟨rfl, behind⟩ := List.forall_mem_cons.mp lost
      cases names with
      | nil => cases length
      | cons second names =>
        have last : (Segment.typeParam text symbol :: .unresolved :: path).getLast? = some .unresolved := by
          rw [List.getLast?_cons_cons, getLast?_lost behind]
        unfold Environment.typeOfPath pathClass?
        rw [last, typeSegments_trail (.lost behind) (Nat.succ.inj length), mentionShown_cons rfl, bind_assoc, atEnd,
          getLast?_lost behind]
        rfl

theorem typeSegments_typePath (env : Environment) (place : Place) (mentionClass : Bool) (names : List Ident) :
    let path := env.typePath place (names.map Ident.text)
    typeSegments mentionClass names path = (do
      mentionShown mentionClass names path
      return ⟨Environment.typeOfPath path (names.map Ident.text) [], pathClass? path⟩) := by
  intro path
  have length : path.length = names.length := by rw [Environment.length_typePath, List.length_map]
  obtain trail | ⟨text, symbol, rest, whole, lost⟩ := env.typePath_trail place (names.map Ident.text)
  · rw [typeSegments_trail trail length, atEnd_trail trail]
  · rw [show path = .typeParam text symbol :: rest from whole] at length ⊢
    exact typeSegments_variable text symbol lost length

/-- The name of a type at once: all is mentioned first, and the last segment says what the type is. -/
theorem namedType_eq (names : List Ident) (mentionClass : Bool) (annotations : Resolve Unit)
    (args : Resolve (List JavaType)) : namedType names mentionClass annotations args = (do
      let path ← typePath names
      annotations
      mentionShown mentionClass names path
      let args ← args
      return ⟨Environment.typeOfPath path (names.map Ident.text) args, pathClass? path⟩) := by
  funext s p
  let path := p.environment.typePath ⟨p.scopes, s.imports⟩ (names.map Ident.text)
  have same : (typeSegments mentionClass names path >>= fun named => args >>= fun args =>
      pure (named.withArgs args)) = (do
        mentionShown mentionClass names path
        let args ← args
        return ⟨Environment.typeOfPath path (names.map Ident.text) args, pathClass? path⟩) := by
    rw [typeSegments_typePath, bind_assoc]
    simp only [pure_bind, withArgs_typeOfPath]
    rfl
  show (annotations >>= fun _ => typeSegments mentionClass names path >>= fun named => args >>= fun args =>
    pure (named.withArgs args)) s p = _
  rw [same]
  rfl

end Resolve
end JavaIndex
