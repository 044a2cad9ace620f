import JavaIndex.Proofs.Resolve.Origins
import JavaIndex.Proofs.Resolve.Walks

/-! What the names of a program lead to. Whatever is found, in scopes, in classes or in packages, may be
used: the classes of the environment are sound, and a class without a name is under none that is looked
up. Each way to come by something is gone through once. -/
namespace JavaIndex

open ClassName (Mentionable)

variable {w : World} {t : Moment} {env : Environment}

theorem Environment.packageSymbol_outside (env : Environment) (package : String) :
    (env.packageSymbol package).scheme ≠ .local := by
  unfold packageSymbol
  split <;> exact Scheme.noConfusion

/-- The classes of an environment may be used. -/
structure EnvironmentSound (w : World) (t : Moment) (env : Environment) : Prop where
  members : ∀ name c, env.class? name = some c → ClassSound w t c
  named : ∀ name c, env.class? name = some c → Safe w name → ClassNamed w t c
  constants : ∀ c name f, env.external.constant? c name = some f → Sound w t f.symbol

theorem Ready.environment {s : Setting} (grounded : w.Grounded) (ready : Ready w s t) :
    EnvironmentSound w t t.progress.environment := by
  have both : ∀ name c, t.progress.environment.class? name = some c →
      ClassSound w t c ∧ (Safe w name → ClassNamed w t c) := by
    intro name c found
    simp only [Environment.class?, Option.or_eq_some_iff] at found
    rw [ready.project, ready.external] at found
    obtain (inBody | ⟨-, inProject⟩) | ⟨-, inLibrary⟩ := found
    · obtain ⟨sound, symbol⟩ := ready.known name c inBody
      refine ⟨sound, fun safe => ⟨sound, symbol safe, ?_⟩⟩
      rw [(ready.named name c inBody).1]
      exact safe
    · have sound : ClassSound w t c := fun s offered => .project (.member inProject offered)
      refine ⟨sound, fun safe => ⟨sound, .project (.ofClass inProject), ?_⟩⟩
      rw [(grounded.named name c inProject).1]
      exact safe
    · obtain lax | external := grounded.external
      · exact ⟨fun s _ => .unasked lax, fun _ => ⟨fun s _ => .unasked lax, .unasked lax, .inl lax⟩⟩
      · obtain ⟨safe, symbol, offers⟩ := external name c inLibrary
        have sound : ClassSound w t c := fun s offered => .external (offers s offered)
        refine ⟨sound, fun h => ⟨sound, .external symbol, ?_⟩⟩
        obtain lax | mentionable := h
        · exact .inl lax
        · exact .inr (safe mentionable)
  refine ⟨fun name c found => (both name c found).1, fun name c found => (both name c found).2, ?_⟩
  intro c name f found
  rw [ready.external] at found
  obtain lax | external := grounded.constants
  · exact .unasked lax
  · exact .external (external c name f found)

/-- What a segment of a name means may be used. -/
structure SegmentSound (w : World) (t : Moment) (g : Segment) : Prop where
  symbol : ∀ s, g.symbol? = some s → Sound w t s
  ofClass : ∀ c, g.class? = some c → ClassNamed w t c

/-- What an expression denotes may be used. -/
def ReceiverSound (w : World) (t : Moment) (r : Receiver) : Prop :=
  ∀ c, r = .ofClass c → ClassNamed w t c

/-- What a name selects may be used. -/
structure SelectedSound (w : World) (t : Moment) (s : Selected) : Prop where
  symbol : ∀ x, s.symbol = some x → Sound w t x
  receiver : ReceiverSound w t s.receiver

theorem ReceiverSound.value (type : JavaType) : ReceiverSound w t (.value type) := by
  intro c h
  simp at h

theorem ReceiverSound.unknown : ReceiverSound w t .unknown := by
  intro c h
  simp at h

theorem ReceiverSound.ofClassNamed {c : ClassInfo} (h : ClassNamed w t c) :
    ReceiverSound w t (.ofClass c) := by
  intro c' hc
  cases hc
  exact h

namespace EnvironmentSound

open Environment

variable (sound : EnvironmentSound w t env)

include sound

/-! Members. -/

theorem supplied {s : Symbol} (h : env.Supplies s) : Sound w t s := by
  cases h with
  | member held offered =>
    obtain ⟨name, found⟩ := held
    exact sound.members name _ found _ offered
  | constant found => exact sound.constants _ _ _ found

theorem inside {outer name : String} {c : ClassInfo} (found : env.class? (outer ++ "." ++ name) = some c) :
    ClassNamed w t c :=
  sound.named _ c found (.inr (ClassName.mentionable_inside _ _))

theorem memberType {c inner : ClassInfo} {name : String} (found : env.memberType? c name = some inner) :
    ClassNamed w t inner := by
  obtain ⟨a, -, h⟩ := List.exists_of_findSome?_eq_some found
  exact sound.inside h

theorem field {type : JavaType} {name : String} {f : FieldInfo} (found : env.field? type name = some f) :
    Sound w t f.symbol :=
  sound.supplied (field_supplied found)

theorem methods {type : JavaType} {name : String} : ∀ c ∈ env.methods type name, Sound w t c.symbol :=
  fun _ h => sound.supplied (methods_supplied h)

theorem callables {place : Place} {name : String} : ∀ c ∈ env.callables place name, Sound w t c.symbol :=
  fun _ h => sound.supplied (callables_supplied h)

omit sound in
theorem constructors {c : ClassInfo} {args : List JavaType} (members : ClassSound w t c) :
    ∀ d ∈ Environment.constructors c args, Sound w t d.symbol :=
  fun _ h => members _ (constructors_offered h)

/-! Names. -/

section

variable {place : Place} {names : List String} (scopes : ∀ sc ∈ place.scopes, ScopeSound w t sc)
  (imports : ∀ simple name, place.imports.single? simple = some name → Mentionable name)
  (plain : ∀ n ∈ names, Plain n)

include scopes imports plain

theorem means {c : ClassInfo} (h : env.Means place names c) : ClassNamed w t c := by
  cases h with
  | bound hsc bound => exact (scopes _ hsc).types _ bound
  | around hsc hc writable => exact (scopes _ hsc).ofClass c hc writable
  | inside found => exact sound.inside found
  | imported single found => exact sound.named _ c found (.inr (imports _ _ single))
  | within among found =>
    exact sound.named _ c found (.inr (ClassName.mentionable_within _ (plain _ among)))

theorem leads {s : Symbol} (h : env.LeadsTo place names s) : Sound w t s := by
  cases h with
  | package => exact .package rfl (env.packageSymbol_outside _)
  | ofClass h => exact (sound.means scopes imports plain h).symbol
  | member h => exact sound.supplied h
  | value hsc hb => exact (scopes _ hsc).values _ hb
  | typeParam hsc bound => exact (scopes _ hsc).types _ bound

theorem reads {g : Segment} (h : env.Reads place names g) : SegmentSound w t g :=
  ⟨fun s hs => sound.leads scopes imports plain (h.symbol s hs),
    fun c hc => sound.means scopes imports plain (h.ofClass c hc)⟩

theorem selects {s : Selected} (h : env.Selects place names s) : SelectedSound w t s :=
  ⟨fun x hx => sound.leads scopes imports plain (h.symbol x hx),
    fun c hc => sound.means scopes imports plain (h.receiver c hc)⟩

theorem typePath : ∀ g ∈ env.typePath place names, SegmentSound w t g :=
  fun _ h => sound.reads scopes imports plain (typePath_reads (fun _ hn => hn) h)

theorem chain : ∀ s ∈ env.chain place names, SelectedSound w t s :=
  fun _ h => sound.selects scopes imports plain (chain_selects (fun _ hn => hn) h)

end

theorem qualified {path : List String} (plain : ∀ n ∈ path, Plain n) :
    ∀ g ∈ env.qualified path, SegmentSound w t g := by
  intro g hg
  -- A qualified name means the same wherever it stands.
  have reads : env.Reads .nowhere path g := qualified_reads (fun _ hn => hn) hg
  exact sound.reads (by simp [Place.nowhere]) (by simp [Place.nowhere, Imports.single?]) plain reads

theorem member {r : Receiver} {name : String} {found : Selected}
    (h : env.member? r name = some found) : SelectedSound w t found := by
  have selects : env.Selects .nowhere [] found := member_selects h
  exact sound.selects (by simp [Place.nowhere]) (by simp [Place.nowhere, Imports.single?]) (by simp) selects

omit sound in
/-- A type that is named is a class that may be used. -/
theorem typeOfPath {path : List Segment} {names : List String} {args : List JavaType} {name : String}
    (segments : ∀ g ∈ path, SegmentSound w t g)
    (h : (Environment.typeOfPath path names args).className? = some name) : Safe w name := by
  unfold Environment.typeOfPath at h
  split at h
  · rename_i c last
    cases Option.some.inj h
    exact ((segments _ (List.mem_of_getLast? last)).ofClass c rfl).safe
  · simp [JavaType.className?] at h
  · simp [JavaType.className?] at h

end EnvironmentSound
end JavaIndex
