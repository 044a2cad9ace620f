import JavaIndex.Proofs.Environment.Keyed
import JavaIndex.Proofs.Resolve.TypeSegments
import JavaIndex.Resolve.Unit

/-! Two readings of a written type. On the way through a file the names in a type are mentioned one by one, the type
arguments of every segment among them; in the description of a class the type is only looked up. Both come to the
same type, whatever the type mentions and however much of it is known, as long as no type is inferred and no
annotation stands in it. -/
namespace JavaIndex

section

variable {A : Type}

mutual

/-- No name in the type is `var`, and no annotation stands in it. -/
def WrittenType.Plain : WrittenType A → Prop
  | .primitive _ _ => True
  | .array element _ _ => element.Plain
  | .named segments _ => TypeSegment.AllPlain segments

def TypeSegment.AllPlain : List (TypeSegment A) → Prop
  | [] => True
  | ⟨as, name, args⟩ :: rest =>
    as = [] ∧ name.text ≠ "var" ∧ TypeArg.ListPlain args ∧ TypeSegment.AllPlain rest

def TypeArg.ListPlain : Option (List (TypeArg A)) → Prop
  | none => True
  | some args => TypeArg.AllPlain args

def TypeArg.AllPlain : List (TypeArg A) → Prop
  | [] => True
  | arg :: rest => arg.Plain ∧ TypeArg.AllPlain rest

def TypeArg.Plain : TypeArg A → Prop
  | .type t => t.Plain
  | .wildcard _ => True
  | .bounded _ t _ => t.Plain

end

theorem TypeSegment.AllPlain.notVar {segments : List (TypeSegment A)} (plain : TypeSegment.AllPlain segments)
    (range : Span) : (WrittenType.named segments range).isVar = false := by
  unfold WrittenType.isVar
  split
  · rename_i same
    cases same
    rw [TypeSegment.AllPlain] at plain
    simpa using plain.2.1
  · rfl

end

namespace Resolve

/-- What the step answers is looked up among the known classes at the place where it is taken, and it changes neither
these nor the scopes. -/
def LooksUp {α : Type} (f : Environment → Place → α) (x : Resolve α) : Prop :=
  ∀ (s : Setting) (p : Progress), (x s p).1 = f p.environment ⟨p.scopes, s.imports⟩ ∧
    (x s p).2.environment = p.environment ∧ (x s p).2.scopes = p.scopes

namespace LooksUp

variable {α β : Type} {f : Environment → Place → α} {x : Resolve α}

/-! Rules. -/

theorem pure (a : α) : LooksUp (fun _ _ => a) (Pure.pure a : Resolve α) := fun _ _ => ⟨rfl, rfl, rfl⟩

theorem bind {g : α → Environment → Place → β} {k : α → Resolve β} (first : LooksUp f x)
    (second : ∀ a, LooksUp (g a) (k a)) :
    LooksUp (fun env place => g (f env place) env place) (x >>= k) := by
  intro s p
  obtain ⟨answer, environment, scopes⟩ := first s p
  obtain ⟨answer', environment', scopes'⟩ := second (x s p).1 s (x s p).2
  rw [environment, scopes] at answer'
  exact ⟨answer'.trans (congrArg (fun a => g a p.environment ⟨p.scopes, s.imports⟩) answer),
    environment'.trans environment, scopes'.trans scopes⟩

theorem seq {g : Environment → Place → β} {y : Resolve β} (first : LooksUp f x) (second : LooksUp g y) :
    LooksUp g (x >>= fun _ => y) := first.bind fun _ => second

theorem answering (h : LooksUp f x) (g : α → β) :
    LooksUp (fun env place => g (f env place)) (x >>= fun a => Pure.pure (g a)) := h.bind fun a => pure (g a)

/-- A step that depends on the setting has the same answer in all settings. -/
theorem ofSetting {k : Setting → Resolve α} (h : ∀ s, LooksUp f (k s)) : LooksUp f (read >>= k) :=
  fun s p => h s s p

/-! Steps. -/

theorem reference (span : Span) (symbol : Symbol) : LooksUp (fun _ _ => ()) (Resolve.reference span symbol) :=
  fun _ _ => ⟨rfl, rfl, rfl⟩

theorem mention (name : Ident) (symbol : Option Symbol) : LooksUp (fun _ _ => ()) (Resolve.mention name symbol) := by
  cases symbol with
  | none => exact pure ()
  | some symbol => exact reference name.range symbol

theorem mentionAll (names : List (Ident × Option Symbol)) : LooksUp (fun _ _ => ()) (Resolve.mentionAll names) := by
  induction names with
  | nil => exact pure ()
  | cons n rest ih => exact (mention n.1 n.2).seq ih

theorem unresolved (names : List Ident) (isValue : Bool) :
    LooksUp (fun _ _ => ()) (Resolve.unresolved names isValue) := by
  cases names with
  | nil => exact pure ()
  | cons first rest =>
    have reported : LooksUp (fun _ _ => ())
        (Resolve.report first.range (.unresolved (Ident.dotted (first :: rest)))) := fun _ _ => ⟨rfl, rfl, rfl⟩
    refine reported.seq (ofSetting fun s => ?_)
    split
    · exact mentionAll _
    · exact pure ()

theorem mentionPath (names : List Ident) (path : List Segment) :
    LooksUp (fun _ _ => ()) (Resolve.mentionPath names path) := (mentionAll _).seq (unresolved _ _)

theorem typePath (names : List Ident) :
    LooksUp (fun env place => env.typePath place (names.map Ident.text)) (Resolve.typePath names) :=
  fun _ _ => ⟨rfl, rfl, rfl⟩

theorem namedType (names : List Ident) {annotations : Resolve Unit} {args : Resolve (List JavaType)}
    {g : Environment → Place → List JavaType} (onNames : LooksUp (fun _ _ => ()) annotations)
    (inBrackets : LooksUp g args) :
    LooksUp (fun env place => (⟨Environment.typeOfPath (env.typePath place (names.map Ident.text))
        (names.map Ident.text) (g env place), pathClass? (env.typePath place (names.map Ident.text))⟩ : NamedType))
      (Resolve.namedType names true annotations args) := by
  rw [namedType_eq]
  exact (typePath names).bind fun path => onNames.seq ((mentionPath names path).seq (inBrackets.answering _))

end LooksUp

/-! The way through a type. -/

mutual

theorem typeRef_looksUp : ∀ {t : TypeRef}, t.Plain → LooksUp (fun env place => env.convert place t) (typeRef t)
  | .primitive keyword _, _ => .pure _
  | .array element dims _, plain => (typeRef_looksUp (t := element) plain).answering _
  | .named segments range, plain => by
    have args := segmentArgs_looksUp (l := segments) plain
    have named := (LooksUp.namedType (segments.map TypeSegment.name)
      (segmentAnnotations_looksUp (l := segments) plain) args).answering NamedType.type
    rw [typeRef, if_neg (by rw [TypeSegment.AllPlain.notVar plain range]; nofun)]
    rw [List.map_map] at named
    exact named

theorem segmentAnnotations_looksUp : ∀ {l : List (TypeSegment Annotation)}, TypeSegment.AllPlain l →
    LooksUp (fun _ _ => ()) (segmentAnnotations l)
  | [], _ => .pure ()
  | ⟨as, name, args⟩ :: rest, plain => by
    rw [TypeSegment.AllPlain] at plain
    obtain ⟨rfl, -, -, later⟩ := plain
    exact (LooksUp.pure ()).seq (segmentAnnotations_looksUp later)

theorem segmentArgs_looksUp : ∀ {l : List (TypeSegment Annotation)}, TypeSegment.AllPlain l →
    LooksUp (fun env place => env.lastArgs place l) (segmentArgs l)
  | [], _ => .pure _
  | [⟨as, name, args⟩], plain => by
    rw [TypeSegment.AllPlain] at plain
    exact (typeArgList_looksUp plain.2.2.1).bind fun _ => (LooksUp.pure []).answering _
  | ⟨as, name, args⟩ :: second :: rest, plain => by
    rw [TypeSegment.AllPlain] at plain
    exact (typeArgList_looksUp plain.2.2.1).bind fun _ => (segmentArgs_looksUp plain.2.2.2).answering _

theorem typeArgList_looksUp : ∀ {args : Option (List (TypeArg Annotation))}, TypeArg.ListPlain args →
    LooksUp (fun env place => env.convertArgList place args) (typeArgList args)
  | none, _ => .pure _
  | some args, plain => by
    rw [TypeArg.ListPlain] at plain
    exact typeArgs_looksUp plain

theorem typeArgs_looksUp : ∀ {args : List (TypeArg Annotation)}, TypeArg.AllPlain args →
    LooksUp (fun env place => env.convertArgs place args) (typeArgs args)
  | [], _ => .pure _
  | arg :: rest, plain => by
    rw [TypeArg.AllPlain] at plain
    exact (typeArg_looksUp plain.1).bind fun _ => (typeArgs_looksUp plain.2).answering _

theorem typeArg_looksUp : ∀ {arg : TypeArg Annotation}, arg.Plain →
    LooksUp (fun env place => env.convertArg place arg) (typeArg arg)
  | .type t, plain => typeRef_looksUp (t := t) plain
  | .wildcard _, _ => .pure _
  | .bounded .upper t _, plain => (typeRef_looksUp (t := t) plain).answering _
  | .bounded .lower t _, plain => (typeRef_looksUp (t := t) plain).answering _

end

/-- What a written type is on the way through a file is what it is where classes are described. -/
theorem typeRef_convert (s : Setting) (p : Progress) {t : TypeRef} (plain : t.Plain) :
    (typeRef t s p).1 = p.environment.convert ⟨p.scopes, s.imports⟩ t := (typeRef_looksUp plain s p).1

/-- The type `p.Box<? extends int[]>`. -/
def boxed : TypeRef :=
  let ints : TypeRef := .array (.primitive "int" ⟨16, 19⟩) 1 ⟨16, 21⟩
  .named [⟨[], ⟨"p", ⟨0, 1⟩⟩, none⟩, ⟨[], ⟨"Box", ⟨2, 5⟩⟩, some [.bounded .upper ints ⟨6, 21⟩]⟩] ⟨0, 22⟩

theorem typeRef_convert_boxed :
    let library : ExternalTable := ExternalTable.empty.insert (.ofLibrary "p" "Box" ["T"] none [] [])
    let s : Setting := ⟨0, "p.Box<? extends int[]>", .ofText "p.Box<? extends int[]>", .standard, default⟩
    let p : Progress := .start .empty library .standard
    (typeRef boxed s p).1 = p.environment.convert ⟨p.scopes, s.imports⟩ boxed ∧
      (typeRef boxed s p).1.text = "p.Box<int[]>" := by
  have plain : boxed.Plain := by
    simp [boxed, WrittenType.Plain, TypeSegment.AllPlain, TypeArg.ListPlain, TypeArg.AllPlain, TypeArg.Plain]
  exact ⟨typeRef_convert _ _ plain, by decide +kernel⟩

end Resolve
end JavaIndex
