import JavaIndex.Classpath.Manifest
import JavaIndex.Proofs.Project.Members

/-! How the members of a class are numbered. Whether a class is described from a file or from a list, the
symbols of its members depend on nothing but the symbol of the class and the names of the members in their
order. -/
namespace JavaIndex

/-- One step further in the same universe. -/
def SymbolId.step (s : SymbolId) (d : Descriptor) : SymbolId := { s with path := s.path ++ [d] }

namespace OverloadCounter

/-- The steps to methods of these names, after others that have been seen. -/
def steps (seen : OverloadCounter) : List String → List Descriptor
  | [] => []
  | name :: names => .method name (seen.peek name) :: steps (seen.add name) names

theorem peek_add (seen : OverloadCounter) (name other : String) :
    (seen.add name).peek other = seen.peek other + if name = other then 1 else 0 := by
  simp [peek, add, List.count_cons]

theorem steps_concat (seen : OverloadCounter) (names : List String) (name : String) :
    seen.steps (names ++ [name]) = seen.steps names ++ [.method name (seen.peek name + names.count name)] := by
  induction names generalizing seen with
  | nil => rfl
  | cons first names ih =>
    have count : (seen.add first).peek name + names.count name = seen.peek name + (first :: names).count name := by
      rw [peek_add, List.count_cons, Nat.add_assoc, Nat.add_comm (names.count name)]
      simp
    rw [List.cons_append, steps, ih, count, steps, List.cons_append]

end OverloadCounter

/-- Methods have the symbols that their names in their order say. -/
def MethodInfo.Numbered (owner : Symbol) (ms : List MethodInfo) : Prop :=
  ms.map (fun m => m.symbol.id) = (OverloadCounter.empty.steps (ms.map MethodInfo.name)).map owner.id.step

theorem MethodInfo.Numbered.concat {owner : Symbol} {ms : List MethodInfo} (h : Numbered owner ms)
    {m : MethodInfo} (next : m.symbol.id = owner.id.step (.method m.name ((ms.map MethodInfo.name).count m.name))) :
    Numbered owner (ms ++ [m]) := by
  have start : OverloadCounter.empty.peek m.name = 0 := rfl
  simp only [Numbered, List.map_append, List.map_singleton, OverloadCounter.steps_concat, start, Nat.zero_add,
    next]
  rw [h]

/-- The members of a class have the symbols that their names in their order say. -/
structure ClassInfo.Numbered (c : ClassInfo) : Prop where
  fields : ∀ f ∈ c.fields, f.symbol.id = c.symbol.id.step (.term f.name)
  constructors : MethodInfo.Numbered c.symbol c.constructors
  methods : MethodInfo.Numbered c.symbol c.methods
  constructing : ∀ k ∈ c.constructors, k.name = Symbol.constructorName
  calling : ∀ m ∈ c.methods, m.name ≠ Symbol.constructorName
  constructed : Symbol.mayConstruct c.symbol.kind = false → c.constructors = []

/-- The members of a class are in the universe of the class. -/
structure ClassInfo.Whole (c : ClassInfo) : Prop where
  fields : ∀ f ∈ c.fields, f.symbol.scheme = c.symbol.scheme
  constructors : ∀ k ∈ c.constructors, k.symbol.scheme = c.symbol.scheme
  methods : ∀ m ∈ c.methods, m.symbol.scheme = c.symbol.scheme

theorem ClassInfo.Whole.offers {c : ClassInfo} (whole : c.Whole) {s : Symbol} (offers : Offers c s) :
    s.scheme = c.symbol.scheme := by
  cases offers with
  | field found => exact whole.fields _ (List.mem_of_find?_eq_some found)
  | method member => exact whole.methods _ member
  | constructor member => exact whole.constructors _ member

theorem MethodInfo.Numbered.scheme {owner : Symbol} {ms : List MethodInfo} (h : Numbered owner ms) :
    ∀ m ∈ ms, m.symbol.scheme = owner.scheme := by
  intro m hm
  have listed : m.symbol.id ∈ ms.map fun m => m.symbol.id := List.mem_map_of_mem hm
  rw [h] at listed
  obtain ⟨step, -, same⟩ := List.mem_map.mp listed
  exact (congrArg SymbolId.scheme same).symm

theorem ClassInfo.Numbered.whole {c : ClassInfo} (h : c.Numbered) : c.Whole where
  fields f hf := by rw [Symbol.scheme, h.fields f hf]; rfl
  constructors := h.constructors.scheme
  methods := h.methods.scheme

/-- A description so far counts its methods, and its constructors if it can have any. -/
structure ClassBuilder.Numbered (b : ClassBuilder) : Prop extends b.info.Numbered where
  seen : ∀ name, name ≠ Symbol.constructorName →
    b.seen.peek name = (b.info.methods.map MethodInfo.name).count name
  seenConstructors : Symbol.mayConstruct b.info.symbol.kind = true →
    b.seen.peek Symbol.constructorName = b.info.constructors.length

namespace Build

/-- A step comes to a symbol, and the description goes on. -/
def Gives (x : Build Symbol) (before : ClassBuilder) (post : ClassBuilder → Prop) : Prop :=
  ∃ s after, x before = (.ok s, after) ∧ post after

namespace Gives

variable {x : Build Symbol} {b : ClassBuilder} {post : ClassBuilder → Prop}

theorem attempt (h : Gives x b post) : Leads (Build.attempt x) b post := by
  obtain ⟨s, after, run, h⟩ := h
  exact ⟨after, attempt_run run, h⟩

theorem discard (h : Gives x b post) : Leads (Functor.discard x) b post := by
  obtain ⟨s, after, run, h⟩ := h
  exact ⟨after, run_bind run fun _ => Pure.pure (), h⟩

end Gives

/-- The members described so far, of which these are the names. -/
structure Listed (c : ClassInfo) (fields : List String) (constructors : Nat) (methods : List String)
    (b : ClassBuilder) : Prop where
  describing : ∃ fs ms cs seen, b = describing c fs ms cs seen
  numbered : b.Numbered
  fields : b.info.fields.map FieldInfo.name = fields
  constructors : b.info.constructors.length = constructors
  methods : b.info.methods.map MethodInfo.name = methods

namespace Listed

variable {c : ClassInfo} {fields methods : List String} {constructors : Nat} {b : ClassBuilder}

theorem start (c : ClassInfo) : Listed c [] 0 [] (.ofHeader c) where
  describing := ⟨[], [], [], .empty, rfl⟩
  numbered :=
    { fields := nofun, constructors := rfl, methods := rfl, constructing := nofun, calling := nofun
      constructed := fun _ => rfl, seen := fun _ _ => rfl, seenConstructors := fun _ => rfl }
  fields := rfl
  constructors := rfl
  methods := rfl

section

variable (type : c.symbol.IsType) (h : Listed c fields constructors methods b)

include type h

theorem field (name : String) (fieldType : JavaType) (isStatic : Bool) {kind : SymbolKind}
    (term : kind.isTerm = true) :
    Gives (Build.field name fieldType isStatic kind) b (Listed c (fields ++ [name]) constructors methods) := by
  obtain ⟨⟨fs, ms, cs, seen, rfl⟩, numbered, rfl, rfl, rfl⟩ := h
  refine ⟨_, _, field_run type name fieldType isStatic term, ⟨_, _, _, _, rfl⟩, ?_, by simp [Build.describing], rfl,
    rfl⟩
  refine { numbered with fields := fun f hf => ?_ }
  obtain hf | hf := List.mem_append.mp hf
  · exact numbered.fields f hf
  · rw [List.mem_singleton.mp hf]
    rfl

theorem method {name : String} (calling : name ≠ Symbol.constructorName) (params : List JavaType)
    (varargs : Bool) (returns : JavaType) (isStatic : Bool) :
    Gives (Build.method name params varargs returns isStatic) b
      (Listed c fields constructors (methods ++ [name])) := by
  obtain ⟨⟨fs, ms, cs, seen, rfl⟩, numbered, rfl, rfl, rfl⟩ := h
  refine ⟨_, _, method_run type name params varargs returns isStatic, ⟨_, _, _, _, rfl⟩, ?_, rfl, rfl,
    by simp [Build.describing]⟩
  have count : seen.peek name = (ms.map MethodInfo.name).count name := numbered.seen name calling
  refine { numbered with
    methods := numbered.methods.concat ?_, calling := fun m hm => ?_, seen := fun other plain => ?_,
    seenConstructors := fun may => ?_ }
  · exact congrArg (fun n => c.symbol.id.step (.method name n)) count
  · obtain hm | hm := List.mem_append.mp hm
    · exact numbered.calling m hm
    · rw [List.mem_singleton.mp hm]
      exact calling
  · have before : seen.peek other = (ms.map MethodInfo.name).count other := numbered.seen other plain
    simp [Build.describing, OverloadCounter.peek_add, before, List.count_singleton]
  · have before : seen.peek Symbol.constructorName = cs.length := numbered.seenConstructors may
    simp [Build.describing, OverloadCounter.peek_add, before, calling]

theorem constructor (may : Symbol.mayConstruct c.symbol.kind = true) (params : List JavaType)
    (varargs : Bool) :
    Gives (Build.constructor params varargs) b (Listed c fields (constructors + 1) methods) := by
  obtain ⟨⟨fs, ms, cs, seen, rfl⟩, numbered, rfl, rfl, rfl⟩ := h
  refine ⟨_, _, constructor_run type may params varargs, ⟨_, _, _, _, rfl⟩, ?_, rfl, by simp [Build.describing],
    rfl⟩
  have constructing : ∀ k ∈ cs, k.name = Symbol.constructorName := numbered.constructing
  have count : seen.peek Symbol.constructorName = cs.length := numbered.seenConstructors may
  refine { numbered with
    constructors := numbered.constructors.concat ?_, constructing := fun k hk => ?_,
    constructed := fun never => ?_, seen := fun other plain => ?_, seenConstructors := fun _ => ?_ }
  · have all : (cs.map MethodInfo.name).count Symbol.constructorName = cs.length := by
      rw [List.count_eq_length.mpr, List.length_map]
      intro name hname
      obtain ⟨k, hk, rfl⟩ := List.mem_map.mp hname
      exact (constructing k hk).symm
    exact congrArg (fun n => c.symbol.id.step (.method Symbol.constructorName n)) (count.trans all.symm)
  · obtain hk | hk := List.mem_append.mp hk
    · exact constructing k hk
    · rw [List.mem_singleton.mp hk]
  · have none : Symbol.mayConstruct c.symbol.kind = false := never
    rw [may] at none
    cases none
  · have before : seen.peek other = (ms.map MethodInfo.name).count other := numbered.seen other plain
    simp [Build.describing, OverloadCounter.peek_add, before, Ne.symm plain]
  · simp [Build.describing, OverloadCounter.peek_add, count]

/-- A constructor that cannot stand where it does leaves the members as they are. -/
theorem noConstructor (may : Symbol.mayConstruct c.symbol.kind = false) (params : List JavaType)
    (varargs : Bool) :
    Leads (attempt (Build.constructor params varargs)) b (Listed c fields constructors methods) := by
  obtain ⟨⟨fs, ms, cs, seen, rfl⟩, numbered, rfl, rfl, rfl⟩ := h
  refine ⟨_, attempt_no_constructor type may params varargs, ⟨_, _, _, _, rfl⟩, ?_, rfl, rfl, rfl⟩
  -- The counter of constructors has gone on all the same, but no class without constructors is asked for it.
  refine { numbered with seen := fun other plain => ?_, seenConstructors := fun always => ?_ }
  · have before : seen.peek other = (ms.map MethodInfo.name).count other := numbered.seen other plain
    simp [Build.describing, OverloadCounter.peek_add, before, Ne.symm plain]
  · have some : Symbol.mayConstruct c.symbol.kind = true := always
    rw [may] at some
    cases some

end

end Listed

/-! A class of a file. -/

/-- The members described so far, whatever their names. -/
def Numbering (c : ClassInfo) (b : ClassBuilder) : Prop :=
  ∃ fields constructors methods, Listed c fields constructors methods b

namespace Numbering

variable {c : ClassInfo} {b : ClassBuilder} (type : c.symbol.IsType) (h : Numbering c b)

theorem of_listed {x : Build Unit} {fields methods : List String} {constructors : Nat}
    (step : Leads x b (Listed c fields constructors methods)) : Leads x b (Numbering c) := by
  obtain ⟨after, run, listed⟩ := step
  exact ⟨after, run, fields, constructors, methods, listed⟩

include type h

theorem field (name : String) (fieldType : JavaType) (isStatic : Bool) {kind : SymbolKind}
    (term : kind.isTerm = true) :
    Leads (attempt (Build.field name fieldType isStatic kind)) b (Numbering c) := by
  obtain ⟨_, _, _, h⟩ := h
  exact of_listed (h.field type name fieldType isStatic term).attempt

theorem method {name : String} (calling : name ≠ Symbol.constructorName) (params : List JavaType)
    (varargs : Bool) (returns : JavaType) (isStatic : Bool) :
    Leads (attempt (Build.method name params varargs returns isStatic)) b (Numbering c) := by
  obtain ⟨_, _, _, h⟩ := h
  exact of_listed (h.method type calling params varargs returns isStatic).attempt

theorem constructor (params : List JavaType) (varargs : Bool) :
    Leads (attempt (Build.constructor params varargs)) b (Numbering c) := by
  obtain ⟨_, _, _, h⟩ := h
  cases may : Symbol.mayConstruct c.symbol.kind with
  | true => exact of_listed (h.constructor type may params varargs).attempt
  | false => exact of_listed (h.noConstructor type may params varargs)

variable {env : Environment} {place : Place} {body : ClassBody} {components : List (Ident × JavaType)}

theorem member {m : Member} (plain : ∀ n ∈ ClassBody.callablesOf [m], Plain n.name.text) :
    Leads (Build.member env place body components m) b (Numbering c) := by
  cases m with
  | field d doc range =>
    refine Leads.forM (fun _ => Numbering c) h fun _ v _ _ _ h => ?_
    exact h.field type v.name.text _ _ rfl
  | method m =>
    let types := env.callableTypes { place with scopes := methodScopes b place.scopes m } components m
    have run : Build.member env place body components (.method m) b =
        (if m.isConstructor then attempt (Build.constructor types.params types.varargs)
          else attempt (Build.method m.name.text types.params types.varargs types.returns types.isStatic)) b :=
      rfl
    rw [Leads, run]
    split
    · exact h.constructor type types.params types.varargs
    · have calling := (plain m List.mem_cons_self).ne_constructorName
      exact h.method type calling types.params types.varargs types.returns types.isStatic
  | initializer isStatic block => exact .pure h
  | type d => exact .pure h

theorem accessor {component : Ident × JavaType} (plain : Plain component.1.text) :
    Leads (Build.accessor component) b (Numbering c) := by
  have run : Build.accessor component b =
      (if b.hasMethod component.1.text 0 then Pure.pure () else Build.implied (.accessor component)) b := rfl
  rw [Leads, run]
  split
  · exact Leads.pure h
  · exact h.method type plain.ne_constructorName _ _ _ _

end Numbering

/-- The members of a class of a file are numbered, those too that it has without declaring them. -/
theorem members_numbering (env : Environment) (place : Place) {body : ClassBody} {c : ClassInfo}
    (type : c.symbol.IsType) (plain : ∀ m ∈ ClassBody.callablesOf body.members, Plain m.name.text)
    (plainComponents : ∀ p ∈ body.components, Plain p.name.text) :
    Leads (Build.members env place body) (.ofHeader c) (Numbering c) := by
  have start : Numbering c (.ofHeader c) := ⟨[], 0, [], .start c⟩
  rw [Leads, members_eq]
  -- Constants and components, declared members, accessors, and what every enum has: one loop each.
  have heads : Leads (heads body (env.componentTypes place body.components) c.selfType) (.ofHeader c)
      (Numbering c) :=
    Leads.seq (.forM (fun _ => Numbering c) start fun _ _ _ _ _ h => h.field type _ _ _ rfl) fun _ h =>
      .forM (fun _ => Numbering c) h fun _ _ _ _ _ h => h.field type _ _ _ rfl
  refine heads.seq fun _ h => Leads.seq (.forM (fun _ => Numbering c) h fun done m rest _ split h => ?_)
    fun _ h => Leads.seq (.forM (fun _ => Numbering c) h fun done component rest _ split h => ?_) fun _ h => ?_
  · refine h.member type fun n hn => plain n ?_
    rw [split, ClassBody.callablesOf_append, ← List.singleton_append, ClassBody.callablesOf_append]
    exact List.mem_append_right _ (List.mem_append_left _ hn)
  · have inside : component ∈ env.componentTypes place body.components := by simp [split]
    obtain ⟨p, hp, rfl⟩ := List.mem_map.mp inside
    exact h.accessor type (plainComponents p hp)
  · split
    · refine .forM (fun _ => Numbering c) h fun done m rest _ split h => ?_
      have inside : m ∈ ImpliedMethod.ofEnum c.selfType := by simp [split]
      refine h.method type ?_ _ _ _ _
      simp only [ImpliedMethod.ofEnum, List.mem_cons, List.not_mem_nil, or_false] at inside
      obtain rfl | rfl := inside <;> simp [Symbol.constructorName]
    · exact .pure h

end Build

/-! A class of a list. -/

/-- The members of a listed class are described without fail. -/
theorem Manifest.Class.buildMembers_listed (m : Manifest.Class) {c : ClassInfo} (type : c.symbol.IsType)
    (may : m.constructors ≠ [] → Symbol.mayConstruct c.symbol.kind = true)
    (calling : ∀ x ∈ m.methods, x.name ≠ Symbol.constructorName) :
    Build.Leads m.buildMembers (.ofHeader c) (Build.Listed c (m.fields.map Field.name)
      m.constructors.length (m.methods.map Method.name)) := by
  let fields := m.fields.map Field.name
  refine Build.Leads.seq (.forM (fun done => Build.Listed c (done.map Field.name) 0 []) (.start c)
    fun done f rest b split h => ?_) fun _ h => Build.Leads.seq (.forM
      (fun done => Build.Listed c fields done.length []) h fun done k rest b split h => ?_) fun _ h => .forM
        (fun done => Build.Listed c fields m.constructors.length (done.map Method.name)) h
          fun done x rest b split h => ?_
  · rw [List.map_append]
    exact (h.field type f.name _ _ (by cases f.constant <;> rfl)).discard
  · rw [List.length_append]
    exact (h.constructor type (may (by simp [split])) _ _).discard
  · rw [List.map_append]
    exact (h.method type (calling x (by simp [split])) _ _ _ _).discard

end JavaIndex
