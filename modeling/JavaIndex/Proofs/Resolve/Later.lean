import JavaIndex.Proofs.Resolve.World

/-! What is sound, known or defined at one moment is so at every later one, and it stays so when what was
expected has come about. -/
namespace JavaIndex

variable {w : World} {t u : Moment}

theorem Undefined.mono {s : SymbolId} (h : Undefined w t s) (le : t.Keeps u) : Undefined w u s := by
  cases h with
  | implied written described named made =>
    exact .implied written (described.mono le) (fun i hi => (named i hi).mono le) made
  | repeated written described less first second same =>
    exact .repeated written (described.mono le) less first second same

theorem Sound.mono {s : Symbol} (h : Sound w t s) (le : t.Keeps u) : Sound w u s := by
  cases h with
  | unasked h => exact .unasked h
  | external h => exact .external h
  | package kind outside => exact .package kind outside
  | project h => exact .project h
  | defined h => exact .defined (h.mono le)
  | expected h => exact .expected h
  | undefined h => exact .undefined (h.mono le)

theorem Met.sound {s : Symbol} (h : Met w t s.id) : Sound w t s := by
  obtain ⟨e, he, same⟩ | h := h
  · exact .defined ⟨e, he, rfl, same⟩
  · exact .undefined h

theorem ClassSound.mono {c : ClassInfo} (h : ClassSound w t c) (le : t.Keeps u) : ClassSound w u c :=
  fun s offered => (h s offered).mono le

theorem ClassNamed.mono {c : ClassInfo} (h : ClassNamed w t c) (le : t.Keeps u) : ClassNamed w u c :=
  ⟨h.members.mono le, h.symbol.mono le, h.safe⟩

theorem BindingSound.mono {b : TypeBinding} (h : BindingSound w t b) (le : t.Keeps u) :
    BindingSound w u b := by
  cases b with
  | ofClass c => exact ClassNamed.mono h le
  | typeParam name s => exact Sound.mono h le

theorem ScopeSound.mono {sc : Scope} (h : ScopeSound w t sc) (le : t.Keeps u) : ScopeSound w u sc where
  values b hb := (h.values b hb).mono le
  types b hb := (h.types b hb).mono le
  members c hc := (h.members c hc).mono le
  ofClass c hc writable := (h.ofClass c hc writable).mono le

theorem Given.mono {s : SymbolId} {span : Span} (h : Given w t s span) (le : t.Keeps u) :
    Given w u s span := by
  cases h with
  | planned site known plan => exact .planned site known plan
  | granted h => exact .granted (le.grants _ h)

theorem Matched.mono {c : ClassInfo} {vars : List (String × Symbol)} {b : ClassSyntax}
    (h : Matched w t c vars b) (le : t.Keeps u) : Matched w u c vars b := by
  obtain h | h := h
  · exact .inl h
  · exact .inr (h.mono le)

theorem Listed.mono {c : ClassInfo} (h : Listed w t c)
    (locals : ∀ (name : String) (c : ClassInfo), t.locals[name]? = some c → u.locals[name]? = some c) :
    Listed w u c := by
  cases h with
  | inBody known => exact .inBody (locals _ c known)
  | project unmarked known => exact .project unmarked known

theorem Accounted.mono {b : ClassSyntax} (h : Accounted w t b) (le : t.Keeps u)
    (locals : ∀ (name : String) (c : ClassInfo), t.locals[name]? = some c → u.locals[name]? = some c) :
    Accounted w u b := by
  obtain ⟨written, plain, c, vars, listed, matched, defined⟩ := h
  exact ⟨written, plain, c, vars, listed.mono locals, matched.mono le,
    fun i s plan => (defined i s plan).mono le⟩

theorem Found.mono {name : String} {c : ClassInfo} {vars : List (String × Symbol)}
    (h : Found w t name c vars) (le : t ≤ u) : Found w u name c vars := by
  cases h with
  | inBody known params => exact .inBody (le.locals _ _ known) (le.typeParams _ _ params)
  | project unmarked known => exact .project unmarked known

theorem Known.mono {name : String} {d : TypeDecl} (h : Known w t name d) (le : t ≤ u) :
    Known w u name d := by
  induction h with
  | intro found named matched housed _ ih =>
    exact .intro (found.mono le) named (matched.mono le.toKeeps) (housed.mono le) ih

theorem Settled.mono {name : String} {d : TypeDecl} (h : Settled w t name d) (le : t ≤ u) :
    Settled w u name d := by
  induction h with
  | intro found defined _ ih =>
    exact .intro (found.mono le) (fun i s plan => (defined i s plan).mono le.toKeeps) ih

/-- Numbers are the same whatever else is known. -/
theorem Numbered.of_eq (h : Numbered t) (ledger : u.ledger = t.ledger)
    (next : u.progress.ids = t.progress.ids) : Numbered u where
  epochs g hg := by
    rw [ledger] at hg ⊢
    rw [next]
    exact h.epochs g hg
  numbers g hg g' hg' := by
    rw [ledger] at hg hg'
    exact h.numbers g hg g' hg'
  homes g hg := by
    rw [ledger] at hg
    exact (h.homes g hg).mono (.of_eq ledger)

/-- Where nothing has been noted or found out in between, all is still well. -/
theorem Ready.carry {s s' : Setting} (ready : Ready w s t) (keep : t.Keeps u) (numbered : Numbered u)
    (environment : u.progress.environment = t.progress.environment)
    (typeParams : u.progress.typeParams = t.progress.typeParams)
    (classCount : t.progress.classCount ≤ u.progress.classCount)
    (policy : u.progress.ids.policy = t.progress.ids.policy)
    (emission : u.progress.emission = t.progress.emission)
    (entries : u.ledger.entries = t.ledger.entries)
    (scopes : ∀ sc ∈ u.progress.scopes, ScopeSound w u sc)
    (file : s'.lines = s.lines ∧ s'.imports = s.imports)
    (enclosing : ∀ o ∈ u.progress.enclosing, Housed u o.path)
    (oneEpoch : w.policy = .perUnit → u.ledger.epoch = 0) : Ready w s' u where
  toNumbered := numbered
  lines := file.1.trans ready.lines
  imports := by rw [file.2]; exact ready.imports
  project := by rw [environment]; exact ready.project
  external := by rw [environment]; exact ready.external
  policy := policy.trans ready.policy
  named name c hc := by
    rw [Moment.locals, environment] at hc
    exact ⟨(ready.named name c hc).1, (ready.named name c hc).2.mono classCount⟩
  known name c hc := by
    rw [Moment.locals, environment] at hc
    exact ⟨(ready.known name c hc).1.mono keep, fun safe => ((ready.known name c hc).2 safe).mono keep⟩
  typeParams name vars hvars := by
    rw [typeParams] at hvars
    obtain ⟨made, sound⟩ := ready.typeParams name vars hvars
    exact ⟨made.mono classCount, fun v hv => (sound v hv).mono keep⟩
  scopes := scopes
  definitions := by rw [emission, entries]; exact ready.definitions
  references o ho used := by
    rw [emission] at ho
    exact (ready.references o ho used).mono keep
  infos := by rw [emission, entries]; exact ready.infos
  given distinct e he := by
    rw [entries] at he
    exact (ready.given distinct e he).mono keep
  enclosing := enclosing
  oneEpoch := oneEpoch

/-! Expectations. -/

section

variable {expected : SymbolId → Prop}

theorem Given.meet {s : SymbolId} {span : Span} (h : Given w t s span) :
    Given (w.withExpected expected) t s span := by
  cases h with
  | planned site known plan => exact .planned site known plan
  | granted h => exact .granted h

theorem Found.meet {name : String} {c : ClassInfo} {vars : List (String × Symbol)}
    (h : Found w t name c vars) : Found (w.withExpected expected) t name c vars := by
  cases h with
  | inBody known params => exact .inBody known params
  | project unmarked known => exact .project unmarked known

theorem Known.meet {name : String} {d : TypeDecl} (h : Known w t name d) :
    Known (w.withExpected expected) t name d := by
  induction h with
  | intro found named matched housed _ ih => exact .intro found.meet named matched housed ih

theorem Settled.meet {name : String} {d : TypeDecl} (h : Settled w t name d) :
    Settled (w.withExpected expected) t name d := by
  induction h with
  | intro found defined _ ih => exact .intro found.meet defined ih

theorem Listed.meet {c : ClassInfo} (h : Listed w t c) : Listed (w.withExpected expected) t c := by
  cases h with
  | inBody known => exact .inBody known
  | project unmarked known => exact .project unmarked known

theorem Accounted.meet {b : ClassSyntax} (h : Accounted w t b) :
    Accounted (w.withExpected expected) t b := by
  obtain ⟨written, plain, c, vars, listed, matched, defined⟩ := h
  exact ⟨written, plain, c, vars, listed.meet, matched, defined⟩

theorem Covers.meet {ns : List Node} (h : Covers w ns t u) :
    Covers (w.withExpected expected) ns t u := by
  obtain ⟨visited, added, sub, all, grown, names, classes⟩ := h
  exact ⟨visited, added, sub, all, grown, names, fun n hn b hb => (classes n hn b hb).meet⟩

theorem Undefined.meet {s : SymbolId} (h : Undefined w t s) :
    Undefined (w.withExpected expected) t s := by
  cases h with
  | implied written described named made => exact .implied written described named made
  | repeated written described less first second same =>
    exact .repeated written described less first second same

variable (met : ∀ s : Symbol, w.expected s.id → Sound (w.withExpected expected) t s)

include met

theorem Sound.meet {s : Symbol} (h : Sound w t s) : Sound (w.withExpected expected) t s := by
  cases h with
  | unasked h => exact .unasked h
  | external h => exact .external h
  | package kind outside => exact .package kind outside
  | project h => exact .project h
  | defined h => exact .defined h
  | expected h => exact met s h
  | undefined h => exact .undefined h.meet

theorem ClassSound.meet {c : ClassInfo} (h : ClassSound w t c) :
    ClassSound (w.withExpected expected) t c :=
  fun s offered => (h s offered).meet met

theorem ClassNamed.meet {c : ClassInfo} (h : ClassNamed w t c) :
    ClassNamed (w.withExpected expected) t c :=
  ⟨h.members.meet met, h.symbol.meet met, h.safe⟩

theorem BindingSound.meet {b : TypeBinding} (h : BindingSound w t b) :
    BindingSound (w.withExpected expected) t b := by
  cases b with
  | ofClass c => exact ClassNamed.meet met h
  | typeParam name s => exact Sound.meet met h

theorem ScopeSound.meet {sc : Scope} (h : ScopeSound w t sc) :
    ScopeSound (w.withExpected expected) t sc where
  values b hb := (h.values b hb).meet met
  types b hb := (h.types b hb).meet met
  members c hc := (h.members c hc).meet met
  ofClass c hc writable := (h.ofClass c hc writable).meet met

/-- Once everything expected is sound for other reasons, the expectation can be dropped. -/
theorem Ready.meet {s : Setting} (h : Ready w s t) : Ready (w.withExpected expected) s t where
  lines := h.lines
  imports := h.imports
  project := h.project
  external := h.external
  policy := h.policy
  named := h.named
  known name c hc := ⟨(h.known name c hc).1.meet met, fun safe => ((h.known name c hc).2 safe).meet met⟩
  typeParams name vars hvars :=
    ⟨(h.typeParams name vars hvars).1, fun v hv => ((h.typeParams name vars hvars).2 v hv).meet met⟩
  scopes sc hsc := (h.scopes sc hsc).meet met
  definitions := h.definitions
  references o ho used := (h.references o ho used).meet met
  infos := h.infos
  epochs := h.epochs
  numbers := h.numbers
  homes := h.homes
  given distinct e he := (h.given distinct e he).meet
  enclosing := h.enclosing
  oneEpoch := h.oneEpoch

end

theorem Ready.expecting {s : Setting} (h : Ready w s t) (more : SymbolId → Prop) :
    Ready (w.expecting more) s t :=
  h.meet fun _ expected => .expected (.inl expected)

/-- What was expected in between has come about. -/
theorem Ready.discharge {s : Setting} {more : SymbolId → Prop} (h : Ready (w.expecting more) s t)
    (come : ∀ s : Symbol, more s.id → Sound w t s) : Ready w s t := by
  change Ready ((w.expecting more).withExpected w.expected) s t
  refine h.meet fun s expected => ?_
  obtain expected | expected := expected
  · exact .expected expected
  · exact come s expected

theorem Covers.discharge {ns : List Node} {more : SymbolId → Prop}
    (h : Covers (w.expecting more) ns t u) : Covers w ns t u := by
  change Covers ((w.expecting more).withExpected w.expected) ns t u
  exact h.meet

theorem World.Grounded.expecting (grounded : w.Grounded) (more : SymbolId → Prop) :
    (w.expecting more).Grounded :=
  ⟨grounded.named, grounded.sites, grounded.nested, grounded.external, grounded.constants⟩

theorem World.Lawful.expecting (lawful : w.Lawful) (more : SymbolId → Prop) :
    (w.expecting more).Lawful :=
  ⟨lawful.toGrounded.expecting more, lawful.params⟩

end JavaIndex
