import JavaIndex.Proofs.Resolve.World

/-! Where that comes from which a name leads to. There are only so many ways to come by a class, and by a
symbol: every look-up of the environment ends in one of them. What holds of all classes, or of all symbols,
that can be come by is therefore proved by going through these ways once. -/
namespace JavaIndex

/-- Where no scope is open and nothing is imported. -/
def Place.nowhere : Place := ⟨[], ⟨"", [], [], [], [], []⟩⟩

namespace Environment

variable {env : Environment} {place : Place} {names : List String}

/-! Every class of a hierarchy is a class of the environment. -/

/-- The class is known under some name. -/
def Holds (env : Environment) (c : ClassInfo) : Prop := ∃ name, env.class? name = some c

theorem instance_holds {t : JavaType} {a : Ancestor} (found : env.instance? t = some a) :
    env.Holds a.info := by
  cases t with
  | named name args =>
    simp only [instance?, Option.map_eq_some_iff] at found
    obtain ⟨c, hc, rfl⟩ := found
    exact ⟨name, hc⟩
  | _ => simp [instance?] at found

theorem root_holds {a : Ancestor} (found : env.root? = some a) : env.Holds a.info := by
  simp only [root?, Option.map_eq_some_iff] at found
  obtain ⟨c, hc, rfl⟩ := found
  exact ⟨objectName, hc⟩

theorem origin_holds {t : JavaType} {a : Ancestor} (found : env.origin? t = some a) :
    env.Holds a.info := by
  unfold origin? at found
  split at found
  · exact root_holds found
  · exact instance_holds found

theorem mem_of_mem_unseen {seen : List String} {as : List Ancestor} {a : Ancestor}
    (h : a ∈ unseen seen as) : a ∈ as := by
  induction as generalizing seen with
  | nil => simp [unseen] at h
  | cons b rest ih =>
    unfold unseen at h
    split at h
    · exact List.mem_cons_of_mem _ (ih h)
    · obtain rfl | h := List.mem_cons.mp h
      · exact List.mem_cons_self
      · exact List.mem_cons_of_mem _ (ih h)

theorem generations_hold {n : Nat} {seen : List String} {as : List Ancestor}
    (hold : ∀ a ∈ as, env.Holds a.info) : ∀ a ∈ env.generations n seen as, env.Holds a.info := by
  induction n generalizing seen as with
  | zero =>
    intro a ha
    cases as <;> simp [generations] at ha
  | succ n ih =>
    cases as with
    | nil => simp [generations]
    | cons b rest =>
      intro a ha
      obtain ha | ha := List.mem_append.mp ha
      · exact hold a ha
      · refine ih (fun a ha => ?_) a ha
        obtain ⟨c, -, hc⟩ := List.mem_flatMap.mp (mem_of_mem_unseen ha)
        obtain ⟨type, -, found⟩ := List.mem_filterMap.mp hc
        exact instance_holds found

theorem hierarchy_holds {t : JavaType} {a : Ancestor} (h : a ∈ env.hierarchy t) :
    env.Holds a.info := by
  unfold hierarchy at h
  split at h
  · simp at h
  · rename_i b found
    have hold : ∀ a ∈ env.generations (env.listedCount + 1) [b.name] [b], env.Holds a.info :=
      generations_hold (by simpa using origin_holds found)
    dsimp only at h
    split at h
    · exact hold a h
    · obtain h | h := List.mem_append.mp h
      · exact hold a h
      · exact root_holds (by simpa using h)

theorem mem_foldl_addMethod {cs found : List Candidate} {c : Candidate}
    (h : c ∈ cs.foldl addMethod found) : c ∈ found ∨ c ∈ cs := by
  induction cs generalizing found with
  | nil => exact .inl h
  | cons d rest ih =>
    obtain h | h := ih h
    · unfold addMethod at h
      split at h
      · exact .inl h
      · obtain h | h := List.mem_append.mp h
        · exact .inl h
        · exact .inr (by simp_all)
    · exact .inr (List.mem_cons_of_mem _ h)

/-! The ways to come by something at a place, where the given simple names stand. -/

/-- The ways to come by a class. -/
inductive Means (env : Environment) (place : Place) (names : List String) : ClassInfo → Prop
  | bound {sc name c} : sc ∈ place.scopes → (name, .ofClass c) ∈ sc.types → Means env place names c
  | around {sc c} : sc ∈ place.scopes → sc.classInfo = some c → isWritable c = true → Means env place names c
  | inside {outer name c} : env.class? (outer ++ "." ++ name) = some c → Means env place names c
  | imported {simple name c} : place.imports.single? simple = some name → env.class? name = some c →
      Means env place names c
  | within {package name c} : name ∈ names → env.class? (Dotted.within package name) = some c →
      Means env place names c

/-- The ways to come by a member of a class. -/
inductive Supplies (env : Environment) : Symbol → Prop
  | member {c s} : env.Holds c → Offers c s → Supplies env s
  | constant {c name f} : env.external.constant? c name = some f → Supplies env f.symbol

/-- The ways to come by a symbol. -/
inductive LeadsTo (env : Environment) (place : Place) (names : List String) : Symbol → Prop
  | package {name} : LeadsTo env place names (env.packageSymbol name)
  | ofClass {c} : env.Means place names c → LeadsTo env place names c.symbol
  | member {s} : env.Supplies s → LeadsTo env place names s
  | value {sc b} : sc ∈ place.scopes → b ∈ sc.values → LeadsTo env place names b.2.symbol
  | typeParam {sc name inner s} : sc ∈ place.scopes → (name, .typeParam inner s) ∈ sc.types →
      LeadsTo env place names s

/-! Members. -/

theorem memberType_means {c inner : ClassInfo} {name : String}
    (found : env.memberType? c name = some inner) : env.Means place names inner := by
  obtain ⟨a, -, h⟩ := List.exists_of_findSome?_eq_some found
  exact .inside h

theorem field_supplied {type : JavaType} {name : String} {f : FieldInfo}
    (found : env.field? type name = some f) : env.Supplies f.symbol := by
  obtain ⟨a, ha, h⟩ := List.exists_of_findSome?_eq_some found
  unfold declaredField? at h
  split at h
  · rename_i g declared
    cases Option.some.inj h
    have offered : Offers a.info g.symbol := .field declared
    exact .member (hierarchy_holds ha) offered
  · exact .constant h

theorem methods_supplied {type : JavaType} {name : String} {c : Candidate}
    (h : c ∈ env.methods type name) : env.Supplies c.symbol := by
  obtain h | h := mem_foldl_addMethod h
  · cases h
  · obtain ⟨a, ha, h⟩ := List.mem_flatMap.mp h
    obtain ⟨m, hm, rfl⟩ := List.mem_map.mp h
    exact .member (hierarchy_holds ha) (.method (List.mem_of_mem_filter hm))

theorem constructors_offered {c : ClassInfo} {args : List JavaType} {d : Candidate}
    (h : d ∈ constructors c args) : Offers c d.symbol := by
  obtain ⟨m, hm, rfl⟩ := List.mem_map.mp h
  exact .constructor hm

theorem callables_supplied {name : String} {c : Candidate} (h : c ∈ env.callables place name) :
    env.Supplies c.symbol := by
  unfold callables at h
  dsimp only at h
  split at h
  · rename_i found around
    obtain ⟨d, -, some⟩ := List.exists_of_findSome?_eq_some around
    obtain ⟨some, -⟩ := Option.filter_eq_some_iff.mp some
    cases Option.some.inj some
    exact methods_supplied h
  · obtain ⟨d, -, h⟩ := List.mem_flatMap.mp (List.mem_of_mem_filter h)
    exact methods_supplied h

/-! The names of types. -/

/-- Where that comes from to which the name of a type is bound. -/
def Binds (env : Environment) (place : Place) (names : List String) : TypeBinding → Prop
  | .ofClass c => env.Means place names c
  | .typeParam _ s => env.LeadsTo place names s

theorem scopeType_binds {name : String} {sc : Scope} {b : TypeBinding} (hsc : sc ∈ place.scopes)
    (found : env.scopeType? name sc = some b) : env.Binds place names b := by
  simp only [scopeType?, Option.or_eq_some_iff] at found
  obtain bound | ⟨-, found⟩ := found
  · simp only [Scope.type?, Option.map_eq_some_iff] at bound
    obtain ⟨⟨key, binding⟩, hentry, rfl⟩ := bound
    have entry := List.mem_of_find?_eq_some hentry
    cases binding with
    | ofClass c => exact .bound hsc entry
    | typeParam inner s => exact .typeParam hsc entry
  · split at found
    · cases found
    · rename_i c hc
      split at found
      · rename_i self
        cases Option.some.inj found
        exact .around hsc hc (by simp_all)
      · obtain ⟨inner, hinner, rfl⟩ := Option.map_eq_some_iff.mp found
        exact memberType_means hinner

theorem simpleType_binds {name : String} {b : TypeBinding} (among : name ∈ names)
    (found : env.simpleType? place name = some b) : env.Binds place names b := by
  simp only [simpleType?, Option.or_eq_some_iff] at found
  obtain inScope | ⟨-, found⟩ := found
  · obtain ⟨sc, hsc, h⟩ := List.exists_of_findSome?_eq_some inScope
    exact scopeType_binds hsc h
  · obtain ⟨c, hc, rfl⟩ := Option.map_eq_some_iff.mp found
    obtain ⟨candidate, hcandidate, h⟩ := List.exists_of_findSome?_eq_some hc
    obtain single | outer := List.mem_append.mp hcandidate
    · exact .imported (by simpa using single) h
    · obtain ⟨package, -, rfl⟩ := List.mem_map.mp outer
      exact .within among h

/-! Segments of names. -/

/-- Where that comes from which a segment of a name means. -/
structure Reads (env : Environment) (place : Place) (names : List String) (g : Segment) : Prop where
  symbol : ∀ s, g.symbol? = some s → env.LeadsTo place names s
  ofClass : ∀ c, g.class? = some c → env.Means place names c

namespace Reads

theorem means {c : ClassInfo} (h : env.Means place names c) : env.Reads place names (.ofClass c) where
  symbol s hs := by
    cases Option.some.inj hs
    exact .ofClass h
  ofClass c' hc := by
    cases Option.some.inj hc
    exact h

theorem unresolved : env.Reads place names .unresolved where
  symbol _ h := nomatch h
  ofClass _ h := nomatch h

theorem package {name : String} : env.Reads place names (.package (env.packageSymbol name)) where
  symbol s' hs := by
    cases Option.some.inj hs
    exact .package
  ofClass := fun _ h => nomatch h

theorem typeParam {name : String} {s : Symbol} (h : env.LeadsTo place names s) :
    env.Reads place names (.typeParam name s) where
  symbol s' hs := by
    cases Option.some.inj hs
    exact h
  ofClass := fun _ h => nomatch h

end Reads

theorem packagePath_reads {package : List String} {g : Segment} (h : g ∈ env.packagePath package) :
    env.Reads place names g := by
  obtain ⟨name, -, rfl⟩ := List.mem_map.mp h
  exact .package

theorem knownPackages_reads {path : List String} {g : Segment} (h : g ∈ env.knownPackages path) :
    env.Reads place names g := by
  obtain h | h := List.mem_append.mp h
  · obtain ⟨name, -, rfl⟩ := List.mem_map.mp h
    exact .package
  · rw [List.eq_of_mem_replicate h]
    exact .unresolved

theorem memberPath_reads {c : ClassInfo} {path : List String} {g : Segment}
    (h : g ∈ env.memberPath c path) : env.Reads place names g := by
  induction path generalizing c with
  | nil => cases h
  | cons name rest ih =>
    unfold memberPath at h
    split at h
    · rename_i inner found
      obtain rfl | h := List.mem_cons.mp h
      · exact .means (memberType_means found)
      · exact ih h
    · obtain rfl | h := List.mem_cons.mp h
      · exact .unresolved
      · obtain ⟨_, -, rfl⟩ := List.mem_map.mp h
        exact .unresolved

theorem classBelow_means {package path : List String} {found : List String × ClassInfo × List String}
    (among : ∀ n ∈ path, n ∈ names) (h : env.classBelow? package path = some found) :
    env.Means place names found.2.1 := by
  induction path generalizing package with
  | nil => cases h
  | cons name rest ih =>
    unfold classBelow? at h
    split at h
    · cases h
    · split at h
      · rename_i c hc
        cases Option.some.inj h
        exact .within (among name List.mem_cons_self) hc
      · exact ih (fun n hn => among n (List.mem_cons_of_mem _ hn)) h

theorem qualifiedClass_means {path : List String} {found : List String × ClassInfo × List String}
    (among : ∀ n ∈ path, n ∈ names) (h : env.qualifiedClass? path = some found) :
    env.Means place names found.2.1 := by
  cases path with
  | nil => cases h
  | cons first rest => exact classBelow_means (fun n hn => among n (List.mem_cons_of_mem _ hn)) h

theorem qualified_reads {path : List String} (among : ∀ n ∈ path, n ∈ names) {g : Segment}
    (h : g ∈ env.qualified path) : env.Reads place names g := by
  unfold qualified at h
  split at h
  · rename_i package c rest found
    obtain h | h := List.mem_append.mp h
    · exact packagePath_reads h
    · obtain rfl | h := List.mem_cons.mp h
      · exact .means (qualifiedClass_means among found)
      · exact memberPath_reads h
  · exact knownPackages_reads h

theorem typePath_reads {path : List String} (among : ∀ n ∈ path, n ∈ names) {g : Segment}
    (h : g ∈ env.typePath place path) : env.Reads place names g := by
  cases path with
  | nil => cases h
  | cons first rest =>
    have first_among := among first List.mem_cons_self
    simp only [typePath] at h
    split at h
    · rename_i c found
      have means : env.Means place names c := simpleType_binds first_among found
      obtain rfl | h := List.mem_cons.mp h
      · exact .means means
      · exact memberPath_reads h
    · rename_i name s found
      have leads : env.LeadsTo place names s := simpleType_binds first_among found
      obtain rfl | h := List.mem_cons.mp h
      · exact .typeParam leads
      · obtain ⟨_, -, rfl⟩ := List.mem_map.mp h
        exact .unresolved
    · split at h
      · rw [List.mem_singleton.mp h]
        exact .unresolved
      · exact qualified_reads among h

/-! The names of values. -/

/-- Where that comes from which a name selects. -/
structure Selects (env : Environment) (place : Place) (names : List String) (s : Selected) : Prop where
  symbol : ∀ x, s.symbol = some x → env.LeadsTo place names x
  receiver : ∀ c, s.receiver = .ofClass c → env.Means place names c

namespace Selects

theorem means {c : ClassInfo} (h : env.Means place names c) : env.Selects place names (.ofClass c) where
  symbol x hx := by
    cases Option.some.inj hx
    exact .ofClass h
  receiver c' hc := by
    cases hc
    exact h

theorem ofSymbol {s : Symbol} {r : Receiver} (h : env.LeadsTo place names s) (value : ∀ c, r ≠ .ofClass c) :
    env.Selects place names ⟨some s, r⟩ where
  symbol x hx := by
    cases Option.some.inj hx
    exact h
  receiver c hc := absurd hc (value c)

end Selects

theorem member_selects {r : Receiver} {name : String} {found : Selected}
    (h : env.member? r name = some found) : env.Selects place names found := by
  have ofField {type : JavaType} (h : (env.field? type name).map Selected.ofField = some found) :
      env.Selects place names found := by
    obtain ⟨f, hf, rfl⟩ := Option.map_eq_some_iff.mp h
    exact .ofSymbol (.member (field_supplied hf)) fun _ h => nomatch h
  unfold member? at h
  split at h
  · split at h
    · cases Option.some.inj h
      exact ⟨fun _ h => (nomatch h), fun _ h => nomatch h⟩
    · exact ofField h
  · exact ofField h
  · obtain h | ⟨-, h⟩ := Option.or_eq_some_iff.mp h
    · exact ofField h
    · obtain ⟨c, hc, rfl⟩ := Option.map_eq_some_iff.mp h
      exact .means (memberType_means hc)
  · cases h

theorem memberChain_selects {r : Receiver} {path : List String} {s : Selected}
    (h : s ∈ env.memberChain r path) : env.Selects place names s := by
  induction path generalizing r with
  | nil => cases h
  | cons name rest ih =>
    unfold memberChain at h
    split at h
    · rename_i first found
      obtain rfl | h := List.mem_cons.mp h
      · exact member_selects found
      · exact ih h
    · cases h

theorem value_leads {name : String} {b : ValueBinding} (found : env.value? place name = some b) :
    env.LeadsTo place names b.symbol := by
  have ofField {type : JavaType} (h : (env.field? type name).map ValueBinding.ofField = some b) :
      env.LeadsTo place names b.symbol := by
    obtain ⟨f, hf, rfl⟩ := Option.map_eq_some_iff.mp h
    exact .member (field_supplied hf)
  obtain inScope | ⟨-, imported⟩ := Option.or_eq_some_iff.mp found
  · obtain ⟨sc, hsc, h⟩ := List.exists_of_findSome?_eq_some inScope
    obtain bound | ⟨-, h⟩ := Option.or_eq_some_iff.mp h
    · obtain ⟨entry, hentry, rfl⟩ := Option.map_eq_some_iff.mp bound
      exact .value hsc (List.mem_of_find?_eq_some hentry)
    · obtain ⟨c, -, h⟩ := Option.bind_eq_some_iff.mp h
      exact ofField h
  · obtain ⟨c, -, h⟩ := List.exists_of_findSome?_eq_some imported
    exact ofField h

theorem chainHead_selects {path : List String} {head : List Selected} {r : Receiver} {rest : List String}
    (among : ∀ n ∈ path, n ∈ names) (found : env.chainHead? place path = some (head, r, rest))
    {s : Selected} (h : s ∈ head) : env.Selects place names s := by
  cases path with
  | nil => cases found
  | cons first others =>
    have first_among := among first List.mem_cons_self
    simp only [chainHead?] at found
    split at found
    · rename_i b value
      cases Option.some.inj found
      rw [List.mem_singleton.mp h]
      exact .ofSymbol (value_leads value) fun _ h => nomatch h
    · split at found
      · rename_i c type
        cases Option.some.inj found
        rw [List.mem_singleton.mp h]
        exact .means (simpleType_binds first_among type)
      · rename_i name symbol type
        cases Option.some.inj found
        rw [List.mem_singleton.mp h]
        exact .ofSymbol (simpleType_binds first_among type) fun _ h => nomatch h
      · split at found
        · rename_i package c others' below
          cases Option.some.inj found
          obtain h | h := List.mem_append.mp h
          · obtain ⟨name, -, rfl⟩ := List.mem_map.mp h
            exact .ofSymbol .package fun _ h => nomatch h
          · rw [List.mem_singleton.mp h]
            exact .means (qualifiedClass_means among below)
        · cases found

theorem chain_selects {path : List String} (among : ∀ n ∈ path, n ∈ names) {s : Selected}
    (h : s ∈ env.chain place path) : env.Selects place names s := by
  unfold chain at h
  split at h
  · rename_i head r rest found
    obtain h | h := List.mem_append.mp h
    · exact chainHead_selects among found h
    · exact memberChain_selects h
  · cases h

end Environment

/-- The method that a call means is one of those that it may mean. -/
theorem Selection.chosen_mem {cs : List Candidate} {args : List JavaType} {c : Candidate}
    (h : (select cs args).candidate? = some c) : c ∈ cs := by
  have narrowed {rule : Candidate → Bool} {ds : List Candidate} : narrow rule ds ⊆ ds := by
    intro d hd
    unfold narrow at hd
    split at hd
    · exact List.mem_of_mem_filter hd
    · exact hd
  have survivor : ∀ d ∈ survivors args cs, d ∈ cs :=
    fun d hd => narrowed (narrowed (List.mem_of_mem_filter hd))
  unfold select at h
  split at h
  · simp [candidate?] at h
  · rename_i d same
    cases Option.some.inj h
    exact survivor c (by simp [same])
  · rename_i d rest _ same
    cases Option.some.inj h
    exact survivor c (by simp [same])

end JavaIndex
