import JavaIndex.Proofs.Resolve.Bodies
import Mathlib.Data.List.Nodup

/-! How the plan of a class in a body agrees with its description. The plan counts the methods on the way
through the body and looks fields up by name; the description lists them in their order. -/
namespace JavaIndex

variable {w : World} {t u : Moment} {c : ClassInfo} {vars : List (String × Symbol)} {b : ClassSyntax}

/-! The members of a body one after the other. -/

namespace ClassBody

theorem callablesOf_append (ms ns : List Member) :
    callablesOf (ms ++ ns) = callablesOf ms ++ callablesOf ns := by
  induction ms with
  | nil => rfl
  | cons m ms ih => cases m <;> simp [callablesOf, ih]

theorem mem_fieldsOf {ms : List Member} {i : Ident} :
    i ∈ fieldsOf ms ↔ ∃ before d doc range after, ms = before ++ .field d doc range :: after ∧
      ∃ v ∈ d.declarators, i = v.name := by
  constructor
  · intro h
    induction ms with
    | nil => cases h
    | cons m ms ih =>
      have later (h : i ∈ fieldsOf ms) :
          ∃ before d doc range after, m :: ms = before ++ .field d doc range :: after ∧
            ∃ v ∈ d.declarators, i = v.name := by
        obtain ⟨before, d, doc, range, after, rfl, found⟩ := ih h
        exact ⟨m :: before, d, doc, range, after, rfl, found⟩
      cases m with
      | field d doc range =>
        obtain h | h := List.mem_append.mp h
        · obtain ⟨v, hv, rfl⟩ := List.mem_map.mp h
          exact ⟨[], d, doc, range, ms, rfl, v, hv, rfl⟩
        · exact later h
      | method m => exact later h
      | initializer isStatic body => exact later h
      | type d => exact later h
  · rintro ⟨before, d, doc, range, after, rfl, v, hv, rfl⟩
    induction before with
    | nil => exact List.mem_append_left _ (List.mem_map_of_mem hv)
    | cons m before ih =>
      cases m with
      | field d doc range => exact List.mem_append_right _ ih
      | method m => exact ih
      | initializer isStatic body => exact ih
      | type d => exact ih

/-- Some of the methods are counted. The one of a number is that before which so many stand. -/
theorem callable_at {ms : List Member} {counts : MethodDecl → Bool} {k : Nat} {m : MethodDecl} :
    ((callablesOf ms).filter counts)[k]? = some m ↔
      ∃ before after, ms = before ++ .method m :: after ∧ counts m = true ∧
        ((callablesOf before).filter counts).length = k := by
  constructor
  · intro h
    induction ms generalizing k with
    | nil => simp [callablesOf] at h
    | cons n ms ih =>
      have later {j : Nat} (h : ((callablesOf ms).filter counts)[j]? = some m) :
          ∃ before after, n :: ms = n :: before ++ .method m :: after ∧ counts m = true ∧
            ((callablesOf before).filter counts).length = j := by
        obtain ⟨before, after, rfl, counted, number⟩ := ih h
        exact ⟨before, after, rfl, counted, number⟩
      cases n with
      | method n =>
        by_cases hn : counts n = true
        · rw [callablesOf, List.filter_cons_of_pos hn] at h
          cases k with
          | zero =>
            cases Option.some.inj h
            exact ⟨[], ms, rfl, hn, rfl⟩
          | succ k =>
            obtain ⟨before, after, same, counted, number⟩ := later (j := k) h
            exact ⟨.method n :: before, after, same, counted, by simp [callablesOf, hn, number]⟩
        · rw [callablesOf, List.filter_cons_of_neg hn] at h
          obtain ⟨before, after, same, counted, number⟩ := later h
          exact ⟨.method n :: before, after, same, counted, by simp [callablesOf, hn, number]⟩
      | field d doc range =>
        obtain ⟨before, after, same, found⟩ := later h
        exact ⟨.field d doc range :: before, after, same, found⟩
      | initializer isStatic body =>
        obtain ⟨before, after, same, found⟩ := later h
        exact ⟨.initializer isStatic body :: before, after, same, found⟩
      | type d =>
        obtain ⟨before, after, same, found⟩ := later h
        exact ⟨.type d :: before, after, same, found⟩
  · rintro ⟨before, after, rfl, counted, rfl⟩
    simp [callablesOf_append, callablesOf, counted]

end ClassBody

/-- What a program writes is not the name of constructors. -/
theorem Plain.ne_constructorName {word : String} (plain : Plain word) : word ≠ Symbol.constructorName := by
  rintro rfl
  exact plain.2 (by decide)

namespace MemberNames

/-- The names after some members of a class have been met. -/
def past (c : ClassInfo) (ms : List Member) : MemberNames := ms.foldl after (start c)

theorem after_info (names : MemberNames) (m : Member) : (names.after m).info = names.info := by
  cases m <;> rfl

theorem foldl_after_info (names : MemberNames) (ms : List Member) :
    (ms.foldl after names).info = names.info := by
  induction ms generalizing names with
  | nil => rfl
  | cons m ms ih => rw [List.foldl_cons, ih, after_info]

theorem foldl_after_seen (names : MemberNames) (ms : List Member) :
    (ms.foldl after names).seen =
      ((ClassBody.callablesOf ms).map counted).reverse ++ names.seen := by
  induction ms generalizing names with
  | nil => rfl
  | cons m ms ih =>
    rw [List.foldl_cons, ih]
    cases m <;> simp [after, ClassBody.callablesOf, OverloadCounter.add]

theorem past_info (c : ClassInfo) (ms : List Member) : (past c ms).info = c :=
  foldl_after_info _ _

theorem past_seen (c : ClassInfo) (ms : List Member) :
    (past c ms).seen = ((ClassBody.callablesOf ms).map counted).reverse :=
  (foldl_after_seen _ _).trans (List.append_nil _)

theorem past_member (c : ClassInfo) (ms : List Member) (m : Member) :
    past c (ms ++ [m]) = (past c ms).after m := by
  simp [past]

theorem counted_eq_constructorName {m : MethodDecl} (plain : Plain m.name.text) :
    counted m = Symbol.constructorName ↔ m.isConstructor = true := by
  unfold counted
  split
  · simp_all
  · rename_i method
    exact ⟨fun h => absurd h plain.ne_constructorName, fun h => absurd h method⟩

/-- Of what has been met, the constructors go under a name of their own. -/
theorem count_constructors {ms : List MethodDecl} (plain : ∀ m ∈ ms, Plain m.name.text) :
    (ms.map counted).count Symbol.constructorName = (ms.filter MethodDecl.isConstructor).length := by
  induction ms with
  | nil => rfl
  | cons m ms ih =>
    have rest := ih fun n hn => plain n (List.mem_cons_of_mem _ hn)
    have first := counted_eq_constructorName (plain m List.mem_cons_self)
    by_cases h : m.isConstructor = true
    · rw [List.map_cons, first.mpr h, List.count_cons_self, rest, List.filter_cons_of_pos h]
      rfl
    · rw [List.map_cons, List.count_cons_of_ne fun e => h (first.mp e), rest, List.filter_cons_of_neg h]

theorem length_partition (ms : List MethodDecl) :
    (ms.filter MethodDecl.isConstructor).length + (ms.filter fun m => !m.isConstructor).length =
      ms.length := by
  induction ms with
  | nil => rfl
  | cons m ms ih =>
    cases h : m.isConstructor <;> simp [h] <;> omega

/-- What the description says of the next method stands at its number among those of its sort. -/
theorem described_past {before : List Member} (m : MethodDecl)
    (plain : ∀ n ∈ ClassBody.callablesOf before, Plain n.name.text) :
    (past c before).described? m =
      if m.isConstructor then
        c.constructors[((ClassBody.callablesOf before).filter MethodDecl.isConstructor).length]?
      else c.methods[((ClassBody.callablesOf before).filter fun n => !n.isConstructor).length]? := by
  have constructors := count_constructors plain
  have all := length_partition (ClassBody.callablesOf before)
  simp only [described?, past_info, past_seen, OverloadCounter.peek, List.count_reverse, constructors,
    List.length_reverse, List.length_map]
  rw [← all, Nat.add_sub_cancel_left]

end MemberNames

namespace Plan

theorem members_iff {names : MemberNames} {ms : List Member} {i : Ident} {s : Symbol} :
    members names ms i s ↔ ∃ before m after, ms = before ++ m :: after ∧
      member (before.foldl MemberNames.after names) m i s := by
  induction ms generalizing names with
  | nil => simp [members]
  | cons m ms ih =>
    rw [members, ih]
    constructor
    · rintro (h | ⟨before, n, after, rfl, h⟩)
      · exact ⟨[], m, ms, rfl, h⟩
      · exact ⟨m :: before, n, after, rfl, h⟩
    · rintro ⟨before, n, after, split, h⟩
      cases before with
      | nil =>
        obtain ⟨rfl, rfl⟩ := List.cons.inj split
        exact .inl h
      | cons m' before =>
        obtain ⟨rfl, rfl⟩ := List.cons.inj split
        exact .inr ⟨before, n, after, rfl, h⟩

theorem members_start {c : ClassInfo} {ms : List Member} {i : Ident} {s : Symbol} :
    members (.start c) ms i s ↔ ∃ before m after, ms = before ++ m :: after ∧
      member (MemberNames.past c before) m i s :=
  members_iff

end Plan

/-! Descriptions of classes in bodies. -/

/-- In two lists that match pair by pair, a look-up by name finds what matches something of that name. -/
theorem find_of_match {α β : Type} {R : α → β → Prop} {key : α → String} {name : β → String}
    {as : List α} {bs : List β} {a : α} (related : List.Forall₂ R as bs)
    (named : ∀ a b, R a b → name b = key a) (ha : a ∈ as) :
    ∃ a' ∈ as, ∃ b, bs.find? (fun b => name b == key a) = some b ∧ R a' b ∧ key a' = key a := by
  induction related with
  | nil => cases ha
  | @cons a' b as bs h _ ih =>
    by_cases same : name b = key a
    · exact ⟨a', List.mem_cons_self, b, List.find?_cons_of_pos (by simpa using same), h,
        (named a' b h).symm.trans same⟩
    · obtain rfl | ha := List.mem_cons.mp ha
      · exact absurd (named _ _ h) same
      · obtain ⟨a'', ha'', b', found, h'⟩ := ih ha
        refine ⟨a'', List.mem_cons_of_mem _ ha'', b', ?_, h'⟩
        rw [List.find?_cons_of_neg (by simpa using same)]
        exact found

theorem match_at {α β : Type} {R : α → β → Prop} {as : List α} {bs : List β} {k : Nat} {a : α}
    (related : List.Forall₂ R as bs) (found : as[k]? = some a) : ∃ b, bs[k]? = some b ∧ R a b := by
  induction related generalizing k with
  | nil => simp at found
  | @cons a' b as bs h _ ih =>
    cases k with
    | zero =>
      cases Option.some.inj found
      exact ⟨b, rfl, h⟩
    | succ k => exact ih found

theorem eq_of_nodup_map {α β : Type} {f : α → β} {xs : List α} {x y : α} (distinct : (xs.map f).Nodup)
    (hx : x ∈ xs) (hy : y ∈ xs) (same : f x = f y) : x = y :=
  List.inj_on_of_nodup_map distinct hx hy same

namespace LocalBody

/-- A field has a symbol of its own, if no field repeats its name. -/
theorem field (described : LocalBody t c vars b) {i : Ident} (declared : i ∈ b.body.fieldNames) :
    ∃ j ∈ b.body.fieldNames, ∃ f, c.field? i.text = some f ∧ t.Granted c.symbol f.symbol j.range ∧
      j.text = i.text := by
  obtain ⟨j, hj, f, found, ⟨-, granted⟩, same⟩ :=
    find_of_match described.fields (fun _ _ h => h.1) declared
  exact ⟨j, hj, f, found, granted, same⟩

theorem typeParam (described : LocalBody t c vars b) {p : TypeParam} (declared : p ∈ b.typeParams) :
    ∃ q ∈ b.typeParams, ∃ s, Plan.bound vars p = some s ∧ t.Granted c.symbol s q.name.range ∧
      q.name.text = p.name.text := by
  obtain ⟨q, hq, v, found, ⟨-, granted⟩, same⟩ :=
    find_of_match described.typeParams (fun (p : TypeParam) _ h => show _ = p.name.text from h.1)
      declared
  exact ⟨q, hq, v.2, congrArg (Option.map Prod.snd) found, granted, same⟩

/-- A method or a constructor is the one of its number in the description. -/
theorem callable (described : LocalBody t c vars b)
    (plain : ∀ m ∈ ClassBody.callablesOf b.body.members, Plain m.name.text)
    {before after : List Member} {m : MethodDecl}
    (split : b.body.members = before ++ .method m :: after) :
    ∃ env place info, (MemberNames.past c before).described? m = some info ∧
      DescribedMethod t c.symbol env place b m info := by
  have plainBefore : ∀ n ∈ ClassBody.callablesOf before, Plain n.name.text := by
    intro n hn
    refine plain n ?_
    rw [split, ClassBody.callablesOf_append]
    exact List.mem_append_left _ hn
  obtain ⟨env, place, ⟨implied, -, own, both, methods⟩, constructors⟩ := described.callables
  rw [MemberNames.described_past m plainBefore]
  cases sort : m.isConstructor with
  | true =>
    have here : b.body.constructors[((ClassBody.callablesOf before).filter
        MethodDecl.isConstructor).length]? = some m :=
      ClassBody.callable_at.mpr ⟨before, after, split, sort, rfl⟩
    obtain ⟨info, found, method⟩ := match_at constructors here
    exact ⟨env, place, info, found, method⟩
  | false =>
    have here : b.body.methods[((ClassBody.callablesOf before).filter
        fun n => !n.isConstructor).length]? = some m :=
      ClassBody.callable_at.mpr ⟨before, after, split, by simp [sort], rfl⟩
    obtain ⟨info, found, method⟩ := match_at methods here
    refine ⟨env, place, info, ?_, method⟩
    rw [if_neg (by simp), both, List.getElem?_append_left (List.getElem?_eq_some_iff.mp found).1, found]

theorem callable_symbol (described : LocalBody t c vars b) {before : List Member} {m : MethodDecl}
    {info : MethodInfo} (found : (MemberNames.past c before).described? m = some info) :
    (MemberNames.past c before).callable m = .ok info.symbol := by
  rw [MemberNames.callable, if_pos (by rw [MemberNames.past_info]; exact described.origin), found]

theorem granted_local {owner s : Symbol} {span : Span} (h : t.Granted owner s span) :
    s.isLocal = true ∧ ∃ number, s.path = owner.path ++ [.local number] := by
  obtain ⟨g, -, same, owned, -⟩ := h
  constructor
  · simp [Symbol.isLocal, Symbol.scheme, same, Grant.symbol]
  · exact ⟨g.number, by rw [Symbol.path, same, Grant.symbol, owned]⟩

/-- What an identifier of a class in a body is to be defined with belongs to a declaration of its name. -/
theorem planned (described : LocalBody t c vars b)
    (plain : ∀ m ∈ ClassBody.callablesOf b.body.members, Plain m.name.text) {i : Ident} {s : Symbol}
    (plan : Plan.ofClass c vars b i s) :
    (b.name? = some i ∧ s = c.symbol) ∨
      ∃ j, t.Granted c.symbol s j.range ∧
        ((b.body.fieldNames.map Ident.text).Nodup →
          (b.typeParams.map fun p => p.name.text).Nodup → j = i) := by
  have ofField {i : Ident} {kind : SymbolKind} {names : MemberNames} (owner : names.info = c)
      (declared : i ∈ b.body.fieldNames) (h : names.field i.text kind = .ok s) :
      ∃ j, t.Granted c.symbol s j.range ∧
        ((b.body.fieldNames.map Ident.text).Nodup →
          (b.typeParams.map fun p => p.name.text).Nodup → j = i) := by
    obtain ⟨j, hj, f, found, granted, same⟩ := described.field declared
    simp only [MemberNames.field, owner, found, Except.ok.injEq] at h
    exact ⟨j, h ▸ granted, fun distinct _ => eq_of_nodup_map distinct hj declared same⟩
  cases plan with
  | name named => exact .inl ⟨named, rfl⟩
  | typeParam h =>
    obtain ⟨p, hp, rfl, bound⟩ := h
    obtain ⟨q, hq, s', bound', granted, same⟩ := described.typeParam hp
    cases Option.some.inj (bound.symm.trans bound')
    exact .inr ⟨q.name, granted, fun _ distinct =>
      congrArg TypeParam.name (eq_of_nodup_map distinct hq hp same)⟩
  | constant h =>
    obtain ⟨k, hk, rfl, h⟩ := h
    exact .inr (ofField rfl (List.mem_append_left _ (List.mem_map_of_mem hk)) h)
  | component h =>
    obtain ⟨p, hp, rfl, h⟩ := h
    refine .inr (ofField rfl (List.mem_append_right _ (List.mem_append_left _ ?_)) h)
    exact List.mem_map_of_mem hp
  | member h =>
    obtain ⟨before, m, after, split, h⟩ := Plan.members_start.mp h
    cases m with
    | field d doc range =>
      obtain ⟨v, hv, rfl, named⟩ := h
      refine .inr (ofField (MemberNames.past_info c before) ?_ named)
      exact List.mem_append_right _ (List.mem_append_right _
        (ClassBody.mem_fieldsOf.mpr ⟨before, d, doc, range, after, split, v, hv, rfl⟩))
    | method m =>
      obtain ⟨env, place, info, found, method⟩ := described.callable plain split
      obtain ⟨symbol, named, h⟩ := h
      cases Except.ok.inj (named.symm.trans (described.callable_symbol found))
      obtain ⟨rfl, rfl⟩ | ⟨p, -, rfl, inside⟩ := h
      · exact .inr ⟨m.name, method.granted, fun _ _ => rfl⟩
      · exact absurd inside (Walks.ofDeclaration_inside_local (granted_local method.granted).1 _ s)
    | initializer isStatic body => exact h.elim
    | type d => exact h.elim

theorem planned_field {i : Ident} {f : FieldInfo} (declared : i ∈ b.body.fieldNames)
    (found : c.field? i.text = some f) : Plan.ofClass c vars b i f.symbol := by
  have named {names : MemberNames} {kind : SymbolKind} (owner : names.info = c) :
      names.field i.text kind = .ok f.symbol := by
    rw [MemberNames.field, owner, found]
  obtain h | h := List.mem_append.mp declared
  · obtain ⟨k, hk, rfl⟩ := List.mem_map.mp h
    exact .constant ⟨k, hk, rfl, named rfl⟩
  · obtain h | h := List.mem_append.mp h
    · obtain ⟨p, hp, rfl⟩ := List.mem_map.mp h
      exact .component ⟨p, hp, rfl, named rfl⟩
    · obtain ⟨before, d, doc, range, after, split, v, hv, rfl⟩ := ClassBody.mem_fieldsOf.mp h
      refine .member (Plan.members_start.mpr ⟨before, _, after, split, v, hv, rfl, named ?_⟩)
      exact MemberNames.past_info c before

/-- A field that is found in a class is planned for one of the names of its fields. -/
theorem field_planned (described : List.Forall₂ (fun i (f : FieldInfo) => f.name = i.text) b.body.fieldNames c.fields)
    {name : String} {f : FieldInfo} (found : c.field? name = some f) : ∃ i, Plan.ofClass c vars b i f.symbol := by
  have same : f.name = name := by simpa using List.find?_some found
  obtain ⟨k, hk, rfl⟩ := List.getElem_of_mem (List.mem_of_find?_eq_some found)
  have long : k < b.body.fieldNames.length := described.length_eq ▸ hk
  have named := (List.forall₂_iff_get.mp described).2 k long hk
  refine ⟨_, planned_field (List.getElem_mem long) ?_⟩
  have key : (b.body.fieldNames[k]).text = name := named.symm.trans same
  rw [key]
  exact found

theorem planned_callable (described : LocalBody t c vars b) {before after : List Member}
    {m : MethodDecl} {info : MethodInfo} (split : b.body.members = before ++ .method m :: after)
    (found : (MemberNames.past c before).described? m = some info) :
    Plan.ofClass c vars b m.name info.symbol :=
  .member (Plan.members_start.mpr
    ⟨before, _, after, split, info.symbol, described.callable_symbol found, .inl ⟨rfl, rfl⟩⟩)

/-- The method of a number in the body goes by the description of that number. -/
theorem planned_method (described : LocalBody t c vars b)
    (plain : ∀ m ∈ ClassBody.callablesOf b.body.members, Plain m.name.text) {k : Nat}
    {m : MethodDecl} {info : MethodInfo} (declared : b.body.methods[k]? = some m)
    (found : c.methods[k]? = some info) : Plan.ofClass c vars b m.name info.symbol := by
  obtain ⟨before, after, split, sort, rfl⟩ := ClassBody.callable_at.mp declared
  refine described.planned_callable split ?_
  rw [MemberNames.described_past m fun n hn => plain n ?_, if_neg (by simpa using sort), found]
  rw [split, ClassBody.callablesOf_append]
  exact List.mem_append_left _ hn

/-- The constructor of a number in the body goes by the description of that number. -/
theorem planned_constructor (described : LocalBody t c vars b)
    (plain : ∀ m ∈ ClassBody.callablesOf b.body.members, Plain m.name.text) {k : Nat}
    {m : MethodDecl} {info : MethodInfo} (declared : b.body.constructors[k]? = some m)
    (found : c.constructors[k]? = some info) : Plan.ofClass c vars b m.name info.symbol := by
  obtain ⟨before, after, split, sort, rfl⟩ := ClassBody.callable_at.mp declared
  refine described.planned_callable split ?_
  rw [MemberNames.described_past m fun n hn => plain n ?_, if_pos sort, found]
  rw [split, ClassBody.callablesOf_append]
  exact List.mem_append_left _ hn

/-- Once a class is defined as described, what can be found in it is defined, unless nothing defines it. -/
theorem members_met (described : LocalBody t c vars b) (written : w.classes b)
    (plain : ∀ m ∈ ClassBody.callablesOf b.body.members, Plain m.name.text)
    (defined : ∀ i s, Plan.ofClass c vars b i s → t.Defines i s) {s : Symbol} (offered : Offers c s) :
    Met w t s.id := by
  have met {i : Ident} {s : Symbol} (plan : Plan.ofClass c vars b i s) : Met w t s.id := by
    obtain ⟨e, he, -, same⟩ := defined i s plan
    exact .inl ⟨e, he, same⟩
  have named (i : Ident) (own : b.name? = some i) : t.Defines i c.symbol := defined i c.symbol (.name own)
  cases offered with
  | field found =>
    obtain ⟨i, plan⟩ := field_planned (described.fields.imp fun _ _ h => h.1) found
    exact met plan
  | @method m hm =>
    obtain ⟨k, hk, rfl⟩ := List.getElem_of_mem hm
    obtain less | more := Nat.lt_or_ge k b.body.methods.length
    · exact met (described.planned_method plain (List.getElem?_eq_getElem less)
        (List.getElem?_eq_getElem hk))
    · refine .inr (.implied written described named (List.mem_iff_getElem?.mpr
        ⟨k - b.body.methods.length, ?_⟩))
      rw [List.getElem?_drop, Nat.add_sub_cancel' more, List.getElem?_eq_getElem hk]
  | @constructor m hm =>
    obtain ⟨k, hk, rfl⟩ := List.getElem_of_mem hm
    obtain ⟨env, place, -, constructors⟩ := described.callables
    have less : k < b.body.constructors.length := constructors.length_eq ▸ hk
    exact met (described.planned_constructor plain (List.getElem?_eq_getElem less)
      (List.getElem?_eq_getElem hk))

theorem typeParams_met (described : LocalBody t c vars b) (written : w.classes b)
    (defined : ∀ i s, Plan.ofClass c vars b i s → t.Defines i s) : ∀ v ∈ vars, Met w t v.2.id := by
  intro v hv
  obtain ⟨j, hj, rfl⟩ := List.getElem_of_mem hv
  have long : j < b.typeParams.length := described.typeParams.length_eq ▸ hj
  have named := ((List.forall₂_iff_get.mp described.typeParams).2 j long hj).1
  obtain ⟨q, -, s, bound, -⟩ := described.typeParam (List.getElem_mem long)
  obtain ⟨first, found, rfl⟩ := Option.map_eq_some_iff.mp bound
  obtain ⟨same, i, hi, rfl, earlier⟩ := List.find?_eq_some_iff_getElem.mp found
  have same : vars[i].1 = b.typeParams[j].name.text := by simpa using same
  obtain less | rfl | more := Nat.lt_trichotomy i j
  · exact .inr (.repeated written described less (List.getElem?_eq_getElem hi)
      (List.getElem?_eq_getElem hj) (same.trans named.symm))
  · obtain ⟨e, he, -, symbol⟩ := defined _ _ (.typeParam ⟨_, List.getElem_mem long, rfl, bound⟩)
    exact .inl ⟨e, he, symbol⟩
  · have here : vars[j].1 = b.typeParams[j].name.text := named
    simpa [here] using earlier j more

end LocalBody

/-! Classes of the file, in bodies or outside. -/

/-- Every identifier among some nodes is a plain word. -/
def Nodes.Worded (ns : List Node) : Prop := ∀ n ∈ ns, ∀ i, n.ident? = some i → Plain i.text

theorem Nodes.Worded.of_fine {ns : List Node} (fine : ∀ n ∈ ns, Fine w n) : Worded ns := by
  intro n hn i named
  have fine := fine n hn
  unfold Node.ident? at named
  unfold Fine at fine
  split at named
  · simp_all
  · simp_all
  · cases named

theorem Nodes.Worded.callables {ms : List Member} (worded : Worded (members ms)) :
    ∀ m ∈ ClassBody.callablesOf ms, Plain m.name.text := by
  induction ms with
  | nil => simp [ClassBody.callablesOf]
  | cons m ms ih =>
    have rest := ih fun n hn => worded n (List.mem_append_right _ hn)
    cases m with
    | method m =>
      intro n hn
      obtain rfl | hn := List.mem_cons.mp hn
      · refine worded (.ofPart (.declaration n.name)) (List.mem_append_left _ ?_) n.name rfl
        cases n
        exact List.mem_append_right _ (List.mem_append_left _ (List.mem_singleton_self _))
      · exact rest n hn
    | field d doc range => exact rest
    | initializer isStatic body => exact rest
    | type d => exact rest

theorem Nodes.callables_plain {ms : List Member} (fine : ∀ n ∈ Nodes.members ms, Fine w n) :
    ∀ m ∈ ClassBody.callablesOf ms, Plain m.name.text :=
  (Worded.of_fine fine).callables

/-- The last parts of a type are its components and its members. -/
theorem Nodes.mem_typeDecl_end {d : TypeDecl} {n : Node}
    (h : n ∈ Nodes.recordComponents d.components ++ Nodes.members d.members) :
    n.within (.declared d) ∈ Nodes.typeDecl d := by
  cases d
  refine List.mem_append_right _ (List.mem_append_right _ (List.mem_append_right _ ?_))
  refine List.mem_map_of_mem (List.mem_append_right _ (List.mem_append_right _ ?_))
  exact List.mem_append_right _ (List.mem_append_right _ (List.mem_append_right _ h))

theorem Nodes.mem_typeDecl {d : TypeDecl} {n : Node} (h : n ∈ Nodes.members d.members) :
    n.within (.declared d) ∈ Nodes.typeDecl d :=
  mem_typeDecl_end (List.mem_append_right _ h)

section

variable {d : TypeDecl} (fine : ∀ n ∈ Nodes.typeDecl d, Fine w n)

include fine

theorem Nodes.class_fine : Fine w (.ofPart (.ofClass (.declared d))) := by
  cases d
  exact fine _ (List.mem_append_left _ (List.mem_singleton_self _))

theorem Nodes.name_plain : Plain d.name.text := by
  cases d
  refine fine (.ofPart (.declaration _)) (List.mem_append_right _ (List.mem_append_right _ ?_))
  exact List.mem_append_left _ (List.mem_singleton_self _)

theorem Nodes.members_fine : ∀ n ∈ Nodes.members d.members, Fine w n :=
  fun n hn => fine (n.within (.declared d)) (Nodes.mem_typeDecl hn)

end

theorem Nodes.types_fine {ms : List Member} (fine : ∀ n ∈ Nodes.members ms, Fine w n) :
    ∀ d ∈ ClassBody.typesOf ms, ∀ n ∈ Nodes.typeDecl d, Fine w n := by
  induction ms with
  | nil => simp [ClassBody.typesOf]
  | cons m ms ih =>
    have rest := ih fun n hn => fine n (List.mem_append_right _ hn)
    cases m with
    | type d =>
      intro d' hd n hn
      obtain rfl | hd := List.mem_cons.mp hd
      · exact fine n (List.mem_append_left _ hn)
      · exact rest d' hd n hn
    | method m => exact rest
    | field d doc range => exact rest
    | initializer isStatic body => exact rest

namespace Matched

variable {i : Ident} {s : Symbol}

theorem given (matched : Matched w t c vars b)
    (plain : ∀ m ∈ ClassBody.callablesOf b.body.members, Plain m.name.text)
    (fields : (b.body.fieldNames.map Ident.text).Nodup)
    (params : (b.typeParams.map fun p => p.name.text).Nodup) (plan : Plan.ofClass c vars b i s) :
    Given w t s.id i.range := by
  obtain ⟨site, hsite, rfl, known, rfl⟩ | described := matched
  · exact .planned hsite known plan
  · obtain ⟨named, rfl⟩ | ⟨j, granted, own⟩ := described.planned plain plan
    · obtain ⟨o, granted⟩ := described.symbol i named
      exact Walks.given_of_granted granted
    · obtain rfl := own fields params
      exact Walks.given_of_granted granted

theorem anchored (grounded : w.Grounded) (matched : Matched w t c vars b)
    (plain : ∀ m ∈ ClassBody.callablesOf b.body.members, Plain m.name.text)
    (housed : Housed t c.symbol.path) (plan : Plan.ofClass c vars b i s) : Walks.Anchored t s := by
  obtain ⟨site, hsite, rfl, known, rfl⟩ | described := matched
  · obtain ⟨c', known', -, planned⟩ := grounded.sites site hsite
    cases Option.some.inj (known.symm.trans known')
    exact .inl (planned i s plan)
  · refine .inr ?_
    obtain ⟨-, rfl⟩ | ⟨j, granted, -⟩ := described.planned plain plan
    · exact housed
    · obtain ⟨-, number, path⟩ := LocalBody.granted_local granted
      rw [path]
      exact housed.append_local number

/-- Every type variable has a symbol. -/
theorem bound (lawful : w.Lawful) (matched : Matched w t c vars b) :
    ∀ p ∈ b.typeParams, ∃ s, Plan.bound vars p = some s := by
  intro p hp
  obtain ⟨site, hsite, rfl, known, rfl⟩ | described := matched
  · exact lawful.params site hsite c known p hp
  · obtain ⟨-, -, s, bound, -⟩ := described.typeParam hp
    exact ⟨s, bound⟩

end Matched
end JavaIndex
