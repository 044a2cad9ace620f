import JavaIndex.Proofs.Index.Overlaps
import Mathlib.Data.List.Chain

/-! Mentions that are noted more than once. Of those that stand side by side in the order of the index the first that
was noted is kept. So a mention is shown twice only where one of another symbol with the same text stands
between, and where texts tell symbols apart everything is shown once.

Documentation stands with definitions, once for each symbol, and is what was noted there. A symbol is documented if
the first mention of some definition is: what the others had to say is dropped with them. -/
namespace JavaIndex

theorem Position.eq_of_compare {p q : Position} (h : compare p q = .eq) : p = q := by
  change (compare p.line q.line).then (compare p.column q.column) = .eq at h
  rw [Ordering.then_eq_eq, Nat.compare_eq_eq, Nat.compare_eq_eq] at h
  cases p
  cases q
  simpa using h

theorem Role.rank_injective {r s : Role} (h : r.rank = s.rank) : r = s := by
  cases r <;> cases s <;> first | rfl | cases h

namespace Occurrence

variable {a b : Occurrence}

theorem Shows.symm (h : a.Shows b) : b.Shows a := ⟨h.region.symm, h.role.symm, h.symbol.symm⟩

theorem shows_iff : a.Shows b ↔ a.triple = b.triple := by
  refine ⟨Shows.triple, fun same => ?_⟩
  obtain ⟨region, symbol, role⟩ : a.region = b.region ∧ a.symbol.id = b.symbol.id ∧ a.role = b.role := by
    simpa [triple] using same
  exact ⟨region, role, symbol⟩

/-- One place, one role and one text: the order of the index does not tell the two apart. -/
structure Alike (a b : Occurrence) : Prop where
  region : a.region = b.region
  role : a.role = b.role
  text : a.symbol.text = b.symbol.text

theorem Alike.symm (h : a.Alike b) : b.Alike a := ⟨h.region.symm, h.role.symm, h.text.symm⟩

theorem Shows.alike (h : a.Shows b) : a.Alike b := ⟨h.region, h.role, congrArg SymbolId.text h.symbol⟩

theorem Alike.inOrder (h : a.Alike b) : Emission.InOrder a b := by
  have same : Emission.keys (a, a.symbol.text) (b, b.symbol.text) = .eq := by
    simp [Emission.keys, compareLex, compareOn, h.region, h.role, h.text]
  unfold Emission.InOrder
  rw [Emission.order_eq, same]
  rfl

end Occurrence

namespace Emission

variable {a b c : Occurrence} {os : List Occurrence}

theorem InOrder.trans (first : InOrder a b) (second : InOrder b c) : InOrder a c := order_trans _ _ _ first second

theorem InOrder.antisymm (first : InOrder a b) (second : InOrder b a) : a.Alike b := by
  unfold InOrder at first second
  rw [order_eq] at first second
  have same : order (a, a.symbol.text) (b, b.symbol.text) = .eq :=
    @Std.OrientedCmp.isLE_antisymm _ keys _ _ _ first second
  simp only [order, Ordering.then_eq_eq] at same
  obtain ⟨start, role, stop, text⟩ := same
  refine ⟨?_, Role.rank_injective (Nat.compare_eq_eq.mp role), Std.LawfulEqCmp.eq_of_compare text⟩
  have start := Position.eq_of_compare start
  have stop := Position.eq_of_compare stop
  cases ha : a.region
  cases hb : b.region
  simp_all

/-! Neighbours. -/

theorem distinct_isChain (os : List Occurrence) : (distinct os).IsChain fun a b => ¬ a.Shows b := by
  induction os with
  | nil => exact .nil
  | cons o os ih =>
    rw [distinct]
    cases rest : distinct os with
    | nil => exact .singleton o
    | cons p ps =>
      rw [rest] at ih
      by_cases again : o.repeats p = true
      · have shows := Occurrence.repeats_iff.mp again
        simp only [again, if_true]
        cases ps with
        | nil => exact .singleton o
        | cons q qs =>
          obtain ⟨apart, later⟩ := List.isChain_cons_cons.mp ih
          exact List.isChain_cons_cons.mpr ⟨fun third => apart (shows.symm.trans third), later⟩
      · simp only [again]
        exact List.isChain_cons_cons.mpr ⟨fun shows => again (Occurrence.repeats_iff.mpr shows), ih⟩

theorem final_isChain (e : Emission) : e.finalOccurrences.IsChain fun a b => ¬ a.Shows b := by
  have kept : e.finalOccurrences.map Occurrence.triple = _ := documentOnce_map [] _ fun _ => rfl
  simp only [Occurrence.shows_iff]
  rw [← List.isChain_map (R := (· ≠ ·)) Occurrence.triple, kept, List.isChain_map]
  exact (distinct_isChain _).imp fun a b apart => Occurrence.shows_iff.not.mp apart

/-- Between two mentions that repeat one another stands one that is like them and mentions another symbol. -/
theorem final_between (e : Emission) {i j : Nat} (order : i < j) (inside : j < e.finalOccurrences.length)
    (again : e.finalOccurrences[i].Shows e.finalOccurrences[j]) :
    ∃ k, ∃ h : k < e.finalOccurrences.length, i < k ∧ k < j ∧
      e.finalOccurrences[i].Alike e.finalOccurrences[k] ∧
      e.finalOccurrences[k].symbol.id ≠ e.finalOccurrences[i].symbol.id := by
  have neighbours := List.isChain_iff_getElem.mp (final_isChain e) i (by omega)
  have notNext : j ≠ i + 1 := by
    rintro rfl
    exact neighbours again
  have inOrder := List.pairwise_iff_getElem.mp (final_inOrder e)
  have first := inOrder i (i + 1) (by omega) (by omega) (by omega)
  have second := inOrder (i + 1) j (by omega) inside (by omega)
  have alike := first.antisymm (second.trans again.alike.symm.inOrder)
  have other : e.finalOccurrences[i + 1].symbol.id ≠ e.finalOccurrences[i].symbol.id :=
    fun same => neighbours ⟨alike.region, alike.role, same.symm⟩
  exact ⟨i + 1, by omega, by omega, by omega, alike, other⟩

/-- Where texts tell the noted symbols apart, nothing is shown twice. -/
theorem final_once {e : Emission}
    (told : ∀ a ∈ e.occurrences, ∀ b ∈ e.occurrences, a.Alike b → a.symbol.id = b.symbol.id) :
    e.finalOccurrences.Pairwise fun a b => ¬ a.Shows b := by
  rw [List.pairwise_iff_getElem]
  intro i j hi hj order again
  obtain ⟨k, hk, -, -, alike, other⟩ := final_between e order hj again
  obtain ⟨a, ha, undocumented⟩ := undocumented_of_final (List.getElem_mem hi)
  obtain ⟨b, hb, undocumented'⟩ := undocumented_of_final (List.getElem_mem hk)
  have shows := undocumented.shows.1
  have shows' := undocumented'.shows.1
  have noted : a.Alike b := by
    refine ⟨?_, ?_, ?_⟩
    · rw [← shows.region, alike.region, shows'.region]
    · rw [← shows.role, alike.role, shows'.role]
    · rw [← undocumented.symbol, alike.text, undocumented'.symbol]
  apply other
  rw [shows'.symbol, ← told a ha b hb noted, shows.symbol]

/-! The first of several. -/

theorem sorted_eq (os : List Occurrence) :
    sorted os = os.mergeSort fun a b => (order (a, a.symbol.text) (b, b.symbol.text)).isLE := by
  have whole : sorted (os.map id) = _ :=
    sorted_map (r := fun a b => (order (a, a.symbol.text) (b, b.symbol.text)).isLE) fun _ _ _ _ => rfl
  rwa [List.map_id, List.map_id] at whole

/-- Mentions that the order does not tell apart stay in the order in which they were noted. -/
theorem sorted_filter {q : Occurrence → Bool} (alike : ∀ a b, q a = true → q b = true → a.Alike b) :
    (sorted os).filter q = os.filter q := by
  have inOrder : (os.filter q).Pairwise InOrder := by
    apply List.pairwise_of_forall_mem_list
    intro a ha b hb
    exact (alike a b (List.mem_filter.mp ha).2 (List.mem_filter.mp hb).2).inOrder
  have within : (os.filter q).Sublist (sorted os) := by
    rw [sorted_eq]
    have trans (a b c : Occurrence) := order_trans (a, a.symbol.text) (b, b.symbol.text) (c, c.symbol.text)
    have total (a b : Occurrence) := order_total (a, a.symbol.text) (b, b.symbol.text)
    exact List.sublist_mergeSort trans total inOrder List.filter_sublist
  have within : (os.filter q).Sublist ((sorted os).filter q) := by
    have filtered := within.filter q
    rwa [List.filter_filter, show (fun a => q a && q a) = q from funext fun a => Bool.and_self _] at filtered
  exact (within.eq_of_length ((sorted_perm os).filter q).length_eq.symm).symm

/-- Of the mentions that repeat one another the first one is kept. -/
theorem distinct_first (first : os.find? (·.repeats c) = some a) : a ∈ distinct os := by
  induction os with
  | nil => cases first
  | cons o os ih =>
    rw [distinct]
    by_cases here : o.repeats c = true
    · rw [List.find?_cons, here] at first
      cases first
      split
      · exact List.mem_cons_self
      · split <;> exact List.mem_cons_self
    · replace first : os.find? (·.repeats c) = some a := by simpa [List.find?_cons, here] using first
      have later := ih first
      cases rest : distinct os with
      | nil => simp [rest] at later
      | cons p ps =>
        rw [rest] at later
        dsimp only
        split
        · rename_i again
          rcases List.mem_cons.mp later with rfl | later
          · -- what is dropped repeats the mention before it, which then would have been the first
            have same := List.find?_some first
            have same := (Occurrence.repeats_iff.mp again).trans (Occurrence.repeats_iff.mp same)
            exact absurd (Occurrence.repeats_iff.mpr same) here
          · exact List.mem_cons_of_mem _ later
        · exact List.mem_cons_of_mem _ later

/-- The mention that was noted first of all that repeat one another is the one that is kept. -/
theorem noted_first {e : Emission} (first : e.occurrences.reverse.find? (·.repeats c) = some a) :
    a ∈ distinct (sorted e.occurrences.reverse) := by
  apply distinct_first (c := c)
  have alike (a b : Occurrence) (ha : a.repeats c = true) (hb : b.repeats c = true) : a.Alike b :=
    ((Occurrence.repeats_iff.mp ha).trans (Occurrence.repeats_iff.mp hb).symm).alike
  rw [← List.head?_filter, sorted_filter alike, List.head?_filter, first]

/-- A package of the project, one of a library, and the first one again, all at one place: the one in the middle has
the text of the others, and keeps them apart. -/
example :
    let mention (scheme : Scheme) : Occurrence :=
      ⟨⟨⟨0, 0⟩, ⟨0, 1⟩⟩, Symbol.package "a" scheme, .reference, none, none⟩
    let e := (((empty.emit (mention .project)).emit (mention .external)).emit (mention .project))
    e.finalOccurrences.map (fun o => o.symbol.scheme) = [.project, .external, .project] := by
  cbv

end Emission

/-! What is documented. -/

/-- The mention is a definition that has documentation. -/
def Occurrence.Documents (o : Occurrence) : Prop := o.isDefinition = true ∧ o.documentation.isSome = true

theorem Emission.Undocumented.eq_of_documented {a b : Occurrence} (h : Undocumented a b)
    (documented : a.documentation.isSome = true) : a = b := by
  rcases h with rfl | rfl
  · rfl
  · cases documented

namespace Emission

variable {o d : Occurrence} {os : List Occurrence} {seen : List SymbolId}

/-! One pass over the mentions. -/

/-- What keeps its documentation is a definition of a symbol that has not been met. -/
theorem documentOnce_documents (shown : o ∈ documentOnce seen os) (documented : o.documentation.isSome = true) :
    o ∈ os ∧ o.Documents ∧ o.symbol.id ∉ seen := by
  induction os generalizing seen with
  | nil => cases shown
  | cons x xs ih =>
    rw [documentOnce] at shown
    split at shown
    · rename_i kept
      rw [Bool.and_eq_true, Bool.and_eq_true, Bool.not_eq_true', List.contains_eq_mem, decide_eq_false_iff_not] at kept
      rcases List.mem_cons.mp shown with rfl | later
      · exact ⟨List.mem_cons_self, kept.1, kept.2⟩
      · obtain ⟨inside, documents, fresh⟩ := ih later
        exact ⟨List.mem_cons_of_mem _ inside, documents, fun met => fresh (List.mem_cons_of_mem _ met)⟩
    · rcases List.mem_cons.mp shown with rfl | later
      · cases documented
      · obtain ⟨inside, documents, fresh⟩ := ih later
        exact ⟨List.mem_cons_of_mem _ inside, documents, fresh⟩

theorem documentOnce_pairwise (seen : List SymbolId) (os : List Occurrence) :
    (documentOnce seen os).Pairwise fun a b =>
      a.documentation.isSome = true → b.documentation.isSome = true → a.symbol.id ≠ b.symbol.id := by
  induction os generalizing seen with
  | nil => exact .nil
  | cons x xs ih =>
    rw [documentOnce]
    split
    · refine List.pairwise_cons.mpr ⟨fun b later _ documented same => ?_, ih _⟩
      exact (documentOnce_documents later documented).2.2 (same ▸ List.mem_cons_self)
    · exact List.pairwise_cons.mpr ⟨fun _ _ documented => absurd documented Bool.false_ne_true, ih _⟩

/-- A symbol that has not been met keeps the documentation of a definition. -/
theorem documentOnce_kept (inside : d ∈ os) (documents : d.Documents) (fresh : d.symbol.id ∉ seen) :
    ∃ o ∈ documentOnce seen os, o.documentation.isSome = true ∧ o.symbol.id = d.symbol.id := by
  induction os generalizing seen with
  | nil => cases inside
  | cons x xs ih =>
    rw [documentOnce]
    by_cases same : x.symbol.id = d.symbol.id ∧ x.Documents
    · obtain ⟨same, definition, documented⟩ := same
      rw [if_pos (by simp [definition, documented, same, fresh])]
      exact ⟨x, List.mem_cons_self, documented, same⟩
    · have inside : d ∈ xs := by
        rcases List.mem_cons.mp inside with rfl | inside
        · exact absurd ⟨rfl, documents⟩ same
        · exact inside
      split
      · rename_i kept
        rw [Bool.and_eq_true, Bool.and_eq_true] at kept
        have other : x.symbol.id ≠ d.symbol.id := fun equal => same ⟨equal, kept.1⟩
        have fresh : d.symbol.id ∉ x.symbol.id :: seen := by simp [fresh, other.symm]
        obtain ⟨o, ho, shown⟩ := ih inside fresh
        exact ⟨o, List.mem_cons_of_mem _ ho, shown⟩
      · obtain ⟨o, ho, shown⟩ := ih inside fresh
        exact ⟨o, List.mem_cons_of_mem _ ho, shown⟩

/-! The whole index. -/

/-- Documentation stands with a definition, and is what was noted there. -/
theorem final_documents {e : Emission} (shown : o ∈ e.finalOccurrences) (documented : o.documentation.isSome = true) :
    o.Documents ∧ o ∈ e.occurrences := by
  obtain ⟨p, hp, undocumented⟩ := undocumented_of_final shown
  obtain ⟨-, documents, -⟩ := documentOnce_documents shown documented
  exact ⟨documents, undocumented.eq_of_documented documented ▸ hp⟩

/-- No symbol is documented twice. -/
theorem final_documentedOnce (e : Emission) :
    e.finalOccurrences.Pairwise fun a b =>
      a.documentation.isSome = true → b.documentation.isSome = true → a.symbol.id ≠ b.symbol.id :=
  documentOnce_pairwise _ _

/-- A symbol is documented just if one of the definitions that stay has documentation. -/
theorem documented_iff {e : Emission} {id : SymbolId} :
    (∃ o ∈ e.finalOccurrences, o.documentation.isSome = true ∧ o.symbol.id = id) ↔
      ∃ d ∈ distinct (sorted e.occurrences.reverse), d.Documents ∧ d.symbol.id = id := by
  constructor
  · rintro ⟨o, shown, documented, rfl⟩
    obtain ⟨inside, documents, -⟩ := documentOnce_documents shown documented
    exact ⟨o, inside, documents, rfl⟩
  · rintro ⟨d, inside, documents, rfl⟩
    exact documentOnce_kept inside documents List.not_mem_nil

/-- A symbol is documented if a definition of it was, of all that repeat it, the first to be noted. -/
theorem documented_of_first {e : Emission} (first : e.occurrences.reverse.find? (·.repeats d) = some o)
    (documents : o.Documents) :
    ∃ p ∈ e.finalOccurrences, p.documentation.isSome = true ∧ p.symbol.id = d.symbol.id := by
  have repeated := List.find?_some first
  exact documented_iff.mpr ⟨o, noted_first first, documents, (Occurrence.repeats_iff.mp repeated).symbol⟩

/-- A symbol is documented if it has definitions and all of them were noted with documentation. -/
theorem documented_of_all {e : Emission} (noted : d ∈ e.occurrences) (definition : d.isDefinition = true)
    (all : ∀ o ∈ e.occurrences, o.isDefinition = true → o.symbol.id = d.symbol.id → o.Documents) :
    ∃ p ∈ e.finalOccurrences, p.documentation.isSome = true ∧ p.symbol.id = d.symbol.id := by
  obtain ⟨p, hp, shows⟩ := distinct_shows ((sorted_perm _).mem_iff.mpr (List.mem_reverse.mpr noted))
  have inside : p ∈ e.occurrences :=
    List.mem_reverse.mp ((sorted_perm _).mem_iff.mp ((distinct_sublist _).mem hp))
  exact documented_iff.mpr ⟨p, hp, all p inside (shows.isDefinition.trans definition) shows.symbol, shows.symbol⟩

/-- Documentation that comes with the second of two mentions is lost. -/
example :
    let mention (documentation : Option Documentation) : Occurrence :=
      ⟨⟨⟨0, 0⟩, ⟨0, 1⟩⟩, Symbol.package "a" .project, .definition, none, documentation⟩
    let e := (empty.emit (mention none)).emit (mention (some ⟨"class A", none⟩))
    e.finalOccurrences.map Occurrence.documentation = [none] := by
  cbv

end Emission
end JavaIndex
