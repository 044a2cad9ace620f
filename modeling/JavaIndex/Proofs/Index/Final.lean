import JavaIndex.Index.Emission
import Mathlib.Data.List.Basic

/-! What the index of a file shows of the mentions noted on the way: each of them, at its place, with its
role and its symbol. Only their order, their repetitions and their documentation change. -/
namespace JavaIndex

namespace Occurrence

/-- One mention shows what another one notes: the same symbol, in the same role, at the same place. -/
structure Shows (shown noted : Occurrence) : Prop where
  region : shown.region = noted.region
  role : shown.role = noted.role
  symbol : shown.symbol.id = noted.symbol.id

variable {a b c : Occurrence}

theorem Shows.refl (a : Occurrence) : a.Shows a := ⟨rfl, rfl, rfl⟩

theorem Shows.trans (first : a.Shows b) (second : b.Shows c) : a.Shows c :=
  ⟨first.region.trans second.region, first.role.trans second.role, first.symbol.trans second.symbol⟩

theorem Shows.isDefinition (h : a.Shows b) : a.isDefinition = b.isDefinition := by
  rw [Occurrence.isDefinition, Occurrence.isDefinition, h.role]

theorem repeats_iff : a.repeats b = true ↔ a.Shows b := by
  have symbol : (a.symbol.id == b.symbol.id) = true ↔ a.symbol.id = b.symbol.id := beq_iff_eq
  rw [Occurrence.repeats, Bool.and_eq_true, Bool.and_eq_true, beq_iff_eq, beq_iff_eq]
  change _ ∧ (a.symbol.id == b.symbol.id) = true ↔ _
  rw [symbol]
  constructor
  · rintro ⟨⟨region, role⟩, symbol⟩
    exact ⟨region, role, symbol⟩
  · rintro ⟨region, role, symbol⟩
    exact ⟨⟨region, role⟩, symbol⟩

end Occurrence

namespace Emission

variable {o : Occurrence} {os : List Occurrence}

theorem sorted_perm (os : List Occurrence) : (sorted os).Perm os := by
  unfold sorted
  have kept := (List.mergeSort_perm (os.map fun o => (o, o.symbol.text))
    fun a b => (order a b).isLE).map Prod.fst
  rwa [List.map_map, show (Prod.fst ∘ fun o : Occurrence => (o, o.symbol.text)) = id from rfl,
    List.map_id] at kept

theorem distinct_sublist (os : List Occurrence) : (distinct os).Sublist os := by
  induction os with
  | nil => exact .slnil
  | cons o os ih =>
    rw [distinct]
    split
    · exact (List.nil_sublist os).cons_cons o
    · rename_i p ps same
      rw [same] at ih
      split
      · exact ((List.sublist_cons_self p ps).trans ih).cons_cons o
      · exact ih.cons_cons o

theorem distinct_shows (noted : o ∈ os) : ∃ p ∈ distinct os, p.Shows o := by
  induction os with
  | nil => cases noted
  | cons x xs ih =>
    rw [distinct]
    rcases List.mem_cons.mp noted with rfl | noted
    · split
      · exact ⟨o, List.mem_cons_self, .refl o⟩
      · split
        · exact ⟨o, List.mem_cons_self, .refl o⟩
        · exact ⟨o, List.mem_cons_self, .refl o⟩
    · obtain ⟨p, hp, shows⟩ := ih noted
      split
      · rename_i none
        rw [none] at hp
        cases hp
      · rename_i q qs some
        rw [some] at hp
        split
        · rename_i again
          rcases List.mem_cons.mp hp with rfl | hp
          · exact ⟨x, List.mem_cons_self, (Occurrence.repeats_iff.mp again).trans shows⟩
          · exact ⟨p, List.mem_cons_of_mem _ hp, shows⟩
        · exact ⟨p, List.mem_cons_of_mem _ hp, shows⟩

/-- A mention without its documentation, or the mention itself. -/
def Undocumented (shown noted : Occurrence) : Prop :=
  shown = noted ∨ shown = { noted with documentation := none }

theorem documentOnce_noted {seen : List SymbolId} (shown : o ∈ documentOnce seen os) :
    ∃ p ∈ os, Undocumented o p := by
  induction os generalizing seen with
  | nil => cases shown
  | cons x xs ih =>
    have later {seen : List SymbolId} (shown : o ∈ documentOnce seen xs) :
        ∃ p ∈ x :: xs, Undocumented o p := by
      obtain ⟨p, hp, undocumented⟩ := ih shown
      exact ⟨p, List.mem_cons_of_mem _ hp, undocumented⟩
    rw [documentOnce] at shown
    split at shown
    · rcases List.mem_cons.mp shown with rfl | shown
      · exact ⟨o, List.mem_cons_self, .inl rfl⟩
      · exact later shown
    · rcases List.mem_cons.mp shown with rfl | shown
      · exact ⟨x, List.mem_cons_self, .inr rfl⟩
      · exact later shown

theorem documentOnce_shown {seen : List SymbolId} (noted : o ∈ os) :
    ∃ p ∈ documentOnce seen os, Undocumented p o := by
  induction os generalizing seen with
  | nil => cases noted
  | cons x xs ih =>
    rw [documentOnce]
    rcases List.mem_cons.mp noted with rfl | noted
    · split
      · exact ⟨o, List.mem_cons_self, .inl rfl⟩
      · exact ⟨_, List.mem_cons_self, .inr rfl⟩
    · split
      · obtain ⟨p, hp, undocumented⟩ := ih noted
        exact ⟨p, List.mem_cons_of_mem _ hp, undocumented⟩
      · obtain ⟨p, hp, undocumented⟩ := ih noted
        exact ⟨p, List.mem_cons_of_mem _ hp, undocumented⟩

theorem Undocumented.shows {shown noted : Occurrence} (h : Undocumented shown noted) :
    shown.Shows noted ∧ shown.enclosing = noted.enclosing := by
  rcases h with rfl | rfl
  · exact ⟨.refl shown, rfl⟩
  · exact ⟨⟨rfl, rfl, rfl⟩, rfl⟩

theorem Undocumented.symbol {shown noted : Occurrence} (h : Undocumented shown noted) :
    shown.symbol = noted.symbol := by
  rcases h with rfl | rfl <;> rfl

/-- Nothing is shown that has not been noted. -/
theorem undocumented_of_final {e : Emission} (shown : o ∈ e.finalOccurrences) :
    ∃ p ∈ e.occurrences, Undocumented o p := by
  obtain ⟨p, hp, undocumented⟩ := documentOnce_noted shown
  have hp := (sorted_perm _).mem_iff.mp ((distinct_sublist _).mem hp)
  exact ⟨p, List.mem_reverse.mp hp, undocumented⟩

theorem noted_of_final {e : Emission} (shown : o ∈ e.finalOccurrences) :
    ∃ p ∈ e.occurrences, o.Shows p ∧ o.enclosing = p.enclosing := by
  obtain ⟨p, hp, undocumented⟩ := undocumented_of_final shown
  exact ⟨p, hp, undocumented.shows⟩

/-- Everything that has been noted is shown. -/
theorem final_of_noted {e : Emission} (noted : o ∈ e.occurrences) :
    ∃ p ∈ e.finalOccurrences, p.Shows o := by
  have noted := (sorted_perm e.occurrences.reverse).mem_iff.mpr (List.mem_reverse.mpr noted)
  obtain ⟨p, hp, shows⟩ := distinct_shows noted
  obtain ⟨q, hq, undocumented⟩ := documentOnce_shown hp
  exact ⟨q, hq, undocumented.shows.1.trans shows⟩

end Emission
end JavaIndex
