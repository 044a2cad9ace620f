import JavaIndex.Proofs.Index.Sorted
import Mathlib.Data.List.FinRange

/-! What a whole series of mentions comes to at the end. Nothing is lost but repetitions, the mentions are in order,
and every two that overlap in part are reported: the scan from a mention stops early only where nothing that
follows can reach it any more. -/
namespace JavaIndex

/-- The place, the symbol and the role of a mention. -/
def Occurrence.triple (o : Occurrence) : Region × SymbolId × Role := (o.region, o.symbol.id, o.role)

theorem Occurrence.Shows.triple {a b : Occurrence} (h : a.Shows b) : a.triple = b.triple := by
  rw [Occurrence.triple, h.region, h.symbol, h.role]
  rfl

theorem Position.before_of_atMost {p q r : Position} (first : p.atMost q = true) (second : q.before r = true) :
    p.before r = true := by
  simp only [before, atMost, Bool.or_eq_true, Bool.and_eq_true, decide_eq_true_iff, beq_iff_eq] at *
  omega

theorem Position.before_of_not_atMost {p q : Position} (h : ¬ q.atMost p = true) : p.before q = true := by
  simp only [before, atMost, Bool.or_eq_true, Bool.and_eq_true, decide_eq_true_iff, beq_iff_eq] at *
  omega

/-- What overlaps a region in part begins before the region ends. -/
theorem Region.crosses_before {r s : Region} (h : r.crosses s = true) : s.start.before r.stop = true := by
  rw [crosses, disjoint, Bool.and_eq_true, Bool.and_eq_true, Bool.not_eq_true', Bool.or_eq_false_iff] at h
  exact Position.before_of_not_atMost (Bool.not_eq_true _ ▸ h.1.1.1)

namespace Emission

/-! A series of mentions. -/

/-- One request to note a mention. -/
inductive Call where
  | emit (o : Occurrence)
  | reference (region : Region) (symbol : Symbol) (enclosing : Option Symbol)

/-- What has been noted after one more request. -/
def Call.run (e : Emission) : Call → Emission
  | .emit o => e.emit o
  | .reference region symbol enclosing => e.reference region symbol enclosing

/-- What a request asks to note. -/
def Call.triple : Call → Region × SymbolId × Role
  | .emit o => o.triple
  | .reference region symbol _ => (region, symbol.id, .reference)

/-- What has been noted after a series of requests. -/
def after (calls : List Call) : Emission := calls.foldl Call.run .empty

theorem run_triples (e : Emission) (call : Call) :
    (call.run e).occurrences.map Occurrence.triple = call.triple :: e.occurrences.map Occurrence.triple := by
  cases call <;> rfl

theorem foldl_triples (calls : List Call) (e : Emission) :
    (calls.foldl Call.run e).occurrences.map Occurrence.triple =
      (calls.map Call.triple).reverse ++ e.occurrences.map Occurrence.triple := by
  induction calls generalizing e with
  | nil => rfl
  | cons call calls ih =>
    rw [List.foldl_cons, ih, run_triples, List.map_cons, List.reverse_cons, List.append_assoc]
    rfl

theorem after_triples (calls : List Call) :
    (after calls).occurrences.map Occurrence.triple = (calls.map Call.triple).reverse := by
  rw [after, foldl_triples]
  exact List.append_nil _

/-- The index shows what has been noted, no less and no more. -/
theorem final_triples (e : Emission) (t : Region × SymbolId × Role) :
    t ∈ e.finalOccurrences.map Occurrence.triple ↔ t ∈ e.occurrences.map Occurrence.triple := by
  constructor
  · intro shown
    obtain ⟨o, ho, rfl⟩ := List.mem_map.mp shown
    obtain ⟨p, hp, shows, -⟩ := noted_of_final ho
    exact List.mem_map.mpr ⟨p, hp, shows.triple.symm⟩
  · intro noted
    obtain ⟨o, ho, rfl⟩ := List.mem_map.mp noted
    obtain ⟨p, hp, shows⟩ := final_of_noted ho
    exact List.mem_map.mpr ⟨p, hp, shows.triple⟩

/-! The order of what is shown. -/

/-- One mention stands no later than the other in the order of the index. -/
def InOrder (a b : Occurrence) : Prop := (order (a, a.symbol.text) (b, b.symbol.text)).isLE = true

theorem sorted_inOrder (os : List Occurrence) : (sorted os).Pairwise InOrder := by
  unfold sorted
  rw [List.pairwise_map]
  refine (List.pairwise_mergeSort order_trans order_total _).imp_of_mem ?_
  intro a b ha hb inOrder
  -- the text that an entry was sorted by is the one of its symbol
  obtain ⟨o, -, rfl⟩ := List.mem_map.mp (List.mem_mergeSort.mp ha)
  obtain ⟨p, -, rfl⟩ := List.mem_map.mp (List.mem_mergeSort.mp hb)
  exact inOrder

theorem final_inOrder (e : Emission) : e.finalOccurrences.Pairwise InOrder := by
  have inOrder := (sorted_inOrder e.occurrences.reverse).sublist (distinct_sublist _)
  have undocumented {os : List Occurrence} :
      os.Pairwise InOrder ↔ (os.map fun o => { o with documentation := none }).Pairwise InOrder := by
    rw [List.pairwise_map]
    exact Iff.rfl
  rw [finalOccurrences, undocumented, documentOnce_map [] _ fun _ => rfl, ← undocumented]
  exact inOrder

/-! The overlaps. -/

/-- The pairs of entries that overlap in part, the earlier one first. -/
def crossingPairs : (os : List Occurrence) → List (Fin os.length × Fin os.length)
  | [] => []
  | a :: os =>
    ((List.finRange os.length).filter fun j => a.region.crosses (os.get j).region).map (fun j => (0, j.succ))
      ++ (crossingPairs os).map (Prod.map Fin.succ Fin.succ)

theorem mem_crossingPairs {os : List Occurrence} {p : Fin os.length × Fin os.length} :
    p ∈ crossingPairs os ↔ p.1 < p.2 ∧ os[p.1].region.crosses os[p.2].region = true := by
  induction os with
  | nil => exact p.1.elim0
  | cons a os ih =>
    obtain ⟨i, j⟩ := p
    rw [crossingPairs, List.mem_append, List.mem_map, List.mem_map]
    constructor
    · rintro (⟨k, hk, same⟩ | ⟨q, hq, same⟩)
      · obtain ⟨rfl, rfl⟩ := Prod.mk.inj same
        exact ⟨Fin.succ_pos k, (List.mem_filter.mp hk).2⟩
      · obtain ⟨rfl, rfl⟩ := Prod.mk.inj same
        obtain ⟨earlier, crosses⟩ := ih.mp hq
        exact ⟨Fin.succ_lt_succ_iff.mpr earlier, crosses⟩
    · rintro ⟨earlier, crosses⟩
      obtain ⟨l, rfl⟩ := Fin.exists_succ_eq.mpr (Fin.ne_zero_of_lt earlier)
      rcases Fin.eq_zero_or_eq_succ i with rfl | ⟨k, rfl⟩
      · exact .inl ⟨l, List.mem_filter.mpr ⟨List.mem_finRange l, crosses⟩, rfl⟩
      · exact .inr ⟨(k, l), ih.mpr ⟨Fin.succ_lt_succ_iff.mp earlier, crosses⟩, rfl⟩

theorem nodup_crossingPairs (os : List Occurrence) : (crossingPairs os).Nodup := by
  induction os with
  | nil => exact List.nodup_nil
  | cons a os ih =>
    refine List.Nodup.append ?_ (ih.map ?_) ?_
    · exact ((List.nodup_finRange _).filter _).map fun j k same => Fin.succ_inj.mp (Prod.mk.inj same).2
    · exact (Fin.succ_injective _).prodMap (Fin.succ_injective _)
    · rintro p first later
      obtain ⟨j, -, rfl⟩ := List.mem_map.mp first
      obtain ⟨q, -, same⟩ := List.mem_map.mp later
      exact Fin.succ_ne_zero _ (Prod.mk.inj same).1

/-- Among entries in order, those that overlap a region in part all stand before the scan stops. -/
theorem filter_takeWhile {r : Region} {os : List Occurrence}
    (starts : os.Pairwise fun a b => a.region.start.atMost b.region.start = true) :
    ((os.takeWhile fun b => b.region.start.before r.stop).filter fun b => r.crosses b.region) =
      os.filter fun b => r.crosses b.region := by
  induction os with
  | nil => rfl
  | cons a os ih =>
    obtain ⟨first, later⟩ := List.pairwise_cons.mp starts
    by_cases reached : a.region.start.before r.stop = true
    · rw [List.takeWhile_cons, if_pos reached, List.filter_cons, List.filter_cons, ih later]
    · rw [List.takeWhile_cons, if_neg reached, List.filter_nil]
      refine (List.filter_eq_nil_iff.mpr fun b hb crosses => reached ?_).symm
      have before := Region.crosses_before crosses
      rcases List.mem_cons.mp hb with rfl | hb
      · exact before
      · exact Position.before_of_atMost (first b hb) before

theorem filter_get {os : List Occurrence} (q : Occurrence → Bool) :
    os.filter q = ((List.finRange os.length).filter fun j => q (os.get j)).map os.get := by
  conv_lhs => rw [← List.map_get_finRange os]
  rw [List.filter_map]
  rfl

/-- The scan finds every pair of entries in order that overlap in part, once. -/
theorem crossings_eq {os : List Occurrence}
    (starts : os.Pairwise fun a b => a.region.start.atMost b.region.start = true) :
    crossings os = (crossingPairs os).map fun p => (os[p.2].region, os[p.1].region) := by
  induction os with
  | nil => rfl
  | cons a os ih =>
    obtain ⟨-, later⟩ := List.pairwise_cons.mp starts
    rw [crossings, filter_takeWhile later, filter_get, crossingPairs, List.map_append, List.map_map, List.map_map,
      List.map_map, ih later]
    rfl

theorem overlaps_eq (e : Emission) :
    e.overlaps = (crossingPairs e.finalOccurrences).map fun p =>
      (e.finalOccurrences[p.2].region, e.finalOccurrences[p.1].region) :=
  crossings_eq ((final_inOrder e).imp order_start)

/-- Whatever is asked to be noted, the index is in order and shows just what was asked, and the problems that it
adds are the overlaps of its mentions: there is one for every two mentions that overlap in part, at the later of
the two. -/
theorem index_of_calls (calls : List Call) (file : FileId) (problems : List Diagnostic) :
    let index := UnitIndex.ofEmission file (after calls) problems
    index.occurrences.Pairwise InOrder ∧
    (∀ t, t ∈ index.occurrences.map Occurrence.triple ↔ t ∈ calls.map Call.triple) ∧
    ∃ pairs : List (Fin index.occurrences.length × Fin index.occurrences.length),
      pairs.Nodup ∧
      (∀ p, p ∈ pairs ↔
        p.1 < p.2 ∧ index.occurrences[p.1].region.crosses index.occurrences[p.2].region = true) ∧
      index.diagnostics.Perm (problems ++ pairs.map fun p =>
        ⟨file, index.occurrences[p.2].region,
          .overlapping index.occurrences[p.2].region index.occurrences[p.1].region⟩) := by
  refine ⟨final_inOrder _, fun t => ?_, crossingPairs _, nodup_crossingPairs _, fun p => mem_crossingPairs, ?_⟩
  · change t ∈ (after calls).finalOccurrences.map Occurrence.triple ↔ _
    rw [final_triples, after_triples, List.mem_reverse]
  · have kept : (UnitIndex.ofEmission file (after calls) problems).diagnostics.Perm _ :=
      List.mergeSort_perm _ _
    rwa [overlaps_eq, List.map_map] at kept

end Emission
end JavaIndex
