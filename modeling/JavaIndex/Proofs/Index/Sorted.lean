import JavaIndex.Proofs.Index.Final
import Mathlib.Data.List.Forall2
import Mathlib.Data.List.Pairwise

/-! The order of the mentions in an index. Mentions that lie apart are shown one after the other, and none
of them overlaps another. If what has been noted stands for something else by which the order is told, that can be
sorted in its place, and two texts can be compared by it. -/
namespace JavaIndex

namespace Position

instance : Std.TransOrd Position :=
  inferInstanceAs (Std.TransCmp (compareLex (compareOn line) (compareOn column)))

theorem atMost_of_isLE {p q : Position} (h : (compare p q).isLE = true) : p.atMost q = true := by
  change ((compare p.line q.line).then (compare p.column q.column)).isLE = true at h
  rw [Ordering.isLE_then_iff_or, Nat.compare_eq_lt, Nat.compare_eq_eq, Nat.isLE_compare] at h
  rw [atMost, Bool.or_eq_true, Bool.and_eq_true, decide_eq_true_iff, beq_iff_eq, decide_eq_true_iff]
  exact h

theorem before_of_before {p q r : Position} (first : p.before q = true) (second : q.atMost r = true) :
    p.before r = true := by
  simp only [before, atMost, Bool.or_eq_true, Bool.and_eq_true, decide_eq_true_iff, beq_iff_eq] at *
  omega

theorem not_before_of_atMost {p q : Position} (h : q.atMost p = true) : p.before q = false := by
  simp only [before, atMost, Bool.or_eq_true, Bool.and_eq_true, Bool.or_eq_false_iff, Bool.and_eq_false_iff,
    decide_eq_true_iff, decide_eq_false_iff_not, beq_iff_eq, beq_eq_false_iff_ne] at *
  omega

end Position

namespace Region

/-- One region ends before the other begins. -/
def Apart (r s : Region) : Prop := r.stop.atMost s.start = true ∨ s.stop.atMost r.start = true

/-- Some position lies in the region. -/
def Nonempty (r : Region) : Prop := r.start.before r.stop = true

theorem Apart.symm {r s : Region} (h : r.Apart s) : s.Apart r := Or.symm h

/-- The region that begins first ends before the other begins. -/
theorem Apart.first {r s : Region} (apart : r.Apart s) (order : r.start.atMost s.start = true)
    (nonempty : s.Nonempty) : r.stop.atMost s.start = true := by
  rcases apart with before | after
  · exact before
  · have whole := Position.before_of_before nonempty after
    rw [Position.not_before_of_atMost order] at whole
    cases whole

end Region

namespace Emission

/-! The order is total. -/

/-- The keys of the order one by one. -/
def keys : Occurrence × String → Occurrence × String → Ordering :=
  compareLex (compareOn fun o => o.1.region.start) <| compareLex (compareOn fun o => o.1.role.rank) <|
    compareLex (fun a b => compareOn (fun o => o.1.region.stop) b a) (compareOn Prod.snd)

instance : Std.TransCmp keys := by
  have stops : Std.TransCmp fun a b : Occurrence × String => compareOn (fun o => o.1.region.stop) b a :=
    Std.TransCmp.opposite
  unfold keys
  infer_instance

theorem order_eq : order = keys := rfl

theorem order_trans (a b c : Occurrence × String) (first : (order a b).isLE = true)
    (second : (order b c).isLE = true) : (order a c).isLE = true := by
  rw [order_eq] at *
  exact Std.TransCmp.isLE_trans first second

theorem order_total (a b : Occurrence × String) : ((order a b).isLE || (order b a).isLE) = true := by
  have swap : keys b a = (keys a b).swap := Std.OrientedCmp.eq_swap
  rw [order_eq, swap]
  cases keys a b <;> rfl

theorem order_start {a b : Occurrence × String} (h : (order a b).isLE = true) :
    a.1.region.start.atMost b.1.region.start = true := by
  apply Position.atMost_of_isLE
  rw [order, Ordering.isLE_then_iff_or] at h
  rcases h with lt | ⟨eq, -⟩
  · rw [lt]
    rfl
  · rw [eq]
    rfl

theorem sorted_starts (os : List Occurrence) :
    (sorted os).Pairwise fun a b => a.region.start.atMost b.region.start = true := by
  unfold sorted
  rw [List.pairwise_map]
  exact (List.pairwise_mergeSort order_trans order_total _).imp order_start

/-- What a mention says beside its documentation stays. -/
theorem documentOnce_map {α : Type} (seen : List SymbolId) (os : List Occurrence) {f : Occurrence → α}
    (kept : ∀ o, f { o with documentation := none } = f o) : (documentOnce seen os).map f = os.map f := by
  induction os generalizing seen with
  | nil => rfl
  | cons o os ih =>
    rw [documentOnce]
    split
    · rw [List.map_cons, ih, List.map_cons]
    · rw [List.map_cons, ih, List.map_cons, kept]

/-- Regions one after the other. -/
def Spaced (os : List Occurrence) : Prop :=
  os.Pairwise fun a b => a.region.stop.atMost b.region.start = true

theorem spaced_map (os : List Occurrence) :
    Spaced os ↔ (os.map Occurrence.region).Pairwise fun r s => r.stop.atMost s.start = true := by
  rw [Spaced, List.pairwise_map]

/-- Mentions that lie apart are shown one after the other. -/
theorem final_spaced {e : Emission} (apart : e.occurrences.Pairwise fun a b => a.region.Apart b.region)
    (nonempty : ∀ o ∈ e.occurrences, o.region.Nonempty) : Spaced e.finalOccurrences := by
  have symmetric : ∀ {a b : Occurrence}, a.region.Apart b.region → b.region.Apart a.region := Region.Apart.symm
  have reordered := (sorted_perm e.occurrences.reverse).trans (List.reverse_perm e.occurrences)
  have sortedApart : (sorted e.occurrences.reverse).Pairwise fun a b => a.region.Apart b.region :=
    (reordered.pairwise_iff symmetric).mpr apart
  have sortedSpaced : Spaced (sorted e.occurrences.reverse) := by
    apply (sortedApart.and (sorted_starts _)).imp_of_mem
    rintro a b - hb ⟨apart, order⟩
    exact apart.first order (nonempty b (reordered.mem_iff.mp hb))
  rw [spaced_map, finalOccurrences, documentOnce_map [] _ fun _ => rfl, ← spaced_map]
  exact sortedSpaced.sublist (distinct_sublist _)

/-- Mentions one after the other do not overlap. -/
theorem crossings_spaced {os : List Occurrence} (spaced : Spaced os) : crossings os = [] := by
  induction os with
  | nil => rfl
  | cons a os ih =>
    obtain ⟨first, later⟩ := List.pairwise_cons.mp spaced
    rw [crossings, ih later, List.append_nil]
    cases os with
    | nil => rfl
    | cons b os =>
      have passed := Position.not_before_of_atMost (first b List.mem_cons_self)
      rw [List.takeWhile_cons_of_neg (by rw [passed]; decide)]
      rfl

end Emission

/-! Notes that stand for something else. -/

/-- Two lists that stand for one, entry by entry. -/
theorem forall₂_meet {α β γ : Type} {R : β → α → Prop} {Q : γ → α → Prop} {xs : List α} {ys : List β}
    {zs : List γ} (first : List.Forall₂ R ys xs) (second : List.Forall₂ Q zs xs) :
    List.Forall₂ (fun y z => ∃ x ∈ xs, R y x ∧ Q z x) ys zs := by
  induction first generalizing zs with
  | nil =>
    cases second
    exact .nil
  | @cons y x ys xs here _ ih =>
    cases second with
    | cons there later =>
      refine .cons ⟨x, List.mem_cons_self, here, there⟩ ((ih later).imp ?_)
      rintro y z ⟨x', hx, both⟩
      exact ⟨x', List.mem_cons_of_mem x hx, both⟩

theorem Region.Apart.ne {r s : Region} (apart : r.Apart s) (nonempty : r.Nonempty) : r ≠ s := by
  rintro rfl
  have after : r.stop.atMost r.start = true := apart.elim id id
  rw [Region.Nonempty, Position.not_before_of_atMost after] at nonempty
  cases nonempty

namespace Emission

variable {α : Type} {xs : List α} {r : α → α → Bool}

theorem sorted_map {f : α → Occurrence} (agree : ∀ a ∈ xs, ∀ b ∈ xs,
    r a b = (order (f a, (f a).symbol.text) (f b, (f b).symbol.text)).isLE) :
    sorted (xs.map f) = (xs.mergeSort r).map f := by
  have first : Prod.fst ∘ (fun a => (f a, (f a).symbol.text)) = f := rfl
  rw [sorted, List.map_map]
  change ((xs.map fun a => (f a, (f a).symbol.text)).mergeSort _).map Prod.fst = _
  rw [← List.map_mergeSort agree, List.map_map, first]

theorem sortedInfos_map {f : α → SymbolInfo} :
    sortedInfos (xs.map f) =
      (xs.mergeSort fun a b => (compare (f a).symbol.text (f b).symbol.text).isLE).map f := by
  have first : Prod.fst ∘ (fun a => (f a, (f a).symbol.text)) = f := rfl
  rw [sortedInfos, List.map_map]
  change ((xs.map fun a => (f a, (f a).symbol.text)).mergeSort _).map Prod.fst = _
  rw [← List.map_mergeSort (r := fun a b => (compare (f a).symbol.text (f b).symbol.text).isLE)
    fun _ _ _ _ => rfl, List.map_map, first]

theorem diagnostics_map {f : α → Diagnostic} (agree : ∀ a ∈ xs, ∀ b ∈ xs,
    r a b = (f a).region.start.atMost (f b).region.start) :
    Diagnostic.sorted (xs.map f) = (xs.mergeSort r).map f := by
  let atMost (a b : Diagnostic) : Bool := a.region.start.atMost b.region.start
  have moved : (xs.mergeSort r).map f = (xs.map f).mergeSort atMost := List.map_mergeSort agree
  exact moved.symm

/-- Mentions at different places are all kept. -/
theorem distinct_of_apart {os : List Occurrence} (apart : os.Pairwise fun a b => a.region ≠ b.region) :
    distinct os = os := by
  induction os with
  | nil => rfl
  | cons o os ih =>
    obtain ⟨first, later⟩ := List.pairwise_cons.mp apart
    rw [distinct, ih later]
    cases os with
    | nil => rfl
    | cons p ps =>
      have other : o.repeats p ≠ true := fun again =>
        first p List.mem_cons_self (Occurrence.repeats_iff.mp again).region
      simp only [other]
      rfl

theorem documentOnce_undocumented (seen : List SymbolId) (os : List Occurrence) :
    List.Forall₂ Undocumented (documentOnce seen os) os := by
  induction os generalizing seen with
  | nil => exact .nil
  | cons o os ih =>
    rw [documentOnce]
    split
    · exact .cons (.inl rfl) (ih _)
    · exact .cons (.inr rfl) (ih _)

/-- Of things that are mentioned apart from one another, each is shown once. -/
theorem final_map {f : α → Occurrence} (infos : List SymbolInfo)
    (agree : ∀ a ∈ xs, ∀ b ∈ xs, r a b = (order (f a, (f a).symbol.text) (f b, (f b).symbol.text)).isLE)
    (apart : (xs.map f).Pairwise fun a b => a.region.Apart b.region)
    (nonempty : ∀ a ∈ xs, (f a).region.Nonempty) :
    List.Forall₂ (fun o a => Undocumented o (f a)) (finalOccurrences ⟨xs.map f, infos⟩)
      (xs.reverse.mergeSort r) := by
  have order : sorted (xs.reverse.map f) = (xs.reverse.mergeSort r).map f := sorted_map fun a ha b hb =>
    agree a (List.mem_reverse.mp ha) b (List.mem_reverse.mp hb)
  have reordered : (sorted (xs.reverse.map f)).Perm (xs.map f) :=
    (sorted_perm _).trans ((List.reverse_perm xs).map f)
  have different : (sorted (xs.reverse.map f)).Pairwise fun a b => a.region ≠ b.region := by
    have symmetric : ∀ {a b : Occurrence}, a.region ≠ b.region → b.region ≠ a.region := Ne.symm
    rw [reordered.pairwise_iff symmetric]
    apply apart.imp_of_mem
    intro a b ha _ apart same
    obtain ⟨x, hx, rfl⟩ := List.mem_map.mp ha
    exact apart.ne (nonempty x hx) same
  unfold finalOccurrences
  rw [← List.map_reverse, distinct_of_apart different, order]
  have shown := documentOnce_undocumented [] ((xs.reverse.mergeSort r).map f)
  rwa [List.forall₂_map_right_iff] at shown

/-- Of things that are mentioned apart from one another, no overlap is reported. -/
theorem diagnostics_of_apart {f : α → Occurrence} {infos : List SymbolInfo} (file : FileId)
    (problems : List Diagnostic) (apart : (xs.map f).Pairwise fun a b => a.region.Apart b.region)
    (nonempty : ∀ a ∈ xs, (f a).region.Nonempty) :
    (UnitIndex.ofEmission file ⟨xs.map f, infos⟩ problems).diagnostics = Diagnostic.sorted problems := by
  have spaced : Spaced (finalOccurrences ⟨xs.map f, infos⟩) := by
    apply final_spaced apart
    intro o ho
    obtain ⟨a, ha, rfl⟩ := List.mem_map.mp ho
    exact nonempty a ha
  have overlaps : overlaps ⟨xs.map f, infos⟩ = [] := crossings_spaced spaced
  rw [UnitIndex.ofEmission, overlaps, List.map_nil, List.append_nil]

end Emission
end JavaIndex
