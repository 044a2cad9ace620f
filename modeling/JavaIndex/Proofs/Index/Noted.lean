import JavaIndex.Index.Diagnostic
import JavaIndex.Index.Occurrence
import JavaIndex.Proofs.Symbol.Placeholders
import JavaIndex.Text.LineIndex
import Mathlib.Data.List.Basic

/-! What is noted on the way through a file. Mentions in a declaration stand together after the mention that
declares it, so the innermost declaration around a mention is one that is noted itself, or a class without a name.
What is left of a name from the first identifier on that means nothing known is reported once, at that
identifier, and each identifier left is marked by a symbol of its own. All other mentions are of what is known. -/
namespace JavaIndex

/-! Mentions inside declarations. -/

/-- The symbol is as that of a class without a name: local, and of a class. -/
def Symbol.IsUnnamedClass (s : Symbol) : Prop := s.scheme = .local ∧ s.kind = .classType

/-- One of the mentions declares the symbol, unless it is that of a class without a name. -/
def Symbol.DeclaredAmong (os : List Occurrence) (s : Symbol) : Prop :=
  (∃ d ∈ os, d.role = .definition ∧ d.symbol.id = s.id) ∨ s.IsUnnamedClass

theorem Symbol.DeclaredAmong.mono {os os' : List Occurrence} {s : Symbol} (declared : s.DeclaredAmong os)
    (more : os ⊆ os') : s.DeclaredAmong os' :=
  declared.imp_left fun ⟨d, hd, declares⟩ => ⟨d, more hd, declares⟩

/-- Mentions of such symbols, the latest first, in a declaration. -/
inductive Nested (ok : Symbol → Prop) : Option Symbol → List Occurrence → Prop
  | nil {around} : Nested ok around []
  | append {around later earlier} : Nested ok around later → Nested ok around earlier →
      Nested ok around (later ++ earlier)
  | mention {around o} : o.enclosing = around → ok o.symbol → Nested ok around [o]
  | declaration {around d inner} : d.role = .definition → d.enclosing = around → ok d.symbol →
      Nested ok (some d.symbol) inner → Nested ok around (inner ++ [d])
  | unnamed {around symbol inner} : symbol.IsUnnamedClass → Nested ok (some symbol) inner →
      Nested ok around inner

namespace Nested

variable {ok : Symbol → Prop} {around : Option Symbol} {os : List Occurrence} {o : Occurrence}

theorem ofMentions (all : ∀ o ∈ os, o.enclosing = around ∧ ok o.symbol) : Nested ok around os := by
  induction os with
  | nil => exact .nil
  | cons o os ih =>
    obtain ⟨inside, h⟩ := all o List.mem_cons_self
    exact .append (.mention inside h) (ih fun p hp => all p (List.mem_cons_of_mem _ hp))

theorem mentions (nested : Nested ok around os) (ho : o ∈ os) : ok o.symbol := by
  induction nested with
  | nil => cases ho
  | append _ _ later earlier => exact (List.mem_append.mp ho).elim later earlier
  | mention _ h =>
    cases List.mem_singleton.mp ho
    exact h
  | declaration _ _ h _ inner =>
    rcases List.mem_append.mp ho with ho | ho
    · exact inner ho
    · cases List.mem_singleton.mp ho
      exact h
  | unnamed _ _ inner => exact inner ho

/-- A mention that is not in the declaration itself is in one that is declared further in. -/
theorem enclosing (nested : Nested ok around os) (ho : o ∈ os) :
    o.enclosing = around ∨ ∃ e, o.enclosing = some e ∧ e.DeclaredAmong os := by
  induction nested with
  | nil => cases ho
  | append _ _ later earlier =>
    rcases List.mem_append.mp ho with ho | ho
    · exact (later ho).imp_right fun ⟨e, inside, h⟩ => ⟨e, inside, h.mono (List.subset_append_left _ _)⟩
    · exact (earlier ho).imp_right fun ⟨e, inside, h⟩ => ⟨e, inside, h.mono (List.subset_append_right _ _)⟩
  | mention inside _ =>
    cases List.mem_singleton.mp ho
    exact .inl inside
  | @declaration _ d _ declares inside _ _ inner =>
    rcases List.mem_append.mp ho with ho | ho
    · right
      rcases inner ho with within | ⟨e, within, h⟩
      · exact ⟨d.symbol, within, .inl ⟨d, List.mem_append_right _ List.mem_cons_self, declares, rfl⟩⟩
      · exact ⟨e, within, h.mono (List.subset_append_left _ _)⟩
    · cases List.mem_singleton.mp ho
      exact .inl inside
  | @unnamed _ symbol _ unnamed _ inner =>
    right
    rcases inner ho with within | h
    · exact ⟨symbol, within, .inr unnamed⟩
    · exact h

end Nested

/-! Unknown names. -/

/-- The identifiers of a name from the first one on that means nothing known, in a declaration. -/
structure UnknownName where
  first : Ident
  rest : List Ident
  isValue : Bool
  enclosing : Option Symbol

namespace UnknownName

/-- All identifiers that are left. -/
def idents (n : UnknownName) : List Ident := n.first :: n.rest

/-- The symbols that stand for the identifiers. -/
def symbols (n : UnknownName) : List Symbol := Symbol.placeholderChain (n.idents.map Ident.text) n.isValue

/-- The mentions over the identifiers. -/
def marks (lines : LineIndex) (n : UnknownName) : List Occurrence :=
  (n.idents.zip n.symbols).map fun m => ⟨lines.region m.1.range, m.2, .reference, n.enclosing, none⟩

/-- The problem at the first identifier. -/
def diagnostic (file : FileId) (lines : LineIndex) (n : UnknownName) : Diagnostic :=
  ⟨file, lines.region n.first.range, .unresolved (Ident.dotted n.idents)⟩

theorem of_marks {lines : LineIndex} {n : UnknownName} {o : Occurrence} (ho : o ∈ n.marks lines) :
    o.role = .reference ∧ o.enclosing = n.enclosing ∧ o.symbol.StandsIn := by
  obtain ⟨m, hm, rfl⟩ := List.mem_map.mp ho
  exact ⟨rfl, rfl, n.idents.map Ident.text, n.isValue, (List.of_mem_zip (a := m.1) (b := m.2) hm).2⟩

end UnknownName

/-- These unknown names are marked among the mentions, if they are to be marked, and they are reported among the
problems. The other mentions are as said. -/
structure Reported (ok : Symbol → Prop) (file : FileId) (lines : LineIndex) (marked : Bool)
    (names : List UnknownName) (os : List Occurrence) (ps : List Diagnostic) : Prop where
  mentions : ∃ others, os.Perm (others ++ if marked then names.flatMap (·.marks lines) else []) ∧
    ∀ o ∈ others, ok o.symbol
  problems : ps.filter (·.problem.code == .unresolvedReference) = names.map (·.diagnostic file lines)

namespace Reported

variable {ok : Symbol → Prop} {file : FileId} {lines : LineIndex} {marked : Bool}
  {names names' : List UnknownName} {os os' : List Occurrence} {ps ps' : List Diagnostic}

theorem nil : Reported ok file lines marked [] [] [] := ⟨⟨[], by simp⟩, rfl⟩

theorem append (later : Reported ok file lines marked names' os' ps')
    (earlier : Reported ok file lines marked names os ps) :
    Reported ok file lines marked (names' ++ names) (os' ++ os) (ps' ++ ps) := by
  obtain ⟨⟨others', same', known'⟩, problems'⟩ := later
  obtain ⟨⟨others, same, known⟩, problems⟩ := earlier
  refine ⟨⟨others' ++ others, (same'.append same).trans ?_, ?_⟩, ?_⟩
  · cases marked with
    | false => simp
    | true =>
      simp only [if_true, List.flatMap_append, List.append_assoc]
      exact (List.perm_append_comm_assoc ..).append_left others'
  · exact fun o ho => (List.mem_append.mp ho).elim (known' o) (known o)
  · rw [List.filter_append, problems', problems, List.map_append]

theorem mention {o : Occurrence} (h : ok o.symbol) : Reported ok file lines marked [] [o] [] :=
  ⟨⟨[o], by simp, by simpa using h⟩, rfl⟩

theorem problem {d : Diagnostic} (other : d.problem.code ≠ .unresolvedReference) :
    Reported ok file lines marked [] [] [d] :=
  ⟨⟨[], by simp⟩, by rw [List.filter_cons_of_neg (by simpa using other)]; rfl⟩

theorem unknown (n : UnknownName) (same : os.Perm (if marked then n.marks lines else [])) :
    Reported ok file lines marked [n] os [n.diagnostic file lines] := by
  refine ⟨⟨[], ?_, by simp⟩, rfl⟩
  simpa using same

end Reported
end JavaIndex
