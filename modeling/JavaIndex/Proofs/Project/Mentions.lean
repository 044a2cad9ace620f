import JavaIndex.Proofs.Index.Sorted
import JavaIndex.Proofs.Parser.Source
import JavaIndex.Proofs.Resolve.TwinTraversal
import JavaIndex.Project.Run

/-! Where the mentions of an index stand. A file is run through once, which is two runs that do not differ:
over each word of the tree at most one mention is noted, and the words of the tree are words of the text. -/
namespace JavaIndex

/-- One text, run through twice. -/
def Twins.once (file : FileId) (source : String) : Twins :=
  ⟨.same, .same, .same, file, file, .ofText source, .ofText source, source, source, True,
    fun _ => ⟨rfl, rfl⟩⟩

/-- What is noted of one text. -/
theorem Twins.index_once (u : SourceUnit) (source : String) (project : ProjectClasses)
    (external : ExternalTable) (config : Config) :
    ∃ log, (Twins.once u.file source).Tells (Nodes.idents (Nodes.unit u.tree)) log
      (u.index source project external config) (u.index source project external config) := by
  have told := Twins.index (w := once u.file source) rfl rfl
    (Homes.Moves.same (.start project external)) u.tree config
  rw [show (once u.file source).first = .same from rfl, show (once u.file source).second = .same from rfl,
    Layout.unit_same] at told
  exact told

namespace Token

/-- A token that a mention may cover: an identifier, a keyword that calls a constructor, or the keyword that
names one. -/
def Mentionable (before : List Token) (t : Token) (after : List Token) : Prop :=
  t.kind = .identifier ∨ t.callsConstructor after = true ∨
    (t.spells "new" = true ∧ before.getLast?.any (·.spells "::") = true)

theorem mentionable_of_words {tokens : List Token} {i : Ident} (word : i ∈ words tokens) :
    ∃ before t after, tokens = before ++ t :: after ∧ i = ⟨t.text, t.range⟩ ∧ t.Mentionable before after := by
  induction tokens with
  | nil => cases word
  | cons t rest ih =>
    rcases List.mem_append.mp word with here | later
    · unfold wordsAt at here
      split at here
      · rename_i own
        rw [List.mem_singleton] at here
        refine ⟨[], t, rest, rfl, here, ?_⟩
        rcases Bool.or_eq_true_iff.mp own with sort | calls
        · exact .inl (eq_of_beq sort)
        · exact .inr (.inl calls)
      · split at here
        · rename_i colons
          cases rest with
          | nil => cases here
          | cons n after =>
            cases named : n.spells "new" with
            | false => simp [named] at here
            | true =>
              simp only [List.head?_cons, Option.filter_some, named, if_true, Option.toList_some,
                List.map_cons, List.map_nil, List.mem_singleton] at here
              exact ⟨[t], n, after, rfl, here, .inr (.inr ⟨named, by simpa using colons⟩)⟩
        · cases here
    · obtain ⟨before, u, after, rfl, same, naming⟩ := ih later
      refine ⟨t :: before, u, after, rfl, same, ?_⟩
      rcases naming with sort | calls | ⟨named, colons⟩
      · exact .inl sort
      · exact .inr (.inl calls)
      · refine .inr (.inr ⟨named, ?_⟩)
        cases before with
        | nil => cases colons
        | cons b before => rwa [List.getLast?_cons_cons]

end Token

namespace Occurrence

/-- The mention covers one token of a text that may be mentioned, and of all other tokens nothing. -/
def Covers (o : Occurrence) (source : String) : Prop :=
  ∃ tokens before t after, tokenize source = .ok tokens ∧ tokens = before ++ t :: after ∧
    t.Mentionable before after ∧ o.region = (LineIndex.ofText source).region t.range ∧
      ∀ u ∈ before ++ after, ((LineIndex.ofText source).region u.range).Apart o.region

end Occurrence

namespace UnitIndex

/-- Each mention covers one token, on one line, and they stand one after the other. -/
structure OneEach (index : UnitIndex) (source : String) : Prop where
  covers : ∀ o ∈ index.occurrences, o.Covers source
  nonempty : ∀ o ∈ index.occurrences, o.region.Nonempty
  oneLine : ∀ o ∈ index.occurrences, o.region.start.line = o.region.stop.line
  ordered : index.occurrences.Pairwise fun a b => a.region.stop.atMost b.region.start = true
  noOverlap : ∀ d ∈ index.diagnostics, d.problem.code ≠ .overlappingOccurrence

end UnitIndex

namespace LineIndex

variable {source : String} {a b : Span}

theorem region_nonempty (word : a.IsWord source) : ((ofText source).region a).Nonempty := by
  have inside := word.inside
  have nonempty := word.nonempty
  exact (position_before (by omega) inside).mpr nonempty

theorem position_mono (source : String) {x y : Nat} (order : x ≤ y) :
    ((ofText source).position x).atMost ((ofText source).position y) = true := by
  have clamp (z : Nat) : (ofText source).position z = (ofText source).position (min z (ofText source).size) := by
    rw [position, position, Nat.min_assoc, Nat.min_self]
  rw [clamp x, clamp y, position_atMost (Nat.min_le_right _ _) (Nat.min_le_right _ _)]
  omega

theorem region_apart (apart : a.stop ≤ b.start ∨ b.stop ≤ a.start) :
    ((ofText source).region a).Apart ((ofText source).region b) :=
  apart.imp (position_mono source) (position_mono source)

end LineIndex

/-- A word of a text covers one token. -/
theorem Occurrence.covers_word {source : String} {tokens : List Token} (read : tokenize source = .ok tokens)
    {o : Occurrence} {i : Ident} (word : i ∈ Token.words tokens)
    (region : o.region = (LineIndex.ofText source).region i.range) : o.Covers source := by
  obtain ⟨before, t, after, rfl, rfl, naming⟩ := Token.mentionable_of_words word
  refine ⟨_, before, t, after, read, rfl, naming, region, ?_⟩
  have spread := tokenize_pairwise read
  rw [List.pairwise_append, List.pairwise_cons] at spread
  obtain ⟨-, ⟨behind, -⟩, ahead⟩ := spread
  intro u hu
  rw [region]
  apply LineIndex.region_apart
  rcases List.mem_append.mp hu with hu | hu
  · exact .inl (ahead u hu t List.mem_cons_self)
  · exact .inr (behind u hu)

/-- What is noted over words of a text stands apart, each mention over some of it. -/
theorem Twins.once_apart {source : String} {notes : List Note} (words : SourceWords source (notes.map Note.name))
    (file : FileId) :
    ((notes.map (once file source).occurrence).Pairwise fun a b => a.region.Apart b.region) ∧
      ∀ o ∈ notes.map (once file source).occurrence, o.region.Nonempty := by
  constructor
  · rw [List.pairwise_map]
    apply (List.pairwise_map.mp words.nodup).imp_of_mem
    intro n m hn hm different
    exact LineIndex.region_apart
      (words.apart n.name (List.mem_map_of_mem hn) m.name (List.mem_map_of_mem hm) different)
  · intro o ho
    obtain ⟨n, hn, rfl⟩ := List.mem_map.mp ho
    exact LineIndex.region_nonempty (words.written n.name (List.mem_map_of_mem hn))

/-- In the index of a program each mention covers one token of the text, and no two of them overlap. -/
theorem SourceUnit.index_oneEach {source : String} {tree : CompilationUnit} (parsed : parse source = .ok tree)
    (file : FileId) (project : ProjectClasses) (external : ExternalTable) (config : Config) :
    (SourceUnit.index ⟨file, tree⟩ source project external config).OneEach source := by
  obtain ⟨tokens, read, built⟩ := parse_tokens parsed
  obtain ⟨log, told⟩ := Twins.index_once ⟨file, tree⟩ source project external config
  have words : SourceWords source (log.notes.map Note.name) := (parse_idents parsed).fewer told.fewer
  have isWord : ∀ n ∈ log.notes, n.name.range.IsWord source :=
    fun n hn => words.written n.name (List.mem_map_of_mem hn)
  let e : Emission := ⟨log.notes.map (Twins.once file source).occurrence, log.facts.map Twins.info⟩
  obtain ⟨apart, nonempty⟩ := Twins.once_apart words file
  have spaced : Emission.Spaced e.finalOccurrences := Emission.final_spaced apart nonempty
  have origin : ∀ o ∈ e.finalOccurrences, ∃ n ∈ log.notes,
      o.region = (LineIndex.ofText source).region n.name.range := by
    intro o ho
    obtain ⟨noted, hnoted, shows, -⟩ := Emission.noted_of_final ho
    obtain ⟨n, hn, rfl⟩ := List.mem_map.mp hnoted
    exact ⟨n, hn, shows.region⟩
  rw [told.index]
  refine ⟨?_, ?_, ?_, spaced, ?_⟩
  · intro o ho
    obtain ⟨n, hn, region⟩ := origin o ho
    have inTree := told.fewer.mem (List.mem_map_of_mem hn)
    exact Occurrence.covers_word read ((parseTokens_words built).mem (List.mem_append_right _ inTree)) region
  · intro o ho
    obtain ⟨n, hn, region⟩ := origin o ho
    rw [region]
    exact LineIndex.region_nonempty (isWord n hn)
  · intro o ho
    obtain ⟨n, hn, region⟩ := origin o ho
    rw [region]
    exact (isWord n hn).one_line
  · intro d hd
    have overlaps : e.overlaps = [] := Emission.crossings_spaced spaced
    have found : d ∈ (log.problems.map (Twins.once file source).diagnostic).reverse := by
      have shown := (List.mergeSort_perm _ _).mem_iff.mp hd
      change d ∈ _ ++ e.overlaps.map _ at shown
      rwa [overlaps, List.map_nil, List.append_nil] at shown
    obtain ⟨problem, hproblem, rfl⟩ := List.mem_map.mp (List.mem_reverse.mp found)
    exact told.found problem hproblem

/-- The index of a program that calls a constructor and names one. -/
theorem SourceUnit.constructors_oneEach :
    let source := "class A { A(){ this(1); } A(int i){} Runnable r = A::new; }"
    ∃ tree, parse source = .ok tree ∧
      (SourceUnit.index ⟨0, tree⟩ source (.build [⟨0, tree⟩] .empty .standard) .empty .standard).OneEach
        source := by
  intro source
  have parsed : parse source = .ok _ := parse_eq_ok (by decide +kernel)
  exact ⟨_, parsed, SourceUnit.index_oneEach parsed 0 _ .empty .standard⟩

/-- The keyword that names a constructor is mentioned, which is neither an identifier nor a call. -/
theorem SourceUnit.constructorReference_mentions_new :
    let source := "class A { A(){} Runnable r = A::new; }"
    ∃ tree tokens, parse source = .ok tree ∧ tokenize source = .ok tokens ∧
      ∃ o ∈ (SourceUnit.index ⟨0, tree⟩ source (.build [⟨0, tree⟩] .empty .standard) .empty
          .standard).occurrences,
        ∀ t ∈ tokens, t.kind = .identifier ∨ t.text = "this" ∨ t.text = "super" →
          o.region ≠ (LineIndex.ofText source).region t.range := by
  intro source
  let index (tree : CompilationUnit) := (((Resolve.unit tree).run (.ofUnit ⟨0, tree⟩ source .standard)).run
    (.start (.build [⟨0, tree⟩] .empty .standard) .empty .standard)).2.emission
  obtain ⟨tree, parsed, noted, others⟩ : ∃ tree, parse source = .ok tree ∧
      ((index tree).occurrences.any fun o => o.region == ⟨⟨0, 32⟩, ⟨0, 35⟩⟩) = true ∧
      ((tokenize source).toOption.all fun ts => ts.all fun t =>
        (t.kind == .identifier || t.text == "this" || t.text == "super") →
          (LineIndex.ofText source).region t.range != ⟨⟨0, 32⟩, ⟨0, 35⟩⟩) = true :=
    exists_parse (by decide +kernel)
  obtain ⟨tokens, read, -⟩ := parse_tokens parsed
  refine ⟨tree, tokens, parsed, read, ?_⟩
  obtain ⟨o, ho, region⟩ := List.any_eq_true.mp noted
  obtain ⟨shown, hshown, shows⟩ := Emission.final_of_noted ho
  refine ⟨shown, hshown, ?_⟩
  intro t ht named same
  rw [read] at others
  have different := of_decide_eq_true (List.all_eq_true.mp others t ht) (by
    rcases named with sort | text | text
    · rw [sort]
      rfl
    · rw [text, Bool.or_eq_true, Bool.or_eq_true]
      exact .inl (.inr rfl)
    · rw [text, Bool.or_eq_true]
      exact .inr rfl)
  rw [← same, shows.region, eq_of_beq region, bne_self_eq_false] at different
  cases different

end JavaIndex
