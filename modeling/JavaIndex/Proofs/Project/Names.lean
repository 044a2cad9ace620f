import JavaIndex.Proofs.Project.Sites
import JavaIndex.Proofs.Resolve.Units

/-! The names of the types of a file. A type has a node in the tree with all its parts, its name is made of
words of the file, and the steps that lead to its symbol tell its name. -/
namespace JavaIndex

namespace Nodes

/-- The parts of some nodes are among those of others. -/
def PartOf (ns ms : List Node) : Prop := ∀ n ∈ ns, ∃ m ∈ ms, m.part = n.part

theorem PartOf.trans {ns ms ls : List Node} (first : PartOf ns ms) (second : PartOf ms ls) : PartOf ns ls := by
  intro n hn
  obtain ⟨m, hm, same⟩ := first n hn
  obtain ⟨l, hl, same'⟩ := second m hm
  exact ⟨l, hl, same'.trans same⟩

theorem PartOf.of_subset {ns ms : List Node} (sub : ∀ n ∈ ns, n ∈ ms) : PartOf ns ms :=
  fun n hn => ⟨n, sub n hn, rfl⟩

theorem ident_of_part {ns ms : List Node} {good : Ident → Prop} (parts : PartOf ns ms)
    (all : ∀ n ∈ ms, ∀ i, n.ident? = some i → good i) : ∀ n ∈ ns, ∀ i, n.ident? = some i → good i := by
  intro n hn i named
  obtain ⟨m, hm, same⟩ := parts n hn
  refine all m hm i ?_
  rw [← named, Node.ident?, Node.ident?, same]

theorem Worded.of_part {ns ms : List Node} (worded : Worded ms) (parts : PartOf ns ms) : Worded ns :=
  ident_of_part parts worded

theorem members_part (d : TypeDecl) : PartOf (members d.members) (typeDecl d) :=
  fun n hn => ⟨n.within (.declared d), mem_typeDecl hn, rfl⟩

theorem name_mem (d : TypeDecl) : .ofPart (.declaration d.name) ∈ typeDecl d := by
  cases d
  refine List.mem_append_right _ (List.mem_append_right _ ?_)
  exact List.mem_append_left _ (List.mem_singleton_self _)

end Nodes

namespace Site

open Nodes (PartOf Worded)

mutual

/-- A type has its parts in the tree of the file. -/
theorem nested_part {unit : SourceUnit} : ∀ (d : TypeDecl) {outer : List String} {name : String},
    ∀ s ∈ nested unit outer name d, PartOf (Nodes.typeDecl s.decl) (Nodes.typeDecl d)
  | ⟨kind, mods, ident, params, extending, implementing, permitting, components, constants, body, doc,
      range⟩, _, _, s, hs => by
    obtain rfl | hs := List.mem_cons.mp hs
    · exact .of_subset fun _ hn => hn
    · exact (ofMembers_part body s hs).trans (Nodes.members_part ⟨kind, mods, ident, params, extending,
        implementing, permitting, components, constants, body, doc, range⟩)

theorem ofMembers_part {unit : SourceUnit} : ∀ (ms : List Member) {outer : List String} {name : String},
    ∀ s ∈ ofMembers unit outer name ms, PartOf (Nodes.typeDecl s.decl) (Nodes.members ms)
  | [], _, _, _, hs => by cases hs
  | .type d :: rest, _, _, s, hs => by
    obtain hs | hs := List.mem_append.mp hs
    · exact (nested_part d s hs).trans (.of_subset fun _ hn => List.mem_append_left _ hn)
    · exact (ofMembers_part rest s hs).trans (.of_subset fun _ hn => List.mem_append_right _ hn)
  | .field _ _ _ :: rest, _, _, s, hs =>
    (ofMembers_part rest s hs).trans (.of_subset fun _ hn => List.mem_append_right _ hn)
  | .method _ :: rest, _, _, s, hs =>
    (ofMembers_part rest s hs).trans (.of_subset fun _ hn => List.mem_append_right _ hn)
  | .initializer _ _ :: rest, _, _, s, hs =>
    (ofMembers_part rest s hs).trans (.of_subset fun _ hn => List.mem_append_right _ hn)

end

/-- The words by which types around one another are called, the outermost first. -/
def words (names : List String) : List String := names.reverse.map Dotted.last

/-- A qualified name is made of the words of the types around one another. -/
structure Spelled (package : String) (outer : List String) (name : String) : Prop where
  unmarked : '<' ∉ name.toList
  spelled : name = Dotted.within package (".".intercalate (words (name :: outer)))

theorem words_top (package : String) {word : String} (plain : Plain word) :
    words [Dotted.within package word] = [word] := by
  have last := Dotted.last_within package (List.cons_ne_nil word []) (by simpa using plain.1)
  simpa [words] using last

theorem words_inside (name : String) (outer : List String) {word : String} (plain : Plain word) :
    words ((name ++ "." ++ word) :: name :: outer) = words (name :: outer) ++ [word] := by
  simp [words, Dotted.last_inside name plain.1]

theorem Spelled.member {package name word : String} {outer : List String}
    (h : Spelled package outer name) (plain : Plain word) :
    Spelled package (name :: outer) (name ++ "." ++ word) where
  unmarked := by simpa [String.toList_append, h.unmarked] using plain.2
  spelled := by
    have some : words (name :: outer) ≠ [] := by simp [words]
    rw [words_inside name outer plain, String.intercalate_append_of_ne_nil some (by simp), String.intercalate_singleton]
    conv => lhs; rw [h.spelled]
    exact Dotted.within_inside _ _ _

section

variable {good : String → Prop} {inv : List String → String → Prop}

mutual

/-- What every name hands on to the names of the types in it holds for all names in a type. -/
theorem nested_names {unit : SourceUnit}
    (step : ∀ outer name word, good word → inv outer name → inv (name :: outer) (name ++ "." ++ word)) :
    ∀ (d : TypeDecl) {outer : List String} {name : String},
    (∀ n ∈ Nodes.typeDecl d, ∀ i, n.ident? = some i → good i.text) → inv outer name →
    ∀ s ∈ nested unit outer name d, inv s.outer s.name ∧ s.unit = unit
  | ⟨kind, mods, ident, params, extending, implementing, permitting, components, constants, body, doc,
      range⟩, _, _, words, here, s, hs => by
    obtain rfl | hs := List.mem_cons.mp hs
    · exact ⟨here, rfl⟩
    · exact ofMembers_names step body (Nodes.ident_of_part (Nodes.members_part ⟨kind, mods, ident, params,
        extending, implementing, permitting, components, constants, body, doc, range⟩) words) here s hs

theorem ofMembers_names {unit : SourceUnit}
    (step : ∀ outer name word, good word → inv outer name → inv (name :: outer) (name ++ "." ++ word)) :
    ∀ (ms : List Member) {outer : List String} {name : String},
    (∀ n ∈ Nodes.members ms, ∀ i, n.ident? = some i → good i.text) → inv outer name →
    ∀ s ∈ ofMembers unit (name :: outer) name ms, inv s.outer s.name ∧ s.unit = unit
  | [], _, _, _, _, _, hs => by cases hs
  | .type d :: rest, outer, name, words, here, s, hs => by
    have first : ∀ n ∈ Nodes.typeDecl d, ∀ i, n.ident? = some i → good i.text :=
      fun n hn => words n (List.mem_append_left _ hn)
    obtain hs | hs := List.mem_append.mp hs
    · exact nested_names step d first (step outer name _ (first _ (Nodes.name_mem d) _ rfl) here) s hs
    · exact ofMembers_names step rest (fun n hn => words n (List.mem_append_right _ hn)) here s hs
  | .field _ _ _ :: rest, _, _, words, here, s, hs =>
    ofMembers_names step rest (fun n hn => words n (List.mem_append_right _ hn)) here s hs
  | .method _ :: rest, _, _, words, here, s, hs =>
    ofMembers_names step rest (fun n hn => words n (List.mem_append_right _ hn)) here s hs
  | .initializer _ _ :: rest, _, _, words, here, s, hs =>
    ofMembers_names step rest (fun n hn => words n (List.mem_append_right _ hn)) here s hs

end

end

mutual

/-- Whatever is declared in a type of a file is a type of the file. -/
theorem nested_inner {unit : SourceUnit} : ∀ (d : TypeDecl) {outer : List String} {name : String},
    ∀ s ∈ nested unit outer name d, ∀ inner ∈ ClassBody.typesOf s.decl.members,
      ∃ s' ∈ nested unit outer name d, s'.name = s.name ++ "." ++ inner.name.text ∧ s'.decl = inner
  | ⟨_, _, _, _, _, _, _, _, _, body, _, _⟩, _, _, s, hs, inner, hinner => by
    obtain rfl | hs := List.mem_cons.mp hs
    · obtain ⟨s', hs', found⟩ := ofMembers_has body inner hinner
      exact ⟨s', List.mem_cons_of_mem _ hs', found⟩
    · obtain ⟨s', hs', found⟩ := ofMembers_inner body s hs inner hinner
      exact ⟨s', List.mem_cons_of_mem _ hs', found⟩

theorem ofMembers_inner {unit : SourceUnit} : ∀ (ms : List Member) {outer : List String} {name : String},
    ∀ s ∈ ofMembers unit outer name ms, ∀ inner ∈ ClassBody.typesOf s.decl.members,
      ∃ s' ∈ ofMembers unit outer name ms, s'.name = s.name ++ "." ++ inner.name.text ∧ s'.decl = inner
  | [], _, _, _, hs, _, _ => by cases hs
  | .type d :: rest, _, _, s, hs, inner, hinner => by
    obtain hs | hs := List.mem_append.mp hs
    · obtain ⟨s', hs', found⟩ := nested_inner d s hs inner hinner
      exact ⟨s', List.mem_append_left _ hs', found⟩
    · obtain ⟨s', hs', found⟩ := ofMembers_inner rest s hs inner hinner
      exact ⟨s', List.mem_append_right _ hs', found⟩
  | .field _ _ _ :: rest, _, _, s, hs, inner, hinner => ofMembers_inner rest s hs inner hinner
  | .method _ :: rest, _, _, s, hs, inner, hinner => ofMembers_inner rest s hs inner hinner
  | .initializer _ _ :: rest, _, _, s, hs, inner, hinner => ofMembers_inner rest s hs inner hinner

theorem ofMembers_has {unit : SourceUnit} : ∀ (ms : List Member) {outer : List String} {name : String},
    ∀ inner ∈ ClassBody.typesOf ms,
      ∃ s ∈ ofMembers unit outer name ms, s.name = name ++ "." ++ inner.name.text ∧ s.decl = inner
  | [], _, _, _, hinner => nomatch hinner
  | .type ⟨kind, mods, ident, params, extending, implementing, permitting, components, constants, body,
      doc, range⟩ :: rest, _, _, inner, hinner => by
    obtain rfl | hinner := List.mem_cons.mp hinner
    · exact ⟨_, List.mem_append_left _ List.mem_cons_self, rfl, rfl⟩
    · obtain ⟨s, hs, found⟩ := ofMembers_has rest inner hinner
      exact ⟨s, List.mem_append_right _ hs, found⟩
  | .field _ _ _ :: rest, _, _, inner, hinner => ofMembers_has rest inner hinner
  | .method _ :: rest, _, _, inner, hinner => ofMembers_has rest inner hinner
  | .initializer _ _ :: rest, _, _, inner, hinner => ofMembers_has rest inner hinner

end

/-! The types of a file. -/

variable {u : SourceUnit} {s : Site}

theorem ofUnit_part (hs : s ∈ ofUnit u) : PartOf (Nodes.typeDecl s.decl) (Nodes.unit u.tree) := by
  obtain ⟨d, hd, hs⟩ := List.mem_flatMap.mp hs
  have top : ∀ ds : List TypeDecl, d ∈ ds → PartOf (Nodes.typeDecl d) (Nodes.topTypes ds) := by
    intro ds hd
    induction ds with
    | nil => cases hd
    | cons first ds ih =>
      obtain rfl | hd := List.mem_cons.mp hd
      · exact .of_subset fun _ hn => List.mem_append_left _ hn
      · exact (ih hd).trans (.of_subset fun _ hn => List.mem_append_right _ hn)
  refine (nested_part d s hs).trans ((top _ hd).trans (.of_subset fun _ hn => ?_))
  exact List.mem_append_right _ (List.mem_append_right _ hn)

theorem ofUnit_inner (hs : s ∈ ofUnit u) : ∀ inner ∈ ClassBody.typesOf s.decl.members,
    ∃ s' ∈ ofUnit u, s'.name = s.name ++ "." ++ inner.name.text ∧ s'.decl = inner := by
  intro inner hinner
  obtain ⟨d, hd, hs⟩ := List.mem_flatMap.mp hs
  obtain ⟨s', hs', found⟩ := nested_inner d s hs inner hinner
  exact ⟨s', List.mem_flatMap.mpr ⟨d, hd, hs'⟩, found⟩

theorem ofUnit_names {good : String → Prop} {inv : List String → String → Prop}
    (words : ∀ n ∈ Nodes.unit u.tree, ∀ i, n.ident? = some i → good i.text)
    (top : ∀ word, good word → inv [] (Dotted.within u.tree.packageName word))
    (step : ∀ outer name word, good word → inv outer name → inv (name :: outer) (name ++ "." ++ word))
    (hs : s ∈ ofUnit u) : inv s.outer s.name ∧ s.unit = u := by
  obtain ⟨d, hd, hs⟩ := List.mem_flatMap.mp hs
  have outermost : ⟨u, [], Dotted.within u.tree.packageName d.name.text, d⟩ ∈ ofUnit u := by
    refine List.mem_flatMap.mpr ⟨d, hd, ?_⟩
    cases d
    exact List.mem_cons_self
  have words := Nodes.ident_of_part (ofUnit_part outermost) words
  exact nested_names step d words (top _ (words _ (Nodes.name_mem d) _ rfl)) s hs

theorem ofUnit_spelled (worded : Worded (Nodes.unit u.tree))
    (package : ∀ p, u.tree.package = some p → ∀ i ∈ p.name, Plain i.text) (hs : s ∈ ofUnit u) :
    Spelled u.tree.packageName s.outer s.name ∧ s.unit = u := by
  refine ofUnit_names worded (fun word plain => ⟨?_, ?_⟩) (fun _ _ _ plain h => h.member plain) hs
  · have unmarked : '<' ∉ u.tree.packageName.toList := by
      cases named : u.tree.package with
      | none => simp [CompilationUnit.packageName, named]
      | some p => simpa [CompilationUnit.packageName, named] using Ident.dotted_unmarked (package p named)
    unfold Dotted.within
    split
    · exact plain.2
    · simpa [String.toList_append, unmarked] using plain.2
  · rw [words_top _ plain, String.intercalate_singleton]

end Site

end JavaIndex
