import JavaIndex.Symbol.Naming
import Mathlib.Data.List.Basic
import Mathlib.Data.List.TakeWhile
import Std.Data.String.ToNat

/-! The text of a symbol tells its path. Every step of a path shows where it ends, whatever characters its
name is made of, so that a text can be cut into steps in one way only. A name that holds the mark between
which other names stand cannot be told from two. -/
namespace JavaIndex

namespace Identifier

/-- May stand somewhere in an identifier. -/
def mayOccur (c : Char) : Bool := mayStart c || mayContinue c

theorem mayOccur_of_isIdentifier {word : String} (spelled : isIdentifier word = true) :
    ∀ c ∈ word.toList, mayOccur c = true := by
  unfold isIdentifier at spelled
  intro c hc
  cases letters : word.toList with
  | nil => simp [letters] at hc
  | cons first rest =>
    simp only [letters, isSpelledBy, Bool.and_eq_true, List.all_eq_true] at spelled
    rw [letters] at hc
    rcases List.mem_cons.mp hc with rfl | hc
    · simp [mayOccur, spelled.1]
    · simp [mayOccur, spelled.2 c hc]

theorem ne_nil_of_isIdentifier {word : String} (spelled : isIdentifier word = true) : word.toList ≠ [] := by
  intro empty
  simp [isIdentifier, empty, isSpelledBy] at spelled

end Identifier

namespace Lists

/-- The first character that fails a test parts a text in one way. -/
theorem append_inj_of_stop {α : Type} {p : α → Bool} {xs ys rest rest' : List α} {x y : α}
    (inside : ∀ a ∈ xs, p a = true) (inside' : ∀ a ∈ ys, p a = true) (stop : p x = false)
    (stop' : p y = false) (same : xs ++ x :: rest = ys ++ y :: rest') : xs = ys ∧ x :: rest = y :: rest' := by
  have cut (zs more : List α) (z : α) (h : ∀ a ∈ zs, p a = true) (hz : p z = false) :
      (zs ++ z :: more).takeWhile p = zs := by
    rw [List.takeWhile_append_of_pos h, List.takeWhile_cons_of_neg (by simp [hz]), List.append_nil]
  have front : xs = ys := by
    rw [← cut xs rest x inside stop, same, cut ys rest' y inside' stop']
  subst front
  exact ⟨rfl, List.append_cancel_left same⟩

end Lists

namespace Descriptor

/-- The mark between which names stand that are no identifiers. -/
def mark : Char := '\x60'

/-- The name can be shown between marks. -/
def Markless (name : String) : Prop := mark ∉ name.toList

instance (name : String) : Decidable (Markless name) := inferInstanceAs (Decidable (mark ∉ name.toList))

/-- The number of a method as its text shows it; the first of its name shows none. -/
def overloadText : Nat → List Char
  | 0 => [')', '.']
  | n + 1 => '+' :: ((toString (n + 1)).toList ++ [')', '.'])

/-- What follows the name in the text of a step. -/
def ending : Descriptor → List Char
  | .package _ => ['/']
  | .type _ => ['#']
  | .term _ => ['.']
  | .method _ overload => '(' :: overloadText overload
  | .typeParameter _ => [']']
  | .local _ => []

/-- What stands before the name in the text of a step. -/
def opening : Descriptor → List Char
  | .typeParameter _ => ['[']
  | _ => []

/-- The step is one outside all bodies. -/
def isNamed : Descriptor → Bool
  | .local _ => false
  | _ => true

variable {d e : Descriptor} {name other : String}

theorem toList_text (named : d.isNamed = true) :
    d.text.toList = d.opening ++ (quoted d.name).toList ++ d.ending := by
  cases d with
  | method name overload =>
    cases overload <;>
      simp [text, opening, ending, overloadText, Descriptor.name, String.toList_append]
  | «local» number => cases named
  | _ => simp [text, opening, ending, Descriptor.name, String.toList_append]

theorem toList_quoted (name : String) : (quoted name).toList =
    if Identifier.isIdentifier name then name.toList else mark :: (name.toList ++ [mark]) := by
  unfold quoted
  split
  · rfl
  · simp [String.toList_append, mark]

/-- A quoted name begins with a letter of an identifier or with the mark. -/
theorem head_quoted (name : String) : ∃ c rest, (quoted name).toList = c :: rest ∧
    (Identifier.mayOccur c = true ∨ c = mark) := by
  rw [toList_quoted]
  split
  · rename_i spelled
    cases letters : name.toList with
    | nil => exact absurd letters (Identifier.ne_nil_of_isIdentifier spelled)
    | cons c rest =>
      exact ⟨c, rest, rfl, .inl (Identifier.mayOccur_of_isIdentifier spelled c (by simp [letters]))⟩
  · exact ⟨mark, _, rfl, .inr rfl⟩

theorem mark_stops : Identifier.mayOccur mark = false := by decide

/-- A quoted name ends where something follows that is not part of a name. -/
theorem quoted_append_inj {x y : Char} {rest rest' : List Char} (plain : Markless name)
    (plain' : Markless other) (stop : Identifier.mayOccur x = false) (stop' : Identifier.mayOccur y = false)
    (same : (quoted name).toList ++ x :: rest = (quoted other).toList ++ y :: rest') :
    name = other ∧ x :: rest = y :: rest' := by
  rw [toList_quoted, toList_quoted] at same
  split at same <;> split at same
  · -- both names stand for themselves
    rename_i spelled spelled'
    obtain ⟨names, rest⟩ := Lists.append_inj_of_stop (Identifier.mayOccur_of_isIdentifier spelled)
      (Identifier.mayOccur_of_isIdentifier spelled') stop stop' same
    exact ⟨String.toList_inj.mp names, rest⟩
  · rename_i spelled _
    cases letters : name.toList with
    | nil => exact absurd letters (Identifier.ne_nil_of_isIdentifier spelled)
    | cons c more =>
      have first := Identifier.mayOccur_of_isIdentifier spelled c (by simp [letters])
      simp only [letters, List.cons_append, List.cons.injEq] at same
      rw [same.1, mark_stops] at first
      cases first
  · rename_i _ spelled
    cases letters : other.toList with
    | nil => exact absurd letters (Identifier.ne_nil_of_isIdentifier spelled)
    | cons c more =>
      have first := Identifier.mayOccur_of_isIdentifier spelled c (by simp [letters])
      simp only [letters, List.cons_append, List.cons.injEq] at same
      rw [← same.1, mark_stops] at first
      cases first
  · -- both names stand between marks, and hold none
    have free (word : String) (h : Markless word) : ∀ c ∈ word.toList, (c != mark) = true := by
      intro c hc
      exact bne_iff_ne.mpr fun here => h (here ▸ hc)
    simp only [List.cons_append, List.append_assoc, List.cons.injEq, true_and, List.nil_append] at same
    obtain ⟨names, rest⟩ := Lists.append_inj_of_stop (p := (· != mark)) (free name plain)
      (free other plain') (by simp) (by simp) same
    exact ⟨String.toList_inj.mp names, (List.cons.inj rest).2⟩

/-- What follows a name begins with a sign that no name holds. -/
theorem ending_cons (named : d.isNamed = true) : ∃ c rest, d.ending = c :: rest ∧
    Identifier.mayOccur c = false := by
  cases d with
  | package name => exact ⟨'/', _, rfl, by decide⟩
  | type name => exact ⟨'#', _, rfl, by decide⟩
  | term name => exact ⟨'.', _, rfl, by decide⟩
  | method name overload => exact ⟨'(', _, rfl, by decide⟩
  | typeParameter name => exact ⟨']', _, rfl, by decide⟩
  | «local» number => cases named

theorem isDigit_of_mem_toString {n : Nat} {c : Char} (inside : c ∈ (toString n).toList) : c.isDigit = true :=
  Nat.isDigit_of_mem_toDigits (b := 10) (by decide) (by decide) (by simpa [Nat.repr] using inside)

theorem digits_append_inj {n m : Nat} {rest rest' : List Char}
    (same : (toString n).toList ++ ')' :: rest = (toString m).toList ++ ')' :: rest') :
    n = m ∧ rest = rest' := by
  obtain ⟨numbers, rest⟩ := Lists.append_inj_of_stop (p := Char.isDigit) (fun _ => isDigit_of_mem_toString)
    (fun _ => isDigit_of_mem_toString) (by decide) (by decide) same
  exact ⟨Nat.repr_inj.mp (String.toList_inj.mp numbers), (List.cons.inj rest).2⟩

theorem overloadText_append_inj {i j : Nat} {rest rest' : List Char}
    (same : overloadText i ++ rest = overloadText j ++ rest') : i = j ∧ rest = rest' := by
  cases i with
  | zero =>
    cases j with
    | zero => exact ⟨rfl, by simpa [overloadText] using same⟩
    | succ j => simp [overloadText] at same
  | succ i =>
    cases j with
    | zero => simp [overloadText] at same
    | succ j =>
      simp only [overloadText, List.cons_append, List.cons.injEq, true_and, List.append_assoc] at same
      obtain ⟨numbers, tails⟩ := digits_append_inj same
      exact ⟨numbers, (List.cons.inj tails).2⟩

/-- Steps of one name are told apart by what follows the name. -/
theorem ending_append_inj {rest rest' : List Char} (named : d.isNamed = true) (named' : e.isNamed = true)
    (names : d.name = e.name) (same : d.ending ++ rest = e.ending ++ rest') : d = e ∧ rest = rest' := by
  cases d with
  | method n i =>
    cases e with
    | method m j =>
      obtain ⟨numbers, tails⟩ := overloadText_append_inj (List.cons.inj same).2
      exact ⟨by rw [numbers, show n = m from names], tails⟩
    | _ => simp_all [ending, isNamed]
  | _ => cases e <;> simp_all [ending, isNamed, Descriptor.name]

theorem opening_eq (d : Descriptor) : d.opening = [] ∨ d.opening = ['['] := by
  cases d <;> simp [opening]

/-- A bracket before a name shows, as no name begins with one. -/
theorem opening_append_inj {rest rest' : List Char}
    (same : d.opening ++ (quoted name).toList ++ rest = e.opening ++ (quoted other).toList ++ rest') :
    (quoted name).toList ++ rest = (quoted other).toList ++ rest' := by
  have bracket : Identifier.mayOccur '[' = false ∧ '[' ≠ mark := by decide
  have apart (word : String) (more more' : List Char) :
      (quoted word).toList ++ more ≠ '[' :: more' := by
    intro same
    obtain ⟨c, rest, letters, first⟩ := head_quoted word
    rw [letters] at same
    obtain rfl := (List.cons.inj same).1
    rcases first with occurs | isMark
    · rw [bracket.1] at occurs
      cases occurs
    · exact bracket.2 isMark
  rcases d.opening_eq with none | some <;> rcases e.opening_eq with none' | some'
  · simpa [none, none'] using same
  · rw [none, some'] at same
    exact absurd same (apart _ _ _)
  · rw [some, none'] at same
    exact absurd same.symm (apart _ _ _)
  · simpa [some, some'] using same

/-- A step shows where it ends. -/
theorem text_append_inj {rest rest' : List Char} (named : d.isNamed = true) (named' : e.isNamed = true)
    (plain : Markless d.name) (plain' : Markless e.name)
    (same : d.text.toList ++ rest = e.text.toList ++ rest') : d = e ∧ rest = rest' := by
  rw [toList_text named, toList_text named', List.append_assoc, List.append_assoc (_ ++ _)] at same
  have shown := opening_append_inj same
  obtain ⟨x, more, ends, stop⟩ := ending_cons named
  obtain ⟨y, more', ends', stop'⟩ := ending_cons named'
  rw [ends, ends', List.cons_append, List.cons_append] at shown
  obtain ⟨names, tails⟩ := quoted_append_inj plain plain' stop stop' shown
  rw [← List.cons_append, ← List.cons_append, ← ends, ← ends'] at tails
  exact ending_append_inj named named' names tails

theorem text_ne_nil (named : d.isNamed = true) : d.text.toList ≠ [] := by
  obtain ⟨c, rest, ends, -⟩ := ending_cons named
  rw [toList_text named, ends]
  simp

/-- The signs with which the texts of named steps end. -/
def closers : List Char := ['/', '#', '.', ']']

theorem ending_snoc (named : d.isNamed = true) : ∃ front, ∃ c ∈ closers, d.ending = front ++ [c] := by
  cases d with
  | package name => exact ⟨[], '/', by decide, rfl⟩
  | type name => exact ⟨[], '#', by decide, rfl⟩
  | term name => exact ⟨[], '.', by decide, rfl⟩
  | method name overload =>
    cases overload with
    | zero => exact ⟨['(', ')'], '.', by decide, rfl⟩
    | succ n =>
      exact ⟨'(' :: '+' :: ((toString (n + 1)).toList ++ [')']), '.', by decide,
        by simp [ending, overloadText]⟩
  | typeParameter name => exact ⟨[], ']', by decide, rfl⟩
  | «local» number => cases named

theorem text_snoc (named : d.isNamed = true) : ∃ front, ∃ c ∈ closers, d.text.toList = front ++ [c] := by
  obtain ⟨front, c, closes, ends⟩ := ending_snoc named
  exact ⟨d.opening ++ (quoted d.name).toList ++ front, c, closes, by simp [toList_text named, ends]⟩

/-- The text of a local declaration ends with a digit, and so with none of the signs. -/
theorem localText_snoc (number : Nat) :
    ∃ front, ∃ c, c ∉ closers ∧ (localText number).toList = front ++ [c] := by
  have digits : (toString number).toList ≠ [] := by
    intro none
    simp [Nat.repr] at none
  let final := (toString number).toList.getLast digits
  have last : final.isDigit = true := isDigit_of_mem_toString (List.getLast_mem digits)
  refine ⟨"local".toList ++ (toString number).toList.dropLast, final, ?_, ?_⟩
  · intro closes
    have signs : closers.any Char.isDigit = false := by decide
    exact List.any_eq_false.mp signs final closes last
  · rw [localText, String.toList_append, List.append_assoc, List.dropLast_append_getLast]

end Descriptor

namespace SymbolId

/-- The text of steps one after the other. -/
def pathText (path : List Descriptor) : List Char := path.flatMap fun d => d.text.toList

/-- All steps are named, and no name holds the mark. -/
structure Legible (path : List Descriptor) : Prop where
  named : ∀ d ∈ path, d.isNamed = true
  plain : ∀ d ∈ path, Descriptor.Markless d.name

theorem Legible.tail {d : Descriptor} {path : List Descriptor} (h : Legible (d :: path)) : Legible path :=
  ⟨fun e he => h.named e (.tail d he), fun e he => h.plain e (.tail d he)⟩

/-- A text can be cut into steps in one way only. -/
theorem pathText_injective {path path' : List Descriptor} (legible : Legible path) (legible' : Legible path')
    (same : pathText path = pathText path') : path = path' := by
  induction path generalizing path' with
  | nil =>
    cases path' with
    | nil => rfl
    | cons e more =>
      have shown := Descriptor.text_ne_nil (legible'.named e List.mem_cons_self)
      exact absurd (List.append_eq_nil_iff.mp same.symm).1 shown
  | cons d rest ih =>
    cases path' with
    | nil =>
      have shown := Descriptor.text_ne_nil (legible.named d List.mem_cons_self)
      exact absurd (List.append_eq_nil_iff.mp same).1 shown
    | cons e more =>
      obtain ⟨first, tails⟩ := Descriptor.text_append_inj (legible.named d List.mem_cons_self)
        (legible'.named e List.mem_cons_self) (legible.plain d List.mem_cons_self)
        (legible'.plain e List.mem_cons_self) same
      rw [first, ih legible.tail legible'.tail tails]

theorem pathText_snoc {path : List Descriptor} (named : ∀ d ∈ path, d.isNamed = true) :
    pathText path = [] ∨ ∃ front, ∃ c ∈ Descriptor.closers, pathText path = front ++ [c] := by
  rcases List.eq_nil_or_concat path with rfl | ⟨before, d, rfl⟩
  · exact .inl rfl
  · obtain ⟨front, c, closes, text⟩ := Descriptor.text_snoc (named d (by simp))
    exact .inr ⟨pathText before ++ front, c, closes, by simp [pathText, text]⟩

theorem toList_join (texts : List String) : (String.join texts).toList = texts.flatMap String.toList := by
  induction texts with
  | nil => rfl
  | cons t rest ih => simp [String.join_cons, String.toList_append, ih]

theorem toList_text {s : SymbolId} (outside : s.scheme ≠ .local) : s.text.toList = pathText s.path := by
  have joined : s.text = String.join (s.path.map Descriptor.text) := by
    unfold text
    split
    · rename_i inside _
      exact absurd inside outside
    · rfl
  rw [joined, toList_join, List.flatMap_map]
  rfl

end SymbolId

namespace Symbol

/-- The symbol is reached from a package by naming one declaration inside another. -/
inductive Built : Symbol → Prop
  | root {name : String} {scheme : Scheme} {s : Symbol}
      (named : ofDeclaration (.package name scheme) none = .ok s) : Built s
  | inside {owner s : Symbol} {decl : Declaration} (built : Built owner)
      (named : ofDeclaration decl (some owner) = .ok s) : Built s

theorem named_of_ofDeclaration {decl : Declaration} {owner : Option Symbol} {s : Symbol}
    (made : ofDeclaration decl owner = .ok s) : named decl owner = .ok s := by
  unfold ofDeclaration at made
  split at made
  · rename_i named
    rw [named, Except.ok.inj made]
  · cases made

/-- What can be named inside an owner: a package in a package, something in a body, or a single step
further outside all bodies. -/
theorem built_inside {owner s : Symbol} {decl : Declaration} (made : ofDeclaration decl (some owner) = .ok s) :
    (∃ name, s = ⟨⟨owner.scheme, owner.path ++ (Dotted.steps name).map .package⟩, .package⟩) ∨
    (∃ number kind, s = ⟨⟨.local, owner.path ++ [.local number]⟩, kind⟩) ∨
    (owner.isLocal = false ∧ ∃ step kind, step.isNamed = true ∧ s = owner.child step kind) := by
  have named := named_of_ofDeclaration made
  cases decl with
  | package name scheme =>
    simp only [Symbol.named] at named
    split at named
    · cases named
    · exact .inl ⟨name, (Except.ok.inj named).symm⟩
  | «local» number kind =>
    simp only [Symbol.named] at named
    split at named
    · cases named
    · exact .inr (.inl ⟨number, kind, (Except.ok.inj named).symm⟩)
  | _ =>
    -- every other declaration is refused in a body, and is one step further elsewhere
    simp only [Symbol.named] at named
    split at named
    · cases named
    · rename_i outside
      refine .inr (.inr ⟨by simpa using outside, ?_⟩)
      repeat' split at named
      all_goals first
        | contradiction
        | exact ⟨_, _, rfl, (Except.ok.inj named).symm⟩

theorem Built.named {s : Symbol} (built : s.Built) (outside : s.scheme ≠ .local) :
    ∀ d ∈ s.path, d.isNamed = true := by
  induction built with
  | root named =>
    cases named
    intro d hd
    obtain ⟨step, -, rfl⟩ := List.mem_map.mp hd
    rfl
  | inside _ named ih =>
    obtain ⟨name, rfl⟩ | ⟨number, kind, rfl⟩ | ⟨around, step, kind, fresh, rfl⟩ := built_inside named
    · intro d hd
      rcases List.mem_append.mp hd with before | here
      · exact ih outside d before
      · obtain ⟨step, -, rfl⟩ := List.mem_map.mp here
        rfl
    · exact absurd rfl outside
    · intro d hd
      rcases List.mem_append.mp hd with before | here
      · exact ih outside d before
      · rwa [List.mem_singleton.mp here]

/-- No name on the way to the symbol holds the mark between which names are shown. -/
def Markless (s : Symbol) : Prop := ∀ d ∈ s.path, Descriptor.Markless d.name

instance (s : Symbol) : Decidable s.Markless :=
  inferInstanceAs (Decidable (∀ d ∈ s.path, Descriptor.Markless d.name))

theorem Built.legible {s : Symbol} (built : s.Built) (outside : s.scheme ≠ .local) (plain : s.Markless) :
    SymbolId.Legible s.path :=
  ⟨built.named outside, plain⟩

theorem local_text {number : Nat} {kind : SymbolKind} {owner : Option Symbol} {l : Symbol}
    (made : ofDeclaration (.local number kind) owner = .ok l) : l.text = Descriptor.localText number := by
  have named := named_of_ofDeclaration made
  cases owner with
  | none => cases named
  | some owner =>
    simp only [Symbol.named] at named
    split at named
    · cases named
    · cases named
      simp [text, SymbolId.text]

/-- Texts of symbols outside all bodies tell the paths, and no local declaration has such a text. -/
theorem text_tells_path :
    (∀ a b : Symbol, a.Built → b.Built → a.scheme = b.scheme → a.scheme ≠ .local →
      a.Markless → b.Markless → a.text = b.text → a.path = b.path) ∧
    ∀ (number : Nat) (kind : SymbolKind) (owner : Option Symbol) (l s : Symbol),
      ofDeclaration (.local number kind) owner = .ok l → s.Built → s.scheme ≠ .local →
        l.text ≠ s.text := by
  constructor
  · intro a b builtA builtB same outside plainA plainB texts
    have outside' : b.scheme ≠ .local := same ▸ outside
    apply SymbolId.pathText_injective (builtA.legible outside plainA) (builtB.legible outside' plainB)
    change SymbolId.pathText a.id.path = SymbolId.pathText b.id.path
    rw [← SymbolId.toList_text outside, ← SymbolId.toList_text outside']
    exact congrArg String.toList texts
  · intro number kind owner l s named built outside texts
    rw [local_text named] at texts
    have letters : (Descriptor.localText number).toList = SymbolId.pathText s.path := by
      rw [texts]
      exact SymbolId.toList_text outside
    obtain ⟨front, c, unclosed, text⟩ := Descriptor.localText_snoc number
    rw [text] at letters
    rcases SymbolId.pathText_snoc (built.named outside) with none | ⟨front', c', closes, text'⟩
    · simp [none] at letters
    · rw [text'] at letters
      obtain ⟨-, same⟩ := List.append_inj' letters rfl
      exact unclosed ((List.cons.inj same).1 ▸ closes)

/-- Two constructors that have one text, and a parameter of one of them. -/
theorem constructor_text_tells_path :
    ∃ a b l : Symbol, a.kind = .constructor ∧ a.Built ∧ b.Built ∧ a.Markless ∧ b.Markless ∧
      a.text = "p/C#\x60<init>\x60(+1)." ∧ b.text = a.text ∧ a.path = b.path ∧
      ofDeclaration (.local 0 .parameter) (some a) = .ok l ∧ l.text ≠ a.text := by
  let inside (kind : SymbolKind) : Symbol := ⟨⟨.project, [.package "p", .type "C"]⟩, kind⟩
  let a : Symbol := (inside .classType).child (.method constructorName 1) .constructor
  let b : Symbol := (inside .enumType).child (.method constructorName 1) .constructor
  let l : Symbol := ⟨⟨.local, a.path ++ [.local 0]⟩, .parameter⟩
  have package : (Symbol.package "p" .project).Built := @Built.root "p" .project _ rfl
  have builtIn (kind : SymbolKind)
      (made : ofDeclaration (.type "C" kind) (some (Symbol.package "p" .project)) = .ok (inside kind)) :
      (inside kind).Built := .inside package made
  have builtA : a.Built := @Built.inside _ _ (.constructor 1) (builtIn .classType rfl) rfl
  have builtB : b.Built := @Built.inside _ _ (.constructor 1) (builtIn .enumType rfl) rfl
  have plain : a.Markless := by decide +kernel
  have texts : a.text = b.text := rfl
  refine ⟨a, b, l, rfl, builtA, builtB, plain, plain, by decide +kernel, rfl, ?_, rfl, ?_⟩
  · exact text_tells_path.1 a b builtA builtB rfl (by decide) plain plain texts
  · exact text_tells_path.2 0 .parameter (some a) l a rfl builtA (by decide)

end Symbol
end JavaIndex
