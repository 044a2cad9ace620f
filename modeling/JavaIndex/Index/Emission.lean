import JavaIndex.Index.Diagnostic

/-! How the index of a file comes about. Mentions are noted in the order in which the file is walked; at
the end they are sorted, mentions noted twice are kept once, each symbol keeps the documentation of one
definition, and mentions that overlap in part are reported. -/
namespace JavaIndex

/-- What has been noted, the latest first. -/
structure Emission where
  occurrences : List Occurrence
  infos : List SymbolInfo
deriving Inhabited

namespace Emission

/-- Nothing noted. -/
def empty : Emission := ⟨[], []⟩

/-- One more mention. -/
def emit (e : Emission) (o : Occurrence) : Emission :=
  { e with occurrences := o :: e.occurrences }

/-- One more use of a symbol. -/
def reference (e : Emission) (region : Region) (symbol : Symbol) (enclosing : Option Symbol) :
    Emission :=
  e.emit ⟨region, symbol, .reference, enclosing, none⟩

/-- What is known of a symbol. What was noted first stays. -/
def note (e : Emission) (info : SymbolInfo) : Emission :=
  if e.infos.any fun i => i.symbol == info.symbol then e
  else { e with infos := info :: e.infos }

/-- How many mentions there are. -/
def size (e : Emission) : Nat := e.occurrences.length

/-- By start, then definitions first, then the longer first, then by the symbol's text. -/
def order (a b : Occurrence × String) : Ordering :=
  (compare a.1.region.start b.1.region.start).then <|
    (compare a.1.role.rank b.1.role.rank).then <|
      (compare b.1.region.stop a.1.region.stop).then (compare a.2 b.2)

/-- The mentions in order. -/
def sorted (os : List Occurrence) : List Occurrence :=
  ((os.map fun o => (o, o.symbol.text)).mergeSort fun a b => (order a b).isLE).map Prod.fst

/-- Without the mentions that repeat the one before. -/
def distinct : List Occurrence → List Occurrence
  | [] => []
  | o :: os =>
    match distinct os with
    | [] => [o]
    | p :: ps => if o.repeats p then o :: ps else o :: p :: ps

/-- Documentation stays with the first documented definition of each symbol. -/
def documentOnce (seen : List SymbolId) : List Occurrence → List Occurrence
  | [] => []
  | o :: os =>
    if o.isDefinition && o.documentation.isSome && !seen.contains o.symbol.id then
      o :: documentOnce (o.symbol.id :: seen) os
    else { o with documentation := none } :: documentOnce seen os

/-- The pairs of mentions that overlap in part, the later one first, in the order of the earlier one. -/
def crossings : List Occurrence → List (Region × Region)
  | [] => []
  | a :: os =>
    ((os.takeWhile fun b => b.region.start.before a.region.stop).filter fun b =>
        a.region.crosses b.region).map (fun b => (b.region, a.region))
      ++ crossings os

/-- What is known of the symbols, in the order of their texts. -/
def sortedInfos (infos : List SymbolInfo) : List SymbolInfo :=
  ((infos.map fun i => (i, i.symbol.text)).mergeSort fun a b => (compare a.2 b.2).isLE).map Prod.fst

/-- The mentions as the index shows them. -/
def finalOccurrences (e : Emission) : List Occurrence :=
  documentOnce [] (distinct (sorted e.occurrences.reverse))

/-- What is known of the symbols, as the index shows it. -/
def finalInfos (e : Emission) : List SymbolInfo := sortedInfos e.infos.reverse

/-- The overlaps to report. -/
def overlaps (e : Emission) : List (Region × Region) := crossings (finalOccurrences e)

end Emission

/-- Everything found out about one file. -/
structure UnitIndex where
  file : FileId
  occurrences : List Occurrence
  symbols : List SymbolInfo
  diagnostics : List Diagnostic
deriving Inhabited

namespace UnitIndex

/-- The index of a file, from what was noted and the problems found on the way, in their order. -/
def ofEmission (file : FileId) (e : Emission) (problems : List Diagnostic) : UnitIndex :=
  let overlapping := e.overlaps.map fun (later, earlier) =>
    (⟨file, later, .overlapping later earlier⟩ : Diagnostic)
  ⟨file, e.finalOccurrences, e.finalInfos, Diagnostic.sorted (problems ++ overlapping)⟩

/-- The mentions that declare. -/
def definitions (u : UnitIndex) : List Occurrence := u.occurrences.filter Occurrence.isDefinition

/-- The mentions that use. -/
def references (u : UnitIndex) : List Occurrence := u.occurrences.filter (!·.isDefinition)

/-- The mentions of a symbol. -/
def occurrencesOf (u : UnitIndex) (s : Symbol) : List Occurrence :=
  u.occurrences.filter fun o => o.symbol == s

/-- Where a symbol is declared. -/
def definitionOf? (u : UnitIndex) (s : Symbol) : Option Occurrence :=
  u.definitions.find? fun o => o.symbol == s

/-- What is known of a symbol. -/
def info? (u : UnitIndex) (s : Symbol) : Option SymbolInfo :=
  u.symbols.find? fun i => i.symbol == s

/-- The mentions that begin on a line. -/
def onLine (u : UnitIndex) (line : Nat) : List Occurrence :=
  u.occurrences.filter fun o => o.region.start.line == line

end UnitIndex
end JavaIndex
