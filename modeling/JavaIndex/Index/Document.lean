import JavaIndex.Index.Emission
import JavaIndex.Json.Printer

/-! The index of a file as a JSON document. -/
namespace JavaIndex

namespace Json

/-- Null for nothing. -/
def ofOption (f : α → Json) : Option α → Json
  | some x => f x
  | none => .null

/-- A position. -/
def ofPosition (p : Position) : Json := .record [("line", .nat p.line), ("col", .nat p.column)]

/-- A region. -/
def ofRegion (r : Region) : Json :=
  .record [("start", ofPosition r.start), ("end", ofPosition r.stop)]

/-- A symbol as its text. -/
def ofSymbol (s : Symbol) : Json := .text s.text

/-- The documentation of a definition. -/
def ofDocumentation (d : Documentation) : Json :=
  .record [("signature", .text d.signature), ("comment", ofOption .text d.comment)]

/-- A mention. -/
def ofOccurrence (o : Occurrence) : Json := .record [
  ("range", ofRegion o.region),
  ("symbol", ofSymbol o.symbol),
  ("role", .text o.role.word),
  ("enclosing_symbol", ofOption ofSymbol o.enclosing),
  ("documentation", ofOption ofDocumentation o.documentation)]

/-- What is known of a symbol. -/
def ofSymbolInfo (i : SymbolInfo) : Json := .record [
  ("symbol", ofSymbol i.symbol),
  ("kind", .text i.symbol.kind.code),
  ("display_name", .text i.displayName),
  ("signature", ofOption .text i.signature),
  ("overrides", .array (i.overrides.map ofSymbol))]

/-- A diagnostic. -/
def ofDiagnostic (d : Diagnostic) : Json := .record [
  ("file", .nat d.file),
  ("range", ofRegion d.region),
  ("severity", .text d.problem.severity.word),
  ("code", .text d.problem.code.text),
  ("message", .text d.problem.message)]

end Json

namespace UnitIndex

/-- The whole index. -/
def toJson (u : UnitIndex) : Json := .record [
  ("file", .nat u.file),
  ("occurrences", .array (u.occurrences.map Json.ofOccurrence)),
  ("symbols", .array (u.symbols.map Json.ofSymbolInfo)),
  ("diagnostics", .array (u.diagnostics.map Json.ofDiagnostic))]

/-- The text of the document. -/
def document (u : UnitIndex) : String := u.toJson.pretty

end UnitIndex
end JavaIndex
