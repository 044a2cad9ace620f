import JavaIndex.Json.Decode

/-! What can be chosen for a run of the indexer. -/
namespace JavaIndex

/-- How local declarations are numbered. -/
inductive LocalNumbering where
  /-- One sequence for a whole source file. -/
  | perUnit
  /-- A new sequence for each method, constructor or initializer. -/
  | perMethod
deriving DecidableEq, Repr, Inhabited

namespace LocalNumbering

/-- The words for the two policies. -/
def words : List (String × LocalNumbering) := [("per-unit", perUnit), ("per-method", perMethod)]

/-- The word for a policy. -/
def word : LocalNumbering → String
  | perUnit => "per-unit"
  | perMethod => "per-method"

end LocalNumbering

/-- The choices for one run. -/
structure Config where
  /-- Packages that every file imports on demand. -/
  implicitImports : List String
  localNumbering : LocalNumbering
  /-- Definitions carry a signature and a comment. -/
  documentation : Bool
  /-- Names that mean nothing known are marked all the same. -/
  emitUnresolved : Bool
  threads : Nat
deriving DecidableEq, Repr, Inhabited

namespace Config

/-- What holds if nothing is chosen. -/
def standard : Config := ⟨["java.lang"], .perUnit, true, true, 0⟩

/-- The package is imported into every file, once. -/
def withImplicitImport (c : Config) (package : String) : Config :=
  if c.implicitImports.contains package then c
  else { c with implicitImports := c.implicitImports ++ [package] }

/-- The fields of a written configuration in their order. -/
def fieldNames : List String :=
  ["implicit_imports", "local_numbering", "documentation", "emit_unresolved", "threads"]

/-- The configuration that a document describes. -/
def ofJson? (j : Json) : Option Config := do
  match ← j.recordFields? fieldNames with
  | [imports, numbering, documentation, unresolved, threads] =>
    return {
      implicitImports := ← Json.fieldOr standard.implicitImports (Json.list? Json.text?) imports
      localNumbering :=
        ← Json.fieldOr standard.localNumbering (Json.choice? LocalNumbering.words) numbering
      documentation := ← Json.fieldOr standard.documentation Json.bool? documentation
      emitUnresolved := ← Json.fieldOr standard.emitUnresolved Json.bool? unresolved
      threads := ← Json.fieldOr standard.threads Json.word64? threads }
  | _ => none

/-- The document that describes the configuration. -/
def toJson (c : Config) : Json := .record [
  ("implicit_imports", .array (c.implicitImports.map Json.text)),
  ("local_numbering", .text c.localNumbering.word),
  ("documentation", .bool c.documentation),
  ("emit_unresolved", .bool c.emitUnresolved),
  ("threads", .nat c.threads)]

end Config
end JavaIndex
