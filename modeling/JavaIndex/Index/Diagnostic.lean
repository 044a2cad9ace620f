import JavaIndex.Index.Occurrence
import JavaIndex.Symbol.Naming

/-! Problems found in a file that do not stop it from being indexed. -/
namespace JavaIndex

/-- How grave a problem is. -/
inductive Severity where
  | error
  | warning
  | info
deriving DecidableEq, Repr, Inhabited

namespace Severity

/-- The word for a severity. -/
def word : Severity → String
  | error => "error"
  | warning => "warning"
  | info => "info"

end Severity

/-- The sorts of problems. -/
inductive DiagnosticCode where
  /-- A name means nothing known. -/
  | unresolvedReference
  /-- Several methods fit a call equally well. -/
  | ambiguousOverload
  /-- A declaration stands where it cannot; it is passed over. -/
  | malformedContext
  /-- Two mentions overlap in part. -/
  | overlappingOccurrence
deriving DecidableEq, Repr, Inhabited

namespace DiagnosticCode

/-- The code that stays the same from release to release. -/
def text : DiagnosticCode → String
  | unresolvedReference => "J0001"
  | ambiguousOverload => "J0002"
  | malformedContext => "J0003"
  | overlappingOccurrence => "J0004"

end DiagnosticCode

/-- A problem. -/
inductive Problem where
  | unresolved (name : String)
  | ambiguous (name : String) (chosen : Symbol) (candidates : List Symbol)
  | malformed (error : NamingError)
  | overlapping (region other : Region)
  /-- Any other, in words. -/
  | stated (severity : Severity) (code : DiagnosticCode) (message : String)
deriving Repr, Inhabited

namespace Problem

/-- The sort of problem. -/
def code : Problem → DiagnosticCode
  | unresolved _ => .unresolvedReference
  | ambiguous _ _ _ => .ambiguousOverload
  | malformed _ => .malformedContext
  | overlapping _ _ => .overlappingOccurrence
  | stated _ code _ => code

/-- How grave it is. Names that are not known and calls that are not clear are no errors. -/
def severity : Problem → Severity
  | unresolved _ | ambiguous _ _ _ => .warning
  | malformed _ | overlapping _ _ => .error
  | stated severity _ _ => severity

/-- What a reader is told. -/
def message : Problem → String
  | unresolved name => "unresolved reference: '" ++ name ++ "'"
  | ambiguous name chosen candidates =>
    "ambiguous call to '" ++ name ++ "': chose " ++ chosen.text ++ " among "
      ++ ", ".intercalate (candidates.map Symbol.text)
  | malformed error => error.message
  | overlapping region other =>
    "occurrence " ++ region.raw ++ " partially overlaps " ++ other.raw
  | stated _ _ message => message

end Problem

/-- A problem and where it is. -/
structure Diagnostic where
  file : FileId
  region : Region
  problem : Problem
deriving Repr, Inhabited

namespace Diagnostic

/-- The diagnostic on one line, its place counted from one. -/
def shown (d : Diagnostic) : String :=
  d.problem.severity.word ++ "[" ++ d.problem.code.text ++ "] " ++ d.file.label ++ ":"
    ++ d.region.start.shown ++ ": " ++ d.problem.message

/-- How many of the diagnostics are of a severity. -/
def count (severity : Severity) (ds : List Diagnostic) : Nat :=
  ds.countP fun d => d.problem.severity == severity

/-- The diagnostics in the order of their places, and for one place in the order found. -/
def sorted (ds : List Diagnostic) : List Diagnostic :=
  ds.mergeSort fun a b => a.region.start.atMost b.region.start

end Diagnostic
end JavaIndex
