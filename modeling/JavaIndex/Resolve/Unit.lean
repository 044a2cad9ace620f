import JavaIndex.Project.Build
import JavaIndex.Resolve.Walk

/-! The index of one file, from its tree and everything that is known outside it. -/
namespace JavaIndex

namespace Resolve

/-- The declared types of a file. -/
def topTypes (package : String) : List TypeDecl → Resolve Unit
  | [] => return
  | d :: rest => do
    typeDecl (knownClass d (Dotted.within package d.name.text)) d
    topTypes package rest

/-- Each of the imports. -/
def importDecls : List ImportDecl → Resolve Unit
  | [] => return
  | i :: rest => do
    importDecl i
    importDecls rest

/-- A whole file: the annotations of its package, its imports, its types. -/
def unit (u : CompilationUnit) : Resolve Unit := do
  let package := u.packageName
  let symbol := (← environment).packageSymbol package
  withScopes (·.push .package (some symbol)) do
    match u.package with
    | some p => annotations p.annotations
    | none => pure ()
    importDecls u.imports
    topTypes package u.types

end Resolve

/-- What stays the same while a file is resolved. -/
def Setting.ofUnit (u : SourceUnit) (source : String) (config : Config) : Setting where
  file := u.file
  source := source
  lines := .ofText source
  config := config
  imports := .ofUnit u.tree config.implicitImports

/-- The state before anything is resolved. -/
def Progress.start (project : ProjectClasses) (external : ExternalTable) (config : Config) :
    Progress where
  scopes := []
  enclosing := []
  environment := .start project external
  typeParams := ∅
  classCount := 0
  ids := .start config.localNumbering
  emission := .empty
  problems := []

/-- The index of a file of a project. -/
def SourceUnit.index (u : SourceUnit) (source : String) (project : ProjectClasses)
    (external : ExternalTable) (config : Config) : UnitIndex :=
  let step := Resolve.unit u.tree
  let p := ((step.run (.ofUnit u source config)).run (.start project external config)).2
  .ofEmission u.file p.emission p.problems.reverse

end JavaIndex
