import JavaIndex.Classpath.Table
import JavaIndex.Project.Classes

/-! All classes that a file can mention: those declared in its own bodies, those of the project, and those
of libraries. A class of the project hides a class of a library that has its name. -/
namespace JavaIndex

/-- The classes and packages known at some point of a file. -/
structure Environment where
  /-- The classes declared in bodies so far, under names that no program can write. -/
  locals : Std.TreeMap String ClassInfo
  project : ProjectClasses
  external : ExternalTable
deriving Inhabited

namespace Environment

/-- What is known before any body has been read. -/
def start (project : ProjectClasses) (external : ExternalTable) : Environment :=
  ⟨∅, project, external⟩

/-- The class of a name. -/
def class? (env : Environment) (name : String) : Option ClassInfo :=
  (env.locals[name]?.or (env.project.class? name)).or (env.external.class? name)

/-- One more class declared in a body, or more about one that is known. -/
def addLocal (env : Environment) (c : ClassInfo) : Environment :=
  { env with locals := env.locals.insert c.qualifiedName c }

/-- The package exists. -/
def hasPackage (env : Environment) (package : String) : Bool :=
  env.project.hasPackage package || env.external.hasPackage package

/-- The symbol of a package. It belongs to the project if the project declares anything in it. -/
def packageSymbol (env : Environment) (package : String) : Symbol :=
  Symbol.package package (if env.project.hasPackage package then .project else .external)

/-- How many classes are listed; classes generated from resources are not. -/
def listedCount (env : Environment) : Nat :=
  env.locals.size + env.project.size + env.external.size

end Environment
end JavaIndex
