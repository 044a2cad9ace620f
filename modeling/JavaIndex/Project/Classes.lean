import JavaIndex.Classpath.ClassInfo
import Std.Data.TreeMap
import Std.Data.TreeSet

/-! The classes that the files of a project declare, by their qualified names, and its packages. -/
namespace JavaIndex

/-- What the files of a project declare. -/
structure ProjectClasses where
  classes : Std.TreeMap String ClassInfo
  /-- The packages of the files and the packages around them. -/
  packages : Std.TreeSet String
deriving Inhabited

namespace ProjectClasses

/-- A project without files. -/
def empty : ProjectClasses := ⟨∅, ∅⟩

/-- The class of a name. -/
def class? (p : ProjectClasses) (name : String) : Option ClassInfo := p.classes[name]?

/-- The package exists in the project. -/
def hasPackage (p : ProjectClasses) (package : String) : Bool := p.packages.contains package

/-- One more class, in place of an earlier one of its name. -/
def insert (p : ProjectClasses) (c : ClassInfo) : ProjectClasses :=
  { p with classes := p.classes.insert c.qualifiedName c }

/-- How many classes there are. -/
def size (p : ProjectClasses) : Nat := p.classes.size

/-- The classes that a file declares, in the order of their names. -/
def classesIn (p : ProjectClasses) (file : FileId) : List ClassInfo :=
  p.classes.values.filter fun c => c.origin == .project file

end ProjectClasses
end JavaIndex
