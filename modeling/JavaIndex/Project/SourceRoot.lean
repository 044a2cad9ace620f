import JavaIndex.Project.FileId
import JavaIndex.Project.Path

/-! The source files of one run. A file keeps the number that it got when its path was first put in, and
its path keeps the spelling of that time. -/
namespace JavaIndex

/-- A source file. -/
structure SourceFile where
  path : String
  text : String
deriving DecidableEq, Repr, Inhabited

/-- Source files, each under its place in the list as its number. -/
structure SourceRoot where
  files : List SourceFile
deriving DecidableEq, Repr, Inhabited

namespace SourceRoot

/-- No files. -/
def empty : SourceRoot := ⟨[]⟩

/-- The number of the file of a path. -/
def fileId? (r : SourceRoot) (path : String) : Option FileId :=
  r.files.findIdx? fun f => Path.same f.path path

/-- One more file, or another text for the file of that path, and the number of the file. -/
def insert (r : SourceRoot) (path text : String) : FileId × SourceRoot :=
  match r.fileId? path with
  | some id => (id, ⟨r.files.modify id fun f => { f with text }⟩)
  | none => (r.files.length, ⟨r.files ++ [⟨path, text⟩]⟩)

/-- Files put in one after the other. -/
def ofList (files : List (String × String)) : SourceRoot :=
  files.foldl (fun r (path, text) => (r.insert path text).2) empty

/-- The file of a number. -/
def get? (r : SourceRoot) (id : FileId) : Option SourceFile := r.files[id]?

/-- The path of a file, as it was first spelled. -/
def path? (r : SourceRoot) (id : FileId) : Option String := (r.get? id).map SourceFile.path

/-- The text of a file. -/
def text? (r : SourceRoot) (id : FileId) : Option String := (r.get? id).map SourceFile.text

/-- There is a file of that number. -/
def contains (r : SourceRoot) (id : FileId) : Bool := (r.get? id).isSome

/-- How many files there are. -/
def size (r : SourceRoot) : Nat := r.files.length

/-- The files with their numbers, in the order of the numbers. -/
def toList (r : SourceRoot) : List (FileId × SourceFile) := r.files.zipIdx.map fun (f, id) => (id, f)

end SourceRoot
end JavaIndex
