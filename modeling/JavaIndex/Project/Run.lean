import JavaIndex.Parser.Unit
import JavaIndex.Project.SourceRoot
import JavaIndex.Resolve.Unit

/-! Runs over the files of a project. Every file that can be parsed is indexed against all others that can;
one that cannot stands for itself alone. -/
namespace JavaIndex

/-- Why what a path leads to cannot be read as a text, although it may be there. -/
inductive ReadFault where
  /-- It is a directory. -/
  | isDirectory
  /-- The path leads on from a file. -/
  | notDirectory
  /-- A name in the path is longer than a name can be. -/
  | nameTooLong
  /-- There is a null character in the path. -/
  | nullInPath
  /-- The file is not a text. -/
  | notText
deriving DecidableEq, Repr, Inhabited

/-- What a reader is told. -/
def ReadFault.message : ReadFault → String
  | isDirectory => "Is a directory (os error 21)"
  | notDirectory => "Not a directory (os error 20)"
  | nameTooLong => "File name too long (os error 36)"
  | nullInPath => "file name contained an unexpected NUL byte"
  | notText => "stream did not contain valid UTF-8"

/-- Why something outside the program text could not be used. -/
inductive IndexError where
  /-- The file cannot be parsed. -/
  | unparsable (file : String) (offset : Nat) (message : String)
  /-- There is no such file or directory. -/
  | missing (path : String)
  /-- What is there is not a file with a text. -/
  | unreadable (path : String) (fault : ReadFault)
  /-- The file is not a description of a library. -/
  | notManifest (path : String)
  /-- Something that a description of a library lists cannot be named. -/
  | unnamable (path : String) (error : NamingError)
deriving DecidableEq, Repr, Inhabited

namespace IndexError

/-- What a reader is told. -/
def message : IndexError → String
  | unparsable file offset message =>
    "syntax error in " ++ file ++ " at byte " ++ toString offset ++ ": " ++ message
  | missing path => "file not found: " ++ path
  | unreadable path fault => "io error on " ++ path ++ ": " ++ fault.message
  | notManifest path => "invalid classpath manifest " ++ path
  | unnamable path error => "cannot name classpath entry in " ++ path ++ ": " ++ error.message

/-- The error of a file that cannot be parsed. -/
def ofSyntaxError (file : String) (e : SyntaxError) : IndexError :=
  .unparsable file e.range.start e.message

end IndexError

/-- What came of one file. -/
structure UnitResult where
  file : FileId
  path : String
  result : Except IndexError UnitIndex

/-- What came of all files, in the order of their numbers. -/
structure ProjectRun where
  units : List UnitResult
  /-- Files that could not be read. -/
  loadErrors : List IndexError

namespace ProjectRun

/-- The indexes of the files that could be parsed. -/
def indexed (r : ProjectRun) : List UnitIndex := r.units.filterMap fun u => u.result.toOption

/-- The files that could not be parsed. -/
def failures (r : ProjectRun) : List UnitResult := r.units.filter fun u => !u.result.isOk

end ProjectRun

/-- A file on the way through a run: its text, and its tree if it could be parsed. -/
structure ParsedFile where
  file : FileId
  source : SourceFile
  tree : Except IndexError CompilationUnit

namespace ParsedFile

/-- A file parsed. -/
def ofSource (file : FileId) (source : SourceFile) : ParsedFile where
  file := file
  source := source
  tree :=
    match parse source.text with
    | .ok tree => .ok tree
    | .error e => .error (.ofSyntaxError source.path e)

/-- The unit that the file is, if it could be parsed. -/
def unit? (f : ParsedFile) : Option SourceUnit := f.tree.toOption.map fun tree => ⟨f.file, tree⟩

/-- What comes of the file in a project. -/
def result (f : ParsedFile) (project : ProjectClasses) (external : ExternalTable) (config : Config) :
    UnitResult where
  file := f.file
  path := f.source.path
  result :=
    match f.tree with
    | .ok tree => .ok (SourceUnit.index ⟨f.file, tree⟩ f.source.text project external config)
    | .error e => .error e

end ParsedFile

namespace SourceRoot

/-- A run over the files. -/
def index (r : SourceRoot) (external : ExternalTable) (config : Config) : ProjectRun :=
  let parsed := r.toList.map fun (file, source) => ParsedFile.ofSource file source
  let project := ProjectClasses.build (parsed.filterMap ParsedFile.unit?) external config
  ⟨parsed.map fun f => f.result project external config, []⟩

end SourceRoot

/-- The index of one text, which is the whole project. -/
def indexSource (source : String) (external : ExternalTable) (config : Config) :
    Except IndexError UnitIndex :=
  match parse source with
  | .ok tree =>
    let u : SourceUnit := ⟨0, tree⟩
    .ok (u.index source (.build [u] external config) external config)
  | .error e => .error (.ofSyntaxError (FileId.label 0) e)

end JavaIndex
