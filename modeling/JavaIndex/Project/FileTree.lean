import JavaIndex.Classpath.Manifest
import JavaIndex.Project.Run

/-! The files of a directory, and what a run makes of them. -/
namespace JavaIndex

/-- Directories and files by the names that lead down to them, of one path the latest file first. -/
structure FileTree where
  directories : List (List String)
  files : List (List String × ByteArray)

/-- What a path can lead to. -/
inductive FileTree.Entry where
  /-- A directory. -/
  | directory (down : List String)
  /-- A file. -/
  | file (content : ByteArray)

namespace FileTree

/-- No files, and no directory but the one that all paths begin in. -/
def empty : FileTree := ⟨[[]], []⟩

/-- One more file, in place of an earlier one of its path. Directories that the path leads through are made,
also those that it leaves again. -/
def write (t : FileTree) (path : String) (content : ByteArray) : FileTree where
  directories := Path.passed (Path.pieces path) ++ t.directories
  files :=
    let down := Path.reach (Path.pieces path)
    (down, content) :: t.files.filter fun f => f.1 ≠ down

/-- How many bytes a name can have. -/
def nameLimit : Nat := 255

/-- What there is under a name that leads down from a directory; the path is for the errors. -/
def entry (t : FileTree) (path : String) (down : List String) (name : String) : Except IndexError Entry :=
  if name.utf8ByteSize > nameLimit then .error (.unreadable path .nameTooLong)
  else if t.directories.contains (down ++ [name]) then .ok (.directory (down ++ [name]))
  else
    match t.files.find? fun (file, _) => file == down ++ [name] with
    | some (_, content) => .ok (.file content)
    | none => .error (.missing path)

/-- What one piece of a path leads to. Every piece has to start from a directory, also one that leads
nowhere else, and nothing is known of what is above the directory that all paths begin in. -/
def step (t : FileTree) (path : String) : Entry → String → Except IndexError Entry
  | .file _, _ => .error (.unreadable path .notDirectory)
  | .directory down, piece =>
    if piece = "" || piece = "." then .ok (.directory down)
    else if piece = ".." then
      if down.isEmpty then .error (.missing path) else .ok (.directory down.dropLast)
    else t.entry path down piece

/-- What a path leads to, piece by piece. -/
def follow (t : FileTree) (path : String) : Except IndexError Entry :=
  if path.toList.contains '\x00' then .error (.unreadable path .nullInPath)
  else if path.toList.head? = some '/' then .error (.missing path)
  else (Path.pieces path).foldlM (t.step path) (.directory [])

/-- The text of a file. -/
def read (t : FileTree) (path : String) : Except IndexError String :=
  match t.follow path with
  | .error e => .error e
  | .ok (.directory _) => .error (.unreadable path .isDirectory)
  | .ok (.file content) =>
    match String.fromUTF8? content with
    | some text => .ok text
    | none => .error (.unreadable path .notText)

/-- The source files below a directory, by their paths from it on, component by component in order. -/
def sourcesBelow (t : FileTree) (down : List String) : List (List String) :=
  let below := t.files.filterMap fun (file, _) => Lists.dropFront? down file
  (below.filter (Path.hasExtension "java")).mergeSort fun a b => (Path.order a b).isLE

/-- The paths of the source files below a directory, spelled from the spelling of the directory on. -/
def javaFiles (t : FileTree) (root : String) : Except IndexError (List String) :=
  match t.follow root with
  | .ok (.directory down) =>
    .ok ((t.sourcesBelow down).map fun file => Path.join root ("/".intercalate file))
  | _ => .error (.missing root)

/-- The source files that can be read, and the errors of the others. -/
def load (t : FileTree) (paths : List String) : SourceRoot × List IndexError :=
  paths.foldl
    (fun (sources, errors) path =>
      match t.read path with
      | .ok text => ((sources.insert path text).2, errors)
      | .error e => (sources, errors ++ [e]))
    (SourceRoot.empty, [])

/-- A run over all source files below a directory. -/
def index (t : FileTree) (root : String) (external : ExternalTable) (config : Config) :
    Except IndexError ProjectRun :=
  match t.javaFiles root with
  | .error e => .error e
  | .ok paths =>
    let (sources, errors) := t.load paths
    .ok { sources.index external config with loadErrors := errors }

end FileTree

/-- What a file describes put into a table, and how many classes it lists. -/
def ExternalTable.loadFile (table : ExternalTable) (t : FileTree) (path : String) :
    Except IndexError Nat × ExternalTable :=
  match t.read path with
  | .error e => (.error e, table)
  | .ok text =>
    match Manifest.read? text with
    | none => (.error (.notManifest path), table)
    | some m =>
      match table.load m with
      | (.ok count, table) => (.ok count, table)
      | (.error e, table) => (.error (.unnamable path e), table)

end JavaIndex
