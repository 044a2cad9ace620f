import JavaIndex.Classpath.Manifest

/-! What the list of files in an archive of compiled classes says about a library: the names of its
classes, and the packages that have resources. -/
namespace JavaIndex.Archive

/-- What is left of a path after the directory for one release of the platform, if it lies in one. -/
def unversioned? (path : List Char) : Option (List Char) :=
  match Lists.dropFront? "META-INF/versions/".toList path with
  | none => some path
  | some rest =>
    match rest.dropWhile (· ≠ '/') with
    | '/' :: inner => some inner
    | _ => none

/-- The class has no name of its own outside a body. -/
def isUnnamed (simple : List Char) : Bool :=
  ((Lists.split '$' simple).drop 1).any fun part => (part.head?.map Identifier.isDigit).getD false

/-- The binary name of the class that a file of the archive holds. -/
def className? (entry : String) : Option String := do
  let path ← Lists.dropBack? ".class".toList entry.toList
  let path ← unversioned? path
  let simple := (Lists.split '/' path).getLast?.getD []
  if simple = "module-info".toList || simple = "package-info".toList || isUnnamed simple then none
  else some (String.ofList (path.map fun c => if c = '/' then '.' else c))

/-- A class of which nothing but the name is known. It extends the class above all others, unless it is that one. -/
def declare (package : String) (chain : List String) (binaryName : String) : Except NamingError ClassInfo := do
  let owner ← Manifest.ownerSymbol package chain
  let qualified := Dotted.ofBinary binaryName
  let b ← ClassBuilder.ofName owner package qualified .classType .external
  return (if qualified ≠ "java.lang.Object" then b.setSuperclass .object else b).info

/-- What a file of the archive adds to the table, and whether it adds a class. -/
def addEntry (state : Nat × ExternalTable) (entry : String) : Nat × ExternalTable :=
  let (count, t) := state
  match className? entry with
  | none => (count, t)
  | some name =>
    let (package, chain) := Manifest.splitBinaryName name
    if chain.head? = some "R" then (count, t.addResourcePackage package)
    else
      match declare package chain name with
      | .ok info => (count + 1, t.insert info)
      | .error _ => (count, t)

end Archive

/-- Everything that the files of an archive say put in, and the number of classes. -/
def ExternalTable.loadArchive (t : ExternalTable) (entries : List String) : Nat × ExternalTable :=
  entries.foldl Archive.addEntry (0, t)

end JavaIndex
