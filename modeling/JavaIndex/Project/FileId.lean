/-! The numbers of the source files of a run. -/
namespace JavaIndex

/-- The number of a source file in a run. -/
abbrev FileId := Nat

/-- What people read for a file. -/
def FileId.label (file : FileId) : String := "unit#" ++ toString file

end JavaIndex
