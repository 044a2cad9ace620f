import JavaIndex.Text.Blank
import JavaIndex.Text.Lists
import JavaIndex.Token.Basic

/-! The words of a documentation comment, without its delimiters and the column of stars that runs down
its left side. -/
namespace JavaIndex.DocComment

/-- The characters between the delimiters, or all of them if the delimiters are not there. -/
def body (raw : List Char) : List Char :=
  ((Lists.dropFront? ['/', '*', '*'] raw).bind (Lists.dropBack? ['*', '/'])).getD raw

/-- A line without its indentation, its star and one space after that, and the blanks at its end. -/
def cleanLine (line : List Char) : List Char :=
  Blank.trimEnd <|
    match Blank.trimStart line with
    | '*' :: ' ' :: rest => rest
    | '*' :: rest => rest
    | rest => rest

/-- The cleaned lines from the first to the last that is not empty. -/
def lines (raw : List Char) : List (List Char) :=
  Lists.trimBy List.isEmpty ((Blank.lines (body raw)).map cleanLine)

/-- The words of a documentation comment. -/
def words (raw : String) : String :=
  String.ofList (Lists.join ['\n'] (lines raw.toList))

end JavaIndex.DocComment

namespace JavaIndex.Comment

/-- What the comment says. -/
def words (c : Comment) : String := DocComment.words c.text

end JavaIndex.Comment
