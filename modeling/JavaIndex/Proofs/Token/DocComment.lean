import JavaIndex.Proofs.Text.Trimming
import JavaIndex.Token.DocComment

/-! What is written into a documentation comment is what is read from it. A comment is written line by line, each
behind a star that may be indented. Cleaning takes away what writing has put there, and nothing else. -/
namespace JavaIndex.DocComment

open Blank (LineEnd isBlank)

/-- The text is made of spaces and tabs. -/
def Indents (text : String) : Prop := ∀ c ∈ text.toList, c = ' ' ∨ c = '\t'

section

variable {text : String} (indents : Indents text)

include indents

theorem Indents.blank : ∀ c ∈ text.toList, isBlank c = true := by
  intro c hc
  rcases indents c hc with rfl | rfl <;> rfl

theorem Indents.single : '\n' ∉ text.toList := by
  intro inside
  rcases indents _ inside with same | same <;> cases same

/-- An indentation in front of nothing says nothing. -/
theorem Indents.cleanLine : cleanLine text.toList = [] := by
  have start : Blank.trimStart (text.toList ++ []) = [] := Blank.trimStart_append indents.blank nofun
  rw [List.append_nil] at start
  rw [DocComment.cleanLine, start]
  rfl

end

/-- A line of a comment: what stands before its star, and what it says. -/
structure Line where
  indentation : String
  text : String
  indents : Indents indentation
  single : '\n' ∉ text.toList
  trimmed : ∀ c ∈ text.toList.getLast?, isBlank c = false

namespace Line

/-- The line as it is written. -/
def written (l : Line) : String := l.indentation ++ "* " ++ l.text

variable (l : Line)

theorem toList_written : l.written.toList = l.indentation.toList ++ '*' :: ' ' :: l.text.toList := by
  simp [written, String.toList_append]

theorem written_single : '\n' ∉ l.written.toList := by
  rw [toList_written, List.mem_append, not_or]
  exact ⟨l.indents.single, by simpa using l.single⟩

/-- A written line ends with its text, or with a space. -/
theorem written_last : ∀ c ∈ l.written.toList.getLast?, c ≠ '\r' := by
  rw [toList_written, List.getLast?_append_cons, List.getLast?_cons_cons, List.getLast?_cons]
  rintro c here rfl
  cases letters : l.text.toList.getLast? with
  | none => simp [letters] at here
  | some d =>
    obtain rfl : d = '\r' := by simpa [letters] using here
    cases l.trimmed _ letters

/-- Cleaning a written line leaves what it says. -/
theorem cleanLine_written : cleanLine l.written.toList = l.text.toList := by
  have start : Blank.trimStart l.written.toList = '*' :: ' ' :: l.text.toList := by
    rw [toList_written]
    exact Blank.trimStart_append l.indents.blank (by simp [isBlank])
  rw [cleanLine, start]
  exact Blank.trimEnd_of_last l.trimmed

end Line

/-- A comment of some lines. Its last line holds nothing but its end, which may be indented, too. -/
def ofLines (ending : String) (ls : List Line) (indentation : String) : String :=
  "/**" ++ String.join (ls.map fun l => ending ++ l.written) ++ ending ++ indentation ++ "*/"

theorem body_ofLines (ending : String) (ls : List Line) (indentation : String) :
    body (ofLines ending ls indentation).toList =
      (String.join (ls.map fun l => ending ++ l.written)).toList ++ (ending.toList ++ indentation.toList) := by
  have text : (ofLines ending ls indentation).toList = ['/', '*', '*'] ++
      ((String.join (ls.map fun l => ending ++ l.written)).toList ++ (ending.toList ++ indentation.toList) ++
        ['*', '/']) := by
    simp [ofLines, String.toList_append]
  rw [body, text, Lists.dropFront?_append, Option.bind_some, Lists.dropBack?_append, Option.getD_some]

/-- The lines that are read are those that were written, after what stands before the first line end. -/
theorem lines_body {ending : String} (ends : LineEnd ending.toList) (indentation : String) (ls : List Line)
    {line : List Char} (single : '\n' ∉ line) (last : ∀ c ∈ line.getLast?, c ≠ '\r') :
    Blank.lines (line ++ ((String.join (ls.map fun l => ending ++ l.written)).toList ++
      (ending.toList ++ indentation.toList))) =
      line :: (ls.map fun l => l.written.toList) ++ Blank.lines indentation.toList := by
  induction ls generalizing line with
  | nil => simpa using Blank.lines_append single last ends _
  | cons l ls ih =>
    -- once the line before it is read, the next written line stands before the first line end
    have read := Blank.lines_append single last ends (l.written.toList ++
      ((String.join (ls.map fun l => ending ++ l.written)).toList ++ (ending.toList ++ indentation.toList)))
    rw [ih l.written_single l.written_last] at read
    simpa [String.join_cons, String.toList_append] using read

/-- Cleaned lines are what was written, without the lines that hold the delimiters. -/
theorem lines_ofLines {ending indentation : String} {ls : List Line} (ends : LineEnd ending.toList)
    (first : ∀ l ∈ ls.head?, l.text ≠ "") (last : ∀ l ∈ ls.getLast?, l.text ≠ "") (indents : Indents indentation) :
    lines (ofLines ending ls indentation).toList = ls.map fun l => l.text.toList := by
  have none : '\n' ∉ ([] : List Char) := List.not_mem_nil
  have read := lines_body ends indentation ls none nofun
  have cleaned : (ls.map fun l => l.written.toList).map cleanLine = ls.map fun l => l.text.toList := by
    rw [List.map_map]
    exact List.map_congr_left fun l _ => l.cleanLine_written
  have before : ∀ line ∈ [cleanLine []], line.isEmpty = true := List.forall_mem_singleton.mpr rfl
  have after : ∀ line ∈ (Blank.lines indentation.toList).map cleanLine, line.isEmpty = true := by
    intro line mem
    obtain ⟨written, hw, rfl⟩ := List.mem_map.mp mem
    rw [Blank.lines_of_free indents.single written hw, indents.cleanLine]
    rfl
  have full {l? : Option Line} (some : ∀ l ∈ l?, l.text ≠ "") :
      ∀ line ∈ l?.map fun l => l.text.toList, line.isEmpty = false := by
    intro line mem
    obtain ⟨l, hl, rfl⟩ := Option.map_eq_some_iff.mp mem
    simpa using some l hl
  rw [lines, body_ofLines, ← List.nil_append (_ ++ _), read, List.map_append, List.map_cons, cleaned]
  exact Lists.trimBy_append before after (by simpa using full first) (by simpa using full last)

/-- What is read from a comment is what was written into it, if it begins and ends with a line that says something. -/
theorem words_ofLines {ending indentation : String} {ls : List Line} (ends : ending = "\n" ∨ ending = "\r\n")
    (first : ∀ l ∈ ls.head?, l.text ≠ "") (last : ∀ l ∈ ls.getLast?, l.text ≠ "") (indents : Indents indentation) :
    words (ofLines ending ls indentation) = "\n".intercalate (ls.map Line.text) := by
  have ended : LineEnd ending.toList := by
    rcases ends with rfl | rfl
    · exact .inl rfl
    · exact .inr rfl
  rw [words, lines_ofLines ended first last indents, Lists.join_eq_intercalate, ← String.toList_inj,
    String.toList_intercalate, String.toList_ofList, List.map_map]
  rfl

/-- Stars, blanks and what ends a comment stay where they stand in a line, and so do empty lines between others. -/
theorem words_ofLines_indented :
    let first : Line := ⟨" ", "* of */ two", by simp [Indents], by decide, by simp [isBlank]⟩
    let none : Line := ⟨"\t ", "", by simp [Indents], by decide, nofun⟩
    let last : Line := ⟨"", "  lines.", by simp [Indents], by decide, by simp [isBlank]⟩
    ofLines "\r\n" [first, none, last] " " = "/**\r\n * * of */ two\r\n\t * \r\n*   lines.\r\n */" ∧
      words (ofLines "\r\n" [first, none, last] " ") = "\n".intercalate ["* of */ two", "", "  lines."] :=
  ⟨by decide, words_ofLines (.inr rfl) (by simp) (by simp) (by simp [Indents])⟩

end JavaIndex.DocComment
