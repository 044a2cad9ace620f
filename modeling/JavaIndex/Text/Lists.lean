/-! Cutting and joining of character lists, of lists at their ends, and sums. -/
namespace JavaIndex.Lists

/-- The pieces between separators; there is one more piece than separators. -/
def split (separator : Char) : List Char → List (List Char)
  | [] => [[]]
  | c :: cs =>
    match split separator cs with
    | [] => [[]]
    | piece :: pieces =>
      if c = separator then [] :: piece :: pieces else (c :: piece) :: pieces

/-- The pieces with a separator between each two. -/
def join (separator : List Char) : List (List Char) → List Char
  | [] => []
  | [piece] => piece
  | piece :: pieces => piece ++ separator ++ join separator pieces

/-- What is left after a given beginning. -/
def dropFront? [BEq α] : List α → List α → Option (List α)
  | [], rest => some rest
  | _ :: _, [] => none
  | x :: xs, y :: ys => if x == y then dropFront? xs ys else none

/-- What is left before a given end. -/
def dropBack? [BEq α] (back whole : List α) : Option (List α) :=
  (dropFront? back.reverse whole.reverse).map List.reverse

/-- Without the members at either end that the test accepts. -/
def trimBy (p : α → Bool) (xs : List α) : List α :=
  ((xs.dropWhile p).reverse.dropWhile p).reverse

/-- The sum of some numbers. -/
def total : List Nat → Nat
  | [] => 0
  | n :: ns => n + total ns

end JavaIndex.Lists
