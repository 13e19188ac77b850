/-! # Lines of text

Text is cut at line feeds. `Text.lines` lists the lines that a reader sees: a carriage
return before a line feed belongs to the line break, and no line follows a final line
feed.
-/

namespace TensorLowering

namespace Text

/-- The pieces between the occurrences of a character. -/
def splitChar (separator : Char) : List Char → List (List Char)
  | [] => [[]]
  | head :: rest =>
      if head = separator then [] :: splitChar separator rest
      else
        match splitChar separator rest with
        | [] => [[head]]
        | piece :: pieces => (head :: piece) :: pieces

/-- A piece without a carriage return at its end. -/
def dropReturn (piece : List Char) : List Char :=
  if piece.getLast? = some '\r' then piece.dropLast else piece

/-- The lines among the pieces between line feeds. -/
def linesOf : List (List Char) → List (List Char)
  | [] => []
  | [last] => if last.isEmpty then [] else [last]
  | piece :: pieces => dropReturn piece :: linesOf pieces

/-- The lines of a text. -/
def lines (text : String) : List String :=
  (linesOf (splitChar '\n' text.toList)).map String.ofList

/-- Put a margin before every piece between line feeds that is not empty. -/
def indent (margin : String) (text : String) : String :=
  "\n".intercalate <| (splitChar '\n' text.toList).map fun piece =>
    if piece.isEmpty then "" else margin ++ String.ofList piece

end Text

end TensorLowering
