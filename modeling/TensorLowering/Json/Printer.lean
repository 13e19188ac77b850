import TensorLowering.Json.Basic
import TensorLowering.Number.Layout

/-! # Writing documents

Two spellings of a tree: `Json.compact` on one line without blanks, and `Json.pretty`
with one entry a line, two blanks per level, and empty containers closed at once.
-/

namespace TensorLowering

namespace Json

/-- Numbers have a decimal point from `0.00001` up to `10 ^ 16`; other exponents carry
their sign, and a tie goes to the even digit. -/
def numbers : Layout := ⟨-5, 15, true, .even⟩

/-- A hexadecimal digit. -/
def hexDigit (value : Nat) : Char := Nat.digitChar value

/-- The spelling of a character inside a string. -/
def escape (char : Char) : List Char :=
  if char = '"' then ['\\', '"']
  else if char = '\\' then ['\\', '\\']
  else if char = '\x08' then ['\\', 'b']
  else if char = '\x0c' then ['\\', 'f']
  else if char = '\n' then ['\\', 'n']
  else if char = '\r' then ['\\', 'r']
  else if char = '\t' then ['\\', 't']
  else if char.toNat < 0x20 then
    ['\\', 'u', '0', '0', hexDigit (char.toNat / 16), hexDigit (char.toNat % 16)]
  else [char]

/-- A string between quotes. -/
def quote (text : String) : String :=
  "\"" ++ String.ofList (text.toList.flatMap escape) ++ "\""

/-- The text of a tree without items. -/
def scalar : Json → String
  | .bool true => "true"
  | .bool false => "false"
  | .int value => toString value
  | .float value => if value.isFinite then numbers.write value else "null"
  | .str value => quote value
  | _ => "null"

mutual

/-- The text of a tree on one line. -/
def compact : Json → String
  | .arr items => "[" ++ ",".intercalate (compactItems items) ++ "]"
  | .obj entries => "\x7b" ++ ",".intercalate (compactEntries entries) ++ "\x7d"
  | json => scalar json

/-- The texts of the items of an array. -/
def compactItems : List Json → List String
  | [] => []
  | item :: items => compact item :: compactItems items

/-- The texts of the entries of an object. -/
def compactEntries : List (String × Json) → List String
  | [] => []
  | (key, value) :: entries => (quote key ++ ":" ++ compact value) :: compactEntries entries

end

/-- The start of a line at a depth. -/
def lineStart (depth : Nat) : String := "\n" ++ String.ofList (List.replicate (2 * depth) ' ')

/-- A container around the texts of its members. -/
def enclose (opening closing : String) (depth : Nat) (members : List String) : String :=
  if members.isEmpty then opening ++ closing
  else
    opening ++ ",".intercalate (members.map (lineStart (depth + 1) ++ ·)) ++ lineStart depth ++
      closing

mutual

/-- The text of a tree at a depth, one member a line. -/
def prettyAt (depth : Nat) : Json → String
  | .arr items => enclose "[" "]" depth (prettyItems (depth + 1) items)
  | .obj entries => enclose "\x7b" "\x7d" depth (prettyEntries (depth + 1) entries)
  | json => scalar json

/-- The texts of the items of an array. -/
def prettyItems (depth : Nat) : List Json → List String
  | [] => []
  | item :: items => prettyAt depth item :: prettyItems depth items

/-- The texts of the entries of an object. -/
def prettyEntries (depth : Nat) : List (String × Json) → List String
  | [] => []
  | (key, value) :: entries =>
      (quote key ++ ": " ++ prettyAt depth value) :: prettyEntries depth entries

end

/-- The text of a document, one member a line. -/
def pretty (json : Json) : String := prettyAt 0 json

end Json

end TensorLowering
