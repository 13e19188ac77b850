import TensorLowering.Text.Hidden

/-! # Quoted names

Names in messages stand between double quotes. Quotes, backslashes and characters that
would not be seen are escaped.
-/

namespace TensorLowering

namespace Text

/-- Whether a character is shown as it is. -/
def isVisible (char : Char) : Bool :=
  0x20 ≤ char.toNat && char.toNat ≠ 0x7f && !isHidden char

/-- The spelling of a character between double quotes. -/
def quoteChar (char : Char) : List Char :=
  if char = '"' then ['\\', '"']
  else if char = '\\' then ['\\', '\\']
  else if char = '\n' then ['\\', 'n']
  else if char = '\r' then ['\\', 'r']
  else if char = '\t' then ['\\', 't']
  else if char = '\x00' then ['\\', '0']
  else if isVisible char then [char]
  else '\\' :: 'u' :: '{' :: Nat.toDigits 16 char.toNat ++ ['}']

/-- A name between double quotes. -/
def quoted (name : String) : String :=
  "\"" ++ String.ofList (name.toList.flatMap quoteChar) ++ "\""

/-- A list of names between brackets. -/
def quotedList (names : List String) : String :=
  "[" ++ ", ".intercalate (names.map quoted) ++ "]"

end Text

end TensorLowering
