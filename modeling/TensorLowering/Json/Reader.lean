import TensorLowering.Json.Basic

/-! # Reading documents

The reader accepts exactly the JSON grammar: no comments, no trailing commas, no
leading zeros, no raw control characters inside strings, and nothing but blanks after
the value.
-/

namespace TensorLowering

namespace Json

/-- The blanks that may stand between tokens. -/
def isBlank (char : Char) : Bool :=
  char = ' ' || char = '\t' || char = '\n' || char = '\r'

/-- The text after leading blanks. -/
def skipBlanks (chars : List Char) : List Char := chars.dropWhile isBlank

/-- The number that decimal digits spell. -/
def digitsValue (digits : List Char) : Nat :=
  digits.foldl (fun value digit => 10 * value + (digit.toNat - '0'.toNat)) 0

/-- A run of decimal digits and the text after it. -/
def takeDigits (chars : List Char) : List Char × List Char :=
  (chars.takeWhile Char.isDigit, chars.dropWhile Char.isDigit)

/-- The tree of a number; one beyond all doubles has no value. -/
def ofDouble (number : Double) : Json :=
  if number.isFinite then .float number else .unusable

/-- The tree of a whole number without fraction and exponent. -/
def ofWhole (negative : Bool) (value : Nat) : Json :=
  if negative then
    if value = 0 then .float (.finite true 0)
    else if value ≤ Nat.pow 2 63 then .int (-value)
    else ofDouble (.ofDecimal true value 0)
  else if value < Nat.pow 2 64 then .int value
  else ofDouble (.ofDecimal false value 0)

/-- The digits of a fraction, if one follows. -/
def readFraction? : List Char → Option (List Char × List Char)
  | '.' :: rest =>
      match takeDigits rest with
      | ([], _) => none
      | found => some found
  | rest => some ([], rest)

/-- The value of an exponent, if one follows. -/
def readExponent? : List Char → Option (Option Int × List Char)
  | mark :: rest =>
      if mark = 'e' || mark = 'E' then
        let (negative, rest) :=
          match rest with
          | '-' :: rest => (true, rest)
          | '+' :: rest => (false, rest)
          | rest => (false, rest)
        match takeDigits rest with
        | ([], _) => none
        | (digits, rest) =>
            let value : Int := digitsValue digits
            some (some (if negative then -value else value), rest)
      else some (none, mark :: rest)
  | [] => some (none, [])

/-- Read a number. -/
def readNumber? (chars : List Char) : Option (Json × List Char) := do
  let (negative, rest) :=
    match chars with
    | '-' :: rest => (true, rest)
    | rest => (false, rest)
  let (whole, rest) := takeDigits rest
  if whole.isEmpty || (whole.head? = some '0' && whole.length ≠ 1) then none
  let (fraction, rest) ← readFraction? rest
  let (exponent, rest) ← readExponent? rest
  if fraction.isEmpty && exponent.isNone then
    some (ofWhole negative (digitsValue whole), rest)
  else
    let power := exponent.getD 0 - fraction.length
    some (ofDouble (.ofDecimal negative (digitsValue (whole ++ fraction)) power), rest)

/-- The value of a hexadecimal digit. -/
def hexValue? (char : Char) : Option Nat :=
  if char.isDigit then some (char.toNat - '0'.toNat)
  else if 'a' ≤ char ∧ char ≤ 'f' then some (char.toNat - 'a'.toNat + 10)
  else if 'A' ≤ char ∧ char ≤ 'F' then some (char.toNat - 'A'.toNat + 10)
  else none

/-- The code unit that four hexadecimal digits spell. -/
def codeUnit? (a b c d : Char) : Option Nat := do
  return 4096 * (← hexValue? a) + 256 * (← hexValue? b) + 16 * (← hexValue? c) + (← hexValue? d)

/-- The character that a one-letter escape stands for. -/
def escaped? (char : Char) : Option Char :=
  match char with
  | '"' => some '"'
  | '\\' => some '\\'
  | '/' => some '/'
  | 'b' => some '\x08'
  | 'f' => some '\x0c'
  | 'n' => some '\n'
  | 'r' => some '\r'
  | 't' => some '\t'
  | _ => none

/-- Read a string after its opening quote. `pending` is a high surrogate that waits for
its low one, and `paired` tells whether all earlier ones have found theirs; the text is
absent if one has not. -/
def readString? (pending : Option Nat) (paired : Bool) (read : List Char) :
    List Char → Option (Option String × List Char)
  | [] => none
  | '"' :: rest =>
      some (if paired && pending.isNone then some (String.ofList read.reverse) else none, rest)
  | '\\' :: 'u' :: a :: b :: c :: d :: rest =>
      match codeUnit? a b c d with
      | none => none
      | some unit =>
          if 0xd800 ≤ unit ∧ unit < 0xdc00 then
            readString? (some unit) (paired && pending.isNone) read rest
          else if 0xdc00 ≤ unit ∧ unit < 0xe000 then
            match pending with
            | some high =>
                let code := 0x10000 + (high - 0xd800) * 0x400 + (unit - 0xdc00)
                readString? none paired (Char.ofNat code :: read) rest
            | none => readString? none false read rest
          else readString? none (paired && pending.isNone) (Char.ofNat unit :: read) rest
  | '\\' :: letter :: rest =>
      match escaped? letter with
      | none => none
      | some char => readString? none (paired && pending.isNone) (char :: read) rest
  | char :: rest =>
      if char.toNat < 0x20 then none
      else readString? none (paired && pending.isNone) (char :: read) rest

/-- An object whose keys are all usable. -/
def ofEntries (entries : List (Option String × Json)) : Json :=
  match entries.mapM fun (key, value) => key.map (·, value) with
  | some entries => .obj entries
  | none => .unusable

mutual

/-- Read a value; `bound` limits the number of nested steps. -/
def readValue? : (bound : Nat) → List Char → Option (Json × List Char)
  | 0, _ => none
  | bound + 1, chars =>
      match skipBlanks chars with
      | 'n' :: 'u' :: 'l' :: 'l' :: rest => some (.null, rest)
      | 't' :: 'r' :: 'u' :: 'e' :: rest => some (.bool true, rest)
      | 'f' :: 'a' :: 'l' :: 's' :: 'e' :: rest => some (.bool false, rest)
      | '"' :: rest =>
          match readString? none true [] rest with
          | some (some text, rest) => some (.str text, rest)
          | some (none, rest) => some (.unusable, rest)
          | none => none
      | '[' :: rest =>
          match skipBlanks rest with
          | ']' :: rest => some (.arr [], rest)
          | rest => (readItems? bound rest).map fun (items, rest) => (.arr items, rest)
      | '{' :: rest =>
          match skipBlanks rest with
          | '}' :: rest => some (.obj [], rest)
          | rest => (readEntries? bound rest).map fun (entries, rest) => (ofEntries entries, rest)
      | rest => readNumber? rest

/-- Read the items of a non-empty array up to its closing bracket. -/
def readItems? : (bound : Nat) → List Char → Option (List Json × List Char)
  | 0, _ => none
  | bound + 1, chars =>
      match readValue? bound chars with
      | none => none
      | some (item, rest) =>
          match skipBlanks rest with
          | ',' :: rest => (readItems? bound rest).map fun (items, rest) => (item :: items, rest)
          | ']' :: rest => some ([item], rest)
          | _ => none

/-- Read the entries of a non-empty object up to its closing brace. -/
def readEntries? : (bound : Nat) → List Char → Option (List (Option String × Json) × List Char)
  | 0, _ => none
  | bound + 1, chars =>
      match skipBlanks chars with
      | '"' :: rest =>
          match readString? none true [] rest with
          | none => none
          | some (key, rest) =>
              match skipBlanks rest with
              | ':' :: rest =>
                  match readValue? bound rest with
                  | none => none
                  | some (value, rest) =>
                      match skipBlanks rest with
                      | ',' :: rest =>
                          (readEntries? bound rest).map fun (entries, rest) =>
                            ((key, value) :: entries, rest)
                      | '}' :: rest => some ([(key, value)], rest)
                      | _ => none
              | _ => none
      | _ => none

end

/-- Read a whole document. -/
def parse? (text : String) : Option Json :=
  let chars := text.toList
  match readValue? (2 * chars.length + 2) chars with
  | some (json, rest) => if (skipBlanks rest).isEmpty then some json else none
  | none => none

end Json

end TensorLowering
