/-! # Lexemes of a hole

The text inside a hole is cut into tokens, each with the blanks before it. A token is
as long as it can be: a word, a number, text between matching quotes, one of four
marks, or a single other character. A quote without a partner takes the rest of the
text. Nothing is lost: the spellings of the lexemes and the blanks at the end make up
the text again (`TensorLowering.Lexeme.spelling_lex`).
-/

namespace TensorLowering

/-- A token inside a hole. -/
inductive Token where
  | word (text : List Char)
  | number (text : List Char)
  | quoted (mark : Char) (text : List Char)
  | dot
  | opening
  | closing
  | plus
  | other (text : List Char)
  deriving DecidableEq, Repr

/-- A token and the blanks before it. -/
structure Lexeme where
  gap : List Char
  token : Token
  deriving DecidableEq, Repr

namespace Token

/-- The text of a token. -/
def spelling : Token → List Char
  | .word text => text
  | .number text => text
  | .quoted mark text => mark :: text ++ [mark]
  | .dot => ['.']
  | .opening => ['[']
  | .closing => [']']
  | .plus => ['+']
  | .other text => text

/-- The characters that can start a word. -/
def startsWord (char : Char) : Bool := char.isAlpha || char = '_'

/-- The characters inside a word. -/
def insideWord (char : Char) : Bool := char.isAlphanum || char = '_'

/-- A number that starts with a digit: a fraction belongs to it if it has digits. -/
def readNumber (head : Char) (rest : List Char) : Token × List Char :=
  let whole := head :: rest.takeWhile Char.isDigit
  match rest.dropWhile Char.isDigit with
  | '.' :: digit :: more =>
      if digit.isDigit then
        (.number (whole ++ '.' :: digit :: more.takeWhile Char.isDigit),
          more.dropWhile Char.isDigit)
      else (.number whole, '.' :: digit :: more)
  | after => (.number whole, after)

/-- Text up to the matching quote, or the rest of the text if there is none. -/
def readQuoted (mark : Char) (rest : List Char) : Token × List Char :=
  match rest.dropWhile (· ≠ mark) with
  | _ :: after => (.quoted mark (rest.takeWhile (· ≠ mark)), after)
  | [] => (.other (mark :: rest), [])

/-- The token that starts with a character, and the text after it. -/
def read (head : Char) (rest : List Char) : Token × List Char :=
  if startsWord head then
    (.word (head :: rest.takeWhile insideWord), rest.dropWhile insideWord)
  else if head.isDigit then readNumber head rest
  else if head = '"' ∨ head = '\x27' then readQuoted head rest
  else if head = '.' then (.dot, rest)
  else if head = '[' then (.opening, rest)
  else if head = ']' then (.closing, rest)
  else if head = '+' then (.plus, rest)
  else (.other [head], rest)

private theorem spelling_readNumber (head : Char) (rest : List Char) :
    (readNumber head rest).1.spelling ++ (readNumber head rest).2 = head :: rest := by
  have split := List.takeWhile_append_dropWhile (p := Char.isDigit) (l := rest)
  unfold readNumber
  split
  · next digit more after =>
      have tail := List.takeWhile_append_dropWhile (p := Char.isDigit) (l := more)
      split
      · simp only [spelling, List.cons_append, List.append_assoc, tail]
        rw [← after, split]
      · simp only [spelling, List.cons_append]
        rw [← after, split]
  · simp only [spelling, List.cons_append, split]

private theorem spelling_readQuoted (mark : Char) (rest : List Char) :
    (readQuoted mark rest).1.spelling ++ (readQuoted mark rest).2 = mark :: rest := by
  have split := List.takeWhile_append_dropWhile (p := (· ≠ mark)) (l := rest)
  unfold readQuoted
  split
  · next head after found =>
      have stopped : head = mark := by
        have := List.head_dropWhile_not (l := rest) (· ≠ mark) (found ▸ List.cons_ne_nil head after)
        simp only [found, List.head_cons] at this
        simpa using this
      rw [found, stopped] at split
      simpa [spelling] using split
  · simp [spelling]

/-- A token and the text after it are the text that was read. -/
theorem spelling_read (head : Char) (rest : List Char) :
    (read head rest).1.spelling ++ (read head rest).2 = head :: rest := by
  unfold read
  split
  · simp [spelling, List.takeWhile_append_dropWhile]
  split
  · exact spelling_readNumber head rest
  split
  · exact spelling_readQuoted head rest
  repeat' split
  all_goals simp_all [spelling]

/-- No token is empty. -/
theorem length_spelling_read_pos (head : Char) (rest : List Char) :
    0 < (read head rest).1.spelling.length := by
  unfold read readNumber readQuoted
  repeat' split
  all_goals simp [spelling]

end Token

namespace Lexeme

/-- The text of a lexeme. -/
def spelling (lexeme : Lexeme) : List Char := lexeme.gap ++ lexeme.token.spelling

/-- The blanks between tokens. -/
def isBlank (char : Char) : Bool :=
  char = ' ' || char = '\t' || char = '\n' || char = '\r'

/-- The lexemes of a text and the blanks at its end; `bound` limits the number of
lexemes. -/
def lexWithin : (bound : Nat) → List Char → List Lexeme × List Char
  | 0, chars => ([], chars)
  | bound + 1, chars =>
      match chars.dropWhile isBlank with
      | [] => ([], chars)
      | head :: rest =>
          let (token, after) := Token.read head rest
          let (lexemes, last) := lexWithin bound after
          (⟨chars.takeWhile isBlank, token⟩ :: lexemes, last)

/-- The lexemes of a text and the blanks at its end. -/
def lex (chars : List Char) : List Lexeme × List Char := lexWithin chars.length chars

private theorem spelling_lexWithin (bound : Nat) (chars : List Char) :
    (lexWithin bound chars).1.flatMap spelling ++ (lexWithin bound chars).2 = chars := by
  induction bound generalizing chars with
  | zero => simp [lexWithin]
  | succ bound ih =>
      have split := List.takeWhile_append_dropWhile (p := isBlank) (l := chars)
      unfold lexWithin
      cases found : chars.dropWhile isBlank with
      | nil => simp
      | cons head rest =>
          rw [found] at split
          simp only [List.flatMap_cons, spelling, List.append_assoc, ih]
          rw [Token.spelling_read, split]

/-- Lexemes and the blanks at the end make up the text. -/
theorem spelling_lex (chars : List Char) :
    (lex chars).1.flatMap spelling ++ (lex chars).2 = chars :=
  spelling_lexWithin chars.length chars

end Lexeme

end TensorLowering
