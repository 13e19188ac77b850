import TensorLowering.Template.Basic
import TensorLowering.Template.Lexeme

/-! # Items of a hole

The lexemes of a hole become items: an identifier, an access to a keyed bag such as
`args['x']`, or verbatim text. A word after a dot is a field and stays verbatim. If the
key of an access is only the start of a longer expression, the access stands for every
key with that start. The spellings of the items make up the hole again
(`TensorLowering.Item.spelling_ofHole`).
-/

namespace TensorLowering

/-- A part of a hole: text that stays, an identifier, an access by a key, or an access
by a key of which only the start is known. -/
inductive Item where
  | verbatim (text : List Char)
  | name (text : List Char)
  | key (spelling key : List Char)
  | openKey (spelling start : List Char)
  deriving DecidableEq, Repr

namespace Item

/-- The text of an item. -/
def spelling : Item → List Char
  | .verbatim text => text
  | .name text => text
  | .key spelling _ => spelling
  | .openKey spelling _ => spelling

/-- The names of the keyed bags. -/
def isBag (text : List Char) : Bool :=
  text = ['a', 'r', 'g', 's'] || text = ['k', 'w', 'a', 'r', 'g', 's']

/-- The text of a keyed access up to the end of its literal. -/
def accessStart (bag gap₁ gap₂ : List Char) (mark : Char) (literal : List Char) : List Char :=
  bag ++ Lexeme.spelling ⟨gap₁, .opening⟩ ++ Lexeme.spelling ⟨gap₂, .quoted mark literal⟩

/-- The items of a list of lexemes; `afterDot` tells whether the token before was a
dot. -/
def ofLexemes : (afterDot : Bool) → List Lexeme → List Item
  | _, [] => []
  | afterDot, ⟨gap, .word text⟩ :: rest =>
      if afterDot then .verbatim (gap ++ text) :: ofLexemes false rest
      else if isBag text then
        match rest with
        | ⟨gap₁, .opening⟩ :: ⟨gap₂, .quoted mark literal⟩ :: ⟨gap₃, .closing⟩ :: tail =>
            .verbatim gap ::
              .key (accessStart text gap₁ gap₂ mark literal ++ Lexeme.spelling ⟨gap₃, .closing⟩)
                literal ::
              ofLexemes false tail
        | ⟨gap₁, .opening⟩ :: ⟨gap₂, .quoted mark literal⟩ :: ⟨gap₃, .plus⟩ :: tail =>
            .verbatim gap ::
              .openKey (accessStart text gap₁ gap₂ mark literal) literal ::
              .verbatim (Lexeme.spelling ⟨gap₃, .plus⟩) ::
              ofLexemes false tail
        | rest => .verbatim gap :: .name text :: ofLexemes false rest
      else .verbatim gap :: .name text :: ofLexemes false rest
  | _, ⟨gap, .dot⟩ :: rest => .verbatim (Lexeme.spelling ⟨gap, .dot⟩) :: ofLexemes true rest
  | _, lexeme :: rest => .verbatim lexeme.spelling :: ofLexemes false rest

/-- The items of the text of a hole. -/
def ofHole (chars : List Char) : List Item :=
  let (lexemes, last) := Lexeme.lex chars
  ofLexemes false lexemes ++ [.verbatim last]

theorem spelling_ofLexemes (afterDot : Bool) (lexemes : List Lexeme) :
    (ofLexemes afterDot lexemes).flatMap spelling = lexemes.flatMap Lexeme.spelling := by
  fun_induction ofLexemes afterDot lexemes <;>
    simp_all [spelling, accessStart, Lexeme.spelling, Token.spelling, List.append_assoc]

/-- The items of a hole make up its text. -/
theorem spelling_ofHole (chars : List Char) : (ofHole chars).flatMap spelling = chars := by
  have whole := Lexeme.spelling_lex chars
  simp only [ofHole, List.flatMap_append, spelling_ofLexemes]
  simpa [spelling] using whole

end Item

/-- A part of a template: text, or the items of a hole. -/
inductive Segment where
  | text (chars : List Char)
  | hole (items : List Item)
  deriving DecidableEq, Repr

namespace Segment

/-- Put a character before a list of segments. -/
def consChar (char : Char) : List Segment → List Segment
  | .text chars :: segments => .text (char :: chars) :: segments
  | segments => .text [char] :: segments

mutual

/-- The segments of a text; absent if a hole is not closed. -/
def scan : List Char → Option (List Segment)
  | [] => some []
  | '$' :: '{' :: rest => scanHole [] rest
  | char :: rest => (scan rest).map (consChar char)

/-- The segments of a text that starts inside a hole, given the text of the hole so far
in reverse. -/
def scanHole (read : List Char) : List Char → Option (List Segment)
  | [] => none
  | '}' :: rest => (scan rest).map (.hole (Item.ofHole read.reverse) :: ·)
  | char :: rest => scanHole (char :: read) rest

end

/-- The items in the holes, in order. -/
def items : List Segment → List Item
  | [] => []
  | .text _ :: segments => items segments
  | .hole found :: segments => found ++ items segments

end Segment

end TensorLowering
