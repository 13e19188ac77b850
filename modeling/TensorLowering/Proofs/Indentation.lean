import TensorLowering.Proofs.Dictionaries
import TensorLowering.Proofs.References

/-! # Indented templates

A margin puts blanks after the line feeds of a template, in its holes too. Blanks only separate
the tokens of a hole, and a literal that spans a line break is no identifier either way. So an
indented template can be read if the template can, and it uses the same identifiers, apart from
those with a line feed in them (`TensorLowering.Template.uses_indent`).
-/

namespace TensorLowering

namespace Text

/-- The second text is the first with more blanks after some of its line feeds. -/
inductive Widened : List Char → List Char → Prop
  | nil : Widened [] []
  | keep (char : Char) {text wide : List Char} (rest : Widened text wide) :
      Widened (char :: text) (char :: wide)
  | widen {gap text wide : List Char} (blank : ∀ char ∈ gap, Lexeme.isBlank char = true)
      (rest : Widened text wide) : Widened ('\n' :: text) ('\n' :: (gap ++ wide))

namespace Widened

variable {text wide : List Char}

/-- A character that is no line feed is followed by the same text, but for blanks. -/
theorem of_cons {char : Char} (within : char ≠ '\n') (widened : Widened (char :: text) wide) :
    ∃ rest, wide = char :: rest ∧ Widened text rest := by
  cases widened with
  | keep _ rest => exact ⟨_, rfl, rest⟩
  | widen _ _ => exact absurd rfl within

theorem mem_newline_iff (widened : Widened text wide) : '\n' ∈ text ↔ '\n' ∈ wide := by
  induction widened with
  | nil => rfl
  | keep char _ ih => rw [List.mem_cons, List.mem_cons, ih]
  | widen _ _ _ => simp

theorem eq_of_one_line (widened : Widened text wide) (oneLine : '\n' ∉ text) : wide = text := by
  induction widened with
  | nil => rfl
  | keep char _ ih => rw [ih fun member => oneLine (List.mem_cons_of_mem _ member)]
  | widen _ _ _ => exact absurd List.mem_cons_self oneLine

/-! ### Reading on -/

/-- What stops at a line feed reads the same text. -/
theorem stop {admits : Char → Bool} (stops : admits '\n' = false) (widened : Widened text wide) :
    text.takeWhile admits = wide.takeWhile admits ∧
      Widened (text.dropWhile admits) (wide.dropWhile admits) := by
  induction widened with
  | nil => exact ⟨rfl, .nil⟩
  | keep char rest ih =>
      rw [List.takeWhile_cons, List.takeWhile_cons, List.dropWhile_cons, List.dropWhile_cons]
      split
      · exact ⟨by rw [ih.1], ih.2⟩
      · exact ⟨rfl, .keep char rest⟩
  | widen blank rest _ =>
      have newline : ¬ admits '\n' = true := Bool.not_eq_true _ ▸ stops
      rw [List.takeWhile_cons_of_neg newline, List.takeWhile_cons_of_neg newline,
        List.dropWhile_cons_of_neg newline, List.dropWhile_cons_of_neg newline]
      exact ⟨rfl, .widen blank rest⟩

/-- What takes blanks reads a text that is widened again, and so is the rest. -/
theorem pass {admits : Char → Bool}
    (passes : ∀ char, Lexeme.isBlank char = true → admits char = true)
    (widened : Widened text wide) :
    Widened (text.takeWhile admits) (wide.takeWhile admits) ∧
      Widened (text.dropWhile admits) (wide.dropWhile admits) := by
  induction widened with
  | nil => exact ⟨.nil, .nil⟩
  | keep char rest ih =>
      rw [List.takeWhile_cons, List.takeWhile_cons, List.dropWhile_cons, List.dropWhile_cons]
      split
      · exact ⟨.keep char ih.1, ih.2⟩
      · exact ⟨.nil, .keep char rest⟩
  | widen blank _ ih =>
      have newline : admits '\n' = true := passes _ rfl
      have gap := fun char member => passes char (blank char member)
      rw [List.takeWhile_cons_of_pos newline, List.takeWhile_cons_of_pos newline,
        List.dropWhile_cons_of_pos newline, List.dropWhile_cons_of_pos newline,
        List.takeWhile_append_of_pos gap, List.dropWhile_append_of_pos gap]
      exact ⟨.widen blank ih.1, ih.2⟩

end Widened

end Text

/-! ### Tokens of a widened hole -/

namespace Token

open Text (Widened)

/-- A literal, unless it spans lines: then it matters only that it does. -/
def plainLiteral (text : List Char) : List Char := if '\n' ∈ text then ['\n'] else text

/-- What matters of a token for the identifiers without a line feed. -/
def plain : Token → Token
  | .quoted mark text => .quoted mark (plainLiteral text)
  | .other _ => .other []
  | token => token

/-- Only the text of a literal or of another character can get lost. -/
theorem eq_of_plain {token other : Token} (same : token.plain = other)
    (noLiteral : ∀ mark text, other ≠ .quoted mark text) (noOther : ∀ text, other ≠ .other text) :
    token = other := by
  cases token with
  | quoted mark text => exact absurd same.symm (noLiteral _ _)
  | other text => exact absurd same.symm (noOther _)
  | _ => exact same

theorem plainLiteral_widened {text wide : List Char} (widened : Widened text wide) :
    plainLiteral text = plainLiteral wide := by
  by_cases spans : '\n' ∈ text
  · rw [plainLiteral, plainLiteral, if_pos spans, if_pos (widened.mem_newline_iff.mp spans)]
  · rw [widened.eq_of_one_line spans]

theorem isPrefixOf_plainLiteral {key : List Char} (oneLine : '\n' ∉ key) (text : List Char) :
    (plainLiteral text).isPrefixOf key = text.isPrefixOf key := by
  unfold plainLiteral
  split
  · next spans =>
      rw [Bool.eq_iff_iff, List.isPrefixOf_iff_prefix, List.isPrefixOf_iff_prefix]
      refine ⟨fun start => ?_, fun start => ?_⟩
      · exact absurd (start.subset List.mem_cons_self) oneLine
      · exact absurd (start.subset spans) oneLine
  · rfl

theorem ofList_plainLiteral {key : String} (oneLine : '\n' ∉ key.toList) (text : List Char) :
    String.ofList (plainLiteral text) = key ↔ String.ofList text = key := by
  unfold plainLiteral
  split
  · next spans =>
      refine ⟨?_, ?_⟩
      · rintro rfl
        exact absurd (by simp) oneLine
      · rintro rfl
        exact absurd (String.toList_ofList ▸ spans) oneLine
  · rfl

variable {rest wide : List Char}

/-- A number ends before a line feed. -/
theorem readNumber_widened (head : Char) (widened : Widened rest wide) :
    (readNumber head rest).1 = (readNumber head wide).1 ∧
      Widened (readNumber head rest).2 (readNumber head wide).2 := by
  have stops : Char.isDigit '\n' = false := rfl
  obtain ⟨digits, after⟩ := widened.stop stops
  unfold readNumber
  rw [digits]
  generalize rest.dropWhile Char.isDigit = left at after ⊢
  generalize wide.dropWhile Char.isDigit = right at after ⊢
  cases after with
  | nil => exact ⟨rfl, .nil⟩
  | widen blank rest => exact ⟨rfl, .widen blank rest⟩
  | keep char after =>
      by_cases dot : char = '.'
      · subst dot
        cases after with
        | nil => exact ⟨rfl, .keep _ .nil⟩
        | widen blank rest => exact ⟨rfl, .keep _ (.widen blank rest)⟩
        | keep digit after =>
            obtain ⟨fraction, last⟩ := after.stop stops
            by_cases isDigit : digit.isDigit = true
            · simp only [isDigit, if_true]
              exact ⟨by rw [fraction], last⟩
            · simp only [isDigit]
              exact ⟨rfl, .keep _ (.keep _ after)⟩
      · split
        · next same => exact absurd (List.cons.inj same).1 dot
        split
        · next same => exact absurd (List.cons.inj same).1 dot
        exact ⟨rfl, .keep char after⟩

/-- A quote ends at its partner, which no margin hides. -/
theorem readQuoted_widened {mark : Char} (visible : Lexeme.isBlank mark = false)
    (widened : Widened rest wide) :
    (readQuoted mark rest).1.plain = (readQuoted mark wide).1.plain ∧
      Widened (readQuoted mark rest).2 (readQuoted mark wide).2 := by
  have passes : ∀ char, Lexeme.isBlank char = true → decide (char ≠ mark) = true := by
    intro char blank
    rw [decide_eq_true_eq]
    rintro rfl
    exact Bool.false_ne_true (visible.symm.trans blank)
  obtain ⟨literal, after⟩ := widened.pass passes
  have stopped := List.head?_dropWhile_not (· ≠ mark) rest
  unfold readQuoted
  generalize rest.dropWhile (· ≠ mark) = left at after stopped ⊢
  generalize wide.dropWhile (· ≠ mark) = right at after ⊢
  cases after with
  | nil => exact ⟨rfl, .nil⟩
  | keep char after => exact ⟨congrArg (quoted mark) (plainLiteral_widened literal), after⟩
  | widen blank after =>
      have newline : decide ('\n' ≠ mark) = false := stopped
      exact absurd (passes '\n' rfl) (Bool.not_eq_true _ ▸ newline)

/-- A token of a widened text is the same but for line breaks in a literal. -/
theorem read_widened (head : Char) (widened : Widened rest wide) :
    (read head rest).1.plain = (read head wide).1.plain ∧
      Widened (read head rest).2 (read head wide).2 := by
  have stops : insideWord '\n' = false := rfl
  unfold read
  split
  · obtain ⟨word, after⟩ := widened.stop stops
    exact ⟨by rw [word], after⟩
  split
  · obtain ⟨number, after⟩ := readNumber_widened head widened
    exact ⟨by rw [number], after⟩
  split
  · next quote =>
      apply readQuoted_widened _ widened
      rcases quote with rfl | rfl <;> rfl
  repeat' split
  all_goals exact ⟨rfl, widened⟩

theorem length_read_le (head : Char) (rest : List Char) :
    (read head rest).2.length ≤ rest.length := by
  have whole := congrArg List.length (spelling_read head rest)
  have pos := length_spelling_read_pos head rest
  rw [List.length_append, List.length_cons] at whole
  omega

end Token

namespace Lexeme

open Text (Widened)

/-- What matters of a lexeme for the identifiers without a line feed. -/
def plain (lexeme : Lexeme) : Lexeme := ⟨[], lexeme.token.plain⟩

theorem plain_word (gap text : List Char) : plain ⟨gap, .word text⟩ = ⟨[], .word text⟩ := rfl

theorem lexWithin_widened {bound wideBound : Nat} {text wide : List Char}
    (enough : text.length ≤ bound) (wideEnough : wide.length ≤ wideBound)
    (widened : Widened text wide) :
    (lexWithin bound text).1.map plain = (lexWithin wideBound wide).1.map plain := by
  induction bound generalizing text wide wideBound with
  | zero =>
      obtain rfl : text = [] := List.length_eq_zero_iff.mp (Nat.le_zero.mp enough)
      cases widened
      cases wideBound <;> rfl
  | succ bound ih =>
      obtain ⟨-, after⟩ := widened.pass fun _ => id
      have visible := List.head?_dropWhile_not isBlank text
      have shorter := (List.dropWhile_sublist isBlank (l := text)).length_le
      have wideShorter := (List.dropWhile_sublist isBlank (l := wide)).length_le
      cases wideBound with
      | zero =>
          obtain rfl : wide = [] := List.length_eq_zero_iff.mp (Nat.le_zero.mp wideEnough)
          cases widened
          rfl
      | succ wideBound =>
          unfold lexWithin
          generalize text.dropWhile isBlank = left at after visible shorter ⊢
          generalize wide.dropWhile isBlank = right at after wideShorter ⊢
          cases after with
          | nil => rfl
          | widen blank rest => cases visible
          | keep head rest =>
              obtain ⟨token, later⟩ := Token.read_widened head rest
              have read := Token.length_read_le head
              rw [List.length_cons] at shorter wideShorter
              dsimp only
              rw [List.map_cons, List.map_cons, plain, plain, token]
              congr 1
              apply ih _ _ later
              · exact (read _).trans (by omega)
              · exact (read _).trans (by omega)

end Lexeme

namespace Item

/-- Whether an item uses a key if the key is bound. -/
def mentions (key : String) : Item → Bool
  | .verbatim _ => false
  | .name text => String.ofList text = key
  | .key _ literal => String.ofList literal = key
  | .openKey _ start => start.isPrefixOf key.toList

theorem mem_names_iff {bindings : Bindings} {key : String} {item : Item} :
    key ∈ item.names bindings ↔ bindings.contains key = true ∧ item.mentions key = true := by
  cases item with
  | verbatim text => simp [names, mentions]
  | name text =>
      simp only [names, mentions, List.mem_filter, List.mem_singleton, decide_eq_true_eq]
      rw [eq_comm, and_comm]
  | key spelling literal =>
      simp only [names, mentions, List.mem_filter, List.mem_singleton, decide_eq_true_eq]
      rw [eq_comm, and_comm]
  | openKey spelling start =>
      rw [names, mentions, List.mem_filter, Dict.contains_iff_mem_keys]

theorem ofLexemes_field (gap text : List Char) (rest : List Lexeme) :
    ofLexemes true (⟨gap, .word text⟩ :: rest) =
      .verbatim (gap ++ text) :: ofLexemes false rest := by
  rw [ofLexemes.eq_def]
  rfl

theorem ofLexemes_name {text : List Char} (noBag : isBag text = false) (gap : List Char)
    (rest : List Lexeme) :
    ofLexemes false (⟨gap, .word text⟩ :: rest) =
      .verbatim gap :: .name text :: ofLexemes false rest := by
  rw [ofLexemes.eq_def]
  simp only [noBag, Bool.false_eq_true, if_false]

/-- The plain form of a list of lexemes starts like an access only if the list does. -/
theorem exists_access_of_plain {rest tail : List Lexeme} {gap₁ gap₂ gap₃ literal : List Char}
    {mark : Char} {last : Token} (ends : last = .closing ∨ last = .plus)
    (access : rest.map Lexeme.plain =
      ⟨gap₁, .opening⟩ :: ⟨gap₂, .quoted mark literal⟩ :: ⟨gap₃, last⟩ :: tail) :
    ∃ gap₁ gap₂ literal gap₃ tail, rest =
      ⟨gap₁, .opening⟩ :: ⟨gap₂, .quoted mark literal⟩ :: ⟨gap₃, last⟩ :: tail := by
  obtain ⟨⟨opening, first⟩, rest, rfl, firstIs, access⟩ := List.map_eq_cons_iff.mp access
  obtain ⟨⟨between, second⟩, rest, rfl, secondIs, access⟩ := List.map_eq_cons_iff.mp access
  obtain ⟨⟨before, third⟩, rest, rfl, thirdIs, -⟩ := List.map_eq_cons_iff.mp access
  have firstToken := congrArg Lexeme.token firstIs
  have secondToken := congrArg Lexeme.token secondIs
  have thirdToken := congrArg Lexeme.token thirdIs
  obtain rfl : first = .opening := Token.eq_of_plain firstToken (by simp) (by simp)
  obtain rfl : third = last := by
    apply Token.eq_of_plain thirdToken <;> rcases ends with rfl | rfl <;> simp
  cases second with
  | quoted mark text =>
      cases secondToken
      exact ⟨opening, between, text, before, rest, rfl⟩
  | _ => cases secondToken

/-- The plain form of lexemes mentions the same keys that have no line feed. -/
theorem any_mentions_plain {key : String} (oneLine : '\n' ∉ key.toList) (afterDot : Bool)
    (lexemes : List Lexeme) :
    (ofLexemes afterDot (lexemes.map Lexeme.plain)).any (mentions key) =
      (ofLexemes afterDot lexemes).any (mentions key) := by
  have literals := Token.ofList_plainLiteral oneLine
  have starts := Token.isPrefixOf_plainLiteral oneLine
  fun_induction ofLexemes afterDot lexemes with
  | case1 => rfl
  | case2 gap text rest ih =>
      rw [List.map_cons, Lexeme.plain_word, ofLexemes_field, List.any_cons, List.any_cons,
        ih]
      rfl
  | case3 => simp_all [ofLexemes, mentions, Lexeme.plain, Token.plain]
  | case4 => simp_all [ofLexemes, mentions, Lexeme.plain, Token.plain]
  | case5 afterDot gap text noDot bag rest noKey noStart ih =>
      obtain rfl : afterDot = false := Bool.not_eq_true _ ▸ noDot
      rw [List.map_cons, Lexeme.plain_word, ofLexemes.eq_4, if_neg Bool.false_ne_true,
        if_pos bag]
      · simp [mentions, ih]
      · intro _ _ _ _ _ _ access
        obtain ⟨gap₁, gap₂, literal, gap₃, tail, rfl⟩ := exists_access_of_plain (.inl rfl) access
        exact noKey _ _ _ _ _ _ rfl
      · intro _ _ _ _ _ _ access
        obtain ⟨gap₁, gap₂, literal, gap₃, tail, rfl⟩ := exists_access_of_plain (.inr rfl) access
        exact noStart _ _ _ _ _ _ rfl
  | case6 afterDot gap text rest noDot noBag ih =>
      obtain rfl : afterDot = false := Bool.not_eq_true _ ▸ noDot
      rw [List.map_cons, Lexeme.plain_word, ofLexemes_name (Bool.not_eq_true _ ▸ noBag)]
      simp [mentions, ih]
  | case7 => simp_all [ofLexemes, mentions, Lexeme.plain, Token.plain]
  | case8 afterDot lexeme rest noWord noDot ih =>
      rw [List.map_cons, ofLexemes.eq_6]
      · simp [mentions, ih]
      · intro gap text word
        have token : lexeme.token = .word text :=
          Token.eq_of_plain (congrArg Lexeme.token word) (by simp) (by simp)
        exact noWord lexeme.gap text (by rw [← token])
      · intro gap dot
        have token : lexeme.token = .dot :=
          Token.eq_of_plain (congrArg Lexeme.token dot) (by simp) (by simp)
        exact noDot lexeme.gap (by rw [← token])

/-- A hole mentions the same keys when it is widened. -/
theorem any_mentions_widened {key : String} (oneLine : '\n' ∉ key.toList) {text wide : List Char}
    (widened : Text.Widened text wide) :
    (ofHole text).any (mentions key) = (ofHole wide).any (mentions key) := by
  have lexemes := Lexeme.lexWithin_widened (Nat.le_refl _) (Nat.le_refl _) widened
  simp only [ofHole, List.any_append, List.any_cons, mentions, List.any_nil, Bool.or_false]
  rw [← any_mentions_plain oneLine, Lexeme.lex, Lexeme.lex, lexemes, any_mentions_plain oneLine]

end Item

/-! ### Widened templates -/

namespace Segment

open Text (Widened)

theorem scanHole_of_closed {inner : List Char} (within : '\x7d' ∉ inner)
    (rest read : List Char) :
    scanHole read (inner ++ '\x7d' :: rest) =
      (scan rest).map (.hole (Item.ofHole (read.reverse ++ inner)) :: ·) := by
  induction inner generalizing read with
  | nil => rw [List.nil_append, List.append_nil, scanHole]
  | cons char inner ih =>
      rw [List.mem_cons, not_or] at within
      rw [List.cons_append, scanHole, ih within.2, List.reverse_cons, List.append_assoc]
      · rfl
      · exact fun same => within.1 same.symm

theorem scanHole_of_open {inner : List Char} (within : '\x7d' ∉ inner) (read : List Char) :
    scanHole read inner = none := by
  induction inner generalizing read with
  | nil => rw [scanHole]
  | cons char inner ih =>
      rw [List.mem_cons, not_or] at within
      rw [scanHole, ih within.2]
      exact fun same => within.1 same.symm

theorem items_consChar (char : Char) (segments : List Segment) :
    items (consChar char segments) = items segments := by
  unfold consChar
  split <;> rfl

/-- Whether the holes mention a key. -/
def mentions (key : String) (segments : List Segment) : Bool :=
  (items segments).any (Item.mentions key)

theorem map_mentions_hole (key : String) (found : List Item) (scanned : Option (List Segment)) :
    (scanned.map (.hole found :: ·)).map (mentions key) =
      (scanned.map (mentions key)).map (found.any (Item.mentions key) || ·) := by
  cases scanned <;> simp [mentions, items]

theorem scan_char {char : Char} {rest : List Char}
    (noHole : ∀ inner, char = '$' → rest ≠ '\x7b' :: inner) (key : String) :
    (scan (char :: rest)).map (mentions key) = (scan rest).map (mentions key) := by
  rw [scan, Option.map_map]
  · congr 1
    funext segments
    rw [Function.comp, mentions, items_consChar, mentions]
  · exact noHole

theorem scan_gap {gap : List Char} (blank : ∀ char ∈ gap, Lexeme.isBlank char = true)
    (key : String) (rest : List Char) :
    (scan (gap ++ rest)).map (mentions key) = (scan rest).map (mentions key) := by
  induction gap with
  | nil => rfl
  | cons char gap ih =>
      rw [List.forall_mem_cons] at blank
      rw [List.cons_append, scan_char, ih blank.2]
      rintro _ rfl
      exact absurd blank.1 (by decide)

/-- A widened hole mentions the same keys if the text after it does. -/
theorem scanHole_widened {key : String} (oneLine : '\n' ∉ key.toList) {text wide : List Char}
    (widened : Widened text wide)
    (later : ∀ {rest wideRest : List Char}, rest.length < text.length → Widened rest wideRest →
      (scan rest).map (mentions key) = (scan wideRest).map (mentions key)) :
    (scanHole [] text).map (mentions key) = (scanHole [] wide).map (mentions key) := by
  have passes : ∀ char, Lexeme.isBlank char = true → decide (char ≠ '\x7d') = true := by
    intro char blank
    rw [decide_eq_true_eq]
    rintro rfl
    exact absurd blank (by decide)
  have within : ∀ chars : List Char, '\x7d' ∉ chars.takeWhile (· ≠ '\x7d') :=
    fun chars member => absurd (List.all_eq_true.mp List.all_takeWhile _ member) (by decide)
  obtain ⟨inner, after⟩ := widened.pass passes
  have holes := Item.any_mentions_widened oneLine inner
  have stopped := List.head?_dropWhile_not (· ≠ '\x7d') text
  have split := List.takeWhile_append_dropWhile (p := (· ≠ '\x7d')) (l := text)
  have wideSplit := List.takeWhile_append_dropWhile (p := (· ≠ '\x7d')) (l := wide)
  generalize text.dropWhile (· ≠ '\x7d') = rest at after stopped split
  generalize wide.dropWhile (· ≠ '\x7d') = wideRest at after wideSplit
  cases after with
  | nil =>
      rw [List.append_nil] at split wideSplit
      rw [← split, ← wideSplit, scanHole_of_open (within _), scanHole_of_open (within _)]
  | widen _ _ => exact absurd (passes '\n' rfl) (Bool.not_eq_true _ ▸ stopped)
  | @keep char rest wideRest after =>
      obtain rfl : '\x7d' = char := (not_not.mp (of_decide_eq_false stopped)).symm
      have shorter : rest.length < text.length := by
        rw [← split, List.length_append, List.length_cons]
        omega
      rw [← split, ← wideSplit, scanHole_of_closed (within _), scanHole_of_closed (within _),
        map_mentions_hole, map_mentions_hole, later shorter after, List.reverse_nil,
        List.nil_append, List.nil_append, holes]

/-- A widened text has the same holes, but for the blanks in them. -/
theorem scan_widened {key : String} (oneLine : '\n' ∉ key.toList) {text wide : List Char}
    (widened : Widened text wide) :
    (scan text).map (mentions key) = (scan wide).map (mentions key) := by
  induction length : text.length using Nat.strong_induction_on generalizing text wide with
  | _ size ih =>
      subst length
      cases widened with
      | nil => rfl
      | @widen gap text wide blank rest =>
          rw [scan_char (by simp), scan_char (by simp), scan_gap blank]
          exact ih _ (Nat.lt_succ_self _) rest rfl
      | @keep char text wide rest =>
          by_cases hole : char = '$' ∧ text.head? = some '\x7b'
          · obtain ⟨rfl, start⟩ := hole
            obtain ⟨text, rfl⟩ : ∃ inner, text = '\x7b' :: inner := by
              cases text with
              | nil => cases start
              | cons head text => exact ⟨text, by rw [Option.some.inj start]⟩
            obtain ⟨wide, rfl, inner⟩ := rest.of_cons (by decide)
            rw [scan, scan]
            refine scanHole_widened oneLine inner fun shorter widened => ?_
            exact ih _ (by simp only [List.length_cons]; omega) widened rfl
          · have starts : wide.head? = text.head? := by cases rest <;> rfl
            rw [scan_char, scan_char]
            · exact ih _ (Nat.lt_succ_self _) rest rfl
            · rintro inner rfl rfl
              exact hole ⟨rfl, starts.symm⟩
            · rintro inner rfl rfl
              exact hole ⟨rfl, rfl⟩

end Segment

/-! ### Margins -/

namespace Text

theorem intercalate_append (separator front piece : List Char) (pieces : List (List Char)) :
    separator.intercalate ((front ++ piece) :: pieces) =
      front ++ separator.intercalate (piece :: pieces) := by
  cases pieces with
  | nil => rw [List.intercalate_singleton, List.intercalate_singleton]
  | cons next pieces => simp only [List.intercalate_cons_cons, List.append_assoc]

/-- A piece with a margin, unless it is empty. -/
def withMargin (margin piece : List Char) : List Char :=
  if piece.isEmpty then [] else margin ++ piece

/-- A margin before all pieces but the first stands after the line feeds of a text. -/
theorem widened_splitChar {margin : List Char}
    (blank : ∀ char ∈ margin, Lexeme.isBlank char = true) (text : List Char) :
    ∃ piece pieces, splitChar '\n' text = piece :: pieces ∧
      Widened text (['\n'].intercalate (piece :: pieces.map (withMargin margin))) := by
  induction text with
  | nil => exact ⟨[], [], rfl, .nil⟩
  | cons head rest ih =>
      obtain ⟨piece, pieces, split, widened⟩ := ih
      by_cases newline : head = '\n'
      · subst newline
        refine ⟨[], piece :: pieces, by simp [splitChar, split], ?_⟩
        rw [List.map_cons, List.intercalate_cons_cons, List.nil_append, withMargin]
        split
        · next empty =>
            rw [List.isEmpty_iff.mp empty] at widened
            exact .keep _ widened
        · rw [intercalate_append, List.singleton_append]
          exact .widen blank widened
      · refine ⟨head :: piece, pieces, by simp [splitChar, split, newline], ?_⟩
        rw [show head :: piece = [head] ++ piece from rfl, intercalate_append]
        exact .keep head widened

/-- A margin widens a text at its line feeds, and at its start. -/
theorem indent_widened {margin : String}
    (blank : ∀ char ∈ margin.toList, Lexeme.isBlank char = true) (text : String) :
    Widened ('\n' :: text.toList) ('\n' :: (indent margin text).toList) := by
  obtain ⟨piece, pieces, split, widened⟩ := widened_splitChar blank ('\n' :: text.toList)
  have pieceMargin : (String.toList ∘ fun piece : List Char =>
      if piece.isEmpty then "" else margin ++ String.ofList piece) = withMargin margin.toList := by
    funext piece
    rw [Function.comp_apply, withMargin]
    split <;> simp
  rw [splitChar, if_pos rfl, List.cons.injEq] at split
  rw [← split.1, ← split.2, List.intercalate_cons_of_ne_nil] at widened
  · rw [indent, String.toList_intercalate, List.map_map, pieceMargin]
    exact widened
  · rw [Ne, List.map_eq_nil_iff]
    fun_cases splitChar '\n' text.toList <;> simp

end Text

namespace Template

/-- A template can be read and uses a key if the key is bound. -/
def Uses (template : Template) (key : String) : Prop :=
  ∃ parsed, parse template.source = .ok parsed ∧ Segment.mentions key parsed.segments = true

theorem uses_iff {template : Template} {key : String} : template.Uses key ↔
    (Segment.scan template.source.toList).map (Segment.mentions key) = some true := by
  unfold Uses parse
  cases Segment.scan template.source.toList <;> simp

theorem isOk_parse (source : String) :
    (parse source).isOk = (Segment.scan source.toList).isSome := by
  unfold parse
  cases Segment.scan source.toList <;> rfl

variable {margin : String} (blank : ∀ char ∈ margin.toList, Lexeme.isBlank char = true)
include blank

/-- **An indented template uses the same keys,** apart from those with a line feed. -/
theorem uses_indent (template : Template) {key : String} (oneLine : '\n' ∉ key.toList) :
    (template.indent margin).Uses key ↔ template.Uses key := by
  have same := Segment.scan_widened oneLine (Text.indent_widened blank template.source)
  rw [Segment.scan_char (by simp), Segment.scan_char (by simp)] at same
  rw [uses_iff, uses_iff, same]
  rfl

/-- An indented template can be read exactly if the template can. -/
theorem isOk_parse_indent (template : Template) :
    (parse (template.indent margin).source).isOk = (parse template.source).isOk := by
  have oneLine : '\n' ∉ "".toList := by decide
  have same := Segment.scan_widened oneLine (Text.indent_widened blank template.source)
  rw [Segment.scan_char (by simp), Segment.scan_char (by simp)] at same
  have present := congrArg Option.isSome same
  rw [Option.isSome_map, Option.isSome_map] at present
  rw [isOk_parse, isOk_parse, present]
  rfl

end Template

/-- A fragment touches the buffers whose names are bound to keys that its template uses. -/
theorem Fragment.mem_touched_iff_uses {fragment : Fragment} {context : Context} {name : String} :
    name ∈ fragment.touched context ↔ context.isBuffer name = true ∧
      ∃ key, fragment.template.Uses key ∧ fragment.bindings.find? key = some (.name name) := by
  have names : ∀ parsed : Parsed, ∀ key, key ∈ parsed.names fragment.bindings ↔
      fragment.bindings.contains key = true ∧ Segment.mentions key parsed.segments = true := by
    intro parsed key
    simp only [Parsed.names, List.mem_eraseDups, List.mem_flatMap, Item.mem_names_iff,
      Segment.mentions, List.any_eq_true]
    constructor
    · rintro ⟨item, listed, bound, mentioned⟩
      exact ⟨bound, item, listed, mentioned⟩
    · rintro ⟨bound, item, listed, mentioned⟩
      exact ⟨item, listed, bound, mentioned⟩
  rw [mem_touched_iff]
  constructor
  · rintro ⟨parsed, read, key, used, bound, known⟩
    exact ⟨known, key, ⟨parsed, read, ((names parsed key).mp used).2⟩, bound⟩
  · rintro ⟨known, key, ⟨parsed, read, mentioned⟩, bound⟩
    have contained : fragment.bindings.contains key = true := by rw [Dict.contains, bound]; rfl
    exact ⟨parsed, read, key, (names parsed key).mpr ⟨contained, mentioned⟩, bound, known⟩

end TensorLowering
