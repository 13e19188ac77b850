import TensorLowering.Proofs.LongestTokens
import TensorLowering.Proofs.Substitution

/-! # Exact substitution

A template is scanned from left to right for holes, each up to the first closing brace. In a hole
the words and the keyed accesses that do not follow a dot make place for texts, and all else stays.
Reading a template fails exactly if a hole is not closed, and rendering gives exactly the text that
is described so (`TensorLowering.Template.render_exact`).
-/

namespace TensorLowering

/-! ### Holes -/

/-- Lexemes start with an access to a keyed bag by a literal, up to a last token. -/
inductive Lexeme.Access (last : Token) : List Lexeme → Prop
  | intro {gap bag gap₁ gap₂ key gap₃ : List Char} {mark : Char} {rest : List Lexeme}
      (isBag : bag = "args".toList ∨ bag = "kwargs".toList) :
      Access last
        (⟨gap, .word bag⟩ :: ⟨gap₁, .opening⟩ :: ⟨gap₂, .quoted mark key⟩ :: ⟨gap₃, last⟩ :: rest)

section Replacement

variable (puts : String → String → Prop)

/-- A hole is filled: a word and a complete access make place unless they follow a dot, and all else
stays. What goes on after the literal of an access cannot be filled. -/
inductive Lexeme.Fills : (afterDot : Bool) → List Lexeme → List Char → Prop
  | nil (afterDot : Bool) : Fills afterDot [] []
  | kept {afterDot : Bool} {lexeme : Lexeme} {lexemes : List Lexeme} {text : List Char}
      (stays : afterDot = true ∨ ∀ word, lexeme.token ≠ .word word)
      (later : Fills (decide (lexeme.token = .dot)) lexemes text) :
      Fills afterDot (lexeme :: lexemes) (lexeme.spelling ++ text)
  | word {gap word : List Char} {put : String} {lexemes : List Lexeme} {text : List Char}
      (noAccess : ∀ last, last = .closing ∨ last = .plus →
        ¬ Access last (⟨gap, .word word⟩ :: lexemes))
      (place : puts (String.ofList word) put) (later : Fills false lexemes text) :
      Fills false (⟨gap, .word word⟩ :: lexemes) (gap ++ put.toList ++ text)
  | access {gap bag gap₁ gap₂ key gap₃ : List Char} {mark : Char} {put : String}
      {lexemes : List Lexeme} {text : List Char}
      (isBag : bag = "args".toList ∨ bag = "kwargs".toList)
      (place : puts (String.ofList key) put) (later : Fills false lexemes text) :
      Fills false
        (⟨gap, .word bag⟩ :: ⟨gap₁, .opening⟩ :: ⟨gap₂, .quoted mark key⟩ :: ⟨gap₃, .closing⟩ ::
          lexemes) (gap ++ put.toList ++ text)

/-- A template is replaced: text outside of holes stays, and holes are filled, each up to the first
closing brace. -/
inductive Template.Replaces : List Char → List Char → Prop
  | nil : Replaces [] []
  | char {char : Char} {rest text : List Char} (plain : ¬ ['$', '\x7b'] <+: char :: rest)
      (later : Replaces rest text) : Replaces (char :: rest) (char :: text)
  | hole {body last filled rest text : List Char} {lexemes : List Lexeme} (inside : '\x7d' ∉ body)
      (lexes : Lexeme.Lexes body lexemes last) (fills : Lexeme.Fills puts false lexemes filled)
      (later : Replaces rest text) :
      Replaces ('$' :: '\x7b' :: (body ++ '\x7d' :: rest)) (filled ++ last ++ text)

end Replacement

namespace Template

/-- The scan of a text for holes comes to a place. -/
inductive Comes : List Char → List Char → Prop
  | here (chars : List Char) : Comes chars chars
  | char {char : Char} {rest place : List Char} (plain : ¬ ['$', '\x7b'] <+: char :: rest)
      (later : Comes rest place) : Comes (char :: rest) place
  | hole {body rest place : List Char} (inside : '\x7d' ∉ body) (later : Comes rest place) :
      Comes ('$' :: '\x7b' :: (body ++ '\x7d' :: rest)) place

/-- The scan comes to a hole that is not closed. -/
def Unclosed (chars : List Char) : Prop :=
  ∃ rest, Comes chars ('$' :: '\x7b' :: rest) ∧ '\x7d' ∉ rest

/-- A text has a hole, as the scan comes to it. -/
def HasHole (chars body : List Char) : Prop :=
  '\x7d' ∉ body ∧ ∃ rest, Comes chars ('$' :: '\x7b' :: (body ++ '\x7d' :: rest))

/-- A hole has no keyed access, and each word in it is bound to itself. -/
structure SelfBound (bindings : Bindings) (body : List Char) : Prop where
  noAccess : ∀ lexemes last, Lexeme.Lexes body lexemes last → ∀ later, later <:+ lexemes →
    ∀ token, token = .closing ∨ token = .plus → ¬ Lexeme.Access token later
  bound : ∀ lexemes last, Lexeme.Lexes body lexemes last →
    ∀ lexeme ∈ lexemes, ∀ word, lexeme.token = .word word →
      bindings.textOf? (String.ofList word) = some (String.ofList word)

mutual

/-- A text without the delimiters of its holes. -/
def stripped : List Char → List Char
  | [] => []
  | '$' :: '{' :: rest => strippedHole rest
  | char :: rest => char :: stripped rest

/-- A text without delimiters, from inside a hole on. -/
def strippedHole : List Char → List Char
  | [] => []
  | '}' :: rest => stripped rest
  | char :: rest => char :: strippedHole rest

end

end Template

/-! ### The text that items make -/

namespace Item

/-- The text that items make together. -/
def Makes (indirections : Dict (List Indirection)) (bindings : Bindings) (items : List Item)
    (text : List Char) : Prop :=
  ∃ pieces, List.Forall₂ (Item.Yields indirections bindings) items pieces ∧
    text = Piece.chars pieces

section Makes

variable {indirections : Dict (List Indirection)} {bindings : Bindings} {items : List Item}
  {text : List Char}

@[simp] theorem makes_nil : Makes indirections bindings [] text ↔ text = [] := by
  simp [Makes, List.forall₂_nil_left_iff]

@[simp] theorem makes_verbatim {kept : List Char} :
    Makes indirections bindings (.verbatim kept :: items) text ↔
      ∃ rest, Makes indirections bindings items rest ∧ text = kept ++ rest := by
  constructor
  · rintro ⟨pieces, yields, rfl⟩
    obtain ⟨piece, pieces, head, rest, rfl⟩ := List.forall₂_cons_left_iff.mp yields
    cases head
    exact ⟨_, ⟨pieces, rest, rfl⟩, by rw [Piece.chars_cons, Piece.text, String.toList_ofList]⟩
  · rintro ⟨_, ⟨pieces, rest, rfl⟩, rfl⟩
    refine ⟨_, .cons (.verbatim kept) rest, ?_⟩
    rw [Piece.chars_cons, Piece.text, String.toList_ofList]

@[simp] theorem makes_name {word : List Char} :
    Makes indirections bindings (.name word :: items) text ↔
      ∃ put, bindings.Puts indirections (String.ofList word) put ∧
        ∃ rest, Makes indirections bindings items rest ∧ text = put.toList ++ rest := by
  constructor
  · rintro ⟨pieces, yields, rfl⟩
    obtain ⟨piece, pieces, head, rest, rfl⟩ := List.forall₂_cons_left_iff.mp yields
    cases head with
    | name puts => exact ⟨_, puts, _, ⟨pieces, rest, rfl⟩, by rw [Piece.chars_cons, Piece.text]⟩
  · rintro ⟨put, puts, _, ⟨pieces, rest, rfl⟩, rfl⟩
    exact ⟨_, .cons (.name puts) rest, by rw [Piece.chars_cons, Piece.text]⟩

@[simp] theorem makes_key {spelling key : List Char} :
    Makes indirections bindings (.key spelling key :: items) text ↔
      ∃ put, bindings.Puts indirections (String.ofList key) put ∧
        ∃ rest, Makes indirections bindings items rest ∧ text = put.toList ++ rest := by
  constructor
  · rintro ⟨pieces, yields, rfl⟩
    obtain ⟨piece, pieces, head, rest, rfl⟩ := List.forall₂_cons_left_iff.mp yields
    cases head with
    | key _ puts => exact ⟨_, puts, _, ⟨pieces, rest, rfl⟩, by rw [Piece.chars_cons, Piece.text]⟩
  · rintro ⟨put, puts, _, ⟨pieces, rest, rfl⟩, rfl⟩
    exact ⟨_, .cons (.key spelling puts) rest, by rw [Piece.chars_cons, Piece.text]⟩

@[simp] theorem not_makes_openKey {spelling start : List Char} :
    ¬ Makes indirections bindings (.openKey spelling start :: items) text := by
  rintro ⟨pieces, yields, -⟩
  obtain ⟨piece, pieces, head, -⟩ := List.forall₂_cons_left_iff.mp yields
  cases head

theorem makes_append {others : List Item} :
    Makes indirections bindings (items ++ others) text ↔
      ∃ first second, Makes indirections bindings items first ∧
        Makes indirections bindings others second ∧ text = first ++ second := by
  constructor
  · rintro ⟨pieces, yields, rfl⟩
    obtain ⟨before, after, first, second, rfl⟩ := forall₂_append_iff.mp yields
    exact ⟨_, _, ⟨before, first, rfl⟩, ⟨after, second, rfl⟩, Piece.chars_append _ _⟩
  · rintro ⟨_, _, ⟨before, first, rfl⟩, ⟨after, second, rfl⟩, rfl⟩
    exact ⟨before ++ after, List.rel_append first second, (Piece.chars_append _ _).symm⟩

end Makes

/-! ### Items of lexemes -/

theorem isBag_iff {bag : List Char} :
    isBag bag = true ↔ bag = "args".toList ∨ bag = "kwargs".toList := by
  rw [isBag, Bool.or_eq_true, decide_eq_true_eq, decide_eq_true_eq]
  rfl

theorem ofLexemes_kept {afterDot : Bool} {lexeme : Lexeme} {lexemes : List Lexeme}
    (stays : afterDot = true ∨ ∀ word, lexeme.token ≠ .word word) :
    ofLexemes afterDot (lexeme :: lexemes) =
      .verbatim lexeme.spelling :: ofLexemes (decide (lexeme.token = .dot)) lexemes := by
  obtain ⟨gap, token⟩ := lexeme
  cases token with
  | word text =>
      rcases stays with rfl | noWord
      · exact ofLexemes_field gap text lexemes
      · exact absurd rfl (noWord text)
  | _ =>
      rw [ofLexemes.eq_def]
      rfl

theorem ofLexemes_access {bag : List Char} (isBag : bag = "args".toList ∨ bag = "kwargs".toList)
    (gap gap₁ gap₂ key gap₃ : List Char) (mark : Char) (lexemes : List Lexeme) :
    ofLexemes false
        (⟨gap, .word bag⟩ :: ⟨gap₁, .opening⟩ :: ⟨gap₂, .quoted mark key⟩ :: ⟨gap₃, .closing⟩ ::
          lexemes) =
      .verbatim gap ::
        .key (accessStart bag gap₁ gap₂ mark key ++ Lexeme.spelling ⟨gap₃, .closing⟩) key ::
        ofLexemes false lexemes := by
  rw [ofLexemes.eq_def]
  simp only [isBag_iff.mpr isBag, Bool.false_eq_true, if_false, if_true]

theorem ofLexemes_word {gap word : List Char} {lexemes : List Lexeme}
    (noAccess : ∀ last, last = .closing ∨ last = .plus →
      ¬ Lexeme.Access last (⟨gap, .word word⟩ :: lexemes)) :
    ofLexemes false (⟨gap, .word word⟩ :: lexemes) =
      .verbatim gap :: .name word :: ofLexemes false lexemes := by
  cases bag : isBag word with
  | false => exact ofLexemes_name bag gap lexemes
  | true =>
      have isBag := isBag_iff.mp bag
      rw [ofLexemes.eq_def]
      simp only [bag, Bool.false_eq_true, if_false, if_true]
      split
      · exact absurd (.intro isBag) (noAccess _ (.inl rfl))
      · exact absurd (.intro isBag) (noAccess _ (.inr rfl))
      · rfl

variable {indirections : Dict (List Indirection)} {bindings : Bindings} {afterDot : Bool}
  {lexemes : List Lexeme} {text : List Char}

theorem not_makes_of_access (access : Lexeme.Access .plus lexemes) :
    ¬ Makes indirections bindings (ofLexemes false lexemes) text := by
  cases access with
  | intro isBag =>
      rw [ofLexemes.eq_def]
      simp only [isBag_iff.mpr isBag, Bool.false_eq_true, if_false, if_true]
      rw [makes_verbatim]
      rintro ⟨rest, opened, -⟩
      exact not_makes_openKey opened

theorem fills_of_makes (makes : Makes indirections bindings (ofLexemes afterDot lexemes) text) :
    Lexeme.Fills (bindings.Puts indirections) afterDot lexemes text := by
  induction count : lexemes.length using Nat.strong_induction_on
    generalizing afterDot lexemes text with
  | _ size ih =>
      subst count
      cases lexemes with
      | nil =>
          obtain rfl := makes_nil.mp makes
          exact .nil afterDot
      | cons lexeme lexemes =>
          by_cases stays : afterDot = true ∨ ∀ word, lexeme.token ≠ .word word
          · rw [ofLexemes_kept stays] at makes
            obtain ⟨rest, later, rfl⟩ := makes_verbatim.mp makes
            exact .kept stays (ih _ (Nat.lt_succ_self _) later rfl)
          obtain ⟨gap, token⟩ := lexeme
          obtain ⟨noDot, isWord⟩ := not_or.mp stays
          obtain ⟨word, notNot⟩ := not_forall.mp isWord
          obtain rfl : token = .word word := not_not.mp notNot
          obtain rfl : afterDot = false := Bool.not_eq_true _ ▸ noDot
          by_cases complete : Lexeme.Access .closing (⟨gap, .word word⟩ :: lexemes)
          · cases complete with
            | intro isBag =>
                rw [ofLexemes_access isBag] at makes
                obtain ⟨_, key, rfl⟩ := makes_verbatim.mp makes
                obtain ⟨put, place, rest, later, rfl⟩ := makes_key.mp key
                rw [← List.append_assoc]
                exact .access isBag place (ih _ (by simp only [List.length_cons]; omega) later rfl)
          · have noAccess : ∀ last, last = .closing ∨ last = .plus →
                ¬ Lexeme.Access last (⟨gap, .word word⟩ :: lexemes) := by
              rintro last (rfl | rfl)
              · exact complete
              · exact fun access => not_makes_of_access access makes
            rw [ofLexemes_word noAccess] at makes
            obtain ⟨_, name, rfl⟩ := makes_verbatim.mp makes
            obtain ⟨put, place, rest, later, rfl⟩ := makes_name.mp name
            rw [← List.append_assoc]
            exact .word noAccess place (ih _ (Nat.lt_succ_self _) later rfl)

theorem makes_of_fills (fills : Lexeme.Fills (bindings.Puts indirections) afterDot lexemes text) :
    Makes indirections bindings (ofLexemes afterDot lexemes) text := by
  induction fills with
  | nil afterDot => exact makes_nil.mpr rfl
  | kept stays _ ih =>
      rw [ofLexemes_kept stays]
      exact makes_verbatim.mpr ⟨_, ih, rfl⟩
  | word noAccess place _ ih =>
      rw [ofLexemes_word noAccess]
      exact makes_verbatim.mpr ⟨_, makes_name.mpr ⟨_, place, _, ih, rfl⟩, List.append_assoc _ _ _⟩
  | access isBag place _ ih =>
      rw [ofLexemes_access isBag]
      exact makes_verbatim.mpr ⟨_, makes_key.mpr ⟨_, place, _, ih, rfl⟩, List.append_assoc _ _ _⟩

/-- The items of a hole make the text that fills it. -/
theorem makes_ofHole_iff {body : List Char} :
    Makes indirections bindings (ofHole body) text ↔
      ∃ lexemes last filled, Lexeme.Lexes body lexemes last ∧
        Lexeme.Fills (bindings.Puts indirections) false lexemes filled ∧ text = filled ++ last := by
  have hole : ofHole body =
      ofLexemes false (Lexeme.lex body).1 ++ [.verbatim (Lexeme.lex body).2] := rfl
  rw [hole, makes_append]
  simp only [makes_verbatim, makes_nil, exists_eq_left, List.append_nil]
  constructor
  · rintro ⟨filled, last, makes, rfl, rfl⟩
    exact ⟨_, _, filled, Lexeme.lexes_iff.mpr rfl, fills_of_makes makes, rfl⟩
  · rintro ⟨lexemes, last, filled, lexes, fills, rfl⟩
    rw [Lexeme.lexes_iff.mp lexes]
    exact ⟨filled, last, makes_of_fills fills, rfl, rfl⟩

end Item

/-! ### Scanning -/

namespace Segment

variable {indirections : Dict (List Indirection)} {bindings : Bindings} {text : List Char}

theorem makes_consChar_iff {char : Char} {segments : List Segment} :
    Item.Makes indirections bindings ((consChar char segments).flatMap parts) text ↔
      ∃ rest, Item.Makes indirections bindings (segments.flatMap parts) rest ∧
        text = char :: rest := by
  unfold consChar
  split
  · next chars segments =>
      rw [List.flatMap_cons, List.flatMap_cons, parts, parts]
      simp
  · rw [List.flatMap_cons, parts]
    simp

end Segment

namespace Template

theorem scan_of_plain {char : Char} {rest : List Char} (plain : ¬ ['$', '\x7b'] <+: char :: rest) :
    Segment.scan (char :: rest) = (Segment.scan rest).map (Segment.consChar char) := by
  rw [Segment.scan]
  rintro inner rfl rfl
  exact plain (by simp)

theorem scan_of_closed {body : List Char} (inside : '\x7d' ∉ body) (rest : List Char) :
    Segment.scan ('$' :: '\x7b' :: (body ++ '\x7d' :: rest)) =
      (Segment.scan rest).map (.hole (Item.ofHole body) :: ·) := by
  rw [Segment.scan, Segment.scanHole_of_closed inside]
  rfl

/-- A text is scanned character by character and hole by hole, unless a hole is not closed. -/
theorem scanInduction {motive : List Char → Prop} (nil : motive [])
    (char : ∀ char rest, ¬ ['$', '\x7b'] <+: char :: rest → motive rest → motive (char :: rest))
    (hole : ∀ body rest, '\x7d' ∉ body → motive rest →
      motive ('$' :: '\x7b' :: (body ++ '\x7d' :: rest)))
    (unclosed : ∀ rest, '\x7d' ∉ rest → motive ('$' :: '\x7b' :: rest)) (chars : List Char) :
    motive chars := by
  induction count : chars.length using Nat.strong_induction_on generalizing chars with
  | _ size ih =>
      subst count
      cases chars with
      | nil => exact nil
      | cons first rest =>
          by_cases plain : ['$', '\x7b'] <+: first :: rest
          · obtain ⟨inner, same⟩ := plain
            obtain ⟨rfl, rfl⟩ : '$' = first ∧ '\x7b' :: inner = rest := List.cons.inj same
            by_cases closed : '\x7d' ∈ inner
            · obtain ⟨body, rest, rfl, inside⟩ := List.eq_append_cons_of_mem closed
              refine hole body rest inside (ih _ ?_ rest rfl)
              simp only [List.length_cons, List.length_append]
              omega
            · exact unclosed inner closed
          · exact char first rest plain (ih _ (Nat.lt_succ_self _) rest rfl)

/-- A scan fails exactly if it comes to a hole that is not closed. -/
theorem scan_eq_none_iff {chars : List Char} : Segment.scan chars = none ↔ Unclosed chars := by
  constructor
  · intro failed
    induction chars using scanInduction with
    | nil => cases failed
    | char char rest plain ih =>
        rw [scan_of_plain plain, Option.map_eq_none_iff] at failed
        obtain ⟨opened, comes, unclosed⟩ := ih failed
        exact ⟨opened, .char plain comes, unclosed⟩
    | hole body rest inside ih =>
        rw [scan_of_closed inside, Option.map_eq_none_iff] at failed
        obtain ⟨opened, comes, unclosed⟩ := ih failed
        exact ⟨opened, .hole inside comes, unclosed⟩
    | unclosed rest inside => exact ⟨rest, .here _, inside⟩
  · rintro ⟨rest, comes, unclosed⟩
    generalize place : '$' :: '\x7b' :: rest = stop at comes
    induction comes with
    | here chars =>
        subst place
        rw [Segment.scan, Segment.scanHole_of_open unclosed]
    | char plain _ ih => rw [scan_of_plain plain, ih place, Option.map_none]
    | hole inside _ ih => rw [scan_of_closed inside, ih place, Option.map_none]

variable {indirections : Dict (List Indirection)} {bindings : Bindings} {source : String}
  {chars text : List Char}

theorem replaces_of_makes {segments : List Segment} (scanned : Segment.scan chars = some segments)
    (makes : Item.Makes indirections bindings (segments.flatMap Segment.parts) text) :
    Replaces (bindings.Puts indirections) chars text := by
  induction chars using scanInduction generalizing segments text with
  | nil =>
      cases scanned
      obtain rfl := Item.makes_nil.mp makes
      exact .nil
  | char char rest plain ih =>
      rw [scan_of_plain plain] at scanned
      obtain ⟨later, scannedRest, rfl⟩ := Option.map_eq_some_iff.mp scanned
      obtain ⟨restText, makesRest, rfl⟩ := Segment.makes_consChar_iff.mp makes
      exact .char plain (ih scannedRest makesRest)
  | hole body rest inside ih =>
      rw [scan_of_closed inside] at scanned
      obtain ⟨later, scannedRest, rfl⟩ := Option.map_eq_some_iff.mp scanned
      rw [List.flatMap_cons, Item.makes_append] at makes
      obtain ⟨holeText, restText, makesHole, makesRest, rfl⟩ := makes
      obtain ⟨lexemes, last, filled, lexes, fills, rfl⟩ := Item.makes_ofHole_iff.mp makesHole
      exact .hole inside lexes fills (ih scannedRest makesRest)
  | unclosed rest inside =>
      rw [Segment.scan, Segment.scanHole_of_open inside] at scanned
      cases scanned

theorem makes_of_replaces (replaces : Replaces (bindings.Puts indirections) chars text) :
    ∃ segments, Segment.scan chars = some segments ∧
      Item.Makes indirections bindings (segments.flatMap Segment.parts) text := by
  induction replaces with
  | nil => exact ⟨[], by rw [Segment.scan], Item.makes_nil.mpr rfl⟩
  | char plain _ ih =>
      obtain ⟨segments, scanned, makes⟩ := ih
      refine ⟨_, by rw [scan_of_plain plain, scanned, Option.map_some], ?_⟩
      exact Segment.makes_consChar_iff.mpr ⟨_, makes, rfl⟩
  | hole inside lexes fills _ ih =>
      obtain ⟨segments, scanned, makes⟩ := ih
      refine ⟨_, by rw [scan_of_closed inside, scanned, Option.map_some], ?_⟩
      rw [List.flatMap_cons, Item.makes_append]
      exact ⟨_, _, Item.makes_ofHole_iff.mpr ⟨_, _, _, lexes, fills, rfl⟩, makes, rfl⟩

/-! ### Words that stand for themselves -/

theorem puts_self {word : String} (bound : bindings.textOf? word = some word) :
    bindings.Puts .empty word word := ⟨word, bound, rfl⟩

theorem fills_self (afterDot : Bool) {lexemes : List Lexeme}
    (noAccess : ∀ later, later <:+ lexemes → ∀ token, token = .closing ∨ token = .plus →
      ¬ Lexeme.Access token later)
    (bound : ∀ lexeme ∈ lexemes, ∀ word, lexeme.token = .word word →
      bindings.textOf? (String.ofList word) = some (String.ofList word)) :
    Lexeme.Fills (bindings.Puts .empty) afterDot lexemes (lexemes.flatMap Lexeme.spelling) := by
  induction lexemes generalizing afterDot with
  | nil => exact .nil afterDot
  | cons lexeme lexemes ih =>
      obtain ⟨here, later⟩ := List.forall_mem_cons.mp bound
      have rest := fun afterDot => ih afterDot
        (fun later within => noAccess later (within.trans (List.suffix_cons _ _))) later
      rw [List.flatMap_cons]
      by_cases stays : afterDot = true ∨ ∀ word, lexeme.token ≠ .word word
      · exact .kept stays (rest _)
      obtain ⟨gap, token⟩ := lexeme
      obtain ⟨noDot, isWord⟩ := not_or.mp stays
      obtain ⟨word, notNot⟩ := not_forall.mp isWord
      obtain rfl : token = .word word := not_not.mp notNot
      obtain rfl : afterDot = false := Bool.not_eq_true _ ▸ noDot
      have place := puts_self (here word rfl)
      have filled := Lexeme.Fills.word (noAccess _ List.suffix_rfl) place (rest false)
      rwa [String.toList_ofList] at filled

theorem stripped_of_plain {char : Char} {rest : List Char}
    (plain : ¬ ['$', '\x7b'] <+: char :: rest) :
    stripped (char :: rest) = char :: stripped rest := by
  rw [stripped]
  rintro inner rfl rfl
  exact plain (by simp)

theorem stripped_of_closed {body : List Char} (inside : '\x7d' ∉ body) (rest : List Char) :
    stripped ('$' :: '\x7b' :: (body ++ '\x7d' :: rest)) = body ++ stripped rest := by
  rw [stripped]
  induction body with
  | nil => rw [List.nil_append, strippedHole, List.nil_append]
  | cons char body ih =>
      rw [List.mem_cons, not_or] at inside
      rw [List.cons_append, strippedHole, ih inside.2, List.cons_append]
      exact fun same => inside.1 same.symm

theorem hasHole_char_iff {char : Char} {rest body : List Char}
    (plain : ¬ ['$', '\x7b'] <+: char :: rest) :
    HasHole (char :: rest) body ↔ HasHole rest body := by
  constructor
  · rintro ⟨inside, after, comes⟩
    cases comes with
    | here => exact absurd ⟨_, rfl⟩ plain
    | char _ later => exact ⟨inside, after, later⟩
    | hole _ _ => exact absurd ⟨_, rfl⟩ plain
  · rintro ⟨inside, after, comes⟩
    exact ⟨inside, after, .char plain comes⟩

/-- A hole ends at its first closing brace. -/
theorem eq_of_closed {body inner after rest : List Char} (inside : '\x7d' ∉ body)
    (closed : '\x7d' ∉ inner) (same : body ++ '\x7d' :: after = inner ++ '\x7d' :: rest) :
    body = inner ∧ after = rest := by
  have each : ∀ {chars : List Char}, '\x7d' ∉ chars →
      ∀ char ∈ chars, decide (char ≠ '\x7d') = true := by
    refine fun absent char member => decide_eq_true ?_
    rintro rfl
    exact absent member
  have stops : decide ('\x7d' ≠ '\x7d') = false := rfl
  obtain ⟨taken, dropped⟩ := Token.span_append (each inside) stops
  obtain ⟨innerTaken, innerDropped⟩ := Token.span_append (each closed) stops
  rw [same] at taken dropped
  exact ⟨taken.symm.trans innerTaken, List.tail_eq_of_cons_eq (dropped.symm.trans innerDropped)⟩

theorem hasHole_hole_iff {inner rest body : List Char} (closed : '\x7d' ∉ inner) :
    HasHole ('$' :: '\x7b' :: (inner ++ '\x7d' :: rest)) body ↔
      body = inner ∨ HasHole rest body := by
  constructor
  · rintro ⟨inside, after, comes⟩
    generalize source : '$' :: '\x7b' :: (inner ++ '\x7d' :: rest) = chars at comes
    generalize place : '$' :: '\x7b' :: (body ++ '\x7d' :: after) = stop at comes
    cases comes with
    | here =>
        have same := place.trans source.symm
        rw [List.cons.injEq, List.cons.injEq] at same
        exact .inl (eq_of_closed inside closed same.2.2).1
    | char plain _ => exact absurd (source ▸ ⟨_, rfl⟩) plain
    | hole within later =>
        rw [List.cons.injEq, List.cons.injEq] at source
        obtain ⟨rfl, rfl⟩ := eq_of_closed closed within source.2.2
        exact .inr ⟨inside, after, place ▸ later⟩
  · rintro (rfl | ⟨inside, after, comes⟩)
    · exact ⟨closed, rest, .here _⟩
    · exact ⟨inside, after, .hole closed comes⟩

/-- Where words stand for themselves, a template is replaced by itself without delimiters. -/
theorem replaces_stripped (closed : ¬ Unclosed chars)
    (selfBound : ∀ body, HasHole chars body → SelfBound bindings body) :
    Replaces (bindings.Puts .empty) chars (stripped chars) := by
  induction chars using scanInduction with
  | nil =>
      rw [stripped]
      exact .nil
  | char char rest plain ih =>
      rw [stripped_of_plain plain]
      refine .char plain (ih ?_ ?_)
      · rintro ⟨opened, comes, unclosed⟩
        exact closed ⟨opened, .char plain comes, unclosed⟩
      · exact fun body hole => selfBound body ((hasHole_char_iff plain).mpr hole)
  | hole body rest inside ih =>
      have later : Replaces (bindings.Puts .empty) rest (stripped rest) := by
        refine ih ?_ ?_
        · rintro ⟨opened, comes, unclosed⟩
          exact closed ⟨opened, .hole inside comes, unclosed⟩
        · exact fun body hole => selfBound body ((hasHole_hole_iff inside).mpr (.inr hole))
      have lexes : Lexeme.Lexes body (Lexeme.lex body).1 (Lexeme.lex body).2 :=
        Lexeme.lexes_iff.mpr rfl
      obtain ⟨noAccess, bound⟩ := selfBound body ((hasHole_hole_iff inside).mpr (.inl rfl))
      have fills := fills_self false (noAccess _ _ lexes) (bound _ _ lexes)
      have replaced := Replaces.hole inside lexes fills later
      rwa [Lexeme.spelling_lex, ← stripped_of_closed inside] at replaced
  | unclosed rest inside => exact absurd ⟨rest, .here _, inside⟩ closed

theorem render_eq_ok_iff {segments : List Segment} {text : String}
    (scanned : Segment.scan source.toList = some segments) :
    (Parsed.mk segments).render indirections bindings = .ok text ↔
      Replaces (bindings.Puts indirections) source.toList text.toList := by
  rw [Parsed.render_eq_ok_iff]
  refine ⟨replaces_of_makes scanned, fun replaces => ?_⟩
  obtain ⟨_, same, makes⟩ := makes_of_replaces replaces
  cases scanned.symm.trans same
  exact makes

/-- **Rendering is exact substitution.** Reading a template fails exactly if the scan from left to
right comes to a hole that is not closed. Otherwise the template renders to a text exactly if the
text is the source with each hole filled. If no hole has a keyed access, each word is bound to
itself and there are no indirections, then that is the source without the delimiters of its
holes. -/
theorem render_exact (source : String) :
    (parse source = .error .unclosedHole ↔ Unclosed source.toList) ∧
    (¬ Unclosed source.toList → ∃ parsed, parse source = .ok parsed ∧
      (∀ indirections bindings text, parsed.render indirections bindings = .ok text ↔
        Replaces (bindings.Puts indirections) source.toList text.toList) ∧
      ∀ bindings : Bindings, (∀ body, HasHole source.toList body → SelfBound bindings body) →
        parsed.render .empty bindings = .ok (String.ofList (stripped source.toList))) := by
  cases scanned : Segment.scan source.toList with
  | none =>
      have unclosed := scan_eq_none_iff.mp scanned
      exact ⟨iff_of_true (by rw [parse, scanned]) unclosed, fun closed => absurd unclosed closed⟩
  | some segments =>
      have read : parse source = .ok ⟨segments⟩ := by rw [parse, scanned]
      have closed : ¬ Unclosed source.toList := fun unclosed =>
        Option.some_ne_none segments (scanned.symm.trans (scan_eq_none_iff.mpr unclosed))
      refine ⟨iff_of_false (by simp [read]) closed, fun _ =>
        ⟨⟨segments⟩, read, fun _ _ _ => render_eq_ok_iff scanned, fun bindings selfBound => ?_⟩⟩
      rw [render_eq_ok_iff scanned, String.toList_ofList]
      exact replaces_stripped closed selfBound

/-- The words of a sum are bound to themselves. -/
def sumBindings : Bindings := .ofList [("x", .name "x"), ("y", .name "y")]

theorem selfBound_sum : SelfBound sumBindings "x.y + 2".toList := by
  have lexed : Lexeme.lex "x.y + 2".toList = ([⟨[], .word ['x']⟩, ⟨[], .dot⟩, ⟨[], .word ['y']⟩,
    ⟨[' '], .plus⟩, ⟨[' '], .number ['2']⟩], []) := by decide +kernel
  have words : ∀ lexemes last, Lexeme.Lexes "x.y + 2".toList lexemes last →
      ∀ lexeme ∈ lexemes, ∀ word, lexeme.token = .word word → word = ['x'] ∨ word = ['y'] := by
    intro lexemes last lexes
    cases lexed.symm.trans (Lexeme.lexes_iff.mp lexes)
    simp [eq_comm]
  constructor
  · rintro lexemes last lexes later within token - ⟨isBag⟩
    have word := words lexemes last lexes _ (within.subset List.mem_cons_self) _ rfl
    rcases isBag with rfl | rfl <;> exact absurd word (by decide)
  · intro lexemes last lexes lexeme member word isWord
    rcases words lexemes last lexes lexeme member word isWord with rfl | rfl <;> decide +kernel

/-- Substitution with a field, an access with blanks, a number and text that is no token; words that
stand for themselves; and a hole that is not closed. -/
theorem render_exact_samples :
    Replaces (Bindings.Puts (.ofList [("k", .int 3), ("x", .name "p"), ("y", .name "q")])
        (.ofList [("x", [.deref])]))
      "$f(${x.y}, $\x7b kwargs[ 'k' ]*1.5 # y\x7d)".toList "$f((*p).y,  3*1.5 # q)".toList ∧
    (parse "$\x7bx.y + 2\x7d").bind (·.render .empty sumBindings) = .ok "x.y + 2" ∧
    parse "a$\x7bb" = .error .unclosedHole := by
  refine ⟨?_, ?_, (render_exact _).1.mpr ⟨['b'], .char (by decide) (.here _), by decide⟩⟩
  · obtain ⟨failed, exact⟩ := render_exact "$f(${x.y}, $\x7b kwargs[ 'k' ]*1.5 # y\x7d)"
    have rendered : (parse "$f(${x.y}, $\x7b kwargs[ 'k' ]*1.5 # y\x7d)").bind
        (·.render (.ofList [("x", [.deref])])
          (.ofList [("k", .int 3), ("x", .name "p"), ("y", .name "q")])) =
      .ok "$f((*p).y,  3*1.5 # q)" := by decide +kernel
    obtain ⟨parsed, read, rendering, -⟩ := exact fun unclosed => by
      rw [failed.mpr unclosed] at rendered
      cases rendered
    rw [read] at rendered
    exact (rendering _ _ _).mp rendered
  · obtain ⟨failed, exact⟩ := render_exact "$\x7bx.y + 2\x7d"
    have closed : ¬ Unclosed "$\x7bx.y + 2\x7d".toList := by
      rw [← failed]
      decide +kernel
    obtain ⟨parsed, read, -, itself⟩ := exact closed
    rw [read]
    refine itself sumBindings fun body hole => ?_
    have inside : '\x7d' ∉ "x.y + 2".toList := by decide
    rcases (hasHole_hole_iff inside).mp hole with rfl | ⟨-, _, comes⟩
    · exact selfBound_sum
    · cases comes

end Template

end TensorLowering
