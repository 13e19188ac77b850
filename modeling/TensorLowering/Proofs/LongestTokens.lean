import Mathlib.Computability.Language
import TensorLowering.Proofs.Indentation

/-! # Longest tokens

The tokens with a pattern are the texts of a regular language for each kind. A token comes first in
a text if no longer text at the start has a pattern; a quote without a partner takes the rest, and
any other character without a pattern stands alone. Cutting a text into such tokens, with blanks in
between, can be done in one way only, and that is what reading lexemes does
(`TensorLowering.Lexeme.lexes_iff`).
-/

namespace TensorLowering

open Computability

namespace Token

/-! ### Patterns -/

/-- One character of a class. -/
def oneOf (admits : Char → Bool) : Language Char :=
  {text | ∃ char, admits char = true ∧ text = [char]}

/-- One digit or more. -/
def digits : Language Char := oneOf Char.isDigit * (oneOf Char.isDigit)∗

/-- A mark, text without it, and the mark again. -/
def between (mark : Char) : Language Char :=
  oneOf (· = mark) * (oneOf (· ≠ mark))∗ * oneOf (· = mark)

/-- The kinds of tokens that have a pattern. -/
inductive Kind where
  | word
  | number
  | quoted
  | dot
  | opening
  | closing
  | plus

/-- The texts of a kind of tokens. -/
def Kind.pattern : Kind → Language Char
  | .word => oneOf (fun char => char.isAlpha || char = '_') *
      (oneOf fun char => char.isAlphanum || char = '_')∗
  | .number => digits * (1 + oneOf (· = '.') * digits)
  | .quoted => between '"' + between '\x27'
  | .dot => oneOf (· = '.')
  | .opening => oneOf (· = '[')
  | .closing => oneOf (· = ']')
  | .plus => oneOf (· = '+')

/-- The kind of a token, if it has a pattern. -/
def kind? : Token → Option Kind
  | .word _ => some .word
  | .number _ => some .number
  | .quoted _ _ => some .quoted
  | .dot => some .dot
  | .opening => some .opening
  | .closing => some .closing
  | .plus => some .plus
  | .other _ => none

/-- A token comes first in the text that is made of it and a rest. -/
inductive Leads : Token → List Char → Prop
  | longest {token : Token} {kind : Kind} {rest : List Char} (isKind : token.kind? = some kind)
      (fits : token.spelling ∈ kind.pattern)
      (longest : ∀ (other : Kind) (text : List Char), text ∈ other.pattern →
        text <+: token.spelling ++ rest → text.length ≤ token.spelling.length) :
      Leads token rest
  | openQuote {mark : Char} {rest : List Char} (isQuote : mark = '"' ∨ mark = '\x27')
      (alone : mark ∉ rest) : Leads (.other (mark :: rest)) []
  | single {char : Char} {rest : List Char} (visible : Lexeme.isBlank char = false)
      (noQuote : ¬ (char = '"' ∨ char = '\x27'))
      (unfit : ∀ (kind : Kind) (text : List Char), text ∈ kind.pattern → ¬ text <+: char :: rest) :
      Leads (.other [char]) rest

end Token

/-- Tokens by longest match, with the blanks before each, and the blanks at the end. -/
inductive Lexeme.Lexes : List Char → List Lexeme → List Char → Prop
  | done {last : List Char} (blank : ∀ char ∈ last, isBlank char = true) : Lexes last [] last
  | token {gap rest last : List Char} {token : Token} {lexemes : List Lexeme}
      (blank : ∀ char ∈ gap, isBlank char = true) (leads : token.Leads rest)
      (later : Lexes rest lexemes last) :
      Lexes (gap ++ (token.spelling ++ rest)) (⟨gap, token⟩ :: lexemes) last

namespace Token

variable {char mark head : Char} {text rest : List Char} {admits : Char → Bool}

theorem mem_oneOf_star : text ∈ (oneOf admits)∗ ↔ ∀ char ∈ text, admits char = true := by
  rw [Language.mem_kstar]
  constructor
  · rintro ⟨parts, rfl, each⟩ char member
    obtain ⟨part, listed, inside⟩ := List.mem_flatten.mp member
    obtain ⟨other, admitted, rfl⟩ := each part listed
    rwa [List.mem_singleton.mp inside]
  · intro each
    refine ⟨text.map ([·]), (List.flatMap_singleton' text).symm, ?_⟩
    intro part listed
    obtain ⟨char, member, rfl⟩ := List.mem_map.mp listed
    exact ⟨char, each char member, rfl⟩

theorem mem_oneOf_mul_star {first inside : Char → Bool} :
    text ∈ oneOf first * (oneOf inside)∗ ↔
      ∃ head tail, text = head :: tail ∧ first head = true ∧ ∀ char ∈ tail, inside char = true := by
  rw [Language.mem_mul]
  constructor
  · rintro ⟨_, ⟨head, starts, rfl⟩, tail, follows, rfl⟩
    exact ⟨head, tail, rfl, starts, mem_oneOf_star.mp follows⟩
  · rintro ⟨head, tail, rfl, starts, follows⟩
    exact ⟨[head], ⟨head, starts, rfl⟩, tail, mem_oneOf_star.mpr follows, rfl⟩

theorem mem_digits_iff : text ∈ digits ↔
    ∃ head tail, text = head :: tail ∧ head.isDigit = true ∧ ∀ char ∈ tail, char.isDigit = true :=
  mem_oneOf_mul_star

theorem mem_number_iff : text ∈ Kind.number.pattern ↔ text ∈ digits ∨
    ∃ whole fraction, whole ∈ digits ∧ fraction ∈ digits ∧ text = whole ++ '.' :: fraction := by
  rw [Kind.pattern, mul_add, mul_one, Language.mem_add]
  refine or_congr_right ?_
  constructor
  · rintro ⟨whole, isWhole, _, ⟨_, ⟨dot, isDot, rfl⟩, fraction, isFraction, rfl⟩, rfl⟩
    obtain rfl := of_decide_eq_true isDot
    exact ⟨whole, fraction, isWhole, isFraction, rfl⟩
  · rintro ⟨whole, fraction, isWhole, isFraction, rfl⟩
    exact ⟨whole, isWhole, _, ⟨['.'], ⟨'.', rfl, rfl⟩, fraction, isFraction, rfl⟩, rfl⟩

theorem mem_between_iff : text ∈ between mark ↔
    ∃ inside, mark ∉ inside ∧ text = mark :: inside ++ [mark] := by
  constructor
  · rintro ⟨_, ⟨_, ⟨first, isFirst, rfl⟩, inside, isInside, rfl⟩, _, ⟨last, isLast, rfl⟩, rfl⟩
    obtain rfl := of_decide_eq_true isFirst
    obtain rfl := of_decide_eq_true isLast
    refine ⟨inside, fun member => ?_, rfl⟩
    exact of_decide_eq_true (mem_oneOf_star.mp isInside _ member) rfl
  · rintro ⟨inside, absent, rfl⟩
    have isInside : inside ∈ (oneOf (· ≠ mark))∗ := by
      refine mem_oneOf_star.mpr fun char member => decide_eq_true ?_
      rintro rfl
      exact absent member
    exact ⟨_, ⟨[mark], ⟨mark, decide_eq_true rfl, rfl⟩, inside, isInside, rfl⟩, [mark],
      ⟨mark, decide_eq_true rfl, rfl⟩, rfl⟩

theorem mem_quoted_iff : text ∈ Kind.quoted.pattern ↔
    ∃ mark inside, (mark = '"' ∨ mark = '\x27') ∧ mark ∉ inside ∧
      text = mark :: inside ++ [mark] := by
  rw [Kind.pattern, Language.mem_add]
  constructor
  · rintro (double | single)
    · obtain ⟨inside, absent, same⟩ := mem_between_iff.mp double
      exact ⟨_, inside, .inl rfl, absent, same⟩
    · obtain ⟨inside, absent, same⟩ := mem_between_iff.mp single
      exact ⟨_, inside, .inr rfl, absent, same⟩
  · rintro ⟨mark, inside, rfl | rfl, absent, same⟩
    · exact .inl (mem_between_iff.mpr ⟨inside, absent, same⟩)
    · exact .inr (mem_between_iff.mpr ⟨inside, absent, same⟩)

/-! ### First characters -/

/-- The kind of the tokens that start with a character. -/
def Kind.ofStart? (head : Char) : Option Kind :=
  if startsWord head then some .word
  else if head.isDigit then some .number
  else if head = '"' ∨ head = '\x27' then some .quoted
  else if head = '.' then some .dot
  else if head = '[' then some .opening
  else if head = ']' then some .closing
  else if head = '+' then some .plus
  else none

theorem not_startsWord_of_isDigit (isDigit : head.isDigit = true) : startsWord head = false := by
  have upTo : head.toNat ≤ 57 := by
    rw [Char.isDigit, Bool.and_eq_true, decide_eq_true_eq, decide_eq_true_eq] at isDigit
    exact UInt32.le_iff_toNat_le.mp isDigit.2
  cases starts : startsWord head with
  | false => rfl
  | true =>
      have past : ∀ first : Char, first.val ≤ head.val → first.toNat ≤ 57 :=
        fun first above => (UInt32.le_iff_toNat_le.mp above).trans upTo
      rw [startsWord, Bool.or_eq_true, decide_eq_true_eq] at starts
      rcases starts with letter | rfl
      · rcases (Bool.or_eq_true_iff.mp letter : head.isUpper = true ∨ head.isLower = true) with
          upper | lower
        · exact absurd (past 'A' (of_decide_eq_true upper).1) (by decide)
        · have above := of_decide_eq_true (Bool.and_eq_true_iff.mp lower).1
          exact absurd (past 'a' above) (by decide)
      · exact absurd upTo (by decide)

/-- The first character of a token tells its kind. -/
theorem ofStart?_of_mem_pattern {kind : Kind} (fits : text ∈ kind.pattern) :
    ∃ head tail, text = head :: tail ∧ Kind.ofStart? head = some kind := by
  have number : ∀ {whole}, whole ∈ digits →
      ∃ head tail, whole = head :: tail ∧ Kind.ofStart? head = some .number := by
    intro whole isWhole
    obtain ⟨head, tail, rfl, isDigit, -⟩ := mem_digits_iff.mp isWhole
    refine ⟨head, tail, rfl, ?_⟩
    rw [Kind.ofStart?, not_startsWord_of_isDigit isDigit, if_neg Bool.false_ne_true, if_pos isDigit]
  cases kind with
  | word =>
      obtain ⟨head, tail, rfl, starts, -⟩ := mem_oneOf_mul_star.mp fits
      exact ⟨head, tail, rfl, if_pos starts⟩
  | number =>
      rcases mem_number_iff.mp fits with whole | ⟨whole, fraction, isWhole, -, rfl⟩
      · exact number whole
      · obtain ⟨head, tail, rfl, starts⟩ := number isWhole
        exact ⟨head, _, rfl, starts⟩
  | quoted =>
      obtain ⟨mark, inside, rfl | rfl, -, rfl⟩ := mem_quoted_iff.mp fits
      · exact ⟨_, _, rfl, rfl⟩
      · exact ⟨_, _, rfl, rfl⟩
  | _ =>
      obtain ⟨char, isChar, rfl⟩ := fits
      obtain rfl := of_decide_eq_true isChar
      exact ⟨_, _, rfl, rfl⟩

/-- All tokens at the start of a text are of one kind. -/
theorem ofStart?_of_begins {kind : Kind} (fits : text ∈ kind.pattern)
    (start : text <+: head :: rest) :
    Kind.ofStart? head = some kind := by
  obtain ⟨first, tail, rfl, starts⟩ := ofStart?_of_mem_pattern fits
  obtain ⟨rfl, -⟩ := List.cons_prefix_cons.mp start
  exact starts

/-- What starts a token is no blank. -/
theorem isBlank_of_ofStart? {kind : Kind} (starts : Kind.ofStart? head = some kind) :
    Lexeme.isBlank head = false := by
  cases blank : Lexeme.isBlank head with
  | false => rfl
  | true =>
      simp only [Lexeme.isBlank, Bool.or_eq_true, decide_eq_true_eq] at blank
      rcases blank with ((rfl | rfl) | rfl) | rfl <;> cases starts

/-! ### Reading a token -/

/-- Text of a class at the start is within the longest such text. -/
theorem length_le_takeWhile {start : List Char} (begins : start <+: rest)
    (each : ∀ char ∈ start, admits char = true) :
    start.length ≤ (rest.takeWhile admits).length := by
  obtain ⟨after, rfl⟩ := begins
  rw [List.takeWhile_append_of_pos each, List.length_append]
  exact Nat.le_add_right _ _

theorem forall_mem_takeWhile : ∀ char ∈ rest.takeWhile admits, admits char = true :=
  List.all_eq_true.mp List.all_takeWhile

/-- Text of a class is cut off before the first character that is not of the class. -/
theorem span_append {start : List Char} (each : ∀ char ∈ start, admits char = true)
    (stops : admits char = false) :
    (start ++ char :: rest).takeWhile admits = start ∧
      (start ++ char :: rest).dropWhile admits = char :: rest := by
  have stopped : ¬ admits char = true := Bool.not_eq_true _ ▸ stops
  rw [List.takeWhile_append_of_pos each, List.dropWhile_append_of_pos each,
    List.takeWhile_cons_of_neg stopped, List.dropWhile_cons_of_neg stopped, List.append_nil]
  exact ⟨rfl, rfl⟩

theorem number_mem_pattern (isDigit : head.isDigit = true) :
    (readNumber head rest).1.kind? = some .number ∧
      (readNumber head rest).1.spelling ∈ Kind.number.pattern := by
  have whole : head :: rest.takeWhile Char.isDigit ∈ digits :=
    mem_digits_iff.mpr ⟨head, _, rfl, isDigit, forall_mem_takeWhile⟩
  unfold readNumber
  split
  · next digit more _ =>
      split
      · next isFraction =>
          have fraction : digit :: more.takeWhile Char.isDigit ∈ digits :=
            mem_digits_iff.mpr ⟨digit, _, rfl, isFraction, forall_mem_takeWhile⟩
          exact ⟨rfl, mem_number_iff.mpr (.inr ⟨_, _, whole, fraction, rfl⟩)⟩
      · exact ⟨rfl, mem_number_iff.mpr (.inl whole)⟩
  · exact ⟨rfl, mem_number_iff.mpr (.inl whole)⟩

/-- No number at the start is longer than the one that is read. -/
theorem length_le_readNumber (fits : text ∈ Kind.number.pattern) (start : text <+: head :: rest) :
    text.length ≤ (readNumber head rest).1.spelling.length := by
  rcases mem_number_iff.mp fits with whole | ⟨whole, fraction, isWhole, isFraction, rfl⟩
  · obtain ⟨first, tail, rfl, -, inside⟩ := mem_digits_iff.mp whole
    have shorter := length_le_takeWhile (List.cons_prefix_cons.mp start).2 inside
    unfold readNumber
    repeat' split
    all_goals simp [spelling]
    all_goals omega
  · obtain ⟨first, tail, rfl, -, inside⟩ := mem_digits_iff.mp isWhole
    obtain ⟨digit, more, rfl, isDigit, follows⟩ := mem_digits_iff.mp isFraction
    obtain ⟨after, same⟩ := (List.cons_prefix_cons.mp start).2
    obtain rfl : tail ++ '.' :: digit :: (more ++ after) = rest := by
      rw [← same]
      exact (List.append_assoc tail ('.' :: digit :: more) after).symm
    obtain ⟨taken, dropped⟩ := span_append inside (rfl : Char.isDigit '.' = false)
    have shorter := length_le_takeWhile (List.prefix_append more after) follows
    unfold readNumber
    rw [taken, dropped]
    simp only [isDigit, if_true, spelling, List.length_cons, List.length_append]
    omega

/-- A token comes first if no text of its own pattern at the start is longer. -/
theorem leads_of_longest {token : Token} {kind : Kind} {after : List Char}
    (whole : token.spelling ++ after = head :: rest) (isKind : token.kind? = some kind)
    (fits : token.spelling ∈ kind.pattern)
    (longest : ∀ text ∈ kind.pattern, text <+: head :: rest →
      text.length ≤ token.spelling.length) : token.Leads after := by
  refine .longest isKind fits fun other text otherFits start => ?_
  rw [whole] at start
  have sameKind := (ofStart?_of_begins otherFits start).symm.trans
    (ofStart?_of_begins fits ⟨after, whole⟩)
  cases sameKind
  exact longest text otherFits start

theorem leads_readQuoted (isQuote : mark = '"' ∨ mark = '\x27')
    (whole : (readQuoted mark rest).1.spelling ++ (readQuoted mark rest).2 = mark :: rest) :
    (readQuoted mark rest).1.Leads (readQuoted mark rest).2 := by
  have absent : mark ∉ rest.takeWhile (· ≠ mark) := fun member =>
    of_decide_eq_true (forall_mem_takeWhile mark member) rfl
  revert whole
  unfold readQuoted
  split
  · intro whole
    refine leads_of_longest whole rfl (mem_quoted_iff.mpr ⟨mark, _, isQuote, absent, rfl⟩) ?_
    intro text fits start
    obtain ⟨other, inside, -, otherAbsent, rfl⟩ := mem_quoted_iff.mp fits
    obtain ⟨rfl, after, same⟩ := List.cons_prefix_cons.mp start
    obtain rfl : inside ++ other :: after = rest := by
      rw [← same]
      exact (List.append_assoc inside [other] after).symm
    have each : ∀ char ∈ inside, decide (char ≠ other) = true := by
      refine fun char member => decide_eq_true ?_
      rintro rfl
      exact otherAbsent member
    obtain ⟨taken, -⟩ := span_append each (decide_eq_false (not_not.mpr rfl))
    rw [taken]
    exact Nat.le_refl _
  · next nothing =>
      intro _
      refine .openQuote isQuote fun member => absent ?_
      have split := List.takeWhile_append_dropWhile (p := (· ≠ mark)) (l := rest)
      rw [nothing, List.append_nil] at split
      rwa [split]

/-- The token that is read comes first in the text. -/
theorem leads_read (visible : Lexeme.isBlank head = false) (rest : List Char) :
    (read head rest).1.Leads (read head rest).2 := by
  have whole := spelling_read head rest
  have mark : ∀ {token : Token} {kind : Kind}, token.kind? = some kind →
      token.spelling = [head] → kind.pattern = oneOf (· = head) → token.Leads rest := by
    intro token kind isKind spelled pattern
    refine leads_of_longest (by rw [spelled]; rfl) isKind ?_ ?_
    · rw [spelled, pattern]
      exact ⟨head, decide_eq_true rfl, rfl⟩
    · intro text fits _
      rw [pattern] at fits
      obtain ⟨char, -, rfl⟩ := fits
      rw [spelled]
      exact Nat.le_refl _
  revert whole
  unfold read
  split
  · next starts =>
      intro whole
      refine leads_of_longest whole rfl
        (mem_oneOf_mul_star.mpr ⟨head, _, rfl, starts, forall_mem_takeWhile⟩) ?_
      intro text fits start
      obtain ⟨first, tail, rfl, -, inside⟩ := mem_oneOf_mul_star.mp fits
      have shorter := length_le_takeWhile (List.cons_prefix_cons.mp start).2 inside
      exact Nat.succ_le_succ shorter
  split
  · next isDigit =>
      intro whole
      obtain ⟨isNumber, fits⟩ := number_mem_pattern isDigit
      exact leads_of_longest whole isNumber fits fun text => length_le_readNumber
  split
  · next isQuote =>
      exact leads_readQuoted isQuote
  intro _
  split
  · next isDot => subst isDot; exact mark rfl rfl rfl
  split
  · next isOpening => subst isOpening; exact mark rfl rfl rfl
  split
  · next isClosing => subst isClosing; exact mark rfl rfl rfl
  split
  · next isPlus => subst isPlus; exact mark rfl rfl rfl
  next noWord noDigit noQuote _ noDot noOpening noClosing noPlus =>
    refine .single visible noQuote fun kind text fits start => ?_
    have starts := ofStart?_of_begins fits start
    simp [Kind.ofStart?, noWord, noDigit, noQuote, noDot, noOpening, noClosing, noPlus] at starts

/-! ### One way to read -/

/-- The kind of a token and its text determine the token. -/
theorem eq_of_spelling {token other : Token} {kind : Kind} (isKind : token.kind? = some kind)
    (otherKind : other.kind? = some kind) (same : token.spelling = other.spelling) :
    token = other := by
  cases token <;> cases isKind <;> cases other <;> cases otherKind <;>
    simp_all [spelling]

theorem exists_head_of_leads {token : Token} (leads : token.Leads rest) :
    ∃ head tail, token.spelling ++ rest = head :: tail ∧ Lexeme.isBlank head = false := by
  cases leads with
  | longest _ fits _ =>
      obtain ⟨head, tail, same, starts⟩ := ofStart?_of_mem_pattern fits
      exact ⟨head, tail ++ rest, by rw [same]; rfl, isBlank_of_ofStart? starts⟩
  | openQuote isQuote _ =>
      refine ⟨_, _, rfl, ?_⟩
      rcases isQuote with rfl | rfl <;> rfl
  | single visible _ _ => exact ⟨_, _, rfl, visible⟩

/-- A quote without a partner starts no token of a pattern. -/
theorem unfit_of_alone (isQuote : mark = '"' ∨ mark = '\x27') (alone : mark ∉ rest) {kind : Kind}
    (fits : text ∈ kind.pattern) : ¬ text <+: mark :: rest := by
  intro start
  have starts := ofStart?_of_begins fits start
  have isQuoted : Kind.ofStart? mark = some .quoted := by rcases isQuote with rfl | rfl <;> rfl
  cases isQuoted.symm.trans starts
  obtain ⟨other, inside, -, -, rfl⟩ := mem_quoted_iff.mp fits
  obtain ⟨rfl, begins⟩ := List.cons_prefix_cons.mp start
  exact alone (begins.subset (List.mem_append_right inside List.mem_cons_self))

/-- At most one token comes first in a text. -/
theorem Leads.unique {token other : Token} {after : List Char} (leads : token.Leads rest)
    (otherLeads : other.Leads after) (same : token.spelling ++ rest = other.spelling ++ after) :
    token = other ∧ rest = after := by
  cases leads with
  | longest isKind fits longest =>
      cases otherLeads with
      | longest otherKind otherFits otherLongest =>
          have shorter := longest _ _ otherFits ⟨after, same.symm⟩
          have longer := otherLongest _ _ fits ⟨rest, same⟩
          obtain ⟨spelled, rfl⟩ := List.append_inj same (Nat.le_antisymm longer shorter)
          obtain ⟨head, tail, first, starts⟩ := ofStart?_of_mem_pattern fits
          obtain ⟨otherHead, _, second, otherStarts⟩ := ofStart?_of_mem_pattern otherFits
          obtain ⟨rfl, -⟩ := List.cons.inj (first.symm.trans (spelled.trans second))
          cases starts.symm.trans otherStarts
          exact ⟨eq_of_spelling isKind otherKind spelled, rfl⟩
      | openQuote isQuote alone =>
          exact absurd ⟨rest, same.trans (List.append_nil _)⟩ (unfit_of_alone isQuote alone fits)
      | single _ _ unfit => exact absurd ⟨rest, same⟩ (unfit _ _ fits)
  | openQuote isQuote alone =>
      cases otherLeads with
      | longest _ otherFits _ =>
          exact absurd ⟨after, same.symm.trans (List.append_nil _)⟩
            (unfit_of_alone isQuote alone otherFits)
      | openQuote _ _ =>
          rw [List.append_nil, List.append_nil] at same
          exact ⟨congrArg Token.other same, rfl⟩
      | single _ noQuote _ =>
          obtain ⟨rfl, -⟩ := List.cons.inj same
          exact absurd isQuote noQuote
  | single _ noQuote unfit =>
      cases otherLeads with
      | longest _ otherFits _ => exact absurd ⟨after, same.symm⟩ (unfit _ _ otherFits)
      | openQuote isQuote _ =>
          obtain ⟨rfl, -⟩ := List.cons.inj same
          exact absurd isQuote noQuote
      | single _ _ _ =>
          obtain ⟨rfl, rfl⟩ := List.cons.inj same
          exact ⟨rfl, rfl⟩

/-- A token that comes first is the one that is read. -/
theorem read_of_leads {token : Token} {tail : List Char} (leads : token.Leads rest)
    (visible : Lexeme.isBlank head = false) (whole : token.spelling ++ rest = head :: tail) :
    read head tail = (token, rest) := by
  obtain ⟨same, after⟩ := (leads_read visible tail).unique leads
    ((spelling_read head tail).trans whole.symm)
  exact Prod.ext same after

end Token

namespace Lexeme

variable {chars last : List Char} {lexemes : List Lexeme} {bound : Nat}

theorem lexes_lexWithin (enough : chars.length ≤ bound) :
    Lexes chars (lexWithin bound chars).1 (lexWithin bound chars).2 := by
  induction bound generalizing chars with
  | zero =>
      obtain rfl : chars = [] := List.length_eq_zero_iff.mp (Nat.le_zero.mp enough)
      exact .done (List.forall_mem_nil _)
  | succ bound ih =>
      have blank : ∀ char ∈ chars.takeWhile isBlank, isBlank char = true :=
        Token.forall_mem_takeWhile
      have visible := List.head?_dropWhile_not isBlank chars
      have split := List.takeWhile_append_dropWhile (p := isBlank) (l := chars)
      unfold lexWithin
      split
      · next nothing =>
          rw [nothing, List.append_nil] at split
          rw [split] at blank
          exact .done blank
      · next head rest found =>
          rw [found] at visible split
          have fewer := Token.length_read_le head rest
          have count := congrArg List.length split
          rw [List.length_append, List.length_cons] at count
          have later : (Token.read head rest).2.length ≤ bound := by omega
          have cut := Lexes.token blank (Token.leads_read visible rest) (ih later)
          rwa [Token.spelling_read, split] at cut

theorem lexWithin_of_lexes (lexes : Lexes chars lexemes last) (enough : chars.length ≤ bound) :
    lexWithin bound chars = (lexemes, last) := by
  induction lexes generalizing bound with
  | done blank =>
      cases bound with
      | zero => rfl
      | succ bound =>
          have nothing : (_ ++ []).dropWhile isBlank = [] := List.dropWhile_append_of_pos blank
          rw [List.append_nil] at nothing
          rw [lexWithin, nothing]
  | @token gap rest last token lexemes blank leads _ ih =>
      obtain ⟨head, tail, whole, visible⟩ := Token.exists_head_of_leads leads
      have count := congrArg List.length whole
      rw [whole, List.length_append, List.length_cons] at enough
      rw [List.length_append, List.length_cons] at count
      obtain ⟨taken, dropped⟩ : (gap ++ head :: tail).takeWhile isBlank = gap ∧
          (gap ++ head :: tail).dropWhile isBlank = head :: tail := Token.span_append blank visible
      have read := Token.read_of_leads leads visible whole
      cases bound with
      | zero => omega
      | succ bound =>
          have fewer := Token.length_read_le head tail
          rw [read] at fewer
          have later : rest.length ≤ bound := by
            dsimp only at fewer
            omega
          rw [whole, lexWithin, dropped]
          dsimp only
          rw [read, ih later, taken]

/-- Reading lexemes is cutting a text into longest tokens. -/
theorem lexes_iff : Lexes chars lexemes last ↔ lex chars = (lexemes, last) := by
  refine ⟨fun lexes => lexWithin_of_lexes lexes (Nat.le_refl _), fun same => ?_⟩
  have lexes := lexes_lexWithin (Nat.le_refl chars.length)
  rw [lex] at same
  rwa [same] at lexes

end Lexeme

end TensorLowering
