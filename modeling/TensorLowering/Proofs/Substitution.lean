import Mathlib.Data.List.Induction
import TensorLowering.Proofs.Decoding
import TensorLowering.Proofs.LoweringSteps

/-! # Substitution

A template is rendered piece by piece: what is text stays, and a name or a key makes place for the
text of its binding under its indirections. Rendering succeeds exactly if there are such pieces
(`TensorLowering.Parsed.render_eq_ok_iff`). The names that a template is said to use are those that
make place, in the order of their first use, so nothing else that is bound matters but what the
indirections of these names look up (`TensorLowering.Parsed.names_exact`).
-/

namespace TensorLowering

open Json (bind_eq_ok_iff return_eq_ok_iff)

/-! ### Pieces -/

/-- The text of what a name is bound to. -/
def Bindings.textOf? (bindings : Bindings) (name : String) : Option String :=
  (bindings.find? name).map Binding.text

/-- A name makes place for the text of its binding, wrapped in its indirections one by one. -/
def Bindings.Puts (bindings : Bindings) (indirections : Dict (List Indirection))
    (name text : String) : Prop :=
  ∃ bound, bindings.textOf? name = some bound ∧
    text = (indirections.getD name []).foldl (Indirection.apply bindings) bound

/-- A piece of a rendered text: text of the template, or the text that is put for a name. -/
inductive Piece where
  | kept (text : String)
  | put (name text : String)

namespace Piece

/-- The text of a piece. -/
def text : Piece → String
  | .kept text => text
  | .put _ text => text

/-- The name that a piece is put for. -/
def name? : Piece → Option String
  | .kept _ => none
  | .put name _ => some name

/-- The characters of pieces put together. -/
def chars (pieces : List Piece) : List Char := pieces.flatMap fun piece => piece.text.toList

@[simp] theorem chars_nil : chars [] = [] := rfl

@[simp] theorem chars_cons (piece : Piece) (pieces : List Piece) :
    chars (piece :: pieces) = piece.text.toList ++ chars pieces := List.flatMap_cons

@[simp] theorem chars_append (pieces others : List Piece) :
    chars (pieces ++ others) = chars pieces ++ chars others := List.flatMap_append

end Piece

section Yields

variable (indirections : Dict (List Indirection)) (bindings : Bindings)

/-- The piece that an item becomes. A key of which only the start is known becomes none. -/
inductive Item.Yields : Item → Piece → Prop
  | verbatim (text : List Char) : Yields (.verbatim text) (.kept (String.ofList text))
  | name {text : List Char} {put : String}
      (puts : bindings.Puts indirections (String.ofList text) put) :
      Yields (.name text) (.put (String.ofList text) put)
  | key (spelling : List Char) {literal : List Char} {put : String}
      (puts : bindings.Puts indirections (String.ofList literal) put) :
      Yields (.key spelling literal) (.put (String.ofList literal) put)

/-- The items of a segment; text outside of holes stays as it is. -/
def Segment.parts : Segment → List Item
  | .text chars => [.verbatim chars]
  | .hole items => items

/-- The pieces that a template becomes. -/
def Parsed.Yields (parsed : Parsed) (pieces : List Piece) : Prop :=
  List.Forall₂ (Item.Yields indirections bindings) (parsed.segments.flatMap Segment.parts) pieces

end Yields

/-! ### Rendering by pieces -/

theorem mapM_eq_ok_iff {α β ε : Type} {step : α → Except ε β} {items : List α} {results : List β} :
    items.mapM step = .ok results ↔
      List.Forall₂ (fun item result => step item = .ok result) items results := by
  induction items generalizing results with
  | nil => rw [List.mapM_nil, return_eq_ok_iff, List.forall₂_nil_left_iff, eq_comm]
  | cons item items ih =>
      rw [List.mapM_cons, bind_eq_ok_iff, List.forall₂_cons_left_iff]
      simp only [bind_eq_ok_iff, return_eq_ok_iff, ih]
      refine exists_congr fun result => ⟨?_, ?_⟩
      · rintro ⟨ran, later, rest, rfl⟩
        exact ⟨later, ran, rest, rfl⟩
      · rintro ⟨later, ran, rest, rfl⟩
        exact ⟨ran, later, rest, rfl⟩

theorem forall₂_append_iff {α β : Type} {related : α → β → Prop} {first second : List α}
    {others : List β} :
    List.Forall₂ related (first ++ second) others ↔
      ∃ before after, List.Forall₂ related first before ∧ List.Forall₂ related second after ∧
        others = before ++ after := by
  constructor
  · intro matched
    refine ⟨others.take first.length, others.drop first.length, ?_, ?_,
      (List.take_append_drop _ _).symm⟩
    · exact (List.forall₂_take_append others first second matched.flip).flip
    · exact (List.forall₂_drop_append others first second matched.flip).flip
  · rintro ⟨before, after, matched, follows, rfl⟩
    exact List.rel_append matched follows

theorem toList_intercalate_empty (texts : List String) :
    ("".intercalate texts).toList = texts.flatMap String.toList := by
  rw [String.toList_intercalate, String.toList_empty]
  induction texts with
  | nil => rfl
  | cons text texts ih =>
      cases texts with
      | nil => simp
      | cons next texts =>
          rw [List.map_cons, List.map_cons, List.intercalate_cons_cons, List.append_nil,
            ← List.map_cons, ih]
          rfl

variable {indirections : Dict (List Indirection)} {bindings : Bindings}

/-- A list is rendered piece by piece if each of its members is. -/
theorem exists_mapM_iff {α : Type} {step : α → Except TemplateFault String} {parts : α → List Item}
    (byPieces : ∀ item text, step item = .ok text ↔ ∃ pieces,
      List.Forall₂ (Item.Yields indirections bindings) (parts item) pieces ∧
        text.toList = Piece.chars pieces) {items : List α} {text : String} :
    (do return "".intercalate (← items.mapM step)) = .ok text ↔ ∃ pieces,
      List.Forall₂ (Item.Yields indirections bindings) (items.flatMap parts) pieces ∧
        text.toList = Piece.chars pieces := by
  rw [bind_eq_ok_iff]
  simp only [return_eq_ok_iff, mapM_eq_ok_iff]
  constructor
  · rintro ⟨texts, rendered, rfl⟩
    rw [toList_intercalate_empty]
    induction rendered with
    | nil => exact ⟨[], .nil, rfl⟩
    | cons head _ ih =>
        obtain ⟨filled, inside, same⟩ := (byPieces _ _).mp head
        obtain ⟨pieces, rest, sameRest⟩ := ih
        refine ⟨filled ++ pieces, List.rel_append inside rest, ?_⟩
        rw [List.flatMap_cons, same, sameRest, Piece.chars_append]
  · rintro ⟨pieces, yields, same⟩
    obtain rfl : text = String.ofList (Piece.chars pieces) := by rw [← same, String.ofList_toList]
    clear same
    simp only [← String.toList_inj, toList_intercalate_empty, String.toList_ofList]
    induction items generalizing pieces with
    | nil =>
        cases yields
        exact ⟨[], .nil, rfl⟩
    | cons item items ih =>
        obtain ⟨filled, pieces, inside, rest, rfl⟩ := forall₂_append_iff.mp yields
        have head := (byPieces item (String.ofList (Piece.chars filled))).mpr
          ⟨filled, inside, String.toList_ofList⟩
        obtain ⟨texts, rendered, same⟩ := ih pieces rest
        refine ⟨_, .cons head rendered, ?_⟩
        rw [List.flatMap_cons, String.toList_ofList, same, Piece.chars_append]

theorem Bindings.render_eq_ok_iff {name text : String} :
    bindings.render indirections name = .ok text ↔ bindings.Puts indirections name text := by
  unfold render Puts textOf?
  cases bindings.find? name <;> simp [eq_comm]

theorem Item.render_eq_ok_iff (item : Item) (text : String) :
    item.render indirections bindings = .ok text ↔ ∃ pieces,
      List.Forall₂ (Item.Yields indirections bindings) [item] pieces ∧
        text.toList = Piece.chars pieces := by
  constructor
  · intro ran
    have single : ∀ piece, item.Yields indirections bindings piece → text = piece.text →
        ∃ pieces, List.Forall₂ (Item.Yields indirections bindings) [item] pieces ∧
          text.toList = Piece.chars pieces := by
      rintro piece yields rfl
      exact ⟨[piece], .cons yields .nil, by rw [Piece.chars_cons, Piece.chars_nil, List.append_nil]⟩
    cases item with
    | verbatim chars => exact single _ (.verbatim chars) (Except.ok.inj ran).symm
    | name chars => exact single _ (.name (Bindings.render_eq_ok_iff.mp ran)) rfl
    | key spelling literal => exact single _ (.key spelling (Bindings.render_eq_ok_iff.mp ran)) rfl
    | openKey spelling start => cases ran
  · rintro ⟨pieces, yields, same⟩
    obtain ⟨piece, _, becomes, nothing, rfl⟩ := List.forall₂_cons_left_iff.mp yields
    cases nothing
    obtain rfl : text = piece.text := by
      rw [← String.toList_inj, same, Piece.chars_cons, Piece.chars_nil, List.append_nil]
    cases becomes with
    | verbatim chars => rfl
    | name puts => exact Bindings.render_eq_ok_iff.mpr puts
    | key spelling puts => exact Bindings.render_eq_ok_iff.mpr puts

theorem Segment.render_eq_ok_iff (segment : Segment) (text : String) :
    segment.render indirections bindings = .ok text ↔ ∃ pieces,
      List.Forall₂ (Item.Yields indirections bindings) segment.parts pieces ∧
        text.toList = Piece.chars pieces := by
  cases segment with
  | text chars => exact Item.render_eq_ok_iff (.verbatim chars) text
  | hole items =>
      have byItems : (Segment.hole items).render indirections bindings = .ok text ↔ _ :=
        exists_mapM_iff Item.render_eq_ok_iff
      rwa [List.flatMap_singleton'] at byItems

/-- A template is rendered piece by piece. -/
theorem Parsed.render_eq_ok_iff {parsed : Parsed} {text : String} :
    parsed.render indirections bindings = .ok text ↔
      ∃ pieces, parsed.Yields indirections bindings pieces ∧ text.toList = Piece.chars pieces :=
  exists_mapM_iff Segment.render_eq_ok_iff

theorem Parsed.exists_render_iff {parsed : Parsed} :
    (∃ text, parsed.render indirections bindings = .ok text) ↔
      ∃ pieces, parsed.Yields indirections bindings pieces := by
  simp only [Parsed.render_eq_ok_iff]
  constructor
  · rintro ⟨text, pieces, yields, -⟩
    exact ⟨pieces, yields⟩
  · rintro ⟨pieces, yields⟩
    exact ⟨String.ofList (Piece.chars pieces), pieces, yields, String.toList_ofList⟩

/-! ### The names that make place -/

namespace Item

/-- The name or key that makes place. -/
def subject? : Item → Option String
  | .name text => some (String.ofList text)
  | .key _ literal => some (String.ofList literal)
  | _ => none

/-- Whether only the start of a key is known. -/
def isOpenKey : Item → Bool
  | .openKey _ _ => true
  | _ => false

end Item

theorem Bindings.exists_puts_iff {name : String} :
    (∃ text, bindings.Puts indirections name text) ↔ bindings.contains name = true := by
  unfold Puts textOf?
  rw [Dict.contains]
  cases bindings.find? name <;> simp

/-- An item becomes a piece if it is no start of a key and what it names is bound. -/
theorem Item.exists_yields_iff (indirections : Dict (List Indirection)) (bindings : Bindings)
    (item : Item) :
    (∃ piece, item.Yields indirections bindings piece) ↔
      item.isOpenKey = false ∧ ∀ name ∈ item.subject?, bindings.contains name = true := by
  constructor
  · rintro ⟨piece, yields⟩
    cases yields with
    | verbatim text => simp [isOpenKey, subject?]
    | name puts => simpa [isOpenKey, subject?] using Bindings.exists_puts_iff.mp ⟨_, puts⟩
    | key spelling puts => simpa [isOpenKey, subject?] using Bindings.exists_puts_iff.mp ⟨_, puts⟩
  · rintro ⟨whole, bound⟩
    have puts : ∀ name ∈ item.subject?, ∃ text, bindings.Puts indirections name text :=
      fun name subject => Bindings.exists_puts_iff.mpr (bound name subject)
    cases item with
    | verbatim text => exact ⟨_, .verbatim text⟩
    | name text =>
        obtain ⟨_, put⟩ := puts _ rfl
        exact ⟨_, .name put⟩
    | key spelling literal =>
        obtain ⟨_, put⟩ := puts _ rfl
        exact ⟨_, .key spelling put⟩
    | openKey spelling start => cases whole

theorem exists_forall₂_iff {α β : Type} {related : α → β → Prop} {items : List α} :
    (∃ others, List.Forall₂ related items others) ↔
      ∀ item ∈ items, ∃ other, related item other := by
  constructor
  · rintro ⟨others, matched⟩ item member
    obtain ⟨other, -, fits⟩ := exists_of_forall₂ matched member
    exact ⟨other, fits⟩
  · intro each
    induction items with
    | nil => exact ⟨[], .nil⟩
    | cons item items ih =>
        obtain ⟨⟨other, fits⟩, later⟩ := List.forall_mem_cons.mp each
        obtain ⟨others, matched⟩ := ih later
        exact ⟨other :: others, .cons fits matched⟩

/-- What holds of all text holds of all items of a template if it does of those in its holes. -/
theorem Segment.forall_mem_parts_iff {property : Item → Prop}
    (verbatim : ∀ text, property (.verbatim text)) (segments : List Segment) :
    (∀ item ∈ segments.flatMap Segment.parts, property item) ↔
      ∀ item ∈ Segment.items segments, property item := by
  induction segments with
  | nil => rfl
  | cons segment segments ih =>
      rw [List.flatMap_cons, List.forall_mem_append, ih]
      cases segment with
      | text chars =>
          exact and_iff_right fun item member => List.mem_singleton.mp member ▸ verbatim chars
      | hole items => exact List.forall_mem_append.symm

/-- The names that items use are those of their pieces. -/
theorem Item.flatMap_names {items : List Item} {pieces : List Piece}
    (yields : List.Forall₂ (Item.Yields indirections bindings) items pieces) :
    items.flatMap (Item.names bindings) = pieces.filterMap Piece.name? := by
  induction yields with
  | nil => rfl
  | cons head _ ih =>
      rw [List.flatMap_cons, ih]
      cases head with
      | verbatim text => rfl
      | name puts =>
          have bound := Bindings.exists_puts_iff.mp ⟨_, puts⟩
          simp [Item.names, Piece.name?, bound]
      | key spelling puts =>
          have bound := Bindings.exists_puts_iff.mp ⟨_, puts⟩
          simp [Item.names, Piece.name?, bound]

theorem Segment.flatMap_names_parts (bindings : Bindings) (segments : List Segment) :
    (segments.flatMap Segment.parts).flatMap (Item.names bindings) =
      (Segment.items segments).flatMap (Item.names bindings) := by
  induction segments with
  | nil => rfl
  | cons segment segments ih =>
      rw [List.flatMap_cons, List.flatMap_append, ih]
      cases segment with
      | text chars => rfl
      | hole items => exact List.flatMap_append.symm

/-- Bindings give a name the same text: they bind it alike, and also the subscripts among its
indirections. -/
def Bindings.Agree (indirections : Dict (List Indirection)) (first second : Bindings)
    (name : String) : Prop :=
  first.textOf? name = second.textOf? name ∧
    ∀ subscript, .index subscript ∈ indirections.getD name [] →
      first.textOf? subscript = second.textOf? subscript

theorem Bindings.Agree.puts {other : Bindings} {name text : String}
    (agree : Bindings.Agree indirections other bindings name)
    (puts : bindings.Puts indirections name text) : other.Puts indirections name text := by
  obtain ⟨bound, found, rfl⟩ := puts
  refine ⟨bound, agree.1.trans found, List.foldl_ext _ _ _ fun text indirection member => ?_⟩
  cases indirection with
  | deref => rfl
  | index subscript =>
      have same := agree.2 subscript member
      unfold textOf? at same
      rw [Indirection.apply, Indirection.apply, same]

theorem Item.yields_of_agree {other : Bindings} {items : List Item} {pieces : List Piece}
    (yields : List.Forall₂ (Item.Yields indirections bindings) items pieces)
    (agree : ∀ name ∈ pieces.filterMap Piece.name?,
      Bindings.Agree indirections other bindings name) :
    List.Forall₂ (Item.Yields indirections other) items pieces := by
  induction yields with
  | nil => exact .nil
  | cons head _ ih =>
      cases head with
      | verbatim text => exact .cons (.verbatim text) (ih agree)
      | name puts =>
          obtain ⟨here, later⟩ := List.forall_mem_cons.mp agree
          exact .cons (.name (here.puts puts)) (ih later)
      | key spelling puts =>
          obtain ⟨here, later⟩ := List.forall_mem_cons.mp agree
          exact .cons (.key spelling (here.puts puts)) (ih later)

/-- Names in the order of their first use, each once. -/
structure FirstUses (uses names : List String) : Prop where
  distinct : names.Nodup
  same : ∀ name, name ∈ names ↔ name ∈ uses
  ordered : names.Pairwise fun first second => uses.idxOf first < uses.idxOf second

theorem firstUses_eraseDups (uses : List String) : FirstUses uses uses.eraseDups := by
  induction uses using List.reverseRecOn with
  | nil => exact ⟨List.nodup_nil, fun name => Iff.rfl, .nil⟩
  | append_singleton uses name ih =>
      have known : ∀ other ∈ uses.eraseDups, (uses ++ [name]).idxOf other = uses.idxOf other :=
        fun other member => List.idxOf_append_of_mem ((ih.same other).mp member)
      have ordered : uses.eraseDups.Pairwise fun first second =>
          (uses ++ [name]).idxOf first < (uses ++ [name]).idxOf second := by
        apply ih.ordered.imp_of_mem
        intro first second firstMember secondMember less
        rwa [known first firstMember, known second secondMember]
      rw [List.eraseDups_append]
      by_cases used : name ∈ uses
      · have nothing : [name].removeAll uses = [] := by simp [List.removeAll, used]
        rw [nothing, List.eraseDups_nil, List.append_nil]
        refine ⟨ih.distinct, fun other => ?_, ordered⟩
        rw [ih.same, List.mem_append, List.mem_singleton]
        exact ⟨.inl, fun either => either.elim id fun same => same ▸ used⟩
      · have single : ([name].removeAll uses).eraseDups = [name] := by
          rw [List.removeAll, List.filter_cons_of_pos (by simpa using used), List.filter_nil]
          rfl
        rw [single]
        refine ⟨?_, fun other => ?_, ?_⟩
        · refine List.nodup_append.mpr ⟨ih.distinct, List.pairwise_singleton _ _, ?_⟩
          rintro first member last isLast rfl
          exact used ((ih.same name).mp (List.mem_singleton.mp isLast ▸ member))
        · rw [List.mem_append, List.mem_append, ih.same]
        · refine List.pairwise_append.mpr ⟨ordered, List.pairwise_singleton _ _, ?_⟩
          intro first member last isLast
          obtain rfl := List.mem_singleton.mp isLast
          rw [known first member, List.idxOf_append_of_notMem used]
          have within := List.idxOf_lt_length_iff.mpr ((ih.same first).mp member)
          omega

/-- The names that a template uses are those of its pieces. -/
theorem Parsed.names_eq {parsed : Parsed} {pieces : List Piece}
    (yields : parsed.Yields indirections bindings pieces) :
    parsed.names bindings = (pieces.filterMap Piece.name?).eraseDups := by
  rw [Parsed.names, ← Segment.flatMap_names_parts, Item.flatMap_names yields]

/-- **The names of a template are all that rendering looks at.** A template is rendered exactly if
no item is only the start of a key and every name and key is bound. Then its names are those that
make place for their bindings, in the order of their first use and each once, and bindings that
agree on these names and on the subscripts among their indirections give the same text. -/
theorem Parsed.names_exact (parsed : Parsed) (indirections : Dict (List Indirection))
    (bindings : Bindings) :
    ((∃ text, parsed.render indirections bindings = .ok text) ↔
      ∀ item ∈ Segment.items parsed.segments, item.isOpenKey = false ∧
        ∀ name ∈ item.subject?, bindings.contains name = true) ∧
    ∀ text, parsed.render indirections bindings = .ok text →
      (∃ pieces, parsed.Yields indirections bindings pieces ∧
        text.toList = Piece.chars pieces ∧
        FirstUses (pieces.filterMap Piece.name?) (parsed.names bindings)) ∧
      ∀ other : Bindings,
        (∀ name ∈ parsed.names bindings, Bindings.Agree indirections other bindings name) →
        parsed.render indirections other = .ok text := by
  refine ⟨?_, fun text rendered => ?_⟩
  · simp only [← Item.exists_yields_iff indirections bindings]
    rw [← Segment.forall_mem_parts_iff (fun text => ⟨_, .verbatim text⟩), ← exists_forall₂_iff]
    exact Parsed.exists_render_iff
  · obtain ⟨pieces, yields, same⟩ := Parsed.render_eq_ok_iff.mp rendered
    have firstUses := firstUses_eraseDups (pieces.filterMap Piece.name?)
    rw [Parsed.names_eq yields]
    refine ⟨⟨pieces, yields, same, firstUses⟩, fun other agree => ?_⟩
    refine Parsed.render_eq_ok_iff.mpr ⟨pieces, Item.yields_of_agree yields ?_, same⟩
    exact fun name member => agree name ((firstUses.same name).mpr member)

/-- A row of a matrix, used before and after a key. -/
def rowParsed : Parsed where
  segments := [.text "put(".toList, .hole [.verbatim [], .name ['m'], .verbatim []],
    .text ", ".toList, .hole [.verbatim [], .name ['n'], .verbatim " +".toList,
      .verbatim [' '], .key "args['k']".toList ['k'], .verbatim " -".toList, .verbatim [' '],
      .name ['m'], .verbatim []], .text ", m);".toList]

/-- The matrix is indexed by the row, which is itself bound, and dereferenced. -/
def rowIndirections : Dict (List Indirection) := .ofList [("m", [.index "row", .deref])]

/-- Bindings for it, and one that nothing uses. -/
def rowBindings (unused : Int) : Bindings :=
  .ofList [("k", .int 3), ("m", .name "grid"), ("n", .name "len"), ("row", .name "i"),
    ("unused", .int unused)]

/-- The row is looked up for the matrix, and the binding that nothing uses does not matter. -/
theorem names_exact_rowParsed :
    Template.parse "put(${m}, $\x7bn + args['k'] - m\x7d, m);" = .ok rowParsed ∧
    rowParsed.names (rowBindings 0) = ["m", "n", "k"] ∧
    rowParsed.render rowIndirections (rowBindings 0) =
      .ok "put((*grid[i]), len + 3 - (*grid[i]), m);" ∧
    rowParsed.render rowIndirections (rowBindings 1) =
      .ok "put((*grid[i]), len + 3 - (*grid[i]), m);" := by
  have names : rowParsed.names (rowBindings 0) = ["m", "n", "k"] := by decide +kernel
  have rendered : rowParsed.render rowIndirections (rowBindings 0) =
      .ok "put((*grid[i]), len + 3 - (*grid[i]), m);" := by decide +kernel
  have alike : ∀ name ∈ ["m", "n", "k", "row"],
      (rowBindings 1).textOf? name = (rowBindings 0).textOf? name := by decide +kernel
  obtain ⟨-, exact⟩ := Parsed.names_exact rowParsed rowIndirections (rowBindings 0)
  refine ⟨by decide +kernel, names, rendered, (exact _ rendered).2 _ fun name member => ?_⟩
  rw [names] at member
  refine ⟨alike name (List.mem_append_left ["row"] member), fun subscript indexed => ?_⟩
  have row : ∀ name ∈ ["m", "n", "k"], ∀ indirection ∈ rowIndirections.getD name [],
      indirection = .index "row" ∨ indirection = .deref := by decide +kernel
  rcases row name member _ indexed with same | same
  · cases same
    exact alike "row" (by decide)
  · cases same

end TensorLowering
