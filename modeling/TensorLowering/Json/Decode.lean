import TensorLowering.Dict
import TensorLowering.Json.Basic

/-! # Decoding documents

A decoder reads a tree of one shape. It is told how many further levels of nesting it
may enter; parts that no decoder looks at have no such limit. Records are objects with
named fields, or arrays that list the fields in their declared order. An object may
have fields that the record does not declare, but no declared field twice.
-/

namespace TensorLowering

namespace Json

/-- Why a document is refused. -/
inductive Fault where
  | malformed
  | expected (shape : String)
  | missing (field : String)
  | repeated (field : String)
  | tooDeep
  deriving DecidableEq, Repr

/-- The wording of a fault. -/
def Fault.message : Fault → String
  | .malformed => "the text is not a JSON document"
  | .expected shape => "expected " ++ shape
  | .missing field => "missing field " ++ field
  | .repeated field => "repeated field " ++ field
  | .tooDeep => "nesting is too deep"

/-- A reader of trees of one shape, given the number of levels it may still enter. -/
abbrev Decoder (α : Type) := (depth : Nat) → Json → Except Fault α

/-- The number of levels a document may have. -/
def maxDepth : Nat := 127

/-- Go one level down. -/
def enter {α : Type} (depth : Nat) (body : Nat → Except Fault α) : Except Fault α :=
  match depth with
  | 0 => .error .tooDeep
  | depth + 1 => body depth

namespace Decoder

variable {α β : Type}

/-- A string. -/
def string : Decoder String
  | _, .str value => .ok value
  | _, _ => .error (.expected "a string")

/-- A truth value. -/
def bool : Decoder Bool
  | _, .bool value => .ok value
  | _, _ => .error (.expected "a truth value")

/-- A natural number below a limit. -/
def natBelow (limit : Nat) : Decoder Nat
  | _, .int (.ofNat value) =>
      if value < limit then .ok value else .error (.expected "a smaller number")
  | _, _ => .error (.expected "a natural number")

/-- A natural number of 32 bits. -/
def nat32 : Decoder Nat := natBelow (Nat.pow 2 32)

/-- A natural number of 64 bits. -/
def nat64 : Decoder Nat := natBelow (Nat.pow 2 64)

/-- A signed integer of 64 bits. -/
def int64 : Decoder Int
  | _, .int value =>
      if -Int.pow 2 63 ≤ value ∧ value < Int.pow 2 63 then .ok value
      else .error (.expected "an integer of 64 bits")
  | _, _ => .error (.expected "an integer")

/-- A number, rounded to a double if it is whole. -/
def double : Decoder Double
  | _, .int value => .ok (.ofInt value)
  | _, .float value => .ok value
  | _, _ => .error (.expected "a number")

/-- A value, or null for none. -/
def option (decoder : Decoder α) : Decoder (Option α)
  | _, .null => .ok none
  | depth, json => (decoder depth json).map some

/-- An array. -/
def list (decoder : Decoder α) : Decoder (List α)
  | depth, .arr items => enter depth fun depth => items.mapM (decoder depth)
  | _, _ => .error (.expected "an array")

/-- An array of two items. -/
def pair (first : Decoder α) (second : Decoder β) : Decoder (α × β)
  | depth, .arr [left, right] => enter depth fun depth => do
      return (← first depth left, ← second depth right)
  | _, _ => .error (.expected "an array of two items")

/-- An object as a dictionary; of a repeated key the last value counts. -/
def dict (decoder : Decoder α) : Decoder (Dict α)
  | depth, .obj entries => enter depth fun depth => do
      let entries ← entries.mapM fun (key, value) => do return (key, ← decoder depth value)
      return .ofList entries
  | _, _ => .error (.expected "an object")

/-- Whether a tree stands for the content of a case without content: null, or leniently
an empty object. -/
def isBlank (lenient : Bool) : Json → Bool
  | .null => true
  | .obj [] => lenient
  | _ => false

/-- One of several cases. A case without content is its tag as a string, or an object
from the tag to a blank; any other case is an object from the tag to its content. -/
def variantWith (lenient : Bool) (plain : List (String × α)) (cases : List (String × Decoder α)) :
    Decoder α
  | _, .str tag =>
      match Dict.search tag plain with
      | some value => .ok value
      | none => .error (.expected "a known case")
  | depth, .obj [(tag, content)] => enter depth fun depth =>
      match Dict.search tag plain, Dict.search tag cases with
      | some value, _ => if isBlank lenient content then .ok value else .error (.expected "null")
      | none, some decoder => decoder depth content
      | none, none => .error (.expected "a known case")
  | _, _ => .error (.expected "a case")

/-- One of several cases, strictly. -/
def variant (plain : List (String × α)) (cases : List (String × Decoder α)) : Decoder α :=
  variantWith false plain cases

end Decoder

/-! ### Records -/

/-- The fields of a record that are present, one level down. -/
structure Fields where
  depth : Nat
  entries : List (String × Json)

namespace Fields

variable {α : Type}

/-- A field that has to be present. -/
def required (fields : Fields) (name : String) (decoder : Decoder α) : Except Fault α :=
  match Dict.search name fields.entries with
  | some json => decoder fields.depth json
  | none => .error (.missing name)

/-- A field with a default. -/
def optional (fields : Fields) (name : String) (fallback : α) (decoder : Decoder α) :
    Except Fault α :=
  match Dict.search name fields.entries with
  | some json => decoder fields.depth json
  | none => .ok fallback

end Fields

/-- The first key that occurs again later. -/
def repeated? : List (String × Json) → Option String
  | [] => none
  | (key, _) :: rest => if rest.any (·.1 = key) then some key else repeated? rest

/-- The declared fields among the entries of an object. -/
def Fields.ofEntries (depth : Nat) (names : List String) (entries : List (String × Json)) :
    Except Fault Fields :=
  let known := entries.filter (names.contains ·.1)
  match repeated? known with
  | some key => .error (.repeated key)
  | none => .ok ⟨depth, known⟩

/-- The declared fields as the items of an array, in order. -/
def Fields.ofItems (depth : Nat) (names : List String) (items : List Json) :
    Except Fault Fields :=
  if names.length < items.length then .error (.expected "fewer items")
  else .ok ⟨depth, names.zip items⟩

/-- A record with declared fields. -/
def Decoder.record {α : Type} (names : List String) (body : Fields → Except Fault α) : Decoder α
  | depth, .obj entries => enter depth fun depth => Fields.ofEntries depth names entries >>= body
  | depth, .arr items => enter depth fun depth => Fields.ofItems depth names items >>= body
  | _, _ => .error (.expected "a record")

/-! ### Trees that are read whole -/

mutual

/-- The number of levels of nesting. -/
def levels : Json → Nat
  | .arr items => levelsItems items + 1
  | .obj entries => levelsEntries entries + 1
  | _ => 0

/-- The levels of the deepest item. -/
def levelsItems : List Json → Nat
  | [] => 0
  | item :: items => max (levels item) (levelsItems items)

/-- The levels of the deepest entry. -/
def levelsEntries : List (String × Json) → Nat
  | [] => 0
  | (_, value) :: entries => max (levels value) (levelsEntries entries)

end

mutual

/-- Whether every literal in a tree has a value. -/
def usable : Json → Bool
  | .arr items => usableItems items
  | .obj entries => usableEntries entries
  | .unusable => false
  | _ => true

/-- Whether every item is usable. -/
def usableItems : List Json → Bool
  | [] => true
  | item :: items => usable item && usableItems items

/-- Whether every entry is usable. -/
def usableEntries : List (String × Json) → Bool
  | [] => true
  | (_, value) :: entries => usable value && usableEntries entries

end

/-- Require that a tree is usable down to its leaves and not too deep, whether or not
all of it is looked at later. -/
def readWhole (depth : Nat) (json : Json) : Except Fault Unit :=
  if !json.usable then .error (.expected "usable values")
  else if depth < json.levels then .error .tooDeep
  else .ok ()

end Json

end TensorLowering
