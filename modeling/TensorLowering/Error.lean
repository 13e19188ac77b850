import TensorLowering.Buffer
import TensorLowering.Json.Decode
import TensorLowering.Template.Render
import TensorLowering.Text.Quoted

/-! # Errors

Every way in which lowering can fail is a case of `Error`, with the facts that its
message tells. Each case has a stable code.
-/

namespace TensorLowering

/-- Why the recorded tiling of an operation cannot be used. -/
inductive TilingFault where
  | rangeOverflow (level : String)
  | notABuffer (key : String)
  deriving DecidableEq, Repr

/-- The wording of a fault. -/
def TilingFault.message : TilingFault → String
  | .rangeOverflow level => "an address range in " ++ level ++ " overflows"
  | .notABuffer key => "tiled binding '" ++ key ++ "' does not name a buffer"

/-- Why lowering fails. -/
inductive Error where
  | unrepresentable (value : Value) (type : String)
  | fieldMismatch (struct : String) (expected found : List String)
  | layoutConflict (struct : String)
  | unknownType (type : TypeId)
  | malformedType (fault : TypeFault)
  | unknownBuffer (name : String)
  | duplicateBuffer (name : String) (scope : Scope)
  | definitionConflict (name : String)
  | unreadable (fault : Json.Fault)
  | invalidIdentifier (name : String)
  | template (fault : TemplateFault)
  | doubleAllocation (buffer operation : String)
  | doubleFree (buffer operation : String)
  | aliasCycle (buffers : List String)
  | ambiguousTiling (operation : String) (count : Nat)
  | tileCount (operation name : String) (expected found : Nat)
  | tiling (operation : String) (fault : TilingFault)
  | missingRange (buffer level : String)
  | missingState (buffer : String)
  deriving DecidableEq

namespace Error

/-- The stable code of an error. -/
def code : Error → String
  | .unrepresentable .. => "E0101"
  | .fieldMismatch .. => "E0102"
  | .layoutConflict .. => "E0103"
  | .unknownType .. => "E0104"
  | .malformedType .. => "E0105"
  | .unknownBuffer .. => "E0201"
  | .duplicateBuffer .. => "E0202"
  | .definitionConflict .. => "E0203"
  | .unreadable .. => "E0204"
  | .invalidIdentifier .. => "E0205"
  | .template .. => "E0301"
  | .doubleAllocation .. => "E0401"
  | .doubleFree .. => "E0402"
  | .aliasCycle .. => "E0403"
  | .ambiguousTiling .. => "E0501"
  | .tileCount .. => "E0502"
  | .tiling .. => "E0503"
  | .missingRange .. => "E0504"
  | .missingState .. => "E0601"

/-- The wording of an error. -/
def message : Error → String
  | .unrepresentable value type => "value " ++ value.text ++ " cannot be represented as " ++ type
  | .fieldMismatch struct expected found =>
      "struct " ++ struct ++ " expects fields " ++ Text.quotedList expected ++ ", got " ++
        Text.quotedList found
  | .layoutConflict struct =>
      "struct type '" ++ struct ++ "' redeclared with an incompatible layout"
  | .unknownType type => "unknown type id " ++ toString type.index
  | .malformedType fault => "type " ++ fault.subject ++ " is malformed: " ++ fault.reason
  | .unknownBuffer name => "buffer '" ++ name ++ "' not found"
  | .duplicateBuffer name scope =>
      "buffer '" ++ name ++ "' already exists in " ++ scope.label ++ " scope"
  | .definitionConflict name =>
      "global definition '" ++ name ++ "' already exists with different code"
  | .unreadable fault => "context serialization failed: " ++ fault.message
  | .invalidIdentifier name => "buffer name '" ++ name ++ "' is not a C identifier"
  | .template fault => fault.message
  | .doubleAllocation buffer operation =>
      "buffer '" ++ buffer ++ "' allocated twice (in '" ++ operation ++ "')"
  | .doubleFree buffer operation =>
      "buffer '" ++ buffer ++ "' freed while not live (in '" ++ operation ++ "')"
  | .aliasCycle buffers => "circular alias dependency among " ++ Text.quotedList buffers
  | .ambiguousTiling operation count =>
      toString count ++ " fragments of '" ++ operation ++
        "' carry tiling constraints, expected at most one"
  | .tileCount operation name expected found =>
      "'" ++ name ++ "' of '" ++ operation ++ "' has " ++ toString found ++
        " tiles, schedule has " ++ toString expected
  | .tiling operation fault => "tiling of '" ++ operation ++ "' failed: " ++ fault.message
  | .missingRange buffer level =>
      "buffer '" ++ buffer ++ "' has no constraint for memory level '" ++ level ++ "'"
  | .missingState buffer => "future '" ++ buffer ++ "' has no state reference"

/-- What to look at, for errors that usually come from the schedule. -/
def hint? : Error → Option String
  | .doubleAllocation .. | .doubleFree .. =>
      some "check the users list of the buffer against the operation order"
  | .ambiguousTiling .. => some "attach the tile constraint to exactly one fragment"
  | .missingState .. => some "link the future to its state buffer before scheduling"
  | _ => none

end Error

end TensorLowering
