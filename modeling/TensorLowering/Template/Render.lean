import TensorLowering.Template.Item

/-! # Reading and rendering templates

`Template.parse` splits a source into segments; it fails exactly when a hole is not
closed. `Parsed.names` lists the bound identifiers that a template uses, and
`Parsed.render` substitutes them.
-/

namespace TensorLowering

/-- Why a template cannot be read or rendered. -/
inductive TemplateFault where
  | unclosedHole
  | unbound (name : String)
  | openKey (start : String)
  deriving DecidableEq, Repr

/-- The wording of a fault. -/
def TemplateFault.message : TemplateFault → String
  | .unclosedHole =>
      "template syntax error: found end of input expected something else, or '\x7d'"
  | .unbound name => "identifier '" ++ name ++ "' is not bound"
  | .openKey start => "key prefix '" ++ start ++ "' cannot be rendered without evaluation"

/-- The segments of a template. -/
structure Parsed where
  segments : List Segment
  deriving DecidableEq, Repr

/-- Read the source of a template. -/
def Template.parse (source : String) : Except TemplateFault Parsed :=
  match Segment.scan source.toList with
  | some segments => .ok ⟨segments⟩
  | none => .error .unclosedHole

/-- Apply an indirection to the text of an identifier. -/
def Indirection.apply (bindings : Bindings) (text : String) : Indirection → String
  | .deref => "(*" ++ text ++ ")"
  | .index subscript =>
      text ++ "[" ++ ((bindings.find? subscript).map Binding.text).getD subscript ++ "]"

/-- The text of a bound identifier with its indirections. -/
def Bindings.render (bindings : Bindings) (indirections : Dict (List Indirection)) (name : String) :
    Except TemplateFault String :=
  match bindings.find? name with
  | none => .error (.unbound name)
  | some binding =>
      .ok ((indirections.getD name []).foldl (Indirection.apply bindings) binding.text)

namespace Item

/-- The bound names that an item uses. -/
def names (bindings : Bindings) : Item → List String
  | .verbatim _ => []
  | .name text => [String.ofList text].filter bindings.contains
  | .key _ literal => [String.ofList literal].filter bindings.contains
  | .openKey _ start => bindings.keys.filter fun name => start.isPrefixOf name.toList

/-- The text that an item stands for. -/
def render (indirections : Dict (List Indirection)) (bindings : Bindings) :
    Item → Except TemplateFault String
  | .verbatim text => .ok (String.ofList text)
  | .name text => bindings.render indirections (String.ofList text)
  | .key _ literal => bindings.render indirections (String.ofList literal)
  | .openKey _ start => .error (.openKey (String.ofList start))

end Item

/-- The text that a segment stands for. -/
def Segment.render (indirections : Dict (List Indirection)) (bindings : Bindings) :
    Segment → Except TemplateFault String
  | .text chars => .ok (String.ofList chars)
  | .hole items => return "".intercalate (← items.mapM (Item.render indirections bindings))

namespace Parsed

/-- The bound names that a template uses, in the order of their first use. -/
def names (parsed : Parsed) (bindings : Bindings) : List String :=
  ((Segment.items parsed.segments).flatMap (Item.names bindings)).eraseDups

/-- The text of a template under its bindings. -/
def render (parsed : Parsed) (indirections : Dict (List Indirection)) (bindings : Bindings) :
    Except TemplateFault String :=
  return "".intercalate (← parsed.segments.mapM (Segment.render indirections bindings))

end Parsed

end TensorLowering
