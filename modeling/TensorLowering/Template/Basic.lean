import TensorLowering.Text.Lines
import TensorLowering.Types.Value

/-! # Templates

A template is source text with `$`-holes whose identifiers are replaced by bindings.
Indirections belong to the template and not to its text: they say how every use of an
identifier is dereferenced or subscripted.
-/

namespace TensorLowering

/-- What an identifier stands for. Only a name can name a buffer; code never does. -/
inductive Binding where
  | name (symbol : String)
  | int (value : Int)
  | float (value : Double)
  | ints (values : List Int)
  | code (text : String)
  deriving DecidableEq, Inhabited

namespace Binding

/-- The name that a binding carries. -/
def name? : Binding → Option String
  | .name symbol => some symbol
  | _ => none

/-- The text that a binding puts in place of its identifier. -/
def text : Binding → String
  | .name symbol => symbol
  | .int value => toString value
  | .float value => Value.numbers.write value
  | .ints values => "\x7b" ++ ", ".intercalate (values.map toString) ++ "\x7d"
  | .code text => text

end Binding

/-- The bindings of a template's identifiers. -/
abbrev Bindings := Dict Binding

/-- A change to every use of an identifier: a dereference, or a subscript by an index
that is itself looked up in the bindings. -/
inductive Indirection where
  | deref
  | index (index : String)
  deriving DecidableEq, Inhabited

/-- Source text with the indirections of its identifiers. -/
structure Template where
  source : String
  indirections : Dict (List Indirection) := .empty
  deriving DecidableEq, Inhabited

namespace Template

/-- Put a margin before every line of the source that is not empty. -/
def indent (template : Template) (margin : String) : Template :=
  { template with source := Text.indent margin template.source }

/-- Add an indirection to each of several identifiers. -/
def addIndirection (template : Template) (names : List String) (indirection : Indirection) :
    Template :=
  let add (dict : Dict (List Indirection)) (name : String) :=
    dict.alter name [] (· ++ [indirection])
  { template with indirections := names.foldl add template.indirections }

/-- Subscript every use of the names. -/
def subscript (template : Template) (names : List String) (index : String) : Template :=
  template.addIndirection names (.index index)

/-- Dereference every use of the names. -/
def dereference (template : Template) (names : List String) : Template :=
  template.addIndirection names .deref

end Template

end TensorLowering
