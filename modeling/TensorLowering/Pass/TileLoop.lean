import TensorLowering.Pass.Lifetimes

/-! # Tile loops

The code of a tiled block runs once per tile. Before the kernel each per-tile scalar is
pointed at its current entry; then a loop is put around the code, with copies of the tiles
in and out if wanted, and the declarations of the views ahead of it. A block without a
record of tiling stays as it is.
-/

namespace TensorLowering

namespace TileRecord

/-- Point a reference at the current entry of its table. -/
def update (record : TileRecord) (replacement : String × String) : Fragment :=
  .ofSource "${reference} = &${table}[${index}];"
    [("reference", .name replacement.1), ("table", .name replacement.2),
      ("index", .code record.loopVariable)]

/-- The copy of a tile in its direction. -/
def transferSource : Direction → String
  | .inward => "memcpy(${local}, (char*)${external} + ${offsets}[${index}], ${bytes});"
  | .outward => "memcpy((char*)${external} + ${offsets}[${index}], ${local}, ${bytes});"

/-- Copy a tile in its direction. -/
def transfer (record : TileRecord) (tensor : TiledTensor) : Fragment :=
  .ofSource (transferSource tensor.direction)
    [("local", .name tensor.view), ("external", .name tensor.external),
      ("offsets", .name tensor.offsets), ("index", .code record.loopVariable),
      ("bytes", .ofSize tensor.bytes)]

/-- The copies in a direction, in the order in which the tensors were tiled. -/
def transfers (record : TileRecord) (direction : Direction) : List Fragment :=
  (record.tiled.filter (·.direction = direction)).map record.transfer

/-- The bindings of the lines that open and close the loop. -/
def loopBindings (record : TileRecord) : Bindings :=
  .ofList [("index", .code record.loopVariable), ("count", .int record.tileCount)]

end TileRecord

/-- The line that opens the loop over the tiles. -/
def loopOpening : Template :=
  { source := "for (int ${index} = 0; ${index} < ${count}; ${index}++) \x7b" }

/-- The line that closes the loop over the tiles. -/
def loopClosing : Template := { source := "\x7d" }

/-- How loops over tiles are made: whether tiles are copied, and the lines that open and
close a loop if both differ from the usual ones. -/
structure TileLoopOptions where
  transfers : Bool := false
  opening : Option String := none
  closing : Option String := none
  deriving DecidableEq, Repr, Inhabited

/-- The templates that open and close a loop. -/
def TileLoopOptions.frame (options : TileLoopOptions) : Template × Template :=
  match options.opening, options.closing with
  | some opening, some closing => ({ source := opening }, { source := closing })
  | _, _ => (loopOpening, loopClosing)

namespace Block

/-- Point every per-tile scalar at its current entry before the code. -/
def updateTiles (block : Block) : Block :=
  match block.record with
  | none => block
  | some record => block.prepend (record.replacements.map record.update)

/-- Put copies of the tiles around the code; the last tensor copied in comes first. -/
def addTransfers (block : Block) (record : TileRecord) : Block :=
  (block.prepend (record.transfers .inward).reverse).append (record.transfers .outward)

/-- Put a margin before the lines of all templates. -/
def indent (block : Block) (margin : String) : Block :=
  block.mapFragments fun fragment => { fragment with template := fragment.template.indent margin }

/-- Put a loop over the tiles around the code and the declarations of the views ahead of
it. -/
def loopOverTiles (options : TileLoopOptions) (block : Block) : Block :=
  match block.record with
  | none => block
  | some record =>
      let block := if options.transfers then block.addTransfers record else block
      let (opening, closing) := options.frame
      let body := block.indent "    "
      let loop := (body.prepend [{ template := opening, bindings := record.loopBindings }]).append
        [{ template := closing, bindings := record.loopBindings }]
      loop.prepend record.declarations

end Block

end TensorLowering
