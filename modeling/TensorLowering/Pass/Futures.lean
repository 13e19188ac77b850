import TensorLowering.References

/-! # Futures

The operation that makes a future dispatches it before its code, and the first user waits
for it before its code. A future without users is waited for right after the operation
that makes it.
-/

namespace TensorLowering

/-- The code that starts a future and the code that waits for it. -/
structure FutureTemplates where
  dispatch : Template := { source := "dlc_future_dispatch(&${state}, ${name});" }
  resolve : Template := { source := "dlc_future_wait(&${state});" }
  deriving DecidableEq, Inhabited

/-- Code about a future. -/
def futureCode (template : Template) (future state : String) : Fragment where
  template
  bindings := .ofList [("name", .name future), ("state", .name state)]

namespace Lowering

/-- The code before and after an operation for a buffer; none unless it is a future. An
operation that makes a future becomes a user of its state. -/
def resolveFuture (templates : FutureTemplates) (operation name : String) :
    Lowering (List Fragment × List Fragment) := do
  let buffer ← lookup name
  if !(← askTypes fun types => .ok (types.isFuture buffer.type)) then return ([], [])
  let some state := buffer.state | throw (.missingState name)
  let dispatch := futureCode templates.dispatch name state
  let resolve := futureCode templates.resolve name state
  if buffer.isUser operation then
    return (if buffer.users.head? = some operation then [resolve] else [], [])
  else
    modifyBuffer state (·.addUser operation)
    return ([dispatch], if buffer.users.isEmpty then [resolve] else [])

/-- Start and await the futures that a block touches. -/
def resolveFutures (templates : FutureTemplates) (block : Block) (operation : String) :
    Lowering Block := do
  let names ← references block .everywhere
  let code ← names.mapM (resolveFuture templates operation)
  return (block.prepend (code.flatMap Prod.fst)).append (code.flatMap Prod.snd)

end Lowering

end TensorLowering
