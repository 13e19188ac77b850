import TensorLowering.Main
import TensorLowering.Proofs.Accounting
import TensorLowering.Proofs.Walk
import TensorLowering.Proofs.Ledger
import TensorLowering.Proofs.Views
import TensorLowering.Proofs.DeferredRelease
import TensorLowering.Proofs.LoweringSteps
import TensorLowering.Proofs.LifetimePhases
import TensorLowering.Proofs.EmittedLifetimes
import TensorLowering.Proofs.ScheduleBalance
import TensorLowering.Proofs.AliasSafety
import TensorLowering.Proofs.References
import TensorLowering.Proofs.FutureEvents
import TensorLowering.Proofs.FutureOrder
import TensorLowering.Proofs.Frames
import TensorLowering.Proofs.TilingPeak
import TensorLowering.Proofs.KernelHistory
import TensorLowering.Proofs.Decoding
import TensorLowering.Proofs.DocumentParts
import TensorLowering.Proofs.AliasLinks
import TensorLowering.Proofs.DocumentRoundTrip
import TensorLowering.Proofs.Identifiers
import TensorLowering.Proofs.Invariants
import TensorLowering.Proofs.Bookkeeping
import TensorLowering.Proofs.AcceptedValues
import TensorLowering.Proofs.Closures
import TensorLowering.Proofs.ClosureReferences
import TensorLowering.Proofs.ClosureStructs
import TensorLowering.Proofs.Indentation
import TensorLowering.Proofs.TileSteps
import TensorLowering.Proofs.ManagedBuffers
import TensorLowering.Proofs.TiledDrafts
import TensorLowering.Proofs.TileLoops
import TensorLowering.Proofs.TiledBlocks
import TensorLowering.Proofs.TiledReferences
import TensorLowering.Proofs.Evolution
import TensorLowering.Proofs.Moves
import TensorLowering.Proofs.ViewPlacement
import TensorLowering.Proofs.ClosureReuse
import TensorLowering.Proofs.ClosureEffects
import TensorLowering.Proofs.BufferNames
import TensorLowering.Proofs.FailedSteps
import TensorLowering.Proofs.ArenaBounds
import TensorLowering.Proofs.NameHistory
import TensorLowering.Proofs.TargetOrder
import TensorLowering.Proofs.Agreement
import TensorLowering.Proofs.ScheduleComposition
import TensorLowering.Proofs.LifetimeAgreement
import TensorLowering.Proofs.ReferenceReach
import TensorLowering.Proofs.DraftSteps
import TensorLowering.Proofs.KernelDrafts
import TensorLowering.Proofs.StructOrder
import TensorLowering.Proofs.TileTables
import TensorLowering.Proofs.ViewDeclarations
import TensorLowering.Proofs.Substitution
import TensorLowering.Proofs.LongestTokens
import TensorLowering.Proofs.ExactSubstitution
import TensorLowering.Proofs.ViewOrder
import TensorLowering.Proofs.BalancedClosures
import TensorLowering.Proofs.NumericRanges
import TensorLowering.Proofs.PassOrder
import TensorLowering.Proofs.TileConcatenation
import TensorLowering.Proofs.TypeInterning
import TensorLowering.Proofs.RootChains
import TensorLowering.Proofs.StructWidths
import TensorLowering.Proofs.TiledOnce
import TensorLowering.Proofs.CommandFiles
