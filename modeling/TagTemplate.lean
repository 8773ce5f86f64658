import TagTemplate.Diagnostic
import TagTemplate.Function.Scripted
import TagTemplate.Function.TrackData
import TagTemplate.Log
import TagTemplate.Template.Unfold
import TagTemplate.Workspace
import TagTemplate.Proofs.Grammar
import TagTemplate.Proofs.Reading.Invariant
import TagTemplate.Proofs.Reading.Sound
import TagTemplate.Proofs.Reading.Complete
import TagTemplate.Proofs.Layout
import TagTemplate.Proofs.Compile
import TagTemplate.Proofs.Printing
import TagTemplate.Proofs.Accessors
import TagTemplate.Proofs.Propagation
import TagTemplate.Proofs.Strictness
import TagTemplate.Proofs.Similarity
import TagTemplate.Proofs.Substitution
import TagTemplate.Proofs.Refinement
import TagTemplate.Proofs.CheckedAccess
import TagTemplate.Proofs.Coverage
import TagTemplate.Proofs.Reading.Room
import TagTemplate.Proofs.Moving
import TagTemplate.Proofs.Reading.Later
import TagTemplate.Proofs.Concatenation
import TagTemplate.Proofs.Reading.Nesting
import TagTemplate.Proofs.NestingLimit
import TagTemplate.Proofs.Visiting
import TagTemplate.Proofs.OwnErrors
import TagTemplate.Proofs.EvaluationDepth
import TagTemplate.Proofs.Pruning
import TagTemplate.Proofs.Reading.Completion
import TagTemplate.Proofs.Reading.Outlook
import TagTemplate.Proofs.Continuation
import TagTemplate.Proofs.Unambiguity
import TagTemplate.Proofs.Occurrence
import TagTemplate.Proofs.ArgumentText
import TagTemplate.Proofs.Agreement
import TagTemplate.Proofs.Accountability
import TagTemplate.Proofs.FaultyNode
import TagTemplate.Proofs.Reading.OpenCalls
import TagTemplate.Proofs.ErrorPlaces
import TagTemplate.Proofs.OperandRuns
import TagTemplate.Proofs.Selection
import TagTemplate.Proofs.TypedParameters
import TagTemplate.Proofs.Moves
import TagTemplate.Proofs.SingleUse
import TagTemplate.Proofs.SourceLines
import TagTemplate.Proofs.DiagnosticPlace
import TagTemplate.Proofs.Carets
import TagTemplate.Proofs.TableSizes
import TagTemplate.Proofs.IntegerOperands
import TagTemplate.Proofs.ByteOrder
import TagTemplate.Proofs.Watching
import TagTemplate.Proofs.Registration
import TagTemplate.Proofs.Descent.Contract
import TagTemplate.Proofs.Rounding
import TagTemplate.Proofs.ShortestDecimal
import TagTemplate.Proofs.DecimalText
import TagTemplate.Proofs.NumberOperands
