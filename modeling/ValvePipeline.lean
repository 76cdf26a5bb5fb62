import ValvePipeline.Construction
import ValvePipeline.Engine
import ValvePipeline.Expression.Parser
import ValvePipeline.Journal
import ValvePipeline.Json.Printer
import ValvePipeline.Json.Reader
import ValvePipeline.Proofs.Agreement
import ValvePipeline.Proofs.BoundaryRule
import ValvePipeline.Proofs.Brackets
import ValvePipeline.Proofs.Chains
import ValvePipeline.Proofs.Channels
import ValvePipeline.Proofs.ChoicePairs
import ValvePipeline.Proofs.Confinement
import ValvePipeline.Proofs.FlatRefinement
import ValvePipeline.Proofs.GuardedBreaks
import ValvePipeline.Proofs.GuardedLaw
import ValvePipeline.Proofs.Halting
import ValvePipeline.Proofs.Instrumentation
import ValvePipeline.Proofs.IntegerComparisons
import ValvePipeline.Proofs.IterationLaw
import ValvePipeline.Proofs.LabelBreaks
import ValvePipeline.Proofs.LabelNames
import ValvePipeline.Proofs.LoopBounds
import ValvePipeline.Proofs.NegationNormalForm
import ValvePipeline.Proofs.Origins
import ValvePipeline.Proofs.Redisplay
import ValvePipeline.Proofs.Rendering
import ValvePipeline.Proofs.StandingBreak
import ValvePipeline.Proofs.Termination
import ValvePipeline.Proofs.TreeDisplay
import ValvePipeline.Proofs.UnwindingLaw
import ValvePipeline.Proofs.WalkDiscipline
import ValvePipeline.Proofs.Writes
import ValvePipeline.SinkRack
import ValvePipeline.Verdict
