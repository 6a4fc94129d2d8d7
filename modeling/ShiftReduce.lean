import ShiftReduce.Analysis.Report
import ShiftReduce.Automaton
import ShiftReduce.Forest.Outline
import ShiftReduce.Item.Valid
import ShiftReduce.Manifest
import ShiftReduce.Proofs.Augmentation
import ShiftReduce.Run.Reach
import ShiftReduce.Table.Candidate
import ShiftReduce.Proofs.Exploration
import ShiftReduce.Proofs.ViablePrefix
import ShiftReduce.Proofs.Settling
import ShiftReduce.Proofs.Trees
import ShiftReduce.Proofs.FirstSets
import ShiftReduce.Proofs.FollowSets
import ShiftReduce.Proofs.Requests
import ShiftReduce.Proofs.Cells
import ShiftReduce.Proofs.Decisions
import ShiftReduce.Proofs.Stacks
import ShiftReduce.Proofs.Steps
import ShiftReduce.Proofs.Carrying
import ShiftReduce.Proofs.Soundness
import ShiftReduce.Proofs.Completeness
import ShiftReduce.Proofs.Completion
import ShiftReduce.Proofs.Termination
import ShiftReduce.Proofs.ErrorPosition
import ShiftReduce.Proofs.FirstExact
import ShiftReduce.Proofs.ValidItems
import ShiftReduce.Proofs.Conflicts
import ShiftReduce.Proofs.StackInvariant
import ShiftReduce.Proofs.FollowExact
import ShiftReduce.Proofs.Collection
import ShiftReduce.Proofs.Traces
import ShiftReduce.Proofs.Rearrangement
import ShiftReduce.Proofs.TwinTables
import ShiftReduce.Proofs.TwinRuns
import ShiftReduce.Proofs.LargerLookahead
import ShiftReduce.Proofs.Stages
import ShiftReduce.Proofs.Printing
import ShiftReduce.Proofs.SpelledRuns
import ShiftReduce.Proofs.LeastClosure
import ShiftReduce.Proofs.Conservation
import ShiftReduce.Proofs.GrowingPasses
import ShiftReduce.Proofs.Numbering
import ShiftReduce.Proofs.Kernels
import ShiftReduce.Proofs.Acceptance
import ShiftReduce.Proofs.Refusals
import ShiftReduce.Proofs.Layouts
import ShiftReduce.Proofs.MalformedLines
import ShiftReduce.Proofs.Alphabets
import ShiftReduce.Proofs.UnseenTokens
import ShiftReduce.Proofs.Acyclicity
import ShiftReduce.Proofs.ItemKeys
import ShiftReduce.Proofs.Spacing
