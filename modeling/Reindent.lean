import Reindent.Layout.Text
import Reindent.Lexeme.Layout
import Reindent.Main
import Reindent.Proofs.Grammar
import Reindent.Proofs.TextTrace
import Reindent.Proofs.LayoutRules
import Reindent.Proofs.Content
import Reindent.Proofs.StreamContent
import Reindent.Proofs.FixedPoint
import Reindent.Proofs.Spelling
import Reindent.Proofs.Rendering
import Reindent.Proofs.Chunks
import Reindent.Proofs.EndState
import Reindent.Proofs.Outcome
import Reindent.Proofs.Failures
import Reindent.Proofs.RepeatedRuns
import Reindent.Proofs.Refusals
import Reindent.Proofs.ReachableStates
import Reindent.Proofs.Footprint
import Reindent.Proofs.EscapeSpelling
import Reindent.Proofs.Containers
import Reindent.Proofs.StrayBackslashes
import Reindent.Proofs.FirstFault
import Reindent.Proofs.Transitions
import Reindent.Proofs.BoundedMemory
