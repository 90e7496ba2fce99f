import Scoring.Main
import Scoring.Proofs.Information
import Scoring.Proofs.Locality
import Scoring.Proofs.Primary
import Scoring.Proofs.Causes
import Scoring.Proofs.Turns
import Scoring.Proofs.Derivation
import Scoring.Proofs.FailurePath
import Scoring.Proofs.Chain
import Scoring.Proofs.Inlining
import Scoring.Proofs.Abstention
import Scoring.Proofs.Answers
import Scoring.Proofs.RoundTrip
import Scoring.Proofs.Strictness
import Scoring.Proofs.Compounds
import Scoring.Format.Grammar
import Scoring.Proofs.Schedules
import Scoring.Proofs.Spelling
import Scoring.Proofs.Votes
import Scoring.Proofs.Shares
import Scoring.Proofs.Membership
import Scoring.Proofs.Removal
import Scoring.Proofs.Categories
import Scoring.Proofs.Leaves
import Scoring.Proofs.Repetition
import Scoring.Proofs.Frame
import Scoring.Proofs.Equality
import Scoring.Proofs.Complements
import Scoring.Proofs.Reordering
import Scoring.Proofs.Absence
import Scoring.Proofs.Replacement
import Scoring.Proofs.Selection
import Scoring.Proofs.Workload
import Scoring.Proofs.Mismatches
import Scoring.Proofs.OwnOutputs
import Scoring.Proofs.Rows
import Scoring.Proofs.Sessions
