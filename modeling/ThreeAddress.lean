import ThreeAddress.Script.Run
import ThreeAddress.Proofs.Placements
import ThreeAddress.Proofs.Closing
import ThreeAddress.Proofs.Handles
import ThreeAddress.Proofs.SingleAssignment
import ThreeAddress.Proofs.Interleaving
import ThreeAddress.Proofs.Failures
import ThreeAddress.Proofs.Resolving
import ThreeAddress.Proofs.Replay
import ThreeAddress.Proofs.Callbacks
import ThreeAddress.Proofs.Contiguity
import ThreeAddress.Proofs.Renaming
import ThreeAddress.Proofs.Untraced
import ThreeAddress.Proofs.Stability
import ThreeAddress.Proofs.OperandTexts
import ThreeAddress.Proofs.IntegerConstants
import ThreeAddress.Proofs.ValueEquality
import ThreeAddress.Proofs.Occurrences
import ThreeAddress.Proofs.ForeignHandles
import ThreeAddress.Proofs.Logging
