import Oneshot.Proofs.Permanence
import Oneshot.Script.Transcript
import Oneshot.Proofs.Stack
import Oneshot.Proofs.Ledger
import Oneshot.Proofs.Phase
import Oneshot.Proofs.Course
import Oneshot.Proofs.Dispatch
import Oneshot.Proofs.FirstDecision
import Oneshot.Proofs.Calls
import Oneshot.Proofs.Containment
import Oneshot.Proofs.Readers
import Oneshot.Proofs.Vigil
import Oneshot.Proofs.Wakers
import Oneshot.Proofs.Alone
import Oneshot.Proofs.Plans
import Oneshot.Proofs.Agrees
import Oneshot.Proofs.Akin
import Oneshot.Proofs.Deletion
import Oneshot.Proofs.Following
import Oneshot.Proofs.Isolation
import Oneshot.Proofs.Delivery
import Oneshot.Proofs.Provenance
import Oneshot.Proofs.Downstream
import Oneshot.Proofs.WakerPanics
import Oneshot.Proofs.Accounts
import Oneshot.Proofs.Pipelines
import Oneshot.Proofs.DrainLoop
import Oneshot.Proofs.AtOnce
import Oneshot.Proofs.Work
import Oneshot.Proofs.Returns
import Oneshot.Proofs.Brisk
import Oneshot.Proofs.RelayPlans
import Oneshot.Proofs.RelayChains
import Oneshot.Proofs.Relays
