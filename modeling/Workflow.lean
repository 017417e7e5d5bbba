import Workflow.Graph.Draft
import Workflow.Stored
import Workflow.Subgraph
import Workflow.Proofs.Definition
import Workflow.Proofs.Run
import Workflow.Proofs.Path
import Workflow.Proofs.Logs
import Workflow.Proofs.Compensation
import Workflow.Proofs.ReverseWalk
import Workflow.Proofs.Resumption
import Workflow.Proofs.Outcome
import Workflow.Proofs.LostHalts
import Workflow.Proofs.FailureModes
import Workflow.Proofs.Steering
import Workflow.Proofs.Collisions
import Workflow.Proofs.FailedChild
import Workflow.Proofs.LastFailure
import Workflow.Proofs.SavedContexts
import Workflow.Proofs.Delegation
import Workflow.Proofs.Validation
import Workflow.Proofs.Lookups
import Workflow.Proofs.Termination
import Workflow.Proofs.StoredText
import Workflow.Proofs.Sessions
import Workflow.Proofs.DefaultCheckpoints
import Workflow.Proofs.CurrentState
import Workflow.Proofs.Standalone
import Workflow.Proofs.Retrying
import Workflow.Proofs.FaultChains
import Workflow.Proofs.StoredGrammar
import Workflow.Proofs.Visits
import Workflow.Proofs.RequiredKeys
import Workflow.Proofs.ContextHistory
import Workflow.Proofs.NodeIndex
import Workflow.Proofs.NodeSettings
