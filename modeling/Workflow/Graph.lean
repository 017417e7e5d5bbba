import Workflow.Node
import Workflow.Options

/-!
# Graphs

A graph is the set of nodes that runs move through, with what they share: the
options, the checkpoint of processes that have none of their own, and the hooks
that nodes refer to by name. Nodes stand in the order of their registration; an
index leads from a state to the position of its node. Graphs are put together
and checked in `Workflow.Graph.Draft`.
-/

namespace Workflow

/-- The nodes of a workflow and what they share. -/
structure Graph (σ : Type) where
  name : String
  nodes : List (Node σ) := []
  index : Table Nat := ∅
  options : Options := {}
  checkpoint : Option (Checkpoint σ) := none
  prepareHooks : Table (Callback σ) := ∅
  signalHooks : Table (SignalHook σ) := ∅

namespace Graph

variable {σ : Type}

/-- The node of a state. -/
def node? (graph : Graph σ) (state : StateName) : Option (Node σ) :=
  (graph.index.get? state.text).bind (graph.nodes[·]?)

/-- Whether a state has a node. -/
def hasNode (graph : Graph σ) (state : StateName) : Bool := graph.index.contains state.text

/-- The number of nodes. -/
def nodeCount (graph : Graph σ) : Nat := graph.nodes.length

/-- What the graph does when a node fails. -/
def failureHandling (graph : Graph σ) : FailureHandling := graph.options.failureHandling

/-- Whether runs go on after a failure. -/
def isChainOfCommand (graph : Graph σ) : Bool := graph.failureHandling = .chainOfCommand

/-- The work of a prepare hook. -/
def prepareHook (graph : Graph σ) : Hook (Callback σ) → Callback σ
  | .inline callback => callback
  | .named name =>
    match graph.prepareHooks.get? name with
    | some callback => callback
    | none => .raise (.text ("unregistered prepare hook " ++ ticked name))

/-- What happens at a node: its prepare hook, and its work unless that fails. -/
def attempt (graph : Graph σ) (node : Node σ) : Callback σ :=
  match node.prepare with
  | some hook => (graph.prepareHook hook).andThen node.work
  | none => node.work

/-- The signal that follows the work of a node. -/
def choose (graph : Graph σ) (node : Node σ) (context : Context σ) (host : σ) :
    Except Fault Signal × σ :=
  match node.determine with
  | none => (.ok .proceed, host)
  | some (.inline hook) => ((hook context host).map .ok id)
  | some (.named name) =>
    match graph.signalHooks.get? name with
    | some hook => ((hook context host).map .ok id)
    | none => (.error (.text ("unregistered signal hook " ++ ticked name)), host)

/-- The graph shows its states in the order of registration. -/
def outline (graph : Graph σ) : Outline :=
  .record "Graph"
    [ ("name", .quoted graph.name)
    , ("states", .list (graph.nodes.map fun node => node.state.outline))
    , ("options", graph.options.outline)
    , ("checkpoint", .ofBool graph.checkpoint.isSome) ]

end Graph

end Workflow
