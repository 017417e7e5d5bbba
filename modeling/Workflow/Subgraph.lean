import Workflow.Manager

/-!
# Nested graphs

A node can run a whole graph: its work starts a new run of the child on the
context, and the process of the child is kept in the context under a key made
from the name of the node. Undoing the node takes the process out of the context
and rolls the child back through its own visited states.

`Node.Setting` names the setters of a node as data, this one among them, so that
`Node.define` is a function of the whole definition.
-/

namespace Workflow

namespace Subgraph

variable {σ : Type}

/-- The reply of a node whose child run made the given segment. -/
def stored (key : String) (segment : Segment σ) : Reply σ :=
  { result := .ok ()
    context := segment.final.context.insert key ⟨.process, segment.final.process⟩
    host := segment.final.host
    journal := segment.journal }

/-- The reply of a node whose child run was rolled back. -/
def unwound (rollback : Rollback σ) : Reply σ :=
  { result := rollback.result.mapError RollbackError.toFault
    context := rollback.context, host := rollback.host, journal := rollback.journal }

/-- Runs a graph from its initial node and keeps its process under a key. -/
def forward (child : Graph σ) (key : String) : Callback σ where
  run limit context host := (child.start limit context host).map (stored key)
  run_of_le hle h := by
    obtain ⟨segment, hsegment, hreply⟩ := Option.map_eq_some_iff.mp h
    exact Option.map_eq_some_iff.mpr ⟨segment, Graph.call_of_le hle hsegment, hreply⟩

/-- Rolls a graph back by the process under a key, which is taken out first. -/
def backward (child : Graph σ) (key : String) : Callback σ where
  run limit context host :=
    match context.remove .process key with
    | (some process, context) => (child.rollback limit process context host).map unwound
    | (none, context) => some { result := .ok (), context, host }
  run_of_le {limit larger context host reply} hle h := by
    cases hprocess : context.get .process key with
    | none => simpa [Context.remove, hprocess] using h
    | some process =>
      simp only [Context.remove, hprocess, Option.map_eq_some_iff] at h ⊢
      obtain ⟨rollback, hrollback, hreply⟩ := h
      exact ⟨rollback, Graph.rollback_of_le hle hrollback, hreply⟩

end Subgraph

namespace Node

variable {σ : Type}

/-- Runs a graph as the work of a node, and rolls it back to undo the node. -/
def withSubgraph (node : Node σ) (child : Graph σ) : Node σ :=
  (node.withOperation (Subgraph.forward child node.state.subgraphKey)).withRollback
    (Subgraph.backward child node.state.subgraphKey)

/-- One step of defining a node. -/
inductive Setting (σ : Type)
  | operation (callback : Callback σ)
  | command (command : Command σ)
  | subgraph (child : Graph σ)
  | rollback (callback : Callback σ)
  | on (signal : Signal) (target : StateName)
  | signals (transitions : List (Signal × StateName))
  | prepare (hook : Hook (Callback σ))
  | determine (hook : Hook (SignalHook σ))
  | emit (signal : Signal)

/-- Takes one step. -/
def apply (node : Node σ) : Setting σ → Node σ
  | .operation callback => node.withOperation callback
  | .command command => node.withCommand command
  | .subgraph child => node.withSubgraph child
  | .rollback callback => node.withRollback callback
  | .on signal target => node.on signal target
  | .signals transitions => node.onAll transitions
  | .prepare hook => node.withPrepare hook
  | .determine hook => node.withDetermine hook
  | .emit signal => node.emit signal

/-- The node of a state that the steps define. -/
def define (state : StateName) (settings : List (Setting σ)) : Node σ :=
  settings.foldl apply (new state)

end Node

end Workflow
