import Workflow.Command

/-!
# Nodes

A node is one state of a graph: the work done there, the way to undo it, and
the transitions that lead on. Each setter writes one slot over what it held, so
the last setter of a slot counts.

* `target?_on`: what a new transition does to the others.
* `Node.compensation`: a command is undone by its own rollback, other work by
  the standalone rollback of the node.
-/

namespace Workflow

/-- Picks the signal to follow after the work of a node. -/
def SignalHook (σ : Type) : Type := Context σ → σ → Signal × σ

/-- A hook given in place, or by the name it has on the graph. -/
inductive Hook (α : Type)
  | inline (hook : α)
  | named (name : String)

/-- The work of a node. -/
inductive Operation (σ : Type)
  /-- A function, undone by the standalone rollback of the node. -/
  | callable (body : Callback σ)
  /-- A command, undone by its own rollback. -/
  | command (body : Command σ)

/-- One state of a graph. -/
structure Node (σ : Type) where
  state : StateName
  operation : Option (Operation σ) := none
  rollback : Option (Callback σ) := none
  signals : Table StateName := ∅
  prepare : Option (Hook (Callback σ)) := none
  determine : Option (Hook (SignalHook σ)) := none

/-- How a hook shows itself. -/
def Hook.label {α : Type} : Hook α → String
  | .inline _ => "Callable"
  | .named name => "Named(" ++ name ++ ")"

namespace Operation

variable {σ : Type}

/-- How an operation shows itself. -/
def label : Operation σ → String
  | .callable _ => "Callable"
  | .command body => "Command(" ++ body.name ++ ")"

/-- What running an operation does; a command is validated first. -/
def work : Operation σ → Callback σ
  | .callable body => body
  | .command body => body.checked

end Operation

namespace Node

variable {σ : Type}

/-! ## Setters -/

/-- A node without work or transitions. -/
def new (state : StateName) : Node σ := { state }

/-- Sets a function as the work of a node. -/
def withOperation (node : Node σ) (callback : Callback σ) : Node σ :=
  { node with operation := some (.callable callback) }

/-- Sets a command as the work of a node. -/
def withCommand (node : Node σ) (command : Command σ) : Node σ :=
  { node with operation := some (.command command) }

/-- Sets the standalone rollback. -/
def withRollback (node : Node σ) (callback : Callback σ) : Node σ :=
  { node with rollback := some callback }

/-- Maps a signal to a target. -/
def on (node : Node σ) (signal : Signal) (target : StateName) : Node σ :=
  { node with signals := node.signals.insert signal.text target }

/-- Maps several signals, from first to last. -/
def onAll (node : Node σ) (transitions : List (Signal × StateName)) : Node σ :=
  transitions.foldl (fun node transition => node.on transition.1 transition.2) node

/-- Sets the hook that runs before the work. -/
def withPrepare (node : Node σ) (hook : Hook (Callback σ)) : Node σ :=
  { node with prepare := some hook }

/-- Sets the hook that picks the signal. -/
def withDetermine (node : Node σ) (hook : Hook (SignalHook σ)) : Node σ :=
  { node with determine := some hook }

/-- Always picks the same signal. -/
def emit (node : Node σ) (signal : Signal) : Node σ :=
  node.withDetermine (.inline fun _ host => (signal, host))

/-! ## Reading a node -/

/-- The state that a signal leads to. -/
def target? (node : Node σ) (signal : Signal) : Option StateName :=
  node.signals.get? signal.text

/-- The transitions of a node, ascending in the bytes of their signals. -/
def transitions (node : Node σ) : List (Signal × StateName) :=
  node.signals.entries.map fun entry => (⟨entry.1⟩, entry.2)

/-- The work of a node; one without an operation does nothing. -/
def work (node : Node σ) : Callback σ :=
  match node.operation with
  | some operation => operation.work
  | none => .skip

/-- What undoes the work of a node. -/
def compensation (node : Node σ) : Callback σ :=
  match node.operation, node.rollback with
  | some (.command body), _ => body.rollback
  | _, some rollback => rollback
  | _, none => .skip

/-- The node shows which slots are filled and where its signals lead. -/
def outline (node : Node σ) : Outline :=
  .record "Node"
    [ ("state", node.state.outline)
    , ("operation", .ofOption (node.operation.map fun operation => .word operation.label))
    , ("rollback", .ofBool node.rollback.isSome)
    , ("signals", .table
        (node.transitions.map fun (signal, target) => (signal.outline, target.outline)))
    , ("prepare_context", .ofOption (node.prepare.map fun hook => .word hook.label))
    , ("determine_signal", .ofOption (node.determine.map fun hook => .word hook.label)) ]

theorem target?_on (node : Node σ) (signal other : Signal) (target : StateName) :
    (node.on signal target).target? other =
      if signal = other then some target else node.target? other := by
  obtain ⟨signal⟩ := signal
  obtain ⟨other⟩ := other
  simp [target?, on, Table.get?_insert]

theorem mem_transitions_iff {node : Node σ} {signal : Signal} {target : StateName} :
    (signal, target) ∈ node.transitions ↔ node.target? signal = some target := by
  obtain ⟨signal⟩ := signal
  rw [target?, ← Table.mem_entries_iff]
  simp [transitions]

end Node

end Workflow
