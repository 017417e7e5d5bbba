import Workflow.Graph

/-!
# Drafts of graphs

A graph is put together step by step in a draft. A bad registration is held
until the draft is built, and then the first one is the answer; the
registrations after it are taken as usual. Building checks what no single
registration can see: that there is one initial node, that every transition
leads to a node or pauses, and that every named hook is registered.

`Directive` names the steps as data, so that `Graph.define` is a function of
the whole definition.
-/

namespace Workflow

namespace Graph

variable {σ : Type}

/-- A graph under construction, with the first bad registration. -/
structure Draft (σ : Type) extends Graph σ where
  error : Option DefinitionError := none

/-- One step of putting a graph together. -/
inductive Directive (σ : Type)
  /-- Register the initial node with its transitions. -/
  | startNode (transitions : List (Signal × StateName))
  /-- Register a node. -/
  | addNode (node : Node σ)
  /-- Set what happens when a node fails. -/
  | failureHandling (mode : FailureHandling)
  /-- Set all options. -/
  | options (options : Options)
  /-- Set the checkpoint of processes without one. -/
  | checkpoint (checkpoint : Checkpoint σ)
  /-- Register a prepare hook under a name. -/
  | prepareHook (name : String) (callback : Callback σ)
  /-- Register a signal hook under a name. -/
  | signalHook (name : String) (hook : SignalHook σ)

/-- The fault of a node that names a hook its registry lacks. -/
def unregistered? {α : Type} (registry : Table α) (state : StateName) :
    Option (Hook α) → Option DefinitionError
  | some (.named hook) =>
    if registry.contains hook then none else some (.unknownHook state hook)
  | _ => none

/-- The fault of a transition that leads to no node and does not pause. -/
def dangling? (graph : Graph σ) (origin : StateName) (transition : Signal × StateName) :
    Option DefinitionError :=
  if transition.2.isWait || graph.hasNode transition.2 then none
  else some (.unknownState origin transition.1 transition.2)

/-- What is wrong with a node once all registrations are known: its transitions
come first, then its prepare hook, then its signal hook. -/
def defect? (graph : Graph σ) (node : Node σ) : Option DefinitionError :=
  (node.transitions.findSome? (graph.dangling? node.state)).or
    ((unregistered? graph.prepareHooks node.state node.prepare).or
      (unregistered? graph.signalHooks node.state node.determine))

namespace Draft

/-- A draft without nodes. -/
def new (name : String) : Draft σ := { name }

/-- Holds a bad registration unless one is held already. -/
def fail (draft : Draft σ) (error : DefinitionError) : Draft σ :=
  { draft with error := draft.error.or (some error) }

/-- Registers a node. -/
def addNode (draft : Draft σ) (node : Node σ) : Draft σ :=
  if node.state.isWait then draft.fail (.reservedState node.state)
  else if draft.hasNode node.state then
    draft.fail (if node.state.isInitial then .multipleInitialNodes draft.name
      else .duplicateState node.state)
  else
    { draft with
      index := draft.index.insert node.state.text draft.nodes.length
      nodes := draft.nodes ++ [node] }

/-- Registers the initial node. -/
def startNode (draft : Draft σ) (transitions : List (Signal × StateName)) : Draft σ :=
  if transitions.isEmpty then draft.fail (.missingSignals draft.name)
  else draft.addNode ((Node.new .initial).onAll transitions)

/-- Takes one step. -/
def apply (draft : Draft σ) : Directive σ → Draft σ
  | .startNode transitions => draft.startNode transitions
  | .addNode node => draft.addNode node
  | .failureHandling mode => { draft with options.failureHandling := mode }
  | .options options => { draft with options }
  | .checkpoint checkpoint => { draft with checkpoint := some checkpoint }
  | .prepareHook name callback =>
    { draft with prepareHooks := draft.prepareHooks.insert name callback }
  | .signalHook name hook =>
    { draft with signalHooks := draft.signalHooks.insert name hook }

/-- Checks a draft and completes it. -/
def build (draft : Draft σ) : Except DefinitionError (Graph σ) :=
  match draft.error with
  | some error => .error error
  | none =>
    match (draft.nodes.filter (·.state.isInitial)).length with
    | 0 => .error (.missingInitialNode draft.name)
    | 1 =>
      match draft.nodes.findSome? draft.toGraph.defect? with
      | some error => .error error
      | none => .ok draft.toGraph
    | _ => .error (.multipleInitialNodes draft.name)

end Draft

/-- The graph with the given name that the steps put together. -/
def define (name : String) (directives : List (Directive σ)) :
    Except DefinitionError (Graph σ) :=
  (directives.foldl Draft.apply (Draft.new name)).build

end Graph

end Workflow
