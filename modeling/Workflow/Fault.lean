import Workflow.Names

/-!
# Faults

A `Fault` is what a callback, a hook or a checkpoint returns instead of
succeeding. A `Halt` among them is a business failure that the context already
records; every other fault is unexpected to the engine. Faults raised while a
graph is defined (`DefinitionError`), while a process is saved
(`CheckpointError`) or while a run is rolled back (`RollbackError`) are faults
of their own kind and can be passed on as one.

* `Fault.message` is the text shown to users, `Fault.outline` the one shown to
  developers.
* `Fault.cause?` is the fault a fault was raised from, `Fault.causes` the chain
  of them.
-/

namespace Workflow

/-- A business failure, recorded in the context that was failed with it. -/
structure Halt where
  message : String
  deriving DecidableEq

/-- A fault of the host program: the name of its kind and its text. A bare one
has no fields to show. -/
structure HostError where
  name : String
  message : String
  bare : Bool := false
  deriving DecidableEq

/-- What can be wrong with the definition of a graph. -/
inductive DefinitionError
  /-- Two nodes have one name. -/
  | duplicateState (state : StateName)
  /-- A node has the name of the pausing target. -/
  | reservedState (state : StateName)
  /-- No node is the initial one. -/
  | missingInitialNode (graph : String)
  /-- The initial node was registered again. -/
  | multipleInitialNodes (graph : String)
  /-- The initial node was registered without a transition. -/
  | missingSignals (graph : String)
  /-- A transition leads to a state that no node has. -/
  | unknownState (origin : StateName) (signal : Signal) (target : StateName)
  /-- A node names a hook that is not registered. -/
  | unknownHook (state : StateName) (hook : String)
  deriving DecidableEq

/-- Why something did not succeed. -/
inductive Fault
  /-- Nothing but a text. -/
  | text (message : String)
  /-- A business failure. -/
  | halt (failure : Halt)
  /-- A fault of the host program. -/
  | host (error : HostError)
  /-- A fault of the host program that was raised from another one. -/
  | hostFrom (error : HostError) (cause : Fault)
  /-- A checkpoint answered no. -/
  | refused (state : StateName)
  /-- A checkpoint raised a fault. -/
  | unsaved (state : StateName) (cause : Fault)
  /-- The definition of a graph is wrong. -/
  | definition (error : DefinitionError)
  /-- The compensation of a state failed. -/
  | rollback (state : StateName) (cause : Fault)
  deriving DecidableEq

/-- A transition was not saved: the state that was not entered, and the fault
if the checkpoint raised one. -/
structure CheckpointError where
  state : StateName
  cause : Option Fault
  deriving DecidableEq

/-- The compensation of a state failed with a fault. -/
structure RollbackError where
  state : StateName
  cause : Fault
  deriving DecidableEq

def CheckpointError.toFault (error : CheckpointError) : Fault :=
  match error.cause with
  | none => .refused error.state
  | some cause => .unsaved error.state cause

def RollbackError.toFault (error : RollbackError) : Fault :=
  .rollback error.state error.cause

/-! ## Texts -/

/-- A name inside a message. -/
def ticked (name : String) : String := "`" ++ name ++ "`"

/-- The text of a definition error. -/
def DefinitionError.message : DefinitionError → String
  | .duplicateState state => "state " ++ ticked state.text ++ " is already defined"
  | .reservedState state => "state name " ++ ticked state.text ++ " is reserved"
  | .missingInitialNode graph => graph ++ ": missing `initial` start node"
  | .multipleInitialNodes graph => graph ++ ": more than one start node detected"
  | .missingSignals graph => graph ++ ": start node has no signals"
  | .unknownState origin signal target =>
    "state " ++ ticked origin.text ++ " maps signal " ++ ticked signal.text ++
      " to undefined state " ++ ticked target.text
  | .unknownHook state hook =>
    "state " ++ ticked state.text ++ " refers to unregistered hook " ++ ticked hook

/-- The text of a fault. Only a rollback fault repeats its cause. -/
def Fault.message : Fault → String
  | .text message => message
  | .halt failure => failure.message
  | .host error | .hostFrom error _ => error.message
  | .refused state | .unsaved state _ => "checkpoint rejected state " ++ ticked state.text
  | .definition error => error.message
  | .rollback state cause =>
    "rollback failed in state " ++ ticked state.text ++ ": " ++ cause.message

/-- The text of a refused save. -/
def CheckpointError.message (error : CheckpointError) : String := error.toFault.message

/-- The text of a failed rollback. -/
def RollbackError.message (error : RollbackError) : String := error.toFault.message

/-! ## Causes -/

/-- The fault that a fault was raised from. -/
def Fault.cause? : Fault → Option Fault
  | .hostFrom _ cause | .unsaved _ cause | .rollback _ cause => some cause
  | _ => none

/-- The causes of a fault, nearest first. -/
def Fault.causes : Fault → List Fault
  | .hostFrom _ cause | .unsaved _ cause | .rollback _ cause => cause :: cause.causes
  | _ => []

theorem Fault.causes_eq (fault : Fault) :
    fault.causes = match fault.cause? with
      | none => []
      | some cause => cause :: cause.causes := by
  cases fault <;> rfl

/-! ## Outlines -/

/-- The name of the kind of a definition error. -/
def DefinitionError.name : DefinitionError → String
  | .duplicateState _ => "DuplicateState"
  | .reservedState _ => "ReservedState"
  | .missingInitialNode _ => "MissingInitialNode"
  | .multipleInitialNodes _ => "MultipleInitialNodes"
  | .missingSignals _ => "MissingSignals"
  | .unknownState .. => "UnknownState"
  | .unknownHook .. => "UnknownHook"

def DefinitionError.outline (error : DefinitionError) : Outline :=
  match error with
  | .duplicateState state | .reservedState state => .wrap error.name state.outline
  | .missingInitialNode graph | .multipleInitialNodes graph | .missingSignals graph =>
    .record error.name [("graph", .quoted graph)]
  | .unknownState origin signal target =>
    .record error.name
      [("from", origin.outline), ("signal", signal.outline), ("target", target.outline)]
  | .unknownHook state hook =>
    .record error.name [("state", state.outline), ("hook", .quoted hook)]

def Halt.outline (halt : Halt) : Outline := .record "Halt" [("message", .quoted halt.message)]

/-- The outline of a host error whose cause shows as given. -/
def HostError.outline (error : HostError) (cause : Option Outline) : Outline :=
  if error.bare then .word error.name
  else .record error.name [("message", .quoted error.message), ("source", .ofOption cause)]

def Fault.outline : Fault → Outline
  | .text message => .quoted message
  | .halt failure => failure.outline
  | .host error => error.outline none
  | .hostFrom error cause => error.outline (some cause.outline)
  | .refused state =>
    .record "CheckpointError" [("state", state.outline), ("source", .ofOption none)]
  | .unsaved state cause =>
    .record "CheckpointError"
      [("state", state.outline), ("source", .ofOption (some cause.outline))]
  | .definition error => error.outline
  | .rollback state cause =>
    .record "Rollback" [("state", state.outline), ("source", cause.outline)]

end Workflow
