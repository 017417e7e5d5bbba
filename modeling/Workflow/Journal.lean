import Workflow.Names

/-!
# The journal of a run

Calls and rollbacks report what they do as a list of events, in order. Each
event stands in the spans that were open when it happened, outermost first, so
the events of a nested graph can be told from those around it.
-/

namespace Workflow

/-- How urgent an event is. -/
inductive Level
  | debug
  | info
  | warning
  | error
  deriving DecidableEq

/-- What a graph is busy with while an event happens. -/
inductive Span
  /-- A call of a graph with a signal. -/
  | call (graph : String) (signal : Signal)
  /-- A rollback on a graph. -/
  | rollback (graph : String)
  deriving DecidableEq

/-- What can happen during a call or a rollback. -/
inductive Event
  /-- The execution of a node begins. -/
  | executing (state : StateName)
  /-- A node was executed and chose a signal. -/
  | executed (state : StateName) (signal : Signal) (failure : Bool)
  /-- The transition into a state was saved. -/
  | checkpointed (state : StateName)
  /-- The signal of a call leads to the pausing target at once. -/
  | straightToWait (signal : Signal)
  /-- A run ended at a state that has no transition for the chosen signal. -/
  | finished (state : StateName)
  /-- A run pauses at a state. -/
  | waiting (state : StateName)
  /-- A call ended with a halt; the state is that of the process. -/
  | halted (state : StateName) (message : String)
  /-- A node left the context failed, which ended the call. -/
  | failed (state : StateName) (message : String)
  /-- A node returned a halt, and the call went on. -/
  | excused (state : StateName) (message : String)
  /-- A call ended with an unexpected fault; the state is that of the process. -/
  | unhandled (state : StateName) (message : String)
  /-- The compensation of a state succeeded. -/
  | rolledBack (state : StateName)
  /-- A visited state has no node, so there is nothing to compensate. -/
  | skipped (state : StateName)
  /-- The compensation of a state failed. -/
  | rollbackFailed (state : StateName) (message : String)
  deriving DecidableEq

/-- An event and the spans it happened in, outermost first. -/
structure Entry where
  spans : List Span := []
  event : Event
  deriving DecidableEq

/-- What happened, in order. -/
abbrev Journal : Type := List Entry

/-- The events of a journal seen from outside a span. -/
def Journal.within (span : Span) (journal : Journal) : Journal :=
  journal.map fun entry => { entry with spans := span :: entry.spans }

/-- A journal of events in no span. -/
def Journal.ofEvents (events : List Event) : Journal :=
  events.map fun event => { event }

/-! ## Texts -/

/-- The name of a span with its fields. -/
def Span.label : Span → String
  | .call graph signal => "workflow\x7bgraph=" ++ graph ++ ",signal=" ++ signal.text ++ "\x7d"
  | .rollback graph => "rollback\x7bgraph=" ++ graph ++ "\x7d"

namespace Event

def level : Event → Level
  | .executing _ | .executed .. | .checkpointed _ | .rolledBack _ => .debug
  | .straightToWait _ | .finished _ | .waiting _ => .info
  | .halted .. | .failed .. | .excused .. | .skipped _ => .warning
  | .unhandled .. | .rollbackFailed .. => .error

/-- A name between plain quotes. -/
def quoted (name : String) : String := "'" ++ name ++ "'"

def message : Event → String
  | .executing _ => "executing node"
  | .executed .. => "node executed"
  | .checkpointed _ => "checkpointed"
  | .straightToWait signal => "signal " ++ quoted signal.text ++ " leads straight to wait"
  | .finished state => "workflow finished at " ++ quoted state.text
  | .waiting state => "workflow waiting at " ++ quoted state.text
  | .halted _ message => "workflow halted: " ++ message
  | .failed state message => "state " ++ quoted state.text ++ " failed: " ++ message
  | .excused state message =>
    "state " ++ quoted state.text ++ " failed, continuing: " ++ message
  | .unhandled _ message => "unhandled error: " ++ message
  | .rolledBack _ => "rolled back"
  | .skipped state =>
    "visited state " ++ quoted state.text ++ " is not in the graph, skipping"
  | .rollbackFailed _ message => "rollback failed: " ++ message

/-- What an event tells beside its message, by name. -/
def fields : Event → List (String × String)
  | .executing state | .checkpointed state | .rolledBack state
  | .halted state _ | .unhandled state _ | .rollbackFailed state _ =>
    [("state", state.text)]
  | .executed state signal failure =>
    [ ("state", state.text), ("signal", signal.text)
    , ("status", if failure then "Failed" else "Ok") ]
  | .straightToWait _ | .finished _ | .waiting _ | .failed .. | .excused ..
  | .skipped _ => []

end Event

end Workflow
