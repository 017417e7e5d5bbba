import Workflow.Outline

/-!
# Names of states, signals and context entries

A state name names a node of a graph, a signal selects a transition of a node,
and a context key names an entry of a context. Two of the texts are special:
the state `initial` is where every graph starts, and `wait` as the target of a
transition pauses the run instead of naming a node.
-/

namespace Workflow

/-- The name of a node within a graph. -/
structure StateName where
  text : String
  deriving DecidableEq

/-- A trigger that a node looks up among its transitions. -/
structure Signal where
  text : String
  deriving DecidableEq

/-- The name of an entry of a context. -/
structure ContextKey where
  text : String
  deriving DecidableEq

namespace StateName

/-- The state where every graph starts. -/
def initial : StateName := ⟨"initial"⟩

instance : Inhabited StateName := ⟨initial⟩

/-- The target that pauses a run; no node has this name. -/
def wait : StateName := ⟨"wait"⟩

/-- Whether a state is where graphs start. -/
def isInitial (state : StateName) : Bool := state = initial

/-- Whether a target pauses the run. -/
def isWait (state : StateName) : Bool := state = wait

/-- The context key under which a node keeps the process of its nested graph. -/
def subgraphKey (state : StateName) : String := state.text ++ ".subgraph"

/-- Different states keep their nested processes under different keys. -/
theorem subgraphKey_injective {a b : StateName}
    (h : a.subgraphKey = b.subgraphKey) : a = b := by
  obtain ⟨a⟩ := a
  obtain ⟨b⟩ := b
  simpa [subgraphKey, String.append_left_inj] using h

def outline (state : StateName) : Outline := .wrap "StateName" (.quoted state.text)

end StateName

namespace Signal

/-- The signal of a call or a node that names none. -/
def proceed : Signal := ⟨"continue"⟩

instance : Inhabited Signal := ⟨proceed⟩

/-- The signal usually mapped to the pausing target. -/
def wait : Signal := ⟨"wait"⟩

def outline (signal : Signal) : Outline := .wrap "Signal" (.quoted signal.text)

end Signal

def ContextKey.outline (key : ContextKey) : Outline :=
  .wrap "ContextKey" (.quoted key.text)

end Workflow
