import Workflow.Rollback
import Workflow.Segment

/-!
# Managers and calls

A manager drives one process and one context through a graph, call by call. A
process without a checkpoint takes that of the graph when its manager is made,
and keeps it. `Graph.call` and `Graph.start` are one call of a new manager.
-/

namespace Workflow

/-- A run on a graph between two calls. -/
structure Manager (σ : Type) where
  graph : Graph σ
  execution : Execution σ

namespace Manager

variable {σ : Type}

def process (manager : Manager σ) : Process σ := manager.execution.process

def context (manager : Manager σ) : Context σ := manager.execution.context

/-- Advances the process with a signal; none means to proceed. -/
def call (manager : Manager σ) (limit : Nat) (signal? : Option Signal) :
    Option (Segment σ) :=
  manager.graph.advance limit (signal?.getD .proceed) manager.execution

/-- The manager after a call. -/
def afterCall (manager : Manager σ) (segment : Segment σ) : Manager σ :=
  { manager with execution := segment.final }

/-- Compensates the visited states, newest first. -/
def rollback (manager : Manager σ) (limit : Nat) : Option (Rollback σ) :=
  manager.graph.rollback limit manager.process manager.context manager.execution.host

/-- The manager after a rollback; its process stays. -/
def afterRollback (manager : Manager σ) (rollback : Rollback σ) : Manager σ :=
  { manager with
    execution := { manager.execution with context := rollback.context, host := rollback.host } }

def outline (manager : Manager σ) : Outline :=
  .record "Manager"
    [ ("graph", .quoted manager.graph.name)
    , ("process", manager.process.outline)
    , ("context", manager.context.outline) ]

end Manager

namespace Graph

variable {σ : Type}

/-- A process with the checkpoint of the graph unless it has its own. -/
def attach (graph : Graph σ) (process : Process σ) : Process σ :=
  { process with checkpoint := process.checkpoint.or graph.checkpoint }

/-- The manager of a run; without a process a new one starts. -/
def manager (graph : Graph σ) (process? : Option (Process σ)) (context : Context σ)
    (host : σ) : Manager σ :=
  { graph, execution := { context, process := graph.attach (process?.getD .new), host } }

/-- Advances a run by one segment, if that ends within the limit. Failures are
recorded in the context that the segment leaves. -/
def call (graph : Graph σ) (limit : Nat) (signal? : Option Signal)
    (process? : Option (Process σ)) (context : Context σ) (host : σ) : Option (Segment σ) :=
  (graph.manager process? context host).call limit signal?

/-- Starts a new run. -/
def start (graph : Graph σ) (limit : Nat) (context : Context σ) (host : σ) :
    Option (Segment σ) :=
  graph.call limit none none context host

theorem call_of_le {graph : Graph σ} {limit larger : Nat} {signal? : Option Signal}
    {process? : Option (Process σ)} {context : Context σ} {host : σ} {segment : Segment σ}
    (hle : limit ≤ larger)
    (h : graph.call limit signal? process? context host = some segment) :
    graph.call larger signal? process? context host = some segment :=
  advance_of_le hle h

end Graph

end Workflow
