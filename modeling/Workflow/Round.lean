import Workflow.Graph

/-!
# One round of a run

A run moves through a graph in rounds. In a round one node is executed: its
prepare hook, its work, and the hook that picks the signal to follow. Then the
transition into its state is saved, and the signal leads to the next node or
to the end of the run.

`Graph.round` is the round at a node, kept as data: what the work left
(`Round.reply`), the call of the checkpoint (`Round.save`), how the round ended
(`Round.conclusion`) and where the run stood then (`Round.after`). What a round
reports (`Round.journal`) is read off these.

* `node_round`, `process_round`: a round belongs to its node, and it moves the
  process into the state of that node or leaves it alone.
* `round_of_le`: the round does not depend on the limit.
-/

namespace Workflow

/-- The data, the cursor and the host's state between two rounds. -/
structure Execution (σ : Type) where
  context : Context σ
  process : Process σ
  host : σ

def Execution.outline {σ : Type} (execution : Execution σ) : Outline :=
  .record "Execution"
    [("context", execution.context.outline), ("process", execution.process.outline)]

/-- Why a run was broken off. -/
inductive Interrupt
  /-- A business failure, which the context records already. -/
  | halted (halt : Halt)
  /-- Any other fault; the run records it in the context. -/
  | unhandled (fault : Fault)
  deriving DecidableEq

/-- A fault as a reason to break off. -/
def Fault.interrupt : Fault → Interrupt
  | .halt failure => .halted failure
  | fault => .unhandled fault

/-- How a round ended. -/
inductive Conclusion (σ : Type)
  /-- Broken off before the node was left. -/
  | interrupted (interrupt : Interrupt)
  /-- The context is failed, and the graph stops at failures. -/
  | failed (signal : Signal)
  /-- The checkpoint did not accept the transition. -/
  | refused (signal : Signal) (halt : Halt)
  /-- Saved, and the signal leads to a node. -/
  | moved (signal : Signal) (next : Node σ)
  /-- Saved, and the signal leads nowhere. -/
  | finished (signal : Signal)
  /-- Saved, and the signal leads to the pausing target. -/
  | waiting (signal : Signal)
  /-- Saved, and the signal leads to a state without a node. -/
  | lost (signal : Signal) (fault : Fault)

namespace Conclusion

variable {σ : Type}

/-- The node of the next round. -/
def next? : Conclusion σ → Option (Node σ)
  | .moved _ next => some next
  | _ => none

/-- The signal that was picked. -/
def signal? : Conclusion σ → Option Signal
  | .interrupted _ => none
  | .failed signal | .refused signal _ | .moved signal _ | .finished signal
  | .waiting signal | .lost signal _ => some signal

/-- Whether the process entered the state of the round. -/
def entered : Conclusion σ → Bool
  | .interrupted _ | .failed _ | .refused .. => false
  | .moved .. | .finished _ | .waiting _ | .lost .. => true

end Conclusion

/-- The execution of one node in a run. -/
structure Round (σ : Type) where
  node : Node σ
  reply : Reply σ
  save : Option Save := none
  conclusion : Conclusion σ
  after : Execution σ

namespace Round

variable {σ : Type}

/-- The state whose node was executed. -/
def state (round : Round σ) : StateName := round.node.state

/-- The state that the process entered. -/
def visited? (round : Round σ) : Option StateName :=
  if round.conclusion.entered then some round.state else none

/-- What a round does to a process. -/
def move (round : Round σ) (process : Process σ) : Process σ :=
  if round.conclusion.entered then process.enter round.state else process

end Round

namespace Graph

variable {σ : Type}

/-- Whether the outcome of the work at a node breaks the run off. In chain of
command a halt does not. -/
def interrupt? (graph : Graph σ) : Except Fault Unit → Option Interrupt
  | .ok () => none
  | .error fault =>
    match fault.interrupt with
    | .halted halt => if graph.isChainOfCommand then none else some (.halted halt)
    | .unhandled fault => some (.unhandled fault)

/-- The context after the run was broken off. -/
def record (graph : Graph σ) (context : Context σ) : Interrupt → Context σ
  | .halted _ => context
  | .unhandled fault =>
    context.recordFailure (fault.unhandledMessage graph.name) (some fault)

/-- The text of a failure by a transition that was not saved. -/
def refusalMessage (graph : Graph σ) (state : StateName) : String :=
  graph.name ++ " failed to persist process state: " ++ ticked state.text

/-- Where the signal of a saved node leads. -/
def onward (graph : Graph σ) (node : Node σ) (signal : Signal) : Conclusion σ :=
  match node.target? signal with
  | none => .finished signal
  | some target =>
    if target.isWait then .waiting signal
    else
      match graph.node? target with
      | some next => .moved signal next
      | none => .lost signal (.text ("undefined state " ++ ticked target.text))

/-- The context of a saved node; a transition that leads to no node breaks the
run off. -/
def settle (graph : Graph σ) (context : Context σ) : Conclusion σ → Context σ
  | .lost _ fault => graph.record context (.unhandled fault)
  | _ => context

/-- Ends a round whose signal is known, after the attempt to save it. -/
def persist (graph : Graph σ) (node : Node σ) (reply : Reply σ) (signal : Signal)
    (visit : Visit σ) : Round σ :=
  match visit.outcome with
  | .ok () =>
    let conclusion := graph.onward node signal
    { node, reply, save := visit.save, conclusion
      after :=
        { context := graph.settle reply.context conclusion
          process := visit.process, host := visit.host } }
  | .error refusal =>
    let message := graph.refusalMessage node.state
    { node, reply, save := visit.save, conclusion := .refused signal { message }
      after :=
        { context := reply.context.recordFailure message refusal.cause
          process := visit.process, host := visit.host } }

/-- A round that was broken off before its node was left. -/
def breakOff (graph : Graph σ) (node : Node σ) (process : Process σ) (reply : Reply σ)
    (interrupt : Interrupt) (host : σ) : Round σ :=
  { node, reply, conclusion := .interrupted interrupt
    after := { context := graph.record reply.context interrupt, process, host } }

/-- Ends a round whose signal is known. A failed context stops the run here
unless the graph goes on after failures. -/
def leave (graph : Graph σ) (node : Node σ) (process : Process σ) (reply : Reply σ)
    (signal : Signal) (host : σ) : Round σ :=
  if reply.context.isFailure && !graph.isChainOfCommand then
    { node, reply, conclusion := .failed signal
      after := { context := reply.context, process, host } }
  else graph.persist node reply signal (process.visit node.state host)

/-- Ends a round from what the work of its node left. -/
def conclude (graph : Graph σ) (node : Node σ) (process : Process σ) (reply : Reply σ) :
    Round σ :=
  match graph.interrupt? reply.result with
  | some interrupt => graph.breakOff node process reply interrupt reply.host
  | none =>
    let chosen := graph.choose node reply.context reply.host
    match chosen.1 with
    | .error fault => graph.breakOff node process reply (.unhandled fault) chosen.2
    | .ok signal => graph.leave node process reply signal chosen.2

/-- The round at a node, if its work returns within the limit. -/
def round (graph : Graph σ) (limit : Nat) (node : Node σ) (execution : Execution σ) :
    Option (Round σ) :=
  ((graph.attempt node).run limit execution.context execution.host).map
    (graph.conclude node execution.process)

theorem round_of_le {graph : Graph σ} {limit larger : Nat} {node : Node σ}
    {execution : Execution σ} {round : Round σ} (hle : limit ≤ larger)
    (h : graph.round limit node execution = some round) :
    graph.round larger node execution = some round := by
  obtain ⟨reply, hreply, hround⟩ := Option.map_eq_some_iff.mp h
  exact Option.map_eq_some_iff.mpr ⟨reply, (graph.attempt node).run_of_le hle hreply, hround⟩

/-! ## The node and the process of a round -/

@[simp]
theorem entered_onward (graph : Graph σ) (node : Node σ) (signal : Signal) :
    (graph.onward node signal).entered = true := by
  unfold onward
  split
  · rfl
  · split
    · rfl
    · split <;> rfl

theorem node_persist (graph : Graph σ) (node : Node σ) (reply : Reply σ) (signal : Signal)
    (visit : Visit σ) : (graph.persist node reply signal visit).node = node := by
  unfold persist
  split <;> rfl

theorem node_leave (graph : Graph σ) (node : Node σ) (process : Process σ) (reply : Reply σ)
    (signal : Signal) (host : σ) :
    (graph.leave node process reply signal host).node = node := by
  unfold leave
  split
  · rfl
  · exact node_persist ..

/-- A round is a round of the node it was made at. -/
theorem node_round {graph : Graph σ} {limit : Nat} {node : Node σ} {execution : Execution σ}
    {round : Round σ} (h : graph.round limit node execution = some round) :
    round.node = node := by
  obtain ⟨reply, _, rfl⟩ := Option.map_eq_some_iff.mp h
  unfold conclude
  split
  · rfl
  · dsimp only
    split
    · rfl
    · exact node_leave ..

theorem process_leave (graph : Graph σ) (node : Node σ) (process : Process σ)
    (reply : Reply σ) (signal : Signal) (host : σ) :
    (graph.leave node process reply signal host).after.process =
      (graph.leave node process reply signal host).move process := by
  unfold leave
  split
  · rfl
  · unfold persist
    split
    · rename_i hok
      simp [Round.move, Round.state, Process.visit_process_of_ok hok]
    · rename_i refusal herror
      simp [Round.move, Conclusion.entered, Process.visit_process_of_error herror]

/-- A round moves the process into the state of its node or leaves it alone. -/
theorem process_round {graph : Graph σ} {limit : Nat} {node : Node σ}
    {execution : Execution σ} {round : Round σ}
    (h : graph.round limit node execution = some round) :
    round.after.process = round.move execution.process := by
  obtain ⟨reply, _, rfl⟩ := Option.map_eq_some_iff.mp h
  unfold conclude
  split
  · rfl
  · dsimp only
    cases (graph.choose node reply.context reply.host).1 with
    | error fault => rfl
    | ok signal => exact process_leave ..

end Graph

namespace Round

variable {σ : Type}

/-- The halt that the run went on from. -/
def excused (round : Round σ) : List Event :=
  match round.reply.result, round.conclusion with
  | .error (.halt _), .interrupted (.halted _) => []
  | .error (.halt halt), _ => [.excused round.state halt.message]
  | _, _ => []

/-- The events at the end of a round. -/
def closing (round : Round σ) : List Event :=
  let state := round.state
  let standing := round.after.process.state
  let executed signal := Event.executed state signal round.reply.context.isFailure
  match round.conclusion with
  | .interrupted (.halted halt) => [.halted standing halt.message]
  | .interrupted (.unhandled fault) => [.unhandled standing fault.message]
  | .failed signal => [executed signal, .failed state (round.after.context.message.getD "")]
  | .refused signal halt => [executed signal, .halted standing halt.message]
  | .moved signal _ => [executed signal, .checkpointed state]
  | .finished signal => [executed signal, .checkpointed state, .finished state]
  | .waiting signal => [executed signal, .checkpointed state, .waiting state]
  | .lost signal fault =>
    [executed signal, .checkpointed state, .unhandled standing fault.message]

/-- What a round reports. -/
def journal (round : Round σ) : Journal :=
  .ofEvents [.executing round.state] ++ round.reply.journal ++
    .ofEvents (round.excused ++ round.closing)

end Round

end Workflow
