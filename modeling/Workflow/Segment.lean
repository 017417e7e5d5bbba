import Workflow.Round

/-!
# Segments

One call advances a run by a segment. The signal of the call picks a transition
of the current state: it enters a node, pauses at once, or is invalid
(`Graph.route`). From the entered node on the run goes round by round until a
round leads to no further node (`Graph.follow`).

A run may go in circles, and the work of a node may not return, so both the
rounds and the work are limited. `Graph.advance` has an answer only if the
segment ends within the limit, and by `advance_of_le` the answer does not
depend on the limit. `Trail.rounds` has the rounds of a run that is cut short.

The states visited, the saves, the executed nodes, what an observer is told and
the journal of a segment are read off its rounds.
-/

namespace Workflow

/-- Where the signal of a call leads. -/
inductive Route (σ : Type)
  /-- To a node, which is executed. -/
  | enter (node : Node σ)
  /-- To the pausing target: nothing happens. -/
  | stay
  /-- Nowhere: the current state is unknown or has no such transition. -/
  | invalid

/-- The rounds of a run from a node on, and whether the last of them ended it. -/
structure Trail (σ : Type) where
  rounds : List (Round σ) := []
  complete : Bool := false

/-- A trail with one more round in front. -/
def Trail.cons {σ : Type} (round : Round σ) (trail : Trail σ) : Trail σ :=
  { trail with rounds := round :: trail.rounds }

/-- One call: its signal, where it started, where the signal led, and the
rounds that followed. -/
structure Segment (σ : Type) where
  graph : String
  signal : Signal
  start : Execution σ
  route : Route σ
  rounds : List (Round σ) := []

namespace Graph

variable {σ : Type}

/-- Where a signal leads from a state. -/
def route (graph : Graph σ) (state : StateName) (signal : Signal) : Route σ :=
  match (graph.node? state).bind (·.target? signal) with
  | none => .invalid
  | some target =>
    if target.isWait then .stay
    else
      match graph.node? target with
      | some node => .enter node
      | none => .invalid

/-- At most the given number of rounds, from a node on. -/
def follow (graph : Graph σ) (limit : Nat) : Nat → Node σ → Execution σ → Trail σ
  | 0, _, _ => {}
  | steps + 1, node, execution =>
    match graph.round limit node execution with
    | none => {}
    | some round =>
      match round.conclusion.next? with
      | none => { rounds := [round], complete := true }
      | some next => (graph.follow limit steps next round.after).cons round

/-- The segment that starts with a signal, if it ends within the limit. -/
def advance (graph : Graph σ) (limit : Nat) (signal : Signal) (start : Execution σ) :
    Option (Segment σ) :=
  match graph.route start.process.state signal with
  | .enter node =>
    let trail := graph.follow limit limit node start
    if trail.complete then
      some { graph := graph.name, signal, start, route := .enter node, rounds := trail.rounds }
    else none
  | route => some { graph := graph.name, signal, start, route }

/-! ## Independence of the limit -/

theorem follow_of_le {graph : Graph σ} {limit larger steps more : Nat} {node : Node σ}
    {execution : Execution σ} (hlimit : limit ≤ larger) (hsteps : steps ≤ more)
    (h : (graph.follow limit steps node execution).complete) :
    graph.follow larger more node execution = graph.follow limit steps node execution := by
  induction steps generalizing more node execution with
  | zero => simp [follow] at h
  | succ steps ih =>
    obtain ⟨more, rfl⟩ : ∃ n, more = n + 1 := ⟨more - 1, by omega⟩
    simp only [follow] at h ⊢
    cases hround : graph.round limit node execution with
    | none => simp [hround] at h
    | some round =>
      simp only [hround, round_of_le hlimit hround] at h ⊢
      cases hnext : round.conclusion.next? with
      | none => rfl
      | some next =>
        simp only [hnext] at h ⊢
        rw [ih (by omega) h]

theorem advance_of_le {graph : Graph σ} {limit larger : Nat} {signal : Signal}
    {start : Execution σ} {segment : Segment σ} (hle : limit ≤ larger)
    (h : graph.advance limit signal start = some segment) :
    graph.advance larger signal start = some segment := by
  unfold advance at h ⊢
  split at h
  · rename_i node hroute
    by_cases hcomplete : (graph.follow limit limit node start).complete
    · simpa [hroute, follow_of_le hle hle hcomplete, hcomplete] using h
    · simp [hcomplete] at h
  · exact h

end Graph

/-- Where a run stands after the given rounds. -/
def Execution.afterRounds {σ : Type} (start : Execution σ) : List (Round σ) → Execution σ
  | [] => start
  | round :: rounds => round.after.afterRounds rounds

/-- The text of a failure by a signal that leads nowhere. -/
def invalidMessage (signal : Signal) : String := "invalid signal: " ++ signal.text

namespace Segment

variable {σ : Type}

/-- Where the run stands after the segment. -/
def final (segment : Segment σ) : Execution σ :=
  match segment.route with
  | .enter _ => segment.start.afterRounds segment.rounds
  | .stay => segment.start
  | .invalid =>
    { segment.start with
      context := segment.start.context.recordFailure (invalidMessage segment.signal) none }

/-- The states that the process entered, in order. -/
def visited (segment : Segment σ) : List StateName := segment.rounds.filterMap Round.visited?

/-- The observer of a call, a fold over what it knows: it is told a state as soon as
the transition into it is saved. -/
def observe {ω : Type} (segment : Segment σ) (tell : ω → StateName → ω) (seen : ω) : ω :=
  segment.rounds.foldl (fun seen round => round.visited?.elim seen (tell seen)) seen

/-- The states whose nodes were executed, in order. -/
def executed (segment : Segment σ) : List StateName := segment.rounds.map Round.state

/-- The calls of the checkpoint, in order. -/
def saves (segment : Segment σ) : List Save := segment.rounds.filterMap (·.save)

/-- What a segment reports. -/
def journal (segment : Segment σ) : Journal :=
  .within (.call segment.graph segment.signal) <|
    match segment.route with
    | .enter _ => segment.rounds.flatMap Round.journal
    | .stay => .ofEvents [.straightToWait segment.signal]
    | .invalid =>
      .ofEvents [.halted segment.start.process.state (invalidMessage segment.signal)]

/-- The observer is told the visited states, in order. -/
theorem observe_eq_foldl {ω : Type} (segment : Segment σ) (tell : ω → StateName → ω)
    (seen : ω) : segment.observe tell seen = segment.visited.foldl tell seen := by
  rw [observe, visited, List.foldl_filterMap]
  congr 1
  funext seen round
  cases round.visited? <;> rfl

end Segment

end Workflow
