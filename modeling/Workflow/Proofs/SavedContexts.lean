import Workflow.Proofs.LastFailure
import Workflow.Proofs.FailureModes

/-!
# What is saved in halt mode

In halt mode a process is saved and moved on a successful context only.

* `ending_of_mem_trail`: the rounds of a call end in one of the four ways, also while it has
  not ended, and none that leaves a failed context saves or enters (`stays_of_isFailure`).
* `follow_of_failure`: from a failed context there is one round, and it ends the call.
* `saves_on_success_only` states both, with what a call on a failed context does.
-/

namespace Workflow

variable {σ : Type}

namespace Graph

variable {graph : Graph σ} {limit steps : Nat} {node : Node σ} {start : Execution σ}
  {round : Round σ}

/-- The rounds of a call end in one of the four ways. -/
theorem ending_of_mem_trail (hbuilt : graph.Built) {signal : Signal}
    (h : round ∈ (graph.trail limit signal start).rounds) :
    ∃ process, graph.Ending round.node process round.reply round := by
  obtain ⟨hnode, ⟨reached, hround⟩, _⟩ := round_of_mem_trail hbuilt h
  obtain ⟨reply, _, hending⟩ := (round_eq_some_iff hbuilt hnode).mp hround
  obtain rfl := (node_reply_of_ending hending).2
  exact ⟨_, hending⟩

/-- A trail begins with the round at its node. -/
theorem exists_rounds_follow (hround : graph.round limit node start = some round) :
    ∃ later, (graph.follow limit (steps + 1) node start).rounds = round :: later := by
  cases hnext : round.conclusion.next? with
  | none => exact ⟨[], by rw [follow_of_last hround hnext (Nat.succ_pos steps)]⟩
  | some next => exact ⟨_, by rw [follow_of_next hround hnext]; rfl⟩

/-- On a failed context there is one round, which ends the call and changes nothing about
the process. -/
theorem follow_of_failure {nesting : Nesting σ} (hlayered : graph.Layered Node.Starts nesting)
    (hmode : graph.failureHandling = .halt) (hmem : node ∈ graph.nodes)
    (hfailure : start.context.isFailure)
    (hkeeps : ∀ {given : Context σ} {reply : Reply σ},
      graph.Invokes nesting start (graph.follow limit (steps + 1) node start).rounds given reply →
        given.isFailure → reply.context.isFailure)
    (hround : graph.round limit node start = some round) :
    graph.follow limit (steps + 1) node start = { rounds := [round], complete := true } ∧
      round.state = node.state ∧ round.save = none ∧ round.visited? = none ∧
      round.after.process = start.process := by
  obtain ⟨later, hrounds⟩ : ∃ later, (graph.follow limit (steps + 1) node start).rounds =
    round :: later := exists_rounds_follow hround
  have hnodes : ∀ made ∈ round :: later, made.node ∈ graph.nodes := by
    intro made hmade
    rw [← hrounds] at hmade
    exact (round_of_mem_follow hlayered.built hmem hmade).1
  rw [hrounds] at hkeeps
  obtain ⟨reply, hrun, hending⟩ := (round_eq_some_iff hlayered.built hmem).mp hround
  obtain ⟨hnode, hreply⟩ := node_reply_of_ending hending
  have hfailed : reply.context.isFailure := by
    refine carried_of_attempt Context.carried_isFailure hlayered hmem ?_ hrun hnode hreply hkeeps
      ?_ hfailure
    · exact fun child hchild =>
        carries_of_layered Context.carried_isFailure (hlayered.child hmem hchild)
    · intro deeper inner hnests
      obtain ⟨_, _, _, hadvances⟩ := hnests.advances hlayered hnodes
      exact respects_isFailure hadvances
  obtain ⟨hsave, hstays, hprocess⟩ := stays_of_isFailure hmode hending hfailed
  have hlast := Conclusion.next?_of_not_entered hstays
  exact ⟨follow_of_last hround hlast (Nat.succ_pos steps), congrArg Node.state hnode, hsave,
    visited?_of_not_entered hstays, hprocess⟩

/-- A trail from a failed context: nothing is executed if the signal leads to no node,
else just that node, once its work returns. -/
theorem trail_of_failure {nesting : Nesting σ} (hlayered : graph.Layered Node.Starts nesting)
    (hmode : graph.failureHandling = .halt) {signal : Signal} (hfailure : start.context.isFailure)
    (hkeeps : ∀ {given : Context σ} {reply : Reply σ},
      graph.Invokes nesting start (graph.trail limit signal start).rounds given reply →
        given.isFailure → reply.context.isFailure) :
    (((graph.target? start.process.state signal).filter (· ≠ .wait)) = none ∧
        graph.trail limit signal start = { complete := true }) ∨
      ∃ node ∈ graph.nodes, graph.target? start.process.state signal = some node.state ∧
        ((graph.trail limit signal start = {} ∧
            (0 < limit → (graph.attempt node).run limit start.context start.host = none)) ∨
          ∃ round, graph.trail limit signal start = { rounds := [round], complete := true } ∧
            round.state = node.state ∧ round.save = none ∧ round.visited? = none ∧
            round.after.process = start.process) := by
  rcases target?_cases hlayered.built start.process.state signal with
    hnone | hwait | ⟨node, hmem, hnode⟩
  · exact .inl ⟨by rw [hnone]; rfl, by rw [trail, route_of_none hnone]⟩
  · exact .inl ⟨by rw [hwait]; rfl, by rw [trail, route_of_wait hwait]⟩
  · have htrail : graph.trail limit signal start = graph.follow limit limit node start := by
      rw [trail, route_of_mem hlayered.built hmem hnode]
    rw [htrail] at hkeeps ⊢
    refine .inr ⟨node, hmem, hnode, ?_⟩
    cases limit with
    | zero => exact .inl ⟨rfl, fun hpos => absurd hpos (Nat.lt_irrefl 0)⟩
    | succ steps =>
      cases hround : graph.round (steps + 1) node start with
      | none =>
        refine .inl ⟨by simp only [follow, hround], fun _ => ?_⟩
        exact Option.map_eq_none_iff.mp hround
      | some round =>
        exact .inr ⟨round, follow_of_failure hlayered hmode hmem hfailure hkeeps hround⟩

/-- Without rounds a call leaves its process alone. -/
theorem process_final_of_rounds {segment : Segment σ} (hrounds : segment.rounds = []) :
    segment.final.process = segment.start.process := by
  unfold Segment.final
  cases segment.route with
  | enter => rw [hrounds]; rfl
  | stay | invalid => rfl

/-- A call on a failed context saves nothing and moves nothing. -/
theorem unmoved_of_failure {nesting : Nesting σ} (hlayered : graph.Layered Node.Starts nesting)
    (hmode : graph.failureHandling = .halt) {signal : Signal} (hfailure : start.context.isFailure)
    (hkeeps : ∀ {given : Context σ} {reply : Reply σ},
      graph.Invokes nesting start (graph.trail limit signal start).rounds given reply →
        given.isFailure → reply.context.isFailure)
    {segment : Segment σ} (hadvance : graph.advance limit signal start = some segment) :
    segment.saves = [] ∧ segment.visited = [] ∧ segment.final.process = start.process ∧
      segment.executed =
        ((graph.target? start.process.state signal).filter (· ≠ .wait)).toList := by
  rw [advance_eq_trail, Option.ite_none_right_eq_some, Option.some.injEq] at hadvance
  obtain ⟨hcomplete, rfl⟩ := hadvance
  rcases trail_of_failure hlayered hmode hfailure hkeeps with
    ⟨hnone, htrail⟩ |
      ⟨node, hmem, hnode, ⟨htrail, _⟩ | ⟨round, htrail, hstate, hsave, hvisited, hprocess⟩⟩
  · rw [htrail, hnone]
    exact ⟨rfl, rfl, process_final_of_rounds rfl, rfl⟩
  · rw [htrail] at hcomplete
    contradiction
  · have hwait : node.state ≠ .wait := hlayered.built.indexed.ne_wait hmem
    rw [htrail, hnode, route_of_mem hlayered.built hmem hnode, Option.filter_some,
      if_pos (decide_eq_true hwait)]
    exact ⟨List.filterMap_cons_none hsave, List.filterMap_cons_none hvisited, hprocess,
      congrArg (fun state => [state]) hstate⟩

/-- Whatever the callbacks do, a call in halt mode asks the checkpoint and enters a state on
a successful context only, also a call that has not returned yet.  And say that a call is
given a context that is failed already, and no callback makes it successful.  Such a call
saves nothing, leaves its process as it was, and executes the node that the signal leads
to, if it does, and no other.  It returns once the work of that node does. -/
theorem saves_on_success_only (hbuilt : graph.Built) (hmode : graph.failureHandling = .halt)
    (signal? : Option Signal) (process? : Option (Process σ)) (context : Context σ) (host : σ) :
    let signal := signal?.getD .proceed
    let process := graph.attach (process?.getD .new)
    let trail limit := graph.trail limit signal { context, process, host }
    (∀ limit, ∀ round ∈ (trail limit).rounds, round.save.isSome ∨ round.conclusion.entered →
      round.reply.context.isSuccess) ∧
    ∀ {nesting : Nesting σ}, graph.Layered Node.Starts nesting → context.isFailure →
      (∀ {limit given reply},
        graph.Invokes nesting { context, process, host } (trail limit).rounds given reply →
          given.isFailure → reply.context.isFailure) →
      (∀ {limit segment}, graph.call limit signal? process? context host = some segment →
        segment.saves = [] ∧ segment.visited = [] ∧ segment.final.process = process ∧
          segment.executed =
            ((graph.target? process.state signal).filter (· ≠ .wait)).toList) ∧
      ∀ {limit}, graph.call limit signal? process? context host = none →
        (trail limit).rounds = [] ∧
          (0 < limit → ∃ node ∈ graph.nodes, graph.target? process.state signal = some node.state ∧
            (graph.attempt node).run limit context host = none) := by
  intro signal process trail
  refine ⟨fun limit round hround hsaved => ?_, fun hlayered hfailure hkeeps => ?_⟩
  · obtain ⟨_, hending⟩ := ending_of_mem_trail hbuilt hround
    cases hreply : round.reply.context.isFailure with
    | false => rw [Context.isSuccess, hreply, Bool.not_false]
    | true =>
      obtain ⟨hsave, hstays, _⟩ := stays_of_isFailure hmode hending hreply
      simp [hsave, hstays] at hsaved
  · refine ⟨unmoved_of_failure hlayered hmode hfailure hkeeps, fun {limit} hcall => ?_⟩
    have hreturns : graph.advance limit signal { context, process, host } = none := hcall
    rw [advance_eq_trail] at hreturns
    rcases trail_of_failure hlayered hmode hfailure hkeeps with
      ⟨_, htrail⟩ | ⟨node, hmem, hnode, ⟨htrail, hwork⟩ | ⟨round, htrail, _⟩⟩
    · rw [htrail] at hreturns
      contradiction
    · exact ⟨congrArg Trail.rounds htrail, fun hpos => ⟨node, hmem, hnode, hwork hpos⟩⟩
    · rw [htrail] at hreturns
      contradiction

/-- A patrol at the gate, every step of which would be saved. -/
def patrolling : Process Bool :=
  { state := ⟨"gate"⟩, visited := [⟨"gate"⟩], reference := some "night"
    checkpoint := some fun _ _ light => (.ok true, light) }

/-- Something had gone wrong before the patrol. -/
def brokenLock : Context Bool := .recordFailure .empty "broken lock" none

def patrolStart : Execution Bool :=
  { context := brokenLock, process := patrolling, host := true }

theorem keeps_patrol {limit : Nat} {given : Context Bool} {reply : Reply Bool}
    (h : (patrol .halt).Invokes (fun _ => none) patrolStart
      ((patrol .halt).trail limit .proceed patrolStart).rounds given reply) :
    reply.context.isFailure := by
  cases limit with
  | zero => contradiction
  | succ limit =>
    cases h with
    | own => rfl
    | prepared hchild | nested hchild => contradiction
    | later hlater => contradiction

/-- The guard looks into the yard, sees all there is to be seen, and is still at the gate. -/
theorem patrol_stays_at_gate :
    ∃ segment, (patrol .halt).call 3 none (some patrolling) brokenLock true = some segment ∧
      segment.saves = [] ∧ segment.executed = [⟨"yard"⟩] ∧ segment.final.process = patrolling := by
  obtain ⟨_, hunmoved⟩ := saves_on_success_only (built_patrol .halt) rfl none (some patrolling)
    brokenLock true
  have hlayered : (patrol .halt).Layered Node.Starts fun _ => none :=
    layered_of_nodes (built_patrol .halt) fun node hmem => .inl rfl
  have hcall : (patrol .halt).call 3 none (some patrolling) brokenLock true = some _ := rfl
  obtain ⟨hsegment, _⟩ := hunmoved hlayered rfl fun hinvokes _ => keeps_patrol hinvokes
  obtain ⟨hsaves, _, hprocess, hexecuted⟩ := hsegment hcall
  exact ⟨_, hcall, hsaves, hexecuted, hprocess⟩

end Graph

end Workflow
