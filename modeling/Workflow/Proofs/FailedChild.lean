import Workflow.Proofs.NestedRollback
import Workflow.Proofs.Outcome

/-!
# A nested run that fails

In halt mode a node whose nested run fails is not visited.  So a rollback of the
parent does not come to it, and what the nested run did stays, with its process
under the key of the node.

* `stays_of_isFailure`: in halt mode a node that leaves a failed context ends the run.
* `failed_child_stays_unvisited`: what such a call leaves, and what rolling its
  process or that of the nested run back does.
-/

namespace Workflow

variable {σ : Type}

namespace Graph

variable {graph child : Graph σ} {limit : Nat}

theorem visited_final (hbuilt : graph.Built) {signal : Signal} {start : Execution σ}
    {segment : Segment σ} (h : graph.Advances limit signal start segment) :
    segment.final.process.visited = start.process.visited ++ segment.visited := by
  rw [process_of_advances hbuilt h]
  rfl

/-! ## A round that runs a graph -/

/-- The node leaves what the run of the child left, with the process of that run. -/
theorem reply_of_runsChild {node : Node σ} {start : Execution σ} {inner : Segment σ}
    {reply : Reply σ} (hstarts : node.Starts child)
    (hruns : graph.RunsChild node start child inner)
    (hrun : (graph.attempt node).run limit start.context start.host = some reply) :
    reply.result = .ok () ∧
      reply.context = inner.final.context.insert node.state.subgraphKey
        ⟨.process, inner.final.process⟩ := by
  rcases runsChild_of_attempt hstarts hrun with
    ⟨fault, hprepared, hfault⟩ | ⟨prepared, inner', hprepared, hok, hinner, hresult, hcontext⟩
  · obtain ⟨limit', prepared', hprepared', hok, _⟩ := hruns
    obtain rfl : reply = prepared' := Option.some.inj <|
      ((graph.preparation node).run_of_le (Nat.le_max_left limit limit') hprepared).symm.trans
        ((graph.preparation node).run_of_le (Nat.le_max_right limit limit') hprepared')
    rw [hok] at hfault
    contradiction
  · obtain rfl := hruns.unique ⟨limit, prepared, hprepared, hok, hinner⟩
    exact ⟨hresult, hcontext⟩

/-- In halt mode a node that leaves a failed context is neither saved nor entered. -/
theorem stays_of_isFailure (hmode : graph.failureHandling = .halt) {node : Node σ}
    {process : Process σ} {reply : Reply σ} {round : Round σ}
    (h : graph.Ending node process reply round)
    (hfailure : reply.context.isFailure) :
    round.save = none ∧ round.conclusion.entered = false ∧ round.after.process = process := by
  have hstops : ¬ (reply.context.isSuccess ∨ graph.isChainOfCommand) := by
    simp [Context.isSuccess, hfailure, isChainOfCommand_eq_false_iff.mpr hmode]
  cases h with
  | interrupted | failed => exact ⟨rfl, rfl, rfl⟩
  | refused _ _ hgoes => exact absurd hgoes hstops
  | entered haccepts => exact absurd haccepts.goes hstops

/-- If its work did succeed, the context is left as it is. -/
theorem stays_of_failure (hmode : graph.failureHandling = .halt) {node : Node σ}
    {process : Process σ} {reply : Reply σ} {round : Round σ}
    (h : graph.Ending node process reply round) (hresult : reply.result = .ok ())
    (hfailure : reply.context.isFailure) :
    round.conclusion.entered = false ∧ round.after.context = reply.context ∧
      round.after.process = process := by
  obtain ⟨_, hstays, hprocess⟩ := stays_of_isFailure hmode h hfailure
  obtain ⟨rfl, rfl⟩ := node_reply_of_ending h
  exact ⟨hstays, (outcome_of_failure h hmode (.inr ⟨hresult, hfailure⟩)).2, hprocess⟩

/-- A call in halt mode with a node whose nested run failed.  The call stops there, and the
process is as it was before that node: the given one, which entered the states of the
rounds before.  So a rollback runs the compensations of the states visited before, and no
more.  The process of the nested run is left in the context, under the key of the node.
Rolling the child back by it runs the compensations of the states that the nested run
visited, newest first. -/
theorem failed_child_stays_unvisited (hbuilt : graph.Built)
    (hmode : graph.failureHandling = .halt) {signal? : Option Signal}
    {process? : Option (Process σ)} {context : Context σ} {host : σ} {segment : Segment σ}
    (hcall : graph.call limit signal? process? context host = some segment)
    {earlier later : List (Round σ)} {round : Round σ}
    (hrounds : segment.rounds = earlier ++ round :: later) (hchild : child.Built)
    (hstarts : round.node.Starts child) {inner : Segment σ}
    (hruns : graph.RunsChild round.node (segment.start.afterRounds earlier) child inner)
    (hfailure : inner.final.context.isFailure) :
    later = [] ∧
      segment.final.process =
        (graph.attach (process?.getD .new)).enterAll (earlier.map Round.state) ∧
      segment.final.context = inner.final.context.insert round.state.subgraphKey
        ⟨.process, inner.final.process⟩ ∧
      inner.final.process.visited = inner.visited ∧
      (∀ limit host,
        Option.Rel Rollback.Matches
          (graph.rollback limit segment.final.process segment.final.context host)
          ((graph.compensations segment.final.process.visited.reverse).run limit
            segment.final.context host)) ∧
      ∀ limit context host,
        Option.Rel Rollback.Matches (child.rollback limit inner.final.process context host)
          ((child.compensations inner.visited.reverse).run limit context host) := by
  have hinner : inner.final.process.visited = inner.visited := by
    obtain ⟨_, _, _, _, hstart⟩ := hruns
    exact visited_final hchild (advances_of_start hchild hstart)
  have hadvances := (advance_eq_some_iff hbuilt).mp hcall
  have hentered := process_of_advances hbuilt hadvances
  cases hadvances with
  | @entered node rounds hmem htarget hrun hlength =>
    obtain rfl : rounds = earlier ++ round :: later := hrounds
    obtain ⟨hattempt, hending, hvisited, hlast⟩ := round_of_runs hrun rfl
    obtain ⟨hresult, hreply⟩ := reply_of_runsChild hstarts hruns hattempt
    have hfailed : round.reply.context.isFailure := by
      rw [hreply]
      exact hfailure
    obtain ⟨hstays, hcontext, hprocess⟩ := stays_of_failure hmode hending hresult hfailed
    obtain rfl := hlast hstays
    refine ⟨rfl, ?_, ?_, hinner, fun limit host => matches_rollback, fun limit context host => ?_⟩
    · -- the call visited just the states before, since the last round left the process alone
      have hstates := congrArg (·.visited) hentered
      simp only [Segment.final, afterRounds_concat, hprocess, hvisited] at hstates
      rw [hentered, ← List.append_cancel_left hstates]
      rfl
    · rw [Segment.final, afterRounds_concat, hcontext, hreply]
      rfl
    · rw [← hinner]
      exact matches_rollback
  | stayed | invalid => simp at hrounds

def shippingSteps : List (Directive (List Note)) :=
  [ .startNode [(.proceed, ⟨"label"⟩)]
  , .addNode (notingNode ⟨"label"⟩ (some ⟨"load"⟩))
  , .addNode (.define ⟨"load"⟩
      [ .operation (.ofFunction fun context host =>
          { result := .error (.halt ⟨"no truck"⟩)
            context := context.recordFailure "no truck" none, host }) ]) ]

/-- A parcel that is labelled, and then there is no truck for it. -/
def shipping : Graph (List Note) := (define "Shipping" shippingSteps).toOption.getD { name := "" }

def orderSteps : List (Directive (List Note)) :=
  [ .startNode [(.proceed, ⟨"reserve"⟩)]
  , .addNode (notingNode ⟨"reserve"⟩ (some ⟨"ship"⟩))
  , .addNode (delegatingNode ⟨"ship"⟩ shipping) ]

def order : Graph (List Note) := (define "Order" orderSteps).toOption.getD { name := "" }

theorem built_shipping : shipping.Built := ⟨"Shipping", shippingSteps, rfl⟩

theorem built_order : order.Built := ⟨"Order", orderSteps, rfl⟩

def orderSegment : Segment (List Note) := (order.call 4 none (some .new) .empty []).get rfl

theorem call_order : order.call 4 none (some .new) .empty [] = some orderSegment := rfl

/-- The run of the shipping in the order. -/
def shippingSegment : Segment (List Note) :=
  (shipping.start 4 .empty [.done ⟨"reserve"⟩]).get rfl

theorem runs_shipping : order.RunsChild (delegatingNode ⟨"ship"⟩ shipping)
    (orderSegment.start.afterRounds (orderSegment.rounds.take 1)) shipping shippingSegment :=
  ⟨4, _, rfl, rfl, rfl⟩

/-- The reservation is taken back, and the label stays until the shipping is rolled back. -/
theorem order_leaves_shipping :
    orderSegment.final.process.visited = [⟨"reserve"⟩] ∧
    shippingSegment.final.process.visited = [⟨"label"⟩] ∧
    orderSegment.final.context.get .process (StateName.subgraphKey ⟨"ship"⟩) =
      some shippingSegment.final.process ∧
    (∃ rollback,
      order.rollback 4 orderSegment.final.process orderSegment.final.context [] = some rollback ∧
        rollback.host = [.undone ⟨"reserve"⟩]) ∧
    ∃ rollback,
      shipping.rollback 4 shippingSegment.final.process orderSegment.final.context [] =
        some rollback ∧
      rollback.host = [.undone ⟨"label"⟩] := by
  have hrounds : orderSegment.rounds = orderSegment.rounds.take 1 ++ _ :: [] := rfl
  obtain ⟨_, hprocess, hcontext, hinner, horder, hshipping⟩ :=
    failed_child_stays_unvisited built_order rfl call_order hrounds built_shipping rfl
      runs_shipping rfl
  have hkept : orderSegment.final.context.get .process (StateName.subgraphKey ⟨"ship"⟩) =
      some shippingSegment.final.process := by
    rw [hcontext]
    exact Context.get_insert_self ..
  have hback : order.rollback 4 orderSegment.final.process orderSegment.final.context [] =
    some _ := rfl
  have hforth : shipping.rollback 4 shippingSegment.final.process orderSegment.final.context [] =
    some _ := rfl
  exact ⟨congrArg (·.visited) hprocess, hinner, hkept,
    ⟨_, hback, (of_optionRel (horder 4 []) hback rfl).host⟩,
    _, hforth, (of_optionRel (hshipping 4 _ []) hforth rfl).host⟩

/-- The rollback does not take the label back first. -/
theorem order_keeps_label :
    order.call 4 none (some .new) .empty [] = some orderSegment ∧
    order.failureHandling = .halt ∧
    order.RunsChild (delegatingNode ⟨"ship"⟩ shipping)
      (orderSegment.start.afterRounds (orderSegment.rounds.take 1)) shipping shippingSegment ∧
    shippingSegment.final.context.isFailure ∧ shippingSegment.visited = [⟨"label"⟩] ∧
    ¬ Option.Rel Rollback.Matches
      (order.rollback 4 orderSegment.final.process orderSegment.final.context [])
      (((shipping.compensations [⟨"label"⟩]).andThen (order.compensations [⟨"reserve"⟩])).run 4
        orderSegment.final.context []) := by
  refine ⟨call_order, rfl, runs_shipping, rfl, rfl, fun hmatches => ?_⟩
  exact absurd (of_optionRel hmatches rfl rfl).host (by decide)

end Graph

end Workflow
