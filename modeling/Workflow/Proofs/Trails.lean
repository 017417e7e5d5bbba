import Workflow.Proofs.Run

/-!
# Calls that need not end

A run may go in circles, and the work of a node may not return, so a call need not end.
What it did so far is its trail within a limit.

* `Graph.trail` is the trail of a call, and `Graph.visitedWithin` the states that it
  visited.  `call_eq_some_iff`: a call ends within a limit if its trail is complete.
* `follow_of_last` and `follow_of_next` are a trail round by round.  `round_of_mem_trail` is
  one round of a call, and `reached_of_mem_trail` carries what the rounds keep to it.
* `isPrefix_rounds_follow`: a larger limit only adds rounds at the end.
  `isPrefix_visitedWithin` is that for the states visited in a call.
-/

namespace Workflow

/-- The states that the process entered, in order. -/
def Trail.visited {σ : Type} (trail : Trail σ) : List StateName :=
  trail.rounds.filterMap Round.visited?

namespace Graph

variable {σ : Type} {graph : Graph σ}

/-- The rounds of a call within a limit, whether or not it has ended by then. -/
def trail (graph : Graph σ) (limit : Nat) (signal : Signal) (start : Execution σ) : Trail σ :=
  match graph.route start.process.state signal with
  | .enter node => graph.follow limit limit node start
  | .stay | .invalid => { complete := true }

/-- The states that a call visits within a limit, whether or not it has ended by then. -/
def visitedWithin (graph : Graph σ) (limit : Nat) (signal? : Option Signal)
    (process? : Option (Process σ)) (context : Context σ) (host : σ) : List StateName :=
  (graph.trail limit (signal?.getD .proceed)
    (graph.manager process? context host).execution).visited

/-- A call has ended once its trail is complete. -/
theorem advance_eq_trail (graph : Graph σ) (limit : Nat) (signal : Signal) (start : Execution σ) :
    graph.advance limit signal start =
      if (graph.trail limit signal start).complete then
        some { graph := graph.name, signal, start, route := graph.route start.process.state signal
               rounds := (graph.trail limit signal start).rounds }
      else none := by
  unfold advance trail
  cases hroute : graph.route start.process.state signal <;> rfl

theorem call_eq_some_iff {limit : Nat} {signal? : Option Signal} {process? : Option (Process σ)}
    {context : Context σ} {host : σ} {segment : Segment σ} :
    graph.call limit signal? process? context host = some segment ↔
      let signal := signal?.getD .proceed
      let start := (graph.manager process? context host).execution
      (graph.trail limit signal start).complete ∧
        segment = { graph := graph.name, signal, start
                    route := graph.route start.process.state signal
                    rounds := (graph.trail limit signal start).rounds } := by
  rw [call, Manager.call, show (graph.manager process? context host).graph = graph from rfl,
    advance_eq_trail, Option.ite_none_right_eq_some, Option.some.injEq]
  exact and_congr_right fun _ => eq_comm

/-- A call that ended within the limit visited all its states by then. -/
theorem visitedWithin_of_call {limit : Nat} {signal? : Option Signal}
    {process? : Option (Process σ)} {context : Context σ} {host : σ} {segment : Segment σ}
    (hcall : graph.call limit signal? process? context host = some segment) :
    graph.visitedWithin limit signal? process? context host = segment.visited := by
  obtain ⟨_, rfl⟩ := call_eq_some_iff.mp hcall
  rfl

/-! ## Round by round -/

section Follow

variable {limit larger steps more : Nat} {node : Node σ} {start : Execution σ} {round : Round σ}

theorem follow_of_last (hround : graph.round limit node start = some round)
    (hnext : round.conclusion.next? = none) (hsteps : 0 < steps) :
    graph.follow limit steps node start = { rounds := [round], complete := true } := by
  obtain ⟨steps, rfl⟩ : ∃ n, steps = n + 1 := ⟨steps - 1, by omega⟩
  simp only [follow, hround, hnext]

theorem follow_of_next (hround : graph.round limit node start = some round) {next : Node σ}
    (hnext : round.conclusion.next? = some next) :
    graph.follow limit (steps + 1) node start =
      (graph.follow limit steps next round.after).cons round := by
  simp only [follow, hround, hnext]

theorem mem_nodes_of_next? (hbuilt : graph.Built) (hmem : node ∈ graph.nodes)
    (hround : graph.round limit node start = some round) {next : Node σ}
    (hnext : round.conclusion.next? = some next) : next ∈ graph.nodes := by
  obtain ⟨_, _, hending⟩ := (round_eq_some_iff hbuilt hmem).mp hround
  obtain ⟨_, _, _, hnode, _⟩ := ending_of_next? hbuilt hmem hending hnext
  exact hnode

theorem mem_follow_of_round (hround : graph.round limit node start = some round) :
    round ∈ (graph.follow limit (steps + 1) node start).rounds := by
  cases hnext : round.conclusion.next? with
  | none =>
    rw [follow_of_last hround hnext (Nat.succ_pos steps)]
    exact List.mem_cons_self
  | some next =>
    rw [follow_of_next hround hnext]
    exact List.mem_cons_self

/-- The rounds of a trail are rounds of nodes of the graph.  The first is that of the node
where the trail begins, and to the others a round of the trail leads. -/
theorem round_of_mem_follow (hbuilt : graph.Built) (hmem : node ∈ graph.nodes)
    (h : round ∈ (graph.follow limit steps node start).rounds) :
    round.node ∈ graph.nodes ∧ (∃ reached, graph.round limit round.node reached = some round) ∧
      (round.node = node ∨ ∃ earlier ∈ (graph.follow limit steps node start).rounds,
        earlier.conclusion.next? = some round.node) := by
  induction steps generalizing node start with
  | zero => contradiction
  | succ steps ih =>
    cases hround : graph.round limit node start with
    | none =>
      simp only [follow, hround] at h
      contradiction
    | some first =>
      have hnode : first.node = node := node_round hround
      have hfirst : first.node ∈ graph.nodes ∧
          ∃ reached, graph.round limit first.node reached = some first :=
        hnode ▸ ⟨hmem, start, hround⟩
      cases hnext : first.conclusion.next? with
      | none =>
        rw [follow_of_last hround hnext (Nat.succ_pos steps)] at h ⊢
        obtain rfl := List.mem_singleton.mp h
        exact ⟨hfirst.1, hfirst.2, .inl hnode⟩
      | some next =>
        rw [follow_of_next hround hnext] at h ⊢
        rcases List.mem_cons.mp h with rfl | hrest
        · exact ⟨hfirst.1, hfirst.2, .inl hnode⟩
        · obtain ⟨hmem', hround', hbegins⟩ := ih (mem_nodes_of_next? hbuilt hmem hround hnext) hrest
          refine ⟨hmem', hround', .inr ?_⟩
          rcases hbegins with hbegins | ⟨earlier, hearlier, hleads⟩
          · exact ⟨first, List.mem_cons_self, hbegins ▸ hnext⟩
          · exact ⟨earlier, List.mem_cons_of_mem _ hearlier, hleads⟩

/-- A property that every round keeps holds wherever a round of the trail was made. -/
theorem reached_of_mem_follow {inv : Execution σ → Prop}
    (hkeeps : ∀ {node : Node σ} {start : Execution σ} {round : Round σ},
      graph.round limit node start = some round → inv start → inv round.after)
    (hstart : inv start) (h : round ∈ (graph.follow limit steps node start).rounds) :
    ∃ reached, graph.round limit round.node reached = some round ∧ inv reached := by
  induction steps generalizing node start with
  | zero => contradiction
  | succ steps ih =>
    cases hround : graph.round limit node start with
    | none =>
      simp only [follow, hround] at h
      contradiction
    | some first =>
      have hfirst : graph.round limit first.node start = some first := by
        rw [node_round hround, hround]
      cases hnext : first.conclusion.next? with
      | none =>
        rw [follow_of_last hround hnext (Nat.succ_pos steps)] at h
        obtain rfl := List.mem_singleton.mp h
        exact ⟨start, hfirst, hstart⟩
      | some next =>
        rw [follow_of_next hround hnext] at h
        rcases List.mem_cons.mp h with rfl | hrest
        · exact ⟨start, hfirst, hstart⟩
        · exact ih (hkeeps hround hstart) hrest

/-! ## More rounds -/

/-- A larger limit adds rounds at the end. -/
theorem isPrefix_rounds_follow (hlimit : limit ≤ larger) (hsteps : steps ≤ more) (node : Node σ)
    (start : Execution σ) :
    (graph.follow limit steps node start).rounds <+:
      (graph.follow larger more node start).rounds := by
  induction steps generalizing more node start with
  | zero => exact List.nil_prefix
  | succ steps ih =>
    obtain ⟨more, rfl⟩ : ∃ n, more = n + 1 := ⟨more - 1, by omega⟩
    cases hround : graph.round limit node start with
    | none =>
      rw [follow, hround]
      exact List.nil_prefix
    | some round =>
      have hlarger := round_of_le hlimit hround
      cases hnext : round.conclusion.next? with
      | none =>
        have hsame : graph.follow limit (steps + 1) node start =
            graph.follow larger (more + 1) node start :=
          (follow_of_last hround hnext (Nat.succ_pos steps)).trans
            (follow_of_last hlarger hnext (Nat.succ_pos more)).symm
        exact hsame ▸ List.prefix_refl _
      | some next =>
        rw [follow_of_next hround hnext, follow_of_next hlarger hnext]
        exact List.cons_prefix_cons.mpr ⟨rfl, ih (by omega) next round.after⟩

end Follow

/-- The rounds of a call are rounds of nodes of the graph.  To the first its signal leads, and
to the others a round of the call. -/
theorem round_of_mem_trail (hbuilt : graph.Built) {limit : Nat} {signal : Signal}
    {start : Execution σ} {round : Round σ} (h : round ∈ (graph.trail limit signal start).rounds) :
    round.node ∈ graph.nodes ∧ (∃ reached, graph.round limit round.node reached = some round) ∧
      (graph.route start.process.state signal = .enter round.node ∨
        ∃ earlier ∈ (graph.trail limit signal start).rounds,
          earlier.conclusion.next? = some round.node) := by
  unfold trail at h ⊢
  cases hroute : graph.route start.process.state signal with
  | enter node =>
    rw [hroute] at h
    obtain ⟨hmem, hround, hbegins⟩ :=
      round_of_mem_follow hbuilt (mem_nodes_of_route hbuilt hroute) h
    exact ⟨hmem, hround, hbegins.imp_left fun hnode => congrArg Route.enter hnode.symm⟩
  | stay | invalid =>
    rw [hroute] at h
    contradiction

theorem reached_of_mem_trail {inv : Execution σ → Prop} {limit : Nat} {signal : Signal}
    {start : Execution σ} {round : Round σ}
    (hkeeps : ∀ {node : Node σ} {start : Execution σ} {round : Round σ},
      graph.round limit node start = some round → inv start → inv round.after)
    (hstart : inv start) (h : round ∈ (graph.trail limit signal start).rounds) :
    ∃ reached, graph.round limit round.node reached = some round ∧ inv reached := by
  unfold trail at h
  split at h
  · exact reached_of_mem_follow hkeeps hstart h
  · contradiction
  · contradiction

theorem isPrefix_rounds_trail {limit larger : Nat} (hle : limit ≤ larger) (signal : Signal)
    (start : Execution σ) :
    (graph.trail limit signal start).rounds <+: (graph.trail larger signal start).rounds := by
  unfold trail
  cases graph.route start.process.state signal with
  | enter node => exact isPrefix_rounds_follow hle hle node start
  | stay | invalid => exact List.prefix_refl _

theorem isPrefix_visitedWithin {limit larger : Nat} (hle : limit ≤ larger)
    (signal? : Option Signal) (process? : Option (Process σ)) (context : Context σ) (host : σ) :
    graph.visitedWithin limit signal? process? context host <+:
      graph.visitedWithin larger signal? process? context host :=
  (isPrefix_rounds_trail hle _ _).filterMap _

end Graph

end Workflow
