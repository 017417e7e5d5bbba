import Workflow.Manager
import Workflow.Proofs.Definition

/-!
# Runs on a built graph

What a call on a built graph does, said once for all the proofs about calls.

* `target?_cases` splits the target of a signal: there is none, it pauses, or it
  is a node.  `Graph.route`, which starts a segment, and `Graph.onward`, which
  ends a round, are both decided by it (`route_of_*`, `onward_of_*`), so they
  agree.
* `Ending` lists the four ways in which a round ends, from what the work of its
  node left.  `round_ending` says that there is no other.
* `Runs` is a whole run as a relation: the rounds from a node on, the last of
  which leads to no further node.  It is what `Graph.follow` computes
  (`runs_of_follow`, `follow_of_runs`).  `round_of_runs` takes one round out of it, and
  `runs_of_append` what follows some of them.
* `Advances` is a segment as a relation, and `advance_eq_some_iff` says that
  `Graph.advance` computes it.
-/

namespace Workflow

namespace Graph

variable {σ : Type}

/-! ## Where a signal leads -/

theorem target?_of_mem {graph : Graph σ} (hbuilt : graph.Built) {node : Node σ}
    (hmem : node ∈ graph.nodes) (signal : Signal) :
    graph.target? node.state signal = node.target? signal := by
  rw [target?, hbuilt.indexed.node?_of_mem hmem, Option.bind_some]

/-- A signal leads nowhere, to the pausing target, or to a node. -/
theorem target?_cases {graph : Graph σ} (hbuilt : graph.Built) (state : StateName)
    (signal : Signal) :
    graph.target? state signal = none ∨ graph.target? state signal = some .wait ∨
      ∃ next ∈ graph.nodes, graph.target? state signal = some next.state := by
  cases htarget : graph.target? state signal with
  | none => exact .inl rfl
  | some target =>
    refine .inr ?_
    by_cases hwait : target = .wait
    · exact .inl (congrArg some hwait)
    · obtain ⟨node, hnode, hsignal⟩ := Option.bind_eq_some_iff.mp htarget
      obtain ⟨next, hnext, hstate⟩ :=
        hbuilt.node?_of_target? (Indexed.mem_of_node? hnode) hsignal hwait
      exact .inr ⟨next, Indexed.mem_of_node? hnext, by rw [hstate]⟩

theorem isWait_of_mem {graph : Graph σ} (hbuilt : graph.Built) {node : Node σ}
    (hmem : node ∈ graph.nodes) : node.state.isWait = false := by
  simpa [StateName.isWait] using hbuilt.indexed.ne_wait hmem

section Route

variable {graph : Graph σ} {state : StateName} {signal : Signal}

theorem route_of_none (h : graph.target? state signal = none) :
    graph.route state signal = .invalid := by
  unfold target? at h
  simp only [route, h]

theorem route_of_wait (h : graph.target? state signal = some .wait) :
    graph.route state signal = .stay := by
  unfold target? at h
  simp only [route, h]
  rfl

theorem route_of_mem (hbuilt : graph.Built) {next : Node σ} (hmem : next ∈ graph.nodes)
    (h : graph.target? state signal = some next.state) :
    graph.route state signal = .enter next := by
  unfold target? at h
  simp [route, h, isWait_of_mem hbuilt hmem, hbuilt.indexed.node?_of_mem hmem]

theorem mem_nodes_of_route (hbuilt : graph.Built) {node : Node σ}
    (h : graph.route state signal = .enter node) : node ∈ graph.nodes := by
  rcases target?_cases hbuilt state signal with hnone | hwait | ⟨next, hmem, hnext⟩
  · rw [route_of_none hnone] at h
    contradiction
  · rw [route_of_wait hwait] at h
    contradiction
  · rw [route_of_mem hbuilt hmem hnext] at h
    exact Route.enter.inj h ▸ hmem

end Route

section Onward

variable {graph : Graph σ} {node : Node σ} {signal : Signal}

theorem onward_of_none (h : node.target? signal = none) :
    graph.onward node signal = .finished signal := by
  simp only [onward, h]

theorem onward_of_wait (h : node.target? signal = some .wait) :
    graph.onward node signal = .waiting signal := by
  simp only [onward, h]
  rfl

theorem onward_of_mem (hbuilt : graph.Built) {next : Node σ} (hmem : next ∈ graph.nodes)
    (h : node.target? signal = some next.state) :
    graph.onward node signal = .moved signal next := by
  simp [onward, h, isWait_of_mem hbuilt hmem, hbuilt.indexed.node?_of_mem hmem]

/-- The transitions of a node of a built graph lead nowhere, to the pausing
target, or to a node. -/
theorem onward_cases (hbuilt : graph.Built) (hmem : node ∈ graph.nodes)
    (signal : Signal) :
    (node.target? signal = none ∧ graph.onward node signal = .finished signal) ∨
      (node.target? signal = some .wait ∧ graph.onward node signal = .waiting signal) ∨
      ∃ next ∈ graph.nodes, node.target? signal = some next.state ∧
        graph.onward node signal = .moved signal next := by
  have htarget := target?_cases hbuilt node.state signal
  rw [target?_of_mem hbuilt hmem] at htarget
  rcases htarget with hnone | hwait | ⟨next, hnext, hsome⟩
  · exact .inl ⟨hnone, onward_of_none hnone⟩
  · exact .inr (.inl ⟨hwait, onward_of_wait hwait⟩)
  · exact .inr (.inr ⟨next, hnext, hsome, onward_of_mem hbuilt hnext hsome⟩)

/-- The run never gets lost, so a saved node keeps its context. -/
theorem settle_onward (hbuilt : graph.Built) (hmem : node ∈ graph.nodes)
    (signal : Signal) (context : Context σ) :
    graph.settle context (graph.onward node signal) = context := by
  rcases onward_cases hbuilt hmem signal with ⟨_, h⟩ | ⟨_, h⟩ | ⟨_, _, _, h⟩ <;> rw [h] <;> rfl

end Onward

/-! ## The ways in which a round ends -/

/-- The run goes on past a node: its work did not break the run off, its hook
picked a signal, and the checkpoint accepted. -/
structure Accepts (graph : Graph σ) (node : Node σ) (process : Process σ)
    (reply : Reply σ) (signal : Signal) (host : σ) : Prop where
  work : graph.interrupt? reply.result = none
  choose : graph.choose node reply.context reply.host = (.ok signal, host)
  goes : reply.context.isSuccess ∨ graph.isChainOfCommand
  visit : (process.visit node.state host).outcome = .ok ()

/-- The round at a node whose state is entered. -/
def accept (graph : Graph σ) (node : Node σ) (process : Process σ) (reply : Reply σ)
    (signal : Signal) (host : σ) : Round σ :=
  { node, reply, save := (process.visit node.state host).save
    conclusion := graph.onward node signal
    after :=
      { context := reply.context, process := process.enter node.state
        host := (process.visit node.state host).host } }

/-- How the round at a node ends, from what the work of the node left. -/
inductive Ending (graph : Graph σ) (node : Node σ) (process : Process σ)
    (reply : Reply σ) : Round σ → Prop
  /-- The outcome of the work breaks the run off. -/
  | interrupted {interrupt : Interrupt}
      (hwork : graph.interrupt? reply.result = some interrupt) :
      Ending graph node process reply
        (graph.breakOff node process reply interrupt reply.host)
  /-- The work left the context failed, and that stops the run. -/
  | failed {signal : Signal} {host : σ}
      (hwork : graph.interrupt? reply.result = none)
      (hchoose : graph.choose node reply.context reply.host = (.ok signal, host))
      (hfailure : reply.context.isFailure) (hmode : graph.isChainOfCommand = false) :
      Ending graph node process reply
        { node, reply, conclusion := .failed signal
          after := { context := reply.context, process, host } }
  /-- The checkpoint did not accept. -/
  | refused {signal : Signal} {host : σ} {save : Save} {refusal : CheckpointError}
      (hwork : graph.interrupt? reply.result = none)
      (hchoose : graph.choose node reply.context reply.host = (.ok signal, host))
      (hgoes : reply.context.isSuccess ∨ graph.isChainOfCommand)
      (hsave : (process.visit node.state host).save = some save)
      (hrefused : (process.visit node.state host).outcome = .error refusal) :
      Ending graph node process reply
        { node, reply, save := some save
          conclusion := .refused signal { message := graph.refusalMessage node.state }
          after :=
            { context :=
                reply.context.recordFailure (graph.refusalMessage node.state) refusal.cause
              process, host := (process.visit node.state host).host } }
  /-- The state was entered. -/
  | entered {signal : Signal} {host : σ}
      (haccepts : graph.Accepts node process reply signal host) :
      Ending graph node process reply (graph.accept node process reply signal host)

section Ending

variable {graph : Graph σ} {node : Node σ} {process : Process σ} {reply : Reply σ}

theorem leave_of_goes {signal : Signal} {host : σ}
    (hgoes : reply.context.isSuccess ∨ graph.isChainOfCommand) :
    graph.leave node process reply signal host =
      graph.persist node reply signal (process.visit node.state host) := by
  refine if_neg fun hstop => ?_
  rw [Bool.and_eq_true, Bool.not_eq_true'] at hstop
  simp [Context.isSuccess, hstop.1, hstop.2] at hgoes

theorem ending_persist (hbuilt : graph.Built) (hmem : node ∈ graph.nodes)
    {signal : Signal} {host : σ} (hwork : graph.interrupt? reply.result = none)
    (hchoose : graph.choose node reply.context reply.host = (.ok signal, host))
    (hgoes : reply.context.isSuccess ∨ graph.isChainOfCommand) :
    graph.Ending node process reply
      (graph.persist node reply signal (process.visit node.state host)) := by
  unfold persist
  split
  · rename_i hvisit
    dsimp only
    rw [settle_onward hbuilt hmem, Process.visit_process_of_ok hvisit]
    exact .entered ⟨hwork, hchoose, hgoes, hvisit⟩
  · rename_i refusal hvisit
    rw [Process.visit_process_of_error hvisit]
    rcases process.visit_cases node.state host with ⟨_, _, hok⟩ | ⟨save, _, hsave, _⟩
    · rw [hok] at hvisit
      contradiction
    · rw [hsave]
      exact .refused hwork hchoose hgoes hsave hvisit

theorem ending_conclude (hbuilt : graph.Built) (hmem : node ∈ graph.nodes)
    (process : Process σ) (reply : Reply σ) :
    graph.Ending node process reply (graph.conclude node process reply) := by
  unfold conclude
  split
  · rename_i interrupt hwork
    exact .interrupted hwork
  · rename_i hwork
    obtain ⟨signal, host, hchoose⟩ := hbuilt.choose_ok hmem reply.context reply.host
    rw [hchoose]
    show graph.Ending node process reply (graph.leave node process reply signal host)
    by_cases hgoes : reply.context.isSuccess ∨ graph.isChainOfCommand
    · rw [leave_of_goes hgoes]
      exact ending_persist hbuilt hmem hwork hchoose hgoes
    · have hstop : reply.context.isFailure ∧ graph.isChainOfCommand = false := by
        simpa [Context.isSuccess, not_or] using hgoes
      rw [leave, if_pos (by simp [hstop])]
      exact .failed hwork hchoose hstop.1 hstop.2

theorem conclude_of_ending (hbuilt : graph.Built) (hmem : node ∈ graph.nodes)
    {round : Round σ} (h : graph.Ending node process reply round) :
    graph.conclude node process reply = round := by
  cases h with
  | interrupted hwork => simp only [conclude, hwork]
  | failed hwork hchoose hfailure hmode =>
    simp only [conclude, hwork, hchoose]
    exact if_pos (by simp [hfailure, hmode])
  | refused hwork hchoose hgoes hsave hrefused =>
    simp only [conclude, hwork, hchoose]
    rw [leave_of_goes hgoes]
    simp only [persist, hrefused, hsave, Process.visit_process_of_error hrefused]
  | entered haccepts =>
    simp only [conclude, haccepts.work, haccepts.choose]
    rw [leave_of_goes haccepts.goes]
    simp only [persist, haccepts.visit, Process.visit_process_of_ok haccepts.visit,
      settle_onward hbuilt hmem, accept]

/-- The round at a node of a built graph is what the work of the node left, ended
in one of the four ways. -/
theorem round_eq_some_iff (hbuilt : graph.Built) (hmem : node ∈ graph.nodes) {limit : Nat}
    {start : Execution σ} {round : Round σ} :
    graph.round limit node start = some round ↔
      ∃ reply, (graph.attempt node).run limit start.context start.host = some reply ∧
        graph.Ending node start.process reply round := by
  rw [Graph.round, Option.map_eq_some_iff]
  constructor
  · rintro ⟨reply, hreply, rfl⟩
    exact ⟨reply, hreply, ending_conclude hbuilt hmem start.process reply⟩
  · rintro ⟨reply, hreply, hending⟩
    exact ⟨reply, hreply, conclude_of_ending hbuilt hmem hending⟩

end Ending

/-- A round leaves the process alone, or it enters the state of its node. -/
theorem ending_stays_or_enters {graph : Graph σ} {node : Node σ} {process : Process σ}
    {reply : Reply σ} {round : Round σ} (h : graph.Ending node process reply round) :
    (round.conclusion.entered = false ∧ round.after.process = process) ∨
      ∃ signal host, graph.Accepts node process reply signal host ∧
        round = graph.accept node process reply signal host := by
  cases h with
  | interrupted | failed | refused => exact .inl ⟨rfl, rfl⟩
  | entered haccepts => exact .inr ⟨_, _, haccepts, rfl⟩

theorem node_reply_of_ending {graph : Graph σ} {node : Node σ} {process : Process σ}
    {reply : Reply σ} {round : Round σ} (h : graph.Ending node process reply round) :
    round.node = node ∧ round.reply = reply := by
  cases h <;> exact ⟨rfl, rfl⟩

@[simp]
theorem visited?_accept (graph : Graph σ) (node : Node σ) (process : Process σ)
    (reply : Reply σ) (signal : Signal) (host : σ) :
    (graph.accept node process reply signal host).visited? = some node.state := by
  simp [Round.visited?, accept, Round.state]

theorem visited?_of_not_entered {round : Round σ} (h : round.conclusion.entered = false) :
    round.visited? = none := by
  simp [Round.visited?, h]

/-! ## A whole run -/

/-- The rounds of a run from a node on, none left out.  Each but the last enters
its state and leads to the node of the next. -/
inductive Runs (graph : Graph σ) (limit : Nat) :
    Node σ → Execution σ → List (Round σ) → Prop
  | last {node : Node σ} {start : Execution σ} {reply : Reply σ} {round : Round σ}
      (hrun : (graph.attempt node).run limit start.context start.host = some reply)
      (hending : graph.Ending node start.process reply round)
      (hlast : round.conclusion.next? = none) :
      Runs graph limit node start [round]
  | next {node next : Node σ} {start : Execution σ} {reply : Reply σ} {signal : Signal}
      {host : σ} {rounds : List (Round σ)}
      (hrun : (graph.attempt node).run limit start.context start.host = some reply)
      (haccepts : graph.Accepts node start.process reply signal host)
      (hmem : next ∈ graph.nodes) (htarget : node.target? signal = some next.state)
      (hrest : Runs graph limit next
        (graph.accept node start.process reply signal host).after rounds) :
      Runs graph limit node start
        (graph.accept node start.process reply signal host :: rounds)

section Runs

variable {graph : Graph σ} {limit : Nat}

theorem next?_accept (hbuilt : graph.Built) {node next : Node σ} {process : Process σ}
    {reply : Reply σ} {signal : Signal} {host : σ} (hmem : next ∈ graph.nodes)
    (htarget : node.target? signal = some next.state) :
    (graph.accept node process reply signal host).conclusion.next? = some next := by
  rw [accept, onward_of_mem hbuilt hmem htarget]
  rfl

/-- Only a round that enters its state leads to a further node. -/
theorem ending_of_next? (hbuilt : graph.Built) {node next : Node σ} (hmem : node ∈ graph.nodes)
    {process : Process σ} {reply : Reply σ} {round : Round σ}
    (hending : graph.Ending node process reply round)
    (hnext : round.conclusion.next? = some next) :
    ∃ signal host, graph.Accepts node process reply signal host ∧ next ∈ graph.nodes ∧
      node.target? signal = some next.state ∧
      round = graph.accept node process reply signal host := by
  cases hending with
  | interrupted | failed | refused => contradiction
  | entered haccepts =>
    rename_i signal host
    refine ⟨signal, host, haccepts, ?_⟩
    have honward : (graph.onward node signal).next? = some next := hnext
    rcases onward_cases hbuilt hmem signal with
      ⟨_, h⟩ | ⟨_, h⟩ | ⟨found, hfound, htarget, h⟩ <;> rw [h] at honward
    · contradiction
    · contradiction
    · obtain rfl := Option.some.inj honward
      exact ⟨hfound, htarget, rfl⟩

theorem runs_of_follow (hbuilt : graph.Built) {steps : Nat} {node : Node σ}
    {start : Execution σ} (hmem : node ∈ graph.nodes)
    (h : (graph.follow limit steps node start).complete) :
    graph.Runs limit node start (graph.follow limit steps node start).rounds := by
  induction steps generalizing node start with
  | zero => simp [follow] at h
  | succ steps ih =>
    unfold follow at h ⊢
    cases hround : graph.round limit node start with
    | none => simp [hround] at h
    | some round =>
      obtain ⟨reply, hrun, hending⟩ := (round_eq_some_iff hbuilt hmem).mp hround
      simp only [hround] at h ⊢
      cases hnext : round.conclusion.next? with
      | none => exact .last hrun hending hnext
      | some next =>
        simp only [hnext, Trail.cons] at h ⊢
        obtain ⟨signal, host, haccepts, hmem', htarget, rfl⟩ :=
          ending_of_next? hbuilt hmem hending hnext
        exact .next hrun haccepts hmem' htarget (ih hmem' h)

theorem follow_of_runs (hbuilt : graph.Built) {node : Node σ} {start : Execution σ}
    {rounds : List (Round σ)} (hmem : node ∈ graph.nodes)
    (h : graph.Runs limit node start rounds) {steps : Nat} (hsteps : rounds.length ≤ steps) :
    graph.follow limit steps node start = { rounds, complete := true } := by
  induction h generalizing steps with
  | last hrun hending hlast =>
    obtain ⟨steps, rfl⟩ : ∃ n, steps = n + 1 := ⟨steps - 1, by simp at hsteps; omega⟩
    have hround := (round_eq_some_iff hbuilt hmem).mpr ⟨_, hrun, hending⟩
    simp only [follow, hround, hlast]
  | next hrun haccepts hnext htarget hrest ih =>
    obtain ⟨steps, rfl⟩ : ∃ n, steps = n + 1 := ⟨steps - 1, by simp at hsteps; omega⟩
    have hround := (round_eq_some_iff hbuilt hmem).mpr ⟨_, hrun, .entered haccepts⟩
    have hlength := Nat.le_of_succ_le_succ hsteps
    simp only [follow, hround, next?_accept hbuilt hnext htarget]
    rw [ih hnext hlength]
    rfl

theorem runs_of_le {larger : Nat} (hle : limit ≤ larger) {node : Node σ} {start : Execution σ}
    {rounds : List (Round σ)} (h : graph.Runs limit node start rounds) :
    graph.Runs larger node start rounds := by
  induction h with
  | last hrun hending hlast => exact .last ((graph.attempt _).run_of_le hle hrun) hending hlast
  | next hrun haccepts hmem htarget _ ih =>
    exact .next ((graph.attempt _).run_of_le hle hrun) haccepts hmem htarget ih

theorem length_rounds_follow_le (graph : Graph σ) (limit steps : Nat) (node : Node σ)
    (start : Execution σ) : (graph.follow limit steps node start).rounds.length ≤ steps := by
  induction steps generalizing node start with
  | zero => exact Nat.zero_le _
  | succ steps ih =>
    unfold follow
    split
    · exact Nat.zero_le _
    · split
      · exact Nat.succ_le_succ (Nat.zero_le _)
      · exact Nat.succ_le_succ (ih _ _)

/-- Before a round of a run, the states of the nodes before it were visited.  Rounds
follow it only if it enters its own. -/
theorem round_of_runs {node : Node σ} {start : Execution σ} {rounds earlier later : List (Round σ)}
    {round : Round σ} (h : graph.Runs limit node start rounds)
    (hrounds : rounds = earlier ++ round :: later) :
    (graph.attempt round.node).run limit (start.afterRounds earlier).context
        (start.afterRounds earlier).host = some round.reply ∧
      graph.Ending round.node (start.afterRounds earlier).process round.reply round ∧
      (start.afterRounds earlier).process.visited =
        start.process.visited ++ earlier.map Round.state ∧
      (round.conclusion.entered = false → later = []) := by
  induction h generalizing earlier with
  | @last node start reply ended hrun hending hlast =>
    obtain ⟨rfl, rfl⟩ := node_reply_of_ending hending
    cases earlier with
    | nil =>
      obtain ⟨rfl, rfl⟩ := List.cons.inj hrounds
      exact ⟨hrun, hending, (List.append_nil _).symm, fun _ => rfl⟩
    | cons => simp at hrounds
  | @next node next start reply signal host rounds hrun haccepts hmem htarget hrest ih =>
    cases earlier with
    | nil =>
      obtain ⟨rfl, rfl⟩ := List.cons.inj hrounds
      refine ⟨hrun, .entered haccepts, (List.append_nil _).symm, fun hstays => ?_⟩
      rw [accept, entered_onward] at hstays
      contradiction
    | cons first earlier =>
      obtain ⟨rfl, hrest⟩ := List.cons.inj hrounds
      obtain ⟨hround, hending, hvisited, hlast⟩ := ih hrest
      refine ⟨hround, hending, hvisited.trans ?_, hlast⟩
      exact List.append_assoc ..

theorem afterRounds_concat (start : Execution σ) (earlier : List (Round σ)) (round : Round σ) :
    start.afterRounds (earlier ++ [round]) = round.after := by
  induction earlier generalizing start with
  | nil => rfl
  | cons first earlier ih => exact ih first.after

theorem afterRounds_append (start : Execution σ) (earlier later : List (Round σ)) :
    start.afterRounds (earlier ++ later) = (start.afterRounds earlier).afterRounds later := by
  induction earlier generalizing start with
  | nil => rfl
  | cons round earlier ih => exact ih round.after

/-- Every round of a run attempted its node. -/
theorem attempt_of_runs {node : Node σ} {start : Execution σ} {round : Round σ} {later : List (Round σ)}
    (hmem : node ∈ graph.nodes)
    (h : graph.Runs limit node start (round :: later)) :
    round.node ∈ graph.nodes ∧
      (graph.attempt round.node).run limit start.context start.host = some round.reply := by
  cases h with
  | last hrun hending =>
    obtain ⟨rfl, rfl⟩ := node_reply_of_ending hending
    exact ⟨hmem, hrun⟩
  | next hrun => exact ⟨hmem, hrun⟩

/-- Each round of a run ended in one of the four ways. -/
theorem ending_of_runs {node : Node σ} {start : Execution σ} {rounds : List (Round σ)}
    (h : graph.Runs limit node start rounds) {round : Round σ} (hround : round ∈ rounds) :
    ∃ process, graph.Ending round.node process round.reply round := by
  obtain ⟨earlier, later, hrounds⟩ := List.append_of_mem hround
  obtain ⟨_, hending, _⟩ := round_of_runs h hrounds
  exact ⟨_, hending⟩

theorem mem_nodes_of_runs {node : Node σ} {start : Execution σ} {rounds : List (Round σ)}
    (hmem : node ∈ graph.nodes) (h : graph.Runs limit node start rounds) :
    ∀ round ∈ rounds, round.node ∈ graph.nodes := by
  induction h with
  | last hrun hending hlast =>
    rw [List.forall_mem_singleton, (node_reply_of_ending hending).1]
    exact hmem
  | next hrun haccepts hnext htarget hrest ih => exact List.forall_mem_cons.mpr ⟨hmem, ih hnext⟩

/-- The last round is the one that leads to no further node. -/
theorem next?_of_runs (hbuilt : graph.Built) {node : Node σ} {start : Execution σ}
    {rounds earlier later : List (Round σ)} {round : Round σ}
    (h : graph.Runs limit node start rounds) (hrounds : rounds = earlier ++ round :: later) :
    round.conclusion.next? = none ↔ later = [] := by
  induction h generalizing earlier with
  | last hrun hending hlast =>
    cases earlier with
    | nil =>
      obtain ⟨rfl, rfl⟩ := List.cons.inj hrounds
      exact ⟨fun _ => rfl, fun _ => hlast⟩
    | cons => simp at hrounds
  | next hrun haccepts hnext htarget hrest ih =>
    cases earlier with
    | nil =>
      obtain ⟨rfl, rfl⟩ := List.cons.inj hrounds
      rw [next?_accept hbuilt hnext htarget]
      refine ⟨fun hnone => by contradiction, fun hnil => ?_⟩
      rw [hnil] at hrest
      cases hrest
    | cons first earlier => exact ih (List.cons.inj hrounds).2

/-- What is left of a run after some of its rounds is a run. -/
theorem runs_of_append {node : Node σ} {start : Execution σ} {earlier later : List (Round σ)}
    (hmem : node ∈ graph.nodes)
    (h : graph.Runs limit node start (earlier ++ later)) :
    later = [] ∨ ∃ next ∈ graph.nodes, graph.Runs limit next (start.afterRounds earlier) later := by
  induction earlier generalizing node start with
  | nil => exact .inr ⟨node, hmem, h⟩
  | cons round earlier ih =>
    rw [List.cons_append] at h
    generalize hrounds : earlier ++ later = rest at h
    cases h with
    | last => exact .inl (List.append_eq_nil_iff.mp hrounds).2
    | next _ _ hnext _ hrest => exact ih hnext (hrounds ▸ hrest)

theorem runs_later {node : Node σ} {start : Execution σ} {earlier later : List (Round σ)}
    {round : Round σ} (hmem : node ∈ graph.nodes)
    (h : graph.Runs limit node start (earlier ++ round :: later)) :
    later = [] ∨ ∃ next ∈ graph.nodes, graph.Runs limit next round.after later := by
  rw [List.append_cons] at h
  rw [← afterRounds_concat start earlier round]
  exact runs_of_append hmem h

end Runs

/-! ## A whole segment -/

/-- A segment of a built graph, by where its signal leads. -/
inductive Advances (graph : Graph σ) (limit : Nat) (signal : Signal)
    (start : Execution σ) : Segment σ → Prop
  | entered {node : Node σ} {rounds : List (Round σ)} (hmem : node ∈ graph.nodes)
      (htarget : graph.target? start.process.state signal = some node.state)
      (hruns : graph.Runs limit node start rounds) (hlength : rounds.length ≤ limit) :
      Advances graph limit signal start
        { graph := graph.name, signal, start, route := .enter node, rounds }
  | stayed (htarget : graph.target? start.process.state signal = some .wait) :
      Advances graph limit signal start
        { graph := graph.name, signal, start, route := .stay }
  | invalid (htarget : graph.target? start.process.state signal = none) :
      Advances graph limit signal start
        { graph := graph.name, signal, start, route := .invalid }

theorem advance_eq_some_iff {graph : Graph σ} (hbuilt : graph.Built) {limit : Nat}
    {signal : Signal} {start : Execution σ} {segment : Segment σ} :
    graph.advance limit signal start = some segment ↔
      graph.Advances limit signal start segment := by
  constructor
  · intro h
    rcases target?_cases hbuilt start.process.state signal with hnone | hwait | ⟨node, hmem, hnode⟩
    · simp only [advance, route_of_none hnone] at h
      exact Option.some.inj h ▸ .invalid hnone
    · simp only [advance, route_of_wait hwait] at h
      exact Option.some.inj h ▸ .stayed hwait
    · simp only [advance, route_of_mem hbuilt hmem hnode] at h
      split at h
      · rename_i hcomplete
        exact Option.some.inj h ▸ .entered hmem hnode (runs_of_follow hbuilt hmem hcomplete)
          (length_rounds_follow_le graph limit limit node start)
      · contradiction
  · intro h
    cases h with
    | entered hmem htarget hruns hlength =>
      simp only [advance, route_of_mem hbuilt hmem htarget,
        follow_of_runs hbuilt hmem hruns hlength, if_true]
    | stayed htarget => simp only [advance, route_of_wait htarget]
    | invalid htarget => simp only [advance, route_of_none htarget]

theorem mem_nodes_of_advances {graph : Graph σ} {limit : Nat} {signal : Signal}
    {start : Execution σ} {segment : Segment σ}
    (h : graph.Advances limit signal start segment) :
    ∀ round ∈ segment.rounds, round.node ∈ graph.nodes := by
  cases h with
  | entered hmem _ hruns _ => exact mem_nodes_of_runs hmem hruns
  | stayed | invalid => exact List.forall_mem_nil _

end Graph

end Workflow
