import Workflow.Proofs.Path

/-!
# Compensation of a history

A rollback takes back everything that a workflow did, if each node can take back
what it did itself.

* `Reversible` is what a node has to do for that, and `Segment.Succeeds` is a call
  in which nothing went wrong.
* `Unwinds` is a list of states whose compensations, newest first, lead a context
  back to another one.  `unwinds_cons` is one more state.
* `unwinds_of_runs` is the invariant of a run: the history so far unwinds the
  context so far.  In halt mode no round of a successful run leaves a failed
  context behind, so each round adds what it did and its state.
* `History` is a process with its context after any number of calls, and
  `rollback_restores` takes it back to where it began.
-/

namespace Workflow

variable {σ : Type}

/-- The callback leads from one context to the other, whatever the host's state. -/
def Callback.Restores (callback : Callback σ) (context origin : Context σ) : Prop :=
  ∀ host, ∃ limit reply, callback.run limit context host = some reply ∧
    reply.result = .ok () ∧ reply.context = origin

/-- A call in which no callback returned an error and which left a successful
context.  So every save was accepted, since a refusal fails the context. -/
structure Segment.Succeeds (segment : Segment σ) : Prop where
  works : ∀ round ∈ segment.rounds, round.reply.result = .ok ()
  context : segment.final.context.isSuccess

namespace Graph

/-- The compensation of a node takes back what its prepare hook and its operation
did, if they succeeded. -/
def Reversible (graph : Graph σ) (node : Node σ) : Prop :=
  ∀ {limit : Nat} {context : Context σ} {host : σ} {reply : Reply σ},
    (graph.attempt node).run limit context host = some reply →
    context.isSuccess → reply.result = .ok () → reply.context.isSuccess →
    node.compensation.Restores reply.context context

/-- A process and its context after calls that succeeded, from a process that has
visited nothing and a first context.  Each call is given the process and the
context that the one before left; its signal and the host's state are free. -/
inductive History (graph : Graph σ) (origin : Context σ) : Process σ → Context σ → Prop
  | new {process : Process σ} (hvisited : process.visited = []) :
      History graph origin process origin
  | call {process : Process σ} {context : Context σ} {limit : Nat} {signal? : Option Signal}
      {host : σ} {segment : Segment σ} (hhistory : History graph origin process context)
      (hcall : graph.call limit signal? (some process) context host = some segment)
      (hsucceeds : segment.Succeeds) :
      History graph origin segment.final.process segment.final.context

/-- The compensations of the states, newest first, lead one context back to the
other. -/
def Unwinds (graph : Graph σ) (states : List StateName) (context origin : Context σ) : Prop :=
  ∀ host, ∃ limit rollback, graph.unwind limit states context host = some rollback ∧
    rollback.result = .ok () ∧ rollback.context = origin ∧ rollback.handled = states

variable {graph : Graph σ}

/-- It is enough that the rollback of a command takes back its call. -/
theorem reversible_of_command {node : Node σ} {command : Command σ}
    (hprepare : node.prepare = none) (hoperation : node.operation = some (.command command))
    (hrestores : ∀ {limit : Nat} {context : Context σ} {host : σ} {reply : Reply σ},
      command.call.run limit context host = some reply → reply.result = .ok () →
        command.rollback.Restores reply.context context) :
    graph.Reversible node := by
  intro limit context host reply hrun _ hok _
  have hwork : graph.attempt node = command.checked := by
    simp [attempt, hprepare, Node.work, hoperation, Operation.work]
  have hcompensation : node.compensation = command.rollback := by
    simp [Node.compensation, hoperation]
  rw [hwork] at hrun
  obtain ⟨called, hcall, hcalled, hcontext⟩ := Command.run_of_checked_ok hrun hok
  rw [hcompensation, ← hcontext]
  exact hrestores hcall hcalled

theorem unwinds_nil (graph : Graph σ) (context : Context σ) :
    graph.Unwinds [] context context := fun _ => ⟨0, _, rfl, rfl, rfl, rfl⟩

theorem unwinds_cons {node : Node σ} {state : StateName} {older : List StateName}
    {context between origin : Context σ} (hnode : graph.node? state = some node)
    (hrestores : node.compensation.Restores context between)
    (holder : graph.Unwinds older between origin) :
    graph.Unwinds (state :: older) context origin := by
  intro host
  obtain ⟨limit, reply, hrun, hok, rfl⟩ := hrestores host
  obtain ⟨larger, rest, hrest, hresult, hcontext, hhandled⟩ := holder reply.host
  have hreply := node.compensation.run_of_le (Nat.le_max_left limit larger) hrun
  have hunwind := unwind_of_le (Nat.le_max_right limit larger) hrest
  refine ⟨max limit larger,
    rest.behind [state] (reply.journal ++ .ofEvents [.rolledBack state]), ?_, hresult, hcontext,
    congrArg (state :: ·) hhandled⟩
  simp only [unwind, hnode, hreply, Option.bind_some, hok, hunwind, Option.map_some]

/-! ## What a run adds -/

section Runs

variable {node : Node σ} {start : Execution σ} {origin : Context σ}

/-- In halt mode the context of a round that enters its state is a successful one. -/
theorem isSuccess_of_accepts {process : Process σ} {reply : Reply σ} {signal : Signal} {host : σ}
    (hmode : graph.failureHandling = .halt)
    (haccepts : graph.Accepts node process reply signal host) : reply.context.isSuccess := by
  rcases haccepts.goes with hsuccess | hchain
  · exact hsuccess
  · simp [isChainOfCommand, hmode] at hchain

/-- One round adds its state to the history and its work to the context. -/
theorem unwinds_accept (hbuilt : graph.Built) (hmode : graph.failureHandling = .halt)
    (hreversible : ∀ node ∈ graph.nodes, graph.Reversible node) (hmem : node ∈ graph.nodes)
    {limit : Nat} {reply : Reply σ} {signal : Signal} {host : σ}
    (hrun : (graph.attempt node).run limit start.context start.host = some reply)
    (haccepts : graph.Accepts node start.process reply signal host)
    (hok : reply.result = .ok ()) (hsuccess : start.context.isSuccess)
    (hunwinds : graph.Unwinds start.process.visited.reverse start.context origin) :
    graph.Unwinds (start.process.enter node.state).visited.reverse reply.context origin := by
  have hreply := isSuccess_of_accepts hmode haccepts
  have hrestores := hreversible node hmem hrun hsuccess hok hreply
  have hvisited : (start.process.enter node.state).visited.reverse =
      node.state :: start.process.visited.reverse := List.reverse_concat ..
  rw [hvisited]
  exact unwinds_cons (hbuilt.indexed.node?_of_mem hmem) hrestores hunwinds

/-- A round that leaves a successful context enters its state. -/
theorem accepts_of_ending {process : Process σ} {reply : Reply σ} {round : Round σ}
    (hending : graph.Ending node process reply round) (hok : round.reply.result = .ok ())
    (hsuccess : round.after.context.isSuccess) :
    ∃ signal host, graph.Accepts node process reply signal host ∧
      round = graph.accept node process reply signal host := by
  cases hending with
  | interrupted hwork =>
    rw [show reply.result = .ok () from hok] at hwork
    contradiction
  | failed hwork hchoose hfailure hmode =>
    rw [Context.isSuccess, show reply.context.isFailure = true from hfailure] at hsuccess
    contradiction
  | refused => contradiction
  | entered haccepts => exact ⟨_, _, haccepts, rfl⟩

theorem unwinds_of_runs (hbuilt : graph.Built) (hmode : graph.failureHandling = .halt)
    (hreversible : ∀ node ∈ graph.nodes, graph.Reversible node) (hmem : node ∈ graph.nodes)
    {limit : Nat} {rounds : List (Round σ)} (h : graph.Runs limit node start rounds)
    (hworks : ∀ round ∈ rounds, round.reply.result = .ok ())
    (hfinal : (start.afterRounds rounds).context.isSuccess)
    (hsuccess : start.context.isSuccess)
    (hunwinds : graph.Unwinds start.process.visited.reverse start.context origin) :
    graph.Unwinds (start.afterRounds rounds).process.visited.reverse
      (start.afterRounds rounds).context origin := by
  induction h with
  | last hrun hending hlast =>
    have hok := hworks _ (List.mem_singleton_self _)
    obtain ⟨signal, host, haccepts, rfl⟩ := accepts_of_ending hending hok hfinal
    exact unwinds_accept hbuilt hmode hreversible hmem hrun haccepts hok hsuccess hunwinds
  | next hrun haccepts hnext htarget hrest ih =>
    obtain ⟨hok, hworks⟩ := List.forall_mem_cons.mp hworks
    exact ih hnext hworks hfinal (isSuccess_of_accepts hmode haccepts)
      (unwinds_accept hbuilt hmode hreversible hmem hrun haccepts hok hsuccess hunwinds)

end Runs

/-! ## A whole history -/

theorem unwinds_of_history (hbuilt : graph.Built) (hmode : graph.failureHandling = .halt)
    (hreversible : ∀ node ∈ graph.nodes, graph.Reversible node) {origin context : Context σ}
    (horigin : origin.isSuccess) {process : Process σ} (h : graph.History origin process context) :
    context.isSuccess ∧ graph.Unwinds process.visited.reverse context origin := by
  induction h with
  | new hvisited =>
    rw [hvisited]
    exact ⟨horigin, unwinds_nil graph origin⟩
  | call hhistory hcall hsucceeds ih =>
    obtain ⟨hsuccess, hunwinds⟩ := ih
    refine ⟨hsucceeds.context, ?_⟩
    cases (advance_eq_some_iff hbuilt).mp hcall with
    | entered hmem htarget hruns hlength =>
      exact unwinds_of_runs hbuilt hmode hreversible hmem hruns hsucceeds.works
        hsucceeds.context hsuccess hunwinds
    | stayed => exact hunwinds
    | invalid =>
      have hfinal := hsucceeds.context
      contradiction

/-- In halt mode a rollback takes a context back to where the workflow began, if
every node can take back what it did.  The calls may be any number, with any
signals, and they may visit a state more than once. -/
theorem rollback_restores (hbuilt : graph.Built) (hmode : graph.failureHandling = .halt)
    (hreversible : ∀ node ∈ graph.nodes, graph.Reversible node) {origin context : Context σ}
    (horigin : origin.isSuccess) {process : Process σ} (h : graph.History origin process context)
    (host : σ) :
    ∃ limit rollback, graph.rollback limit process context host = some rollback ∧
      rollback.result = .ok () ∧ rollback.context = origin ∧
      rollback.handled = process.visited.reverse := by
  obtain ⟨_, hunwinds⟩ := unwinds_of_history hbuilt hmode hreversible horigin h
  obtain ⟨limit, unwound, hunwind, hresult, hcontext, hhandled⟩ := hunwinds host
  exact ⟨limit, _, Option.map_eq_some_iff.mpr ⟨unwound, hunwind, rfl⟩, hresult, hcontext, hhandled⟩

/-- Counts up and, to take that back, down. -/
def count : Command Unit where
  name := "Count"
  requiredArgs := ["total"]
  call := .ofFunction fun context host =>
    { result := .ok (), context := context.modify .int64 "total" (· + 1), host }
  rollback := .ofFunction fun context host =>
    { result := .ok (), context := context.modify .int64 "total" (· - 1), host }

/-- The total goes up by one until it is two, and by one more for each call. -/
def countingNode : Node Unit :=
  .define ⟨"count"⟩
    [ .command count
    , .determine (.inline fun context host =>
        (if context.get .int64 "total" = some 1 then ⟨"again"⟩ else .proceed, host))
    , .signals [(⟨"again"⟩, ⟨"count"⟩), (.proceed, .wait)] ]

def countingSteps : List (Directive Unit) :=
  [.startNode [(.proceed, ⟨"count"⟩)], .addNode countingNode]

def counting : Graph Unit := (define "Counting" countingSteps).toOption.getD { name := "" }

theorem built_counting : counting.Built := ⟨"Counting", countingSteps, rfl⟩

/-- A context that counts from zero. -/
def zero : Context Unit := Context.empty.insert "total" ⟨.int64, (0 : Int64)⟩

theorem reversible_counting : ∀ node ∈ counting.nodes, counting.Reversible node := by
  have hnodes : counting.nodes =
      [(Node.new .initial).onAll [(.proceed, ⟨"count"⟩)], countingNode] := rfl
  rw [hnodes]
  refine List.forall_mem_cons.mpr ⟨?_, List.forall_mem_singleton.mpr ?_⟩
  · intro limit context host reply hrun _ _ _
    obtain rfl := Option.some.inj hrun
    exact fun _ => ⟨0, _, rfl, rfl, rfl⟩
  · refine reversible_of_command rfl rfl fun hrun _ host => ?_
    obtain rfl := Option.some.inj hrun
    exact ⟨0, _, rfl, rfl, Context.modify_modify fun total => Int64.add_sub_cancel total 1⟩

/-- The total is counted to two in one call and to three in the next, and a rollback
takes it back to zero. -/
theorem counting_rolls_back :
    ∃ first second rollback limit,
      counting.call 5 none (some .new) zero () = some first ∧
      counting.call 5 (some ⟨"again"⟩) (some first.final.process) first.final.context () =
        some second ∧
      second.final.process.visited = [⟨"count"⟩, ⟨"count"⟩, ⟨"count"⟩] ∧
      second.final.context.get .int64 "total" = some (3 : Int64) ∧
      counting.rollback limit second.final.process second.final.context () = some rollback ∧
      rollback.context = zero := by
  have hfirst : counting.call 5 none (some .new) zero () = some _ := rfl
  have hsecond : counting.call 5 (some ⟨"again"⟩) (some (.restore [⟨"count"⟩, ⟨"count"⟩]))
      (zero.insert "total" ⟨.int64, (2 : Int64)⟩) () = some _ := rfl
  have hhistory := (History.new rfl).call hfirst ⟨by decide, rfl⟩ |>.call hsecond ⟨by decide, rfl⟩
  obtain ⟨limit, rollback, hrollback, _, hcontext, _⟩ :=
    rollback_restores built_counting rfl reversible_counting rfl hhistory ()
  exact ⟨_, _, rollback, limit, hfirst, hsecond, rfl, rfl, hrollback, hcontext⟩

end Graph

end Workflow
