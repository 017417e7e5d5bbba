import Workflow.Proofs.Compensation
import Workflow.Proofs.Rollback

/-!
# Runs with nested runs

A node may run a whole graph, whose nodes may do so again.  This module says
what such a run did, level by level.

* `Node.Starts` is a node whose work runs a graph, `Node.RollsBack` one that rolls it back
  when undone, and `Node.Delegates` one that does both.
* `Nesting` tells which nodes run which graph.  `Graph.Layered` is a graph for
  which that is right at every level, down to graphs without nested ones.  What a run does
  asks for `Node.Starts` only, and what a rollback of it does for `Node.Delegates`.
* `Graph.Invokes` is every callback that ran at some level of a run, with the
  context it was given and the reply it left.  `Reply.Undisturbed` is what a
  run asks of all of them: no fault, no forgotten failure, and no change to the
  processes of nested runs.
* `Journey` is the visits of a run as a tree: a visit to a node that ran a graph
  holds the journey of that run.  `Graph.Recounts` ties a journey to the rounds
  of a run, and `Recounts.unique`: the rounds have no other.
* `hasJourneys_of_layered`: a successful run whose callbacks are undisturbed has a
  journey.  So each node that it executed, at any level, was visited.
* `Graph.Calls` is calls made one after the other, and `Graph.Tells` such calls
  with their journey.  `exists_tells`: there is one.
-/

namespace Workflow

variable {σ : Type}

/-! ## Nodes that run a graph -/

/-- The work of the node is a run of the child, whatever undoes the node. -/
def Node.Starts (node : Node σ) (child : Graph σ) : Prop :=
  node.work = Subgraph.forward child node.state.subgraphKey

/-- What undoes the node is a rollback of the child, whatever its work is. -/
def Node.RollsBack (node : Node σ) (child : Graph σ) : Prop :=
  node.compensation = Subgraph.backward child node.state.subgraphKey

/-- The work of the node is a run of the child, and what undoes the node is a rollback of the
child. -/
structure Node.Delegates (node : Node σ) (child : Graph σ) : Prop where
  starts : node.Starts child
  rollsBack : node.RollsBack child

/-- Which nodes run a nested graph, and which graph that is. -/
def Nesting (σ : Type) : Type := Node σ → Option (Graph σ)

/-- A built graph whose nodes are linked to the graphs that the nesting says, and so are the
nodes of those graphs, down to some that run none. -/
inductive Graph.Layered (link : Node σ → Graph σ → Prop) (nesting : Nesting σ) : Graph σ → Prop
  | intro {graph : Graph σ} (hbuilt : graph.Built)
      (hlinks : ∀ node ∈ graph.nodes, ∀ child, nesting node = some child → link node child)
      (hchildren : ∀ node ∈ graph.nodes, ∀ child, nesting node = some child →
        Layered link nesting child) :
      Layered link nesting graph

namespace Graph.Layered

variable {link : Node σ → Graph σ → Prop} {nesting : Nesting σ} {graph : Graph σ}

theorem built (h : graph.Layered link nesting) : graph.Built := by
  cases h
  assumption

theorem linked (h : graph.Layered link nesting) {node : Node σ} (hmem : node ∈ graph.nodes)
    {child : Graph σ} (hchild : nesting node = some child) : link node child := by
  cases h with
  | intro _ hlinks _ => exact hlinks node hmem child hchild

theorem child (h : graph.Layered link nesting) {node : Node σ} (hmem : node ∈ graph.nodes)
    {child : Graph σ} (hchild : nesting node = some child) : child.Layered link nesting := by
  cases h with
  | intro _ _ hchildren => exact hchildren node hmem child hchild

/-- For what a run does it does not matter how its nodes are undone. -/
theorem starts (h : graph.Layered Node.Delegates nesting) : graph.Layered Node.Starts nesting := by
  induction h with
  | intro hbuilt hlinks _ ih =>
    exact .intro hbuilt (fun node hmem child hchild => (hlinks node hmem child hchild).starts) ih

end Graph.Layered

/-- What is known of the graph that a node runs, if it runs one, is known of every graph that
it is said to run. -/
theorem Nesting.of_child {nesting : Nesting σ} {node : Node σ} {kind : Graph σ → Prop}
    (h : nesting node = none ∨ ∃ child, nesting node = some child ∧ kind child)
    {child : Graph σ} (hchild : nesting node = some child) : kind child := by
  rcases h with hnone | ⟨other, hother, hkind⟩
  · rw [hnone] at hchild
    contradiction
  · obtain rfl := Option.some.inj (hother.symm.trans hchild)
    exact hkind

/-- The layers of a graph can be checked node by node.  So a built graph is layered if no
node is said to run another one. -/
theorem Graph.layered_of_nodes {link : Node σ → Graph σ → Prop} {nesting : Nesting σ}
    {graph : Graph σ} (hbuilt : graph.Built)
    (h : ∀ node ∈ graph.nodes, nesting node = none ∨
      ∃ child, nesting node = some child ∧ link node child ∧ child.Layered link nesting) :
    graph.Layered link nesting :=
  .intro hbuilt (fun node hmem _ hchild => (Nesting.of_child (h node hmem) hchild).1)
    fun node hmem _ hchild => (Nesting.of_child (h node hmem) hchild).2

/-! ## What a callback leaves alone -/

/-- The entries under the keys of nested processes are the same. -/
def Context.SameNested (before after : Context σ) : Prop :=
  ∀ state : StateName,
    after.data.get? state.subgraphKey = before.data.get? state.subgraphKey

theorem Context.SameNested.refl (context : Context σ) : context.SameNested context :=
  fun _ => rfl

/-- A callback succeeded, and it neither replaced its context nor touched a nested
process.  Of a replaced context only this matters: a failure is not forgotten. -/
structure Reply.Undisturbed (reply : Reply σ) (given : Context σ) : Prop where
  result : reply.result = .ok ()
  failure : given.isFailure → reply.context.isFailure
  nested : given.SameNested reply.context

theorem Reply.Undisturbed.isSuccess {reply : Reply σ} {given : Context σ}
    (h : reply.Undisturbed given) (hsuccess : reply.context.isSuccess) : given.isSuccess := by
  cases hfailure : given.isFailure with
  | false => simp [Context.isSuccess, hfailure]
  | true => simp [Context.isSuccess, h.failure hfailure] at hsuccess

namespace Graph

/-! ## Callbacks at every level -/

/-- What runs at a node before its work. -/
def preparation (graph : Graph σ) (node : Node σ) : Callback σ :=
  match node.prepare with
  | some hook => graph.prepareHook hook
  | none => .skip

/-- At a node the work follows its preparation. -/
theorem attempt_eq (graph : Graph σ) (node : Node σ) :
    graph.attempt node = (graph.preparation node).andThen node.work := by
  unfold attempt preparation
  cases node.prepare with
  | none => exact (Callback.skip_andThen node.work).symm
  | some hook => rfl

/-- At a node the preparation failed, or the work ran on what it left. -/
theorem run_attempt_cases {graph : Graph σ} {node : Node σ} {limit : Nat} {context : Context σ}
    {host : σ} {reply : Reply σ} (h : (graph.attempt node).run limit context host = some reply) :
    (∃ fault, (graph.preparation node).run limit context host = some reply ∧
        reply.result = .error fault) ∨
      ∃ prepared worked, (graph.preparation node).run limit context host = some prepared ∧
        prepared.result = .ok () ∧
        node.work.run limit prepared.context prepared.host = some worked ∧
        reply = worked.after prepared := by
  rw [attempt_eq] at h
  exact Callback.run_andThen_cases h

/-- A round at a node that runs the child made this run of it. -/
def RunsChild (graph : Graph σ) (node : Node σ) (start : Execution σ) (child : Graph σ)
    (inner : Segment σ) : Prop :=
  ∃ limit prepared, (graph.preparation node).run limit start.context start.host = some prepared ∧
    prepared.result = .ok () ∧ child.start limit prepared.context prepared.host = some inner

/-- In the given rounds, or in a nested run that one of them made, a callback was
given the context and left the reply.  The hook and the operation of a node that
runs no graph count as one. -/
inductive Invokes (nesting : Nesting σ) :
    Graph σ → Execution σ → List (Round σ) → Context σ → Reply σ → Prop
  /-- The node does its own work. -/
  | own {graph : Graph σ} {start : Execution σ} {round : Round σ} {later : List (Round σ)}
      (hown : nesting round.node = none) :
      Invokes nesting graph start (round :: later) start.context round.reply
  /-- The preparation of a node that runs a graph. -/
  | prepared {graph child : Graph σ} {start : Execution σ} {round : Round σ}
      {later : List (Round σ)} {limit : Nat} {reply : Reply σ}
      (hchild : nesting round.node = some child)
      (hrun : (graph.preparation round.node).run limit start.context start.host = some reply) :
      Invokes nesting graph start (round :: later) start.context reply
  /-- A callback of the nested run. -/
  | nested {graph child : Graph σ} {start : Execution σ} {round : Round σ}
      {later : List (Round σ)} {inner : Segment σ} {given : Context σ} {reply : Reply σ}
      (hchild : nesting round.node = some child)
      (hruns : graph.RunsChild round.node start child inner)
      (hinvokes : Invokes nesting child inner.start inner.rounds given reply) :
      Invokes nesting graph start (round :: later) given reply
  /-- A callback of a later round. -/
  | later {graph : Graph σ} {start : Execution σ} {round : Round σ} {later : List (Round σ)}
      {given : Context σ} {reply : Reply σ}
      (hinvokes : Invokes nesting graph round.after later given reply) :
      Invokes nesting graph start (round :: later) given reply

end Graph

/-- A call that succeeded, and every callback that it ran at some level left the
rest of the run undisturbed. -/
structure Segment.Undisturbed (nesting : Nesting σ) (graph : Graph σ) (segment : Segment σ) :
    Prop where
  success : segment.final.context.isSuccess
  callbacks : ∀ {given : Context σ} {reply : Reply σ},
    graph.Invokes nesting segment.start segment.rounds given reply → reply.Undisturbed given

/-! ## Journeys -/

/-- The visits of a run, the newest on the outside. -/
inductive Journey (σ : Type)
  /-- Nothing was visited. -/
  | new
  /-- A node that does its own work. -/
  | visit (earlier : Journey σ) (node : Node σ)
  /-- A node that ran the child, with the journey of that run. -/
  | nested (earlier : Journey σ) (node : Node σ) (child : Graph σ) (inner : Journey σ)

namespace Journey

/-- The states visited at the level of the run itself, in order. -/
def states : Journey σ → List StateName
  | .new => []
  | .visit earlier node | .nested earlier node _ _ => earlier.states ++ [node.state]

/-- The nodes that did their own work, at all levels, in the order of execution. -/
def nodes : Journey σ → List (Node σ)
  | .new => []
  | .visit earlier node => earlier.nodes ++ [node]
  | .nested earlier _ _ inner => earlier.nodes ++ inner.nodes

/-- The states whose nodes ran a graph, at all levels, in the order in which these
runs ended. -/
def delegates : Journey σ → List StateName
  | .new => []
  | .visit earlier _ => earlier.delegates
  | .nested earlier node _ inner => earlier.delegates ++ inner.delegates ++ [node.state]

/-- The nodes of the journey are found in the graph under their states, and the
graphs that they ran are those of the nesting. -/
def On (nesting : Nesting σ) : Journey σ → Graph σ → Prop
  | .new, _ => True
  | .visit earlier node, graph =>
    earlier.On nesting graph ∧ graph.node? node.state = some node ∧ nesting node = none
  | .nested earlier node child inner, graph =>
    earlier.On nesting graph ∧ graph.node? node.state = some node ∧
      nesting node = some child ∧ node.Delegates child ∧ inner.On nesting child

end Journey

/-- From the first journey to the second one, the rounds visited the states of their
nodes.  A node that does its own work leaves the nested processes alone.  A node
that runs a graph leaves what the nested run left, with the process of that run
under its own key. -/
inductive Graph.Recounts (nesting : Nesting σ) :
    Graph σ → Execution σ → List (Round σ) → Journey σ → Journey σ → Prop
  | nil {graph : Graph σ} {start : Execution σ} {journey : Journey σ} :
      Recounts nesting graph start [] journey journey
  | visit {graph : Graph σ} {start : Execution σ} {round : Round σ} {later : List (Round σ)}
      {journey final : Journey σ}
      (hown : nesting round.node = none)
      (hnode : graph.node? round.node.state = some round.node)
      (hprocess : round.after.process = start.process.enter round.node.state)
      (hcontext : start.context.SameNested round.after.context)
      (hlater : Recounts nesting graph round.after later (.visit journey round.node) final) :
      Recounts nesting graph start (round :: later) journey final
  | nested {graph child : Graph σ} {start : Execution σ} {round : Round σ}
      {later : List (Round σ)} {journey inside final : Journey σ} {inner : Segment σ}
      (hchild : nesting round.node = some child) (hdelegates : round.node.Delegates child)
      (hnode : graph.node? round.node.state = some round.node)
      (hprocess : round.after.process = start.process.enter round.node.state)
      (hruns : graph.RunsChild round.node start child inner)
      (hgiven : start.context.SameNested inner.start.context)
      (hvisited : inner.start.process.visited = [])
      (hfinal : inner.final = inner.start.afterRounds inner.rounds)
      (hcontext : round.after.context =
        inner.final.context.insert round.node.state.subgraphKey ⟨.process, inner.final.process⟩)
      (hinner : Recounts nesting child inner.start inner.rounds .new inside)
      (hlater : Recounts nesting graph round.after later
        (.nested journey round.node child inside) final) :
      Recounts nesting graph start (round :: later) journey final

namespace Graph

variable {nesting : Nesting σ} {graph child : Graph σ} {limit : Nat}

/-! ## A round that runs a graph -/

theorem start_eq_of_advances {signal : Signal} {start : Execution σ} {segment : Segment σ}
    (h : graph.Advances limit signal start segment) : segment.start = start := by
  cases h <;> rfl

/-- A started run begins on the given context, with a process that has visited
nothing. -/
theorem advances_of_start (hbuilt : child.Built) {context : Context σ} {host : σ}
    {inner : Segment σ} (h : child.start limit context host = some inner) :
    child.Advances limit .proceed { context, process := child.attach .new, host } inner :=
  (advance_eq_some_iff hbuilt).mp h

/-- The run of a child that a node made is a run from its initial node. -/
theorem RunsChild.advances (hbuilt : child.Built) {node : Node σ} {start : Execution σ}
    {inner : Segment σ} (hruns : graph.RunsChild node start child inner) :
    ∃ limit start, child.Advances limit .proceed start inner := by
  obtain ⟨limit, prepared, _, _, hstart⟩ := hruns
  exact ⟨limit, _, advances_of_start hbuilt hstart⟩

/-- The run that a node of a layered graph made is one of a layered graph. -/
theorem advances_of_runsChild {link : Node σ → Graph σ → Prop}
    (hlayered : graph.Layered link nesting) {node : Node σ}
    (hmem : node ∈ graph.nodes) (hchild : nesting node = some child) {start : Execution σ}
    {inner : Segment σ} (hruns : graph.RunsChild node start child inner) :
    child.Layered link nesting ∧ ∃ limit start, child.Advances limit .proceed start inner :=
  ⟨hlayered.child hmem hchild, hruns.advances (hlayered.child hmem hchild).built⟩

/-- The work of a node that runs the child leaves the process of that run under the
key of the node. -/
theorem runsChild_of_attempt {node : Node σ} {start : Execution σ} {reply : Reply σ}
    (hstarts : node.Starts child)
    (hrun : (graph.attempt node).run limit start.context start.host = some reply) :
    (∃ fault, (graph.preparation node).run limit start.context start.host = some reply ∧
        reply.result = .error fault) ∨
      ∃ prepared inner,
        (graph.preparation node).run limit start.context start.host = some prepared ∧
        prepared.result = .ok () ∧
        child.start limit prepared.context prepared.host = some inner ∧
        reply.result = .ok () ∧
        reply.context = inner.final.context.insert node.state.subgraphKey
          ⟨.process, inner.final.process⟩ := by
  rcases run_attempt_cases hrun with
    hfailed | ⟨prepared, worked, hprepared, hresult, hworked, rfl⟩
  · exact .inl hfailed
  · rw [hstarts] at hworked
    obtain ⟨inner, hinner, rfl⟩ := Option.map_eq_some_iff.mp hworked
    exact .inr ⟨prepared, inner, hprepared, hresult, hinner, rfl, rfl⟩

/-! ## A successful run has a journey -/

/-- What this section proves of every layered graph: a successful segment with
undisturbed callbacks began on a successful context, and has a journey. -/
def HasJourneys (nesting : Nesting σ) (graph : Graph σ) : Prop :=
  ∀ {limit : Nat} {signal : Signal} {start : Execution σ} {segment : Segment σ},
    graph.Advances limit signal start segment → segment.Undisturbed nesting graph →
      start.context.isSuccess ∧ segment.final = start.afterRounds segment.rounds ∧
        ∀ journey, ∃ final, graph.Recounts nesting start segment.rounds journey final

section Run

variable {node : Node σ} {start : Execution σ} {reply : Reply σ} {later : List (Round σ)}

/-- If no callback failed, the work of a node succeeded. -/
theorem reply_ok_of_invokes (hlayered : graph.Layered Node.Starts nesting)
    (hmem : node ∈ graph.nodes)
    (hrun : (graph.attempt node).run limit start.context start.host = some reply)
    {round : Round σ} (hnode : round.node = node) (hreply : round.reply = reply)
    (hcallbacks : ∀ {given : Context σ} {reply : Reply σ},
      graph.Invokes nesting start (round :: later) given reply → reply.Undisturbed given) :
    reply.result = .ok () := by
  subst hnode hreply
  cases hchild : nesting round.node with
  | none => exact (hcallbacks (.own hchild)).result
  | some child =>
    rcases runsChild_of_attempt (hlayered.linked hmem hchild) hrun with
      ⟨fault, hprepared, hfault⟩ | ⟨_, _, _, _, _, hok, _⟩
    · exact (hcallbacks (.prepared hchild hprepared)).result
    · exact hok

/-- One round of such a run. -/
theorem recounts_accept (hlayered : graph.Layered Node.Delegates nesting)
    (hmem : node ∈ graph.nodes)
    (hchildren : ∀ child, nesting node = some child → child.HasJourneys nesting)
    (hrun : (graph.attempt node).run limit start.context start.host = some reply)
    {signal : Signal} {host : σ}
    (hcallbacks : ∀ {given : Context σ} {invoked : Reply σ},
      graph.Invokes nesting start (graph.accept node start.process reply signal host :: later)
        given invoked → invoked.Undisturbed given)
    (hsuccess : reply.context.isSuccess) :
    start.context.isSuccess ∧ ∀ journey, ∃ between, ∀ {final},
      graph.Recounts nesting (graph.accept node start.process reply signal host).after later
        between final →
      graph.Recounts nesting start (graph.accept node start.process reply signal host :: later)
        journey final := by
  have hnode := hlayered.built.indexed.node?_of_mem hmem
  have hok := reply_ok_of_invokes hlayered.starts hmem hrun rfl rfl hcallbacks
  cases hchild : nesting node with
  | none =>
    have hreply : reply.Undisturbed start.context := hcallbacks (.own hchild)
    exact ⟨hreply.isSuccess hsuccess, fun journey =>
      ⟨.visit journey node, fun hlater => .visit hchild hnode rfl hreply.nested hlater⟩⟩
  | some child =>
    have hdelegates := hlayered.linked hmem hchild
    rcases runsChild_of_attempt hdelegates.starts hrun with
      ⟨fault, _, hfault⟩ | ⟨prepared, inner, hprepared, hresult, hinner, _, hcontext⟩
    · rw [hok] at hfault
      contradiction
    have hruns : graph.RunsChild node start child inner :=
      ⟨limit, prepared, hprepared, hresult, hinner⟩
    have hadvances := advances_of_start (hlayered.child hmem hchild).built hinner
    have hstart := start_eq_of_advances hadvances
    have hundisturbed : inner.Undisturbed nesting child :=
      { success := by
          rw [hcontext] at hsuccess
          exact hsuccess
        callbacks := fun hinvokes => hcallbacks (.nested hchild hruns hinvokes) }
    obtain ⟨hgiven, hfinal, hjourneys⟩ := hchildren child hchild hadvances hundisturbed
    obtain ⟨inside, hinside⟩ := hjourneys .new
    have hreply : prepared.Undisturbed start.context := hcallbacks (.prepared hchild hprepared)
    refine ⟨hreply.isSuccess hgiven, fun journey =>
      ⟨.nested journey node child inside, fun hlater => ?_⟩⟩
    rw [← hstart] at hinside hfinal
    refine .nested hchild hdelegates hnode rfl hruns ?_ ?_ hfinal hcontext hinside hlater
    · rw [hstart]
      exact hreply.nested
    · rw [hstart]
      rfl

theorem recounts_of_runs (hlayered : graph.Layered Node.Delegates nesting)
    (hmem : node ∈ graph.nodes)
    (hchildren : ∀ node ∈ graph.nodes, ∀ child, nesting node = some child →
      child.HasJourneys nesting)
    {rounds : List (Round σ)} (hruns : graph.Runs limit node start rounds)
    (hcallbacks : ∀ {given : Context σ} {reply : Reply σ},
      graph.Invokes nesting start rounds given reply → reply.Undisturbed given)
    (hsuccess : (start.afterRounds rounds).context.isSuccess) :
    start.context.isSuccess ∧ ∀ journey, ∃ final,
      graph.Recounts nesting start rounds journey final := by
  induction hruns with
  | last hrun hending hlast =>
    obtain ⟨hnode, hreply⟩ := node_reply_of_ending hending
    have hok := reply_ok_of_invokes hlayered.starts hmem hrun hnode hreply hcallbacks
    rw [← hreply] at hok
    obtain ⟨signal, host, _, rfl⟩ := accepts_of_ending hending hok hsuccess
    obtain ⟨hgiven, hstep⟩ :=
      recounts_accept hlayered hmem (hchildren _ hmem) hrun hcallbacks hsuccess
    refine ⟨hgiven, fun journey => ?_⟩
    obtain ⟨final, hfinal⟩ := hstep journey
    exact ⟨final, hfinal .nil⟩
  | next hrun haccepts hnext htarget hrest ih =>
    obtain ⟨hbetween, hjourneys⟩ :=
      ih hnext (fun hinvokes => hcallbacks (.later hinvokes)) hsuccess
    obtain ⟨hgiven, hstep⟩ :=
      recounts_accept hlayered hmem (hchildren _ hmem) hrun hcallbacks hbetween
    refine ⟨hgiven, fun journey => ?_⟩
    obtain ⟨between, hround⟩ := hstep journey
    obtain ⟨final, hlater⟩ := hjourneys between
    exact ⟨final, hround hlater⟩

end Run

/-- The induction is on the depth of the nesting, and within a level on the rounds. -/
theorem hasJourneys_of_layered (hlayered : graph.Layered Node.Delegates nesting) :
    graph.HasJourneys nesting := by
  induction hlayered with
  | intro hbuilt hlinks hchildren ih =>
    intro limit signal start segment hadvances hundisturbed
    have hlayered := Layered.intro hbuilt hlinks hchildren
    cases hadvances with
    | entered hmem htarget hruns hlength =>
      obtain ⟨hsuccess, hjourneys⟩ := recounts_of_runs hlayered hmem ih hruns
        hundisturbed.callbacks hundisturbed.success
      exact ⟨hsuccess, rfl, hjourneys⟩
    | stayed => exact ⟨hundisturbed.success, rfl, fun journey => ⟨journey, .nil⟩⟩
    | invalid =>
      have hsuccess := hundisturbed.success
      contradiction

/-! ## What a journey tells of its run -/

namespace Recounts

variable {start : Execution σ} {rounds : List (Round σ)} {journey final : Journey σ}

theorem states_eq (h : graph.Recounts nesting start rounds journey final)
    (hstates : journey.states = start.process.visited) :
    final.states = (start.afterRounds rounds).process.visited := by
  induction h with
  | nil => exact hstates
  | visit _ _ hprocess _ _ ih =>
    refine ih ?_
    rw [hprocess, Journey.states, hstates]
    rfl
  | nested _ _ _ hprocess _ _ _ _ _ _ _ _ ih =>
    refine ih ?_
    rw [hprocess, Journey.states, hstates]
    rfl

theorem on (h : graph.Recounts nesting start rounds journey final)
    (hon : journey.On nesting graph) : final.On nesting graph := by
  induction h with
  | nil => exact hon
  | visit hown hnode _ _ _ ih => exact ih ⟨hon, hnode, hown⟩
  | nested hchild hdelegates hnode _ _ _ _ _ _ _ _ ihInner ih =>
    exact ih ⟨hon, hnode, hchild, hdelegates, ihInner trivial⟩

end Recounts

/-- The nested run of a round does not depend on the limit. -/
theorem RunsChild.unique {node : Node σ} {start : Execution σ} {inner inner' : Segment σ}
    (h : graph.RunsChild node start child inner) (h' : graph.RunsChild node start child inner') :
    inner = inner' := by
  obtain ⟨limit, prepared, hprepared, _, hinner⟩ := h
  obtain ⟨limit', prepared', hprepared', _, hinner'⟩ := h'
  have hle := Nat.le_max_left limit limit'
  have hle' := Nat.le_max_right limit limit'
  obtain rfl : prepared = prepared' := Option.some.inj <|
    ((graph.preparation node).run_of_le hle hprepared).symm.trans
      ((graph.preparation node).run_of_le hle' hprepared')
  exact Option.some.inj ((call_of_le hle hinner).symm.trans (call_of_le hle' hinner'))

theorem Recounts.unique {start : Execution σ} {rounds : List (Round σ)}
    {journey final other : Journey σ} (h : graph.Recounts nesting start rounds journey final)
    (h' : graph.Recounts nesting start rounds journey other) : final = other := by
  induction h generalizing other with
  | nil =>
    cases h'
    rfl
  | visit hown _ _ _ _ ih =>
    cases h' with
    | visit _ _ _ _ hlater => exact ih hlater
    | nested hchild =>
      rw [hown] at hchild
      contradiction
  | nested hchild _ _ _ hruns _ _ _ _ _ _ ihInner ih =>
    cases h' with
    | visit hown =>
      rw [hchild] at hown
      contradiction
    | nested hchild' _ _ _ hruns' _ _ _ _ hinner hlater =>
      obtain rfl := Option.some.inj (hchild.symm.trans hchild')
      obtain rfl := hruns.unique hruns'
      obtain rfl := ihInner hinner
      exact ih hlater

/-! ## Several calls -/

/-- Calls made one after the other, each on the process and the context that the one
before left, from a process that has visited nothing. -/
inductive Calls (graph : Graph σ) (origin : Context σ) :
    List (Segment σ) → Process σ → Context σ → Prop
  | new {process : Process σ} (hvisited : process.visited = []) :
      Calls graph origin [] process origin
  | call {segments : List (Segment σ)} {process : Process σ} {context : Context σ} {limit : Nat}
      {signal? : Option Signal} {host : σ} {segment : Segment σ}
      (hcalls : Calls graph origin segments process context)
      (hcall : graph.call limit signal? (some process) context host = some segment) :
      Calls graph origin (segments ++ [segment]) segment.final.process segment.final.context

/-- Such calls with the journey that their rounds made. -/
inductive Tells (nesting : Nesting σ) (graph : Graph σ) (origin : Context σ) :
    List (Segment σ) → Journey σ → Process σ → Context σ → Prop
  | new {process : Process σ} (hvisited : process.visited = []) :
      Tells nesting graph origin [] .new process origin
  | call {segments : List (Segment σ)} {journey final : Journey σ} {process : Process σ}
      {context : Context σ} {limit : Nat} {signal : Signal} {host : σ} {segment : Segment σ}
      (htells : Tells nesting graph origin segments journey process context)
      (hadvances : graph.Advances limit signal
        { context, process := graph.attach process, host } segment)
      (hfinal : segment.final = segment.start.afterRounds segment.rounds)
      (hrecounts : graph.Recounts nesting segment.start segment.rounds journey final) :
      Tells nesting graph origin (segments ++ [segment]) final segment.final.process
        segment.final.context

/-- Calls that succeeded with undisturbed callbacks have a journey. -/
theorem exists_tells (hlayered : graph.Layered Node.Delegates nesting) {origin context : Context σ}
    {segments : List (Segment σ)} {process : Process σ}
    (hcalls : graph.Calls origin segments process context)
    (hundisturbed : ∀ segment ∈ segments, segment.Undisturbed nesting graph) :
    ∃ journey, graph.Tells nesting origin segments journey process context := by
  induction hcalls with
  | new hvisited => exact ⟨.new, .new hvisited⟩
  | @call segments process context limit signal? host segment hcalls hcall ih =>
    obtain ⟨hearlier, hlast⟩ := List.forall_mem_append.mp hundisturbed
    obtain ⟨journey, htells⟩ := ih hearlier
    have hadvances := (advance_eq_some_iff hlayered.built).mp hcall
    obtain ⟨_, hfinal, hjourneys⟩ := hasJourneys_of_layered hlayered hadvances
      (List.forall_mem_singleton.mp hlast)
    obtain ⟨final, hrecounts⟩ := hjourneys journey
    rw [← start_eq_of_advances hadvances] at hfinal hrecounts
    exact ⟨final, .call htells hadvances hfinal hrecounts⟩

namespace Tells

variable {origin context : Context σ} {segments : List (Segment σ)} {journey : Journey σ}
  {process : Process σ}

theorem on (h : graph.Tells nesting origin segments journey process context) :
    journey.On nesting graph := by
  induction h with
  | new => trivial
  | call _ _ _ hrecounts ih => exact hrecounts.on ih

theorem states_eq (h : graph.Tells nesting origin segments journey process context) :
    journey.states = process.visited := by
  induction h with
  | new hvisited => exact hvisited.symm
  | call _ hadvances hfinal hrecounts ih =>
    rw [hfinal]
    refine hrecounts.states_eq ?_
    rw [ih, start_eq_of_advances hadvances]
    rfl

/-- The calls determine the journey. -/
theorem unique {other : Journey σ} {process' : Process σ} {context' : Context σ}
    (h : graph.Tells nesting origin segments journey process context)
    (h' : graph.Tells nesting origin segments other process' context') : journey = other := by
  induction h generalizing other process' context' with
  | new =>
    generalize hsegments : ([] : List (Segment σ)) = calls at h'
    cases h' with
    | new => rfl
    | call => simp at hsegments
  | @call segments journey final _ _ _ _ _ segment _ _ _ hrecounts ih =>
    generalize hsegments : segments ++ [segment] = calls at h'
    cases h' with
    | new => simp at hsegments
    | call htells' _ _ hrecounts' =>
      obtain ⟨rfl, hsegment⟩ := List.append_inj' hsegments rfl
      obtain rfl := List.singleton_inj.mp hsegment
      obtain rfl := ih htells'
      exact hrecounts.unique hrecounts'

end Tells

end Graph

end Workflow
