import Workflow.Proofs.FailedChild

/-!
# What a run carries along

A run hands its context from callback to callback, at all levels.  What each callback and
each step of the engine keeps about it, the run keeps.

* `Graph.Nests` is the runs that the rounds of a run made, at any level.
* `Context.Carried` is a relation between a context and a later one that can be followed
  through a run, and `Segment.Respects` says that the engine's own steps have it.
* `carried_of_runs`: a run whose callbacks have the relation, and whose steps have it at
  every level, has it from its start to its end.  `carries_of_layered` is that for a call.
-/

namespace Workflow

variable {σ : Type}

namespace Graph

/-! ## Nested runs -/

/-- In the given rounds, or in a nested run that one of them made, the graph was run. -/
inductive Nests (nesting : Nesting σ) :
    Graph σ → Execution σ → List (Round σ) → Graph σ → Segment σ → Prop
  /-- The node ran a graph. -/
  | child {graph child : Graph σ} {start : Execution σ} {round : Round σ} {later : List (Round σ)}
      {inner : Segment σ} (hchild : nesting round.node = some child)
      (hruns : graph.RunsChild round.node start child inner) :
      Nests nesting graph start (round :: later) child inner
  /-- The run of that graph made the run. -/
  | deeper {graph child deeper : Graph σ} {start : Execution σ} {round : Round σ}
      {later : List (Round σ)} {inner innermost : Segment σ}
      (hchild : nesting round.node = some child)
      (hruns : graph.RunsChild round.node start child inner)
      (hnests : Nests nesting child inner.start inner.rounds deeper innermost) :
      Nests nesting graph start (round :: later) deeper innermost
  /-- A later round made the run. -/
  | later {graph deeper : Graph σ} {start : Execution σ} {round : Round σ}
      {later : List (Round σ)} {inner : Segment σ}
      (hnests : Nests nesting graph round.after later deeper inner) :
      Nests nesting graph start (round :: later) deeper inner

variable {nesting : Nesting σ} {graph deeper : Graph σ} {limit : Nat} {node : Node σ}
  {start : Execution σ} {rounds earlier later : List (Round σ)} {inner : Segment σ}

theorem invokes_append {given : Context σ} {reply : Reply σ}
    (h : graph.Invokes nesting (start.afterRounds earlier) later given reply) :
    graph.Invokes nesting start (earlier ++ later) given reply := by
  induction earlier generalizing start with
  | nil => exact h
  | cons round earlier ih => exact .later (ih h)

/-- What a nested run invokes is invoked. -/
theorem Nests.invokes (h : graph.Nests nesting start rounds deeper inner) {given : Context σ}
    {reply : Reply σ} (hinvokes : deeper.Invokes nesting inner.start inner.rounds given reply) :
    graph.Invokes nesting start rounds given reply := by
  induction h with
  | child hchild hruns => exact .nested hchild hruns hinvokes
  | deeper hchild hruns _ ih => exact .nested hchild hruns (ih hinvokes)
  | later _ ih => exact .later (ih hinvokes)

/-- What a graph hands down to the graphs that its nodes run, the graphs of all nested runs
have. -/
theorem Nests.inherits {kind : Graph σ → Prop} (hbuilt : ∀ {graph}, kind graph → graph.Built)
    (hchild : ∀ {graph}, kind graph → ∀ {node}, node ∈ graph.nodes →
      ∀ {child}, nesting node = some child → kind child)
    (h : graph.Nests nesting start rounds deeper inner) (hkind : kind graph)
    (hmem : ∀ round ∈ rounds, round.node ∈ graph.nodes) :
    kind deeper ∧ ∃ limit start, deeper.Advances limit .proceed start inner := by
  induction h with
  | child hsome hruns =>
    have hbelow := hchild hkind (List.forall_mem_cons.mp hmem).1 hsome
    exact ⟨hbelow, hruns.advances (hbuilt hbelow)⟩
  | deeper hsome hruns _ ih =>
    have hbelow := hchild hkind (List.forall_mem_cons.mp hmem).1 hsome
    obtain ⟨_, _, hadvances⟩ := hruns.advances (hbuilt hbelow)
    exact ih hbelow (mem_nodes_of_advances hadvances)
  | later _ ih => exact ih hkind (List.forall_mem_cons.mp hmem).2

theorem Nests.advances (h : graph.Nests nesting start rounds deeper inner)
    {link : Node σ → Graph σ → Prop} (hlayered : graph.Layered link nesting)
    (hmem : ∀ round ∈ rounds, round.node ∈ graph.nodes) :
    deeper.Layered link nesting ∧ ∃ limit start, deeper.Advances limit .proceed start inner :=
  h.inherits Layered.built Layered.child hlayered hmem

/-- Nodes that do their own work make no runs. -/
theorem not_nests_of_own (hown : ∀ round ∈ rounds, nesting round.node = none) :
    ¬ graph.Nests nesting start rounds deeper inner := by
  intro h
  induction h with
  | child hchild | deeper hchild =>
    rw [(List.forall_mem_cons.mp hown).1] at hchild
    contradiction
  | later _ ih => exact ih (List.forall_mem_cons.mp hown).2

end Graph

/-! ## Relations that a run carries -/

/-- A relation between a context and a later one that goes on through a run.  Keeping the
process of a nested run does not break it. -/
structure Context.Carried (rel : Context σ → Context σ → Prop) : Prop where
  refl : ∀ context, rel context context
  trans : ∀ {first second third}, rel first second → rel second third → rel first third
  insert : ∀ context key value, rel context (context.insert key value)

/-- What the engine does to the context at the end of each round has the relation, and so
has what it does if there are no rounds. -/
structure Segment.Respects (segment : Segment σ) (rel : Context σ → Context σ → Prop) : Prop where
  rounds : ∀ round ∈ segment.rounds, rel round.reply.context round.after.context
  signal : segment.rounds = [] → rel segment.start.context segment.final.context

namespace Graph

/-- The engine respects a relation in a call if the end of each round does, and so does the
record of a signal that leads nowhere. -/
theorem respects_of_advances {rel : Context σ → Context σ → Prop}
    (hcarried : Context.Carried rel) {graph : Graph σ} {limit : Nat} {signal : Signal}
    {start : Execution σ} {segment : Segment σ} (h : graph.Advances limit signal start segment)
    (hrounds : ∀ round ∈ segment.rounds, round.node ∈ graph.nodes → ∀ {process},
      graph.Ending round.node process round.reply round →
        rel round.reply.context round.after.context)
    (hinvalid : graph.target? start.process.state signal = none →
      rel start.context (start.context.recordFailure (invalidMessage signal) none)) :
    segment.Respects rel where
  rounds round hround := by
    have hmem := mem_nodes_of_advances h round hround
    cases h with
    | entered _ _ hruns _ =>
      obtain ⟨_, hending⟩ := ending_of_runs hruns hround
      exact hrounds round hround hmem hending
    | stayed | invalid => contradiction
  signal hnone := by
    cases h with
    | entered _ _ hruns _ =>
      obtain rfl : _ = [] := hnone
      contradiction
    | stayed => exact hcarried.refl start.context
    | invalid htarget => exact hinvalid htarget

/-- What this section proves of every layered graph: a call carries a relation if its
callbacks have it and the engine respects it at every level. -/
def Carries (nesting : Nesting σ) (rel : Context σ → Context σ → Prop) (graph : Graph σ) : Prop :=
  ∀ {limit : Nat} {signal : Signal} {start : Execution σ} {segment : Segment σ},
    graph.Advances limit signal start segment →
    (∀ {given : Context σ} {reply : Reply σ},
      graph.Invokes nesting start segment.rounds given reply → rel given reply.context) →
    segment.Respects rel →
    (∀ {deeper : Graph σ} {inner : Segment σ},
      graph.Nests nesting start segment.rounds deeper inner → inner.Respects rel) →
    rel start.context segment.final.context

section Carried

variable {nesting : Nesting σ} {rel : Context σ → Context σ → Prop} {graph : Graph σ} {limit : Nat}
  {node : Node σ} {start : Execution σ} {round : Round σ} {rounds later : List (Round σ)}

/-- The work of a node carries the relation, also if that is a nested run. -/
theorem carried_of_attempt (hcarried : Context.Carried rel)
    (hlayered : graph.Layered Node.Starts nesting) (hmem : node ∈ graph.nodes)
    (hchildren : ∀ child, nesting node = some child → child.Carries nesting rel)
    {reply : Reply σ}
    (hrun : (graph.attempt node).run limit start.context start.host = some reply)
    (hnode : round.node = node) (hreply : round.reply = reply)
    (hcallbacks : ∀ {given : Context σ} {reply : Reply σ},
      graph.Invokes nesting start (round :: later) given reply → rel given reply.context)
    (hnested : ∀ {deeper : Graph σ} {inner : Segment σ},
      graph.Nests nesting start (round :: later) deeper inner → inner.Respects rel) :
    rel start.context reply.context := by
  subst hnode hreply
  cases hchild : nesting round.node with
  | none => exact hcallbacks (.own hchild)
  | some child =>
    rcases runsChild_of_attempt (hlayered.linked hmem hchild) hrun with
      ⟨_, hprepared, _⟩ | ⟨prepared, inner, hprepared, hresult, hinner, _, hcontext⟩
    · exact hcallbacks (.prepared hchild hprepared)
    · have hruns : graph.RunsChild round.node start child inner :=
        ⟨limit, prepared, hprepared, hresult, hinner⟩
      have hadvances := advances_of_start (hlayered.child hmem hchild).built hinner
      have hstart := start_eq_of_advances hadvances
      have hinside : rel inner.start.context inner.final.context := by
        rw [← hstart] at hadvances
        exact hchildren child hchild hadvances
          (fun hinvokes => hcallbacks (.nested hchild hruns hinvokes))
          (hnested (.child hchild hruns)) fun hnests => hnested (.deeper hchild hruns hnests)
      rw [hstart] at hinside
      rw [hcontext]
      have hbefore : rel start.context prepared.context := hcallbacks (.prepared hchild hprepared)
      exact hcarried.trans hbefore (hcarried.trans hinside (hcarried.insert ..))

/-- Within a level the induction is on the rounds. -/
theorem carried_of_children (hcarried : Context.Carried rel)
    (hlayered : graph.Layered Node.Starts nesting)
    (hchildren : ∀ node ∈ graph.nodes, ∀ child, nesting node = some child →
      child.Carries nesting rel)
    (hmem : node ∈ graph.nodes) (hruns : graph.Runs limit node start rounds)
    (hcallbacks : ∀ {given : Context σ} {reply : Reply σ},
      graph.Invokes nesting start rounds given reply → rel given reply.context)
    (hrounds : ∀ round ∈ rounds, rel round.reply.context round.after.context)
    (hnested : ∀ {deeper : Graph σ} {inner : Segment σ},
      graph.Nests nesting start rounds deeper inner → inner.Respects rel) :
    rel start.context (start.afterRounds rounds).context := by
  induction hruns with
  | last hrun hending =>
    obtain ⟨hnode, hreply⟩ := node_reply_of_ending hending
    have hwork := carried_of_attempt hcarried hlayered hmem (hchildren _ hmem) hrun hnode hreply
      hcallbacks hnested
    rw [← hreply] at hwork
    exact hcarried.trans hwork (hrounds _ (List.mem_singleton_self _))
  | next hrun haccepts hnext htarget hrest ih =>
    have hwork := carried_of_attempt hcarried hlayered hmem (hchildren _ hmem) hrun rfl rfl
      hcallbacks hnested
    obtain ⟨hround, hlater⟩ := List.forall_mem_cons.mp hrounds
    have hafter := ih hnext (fun hinvokes => hcallbacks (.later hinvokes)) hlater
      fun hnests => hnested (.later hnests)
    exact hcarried.trans hwork (hcarried.trans hround hafter)

/-- The induction is on the depth of the nesting. -/
theorem carries_of_layered (hcarried : Context.Carried rel)
    (hlayered : graph.Layered Node.Starts nesting) : graph.Carries nesting rel := by
  induction hlayered with
  | intro hbuilt hstarts hbelow ih =>
    intro limit signal start segment hadvances hcallbacks hrespects hnested
    have hlayered := Layered.intro hbuilt hstarts hbelow
    cases hadvances with
    | entered hmem htarget hruns hlength =>
      exact carried_of_children hcarried hlayered ih hmem hruns hcallbacks hrespects.rounds hnested
    | stayed | invalid => exact hrespects.signal rfl

theorem carried_of_runs (hcarried : Context.Carried rel)
    (hlayered : graph.Layered Node.Starts nesting) (hmem : node ∈ graph.nodes)
    (hruns : graph.Runs limit node start rounds)
    (hcallbacks : ∀ {given : Context σ} {reply : Reply σ},
      graph.Invokes nesting start rounds given reply → rel given reply.context)
    (hrounds : ∀ round ∈ rounds, rel round.reply.context round.after.context)
    (hnested : ∀ {deeper : Graph σ} {inner : Segment σ},
      graph.Nests nesting start rounds deeper inner → inner.Respects rel) :
    rel start.context (start.afterRounds rounds).context := by
  refine carried_of_children hcarried hlayered ?_ hmem hruns hcallbacks hrounds hnested
  exact fun node hnode child hchild => carries_of_layered hcarried (hlayered.child hnode hchild)

end Carried

end Graph

end Workflow
