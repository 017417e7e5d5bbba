import Mathlib.Order.WellFoundedSet
import Workflow.Proofs.Carrying

/-!
# Calls that end

On a graph without cycles every call ends, whatever its callbacks do, as long as they
return.

* `Graph.Moves` is going from one state to another by some signal, and `Graph.Acyclic` says
  that it never leads back.  `acyclic_of_rank`: states that can be ranked have no cycles.
* `induction_of_acyclic` proves something of a node from the nodes that can come after it.
  `exists_runs_of_acyclic` is a run from a node on, and `terminates_of_acyclic` a call.
* `Segment.OncePerNode` says that a call executes no node twice.  `isChain_of_runs`: the
  executed states are moves from the state of the process on, which is not one of them.
* `Graph.Graded` is a graph without cycles whose nodes may run such graphs.
  `terminates_of_graded` is by induction on the depth, and `acyclic_calls_end` the main result.
-/

namespace Workflow

variable {σ : Type}

namespace Graph

variable {graph : Graph σ} {limit : Nat} {node : Node σ} {start : Execution σ}

/-! ## Moves -/

/-- Some signal leads from one state to the other, and does not pause. -/
def Moves (graph : Graph σ) (origin target : StateName) : Prop :=
  graph.Edge origin target ∧ target ≠ .wait

/-- No moves lead from a state back to it. -/
def Acyclic (graph : Graph σ) : Prop := ∀ state, ¬ Relation.TransGen graph.Moves state state

theorem acyclic_of_rank (rank : StateName → Nat)
    (h : ∀ node ∈ graph.nodes, ∀ transition ∈ node.transitions, transition.2 ≠ .wait →
      rank node.state < rank transition.2)
    (hbuilt : graph.Built) : graph.Acyclic := by
  have hmoves : ∀ {origin target}, graph.Moves origin target → rank origin < rank target := by
    rintro origin target ⟨⟨signal, htarget⟩, hwait⟩
    obtain ⟨node, hnode, hsignal⟩ := Option.bind_eq_some_iff.mp htarget
    obtain rfl := hbuilt.indexed.state_of_node? hnode
    exact h node (Indexed.mem_of_node? hnode) _ (Node.mem_transitions_iff.mpr hsignal) hwait
  have hpath : ∀ {origin target}, Relation.TransGen graph.Moves origin target →
      rank origin < rank target := by
    intro origin target hpath
    induction hpath with
    | single hmove => exact hmoves hmove
    | tail _ hmove ih => exact ih.trans (hmoves hmove)
  exact fun state hcycle => Nat.lt_irrefl _ (hpath hcycle)

/-- The nodes are finitely many, so the moves between them can be followed backwards. -/
theorem induction_of_acyclic (hacyclic : graph.Acyclic) {motive : Node σ → Prop}
    (hstep : ∀ node ∈ graph.nodes,
      (∀ next ∈ graph.nodes, graph.Moves node.state next.state → motive next) → motive node) :
    ∀ node ∈ graph.nodes, motive node := by
  -- Without cycles the later states are strictly ordered, and they are finitely many.
  let Later (target origin : StateName) : Prop := Relation.TransGen graph.Moves origin target
  have horder : IsStrictOrder StateName Later :=
    { irrefl := hacyclic, trans := fun _ _ _ hlast hfirst => hfirst.trans hlast }
  have hwellFounded : {state | state ∈ graph.nodes.map Node.state}.WellFoundedOn Later :=
    (List.finite_toSet _).wellFoundedOn
  intro node hmem
  refine hwellFounded.induction (P := fun state => ∀ node ∈ graph.nodes, node.state = state →
    motive node) (List.mem_map_of_mem hmem) ?_ node hmem rfl
  rintro _ _ ih node hmem rfl
  exact hstep node hmem fun next hnext hmoves =>
    ih next.state (List.mem_map_of_mem hnext) (.single hmoves) next hnext rfl

theorem moves_of_target? (hbuilt : graph.Built) (hmem : node ∈ graph.nodes) {next : Node σ}
    (hnext : next ∈ graph.nodes) {signal : Signal}
    (htarget : node.target? signal = some next.state) : graph.Moves node.state next.state :=
  ⟨⟨signal, (target?_of_mem hbuilt hmem signal).trans htarget⟩, hbuilt.indexed.ne_wait hnext⟩

/-! ## Every call ends -/

/-- All calls end, wherever they start. -/
def Terminates (graph : Graph σ) : Prop :=
  ∀ signal start, ∃ limit segment, graph.advance limit signal start = some segment

/-- The induction is on the nodes that can come after a node.  One limit has to do for all
the rounds. -/
theorem exists_runs_of_acyclic (hbuilt : graph.Built) (hacyclic : graph.Acyclic)
    (hreturns : ∀ node ∈ graph.nodes, (graph.attempt node).Returns) :
    ∀ node ∈ graph.nodes, ∀ start, ∃ limit rounds, graph.Runs limit node start rounds := by
  refine induction_of_acyclic hacyclic fun node hmem ih start => ?_
  obtain ⟨limit, hreply⟩ := hreturns node hmem start.context start.host
  obtain ⟨reply, hrun⟩ := Option.isSome_iff_exists.mp hreply
  have hending := ending_conclude hbuilt hmem start.process reply
  cases hnext : (graph.conclude node start.process reply).conclusion.next? with
  | none => exact ⟨limit, _, .last hrun hending hnext⟩
  | some next =>
    obtain ⟨signal, host, haccepts, hmem', htarget, _⟩ := ending_of_next? hbuilt hmem hending hnext
    obtain ⟨limit', rounds, hruns⟩ := ih next hmem' (moves_of_target? hbuilt hmem hmem' htarget)
      (graph.accept node start.process reply signal host).after
    exact ⟨max limit limit', _, .next ((graph.attempt node).run_of_le (Nat.le_max_left ..) hrun)
      haccepts hmem' htarget (runs_of_le (Nat.le_max_right ..) hruns)⟩

theorem terminates_of_acyclic (hbuilt : graph.Built) (hacyclic : graph.Acyclic)
    (hreturns : ∀ node ∈ graph.nodes, (graph.attempt node).Returns) : graph.Terminates := by
  intro signal start
  rcases target?_cases hbuilt start.process.state signal with hnone | hwait | ⟨node, hmem, hnode⟩
  · exact ⟨0, _, (advance_eq_some_iff hbuilt).mpr (.invalid hnone)⟩
  · exact ⟨0, _, (advance_eq_some_iff hbuilt).mpr (.stayed hwait)⟩
  · obtain ⟨limit, rounds, hruns⟩ := exists_runs_of_acyclic hbuilt hacyclic hreturns node hmem start
    exact ⟨max limit rounds.length, _, (advance_eq_some_iff hbuilt).mpr
      (.entered hmem hnode (runs_of_le (Nat.le_max_left ..) hruns) (Nat.le_max_right ..))⟩

/-! ## No node is executed twice -/

theorem isChain_of_runs (hbuilt : graph.Built) (hmem : node ∈ graph.nodes)
    {rounds : List (Round σ)} (h : graph.Runs limit node start rounds) {origin : StateName}
    (hmoves : graph.Moves origin node.state) :
    (origin :: rounds.map Round.state).IsChain graph.Moves := by
  induction h generalizing origin with
  | last _ hending =>
    obtain ⟨rfl, _⟩ := node_reply_of_ending hending
    exact .cons_cons hmoves (.singleton _)
  | next _ _ hnext htarget _ ih =>
    exact .cons_cons hmoves (ih hnext (moves_of_target? hbuilt hmem hnext htarget))

theorem nodup_of_isChain (hacyclic : graph.Acyclic) {states : List StateName}
    (h : states.IsChain graph.Moves) : states.Nodup := by
  have hpaths : states.Pairwise (Relation.TransGen graph.Moves) :=
    List.isChain_iff_pairwise.mp (h.imp fun _ _ => .single)
  refine hpaths.imp fun {first second} hpath hsame => ?_
  exact hacyclic second (hsame ▸ hpath)

end Graph

/-- A call executes nodes of its graph, none of them twice, and not that of the state where
it starts.  So it executes fewer nodes than the graph has, and visits no state twice. -/
structure Segment.OncePerNode (graph : Graph σ) (segment : Segment σ) : Prop where
  nodes : ∀ round ∈ segment.rounds, round.node ∈ graph.nodes
  executed : segment.executed.Nodup
  start : segment.start.process.state ∉ segment.executed
  length : segment.executed.length < graph.nodeCount
  visited : segment.final.process.visited = segment.start.process.visited ++ segment.visited
  distinct : segment.visited.Nodup

namespace Graph

variable {graph : Graph σ} {limit : Nat} {node : Node σ} {start : Execution σ}

theorem visited_sublist (segment : Segment σ) : segment.visited.Sublist segment.executed := by
  unfold Segment.visited Segment.executed
  induction segment.rounds with
  | nil => exact .slnil
  | cons round rounds ih =>
    cases hentered : round.conclusion.entered with
    | false =>
      rw [List.filterMap_cons_none (visited?_of_not_entered hentered)]
      exact ih.cons _
    | true =>
      have hvisited : round.visited? = some round.state := if_pos hentered
      rw [List.filterMap_cons_some hvisited]
      exact ih.cons_cons _

/-- The states that a run executes are states of the graph, and so is the one where it starts. -/
theorem length_executed_lt {rounds : List (Round σ)} {origin : StateName}
    (horigin : origin ∈ graph.nodes.map Node.state)
    (hmem : ∀ round ∈ rounds, round.node ∈ graph.nodes)
    (hnodup : (origin :: rounds.map Round.state).Nodup) : rounds.length < graph.nodeCount := by
  have hsubset : origin :: rounds.map Round.state ⊆ graph.nodes.map Node.state := by
    refine List.cons_subset.mpr ⟨horigin, fun state hstate => ?_⟩
    obtain ⟨round, hround, rfl⟩ := List.mem_map.mp hstate
    exact List.mem_map_of_mem (hmem round hround)
  have hlength := (List.subperm_of_subset hnodup hsubset).length_le
  rw [List.length_cons, List.length_map, List.length_map] at hlength
  exact hlength

theorem oncePerNode_of_advances (hbuilt : graph.Built) (hacyclic : graph.Acyclic)
    {signal : Signal} {segment : Segment σ} (h : graph.Advances limit signal start segment) :
    segment.OncePerNode graph := by
  have hvisited : segment.final.process.visited =
      segment.start.process.visited ++ segment.visited := by
    rw [start_eq_of_advances h]
    exact visited_final hbuilt h
  cases h with
  | @entered node rounds hmem htarget hruns hlength =>
    have hmoves : graph.Moves start.process.state node.state :=
      ⟨⟨signal, htarget⟩, hbuilt.indexed.ne_wait hmem⟩
    have hnodup := nodup_of_isChain hacyclic (isChain_of_runs hbuilt hmem hruns hmoves)
    -- A signal leads on only from a state that has a node, which is one more than those executed.
    obtain ⟨origin, horigin, _⟩ := Option.bind_eq_some_iff.mp htarget
    have hstart : start.process.state ∈ graph.nodes.map Node.state :=
      List.mem_map.mpr ⟨origin, Indexed.mem_of_node? horigin, hbuilt.indexed.state_of_node? horigin⟩
    have hnodes := mem_nodes_of_runs hmem hruns
    have hcount := length_executed_lt hstart hnodes hnodup
    obtain ⟨hfresh, hexecuted⟩ := List.nodup_cons.mp hnodup
    exact
      { nodes := hnodes, executed := hexecuted, start := hfresh
        length := (List.length_map _).trans_lt hcount
        visited := hvisited, distinct := (visited_sublist _).nodup hexecuted }
  | stayed | invalid =>
    obtain ⟨initial, hinitial, _⟩ := hbuilt.exists_initial
    exact
      { nodes := List.forall_mem_nil _, executed := .nil, start := List.not_mem_nil
        length := List.length_pos_of_mem hinitial
        visited := hvisited, distinct := .nil }

/-! ## Graphs that run graphs -/

/-- A graph without cycles.  Its hooks and operations return, and the graphs that its nodes run
are of the same kind, down to some that run none. -/
inductive Graded (nesting : Nesting σ) : Graph σ → Prop
  | intro {graph : Graph σ} (hbuilt : graph.Built) (hacyclic : graph.Acyclic)
      (hprepares : ∀ node ∈ graph.nodes, (graph.preparation node).Returns)
      (howns : ∀ node ∈ graph.nodes, nesting node = none → node.work.Returns)
      (hstarts : ∀ node ∈ graph.nodes, ∀ child, nesting node = some child → node.Starts child)
      (hchildren : ∀ node ∈ graph.nodes, ∀ child, nesting node = some child →
        Graded nesting child) :
      Graded nesting graph

variable {nesting : Nesting σ}

namespace Graded

theorem built (h : graph.Graded nesting) : graph.Built := by
  cases h
  assumption

theorem acyclic (h : graph.Graded nesting) : graph.Acyclic := by
  cases h
  assumption

theorem child (h : graph.Graded nesting) {node : Node σ} (hmem : node ∈ graph.nodes)
    {child : Graph σ} (hchild : nesting node = some child) : child.Graded nesting := by
  cases h with
  | intro _ _ _ _ _ hchildren => exact hchildren node hmem child hchild

end Graded

/-- Such a graph can be checked node by node. -/
theorem graded_of_nodes (hbuilt : graph.Built) (hacyclic : graph.Acyclic)
    (hprepares : ∀ node ∈ graph.nodes, (graph.preparation node).Returns)
    (h : ∀ node ∈ graph.nodes, (nesting node = none ∧ node.work.Returns) ∨
      ∃ child, nesting node = some child ∧ node.Starts child ∧ child.Graded nesting) :
    graph.Graded nesting := by
  have hchild : ∀ node ∈ graph.nodes, ∀ child, nesting node = some child →
      node.Starts child ∧ child.Graded nesting :=
    fun node hmem _ hsome => Nesting.of_child ((h node hmem).imp_left And.left) hsome
  refine .intro hbuilt hacyclic hprepares (fun node hmem hnone => ?_)
    (fun node hmem child hsome => (hchild node hmem child hsome).1)
    fun node hmem child hsome => (hchild node hmem child hsome).2
  rcases h node hmem with ⟨_, hreturns⟩ | ⟨child, hsome, _⟩
  · exact hreturns
  · rw [hnone] at hsome
    contradiction

theorem returns_attempt (hprepare : (graph.preparation node).Returns)
    (hwork : node.work.Returns) : (graph.attempt node).Returns := by
  unfold attempt
  unfold preparation at hprepare
  cases hslot : node.prepare with
  | none => exact hwork
  | some hook =>
    rw [hslot] at hprepare
    exact Callback.returns_andThen hprepare hwork

theorem returns_forward {child : Graph σ} (h : child.Terminates) (key : String) :
    (Subgraph.forward child key).Returns := by
  intro context host
  obtain ⟨limit, segment, hstart⟩ := h .proceed (child.manager none context host).execution
  have hforward : (Subgraph.forward child key).run limit context host =
      some (Subgraph.stored key segment) :=
    Option.map_eq_some_iff.mpr ⟨segment, hstart, rfl⟩
  exact ⟨limit, by rw [hforward]; rfl⟩

/-- The work of a node that runs a graph returns because the calls of that graph end. -/
theorem terminates_of_graded (h : graph.Graded nesting) : graph.Terminates := by
  induction h with
  | @intro graph hbuilt hacyclic hprepares howns hstarts _ ih =>
    refine terminates_of_acyclic hbuilt hacyclic fun node hmem => ?_
    refine returns_attempt (hprepares node hmem) ?_
    cases hchild : nesting node with
    | none => exact howns node hmem hchild
    | some child =>
      rw [hstarts node hmem child hchild]
      exact returns_forward (ih node hmem child hchild) _

/-- A call of a graph without cycles, the nodes of which may run graphs without cycles to any
depth, ends if the callbacks return: from any process, with any signal, and whatever signals
the hooks pick.  It executes each node at most once, and so does every nested run with the
nodes of its own graph. -/
theorem acyclic_calls_end (hgraded : graph.Graded nesting) (signal? : Option Signal)
    (process? : Option (Process σ)) (context : Context σ) (host : σ) :
    ∃ limit segment, graph.call limit signal? process? context host = some segment ∧
      segment.OncePerNode graph ∧
      ∀ {deeper : Graph σ} {inner : Segment σ},
        graph.Nests nesting segment.start segment.rounds deeper inner →
        inner.OncePerNode deeper := by
  obtain ⟨limit, segment, hcall⟩ := terminates_of_graded hgraded (signal?.getD .proceed)
    (graph.manager process? context host).execution
  have hadvances := (advance_eq_some_iff hgraded.built).mp hcall
  have hnodes := mem_nodes_of_advances hadvances
  refine ⟨limit, segment, hcall, oncePerNode_of_advances hgraded.built hgraded.acyclic hadvances,
    fun hnests => ?_⟩
  obtain ⟨hbelow, _, _, hinner⟩ := hnests.inherits Graded.built Graded.child hgraded hnodes
  exact oncePerNode_of_advances hbelow.built hbelow.acyclic hinner

/-! ## A hike -/

def nightSteps : List (Directive Bool) :=
  [.startNode [(.proceed, ⟨"sleep"⟩)], .addNode (.new ⟨"sleep"⟩)]

def night : Graph Bool := (define "Night" nightSteps).toOption.getD { name := "" }

/-- Where the hike goes on depends on the weather, which the host knows. -/
def fork : Node Bool :=
  .define ⟨"fork"⟩
    [ .determine (.inline fun _ fair => (⟨if fair then "up" else "down"⟩, fair))
    , .signals [(⟨"up"⟩, ⟨"ridge"⟩), (⟨"down"⟩, ⟨"valley"⟩)] ]

def hikeSteps : List (Directive Bool) :=
  [ .startNode [(.proceed, ⟨"fork"⟩)]
  , .addNode fork
  , .addNode (.define ⟨"ridge"⟩ [.on .proceed ⟨"hut"⟩])
  , .addNode (.define ⟨"valley"⟩ [.on .proceed ⟨"hut"⟩])
  , .addNode (.define ⟨"hut"⟩ [.subgraph night]) ]

/-- A hike over the ridge or through the valley to a hut, with a night there. -/
def hike : Graph Bool := (define "Hike" hikeSteps).toOption.getD { name := "" }

def hikeNesting : Nesting Bool := fun node => if node.state = ⟨"hut"⟩ then some night else none

theorem returns_skip : (Callback.skip : Callback σ).Returns := Callback.returns_ofFunction _

theorem graded_night : night.Graded hikeNesting := by
  have hbuilt : night.Built := ⟨"Night", nightSteps, rfl⟩
  have hacyclic : night.Acyclic :=
    acyclic_of_rank (fun state => (night.index.get? state.text).getD 0) (by decide) hbuilt
  have hnodes : night.nodes =
      [(Node.new .initial).onAll [(.proceed, ⟨"sleep"⟩)], .new ⟨"sleep"⟩] := rfl
  refine graded_of_nodes hbuilt hacyclic ?_ ?_ <;> rw [hnodes]
  · exact List.forall_mem_cons.mpr ⟨returns_skip, List.forall_mem_singleton.mpr returns_skip⟩
  · exact List.forall_mem_cons.mpr ⟨.inl ⟨rfl, returns_skip⟩,
      List.forall_mem_singleton.mpr (.inl ⟨rfl, returns_skip⟩)⟩

theorem graded_hike : hike.Graded hikeNesting := by
  have hbuilt : hike.Built := ⟨"Hike", hikeSteps, rfl⟩
  have hacyclic : hike.Acyclic :=
    acyclic_of_rank (fun state => (hike.index.get? state.text).getD 0) (by decide) hbuilt
  have hnodes : hike.nodes =
      [ (Node.new .initial).onAll [(.proceed, ⟨"fork"⟩)], fork
      , .define ⟨"ridge"⟩ [.on .proceed ⟨"hut"⟩], .define ⟨"valley"⟩ [.on .proceed ⟨"hut"⟩]
      , .define ⟨"hut"⟩ [.subgraph night] ] := rfl
  refine graded_of_nodes hbuilt hacyclic ?_ ?_ <;> rw [hnodes]
  · simp only [List.forall_mem_cons, List.not_mem_nil, false_implies, implies_true, and_true]
    exact ⟨returns_skip, returns_skip, returns_skip, returns_skip, returns_skip⟩
  · simp only [List.forall_mem_cons, List.not_mem_nil, false_implies, implies_true, and_true]
    exact ⟨.inl ⟨rfl, returns_skip⟩, .inl ⟨rfl, returns_skip⟩, .inl ⟨rfl, returns_skip⟩,
      .inl ⟨rfl, returns_skip⟩, .inr ⟨night, rfl, rfl, graded_night⟩⟩

/-- What the hikers do in fair weather, and how they spend the night. -/
def hiked : Segment Bool := (hike.call 4 none none .empty true).get rfl

def slept : Segment Bool := (night.start 4 .empty true).get rfl

/-- They come to the hut and spend a night there. -/
theorem hike_ends_at_hut :
    (∃ limit, hike.call limit none none .empty true = some hiked) ∧
      hiked.executed = [⟨"fork"⟩, ⟨"ridge"⟩, ⟨"hut"⟩] ∧ hiked.OncePerNode hike ∧
      hike.Nests hikeNesting hiked.start hiked.rounds night slept ∧ slept.OncePerNode night := by
  obtain ⟨limit, segment, hcall, honce, hnested⟩ :=
    acyclic_calls_end graded_hike none none .empty true
  have hends : hike.call 4 none none .empty true = some hiked := rfl
  obtain rfl : segment = hiked := Option.some.inj <|
    (call_of_le (Nat.le_max_left limit 4) hcall).symm.trans
      (call_of_le (Nat.le_max_right limit 4) hends)
  have hnight : hike.Nests hikeNesting hiked.start hiked.rounds night slept :=
    .later (.later (.child rfl ⟨4, ⟨.ok (), .empty, true, []⟩, rfl, rfl, rfl⟩))
  exact ⟨⟨limit, hcall⟩, rfl, honce, hnight, hnested hnight⟩

end Graph

end Workflow
