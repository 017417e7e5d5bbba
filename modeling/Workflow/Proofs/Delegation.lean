import Workflow.Proofs.FailedChild
import Workflow.Proofs.FailureModes

/-!
# Failures of nested runs

A graph that runs a graph that runs a graph, and so on: when the innermost run fails,
every run above it stops with that failure and adds nothing to it.

* `Graph.Reaches` is the accepted rounds of a run up to a node, and `follow_of_reaches` a
  run that ends with the round at that node.
* `Handover` is a run that comes to a node which runs a child, and `Handover.Occurs` says
  so.  `stops_of_failure`: if the run of the child fails, that run stops at the node.
* `Graph.Descends` is a chain of handovers down to an innermost run.
* `nested_failure_reported_once` follows its failure back up, by induction on the chain.
-/

namespace Workflow

variable {σ : Type}

namespace Graph

variable {graph : Graph σ} {limit larger : Nat} {node next : Node σ} {start reached : Execution σ}
  {earlier : List (Round σ)}

/-! ## Coming to a node -/

/-- The rounds lead from a node to another one, within the limit. -/
inductive Reaches (graph : Graph σ) (limit : Nat) :
    Node σ → Execution σ → List (Round σ) → Node σ → Execution σ → Prop
  | here {node : Node σ} {start : Execution σ} : Reaches graph limit node start [] node start
  | next {node next target : Node σ} {start reached : Execution σ} {round : Round σ}
      {earlier : List (Round σ)} (hround : graph.round limit node start = some round)
      (hnext : round.conclusion.next? = some next)
      (hrest : Reaches graph limit next round.after earlier target reached) :
      Reaches graph limit node start (round :: earlier) target reached

theorem reaches_of_le (hle : limit ≤ larger)
    (h : graph.Reaches limit node start earlier next reached) :
    graph.Reaches larger node start earlier next reached := by
  induction h with
  | here => exact .here
  | next hround hnext _ ih => exact .next (round_of_le hle hround) hnext ih

/-- All the rounds on the way entered their states. -/
theorem visited_of_reaches (hbuilt : graph.Built) (hmem : node ∈ graph.nodes)
    (h : graph.Reaches limit node start earlier next reached) :
    next ∈ graph.nodes ∧ earlier.filterMap Round.visited? = earlier.map Round.state := by
  induction h with
  | here => exact ⟨hmem, rfl⟩
  | next hround hnext hrest ih =>
    obtain ⟨_, _, hending⟩ := (round_eq_some_iff hbuilt hmem).mp hround
    obtain ⟨_, _, _, hmem', _, rfl⟩ := ending_of_next? hbuilt hmem hending hnext
    obtain ⟨htarget, hvisited⟩ := ih hmem'
    refine ⟨htarget, ?_⟩
    rw [List.filterMap_cons_some (visited?_accept ..), hvisited]
    rfl

/-- A run that comes to a node and ends there. -/
theorem follow_of_reaches (h : graph.Reaches limit node start earlier next reached)
    {round : Round σ} (hround : graph.round limit next reached = some round)
    (hlast : round.conclusion.next? = none) :
    graph.follow limit (earlier.length + 1) node start =
      { rounds := earlier ++ [round], complete := true } := by
  induction h with
  | here => exact follow_of_last hround hlast (Nat.succ_pos _)
  | next hfirst hnext _ ih =>
    rw [List.length_cons, follow_of_next hfirst hnext, ih hround]
    rfl

theorem advance_of_reaches (hbuilt : graph.Built) {signal : Signal} (hmem : node ∈ graph.nodes)
    (htarget : graph.target? start.process.state signal = some node.state)
    (h : graph.Reaches limit node start earlier next reached) {round : Round σ}
    (hround : graph.round limit next reached = some round)
    (hlast : round.conclusion.next? = none) (hlength : earlier.length < limit) :
    graph.advance limit signal start =
      some { graph := graph.name, signal, start, route := .enter node
             rounds := earlier ++ [round] } := by
  have hfollow := follow_of_reaches h hround hlast
  have hlarger : graph.follow limit limit node start =
      { rounds := earlier ++ [round], complete := true } := by
    rw [follow_of_le (Nat.le_refl limit) hlength (by rw [hfollow]), hfollow]
  rw [advance, route_of_mem hbuilt hmem htarget]
  simp only [hlarger, if_true]

/-! ## The round that runs the child -/

/-- The work of a node runs on what its preparation left. -/
theorem run_attempt_of_prepared {context : Context σ} {host : σ} {prepared worked : Reply σ}
    (hprepared : (graph.preparation node).run limit context host = some prepared)
    (hok : prepared.result = .ok ())
    (hworked : node.work.run limit prepared.context prepared.host = some worked) :
    (graph.attempt node).run limit context host = some (worked.after prepared) := by
  rw [attempt_eq]
  simp only [Callback.andThen, hprepared, Option.bind_some, hok, hworked, Option.map_some]

end Graph

/-- A run of a graph that executed some rounds and then came to a node, which hands its
context over to a run of a child. -/
structure Handover (σ : Type) where
  graph : Graph σ
  signal : Signal
  start : Execution σ
  earlier : List (Round σ)
  node : Node σ
  child : Graph σ
  /-- Where the run of the child starts. -/
  given : Execution σ

namespace Handover

/-- The graph is in halt mode, its run gets to the node, and the node starts the child on
what its preparation left.  How the node is undone does not matter. -/
structure Occurs (handover : Handover σ) : Prop where
  built : handover.graph.Built
  mode : handover.graph.failureHandling = .halt
  starts : handover.node.Starts handover.child
  reaches : ∃ limit, ∃ first ∈ handover.graph.nodes, ∃ reached prepared,
    handover.graph.target? handover.start.process.state handover.signal = some first.state ∧
      handover.graph.Reaches limit first handover.start handover.earlier handover.node reached ∧
      (handover.graph.preparation handover.node).run limit reached.context reached.host =
        some prepared ∧
      prepared.result = .ok () ∧
      handover.given =
        { context := prepared.context, process := handover.child.attach .new
          host := prepared.host }

/-- The run executes the node as the last one and returns, but the node is not among the
states that it visited. -/
def Stops (handover : Handover σ) : Prop :=
  ∃ limit segment round,
    handover.graph.advance limit handover.signal handover.start = some segment ∧
      segment.rounds = handover.earlier ++ [round] ∧ round.node = handover.node ∧
      segment.final.process.visited =
        handover.start.process.visited ++ handover.earlier.map Round.state

/-- The context has the process of the child's run under the key of the node. -/
def KeptIn (handover : Handover σ) (context : Context σ) : Prop :=
  ∃ limit inner, handover.child.advance limit .proceed handover.given = some inner ∧
    context.get .process handover.node.state.subgraphKey = some inner.final.process

/-- If the run of the child fails, the run that started it stops at the node.  It leaves
what the run of the child left, with the process of that. -/
theorem stops_of_failure {handover : Handover σ} (h : handover.Occurs) {limit : Nat}
    {inner : Segment σ}
    (hinner : handover.child.advance limit .proceed handover.given = some inner)
    (hfailure : inner.final.context.isFailure) :
    handover.Stops ∧ ∃ larger segment,
      handover.graph.advance larger handover.signal handover.start = some segment ∧
        segment.final.context = inner.final.context.insert handover.node.state.subgraphKey
          ⟨.process, inner.final.process⟩ := by
  obtain ⟨hbuilt, hmode, hstarts, short, first, hfirst, reached, prepared, htarget, hreaches,
    hprepared, hok, hgiven⟩ := h
  obtain ⟨hmem, hvisited⟩ := Graph.visited_of_reaches hbuilt hfirst hreaches
  -- one limit for the rounds before, the preparation, the child and the number of rounds
  obtain ⟨larger, hshort, hlimit, hlength⟩ : ∃ larger, short ≤ larger ∧ limit ≤ larger ∧
      handover.earlier.length < larger :=
    ⟨max short (max limit (handover.earlier.length + 1)), by omega⟩
  have hwork : handover.node.work.run larger prepared.context prepared.host =
      some (Subgraph.stored handover.node.state.subgraphKey inner) := by
    rw [hstarts]
    rw [hgiven] at hinner
    exact Option.map_eq_some_iff.mpr ⟨inner, Graph.advance_of_le hlimit hinner, rfl⟩
  have hprepares := (handover.graph.preparation handover.node).run_of_le hshort hprepared
  have hrun := Graph.run_attempt_of_prepared hprepares hok hwork
  obtain ⟨round, hround, hending⟩ : ∃ round,
      handover.graph.round larger handover.node reached = some round ∧
      handover.graph.Ending handover.node reached.process
        ((Subgraph.stored handover.node.state.subgraphKey inner).after prepared) round :=
    ⟨_, Option.map_eq_some_iff.mpr ⟨_, hrun, rfl⟩, Graph.ending_conclude hbuilt hmem ..⟩
  obtain ⟨hstays, hcontext, _⟩ := Graph.stays_of_failure hmode hending rfl hfailure
  have hlast := Conclusion.next?_of_not_entered hstays
  have hadvance := Graph.advance_of_reaches hbuilt hfirst htarget
    (Graph.reaches_of_le hshort hreaches) hround hlast hlength
  have hprocess := Graph.visited_final hbuilt ((Graph.advance_eq_some_iff hbuilt).mp hadvance)
  rw [Segment.visited, List.filterMap_append, hvisited,
    List.filterMap_cons_none (Graph.visited?_of_not_entered hstays), List.filterMap_nil,
    List.append_nil] at hprocess
  refine ⟨⟨larger, _, round, hadvance, rfl, (Graph.node_reply_of_ending hending).1, hprocess⟩,
    larger, _, hadvance, ?_⟩
  rw [Segment.final, Graph.afterRounds_concat, hcontext]
  rfl

end Handover

namespace Graph

/-- A run hands over to the run of a child, that to one of its own, and so on down to an
innermost run, which returns. -/
inductive Descends : Graph σ → Signal → Execution σ → List (Handover σ) → Segment σ → Prop
  | innermost {graph : Graph σ} {signal : Signal} {start : Execution σ} {limit : Nat}
      {segment : Segment σ} (hreturns : graph.advance limit signal start = some segment) :
      Descends graph signal start [] segment
  | handover {handover : Handover σ} {deeper : List (Handover σ)} {innermost : Segment σ}
      (hoccurs : handover.Occurs)
      (hbelow : Descends handover.child .proceed handover.given deeper innermost) :
      Descends handover.graph handover.signal handover.start (handover :: deeper) innermost

/-- The induction is on the depth.  The run of each level returns because that of its
child does, and inserting the process of the child is all that it does to the context. -/
theorem returns_of_descends {graph : Graph σ} {signal : Signal} {start : Execution σ}
    {handovers : List (Handover σ)} {innermost : Segment σ}
    (h : Descends graph signal start handovers innermost)
    (hfailure : innermost.final.context.isFailure) :
    ∃ limit segment, graph.advance limit signal start = some segment ∧
      segment.final.context.failure = innermost.final.context.failure ∧
      (∀ handover ∈ handovers, handover.Stops) ∧
      ((handovers.map (·.node.state)).Nodup →
        ∀ handover ∈ handovers, handover.KeptIn segment.final.context) := by
  induction h with
  | innermost hreturns =>
    exact ⟨_, _, hreturns, rfl, List.forall_mem_nil _, fun _ => List.forall_mem_nil _⟩
  | @handover handover deeper innermost hoccurs _ ih =>
    obtain ⟨limit, inner, hinner, hsame, hstops, hkept⟩ := ih hfailure
    have hfailed : inner.final.context.isFailure := by
      rw [Context.isFailure, hsame]
      exact hfailure
    obtain ⟨hstop, larger, segment, hadvance, hcontext⟩ :=
      Handover.stops_of_failure hoccurs hinner hfailed
    refine ⟨larger, segment, hadvance, ?_, List.forall_mem_cons.mpr ⟨hstop, hstops⟩, ?_⟩
    · rw [hcontext, Context.failure_insert, hsame]
    · intro hnodup
      obtain ⟨hfresh, hnodup⟩ := List.nodup_cons.mp hnodup
      refine List.forall_mem_cons.mpr ⟨⟨limit, inner, hinner, ?_⟩, ?_⟩
      · rw [hcontext]
        exact Context.get_insert_self ..
      · intro lower hlower
        obtain ⟨within, run, hrun, hprocess⟩ := hkept hnodup lower hlower
        refine ⟨within, run, hrun, ?_⟩
        have hkey : handover.node.state.subgraphKey ≠ lower.node.state.subgraphKey := by
          intro hsameKey
          have hstate := StateName.subgraphKey_injective hsameKey
          exact hfresh (List.mem_map.mpr ⟨lower, hlower, hstate.symm⟩)
        rw [hcontext, Context.get_insert, if_neg hkey]
        exact hprocess

/-- A call of a graph that delegates to a graph that delegates, to any depth, the
delegating graphs in halt mode.  If the innermost run ends failed, for whatever reason, the
call returns, and its context has the message and the exception that this run left.  Each
level stopped at its delegating node without visiting it.  If the delegating states are
pairwise different, the context has the process of the run that each of them started. -/
theorem nested_failure_reported_once {graph : Graph σ} {signal? : Option Signal}
    {process? : Option (Process σ)} {context : Context σ} {host : σ}
    {handovers : List (Handover σ)} {innermost : Segment σ}
    (hdescends : Descends graph (signal?.getD .proceed)
      { context, process := graph.attach (process?.getD .new), host } handovers innermost)
    (hfailure : innermost.final.context.isFailure) :
    ∃ limit segment, graph.call limit signal? process? context host = some segment ∧
      segment.final.context.message = innermost.final.context.message ∧
      segment.final.context.exception = innermost.final.context.exception ∧
      (∀ handover ∈ handovers, handover.Stops) ∧
      ((handovers.map (·.node.state)).Nodup →
        ∀ handover ∈ handovers, handover.KeptIn segment.final.context) := by
  obtain ⟨limit, segment, hcall, hsame, hstops, hkept⟩ := returns_of_descends hdescends hfailure
  refine ⟨limit, segment, hcall, ?_, ?_, hstops, hkept⟩
  · rw [Context.message, hsame, Context.message]
  · rw [Context.exception, hsame, Context.exception]

/-! ## A festival -/

def stageSteps : List (Directive (List Note)) :=
  [ .startNode [(.proceed, ⟨"light"⟩)]
  , .addNode (.define ⟨"light"⟩ [.operation (.raise (.text "no power"))]) ]

def stage : Graph (List Note) := (define "Stage" stageSteps).toOption.getD { name := "" }

def concertSteps : List (Directive (List Note)) :=
  [ .startNode [(.proceed, ⟨"tune"⟩)]
  , .addNode (notingNode ⟨"tune"⟩ (some ⟨"play"⟩))
  , .addNode (delegatingNode ⟨"play"⟩ stage) ]

def concert : Graph (List Note) := (define "Concert" concertSteps).toOption.getD { name := "" }

def festivalSteps : List (Directive (List Note)) :=
  [ .startNode [(.proceed, ⟨"open"⟩)]
  , .addNode (notingNode ⟨"open"⟩ (some ⟨"evening"⟩))
  , .addNode (delegatingNode ⟨"evening"⟩ concert (some ⟨"close"⟩))
  , .addNode (notingNode ⟨"close"⟩) ]

/-- A festival with a concert in the evening, for which the stage has no light. -/
def festival : Graph (List Note) := (define "Festival" festivalSteps).toOption.getD { name := "" }

/-- From the festival to the concert. -/
def eveningHandover : Handover (List Note) where
  graph := festival
  signal := .proceed
  start := { context := .empty, process := festival.attach .new, host := [] }
  earlier := ((festival.call 4 none none .empty []).get rfl).rounds.take 1
  node := delegatingNode ⟨"evening"⟩ concert (some ⟨"close"⟩)
  child := concert
  given :=
    { context := .empty, process := concert.attach .new, host := [.done ⟨"open"⟩] }

/-- From the concert to the stage. -/
def playHandover : Handover (List Note) where
  graph := concert
  signal := .proceed
  start := eveningHandover.given
  earlier := ((concert.start 4 .empty [.done ⟨"open"⟩]).get rfl).rounds.take 1
  node := delegatingNode ⟨"play"⟩ stage
  child := stage
  given :=
    { context := .empty, process := stage.attach .new
      host := [.done ⟨"open"⟩, .done ⟨"tune"⟩] }

/-- The run of the stage. -/
def stageSegment : Segment (List Note) :=
  (stage.advance 4 .proceed playHandover.given).get rfl

theorem evening_occurs : eveningHandover.Occurs where
  built := ⟨"Festival", festivalSteps, rfl⟩
  mode := rfl
  starts := rfl
  reaches := ⟨4, notingNode ⟨"open"⟩ (some ⟨"evening"⟩), List.mem_cons_of_mem _ List.mem_cons_self,
    _, _, rfl, .next rfl rfl .here, rfl, rfl, rfl⟩

theorem play_occurs : playHandover.Occurs where
  built := ⟨"Concert", concertSteps, rfl⟩
  mode := rfl
  starts := rfl
  reaches := ⟨4, notingNode ⟨"tune"⟩ (some ⟨"play"⟩), List.mem_cons_of_mem _ List.mem_cons_self,
    _, _, rfl, .next rfl rfl .here, rfl, rfl, rfl⟩

/-- The stage fails, and it is the stage that is reported. -/
theorem festival_reports_stage :
    ∃ limit segment, festival.call limit none none .empty [] = some segment ∧
      segment.final.context.message = some "Unhandled exception Stage: no power" ∧
      segment.final.context.exception = some (.text "no power") ∧
      eveningHandover.Stops ∧ playHandover.Stops ∧
      eveningHandover.KeptIn segment.final.context ∧ playHandover.KeptIn segment.final.context := by
  have hstage : stage.advance 4 .proceed playHandover.given = some stageSegment := rfl
  have hdescends : Descends festival ((none : Option Signal).getD .proceed)
      { context := .empty, process := festival.attach ((none : Option (Process _)).getD .new)
        host := [] }
      [eveningHandover, playHandover] stageSegment :=
    .handover evening_occurs (.handover play_occurs (.innermost hstage))
  obtain ⟨limit, segment, hcall, hmessage, hexception, hstops, hkept⟩ :=
    nested_failure_reported_once hdescends rfl
  have hevening : eveningHandover ∈ [eveningHandover, playHandover] := List.mem_cons_self
  have hplay : playHandover ∈ [eveningHandover, playHandover] :=
    List.mem_cons_of_mem _ List.mem_cons_self
  have hnodup : ([eveningHandover, playHandover].map (·.node.state)).Nodup := by decide
  exact ⟨limit, segment, hcall, hmessage, hexception, hstops _ hevening, hstops _ hplay,
    hkept hnodup _ hevening, hkept hnodup _ hplay⟩

end Graph

end Workflow
