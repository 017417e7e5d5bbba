import Mathlib.Data.List.Basic
import Workflow.Proofs.Conditions
import Workflow.Proofs.Retracing

/-!
# Rolling nested runs back

If the nodes that ran a graph have pairwise different state names, a rollback
walks back through all levels as if they were one.

* `Callback.Gentle` and `Graph.Gentle` are the assumptions on the callbacks as a
  property of the graph, whatever the run.  `undisturbed_of_gentle` and
  `sparesNested_of_gentle`: so every run and every rollback has them.
* `nested_rollback_reverses`: a rollback runs the compensations of the executed
  nodes, of all levels, in the reverse order of their execution until one fails,
  and if none does it leaves no nested process in the context.
-/

namespace Workflow

variable {σ : Type}

/-! ## Gentle callbacks -/

/-- Whatever context the callback is given, it leaves that undisturbed. -/
def Callback.Gentle (callback : Callback σ) : Prop :=
  ∀ {limit : Nat} {context : Context σ} {host : σ} {reply : Reply σ},
    callback.run limit context host = some reply → reply.Undisturbed context

theorem Callback.gentle_ofFunction {work : Context σ → σ → Reply σ}
    (h : ∀ context host, (work context host).Undisturbed context) : (ofFunction work).Gentle :=
  fun {_ context host _} hrun => Option.some.inj hrun ▸ h context host

theorem Callback.gentle_skip : (skip : Callback σ).Gentle :=
  gentle_ofFunction fun context _ => ⟨rfl, id, .refl context⟩

/-- The callbacks of the graph, and of the graphs that its nodes run, are gentle.
Compensations may fail. -/
inductive Graph.Gentle (nesting : Nesting σ) : Graph σ → Prop
  | intro {graph : Graph σ}
      (hattempts : ∀ node ∈ graph.nodes, nesting node = none → (graph.attempt node).Gentle)
      (hpreparations : ∀ node ∈ graph.nodes, ∀ child, nesting node = some child →
        (graph.preparation node).Gentle)
      (hcompensations : ∀ node ∈ graph.nodes, nesting node = none →
        ∀ {limit context host reply}, node.compensation.run limit context host = some reply →
          context.SameNested reply.context)
      (hchildren : ∀ node ∈ graph.nodes, ∀ child, nesting node = some child →
        Gentle nesting child) :
      Gentle nesting graph

namespace Graph

variable {nesting : Nesting σ} {graph : Graph σ}

theorem Gentle.ensuresAt (h : graph.Gentle nesting) :
    ∀ node ∈ graph.nodes, graph.EnsuresAt nesting Reply.Undisturbed node := by
  induction h with
  | intro hattempts hpreparations _ _ ih =>
    intro node hmem
    cases hchild : nesting node with
    | none => exact .own hchild (hattempts node hmem hchild)
    | some child =>
      exact .nested hchild (hpreparations node hmem child hchild) (ih node hmem child hchild)

/-- A successful call of a graph with gentle callbacks is undisturbed. -/
theorem undisturbed_of_gentle {link : Node σ → Graph σ → Prop}
    (hlayered : graph.Layered link nesting) (hgentle : graph.Gentle nesting) {limit : Nat} {signal? : Option Signal} {process? : Option (Process σ)} {context : Context σ}
    {host : σ} {segment : Segment σ}
    (hcall : graph.call limit signal? process? context host = some segment)
    (hsuccess : segment.final.context.isSuccess) : segment.Undisturbed nesting graph where
  success := hsuccess
  callbacks hinvokes := by
    have hadvances := (advance_eq_some_iff hlayered.built).mp hcall
    have hensures : ∀ round ∈ segment.rounds,
        graph.EnsuresAt nesting Reply.Undisturbed round.node :=
      fun round hround => hgentle.ensuresAt _ (mem_nodes_of_advances hadvances round hround)
    rw [start_eq_of_advances hadvances] at hinvokes
    exact ensures_of_advances hlayered hadvances (List.nil_append _).symm hensures hinvokes

/-- A rollback of a graph with gentle callbacks leaves the nested processes alone. -/
theorem sparesNested_of_gentle {limit : Nat} {states : List StateName} {context : Context σ}
    {host : σ} (hgentle : graph.Gentle nesting) :
    graph.SparesNested nesting limit states context host := by
  intro given reply h
  induction h with
  | own hnode hown hrun =>
    obtain ⟨_, _, hcompensations, _⟩ := hgentle
    exact hcompensations _ (Indexed.mem_of_node? hnode) hown hrun
  | nested hnode hchild _ _ ih =>
    obtain ⟨_, _, _, hchildren⟩ := hgentle
    exact ih (hchildren _ (Indexed.mem_of_node? hnode) _ hchild)
  | older _ _ _ _ ih => exact ih hgentle
  | skipped _ _ ih => exact ih hgentle

/-- A node of a layered graph with gentle callbacks. -/
inductive Orderly (nesting : Nesting σ) (graph : Graph σ) (node : Node σ) : Prop
  | own (hown : nesting node = none) (hattempt : (graph.attempt node).Gentle)
      (hcompensation : node.compensation.Gentle)
  | nested {child : Graph σ} (hchild : nesting node = some child)
      (hdelegates : node.Delegates child) (hpreparation : (graph.preparation node).Gentle)
      (hbelow : child.Layered Node.Delegates nesting ∧ child.Gentle nesting)

/-- The layers of a graph can be checked node by node. -/
theorem layered_gentle_of_nodes (hbuilt : graph.Built)
    (h : ∀ node ∈ graph.nodes, Orderly nesting graph node) :
    graph.Layered Node.Delegates nesting ∧ graph.Gentle nesting := by
  have hlayered : graph.Layered Node.Delegates nesting := by
    refine layered_of_nodes hbuilt fun node hmem => ?_
    cases h node hmem with
    | own hnone => exact .inl hnone
    | nested hchild hdelegates _ hbelow => exact .inr ⟨_, hchild, hdelegates, hbelow.1⟩
  have hown : ∀ node ∈ graph.nodes, nesting node = none →
      (graph.attempt node).Gentle ∧ node.compensation.Gentle := by
    intro node hmem hnone
    cases h node hmem with
    | own _ hattempt hcompensation => exact ⟨hattempt, hcompensation⟩
    | nested hchild =>
      rw [hnone] at hchild
      contradiction
  have hnested : ∀ node ∈ graph.nodes, ∀ child, nesting node = some child →
      (graph.preparation node).Gentle ∧ child.Gentle nesting := by
    intro node hmem child hsome
    cases h node hmem with
    | own hnone =>
      rw [hsome] at hnone
      contradiction
    | nested hchild _ hpreparation hbelow =>
      obtain rfl := Option.some.inj (hchild.symm.trans hsome)
      exact ⟨hpreparation, hbelow.2⟩
  exact ⟨hlayered, .intro (fun node hmem hnone => (hown node hmem hnone).1)
    (fun node hmem child hchild => (hnested node hmem child hchild).1)
    (fun node hmem hnone _ _ _ _ hrun => ((hown node hmem hnone).2 hrun).nested)
    (fun node hmem child hchild => (hnested node hmem child hchild).2)⟩

/-- A node that runs such a graph without any preparation. -/
theorem orderly_of_delegates {node : Node σ} {child : Graph σ} (hchild : nesting node = some child)
    (hdelegates : node.Delegates child) (hprepare : node.prepare = none)
    (hbelow : child.Layered Node.Delegates nesting ∧ child.Gentle nesting) :
    Orderly nesting graph node := by
  refine .nested hchild hdelegates ?_ hbelow
  rw [preparation, hprepare]
  exact Callback.gentle_skip

/-- The node that a definition starts with does nothing, so it is the others that count. -/
theorem layered_gentle_of_others (others : List (Node σ)) {first : StateName} (hbuilt : graph.Built)
    (hnodes : graph.nodes = (Node.new .initial).onAll [(.proceed, first)] :: others)
    (hown : nesting ((Node.new .initial).onAll [(.proceed, first)]) = none)
    (hothers : others.Forall (Orderly nesting graph)) :
    graph.Layered Node.Delegates nesting ∧ graph.Gentle nesting := by
  refine layered_gentle_of_nodes hbuilt ?_
  rw [hnodes]
  exact List.forall_mem_cons.mpr ⟨.own hown Callback.gentle_skip Callback.gentle_skip,
    List.forall_iff_forall_mem.mp hothers⟩

/-! ## All levels at once -/

/-- Rolling back any calls that succeeded, on a graph with graphs nested in it to any
depth.  What the calls did is a journey.  Let the nodes on it that ran a graph have
pairwise different state names, and let the compensations leave the nested processes
alone.  Then the rollback does what the walk back through the journey does, and it
returns whenever the walk does. -/
theorem nested_rollback_reverses (hlayered : graph.Layered Node.Delegates nesting)
    {origin context : Context σ} {segments : List (Segment σ)} {process : Process σ}
    (hcalls : graph.Calls origin segments process context)
    (hundisturbed : ∀ segment ∈ segments, segment.Undisturbed nesting graph) :
    ∃ journey, graph.Tells nesting origin segments journey process context ∧
      journey.undo.filterMap Undo.node? = journey.nodes.reverse ∧
      journey.undo.filterMap Undo.forgotten? = journey.delegates.reverse ∧
      (journey.delegates.Nodup → ∀ limit host,
        graph.SparesNested nesting limit process.visited.reverse context host →
        Option.Rel Rollback.Matches (graph.rollback limit process context host)
          (journey.takeBack.run limit context host) ∧
        ∀ {rollback}, graph.rollback limit process context host = some rollback →
          rollback.result = .ok () → ∀ state ∈ journey.delegates,
            rollback.context.contains state.subgraphKey = false) := by
  obtain ⟨journey, htells⟩ := exists_tells hlayered hcalls hundisturbed
  refine ⟨journey, htells, journey.filterMap_node?_undo, journey.filterMap_forgotten?_undo,
    fun hnodup limit host hspares => ?_⟩
  have hholds := Journey.holds_of_kept (kept_of_tells htells) hnodup
  have hretraces := retraces_of_nodup htells.on hholds hnodup (htells.states_eq ▸ hspares)
  have hundone := undoneBy_rollback htells.states_eq hretraces htells.on hspares
  refine ⟨?_, fun hrollback hok state hstate => ?_⟩
  · exact optionRel_mono hundone fun h => h.steps
  · rw [hrollback] at hundone
    obtain ⟨reply, _, h⟩ := optionRel_some_left hundone
    rw [Context.contains, Table.contains, h.own hok state hstate, Option.isSome_none]

end Graph

/-! ## A trip -/

/-- What a node tells the host. -/
inductive Note
  | done (state : StateName)
  | undone (state : StateName)
  deriving DecidableEq

/-- Adds a note to those of the host. -/
def Note.callback (note : Note) : Callback (List Note) :=
  .ofFunction fun context host => { result := .ok (), context, host := host ++ [note] }

theorem Note.gentle (note : Note) : note.callback.Gentle :=
  Callback.gentle_ofFunction fun context _ => ⟨rfl, id, .refl context⟩

/-- A node that notes when it is executed and when it is taken back. -/
def notingNode (state : StateName) (target? : Option StateName := none) : Node (List Note) :=
  .define state
    ([.operation (Note.done state).callback, .rollback (Note.undone state).callback] ++
      (target?.map (.on .proceed)).toList)

/-- A node that runs a graph. -/
def delegatingNode (state : StateName) (child : Graph (List Note))
    (target? : Option StateName := none) : Node (List Note) :=
  .define state (.subgraph child :: (target?.map (.on .proceed)).toList)

namespace Graph

theorem orderly_notingNode {nesting : Nesting (List Note)} {graph : Graph (List Note)}
    {state : StateName} {target? : Option StateName}
    (hown : nesting (notingNode state target?) = none) :
    Orderly nesting graph (notingNode state target?) := by
  cases target? <;> exact .own hown (Note.gentle _) (Note.gentle _)

def flightSteps : List (Directive (List Note)) :=
  [ .startNode [(.proceed, ⟨"board"⟩)]
  , .addNode (notingNode ⟨"board"⟩ (some ⟨"land"⟩))
  , .addNode (notingNode ⟨"land"⟩) ]

def flight : Graph (List Note) := (define "Flight" flightSteps).toOption.getD { name := "" }

def travelSteps : List (Directive (List Note)) :=
  [ .startNode [(.proceed, ⟨"ticket"⟩)]
  , .addNode (notingNode ⟨"ticket"⟩ (some ⟨"fly"⟩))
  , .addNode (delegatingNode ⟨"fly"⟩ flight) ]

def travel : Graph (List Note) := (define "Travel" travelSteps).toOption.getD { name := "" }

def tripSteps : List (Directive (List Note)) :=
  [ .startNode [(.proceed, ⟨"pack"⟩)]
  , .addNode (notingNode ⟨"pack"⟩ (some ⟨"travel"⟩))
  , .addNode (delegatingNode ⟨"travel"⟩ travel (some ⟨"unpack"⟩))
  , .addNode (notingNode ⟨"unpack"⟩) ]

/-- A trip with a travel in it, which has a flight in it. -/
def trip : Graph (List Note) := (define "Trip" tripSteps).toOption.getD { name := "" }

def tripNesting : Nesting (List Note) := fun node =>
  if node.state = ⟨"travel"⟩ then some travel
  else if node.state = ⟨"fly"⟩ then some flight
  else none

theorem layered_flight :
    flight.Layered Node.Delegates tripNesting ∧ flight.Gentle tripNesting :=
  layered_gentle_of_others [notingNode ⟨"board"⟩ (some ⟨"land"⟩), notingNode ⟨"land"⟩]
    ⟨"Flight", flightSteps, rfl⟩ rfl rfl ⟨orderly_notingNode rfl, orderly_notingNode rfl⟩

theorem layered_travel :
    travel.Layered Node.Delegates tripNesting ∧ travel.Gentle tripNesting :=
  layered_gentle_of_others [notingNode ⟨"ticket"⟩ (some ⟨"fly"⟩), delegatingNode ⟨"fly"⟩ flight]
    ⟨"Travel", travelSteps, rfl⟩ rfl rfl
    ⟨orderly_notingNode rfl, orderly_of_delegates rfl ⟨rfl, rfl⟩ rfl layered_flight⟩

theorem layered_trip : trip.Layered Node.Delegates tripNesting ∧ trip.Gentle tripNesting :=
  layered_gentle_of_others
    [ notingNode ⟨"pack"⟩ (some ⟨"travel"⟩), delegatingNode ⟨"travel"⟩ travel (some ⟨"unpack"⟩)
    , notingNode ⟨"unpack"⟩ ]
    ⟨"Trip", tripSteps, rfl⟩ rfl rfl
    ⟨orderly_notingNode rfl, orderly_of_delegates rfl ⟨rfl, rfl⟩ rfl layered_travel,
      orderly_notingNode rfl⟩

/-- The visits of a trip. -/
def tripJourney : Journey (List Note) :=
  let flown := Journey.visit (.visit .new (notingNode ⟨"board"⟩ (some ⟨"land"⟩)))
    (notingNode ⟨"land"⟩)
  let travelled := Journey.nested (.visit .new (notingNode ⟨"ticket"⟩ (some ⟨"fly"⟩)))
    (delegatingNode ⟨"fly"⟩ flight) flight flown
  .visit (.nested (.visit .new (notingNode ⟨"pack"⟩ (some ⟨"travel"⟩)))
    (delegatingNode ⟨"travel"⟩ travel (some ⟨"unpack"⟩)) travel travelled) (notingNode ⟨"unpack"⟩)

/-- The call that makes the trip. -/
def tripSegment : Segment (List Note) := (trip.call 4 none (some .new) .empty []).get rfl

theorem call_trip : trip.call 4 none (some .new) .empty [] = some tripSegment := rfl

theorem undisturbed_trip : tripSegment.Undisturbed tripNesting trip :=
  undisturbed_of_gentle layered_trip.1 layered_trip.2 call_trip rfl

theorem tells_trip : trip.Tells tripNesting .empty [tripSegment] tripJourney
    tripSegment.final.process tripSegment.final.context :=
  have hadvances : trip.Advances 4 .proceed
      { context := .empty, process := trip.attach .new, host := [] } tripSegment :=
    (advance_eq_some_iff layered_trip.1.built).mp call_trip
  .call (.new rfl) hadvances rfl <|
    .visit rfl rfl rfl (.refl _) <|
    .nested rfl ⟨rfl, rfl⟩ rfl rfl ⟨4, _, rfl, rfl, rfl⟩ (.refl _) rfl rfl rfl
      (.visit rfl rfl rfl (.refl _) <|
        .nested rfl ⟨rfl, rfl⟩ rfl rfl ⟨4, _, rfl, rfl, rfl⟩ (.refl _) rfl rfl rfl
          (.visit rfl rfl rfl (.refl _) <| .visit rfl rfl rfl (.refl _) .nil) .nil) <|
    .visit rfl rfl rfl (.refl _) .nil

/-- The compensations of all levels run in the reverse order of the executions. -/
theorem trip_rolls_back :
    tripSegment.final.host =
      [.done ⟨"pack"⟩, .done ⟨"ticket"⟩, .done ⟨"board"⟩, .done ⟨"land"⟩, .done ⟨"unpack"⟩] ∧
    ∃ rollback,
      trip.rollback 4 tripSegment.final.process tripSegment.final.context [] = some rollback ∧
      rollback.host =
        [ .undone ⟨"unpack"⟩, .undone ⟨"land"⟩, .undone ⟨"board"⟩, .undone ⟨"ticket"⟩
        , .undone ⟨"pack"⟩ ] ∧
      rollback.context.contains (StateName.subgraphKey ⟨"travel"⟩) = false ∧
      rollback.context.contains (StateName.subgraphKey ⟨"fly"⟩) = false := by
  obtain ⟨journey, htells, _, _, hrollback⟩ := nested_rollback_reverses layered_trip.1
    (.call (.new rfl) call_trip) (List.forall_mem_singleton.mpr undisturbed_trip)
  obtain rfl := htells.unique tells_trip
  obtain ⟨hmatches, hkeys⟩ := hrollback (by decide) 4 []
    (sparesNested_of_gentle layered_trip.2)
  have hrun : trip.rollback 4 tripSegment.final.process tripSegment.final.context [] = some _ := rfl
  have htaken : tripJourney.takeBack.run 4 tripSegment.final.context [] = some _ := rfl
  exact ⟨rfl, _, hrun, (of_optionRel hmatches hrun htaken).host,
    hkeys hrun rfl ⟨"travel"⟩ (by decide), hkeys hrun rfl ⟨"fly"⟩ (by decide)⟩

end Graph

end Workflow
