import Mathlib.Data.List.Nodup
import Workflow.Proofs.NestedRollback

/-!
# Nested runs of one state name

The process of a nested run is kept under the state name of its node.  A second
visit to the node, or a node of that name at another level, puts another process
in its place, and the rollback does not find the first one.

* `rollback_takes_newest_back`: of the nested runs that nodes of one state started,
  a rollback takes back the newest.
* `retraces_iff_nodup`: it takes back all of them if, and only if, no two have the
  same state name.
-/

namespace Workflow

variable {σ : Type}

/-! ## The newest run of each name -/

namespace Journey

/-- The states whose nodes ran a graph at the level of the run itself, one for each
visit. -/
def ownDelegates : Journey σ → List StateName
  | .new => []
  | .visit earlier _ => earlier.ownDelegates
  | .nested earlier node _ _ => earlier.ownDelegates ++ [node.state]

theorem mem_thin_of_mem_ownDelegates {journey : Journey σ} {state : StateName}
    {taken : List StateName} (h : state ∈ journey.ownDelegates) (hfree : state ∉ taken) :
    state ∈ (journey.thin taken).delegates := by
  induction journey generalizing taken with
  | new => contradiction
  | visit earlier node ih => exact ih h hfree
  | nested earlier node child inner ihEarlier _ =>
    simp only [ownDelegates, List.mem_append, List.mem_singleton] at h
    by_cases hmem : node.state ∈ taken
    · rw [thin, if_pos hmem]
      refine ihEarlier (h.resolve_right ?_) hfree
      rintro rfl
      exact hfree hmem
    · simp only [thin, if_neg hmem, delegates, List.mem_append, List.mem_singleton]
      by_cases hgone : state = node.state ∨ state ∈ (inner.thin (node.state :: taken)).delegates
      · exact hgone.elim .inr fun hinner => .inl (.inr hinner)
      · obtain ⟨hne, hinner⟩ := not_or.mp hgone
        exact .inl (.inl (ihEarlier (h.resolve_right hne) (by simp [hne, hinner, hfree])))

end Journey

namespace Graph

variable {nesting : Nesting σ} {graph child : Graph σ} {limit : Nat}

/-- Rolling back any calls that succeeded, however often they visited the nodes that run
a graph.  Of the runs that such a node started the rollback takes back one, the newest:
the older ones have lost their processes to it.  This is so as long as the runs taken
back are the newest ones of their names, at whatever level and in whatever run. -/
theorem rollback_takes_newest_back (hlayered : graph.Layered Node.Delegates nesting)
    {origin context : Context σ} {segments : List (Segment σ)} {process : Process σ}
    (hcalls : graph.Calls origin segments process context)
    (hundisturbed : ∀ segment ∈ segments, segment.Undisturbed nesting graph) :
    ∃ journey, graph.Tells nesting origin segments journey process context ∧
      (∀ state ∈ journey.ownDelegates, (journey.thin []).delegates.count state = 1) ∧
      (journey.EachKept (fun state inner => journey.newest state = some inner) [] →
        ∀ limit host,
          graph.SparesNested nesting limit process.visited.reverse context host →
          Option.Rel Rollback.Matches (graph.rollback limit process context host)
            ((journey.thin []).takeBack.run limit context host)) := by
  obtain ⟨journey, htells⟩ := exists_tells hlayered hcalls hundisturbed
  have hnodup := (journey.nodup_delegates_thin []).1
  refine ⟨journey, htells, fun state hstate => ?_, fun hnewest limit host hspares => ?_⟩
  · exact List.count_eq_one_of_mem hnodup
      (Journey.mem_thin_of_mem_ownDelegates hstate List.not_mem_nil)
  have hkept : journey.EachKept (fun state inner => inner.KeptAt state context) [] :=
    hnewest.mono fun _ h => (kept_of_tells htells).newest h
  have hretraces := retraces_thin htells.on hkept
    (fun state hstate => absurd hstate List.not_mem_nil) (htells.states_eq ▸ hspares)
  exact optionRel_mono (undoneBy_rollback htells.states_eq hretraces htells.on hspares)
    fun h => h.steps

/-- A walk along a street that is run through twice. -/
def streetSteps : List (Directive (List Note)) :=
  [ .startNode [(.proceed, ⟨"walk"⟩)]
  , .addNode (notingNode ⟨"walk"⟩) ]

def street : Graph (List Note) := (define "Street" streetSteps).toOption.getD { name := "" }

/-- Runs through the street until it has been walked twice. -/
def loopNode : Node (List Note) :=
  .define ⟨"street"⟩
    [ .subgraph street
    , .determine (.inline fun _ host => (if host.length < 2 then ⟨"again"⟩ else .proceed, host))
    , .on ⟨"again"⟩ ⟨"street"⟩ ]

def loopSteps : List (Directive (List Note)) :=
  [.startNode [(.proceed, ⟨"street"⟩)], .addNode loopNode]

def loop : Graph (List Note) := (define "Loop" loopSteps).toOption.getD { name := "" }

def loopNesting : Nesting (List Note) := fun node =>
  if node.state = ⟨"street"⟩ then some street else none

theorem layered_street {nesting : Nesting (List Note)}
    (hinitial : nesting ((Node.new .initial).onAll [(.proceed, ⟨"walk"⟩)]) = none)
    (hwalk : nesting (notingNode ⟨"walk"⟩) = none) :
    street.Layered Node.Delegates nesting ∧ street.Gentle nesting :=
  layered_gentle_of_others [notingNode ⟨"walk"⟩] ⟨"Street", streetSteps, rfl⟩ rfl hinitial
    (orderly_notingNode hwalk)

theorem layered_loop : loop.Layered Node.Delegates loopNesting ∧ loop.Gentle loopNesting :=
  layered_gentle_of_others [loopNode] ⟨"Loop", loopSteps, rfl⟩ rfl rfl
    (orderly_of_delegates rfl ⟨rfl, rfl⟩ rfl (layered_street rfl rfl))

/-- The street is run through twice. -/
def loopJourney : Journey (List Note) :=
  let walked := Journey.visit .new (notingNode ⟨"walk"⟩)
  .nested (.nested .new loopNode street walked) loopNode street walked

def loopSegment : Segment (List Note) := (loop.call 4 none (some .new) .empty []).get rfl

theorem call_loop : loop.call 4 none (some .new) .empty [] = some loopSegment := rfl

theorem undisturbed_loop : loopSegment.Undisturbed loopNesting loop :=
  undisturbed_of_gentle layered_loop.1 layered_loop.2 call_loop rfl

theorem tells_loop : loop.Tells loopNesting .empty [loopSegment] loopJourney
    loopSegment.final.process loopSegment.final.context :=
  have hadvances : loop.Advances 4 .proceed
      { context := .empty, process := loop.attach .new, host := [] } loopSegment :=
    (advance_eq_some_iff layered_loop.1.built).mp call_loop
  .call (.new rfl) hadvances rfl <|
    .nested rfl ⟨rfl, rfl⟩ rfl rfl ⟨4, _, rfl, rfl, rfl⟩ (.refl _) rfl rfl rfl
      (.visit rfl rfl rfl (.refl _) .nil) <|
    .nested rfl ⟨rfl, rfl⟩ rfl rfl ⟨4, _, rfl, rfl, rfl⟩ (.refl _) rfl rfl rfl
      (.visit rfl rfl rfl (.refl _) .nil) .nil

/-- The street is walked twice, and one walk is taken back. -/
theorem loop_takes_newest_back :
    loopSegment.final.host = [.done ⟨"walk"⟩, .done ⟨"walk"⟩] ∧
    ∃ rollback,
      loop.rollback 4 loopSegment.final.process loopSegment.final.context [] = some rollback ∧
      rollback.result = .ok () ∧ rollback.host = [.undone ⟨"walk"⟩] := by
  obtain ⟨journey, htells, _, hrollback⟩ := rollback_takes_newest_back layered_loop.1
    (.call (.new rfl) call_loop) (List.forall_mem_singleton.mpr undisturbed_loop)
  obtain rfl := htells.unique tells_loop
  have hmatches := hrollback ⟨rfl, trivial, trivial⟩ 4 []
    (sparesNested_of_gentle layered_loop.2)
  have hrun : loop.rollback 4 loopSegment.final.process loopSegment.final.context [] = some _ := rfl
  have htaken : (loopJourney.thin []).takeBack.run 4 loopSegment.final.context [] = some _ := rfl
  exact ⟨rfl, _, hrun, rfl, (of_optionRel hmatches hrun htaken).host⟩

/-- The walk of the first visit is lost: the rollback is not the walk back through the
whole journey. -/
theorem loop_loses_older_visit :
    loop.call 4 none (some .new) .empty [] = some loopSegment ∧
    loopSegment.Undisturbed loopNesting loop ∧
    loop.Tells loopNesting .empty [loopSegment] loopJourney loopSegment.final.process
      loopSegment.final.context ∧
    ¬ Option.Rel Rollback.Matches
      (loop.rollback 4 loopSegment.final.process loopSegment.final.context [])
      (loopJourney.takeBack.run 4 loopSegment.final.context []) := by
  refine ⟨call_loop, undisturbed_loop, tells_loop, fun hmatches => ?_⟩
  have hrun : loop.rollback 4 loopSegment.final.process loopSegment.final.context [] = some _ := rfl
  have htaken : loopJourney.takeBack.run 4 loopSegment.final.context [] = some _ := rfl
  exact absurd (of_optionRel hmatches hrun htaken).host (by decide)

/-! ## When every nested run is found -/

/-- The states whose nodes find the processes of their own runs are pairwise different,
since each takes its process out, and nothing puts another one in. -/
theorem nodup_of_retraces {journey kept : Journey σ} {context : Context σ} {host : σ}
    (h : journey.Retraces limit kept context host) (hon : journey.On nesting graph)
    (hspares : graph.SparesNested nesting limit journey.states.reverse context host)
    {rollback : Rollback σ}
    (hunwind : graph.unwind limit journey.states.reverse context host = some rollback)
    (hok : rollback.result = .ok ()) :
    kept.delegates.Nodup ∧
      ∀ state ∈ kept.delegates, context.data.get? state.subgraphKey ≠ none := by
  induction h generalizing graph rollback with
  | new => exact ⟨List.nodup_nil, fun _ hmem => by contradiction⟩
  | visit hearlier ih =>
    obtain ⟨hearlier, hnode, hown⟩ := hon
    rw [Journey.states, List.reverse_concat] at hspares hunwind
    obtain ⟨left, rest, hrun, hresult, hrest, hok⟩ := unwind_ok_cases hnode hunwind hok
    obtain ⟨hnodup, hpresent⟩ := ih hrun hresult hearlier
      (hspares.older hnode hrun hresult) hrest hok
    refine ⟨hnodup, fun state hstate => ?_⟩
    rw [← hspares.own hnode hown hrun state]
    exact hpresent state hstate
  | @found earlier kept inner keptInner node child context host hfound hretraces _ ihInner ih =>
    obtain ⟨hearlier, hnode, hchild, ⟨_, hback⟩, hinner⟩ := hon
    rw [Journey.states, List.reverse_concat] at hspares hunwind
    obtain ⟨left, rest, hrun, hresult, hrest, hok⟩ := unwind_ok_cases hnode hunwind hok
    obtain ⟨hnodup, hpresent⟩ := ih hrun hresult hearlier
      (hspares.older hnode hrun hresult) hrest hok
    have hinside := hspares.inner hnode hchild hfound
    obtain ⟨unwound, reply, hunwound, hundone, hokInner, hleft⟩ :=
      undoneBy_of_compensation hback hfound hretraces hinner hinside hrun hresult
    obtain ⟨hnodupInner, hpresentInner⟩ := ihInner hinner hinside hunwound hokInner
    rw [hleft] at hpresent
    obtain ⟨hall, hbefore⟩ :=
      hundone.nodup_nested child hokInner hnodup hpresent hnodupInner hpresentInner
    refine ⟨hall, fun state hstate => ?_⟩
    rcases List.mem_append.mp hstate with hstate | hstate
    · exact hbefore state hstate
    · obtain rfl := List.mem_singleton.mp hstate
      obtain ⟨process, hprocess, _⟩ := hfound
      intro hnone
      simp [Context.get, hnone] at hprocess
  | missed habsent _ ih =>
    obtain ⟨hearlier, hnode, hchild, ⟨_, hback⟩, _⟩ := hon
    rw [Journey.states, List.reverse_concat] at hspares hunwind
    obtain ⟨left, rest, hrun, hresult, hrest, hok⟩ := unwind_ok_cases hnode hunwind hok
    rw [run_compensation_of_absent hback habsent] at hrun
    obtain rfl := Option.some.inj hrun
    exact ih hearlier (hspares.missed hnode hback habsent) hrest hok

/-- Rolling back any calls that succeeded, if the rollback succeeds.  Each node that ran
a graph finds the process of its own run if, and only if, the state names of these
nodes are pairwise different, over all levels and all visits. -/
theorem retraces_iff_nodup (hlayered : graph.Layered Node.Delegates nesting)
    {origin context : Context σ} {segments : List (Segment σ)} {process : Process σ}
    (hcalls : graph.Calls origin segments process context)
    (hundisturbed : ∀ segment ∈ segments, segment.Undisturbed nesting graph) :
    ∃ journey, graph.Tells nesting origin segments journey process context ∧
      ∀ {limit host rollback},
        graph.SparesNested nesting limit process.visited.reverse context host →
        graph.rollback limit process context host = some rollback → rollback.result = .ok () →
          (journey.Retraces limit journey context host ↔ journey.delegates.Nodup) := by
  obtain ⟨journey, htells⟩ := exists_tells hlayered hcalls hundisturbed
  refine ⟨journey, htells, fun {limit host rollback} hspares hrollback hok => ?_⟩
  simp only [Graph.rollback, ← htells.states_eq] at hspares hrollback
  obtain ⟨unwound, hunwind, rfl⟩ := Option.map_eq_some_iff.mp hrollback
  constructor
  · exact fun hretraces => (nodup_of_retraces hretraces htells.on hspares hunwind hok).1
  · intro hnodup
    have hholds := Journey.holds_of_kept (kept_of_tells htells) hnodup
    exact retraces_of_nodup htells.on hholds hnodup hspares

/-- The states of the trip are pairwise different. -/
theorem trip_retraces :
    tripJourney.Retraces 4 tripJourney tripSegment.final.context [] := by
  obtain ⟨journey, htells, hretraces⟩ := retraces_iff_nodup layered_trip.1
    (.call (.new rfl) call_trip) (List.forall_mem_singleton.mpr undisturbed_trip)
  obtain rfl := htells.unique tells_trip
  have hrun : trip.rollback 4 tripSegment.final.process tripSegment.final.context [] = some _ := rfl
  exact (hretraces (sparesNested_of_gentle layered_trip.2) hrun rfl).mpr
    (by decide)

/-! A stay in a city, whose node there has the name of the node that ran it. -/

def citySteps : List (Directive (List Note)) :=
  [ .startNode [(.proceed, ⟨"stay"⟩)]
  , .addNode (delegatingNode ⟨"stay"⟩ street) ]

/-- A stay in a city: a walk along the street. -/
def city : Graph (List Note) := (define "City" citySteps).toOption.getD { name := "" }

def countrySteps : List (Directive (List Note)) :=
  [ .startNode [(.proceed, ⟨"stay"⟩)]
  , .addNode (delegatingNode ⟨"stay"⟩ city (some ⟨"leave"⟩))
  , .addNode (notingNode ⟨"leave"⟩) ]

/-- A stay in a country: a stay in a city, and the departure. -/
def country : Graph (List Note) := (define "Country" countrySteps).toOption.getD { name := "" }

def countryNesting : Nesting (List Note) := fun node =>
  if node.state = ⟨"stay"⟩ then
    if (node.target? .proceed).isSome then some city else some street
  else none

theorem layered_city : city.Layered Node.Delegates countryNesting ∧ city.Gentle countryNesting :=
  layered_gentle_of_others [delegatingNode ⟨"stay"⟩ street] ⟨"City", citySteps, rfl⟩ rfl rfl
    (orderly_of_delegates rfl ⟨rfl, rfl⟩ rfl (layered_street rfl rfl))

theorem layered_country :
    country.Layered Node.Delegates countryNesting ∧ country.Gentle countryNesting :=
  layered_gentle_of_others
    [delegatingNode ⟨"stay"⟩ city (some ⟨"leave"⟩), notingNode ⟨"leave"⟩]
    ⟨"Country", countrySteps, rfl⟩ rfl rfl
    ⟨orderly_of_delegates rfl ⟨rfl, rfl⟩ rfl layered_city, orderly_notingNode rfl⟩

/-- The walk is in a stay within the stay. -/
def countryJourney : Journey (List Note) :=
  let stayed := Journey.nested .new (delegatingNode ⟨"stay"⟩ street) street
    (.visit .new (notingNode ⟨"walk"⟩))
  .visit (.nested .new (delegatingNode ⟨"stay"⟩ city (some ⟨"leave"⟩)) city stayed)
    (notingNode ⟨"leave"⟩)

def countrySegment : Segment (List Note) := (country.call 4 none (some .new) .empty []).get rfl

theorem call_country : country.call 4 none (some .new) .empty [] = some countrySegment := rfl

theorem tells_country : country.Tells countryNesting .empty [countrySegment] countryJourney
    countrySegment.final.process countrySegment.final.context :=
  have hadvances : country.Advances 4 .proceed
      { context := .empty, process := country.attach .new, host := [] } countrySegment :=
    (advance_eq_some_iff layered_country.1.built).mp call_country
  .call (.new rfl) hadvances rfl <|
    .nested rfl ⟨rfl, rfl⟩ rfl rfl ⟨4, _, rfl, rfl, rfl⟩ (.refl _) rfl rfl rfl
      (.nested rfl ⟨rfl, rfl⟩ rfl rfl ⟨4, _, rfl, rfl, rfl⟩ (.refl _) rfl rfl rfl
        (.visit rfl rfl rfl (.refl _) .nil) .nil) <|
    .visit rfl rfl rfl (.refl _) .nil

/-- The walk in the city is lost: the process of the stay in the country stands in place
of the process of the stay in the city. -/
theorem country_loses_walk :
    country.call 4 none (some .new) .empty [] = some countrySegment ∧
    countrySegment.Undisturbed countryNesting country ∧
    country.Tells countryNesting .empty [countrySegment] countryJourney
      countrySegment.final.process countrySegment.final.context ∧
    ¬ countryJourney.Retraces 4 countryJourney countrySegment.final.context [] ∧
    countrySegment.final.host = [.done ⟨"walk"⟩, .done ⟨"leave"⟩] ∧
    ∃ rollback,
      country.rollback 4 countrySegment.final.process countrySegment.final.context [] =
        some rollback ∧
      rollback.result = .ok () ∧ rollback.host = [.undone ⟨"leave"⟩] := by
  refine ⟨call_country, undisturbed_of_gentle layered_country.1 layered_country.2 call_country rfl,
    tells_country, fun hretraces => ?_, rfl, _, rfl, rfl, rfl⟩
  have hunwind : country.unwind 4 countryJourney.states.reverse countrySegment.final.context [] =
    some _ := rfl
  have hnodup := nodup_of_retraces hretraces tells_country.on
    (sparesNested_of_gentle layered_country.2) hunwind rfl
  exact absurd hnodup.1 (by decide)

end Graph

end Workflow
