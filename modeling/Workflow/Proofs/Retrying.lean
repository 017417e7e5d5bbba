import Workflow.Proofs.NestedRollback
import Workflow.Proofs.ReverseWalk

/-!
# Rolling back a second time

Undoing a node that ran a graph takes the process of that run out of the context, and then
rolls the run back.  If a compensation of the run fails, the process is not put back.

* `Callback.StoresNothing` says that a callback puts nothing under a key.
* `run_compensations_over`: a node whose process is gone is passed over, with all that its
  run did.
* `failed_rollback_loses_child`: so a second rollback of the parent comes neither to the
  compensation that failed nor to those that it kept from running.
-/

namespace Workflow

variable {σ : Type}

/-! ## A key without a value -/

/-- A key that has no value has none afterwards. -/
def Callback.StoresNothing (callback : Callback σ) (key : String) : Prop :=
  ∀ ⦃limit context host reply⦄, callback.run limit context host = some reply →
    context.contains key = false → reply.context.contains key = false

theorem Context.contains_eq_false_iff {context : Context σ} {key : String} :
    context.contains key = false ↔ context.data.get? key = none := by
  simp only [contains, Table.contains, Option.isSome_eq_false_iff, Option.isNone_iff_eq_none]

theorem Context.contains_erase_self (context : Context σ) (key : String) :
    (context.erase key).contains key = false :=
  contains_eq_false_iff.mpr (Table.get?_erase_self ..)

namespace Callback

variable {key : String}

theorem storesNothing_skip : (skip : Callback σ).StoresNothing key := by
  intro _ context host _ hrun habsent
  obtain rfl := Option.some.inj hrun
  exact habsent

theorem StoresNothing.andThen {first second : Callback σ} (hfirst : first.StoresNothing key)
    (hsecond : second.StoresNothing key) : (first.andThen second).StoresNothing key := by
  intro limit context host reply hrun habsent
  rcases run_andThen_cases hrun with
    ⟨_, hfailed, _⟩ | ⟨earlier, later, hearlier, _, hlater, rfl⟩
  · exact hfirst hfailed habsent
  · have hleft := hsecond hlater (hfirst hearlier habsent)
    exact hleft

theorem storesNothing_inOrder {callbacks : List (Callback σ)}
    (h : ∀ callback ∈ callbacks, callback.StoresNothing key) :
    (inOrder callbacks).StoresNothing key := by
  induction callbacks with
  | nil => exact storesNothing_skip
  | cons callback rest ih =>
    obtain ⟨hfirst, hrest⟩ := List.forall_mem_cons.mp h
    exact hfirst.andThen (ih hrest)

end Callback

namespace Graph

variable {graph child : Graph σ} {limit : Nat} {node : Node σ} {context : Context σ} {host : σ}

/-! ## Passing a node over -/

/-- A node whose process is not there is undone by doing nothing. -/
theorem run_compensation_andThen (hback : node.RollsBack child)
    (habsent : context.contains node.state.subgraphKey = false) (rest : Callback σ) :
    (node.compensation.andThen rest).run limit context host = rest.run limit context host := by
  have hrun : node.compensation.run limit context host = some { result := .ok (), context, host } :=
    run_compensation_of_absent hback (Context.contains_eq_false_iff.mp habsent)
  simp only [Callback.andThen, hrun, Option.bind_some]
  exact Option.map_id' ..

/-- If the newer states put nothing in its place, the rest runs as if the node had not been
visited. -/
theorem run_compensations_over (hnode : graph.node? node.state = some node)
    (hback : node.RollsBack child)
    (habsent : context.contains node.state.subgraphKey = false) {newer : List StateName}
    (hnewer : (graph.compensations newer).StoresNothing node.state.subgraphKey)
    (older : List StateName) :
    (graph.compensations (newer ++ node.state :: older)).run limit context host =
      (graph.compensations (newer ++ older)).run limit context host := by
  rw [compensations_append, compensations_append, compensations_cons_of_node hnode]
  simp only [Callback.andThen]
  cases hrun : (graph.compensations newer).run limit context host with
  | none => rfl
  | some reply =>
    have hover : (node.compensation.andThen _).run limit reply.context reply.host = _ :=
      run_compensation_andThen hback (hnewer hrun habsent) (graph.compensations older)
    simp only [Callback.andThen] at hover
    simp only [Option.bind_some, hover]

/-! ## A rollback that fails -/

/-- Undoing a node that ran a graph, when a compensation of that run fails, whichever it is.
The run is walked back up to that compensation on the context without the process, and what
the walk leaves is what the node leaves.  So if the compensations of the run put nothing in
its place, the process is gone.  From then on a rollback of the parent, or of any other process
that visited the node, runs the compensations of the other states and nothing of the run:
neither the compensation that failed nor those of the older states. -/
theorem failed_rollback_loses_child (hchild : child.Built) (hback : node.RollsBack child)
    {process : Process σ} (hprocess : context.get .process node.state.subgraphKey = some process)
    {reply : Reply σ} {fault : Fault}
    (hrun : node.compensation.run limit context host = some reply)
    (hfault : reply.result = .error fault) :
    (∃ error handled, fault = error.toFault ∧
      child.WalksBack limit process.visited.reverse (context.erase node.state.subgraphKey) host
        (.error error) handled reply.context reply.host) ∧
    ((child.compensations process.visited.reverse).StoresNothing node.state.subgraphKey →
      reply.context.contains node.state.subgraphKey = false ∧
      ∀ {graph : Graph σ} {parent : Process σ} {older newer : List StateName},
        graph.node? node.state = some node → parent.visited = older ++ node.state :: newer →
        (graph.compensations newer.reverse).StoresNothing node.state.subgraphKey →
        ∀ limit host, Option.Rel Rollback.Matches
          (graph.rollback limit parent reply.context host)
          ((graph.compensations (older ++ newer).reverse).run limit reply.context host)) := by
  rw [run_compensation_of_kept hback hprocess] at hrun
  obtain ⟨rollback, hrollback, rfl⟩ := Option.map_eq_some_iff.mp hrun
  constructor
  · cases hresult : rollback.result with
    | ok _ =>
      rw [result_unwound_of_ok hresult] at hfault
      contradiction
    | error error =>
      rw [result_unwound_of_error hresult] at hfault
      exact ⟨error, rollback.handled, (Except.error.inj hfault).symm,
        (walksBack_iff hchild).mpr ⟨rollback, hrollback, hresult, rfl, rfl, rfl⟩⟩
  · intro hstores
    have habsent : rollback.context.contains node.state.subgraphKey = false := by
      have hmatches : Option.Rel Rollback.Matches
          (child.rollback limit process (context.erase node.state.subgraphKey) host) _ :=
        matches_rollback
      rw [hrollback] at hmatches
      obtain ⟨left, hleft, hsame⟩ := optionRel_some_left hmatches
      rw [hsame.context]
      exact hstores hleft (Context.contains_erase_self ..)
    refine ⟨habsent, fun {graph parent older newer} hnode hvisited hnewer limit host => ?_⟩
    have hmatches : Option.Rel Rollback.Matches
        (graph.rollback limit parent rollback.context host) _ := matches_rollback
    rw [hvisited, List.reverse_append, List.reverse_cons, List.append_assoc,
      List.singleton_append, run_compensations_over hnode hback habsent hnewer,
      ← List.reverse_append] at hmatches
    exact hmatches

/-! ## A cruise -/

/-- What is done at sea can be taken back when it is calm. -/
def sailNode : Node (List Note) :=
  .define ⟨"sail"⟩
    [ .operation (Note.done ⟨"sail"⟩).callback
    , .rollback (.ofFunction fun context host =>
        if Note.done ⟨"calm"⟩ ∈ host then
          { result := .ok (), context, host := host ++ [.undone ⟨"sail"⟩] }
        else { result := .error (.text "storm"), context, host }) ]

def cruiseSteps : List (Directive (List Note)) :=
  [ .startNode [(.proceed, ⟨"board"⟩)]
  , .addNode (notingNode ⟨"board"⟩ (some ⟨"sail"⟩))
  , .addNode sailNode ]

def cruise : Graph (List Note) := (define "Cruise" cruiseSteps).toOption.getD { name := "" }

def holidaySteps : List (Directive (List Note)) :=
  [ .startNode [(.proceed, ⟨"pack"⟩)]
  , .addNode (notingNode ⟨"pack"⟩ (some ⟨"cruise"⟩))
  , .addNode (delegatingNode ⟨"cruise"⟩ cruise (some ⟨"unpack"⟩))
  , .addNode (notingNode ⟨"unpack"⟩) ]

/-- A holiday with a cruise in it. -/
def holiday : Graph (List Note) := (define "Holiday" holidaySteps).toOption.getD { name := "" }

def cruiseNode : Node (List Note) := delegatingNode ⟨"cruise"⟩ cruise (some ⟨"unpack"⟩)

def holidaySegment : Segment (List Note) := (holiday.call 4 none (some .new) .empty []).get rfl

/-- The process of the cruise. -/
def cruiseProcess : Process (List Note) :=
  (holidaySegment.final.context.get .process (StateName.subgraphKey ⟨"cruise"⟩)).get rfl

theorem storesNothing_note (note : Note) (key : String) : note.callback.StoresNothing key := by
  intro _ context host _ hrun habsent
  obtain rfl := Option.some.inj hrun
  exact habsent

theorem storesNothing_cruise (key : String) :
    (cruise.compensations cruiseProcess.visited.reverse).StoresNothing key := by
  refine Callback.storesNothing_inOrder (List.forall_mem_cons.mpr ⟨?_, ?_⟩)
  · intro _ context host _ hrun habsent
    obtain rfl := Option.some.inj hrun
    show Context.contains (Reply.context (if _ then _ else _)) key = false
    split <;> exact habsent
  · exact List.forall_mem_singleton.mpr (storesNothing_note ..)

/-- It is calm at the second attempt, but the cruise is not taken back: only the unpacking and
the packing are, the unpacking for the second time. -/
theorem holiday_loses_cruise :
    ∃ reply, cruiseNode.compensation.run 4 holidaySegment.final.context [] = some reply ∧
      reply.result = .error (.rollback ⟨"sail"⟩ (.text "storm")) ∧
      reply.context.contains (StateName.subgraphKey ⟨"cruise"⟩) = false ∧
      ∃ rollback,
        holiday.rollback 4 holidaySegment.final.process reply.context [.done ⟨"calm"⟩] =
          some rollback ∧
        rollback.host = [.done ⟨"calm"⟩, .undone ⟨"unpack"⟩, .undone ⟨"pack"⟩] := by
  have hchild : cruise.Built := ⟨"Cruise", cruiseSteps, rfl⟩
  have hprocess : holidaySegment.final.context.get .process cruiseNode.state.subgraphKey =
    some cruiseProcess := rfl
  have hrun : cruiseNode.compensation.run 4 holidaySegment.final.context [] = some _ := rfl
  have hback : cruiseNode.RollsBack cruise := rfl
  obtain ⟨_, hlost⟩ := failed_rollback_loses_child hchild hback hprocess hrun rfl
  obtain ⟨habsent, hagain⟩ := hlost (storesNothing_cruise _)
  have hnewer : (holiday.compensations [⟨"unpack"⟩]).StoresNothing
      cruiseNode.state.subgraphKey :=
    Callback.storesNothing_inOrder (List.forall_mem_singleton.mpr (storesNothing_note ..))
  have hvisited : holidaySegment.final.process.visited =
    [⟨"pack"⟩] ++ cruiseNode.state :: [⟨"unpack"⟩] := rfl
  have hnode : holiday.node? cruiseNode.state = some cruiseNode := rfl
  have hmatches := hagain hnode hvisited hnewer 4 [.done ⟨"calm"⟩]
  exact ⟨_, hrun, rfl, habsent, _, rfl, (of_optionRel hmatches rfl rfl).host⟩

/-- The first rollback fails at the cruise and does not keep its process.  The second one
succeeds, and neither the sailing nor the boarding has been taken back. -/
theorem cruise_is_not_retried :
    holidaySegment.final.context.get .process cruiseNode.state.subgraphKey =
      some cruiseProcess ∧
    cruiseProcess.visited = [⟨"board"⟩, ⟨"sail"⟩] ∧
    ∃ failed,
      holiday.rollback 4 holidaySegment.final.process holidaySegment.final.context [] =
        some failed ∧
      failed.result =
        .error { state := ⟨"cruise"⟩, cause := .rollback ⟨"sail"⟩ (.text "storm") } ∧
      failed.context.get .process cruiseNode.state.subgraphKey = none ∧
      ∃ again,
        holiday.rollback 4 holidaySegment.final.process failed.context [.done ⟨"calm"⟩] =
          some again ∧
        again.result = .ok () ∧ Note.undone ⟨"sail"⟩ ∉ again.host ∧
        Note.undone ⟨"board"⟩ ∉ again.host :=
  ⟨rfl, rfl, _, rfl, rfl, rfl, _, rfl, rfl, by decide, by decide⟩

end Graph

end Workflow
