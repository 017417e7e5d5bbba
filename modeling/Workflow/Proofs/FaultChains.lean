import Workflow.Proofs.NestedRollback
import Workflow.Proofs.ReverseWalk

/-!
# The fault of a nested rollback

A compensation that fails in a nested run ends the rollbacks of all the runs around it, and
each of them wraps the fault with the state that it had come to.

* `Fault.within` is a fault wrapped with a path of states.  `message_within` and
  `causes_within` are its text and its causes.
* `Graph.FailsBelow` is a walk back that comes to a compensation that fails, down a path of
  nodes whose nested runs it rolls back.  `walksBack_of_failsBelow`: the induction is on this
  path.
* `nested_fault_keeps_chain` states it of a rollback.
-/

namespace Workflow

variable {σ : Type}

/-! ## Wrapped faults -/

namespace Fault

/-- The fault of a rollback that came down the path of states, outermost first, to a
compensation with the given fault. -/
def within : List StateName → Fault → Fault
  | [], fault => fault
  | state :: path, fault => .rollback state (within path fault)

theorem message_rollback (state : StateName) (cause : Fault) :
    (rollback state cause).message =
      "rollback failed in state " ++ ticked state.text ++ ": " ++ cause.message := rfl

/-- The text says every state of the path, and then what the fault says. -/
theorem message_within (path : List StateName) (fault : Fault) :
    (within path fault).message =
      path.foldr (fun state text => "rollback failed in state " ++ ticked state.text ++ ": " ++ text)
        fault.message := by
  induction path with
  | nil => rfl
  | cons state path ih => rw [within, message_rollback, ih, List.foldr_cons]

/-- The causes are the faults wrapped with less and less of the path, down to the fault itself,
and then its own. -/
theorem causes_within (state : StateName) (path : List StateName) (fault : Fault) :
    (within (state :: path) fault).causes =
      path.tails.map (within · fault) ++ fault.causes := by
  induction path generalizing state with
  | nil => rfl
  | cons next path ih => rw [within, causes, ih, List.tails, List.map_cons, List.cons_append]

end Fault

namespace Graph

/-! ## Coming down to a failure -/

/-- Walking back over the states, newest first, on the context: the newer states are taken
back, and then a compensation fails, or a node is reached whose nested run is found in the
context, and the walk back over that run fails.  The path is the states that the walk comes to,
level by level; the last one is that of the compensation, which leaves the last context and
host's state. -/
inductive FailsBelow (limit : Nat) :
    Graph σ → List StateName → Context σ → σ → List StateName → Fault → Context σ → σ → Prop
  | own {graph : Graph σ} {newer older : List StateName} {state : StateName} {node : Node σ}
      {undo : Callback σ} {context between : Context σ} {host left : σ} {reply : Reply σ}
      {fault : Fault} (hbuilt : graph.Built)
      (hnewer : graph.TakesBack limit newer context host between left)
      (hnode : graph.node? state = some node) (hundo : node.UndoneWith undo)
      (hrun : undo.run limit between left = some reply) (herror : reply.result = .error fault) :
      FailsBelow limit graph (newer ++ state :: older) context host [state] fault reply.context
        reply.host
  | nested {graph child : Graph σ} {newer older path : List StateName} {state : StateName}
      {node : Node σ} {context between after : Context σ} {host left last : σ}
      {process : Process σ} {fault : Fault} (hbuilt : graph.Built)
      (hnewer : graph.TakesBack limit newer context host between left)
      (hnode : graph.node? state = some node) (hback : node.RollsBack child)
      (hprocess : between.get .process node.state.subgraphKey = some process)
      (hbelow : FailsBelow limit child process.visited.reverse
        (between.erase node.state.subgraphKey) left path fault after last) :
      FailsBelow limit graph (newer ++ state :: older) context host (state :: path) fault after
        last

section FailsBelow

variable {limit : Nat} {graph : Graph σ} {states path : List StateName} {context after : Context σ}
  {host last : σ} {fault : Fault}

theorem FailsBelow.built (h : graph.FailsBelow limit states context host path fault after last) :
    graph.Built := by
  cases h <;> assumption

/-- A nested run hands its fault over to the node that ran it, and that wraps it once more. -/
theorem walksBack_of_failsBelow
    (h : graph.FailsBelow limit states context host path fault after last) :
    ∃ error handled,
      graph.WalksBack limit states context host (.error error) handled after last ∧
        error.toFault = Fault.within path fault := by
  induction h with
  | own hbuilt hnewer hnode hundo hrun herror =>
    exact ⟨_, _, .failed hnewer hnode hundo hrun herror, rfl⟩
  | @nested graph child _ older path state node _ between _ _ left _ _ _ _ hnewer hnode hback
      hprocess hbelow ih =>
    obtain ⟨error, handled, hwalks, hfault⟩ := ih
    obtain ⟨rollback, hrollback, hresult, _, hafter, hlast⟩ :=
      (walksBack_iff hbelow.built).mp hwalks
    have hrun : node.compensation.run limit between left = some (Subgraph.unwound rollback) := by
      rw [run_compensation_of_kept hback hprocess, hrollback, Option.map_some]
    rw [← hafter, ← hlast]
    refine ⟨_, _, .failed hnewer hnode (Node.undoneWith_iff.mpr rfl) hrun
      (result_unwound_of_error hresult), ?_⟩
    rw [RollbackError.toFault, hfault, Fault.within]

end FailsBelow

/-- A rollback that comes to a failing compensation through nested runs, to any depth.  It
returns the fault of that compensation, wrapped with the states of the path, so that its text
says them all and its causes are the wrapped faults of the inner levels, then the fault itself,
then the causes of that.  What the compensations before it did, at every level, and what it did
itself stays in the context, and nothing older has run. -/
theorem nested_fault_keeps_chain {graph : Graph σ} {limit : Nat} {process : Process σ}
    {context after : Context σ} {host last : σ} {state : StateName} {path : List StateName}
    {fault : Fault}
    (hfails : graph.FailsBelow limit process.visited.reverse context host (state :: path) fault after
      last) :
    ∃ rollback error, graph.rollback limit process context host = some rollback ∧
      rollback.result = .error error ∧
      error = { state, cause := Fault.within path fault } ∧
      error.message =
        (state :: path).foldr
          (fun state text => "rollback failed in state " ++ ticked state.text ++ ": " ++ text)
          fault.message ∧
      error.toFault.causes = path.tails.map (Fault.within · fault) ++ fault.causes ∧
      rollback.context = after ∧ rollback.host = last := by
  obtain ⟨error, handled, hwalks, hfault⟩ := walksBack_of_failsBelow hfails
  obtain ⟨rollback, hrollback, hresult, _, hafter, hlast⟩ :=
    (walksBack_iff hfails.built).mp hwalks
  have herror : error = { state, cause := Fault.within path fault } := by
    obtain ⟨outer, cause⟩ := error
    obtain ⟨rfl, rfl⟩ := Fault.rollback.inj hfault
    rfl
  refine ⟨rollback, error, hrollback, hresult, herror, ?_, ?_, hafter, hlast⟩
  · rw [RollbackError.message, hfault, Fault.message_within]
  · rw [hfault, Fault.causes_within]

/-! ## An expedition -/

/-- There is no way back over the ledge. -/
def ledgeFault : Fault := .hostFrom ⟨"Custom", "loose rock", false⟩ (.text "frost")

def ledgeNode : Node (List Note) :=
  .define ⟨"ledge"⟩
    [ .rollback (.ofFunction fun context host =>
        { result := .error ledgeFault
          context := context.recordFailure "stuck" none
          host := host ++ [.undone ⟨"ledge"⟩] })
    , .on .proceed ⟨"top"⟩ ]

def wallSteps : List (Directive (List Note)) :=
  [ .startNode [(.proceed, ⟨"anchor"⟩)]
  , .addNode (notingNode ⟨"anchor"⟩ (some ⟨"ledge"⟩))
  , .addNode ledgeNode
  , .addNode (notingNode ⟨"top"⟩) ]

def wall : Graph (List Note) := (define "Wall" wallSteps).toOption.getD { name := "" }

def ascentSteps : List (Directive (List Note)) :=
  [ .startNode [(.proceed, ⟨"rope"⟩)]
  , .addNode (notingNode ⟨"rope"⟩ (some ⟨"wall"⟩))
  , .addNode (delegatingNode ⟨"wall"⟩ wall (some ⟨"rest"⟩))
  , .addNode (notingNode ⟨"rest"⟩) ]

def ascent : Graph (List Note) := (define "Ascent" ascentSteps).toOption.getD { name := "" }

def expeditionSteps : List (Directive (List Note)) :=
  [ .startNode [(.proceed, ⟨"equip"⟩)]
  , .addNode (notingNode ⟨"equip"⟩ (some ⟨"climb"⟩))
  , .addNode (delegatingNode ⟨"climb"⟩ ascent (some ⟨"photo"⟩))
  , .addNode (notingNode ⟨"photo"⟩) ]

/-- An expedition with an ascent in it, which has a wall in it. -/
def expedition : Graph (List Note) :=
  (define "Expedition" expeditionSteps).toOption.getD { name := "" }

/-- The context after the photo: the processes of the ascent and of the wall are kept. -/
def photographed : Context (List Note) :=
  (Context.empty.insert (StateName.subgraphKey ⟨"wall"⟩)
      ⟨.process, .restore [⟨"anchor"⟩, ⟨"ledge"⟩, ⟨"top"⟩]⟩).insert
    (StateName.subgraphKey ⟨"climb"⟩) ⟨.process, .restore [⟨"rope"⟩, ⟨"wall"⟩, ⟨"rest"⟩]⟩

/-- What the compensation at the ledge leaves of it. -/
def stuck : Context (List Note) :=
  ((photographed.erase (StateName.subgraphKey ⟨"climb"⟩)).erase
    (StateName.subgraphKey ⟨"wall"⟩)).recordFailure "stuck" none

/-- The process of the expedition then. -/
def climbed : Process (List Note) := .restore [⟨"equip"⟩, ⟨"climb"⟩, ⟨"photo"⟩]

theorem takesBack_note {graph : Graph (List Note)} {limit : Nat} {state : StateName}
    (hnode : graph.node? state = some (notingNode state)) (context : Context (List Note))
    (host : List Note) :
    graph.TakesBack limit [state] context host context (host ++ [.undone state]) :=
  .step hnode (Node.undoneWith_iff.mpr rfl) rfl rfl .nil

/-- The photo, the rest and the top are taken back on the way down to the ledge. -/
theorem expedition_failsBelow :
    expedition.FailsBelow 1 climbed.visited.reverse photographed []
      [⟨"climb"⟩, ⟨"wall"⟩, ⟨"ledge"⟩] ledgeFault stuck
      [.undone ⟨"photo"⟩, .undone ⟨"rest"⟩, .undone ⟨"top"⟩, .undone ⟨"ledge"⟩] := by
  have hphoto : expedition.TakesBack 1 [⟨"photo"⟩] photographed [] photographed _ :=
    takesBack_note rfl ..
  have hclimb : expedition.node? ⟨"climb"⟩ =
    some (delegatingNode ⟨"climb"⟩ ascent (some ⟨"photo"⟩)) := rfl
  have hvisited : climbed.visited.reverse = [⟨"photo"⟩] ++ ⟨"climb"⟩ :: [⟨"equip"⟩] := rfl
  rw [hvisited]
  refine .nested ⟨"Expedition", expeditionSteps, rfl⟩ hphoto hclimb rfl rfl ?_
  have hrest (context : Context (List Note)) (host : List Note) :
      ascent.TakesBack 1 [⟨"rest"⟩] context host context _ := takesBack_note rfl ..
  have hwall : ascent.node? ⟨"wall"⟩ =
    some (delegatingNode ⟨"wall"⟩ wall (some ⟨"rest"⟩)) := rfl
  refine .nested ⟨"Ascent", ascentSteps, rfl⟩ (hrest ..) hwall rfl rfl ?_
  have htop (context : Context (List Note)) (host : List Note) :
      wall.TakesBack 1 [⟨"top"⟩] context host context _ := takesBack_note rfl ..
  have hledge : wall.node? ⟨"ledge"⟩ = some ledgeNode := rfl
  exact .own ⟨"Wall", wallSteps, rfl⟩ (htop ..) hledge (Node.undoneWith_iff.mpr rfl) rfl rfl

/-- The rollback says where on the wall it got stuck, and why.  The rope and the equipment are
still where they were. -/
theorem expedition_says_where :
    ∃ rollback error,
      expedition.rollback 1 climbed photographed [] = some rollback ∧
      rollback.result = .error error ∧
      error.message =
        "rollback failed in state `climb`: rollback failed in state `wall`: " ++
          "rollback failed in state `ledge`: loose rock" ∧
      error.toFault.causes =
        [ .rollback ⟨"wall"⟩ (.rollback ⟨"ledge"⟩ ledgeFault), .rollback ⟨"ledge"⟩ ledgeFault
        , ledgeFault, .text "frost" ] ∧
      rollback.context = stuck ∧
      rollback.host = [.undone ⟨"photo"⟩, .undone ⟨"rest"⟩, .undone ⟨"top"⟩, .undone ⟨"ledge"⟩] := by
  obtain ⟨rollback, error, hrollback, hresult, _, hmessage, hcauses, hcontext, hhost⟩ :=
    nested_fault_keeps_chain expedition_failsBelow
  exact ⟨rollback, error, hrollback, hresult, hmessage.trans rfl, hcauses.trans rfl, hcontext,
    hhost⟩

end Graph

end Workflow
