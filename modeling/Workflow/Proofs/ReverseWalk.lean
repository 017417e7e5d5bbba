import Workflow.Manager
import Workflow.Subgraph
import Workflow.Proofs.Definition
import Workflow.Proofs.Rollback

/-!
# Rollback as the reverse walk

A rollback goes over the visited states from the newest to the oldest and does
nothing else.

* `Node.UndoneWith` says how a node is undone, slot by slot.  `undoneWith_iff`:
  that is `Node.compensation`.
* `Graph.TakesBack` is compensations that succeed one after the other, and
  `Graph.WalksBack` is all that a walk back can come to: it takes every state
  back, or it stops at the first compensation that fails.
* `walksBack_of_unwind` and `exists_unwind_of_walksBack`: this is what
  `Graph.unwind` computes.
* `unwind_append` cuts a walk into two.
* `rollback_append` does the same with a history.
* `rollback_is_reverse_walk` states it all of `Graph.rollback` and of a manager.
-/

namespace Workflow

variable {σ : Type}

/-! ## How a node is undone -/

/-- A command is undone by its own rollback, other work by the standalone rollback of
the node, and without either there is nothing to do. -/
inductive Node.UndoneWith (node : Node σ) : Callback σ → Prop
  | command {body : Command σ} (hcommand : node.operation = some (.command body)) :
      UndoneWith node body.rollback
  | standalone {callback : Callback σ}
      (hplain : ∀ body, node.operation ≠ some (.command body))
      (hrollback : node.rollback = some callback) : UndoneWith node callback
  | nothing (hplain : ∀ body, node.operation ≠ some (.command body))
      (hrollback : node.rollback = none) : UndoneWith node .skip

theorem Node.compensation_of_plain {node : Node σ}
    (hplain : ∀ body, node.operation ≠ some (.command body)) :
    node.compensation = node.rollback.getD .skip := by
  unfold compensation
  cases hoperation : node.operation with
  | none => cases node.rollback <;> rfl
  | some operation =>
    cases operation with
    | callable body => cases node.rollback <;> rfl
    | command body => exact absurd hoperation (hplain body)

theorem Node.undoneWith_iff {node : Node σ} {callback : Callback σ} :
    node.UndoneWith callback ↔ callback = node.compensation := by
  constructor
  · intro h
    cases h with
    | command hcommand => rw [compensation, hcommand]
    | standalone hplain hrollback => rw [compensation_of_plain hplain, hrollback, Option.getD_some]
    | nothing hplain hrollback => rw [compensation_of_plain hplain, hrollback, Option.getD_none]
  · rintro rfl
    by_cases hcommand : ∃ body, node.operation = some (.command body)
    · obtain ⟨body, hcommand⟩ := hcommand
      have hown : node.compensation = body.rollback := by rw [compensation, hcommand]
      rw [hown]
      exact .command hcommand
    · have hplain : ∀ body, node.operation ≠ some (.command body) :=
        fun body hbody => hcommand ⟨body, hbody⟩
      rw [compensation_of_plain hplain]
      cases hrollback : node.rollback with
      | none => exact .nothing hplain hrollback
      | some callback => exact .standalone hplain hrollback

/-! ## One rollback after another -/

namespace Rollback

/-- Rolls back further from what a rollback left, unless that failed. -/
def andThen (first : Rollback σ) (second : Context σ → σ → Option (Rollback σ)) :
    Option (Rollback σ) :=
  match first.result with
  | .error _ => some first
  | .ok () => (second first.context first.host).map (·.behind first.handled first.journal)

theorem andThen_of_ok {first : Rollback σ} (hok : first.result = .ok ())
    (second : Context σ → σ → Option (Rollback σ)) :
    first.andThen second =
      (second first.context first.host).map (·.behind first.handled first.journal) := by
  simp only [andThen, hok]

theorem andThen_of_error {first : Rollback σ} {error : RollbackError}
    (herror : first.result = .error error) (second : Context σ → σ → Option (Rollback σ)) :
    first.andThen second = some first := by
  simp only [andThen, herror]

theorem behind_behind (rollback : Rollback σ) (newest newer : List StateName)
    (first second : Journal) :
    (rollback.behind newer second).behind newest first =
      rollback.behind (newest ++ newer) (first ++ second) := by
  simp only [behind, List.append_assoc]

/-- What was handled before both is handled before the first. -/
theorem andThen_behind (first : Rollback σ) (handled : List StateName) (journal : Journal)
    (second : Context σ → σ → Option (Rollback σ)) :
    (first.behind handled journal).andThen second =
      (first.andThen second).map (·.behind handled journal) := by
  cases hresult : first.result with
  | error error =>
    have hbehind : (first.behind handled journal).result = .error error := hresult
    rw [andThen_of_error hresult, andThen_of_error hbehind, Option.map_some]
  | ok _ =>
    have hbehind : (first.behind handled journal).result = .ok () := hresult
    rw [andThen_of_ok hresult, andThen_of_ok hbehind, Option.map_map]
    exact congrArg (Option.map · _) (funext fun rest => (rest.behind_behind ..).symm)

/-- A rollback whose journal is told inside a span. -/
def within (rollback : Rollback σ) (span : Span) : Rollback σ :=
  { rollback with journal := rollback.journal.within span }

theorem within_behind (rollback : Rollback σ) (handled : List StateName) (journal : Journal)
    (span : Span) :
    (rollback.behind handled journal).within span =
      (rollback.within span).behind handled (journal.within span) := by
  simp only [within, behind, Journal.within, List.map_append]

theorem andThen_within (first : Rollback σ) (span : Span)
    (second : Context σ → σ → Option (Rollback σ)) :
    (first.within span).andThen (fun context host => (second context host).map (·.within span)) =
      (first.andThen second).map (·.within span) := by
  cases hresult : first.result with
  | error error =>
    have hwithin : (first.within span).result = .error error := hresult
    rw [andThen_of_error hresult, andThen_of_error hwithin, Option.map_some]
  | ok _ =>
    have hwithin : (first.within span).result = .ok () := hresult
    rw [andThen_of_ok hresult, andThen_of_ok hwithin, Option.map_map, Option.map_map]
    exact congrArg (Option.map · _) (funext fun rest => (rest.within_behind ..).symm)

end Rollback

namespace Graph

/-! ## The walk -/

/-- The compensations of the states, in order, all succeed, and lead from one context
and host's state to the other.  A state without a node is passed over. -/
inductive TakesBack (graph : Graph σ) (limit : Nat) :
    List StateName → Context σ → σ → Context σ → σ → Prop
  | nil {context : Context σ} {host : σ} : TakesBack graph limit [] context host context host
  | skip {state : StateName} {older : List StateName} {context after : Context σ} {host left : σ}
      (hnode : graph.hasNode state = false)
      (holder : TakesBack graph limit older context host after left) :
      TakesBack graph limit (state :: older) context host after left
  | step {state : StateName} {older : List StateName} {node : Node σ} {undo : Callback σ}
      {context after : Context σ} {host left : σ} {reply : Reply σ}
      (hnode : graph.node? state = some node) (hundo : node.UndoneWith undo)
      (hrun : undo.run limit context host = some reply) (hok : reply.result = .ok ())
      (holder : TakesBack graph limit older reply.context reply.host after left) :
      TakesBack graph limit (state :: older) context host after left

/-- What a walk over the states comes to: its result, the states that it handled, and
the context and the host's state that it leaves. -/
inductive WalksBack (graph : Graph σ) (limit : Nat) :
    List StateName → Context σ → σ → Except RollbackError Unit → List StateName → Context σ → σ →
      Prop
  /-- Every state is taken back. -/
  | done {states : List StateName} {context after : Context σ} {host left : σ}
      (hsteps : graph.TakesBack limit states context host after left) :
      WalksBack graph limit states context host (.ok ()) (states.filter graph.hasNode) after left
  /-- The newer states are taken back, and then a compensation fails.  What it did itself
  stays in the context, and the older states are left alone. -/
  | failed {newer older : List StateName} {state : StateName} {node : Node σ} {undo : Callback σ}
      {context between : Context σ} {host left : σ} {reply : Reply σ} {fault : Fault}
      (hnewer : graph.TakesBack limit newer context host between left)
      (hnode : graph.node? state = some node) (hundo : node.UndoneWith undo)
      (hrun : undo.run limit between left = some reply) (herror : reply.result = .error fault) :
      WalksBack graph limit (newer ++ state :: older) context host
        (.error { state, cause := fault }) (newer.filter graph.hasNode) reply.context reply.host

section Walk

variable {graph : Graph σ} {limit : Nat} {state : StateName} {older : List StateName}
  {context after : Context σ} {host left : σ} {result : Except RollbackError Unit}
  {handled : List StateName}

theorem WalksBack.skip (hnode : graph.hasNode state = false)
    (h : graph.WalksBack limit older context host result handled after left) :
    graph.WalksBack limit (state :: older) context host result handled after left := by
  have hunseen : ∀ states : List StateName,
      (state :: states).filter graph.hasNode = states.filter graph.hasNode :=
    fun states => List.filter_cons_of_neg (by simp [hnode])
  cases h with
  | done hsteps =>
    rw [← hunseen]
    exact .done (.skip hnode hsteps)
  | failed hnewer hfound hundo hrun herror =>
    rw [← hunseen]
    exact .failed (.skip hnode hnewer) hfound hundo hrun herror

theorem WalksBack.step {node : Node σ} {reply : Reply σ} (hnode : graph.node? state = some node)
    (hhas : graph.hasNode state) (hrun : node.compensation.run limit context host = some reply)
    (hok : reply.result = .ok ())
    (h : graph.WalksBack limit older reply.context reply.host result handled after left) :
    graph.WalksBack limit (state :: older) context host result (state :: handled) after left := by
  have hundo : node.UndoneWith node.compensation := Node.undoneWith_iff.mpr rfl
  have hseen : ∀ states : List StateName,
      (state :: states).filter graph.hasNode = state :: states.filter graph.hasNode :=
    fun states => List.filter_cons_of_pos hhas
  cases h with
  | done hsteps =>
    rw [← hseen]
    exact .done (.step hnode hundo hrun hok hsteps)
  | failed hnewer hfound hundone hfailed herror =>
    rw [← hseen]
    exact .failed (.step hnode hundo hrun hok hnewer) hfound hundone hfailed herror

end Walk

/-! ## What a rollback computes -/

section Unwind

variable {graph : Graph σ} {limit : Nat} {states : List StateName} {context after : Context σ}
  {host left : σ}

theorem node?_eq_none_iff (hbuilt : graph.Built) {state : StateName} :
    graph.node? state = none ↔ graph.hasNode state = false := by
  have hhas : graph.hasNode state ↔ ∃ node, graph.node? state = some node :=
    hbuilt.indexed.hasNode_iff
  cases hnode : graph.node? state with
  | none => simpa [hnode] using hhas
  | some node => simpa [hnode] using hhas

theorem unwind_of_missing {state : StateName} (hnode : graph.node? state = none)
    (older : List StateName) :
    graph.unwind limit (state :: older) context host =
      (graph.unwind limit older context host).map (·.behind [] (.ofEvents [.skipped state])) := by
  simp only [unwind, hnode]

theorem walksBack_of_unwind (hbuilt : graph.Built) {rollback : Rollback σ}
    (h : graph.unwind limit states context host = some rollback) :
    graph.WalksBack limit states context host rollback.result rollback.handled rollback.context
      rollback.host := by
  induction states generalizing context host rollback with
  | nil =>
    obtain rfl := Option.some.inj h
    exact .done .nil
  | cons state older ih =>
    cases hnode : graph.node? state with
    | none =>
      rw [unwind_of_missing hnode] at h
      obtain ⟨rest, hrest, rfl⟩ := Option.map_eq_some_iff.mp h
      exact (ih hrest).skip ((node?_eq_none_iff hbuilt).mp hnode)
    | some node =>
      cases hrun : node.compensation.run limit context host with
      | none =>
        rw [unwind_eq_none hnode hrun] at h
        contradiction
      | some reply =>
        cases hresult : reply.result with
        | error fault =>
          rw [unwind_of_error hnode hrun hresult] at h
          obtain rfl := Option.some.inj h
          have hnewer : graph.TakesBack limit [] context host context host := .nil
          exact WalksBack.failed hnewer hnode (Node.undoneWith_iff.mpr rfl) hrun hresult
        | ok _ =>
          rw [unwind_of_ok hnode hrun hresult] at h
          obtain ⟨rest, hrest, rfl⟩ := Option.map_eq_some_iff.mp h
          have hhas : graph.hasNode state := hbuilt.indexed.hasNode_iff.mpr ⟨node, hnode⟩
          exact (ih hrest).step hnode hhas hrun hresult

/-- A walk over a list of states is a walk over the first of them and, if that succeeds,
one over the others. -/
theorem unwind_append (graph : Graph σ) (limit : Nat) (newer older : List StateName)
    (context : Context σ) (host : σ) :
    graph.unwind limit (newer ++ older) context host =
      (graph.unwind limit newer context host).bind (·.andThen (graph.unwind limit older)) := by
  induction newer generalizing context host with
  | nil =>
    show graph.unwind limit older context host =
      (graph.unwind limit older context host).map (·.behind [] [])
    exact (Option.map_id' ..).symm
  | cons state rest ih =>
    rw [List.cons_append]
    cases hnode : graph.node? state with
    | none =>
      rw [unwind_of_missing hnode, unwind_of_missing hnode, ih, Option.map_bind, Option.bind_map]
      exact congrArg _ (funext fun first => (first.andThen_behind ..).symm)
    | some node =>
      cases hrun : node.compensation.run limit context host with
      | none =>
        rw [unwind_eq_none hnode hrun, unwind_eq_none hnode hrun]
        rfl
      | some reply =>
        cases hresult : reply.result with
        | error fault =>
          rw [unwind_of_error hnode hrun hresult, unwind_of_error hnode hrun hresult]
          rfl
        | ok _ =>
          rw [unwind_of_ok hnode hrun hresult, unwind_of_ok hnode hrun hresult, ih,
            Option.map_bind, Option.bind_map]
          exact congrArg _ (funext fun first => (first.andThen_behind ..).symm)

theorem exists_unwind_of_takesBack (hbuilt : graph.Built)
    (h : graph.TakesBack limit states context host after left) :
    ∃ rollback, graph.unwind limit states context host = some rollback ∧
      rollback.result = .ok () ∧ rollback.handled = states.filter graph.hasNode ∧
      rollback.context = after ∧ rollback.host = left := by
  induction h with
  | nil => exact ⟨_, rfl, rfl, rfl, rfl, rfl⟩
  | @skip state older _ _ _ _ hnode _ ih =>
    obtain ⟨rest, hrest, hok, hhandled, hafter, hleft⟩ := ih
    have hmissing := (node?_eq_none_iff hbuilt).mpr hnode
    refine ⟨rest.behind [] (.ofEvents [.skipped state]), ?_, hok, ?_, hafter, hleft⟩
    · rw [unwind_of_missing hmissing, hrest, Option.map_some]
    · rw [List.filter_cons_of_neg (by simp [hnode])]
      exact hhandled
  | @step state older node undo _ _ _ _ reply hnode hundo hrun hok _ ih =>
    obtain ⟨rest, hrest, hrestOk, hhandled, hafter, hleft⟩ := ih
    obtain rfl := Node.undoneWith_iff.mp hundo
    have hhas : graph.hasNode state := hbuilt.indexed.hasNode_iff.mpr ⟨node, hnode⟩
    refine ⟨rest.behind [state] (reply.journal ++ .ofEvents [.rolledBack state]), ?_, hrestOk, ?_,
      hafter, hleft⟩
    · rw [unwind_of_ok hnode hrun hok, hrest, Option.map_some]
    · rw [List.filter_cons_of_pos hhas]
      exact congrArg (state :: ·) hhandled

theorem exists_unwind_of_walksBack (hbuilt : graph.Built) {result : Except RollbackError Unit}
    {handled : List StateName}
    (h : graph.WalksBack limit states context host result handled after left) :
    ∃ rollback, graph.unwind limit states context host = some rollback ∧
      rollback.result = result ∧ rollback.handled = handled ∧ rollback.context = after ∧
      rollback.host = left := by
  cases h with
  | done hsteps => exact exists_unwind_of_takesBack hbuilt hsteps
  | @failed newer older state _ _ _ _ _ _ _ _ hnewer hnode hundo hrun herror =>
    obtain ⟨first, hfirst, hok, hhandled, rfl, rfl⟩ := exists_unwind_of_takesBack hbuilt hnewer
    obtain rfl := Node.undoneWith_iff.mp hundo
    rw [unwind_append, hfirst, Option.bind_some, first.andThen_of_ok hok,
      unwind_of_error hnode hrun herror]
    refine ⟨_, rfl, rfl, ?_, rfl, rfl⟩
    exact (List.append_nil _).trans hhandled

/-- A walk depends on the nodes of the graph only. -/
theorem unwind_congr {other : Graph σ} (hnodes : ∀ state, other.node? state = graph.node? state) :
    other.unwind limit states context host = graph.unwind limit states context host := by
  induction states generalizing context host with
  | nil => rfl
  | cons state older ih => simp only [unwind, hnodes, ih]

end Unwind

/-! ## The rollback of a process -/

variable {graph : Graph σ} {limit : Nat} {process : Process σ} {context : Context σ} {host : σ}

theorem walksBack_iff (hbuilt : graph.Built) {result : Except RollbackError Unit}
    {handled : List StateName} {after : Context σ} {left : σ} :
    graph.WalksBack limit process.visited.reverse context host result handled after left ↔
      ∃ rollback, graph.rollback limit process context host = some rollback ∧
        rollback.result = result ∧ rollback.handled = handled ∧ rollback.context = after ∧
        rollback.host = left := by
  constructor
  · intro h
    obtain ⟨rollback, hunwind, hparts⟩ := exists_unwind_of_walksBack hbuilt h
    exact ⟨_, Option.map_eq_some_iff.mpr ⟨rollback, hunwind, rfl⟩, hparts⟩
  · rintro ⟨_, hrollback, rfl, rfl, rfl, rfl⟩
    obtain ⟨rollback, hunwind, rfl⟩ := Option.map_eq_some_iff.mp hrollback
    have hwalks := walksBack_of_unwind hbuilt hunwind
    exact hwalks

/-- Neither the checkpoint of the graph nor that of the process takes part. -/
theorem rollback_of_checkpoints (own given : Option (Checkpoint σ)) :
    { graph with checkpoint := own }.rollback limit { process with checkpoint := given } context
        host =
      graph.rollback limit process context host := by
  have hunwind : { graph with checkpoint := own }.unwind limit process.visited.reverse context
      host = graph.unwind limit process.visited.reverse context host := unwind_congr fun _ => rfl
  rw [rollback, rollback, hunwind]

theorem rollback_visited (states : List StateName) :
    graph.rollback limit { process with visited := states } context host =
      (graph.unwind limit states.reverse context host).map (·.within (.rollback graph.name)) := rfl

/-- A rollback of a history is one of its newer part and, if that succeeds, one of the rest. -/
theorem rollback_append (older newer : List StateName) :
    graph.rollback limit { process with visited := older ++ newer } context host =
      (graph.rollback limit { process with visited := newer } context host).bind
        (·.andThen (graph.rollback limit { process with visited := older })) := by
  rw [rollback_visited, rollback_visited, List.reverse_append, unwind_append, Option.map_bind,
    Option.bind_map]
  exact congrArg _ (funext fun first => (first.andThen_within ..).symm)

/-- Rolling back a process with any history, also one that repeats states or has states
without a node.  The rollback returns just if the walk back over the visited states comes
to an end, newest first, and then it has the result of the walk, reports the states that
the walk handled, and leaves what the walk leaves, also after an error.  No checkpoint has
a part in it, the process of a manager stays as it is, and a history can be rolled back
in two parts. -/
theorem rollback_is_reverse_walk (hbuilt : graph.Built) (limit : Nat) (process : Process σ)
    (context : Context σ) (host : σ) :
    (∀ result handled after left,
      graph.WalksBack limit process.visited.reverse context host result handled after left ↔
        ∃ rollback, graph.rollback limit process context host = some rollback ∧
          rollback.result = result ∧ rollback.handled = handled ∧ rollback.context = after ∧
          rollback.host = left) ∧
    (∀ own given : Option (Checkpoint σ),
      { graph with checkpoint := own }.rollback limit { process with checkpoint := given }
        context host = graph.rollback limit process context host) ∧
    (∀ manager : Manager σ, manager = { graph, execution := { context, process, host } } →
      manager.rollback limit = graph.rollback limit process context host ∧
      ∀ rollback, (manager.afterRollback rollback).process = process ∧
        (manager.afterRollback rollback).context = rollback.context) ∧
    ∀ older newer, process.visited = older ++ newer →
      graph.rollback limit process context host =
        (graph.rollback limit { process with visited := newer } context host).bind
          (·.andThen (graph.rollback limit { process with visited := older })) := by
  refine ⟨fun _ _ _ _ => walksBack_iff hbuilt, rollback_of_checkpoints, ?_, ?_⟩
  · rintro manager rfl
    exact ⟨rfl, fun rollback => ⟨rfl, rfl⟩⟩
  · intro older newer hvisited
    have hprocess : { process with visited := older ++ newer } = process := by rw [← hvisited]
    rw [← rollback_append, hprocess]

/-! ## A removal -/

/-- Tells the host. -/
def telling (text : String) : Callback (List String) :=
  .ofFunction fun context host => { result := .ok (), context, host := host ++ [text] }

def removalSteps : List (Directive (List String)) :=
  [ .startNode [(.proceed, ⟨"pack"⟩)]
  , .addNode (.define ⟨"pack"⟩
      [ .command { name := "Pack", call := .skip, rollback := telling "unpack" }
      , .rollback (telling "drop"), .on .proceed ⟨"weigh"⟩ ])
  , .addNode (.define ⟨"weigh"⟩ [.on .proceed ⟨"load"⟩])
  , .addNode (.define ⟨"load"⟩
      [.rollback (.ofFunction fun context host =>
        { result := .error (.text "no ramp")
          context := context.recordFailure "still loaded" none
          host := host ++ ["unload"] })]) ]

/-- What was packed is unpacked and what was weighed stays, but nothing can be unloaded. -/
def removal : Graph (List String) := (define "Removal" removalSteps).toOption.getD { name := "" }

/-- A removal that made a detour to a state that there is no node for, and packed twice
after that. -/
def removed : Process (List String) :=
  { state := ⟨"pack"⟩
    visited := [⟨"pack"⟩, ⟨"load"⟩, ⟨"weigh"⟩, ⟨"store"⟩, ⟨"pack"⟩, ⟨"pack"⟩]
    checkpoint := some fun _ _ host => (.ok true, host ++ ["saved"]) }

theorem built_removal : removal.Built := ⟨"Removal", removalSteps, rfl⟩

/-- Both packings and the weighing are handled, unloading fails, and the first packing is
not reached. -/
theorem removal_walks_back :
    removal.WalksBack 1
      [⟨"pack"⟩, ⟨"pack"⟩, ⟨"store"⟩, ⟨"weigh"⟩, ⟨"load"⟩, ⟨"pack"⟩] .empty []
      (.error { state := ⟨"load"⟩, cause := .text "no ramp" }) [⟨"pack"⟩, ⟨"pack"⟩, ⟨"weigh"⟩]
      (.recordFailure .empty "still loaded" none) ["unpack", "unpack", "unload"] ∧
    removal.rollback 1 removed .empty [] =
      (removal.rollback 1 { removed with visited := [⟨"store"⟩, ⟨"pack"⟩, ⟨"pack"⟩] }
        .empty []).bind
        (·.andThen (removal.rollback 1
          { removed with visited := [⟨"pack"⟩, ⟨"load"⟩, ⟨"weigh"⟩] })) := by
  obtain ⟨hwalks, _, _, hparts⟩ := rollback_is_reverse_walk built_removal 1 removed .empty []
  have hrun : removal.rollback 1 removed .empty [] = some _ := rfl
  exact ⟨(hwalks _ _ _ _).mpr ⟨_, hrun, rfl, rfl, rfl, rfl⟩,
    hparts [⟨"pack"⟩, ⟨"load"⟩, ⟨"weigh"⟩] _ rfl⟩

end Graph

end Workflow
