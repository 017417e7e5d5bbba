import Mathlib.Data.List.Chain
import Workflow.Proofs.Run
import Workflow.Subgraph

/-!
# Paths of a workflow

The history of a process is a path of the signal tables.

* `Traverses` enters states one after the other, each the target of the one
  before under the signal that the hook there picked on what the work left.
  `traverses_of_runs` and `traverses_of_advances` find the visited states of a
  call to be such a traversal, whatever stopped the call.
* `Reachable` is every cursor that calls can make of a new process, with any
  signals, contexts and checkpoints.  `Reachable.isPath` carries the path from
  call to call.
* `calls_keep_to_path` states both.
-/

namespace Workflow

/-- The cursor after entering several states, one after the other. -/
def Cursor.enterAll (cursor : Cursor) (states : List StateName) : Cursor :=
  { cursor with
    state := states.getLastD cursor.state
    visited := cursor.visited ++ states }

@[simp]
theorem Cursor.enterAll_nil (cursor : Cursor) : cursor.enterAll [] = cursor := by
  rw [enterAll, List.append_nil]
  rfl

theorem Cursor.enterAll_cons (cursor : Cursor) (state : StateName) (states : List StateName) :
    cursor.enterAll (state :: states) = (cursor.enter state).enterAll states := by
  rw [enterAll, List.append_cons, List.getLastD_cons]
  rfl

namespace Graph

variable {σ : Type}

/-- Entering states from where a run stands, with a signal. -/
inductive Traverses (graph : Graph σ) (limit : Nat) :
    Signal → Execution σ → List StateName → Execution σ → Prop
  | nil {signal : Signal} {start : Execution σ} : Traverses graph limit signal start [] start
  | cons {signal next : Signal} {node : Node σ} {start final : Execution σ}
      {reply : Reply σ} {host : σ} {states : List StateName}
      (htarget : graph.target? start.process.state signal = some node.state)
      (hnode : graph.node? node.state = some node)
      (hrun : (graph.attempt node).run limit start.context start.host = some reply)
      (hchoose : graph.choose node reply.context reply.host = (.ok next, host))
      (hrest : Traverses graph limit next
        { context := reply.context, process := start.process.enter node.state
          host := (start.process.visit node.state host).host } states final) :
      Traverses graph limit signal start (node.state :: states) final

/-- Some signal leads from one state to the other. -/
def Edge (graph : Graph σ) (origin target : StateName) : Prop :=
  ∃ signal, graph.target? origin signal = some target

/-- Each state but the first is a target of the one before. -/
def IsPath (graph : Graph σ) (states : List StateName) : Prop :=
  states.IsChain graph.Edge

/-- The cursors that calls can make of a new process.  Each call is given the
cursor that the one before left; its signal, context and checkpoint are free. -/
inductive Reachable (graph : Graph σ) : Cursor → Prop
  | new (reference : Option String) : Reachable graph { reference }
  | call {process : Process σ} {limit : Nat} {signal? : Option Signal} {context : Context σ}
      {host : σ} {segment : Segment σ} (hreachable : Reachable graph process.toCursor)
      (hcall : graph.call limit signal? (some process) context host = some segment) :
      Reachable graph segment.final.process.toCursor

/-! ## What a traversal does -/

namespace Traverses

variable {graph : Graph σ} {limit : Nat} {signal : Signal} {start final : Execution σ}
  {states : List StateName}

theorem toCursor_final (h : graph.Traverses limit signal start states final) :
    final.process.toCursor = start.process.toCursor.enterAll states := by
  induction h with
  | nil => rw [Cursor.enterAll_nil]
  | cons _ _ _ _ _ ih =>
    rw [ih, Cursor.enterAll_cons]
    rfl

theorem checkpoint_final (h : graph.Traverses limit signal start states final) :
    final.process.checkpoint = start.process.checkpoint := by
  induction h with
  | nil => rfl
  | cons _ _ _ _ _ ih => exact ih

theorem isPath (h : graph.Traverses limit signal start states final) :
    graph.IsPath (start.process.state :: states) := by
  induction h with
  | nil => exact .singleton _
  | cons htarget _ _ _ _ ih => exact .cons_cons ⟨_, htarget⟩ ih

theorem node?_of_mem (h : graph.Traverses limit signal start states final)
    {state : StateName} (hmem : state ∈ states) : ∃ node, graph.node? state = some node := by
  induction h with
  | nil => contradiction
  | cons _ hnode _ _ _ ih =>
    rcases List.mem_cons.mp hmem with rfl | hmem
    · exact ⟨_, hnode⟩
    · exact ih hmem

end Traverses

/-! ## The visited states of a call -/

theorem traverses_of_runs {graph : Graph σ} (hbuilt : graph.Built) {limit : Nat}
    {node : Node σ} {start : Execution σ} {rounds : List (Round σ)} {signal : Signal}
    (hmem : node ∈ graph.nodes)
    (htarget : graph.target? start.process.state signal = some node.state)
    (h : graph.Runs limit node start rounds) :
    ∃ reached, graph.Traverses limit signal start (rounds.filterMap Round.visited?) reached ∧
      (start.afterRounds rounds).process = reached.process := by
  induction h generalizing signal with
  | @last node start reply round hrun hending hlast =>
    rcases ending_stays_or_enters hending with ⟨hstays, hprocess⟩ | ⟨next, host, haccepts, rfl⟩
    · rw [List.filterMap_cons_none (visited?_of_not_entered hstays)]
      exact ⟨start, .nil, hprocess⟩
    · rw [List.filterMap_cons_some (visited?_accept ..)]
      exact ⟨_, .cons htarget (hbuilt.indexed.node?_of_mem hmem) hrun haccepts.choose .nil, rfl⟩
  | next hrun haccepts hnext hsignal hrest ih =>
    rw [List.filterMap_cons_some (visited?_accept ..)]
    -- The next node is where the picked signal leads from the state just entered.
    rw [← target?_of_mem hbuilt hmem] at hsignal
    obtain ⟨reached, htraverses, hprocess⟩ := ih hnext hsignal
    exact ⟨reached,
      .cons htarget (hbuilt.indexed.node?_of_mem hmem) hrun haccepts.choose htraverses, hprocess⟩

theorem traverses_of_advances {graph : Graph σ} (hbuilt : graph.Built) {limit : Nat}
    {signal : Signal} {start : Execution σ} {segment : Segment σ}
    (h : graph.Advances limit signal start segment) :
    ∃ reached, graph.Traverses limit signal start segment.visited reached ∧
      segment.final.process = reached.process := by
  cases h with
  | entered hmem htarget hruns hlength => exact traverses_of_runs hbuilt hmem htarget hruns
  | stayed | invalid => exact ⟨start, .nil, rfl⟩

theorem Reachable.isPath {graph : Graph σ} (hbuilt : graph.Built) {cursor : Cursor}
    (h : graph.Reachable cursor) :
    graph.IsPath (.initial :: cursor.visited) ∧
      (StateName.initial :: cursor.visited).getLast? = some cursor.state := by
  induction h with
  | new => exact ⟨.singleton _, rfl⟩
  | @call process _ _ _ _ segment _ hcall ih =>
    obtain ⟨hpath, hlast⟩ := ih
    obtain ⟨reached, htraverses, hprocess⟩ :=
      traverses_of_advances hbuilt ((advance_eq_some_iff hbuilt).mp hcall)
    have hedges : graph.IsPath (process.state :: segment.visited) := htraverses.isPath
    have hcursor : reached.process.toCursor = process.toCursor.enterAll segment.visited :=
      htraverses.toCursor_final
    rw [hprocess, hcursor]
    constructor
    · refine List.isChain_append.mpr ⟨hpath, hedges.tail, ?_⟩
      intro origin horigin target htarget
      rw [hlast] at horigin
      obtain rfl := Option.some.inj horigin
      exact (List.isChain_cons.mp hedges).1 target htarget
    · show ((StateName.initial :: process.visited) ++ segment.visited).getLast? =
        some (segment.visited.getLastD process.state)
      rw [List.getLast?_append, hlast, List.getLastD_eq_getLast?]
      cases segment.visited.getLast? <;> rfl

/-- Whatever the callbacks and the checkpoint do, a call appends to the history a
traversal that starts with its signal, and leaves the cursor at its end.  So the
history of a new process stays a path from the initial state, whatever calls are
made of it, and the current state is the last one on it. -/
theorem calls_keep_to_path {graph : Graph σ} (hbuilt : graph.Built) :
    (∀ {limit : Nat} {signal? : Option Signal} {process? : Option (Process σ)}
        {context : Context σ} {host : σ} {segment : Segment σ},
      graph.call limit signal? process? context host = some segment →
      let process := process?.getD .new
      ∃ reached,
        graph.Traverses limit (signal?.getD .proceed)
          { context, process := graph.attach process, host } segment.visited reached ∧
        segment.final.process = reached.process ∧
        segment.final.process.visited = process.visited ++ segment.visited ∧
        segment.final.process.state = segment.visited.getLastD process.state ∧
        segment.final.process.reference = process.reference ∧
        ∀ state ∈ segment.visited, (∃ node, graph.node? state = some node) ∧ state ≠ .wait) ∧
      ∀ {cursor : Cursor}, graph.Reachable cursor →
        graph.IsPath (.initial :: cursor.visited) ∧
          (StateName.initial :: cursor.visited).getLast? = some cursor.state := by
  constructor
  · intro limit signal? process? context host segment hcall
    obtain ⟨reached, htraverses, hprocess⟩ :=
      traverses_of_advances hbuilt ((advance_eq_some_iff hbuilt).mp hcall)
    have hcursor := htraverses.toCursor_final
    refine ⟨reached, htraverses, hprocess, ?_, ?_, ?_, ?_⟩
    · rw [hprocess, hcursor]; rfl
    · rw [hprocess, hcursor]; rfl
    · rw [hprocess, hcursor]; rfl
    · intro state hmem
      obtain ⟨node, hnode⟩ := htraverses.node?_of_mem hmem
      exact ⟨⟨node, hnode⟩, hbuilt.indexed.ne_wait_of_node? hnode⟩
  · intro cursor hreachable
    exact hreachable.isPath hbuilt

/-- A drawing that is drafted until the host has counted to two, then waits, and
is reviewed. -/
def drawingSteps : List (Directive Nat) :=
  [ .startNode [(.proceed, ⟨"draft"⟩)]
  , .addNode (.define ⟨"draft"⟩
      [ .operation (.ofFunction fun context host => { result := .ok (), context, host := host + 1 })
      , .determine (.inline fun _ host => (if host < 2 then ⟨"again"⟩ else ⟨"done"⟩, host))
      , .signals [(⟨"again"⟩, ⟨"draft"⟩), (⟨"done"⟩, .wait), (⟨"review"⟩, ⟨"reviewed"⟩)] ])
  , .addNode (.new ⟨"reviewed"⟩) ]

def drawing : Graph Nat := (define "Drawing" drawingSteps).toOption.getD { name := "" }

theorem built_drawing : drawing.Built := ⟨"Drawing", drawingSteps, rfl⟩

/-- The drawing is drafted twice in one call and reviewed in the next. -/
theorem drawing_keeps_to_path :
    ∃ first second,
      drawing.call 5 none (some .new) .empty 0 = some first ∧
      drawing.call 5 (some ⟨"review"⟩) (some first.final.process) .empty 2 = some second ∧
      (∃ reached, drawing.Traverses 5 .proceed { context := .empty, process := .new, host := 0 }
        [⟨"draft"⟩, ⟨"draft"⟩] reached ∧ first.final.process = reached.process) ∧
      drawing.IsPath [.initial, ⟨"draft"⟩, ⟨"draft"⟩, ⟨"reviewed"⟩] := by
  have hfirst : drawing.call 5 none (some .new) .empty 0 = some _ := rfl
  have hsecond : drawing.call 5 (some ⟨"review"⟩) (some (.restore [⟨"draft"⟩, ⟨"draft"⟩]))
      .empty 2 = some _ := rfl
  refine ⟨_, _, hfirst, hsecond, ?_, ?_⟩
  · obtain ⟨reached, htraverses, hprocess, _⟩ := (calls_keep_to_path built_drawing).1 hfirst
    exact ⟨reached, htraverses, hprocess⟩
  · exact ((calls_keep_to_path built_drawing).2 (.call (.call (.new none) hfirst) hsecond)).1

end Graph

end Workflow
