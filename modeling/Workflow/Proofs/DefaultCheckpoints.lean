import Workflow.Proofs.Sessions
import Workflow.Proofs.Trails

/-!
# Which default checkpoint saves

A process without a checkpoint of its own takes the default of a graph when it is called
there, and it does not give it back: a later call on another graph finds that one attached
and leaves its own default aside.  Only storing the process drops it.

* `Process.GoesThrough` is a process going from graph to graph, call after call, and
  `Graph.sinceStored` the graphs that it went through since it was stored last.
  `checkpoint_of_goesThrough`: the first of these that has a default has left it with the
  process.
* `Round.SavedBy` says that it was this checkpoint that a round asked.  `savedBy_of_ending`
  is one round, and `saved_of_mem_trail` carries the checkpoint in force through a call.
* `first_default_saves` puts both together.  `return_saved_with_sales` is a default that is
  left aside.
-/

namespace Workflow

variable {σ : Type}

/-- A round asked the checkpoint about entering its state, on the host as the pick of the
signal had left it, and has its answer. -/
def Round.SavedBy (round : Round σ) (graph : Graph σ) (checkpoint : Checkpoint σ) : Prop :=
  ∃ before answer,
    round.save = some { before, state := round.state, answer } ∧
      checkpoint before round.state
          (graph.choose round.node round.reply.context round.reply.host).2 =
        (answer, round.after.host)

namespace Graph

/-- The graphs since the process was stored last, one more call taken into account. -/
def nextSinceStored (since : List (Graph σ)) : Storage × Graph σ → List (Graph σ)
  | (.memory, graph) => since ++ [graph]
  | (.document, graph) | (.text, graph) => [graph]

/-- Of the graphs that a process went through, each with where it was before, those since it
was stored last. -/
def sinceStored (stages : List (Storage × Graph σ)) : List (Graph σ) :=
  stages.foldl nextSinceStored []

/-- The first default checkpoint of some graphs. -/
def firstDefault (graphs : List (Graph σ)) : Option (Checkpoint σ) :=
  graphs.findSome? Graph.checkpoint

end Graph

/-- What is left of a checkpoint after the process was somewhere. -/
def Storage.kept (storage : Storage) (checkpoint? : Option (Checkpoint σ)) :
    Option (Checkpoint σ) :=
  match storage with
  | .memory => checkpoint?
  | .document | .text => none

/-- A process goes from graph to graph.  Each call is given what the one before left, out of
the storage where it was in between. -/
inductive Process.GoesThrough (start : Process σ) : List (Storage × Graph σ) → Process σ → Prop
  | nil : GoesThrough start [] start
  | call {stages : List (Storage × Graph σ)} {reached reloaded : Process σ} {storage : Storage}
      {graph : Graph σ} {limit : Nat} {signal? : Option Signal} {context : Context σ} {host : σ}
      {segment : Segment σ} (hbefore : GoesThrough start stages reached)
      (hreload : storage.reload? reached = some reloaded) (hbuilt : graph.Built)
      (hcall : graph.call limit signal? (some reloaded) context host = some segment) :
      GoesThrough start (stages ++ [(storage, graph)]) segment.final.process

namespace Graph

/-! ## What a process takes along -/

/-- What is stored comes back without a checkpoint. -/
theorem checkpoint_of_reload? {storage : Storage} {process reloaded : Process σ}
    (h : storage.reload? process = some reloaded) :
    reloaded.checkpoint = storage.kept process.checkpoint := by
  cases storage with
  | memory =>
    obtain rfl := Option.some.inj h
    rfl
  | document =>
    rw [Storage.reload?, Process.ofDocument, Cursor.ofDocument_toDocument] at h
    obtain rfl := Option.some.inj h
    rfl
  | text =>
    rw [Storage.reload?, Process.ofText, Cursor.ofText_toText] at h
    obtain rfl := Option.some.inj h
    rfl

/-- With one more call the first default is the one that the process has along, or else that
of the graph which is called. -/
theorem firstDefault_concat (stages : List (Storage × Graph σ)) (storage : Storage)
    (graph : Graph σ) :
    firstDefault (sinceStored (stages ++ [(storage, graph)])) =
      (storage.kept (firstDefault (sinceStored stages))).or graph.checkpoint := by
  rw [sinceStored, List.foldl_append]
  cases storage with
  | memory =>
    show firstDefault (sinceStored stages ++ [graph]) = _
    rw [firstDefault, List.findSome?_append, List.findSome?_singleton]
    rfl
  | document | text =>
    show firstDefault [graph] = _
    rw [firstDefault, List.findSome?_singleton]
    rfl

/-- The checkpoint that a call is made with. -/
theorem checkpoint_attach {stages : List (Storage × Graph σ)} {process reloaded : Process σ}
    {storage : Storage} (hreload : storage.reload? process = some reloaded)
    (hprocess : process.checkpoint = firstDefault (sinceStored stages)) (graph : Graph σ) :
    (graph.attach reloaded).checkpoint =
      firstDefault (sinceStored (stages ++ [(storage, graph)])) := by
  rw [firstDefault_concat, attach, checkpoint_of_reload? hreload]
  cases storage with
  | memory => exact congrArg (Option.or · graph.checkpoint) hprocess
  | document | text => rfl

/-- The induction is on the calls.  None of them changes the checkpoint that it was made
with. -/
theorem checkpoint_of_goesThrough {start process : Process σ} {stages : List (Storage × Graph σ)}
    (hnone : start.checkpoint = none) (h : start.GoesThrough stages process) :
    process.checkpoint = firstDefault (sinceStored stages) := by
  induction h with
  | nil => exact hnone
  | @call stages reached reloaded storage graph _ _ _ _ segment _ hreload hbuilt hcall ih =>
    have hadvances := (advance_eq_some_iff hbuilt).mp hcall
    have hkept : segment.final.process.checkpoint = (graph.attach reloaded).checkpoint :=
      checkpoint_of_advances hbuilt hadvances
    exact hkept.trans (checkpoint_attach hreload ih graph)

/-! ## What a round asks -/

section Rounds

variable {graph : Graph σ} {limit : Nat} {node : Node σ} {start : Execution σ}
  {round : Round σ} {checkpoint : Checkpoint σ}

theorem visit_of_checkpoint {process : Process σ} (h : process.checkpoint = some checkpoint)
    (state : StateName) (host : σ) :
    ∃ answer,
      (process.visit state host).save = some { before := process.toCursor, state, answer } ∧
        checkpoint process.toCursor state host = (answer, (process.visit state host).host) := by
  unfold Process.visit
  rw [h]
  exact ⟨_, rfl, rfl⟩

/-- A round that enters its state has asked the checkpoint of its process, and so has one
that was refused. -/
theorem savedBy_of_ending {process : Process σ} {reply : Reply σ}
    (h : graph.Ending node process reply round) (hcheckpoint : process.checkpoint = some checkpoint)
    (hsaved : round.save.isSome ∨ round.conclusion.entered) : round.SavedBy graph checkpoint := by
  cases h with
  | interrupted | failed => rcases hsaved with hsome | hentered <;> contradiction
  | @refused signal host save refusal hwork hchoose hgoes hsave hrefused =>
    obtain ⟨answer, hmade, hasked⟩ := visit_of_checkpoint hcheckpoint node.state host
    refine ⟨process.toCursor, answer, hsave.symm.trans hmade, ?_⟩
    show checkpoint _ _ (graph.choose node reply.context reply.host).2 = _
    rw [hchoose]
    exact hasked
  | @entered signal host haccepts =>
    obtain ⟨answer, hmade, hasked⟩ := visit_of_checkpoint hcheckpoint node.state host
    refine ⟨process.toCursor, answer, hmade, ?_⟩
    show checkpoint _ _ (graph.choose node reply.context reply.host).2 = _
    rw [haccepts.choose]
    exact hasked

theorem checkpoint_round (h : graph.round limit node start = some round) :
    round.after.process.checkpoint = start.process.checkpoint := by
  rw [process_round h, Round.move]
  split <;> rfl

/-- The checkpoint in force makes all the saves of a call, and without one there are none. -/
theorem saved_of_mem_trail (hbuilt : graph.Built) {signal : Signal}
    (h : round ∈ (graph.trail limit signal start).rounds) :
    (∀ checkpoint, start.process.checkpoint = some checkpoint →
      round.save.isSome ∨ round.conclusion.entered → round.SavedBy graph checkpoint) ∧
    (start.process.checkpoint = none → round.save = none) := by
  obtain ⟨hmem, _, _⟩ := round_of_mem_trail hbuilt h
  obtain ⟨reached, hround, hcheckpoint⟩ :
      ∃ reached, graph.round limit round.node reached = some round ∧
        reached.process.checkpoint = start.process.checkpoint :=
    reached_of_mem_trail (fun hround hkept => (checkpoint_round hround).trans hkept) rfl h
  obtain ⟨reply, _, hending⟩ := (round_eq_some_iff hbuilt hmem).mp hround
  rw [← hcheckpoint]
  refine ⟨fun checkpoint => savedBy_of_ending hending, fun hnone => ?_⟩
  rcases ending_save hending with ⟨hsave, _⟩ | ⟨_, _, hsome, _⟩
  · exact hsave
  · rw [hnone] at hsome
    contradiction

end Rounds

/-! ## The first default saves -/

/-- A process to which no checkpoint was attached goes through graphs, with any signals and
contexts, and is stored between some of the calls.  The saves of a call are all made by the
default checkpoint of the first graph that has one, of those since the process was stored
last: of the graph that is called, if the process was stored before the call, but else of
an earlier one, if any of these has a default.  If none has, nothing is saved.  This holds
of a call that has not returned, too. -/
theorem first_default_saves {start process reloaded : Process σ}
    {stages : List (Storage × Graph σ)} (hnone : start.checkpoint = none)
    (hprocess : start.GoesThrough stages process) {storage : Storage}
    (hreload : storage.reload? process = some reloaded) {graph : Graph σ} (hbuilt : graph.Built)
    (limit : Nat) (signal? : Option Signal) (context : Context σ) (host : σ) :
    let inForce := firstDefault (sinceStored (stages ++ [(storage, graph)]))
    let trail := graph.trail limit (signal?.getD .proceed)
      (graph.manager (some reloaded) context host).execution
    (inForce = none → ∀ round ∈ trail.rounds, round.save = none) ∧
    (∀ checkpoint, inForce = some checkpoint → ∀ round ∈ trail.rounds,
      round.save.isSome ∨ round.conclusion.entered → round.SavedBy graph checkpoint) ∧
    (storage ≠ .memory → inForce = graph.checkpoint) ∧
    (storage = .memory → inForce = (firstDefault (sinceStored stages)).or graph.checkpoint) := by
  intro inForce trail
  have hstart : (graph.manager (some reloaded) context host).execution.process.checkpoint =
      inForce :=
    checkpoint_attach hreload (checkpoint_of_goesThrough hnone hprocess) graph
  refine ⟨fun hinForce round hround => ?_, fun checkpoint hinForce round hround => ?_,
    fun hstored => ?_, fun hmemory => ?_⟩
  · exact (saved_of_mem_trail hbuilt hround).2 (hstart.trans hinForce)
  · exact (saved_of_mem_trail hbuilt hround).1 checkpoint (hstart.trans hinForce)
  · refine (firstDefault_concat stages storage graph).trans ?_
    cases storage with
    | memory => contradiction
    | document | text => rfl
  · subst hmemory
    exact firstDefault_concat stages .memory graph

/-! ## A sale and its return -/

/-- The host has the list of the registers, in the order of the entries made. -/
def register (name : String) : Checkpoint (List String) :=
  fun _ _ entries => (.ok true, entries ++ [name])

def saleSteps : List (Directive (List String)) :=
  [ .checkpoint (register "sales")
  , .startNode [(.proceed, ⟨"sold"⟩)]
  , .addNode (.new ⟨"sold"⟩) ]

def sale : Graph (List String) := (define "Sale" saleSteps).toOption.getD { name := "" }

def goodsReturnSteps : List (Directive (List String)) :=
  [ .checkpoint (register "returns")
  , .startNode [(.proceed, ⟨"sold"⟩)]
  , .addNode (.define ⟨"sold"⟩ [.on .proceed ⟨"returned"⟩])
  , .addNode (.new ⟨"returned"⟩) ]

/-- What was sold comes back. -/
def goodsReturn : Graph (List String) :=
  (define "Return" goodsReturnSteps).toOption.getD { name := "" }

theorem built_goodsReturn : goodsReturn.Built := ⟨"Return", goodsReturnSteps, rfl⟩

def soldGoods : Segment (List String) := (sale.call 1 none (some .new) .empty []).get rfl

theorem goesThrough_sale :
    (Process.new : Process (List String)).GoesThrough [(.memory, sale)]
      soldGoods.final.process := by
  have hcall : sale.call 1 none (some .new) .empty [] = some soldGoods := rfl
  exact .call .nil rfl ⟨"Sale", saleSteps, rfl⟩ hcall

/-- The return of the goods, on what came out of the storage. -/
def returnOf (process : Process (List String)) : Trail (List String) :=
  goodsReturn.trail 1 .proceed { context := .empty, process := goodsReturn.attach process
                                 host := ["sales"] }

/-- If the goods are put on record after the sale, their return is entered with the
returns. -/
theorem stored_return_saved_with_returns :
    ∃ reloaded, Storage.document.reload? soldGoods.final.process = some reloaded ∧
      (returnOf reloaded).visited = [⟨"returned"⟩] ∧
      ∀ round ∈ (returnOf reloaded).rounds, round.SavedBy goodsReturn (register "returns") := by
  have hreload : Storage.document.reload? soldGoods.final.process =
      some (.ofCursor soldGoods.final.process.toCursor) := rfl
  obtain ⟨_, hsaved, hstored, _⟩ := first_default_saves rfl goesThrough_sale hreload
    built_goodsReturn 1 none .empty ["sales"]
  refine ⟨_, hreload, rfl, fun round hround => ?_⟩
  apply hsaved _ (hstored Storage.noConfusion) round hround
  obtain rfl := List.mem_singleton.mp hround
  exact .inr rfl

/-- If they are not, it is entered with the sales, and the default checkpoint of the graph that
returns them saves nothing. -/
theorem return_saved_with_sales :
    (Process.new : Process (List String)).checkpoint = none ∧
      (Process.new : Process (List String)).GoesThrough [(.memory, sale)]
        soldGoods.final.process ∧
      goodsReturn.Built ∧ goodsReturn.checkpoint = some (register "returns") ∧
      ∃ segment,
        goodsReturn.call 1 none (some soldGoods.final.process) .empty ["sales"] = some segment ∧
        segment.visited = [⟨"returned"⟩] ∧ segment.final.host = ["sales", "sales"] ∧
        ∀ round ∈ segment.rounds, ¬ round.SavedBy goodsReturn (register "returns") := by
  refine ⟨rfl, goesThrough_sale, built_goodsReturn, rfl, _, rfl, rfl, rfl, ?_⟩
  intro round hround
  obtain rfl := List.mem_singleton.mp hround
  rintro ⟨before, answer, _, hasked⟩
  have hentries : ["sales", "returns"] = ["sales", "sales"] := congrArg Prod.snd hasked
  contradiction

end Graph

end Workflow
