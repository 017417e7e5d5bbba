import Workflow.Proofs.Keeping
import Workflow.Proofs.Rollback

/-!
# Nested rollback as one walk

A rollback goes down into the nested runs whose processes it finds.  This module
flattens that into one walk back over all levels.

* `Journey.undo` is the steps of the walk and `Journey.takeBack` the walk as one
  callback.
* `Graph.Reverts` is every compensation that runs at some level of a rollback, and
  `Graph.SparesNested` that these leave the nested processes alone.
* `Journey.UndoneBy` is what a rollback does that matches the walk, and what it
  leaves of the nested processes in the context.
* `Journey.Retraces` says which nested runs a rollback finds: a node finds the
  process of its own run, or it finds nothing.  `undoneBy_rollback`: then the
  rollback is the walk back through the runs that it finds.
-/

namespace Workflow

variable {σ : Type}

/-! ## The steps of the walk -/

/-- A step back in a run with nested runs. -/
inductive Undo (σ : Type)
  /-- Run the compensation of a node that did its own work. -/
  | compensate (node : Node σ)
  /-- Take the process of a nested run out of the context. -/
  | forget (state : StateName)

namespace Undo

def callback : Undo σ → Callback σ
  | .compensate node => node.compensation
  | .forget state => .ofFunction fun context host =>
    { result := .ok (), context := context.erase state.subgraphKey, host }

/-- The node whose compensation the step runs. -/
def node? : Undo σ → Option (Node σ)
  | .compensate node => some node
  | .forget _ => none

/-- The state whose nested process the step takes out. -/
def forgotten? : Undo σ → Option StateName
  | .compensate _ => none
  | .forget state => some state

end Undo

namespace Journey

/-- The steps that take a journey back, newest visit first.  The process of a nested
run goes first, then what the run did, level by level. -/
def undo : Journey σ → List (Undo σ)
  | .new => []
  | .visit earlier node => .compensate node :: earlier.undo
  | .nested earlier node _ inner => .forget node.state :: (inner.undo ++ earlier.undo)

/-- The compensations are those of the executed nodes, in reverse order. -/
theorem filterMap_node?_undo (journey : Journey σ) :
    journey.undo.filterMap Undo.node? = journey.nodes.reverse := by
  induction journey with
  | new => rfl
  | visit earlier node ih => simp [undo, nodes, Undo.node?, ih]
  | nested earlier node child inner ihEarlier ihInner =>
    rw [undo, List.filterMap_cons_none rfl, List.filterMap_append, ihInner, ihEarlier, nodes,
      List.reverse_append]

/-- The nested processes taken out are those of the nested runs, in reverse order. -/
theorem filterMap_forgotten?_undo (journey : Journey σ) :
    journey.undo.filterMap Undo.forgotten? = journey.delegates.reverse := by
  induction journey with
  | new => rfl
  | visit earlier node ih => rw [undo, List.filterMap_cons_none rfl, ih, delegates]
  | nested earlier node child inner ihEarlier ihInner =>
    rw [undo, List.filterMap_cons, List.filterMap_append, ihInner, ihEarlier, delegates,
      List.reverse_concat, List.reverse_append]
    rfl

/-- Taking a journey back as one callback. -/
def takeBack (journey : Journey σ) : Callback σ :=
  .inOrder (journey.undo.map Undo.callback)

theorem takeBack_visit (earlier : Journey σ) (node : Node σ) :
    (earlier.visit node).takeBack = node.compensation.andThen earlier.takeBack := rfl

theorem takeBack_nested (earlier : Journey σ) (node : Node σ) (child : Graph σ)
    (inner : Journey σ) :
    (earlier.nested node child inner).takeBack =
      (Undo.forget node.state).callback.andThen (inner.takeBack.andThen earlier.takeBack) := by
  rw [takeBack, undo, List.map_cons, List.map_append, Callback.inOrder, Callback.inOrder_append]
  rfl

end Journey

/-! ## Compensations at every level -/

/-- Rolling the states of the graph back, at some level, a compensation of a node that
does its own work was given the context and left the reply. -/
inductive Graph.Reverts (nesting : Nesting σ) (limit : Nat) :
    Graph σ → List StateName → Context σ → σ → Context σ → Reply σ → Prop
  | own {graph : Graph σ} {state : StateName} {older : List StateName} {node : Node σ}
      {context : Context σ} {host : σ} {reply : Reply σ}
      (hnode : graph.node? state = some node) (hown : nesting node = none)
      (hrun : node.compensation.run limit context host = some reply) :
      Reverts nesting limit graph (state :: older) context host context reply
  /-- A compensation of the nested run whose process was found. -/
  | nested {graph child : Graph σ} {state : StateName} {older : List StateName} {node : Node σ}
      {context given : Context σ} {host : σ} {process : Process σ} {reply : Reply σ}
      (hnode : graph.node? state = some node) (hchild : nesting node = some child)
      (hprocess : context.get .process node.state.subgraphKey = some process)
      (hreverts : Reverts nesting limit child process.visited.reverse
        (context.erase node.state.subgraphKey) host given reply) :
      Reverts nesting limit graph (state :: older) context host given reply
  /-- A compensation of an older state. -/
  | older {graph : Graph σ} {state : StateName} {older : List StateName} {node : Node σ}
      {context given : Context σ} {host : σ} {left reply : Reply σ}
      (hnode : graph.node? state = some node)
      (hrun : node.compensation.run limit context host = some left) (hok : left.result = .ok ())
      (hreverts : Reverts nesting limit graph older left.context left.host given reply) :
      Reverts nesting limit graph (state :: older) context host given reply
  /-- A compensation of a state older than one without a node. -/
  | skipped {graph : Graph σ} {state : StateName} {older : List StateName}
      {context given : Context σ} {host : σ} {reply : Reply σ}
      (hnode : graph.node? state = none)
      (hreverts : Reverts nesting limit graph older context host given reply) :
      Reverts nesting limit graph (state :: older) context host given reply

/-- These compensations leave the nested processes alone.  They may fail. -/
def Graph.SparesNested (nesting : Nesting σ) (limit : Nat) (graph : Graph σ)
    (states : List StateName) (context : Context σ) (host : σ) : Prop :=
  ∀ ⦃given reply⦄, graph.Reverts nesting limit states context host given reply →
    given.SameNested reply.context

namespace Graph.SparesNested

variable {nesting : Nesting σ} {limit : Nat} {graph child : Graph σ} {states : List StateName}
  {node : Node σ} {context : Context σ} {host : σ} {left : Reply σ}

theorem own (h : graph.SparesNested nesting limit (node.state :: states) context host)
    (hnode : graph.node? node.state = some node) (hown : nesting node = none)
    (hrun : node.compensation.run limit context host = some left) :
    context.SameNested left.context := h (.own hnode hown hrun)

theorem older (h : graph.SparesNested nesting limit (node.state :: states) context host)
    (hnode : graph.node? node.state = some node)
    (hrun : node.compensation.run limit context host = some left) (hok : left.result = .ok ()) :
    graph.SparesNested nesting limit states left.context left.host :=
  fun _ _ hreverts => h (.older hnode hrun hok hreverts)

/-- The compensations of the nested run whose process is kept. -/
theorem inner {inside : Journey σ}
    (h : graph.SparesNested nesting limit (node.state :: states) context host)
    (hnode : graph.node? node.state = some node) (hchild : nesting node = some child)
    (hkept : inside.KeptAt node.state context) :
    child.SparesNested nesting limit inside.states.reverse
      (context.erase node.state.subgraphKey) host := by
  obtain ⟨process, hprocess, hvisited⟩ := hkept
  rw [← hvisited]
  exact fun _ _ hreverts => h (.nested hnode hchild hprocess hreverts)

end Graph.SparesNested

/-! ## What a rollback of a journey does -/

theorem data_get?_erase_of_ne {context : Context σ} {state other : StateName}
    (h : state ≠ other) :
    (context.erase state.subgraphKey).data.get? other.subgraphKey =
      context.data.get? other.subgraphKey := by
  show (context.data.erase state.subgraphKey).get? other.subgraphKey = _
  rw [Table.get?_erase, if_neg fun heq => h (StateName.subgraphKey_injective heq)]

theorem erase_of_absent {context : Context σ} {key : String}
    (h : context.data.get? key = none) : context.erase key = context := by
  have hdata : context.data.erase key = context.data := by
    refine Table.ext_get? fun other => ?_
    rw [Table.get?_erase]
    by_cases hkey : key = other
    · rw [if_pos hkey, ← hkey, h]
    · rw [if_neg hkey]
  rw [Context.erase, hdata]

namespace Journey

/-- A rollback of the journey on the given context matches the walk.  It leaves the
nested processes of other states alone and, if it succeeds, takes all of its own
out. -/
structure UndoneBy (journey : Journey σ) (given : Context σ) (rollback : Rollback σ)
    (reply : Reply σ) : Prop where
  steps : rollback.Matches reply
  others : ∀ state ∉ journey.delegates,
    rollback.context.data.get? state.subgraphKey = given.data.get? state.subgraphKey
  own : rollback.result = .ok () → ∀ state ∈ journey.delegates,
    rollback.context.data.get? state.subgraphKey = none

namespace UndoneBy

variable {journey inner : Journey σ} {node : Node σ} {child : Graph σ} {given : Context σ}
  {left reply : Reply σ} {rollback unwound : Rollback σ}

theorem congr {other : Rollback σ} (h : journey.UndoneBy given rollback reply)
    (hresult : other.result = rollback.result) (hcontext : other.context = rollback.context)
    (hhost : other.host = rollback.host) : journey.UndoneBy given other reply where
  steps := ⟨hcontext.trans h.steps.context, hhost.trans h.steps.host, hresult ▸ h.steps.result⟩
  others state hstate := hcontext ▸ h.others state hstate
  own hok state hstate := hcontext ▸ h.own (hresult ▸ hok) state hstate

/-- A success takes out what was there, and puts nothing in. -/
theorem absent (h : journey.UndoneBy given rollback reply) (hok : rollback.result = .ok ())
    {state : StateName} (habsent : given.data.get? state.subgraphKey = none) :
    rollback.context.data.get? state.subgraphKey = none := by
  by_cases hstate : state ∈ journey.delegates
  · exact h.own hok state hstate
  · exact (h.others state hstate).trans habsent

theorem visit (hsame : given.SameNested left.context)
    (h : journey.UndoneBy left.context rollback reply) (handled : List StateName)
    (journal : Journal) :
    (journey.visit node).UndoneBy given (rollback.behind handled journal) (reply.after left) where
  steps := h.steps.behind ..
  others state hstate := (h.others state hstate).trans (hsame state)
  own := h.own

theorem visit_of_error {state : StateName} {fault : Fault}
    (hresult : rollback.result = .error { state, cause := fault })
    (hcontext : rollback.context = reply.context) (hhost : rollback.host = reply.host)
    (hsame : given.SameNested reply.context) (herror : reply.result = .error fault) :
    (journey.visit node).UndoneBy given rollback reply where
  steps := .of_error hresult herror hcontext hhost
  others state _ := by rw [hcontext, hsame state]
  own hok := by
    rw [hresult] at hok
    contradiction

/-- What a rollback of the nested run leaves alone, the node leaves alone, too. -/
theorem nested_others (h : inner.UndoneBy (given.erase node.state.subgraphKey) unwound reply)
    {state : StateName} (hstate : state ∉ inner.delegates) (hne : node.state ≠ state) :
    unwound.context.data.get? state.subgraphKey = given.data.get? state.subgraphKey :=
  (h.others state hstate).trans (data_get?_erase_of_ne hne)

/-- The node takes out the process of its own run, and those that this run had left. -/
theorem nested_own (h : inner.UndoneBy (given.erase node.state.subgraphKey) unwound reply)
    (hok : unwound.result = .ok ()) {state : StateName}
    (hstate : state ∈ inner.delegates ∨ state = node.state) :
    unwound.context.data.get? state.subgraphKey = none := by
  rcases hstate with hinner | rfl
  · exact h.own hok state hinner
  · exact h.absent hok (Table.get?_erase_self ..)

/-- Of two runs that leave nothing behind, the older one was there from the start, under
the names that the newer one does not have. -/
theorem nodup_nested (child : Graph σ)
    (h : inner.UndoneBy (given.erase node.state.subgraphKey) unwound reply)
    (hok : unwound.result = .ok ()) (hnodup : journey.delegates.Nodup)
    (hpresent : ∀ state ∈ journey.delegates,
      unwound.context.data.get? state.subgraphKey ≠ none)
    (hnodupInner : inner.delegates.Nodup)
    (hpresentInner : ∀ state ∈ inner.delegates,
      (given.erase node.state.subgraphKey).data.get? state.subgraphKey ≠ none) :
    (journey.nested node child inner).delegates.Nodup ∧
      ∀ state ∈ journey.delegates ++ inner.delegates,
        given.data.get? state.subgraphKey ≠ none := by
  have hfresh : ∀ state ∈ inner.delegates, node.state ≠ state := by
    rintro state hstate rfl
    exact hpresentInner _ hstate (Table.get?_erase_self ..)
  have hgone : ∀ state ∈ journey.delegates, state ∉ inner.delegates ∧ node.state ≠ state :=
    fun state hstate => ⟨fun hmem => hpresent state hstate (h.nested_own hok (.inl hmem)),
      fun heq => hpresent state hstate (h.nested_own hok (.inr heq.symm))⟩
  refine ⟨List.nodup_append.mpr ⟨List.nodup_append.mpr ⟨hnodup, hnodupInner, ?_⟩,
    List.pairwise_singleton .., ?_⟩, fun state hstate => ?_⟩
  · rintro state hstate _ hother rfl
    exact (hgone state hstate).1 hother
  · intro state hstate other hother
    obtain rfl := List.mem_singleton.mp hother
    rcases List.mem_append.mp hstate with hstate | hstate
    · exact (hgone state hstate).2.symm
    · exact (hfresh state hstate).symm
  · rcases List.mem_append.mp hstate with hstate | hstate
    · rw [← h.nested_others (hgone state hstate).1 (hgone state hstate).2]
      exact hpresent state hstate
    · rw [← data_get?_erase_of_ne (hfresh state hstate)]
      exact hpresentInner state hstate

theorem nested {undone : Reply σ}
    (hinner : inner.UndoneBy (given.erase node.state.subgraphKey) unwound undone)
    (hok : unwound.result = .ok ()) (h : journey.UndoneBy unwound.context rollback reply)
    (handled : List StateName) (journal : Journal) :
    (journey.nested node child inner).UndoneBy given (rollback.behind handled journal)
      ((reply.after undone).after left) where
  steps := (h.steps.behind handled journal undone).behind [] [] left
  others state hstate := by
    simp only [delegates, List.mem_append, List.mem_singleton, not_or] at hstate
    obtain ⟨⟨hearlier, hnested⟩, hne⟩ := hstate
    exact (h.others state hearlier).trans (hinner.nested_others hnested (Ne.symm hne))
  own hresult state hstate := by
    simp only [delegates, List.mem_append, List.mem_singleton, or_assoc] at hstate
    rcases hstate with hearlier | hstate
    · exact h.own hresult state hearlier
    · exact h.absent hresult (hinner.nested_own hok hstate)

/-- The fault of the nested run is among the causes of the fault of the node. -/
theorem nested_of_error {error : RollbackError} {state : StateName}
    (hinner : inner.UndoneBy (given.erase node.state.subgraphKey) unwound reply)
    (herror : unwound.result = .error error)
    (hresult : rollback.result = .error { state, cause := error.toFault })
    (hcontext : rollback.context = unwound.context) (hhost : rollback.host = unwound.host) :
    (journey.nested node child inner).UndoneBy given rollback (reply.after left) where
  steps := by
    refine ⟨hcontext.trans hinner.steps.context, hhost.trans hinner.steps.host, .inr ?_⟩
    rcases hinner.steps.result with ⟨hok, _⟩ | ⟨_, fault, herror', hfault, hcause⟩
    · rw [herror] at hok
      contradiction
    · rw [herror] at herror'
      obtain rfl := Except.error.inj herror'
      exact ⟨_, fault, hresult, hfault, List.mem_cons_of_mem _ hcause⟩
  others other hother := by
    simp only [delegates, List.mem_append, List.mem_singleton, not_or] at hother
    obtain ⟨⟨_, hnested⟩, hne⟩ := hother
    rw [hcontext]
    exact hinner.nested_others hnested (Ne.symm hne)
  own hok := by
    rw [hresult] at hok
    contradiction

end UndoneBy

/-- Rolling the first journey back on the context, until a compensation fails.  Each
node that ran a graph finds the process of its own run, or it finds nothing.  The
second journey is the first one without the visits of those that find nothing. -/
inductive Retraces (limit : Nat) : Journey σ → Journey σ → Context σ → σ → Prop
  | new {context : Context σ} {host : σ} : Retraces limit .new .new context host
  | visit {earlier kept : Journey σ} {node : Node σ} {context : Context σ} {host : σ}
      (hearlier : ∀ {left}, node.compensation.run limit context host = some left →
        left.result = .ok () → Retraces limit earlier kept left.context left.host) :
      Retraces limit (.visit earlier node) (.visit kept node) context host
  | found {earlier kept inner keptInner : Journey σ} {node : Node σ} {child : Graph σ}
      {context : Context σ} {host : σ}
      (hfound : inner.KeptAt node.state context)
      (hinner : Retraces limit inner keptInner (context.erase node.state.subgraphKey) host)
      (hearlier : ∀ {left}, node.compensation.run limit context host = some left →
        left.result = .ok () → Retraces limit earlier kept left.context left.host) :
      Retraces limit (.nested earlier node child inner) (.nested kept node child keptInner)
        context host
  | missed {earlier kept inner : Journey σ} {node : Node σ} {child : Graph σ}
      {context : Context σ} {host : σ}
      (habsent : context.data.get? node.state.subgraphKey = none)
      (hearlier : Retraces limit earlier kept context host) :
      Retraces limit (.nested earlier node child inner) kept context host

end Journey

/-! ## A node that ran a graph -/

namespace Graph

variable {nesting : Nesting σ} {graph child : Graph σ} {limit : Nat} {state : StateName}
  {older : List StateName} {node : Node σ} {context : Context σ} {host : σ}

/-- Undoing a node that ran a graph rolls the stored process back, on the context
without that process. -/
theorem run_compensation_of_kept (hback : node.RollsBack child) {process : Process σ}
    (hprocess : context.get .process node.state.subgraphKey = some process) :
    node.compensation.run limit context host =
      (child.rollback limit process (context.erase node.state.subgraphKey) host).map
        Subgraph.unwound := by
  rw [hback]
  simp only [Subgraph.backward, Context.remove, hprocess]

theorem result_unwound_of_ok {rollback : Rollback σ} (h : rollback.result = .ok ()) :
    (Subgraph.unwound rollback).result = .ok () := by
  simp only [Subgraph.unwound, h, Except.mapError]

theorem result_unwound_of_error {rollback : Rollback σ} {error : RollbackError}
    (h : rollback.result = .error error) :
    (Subgraph.unwound rollback).result = .error error.toFault := by
  simp only [Subgraph.unwound, h, Except.mapError]

/-- Without a stored process there is nothing to roll back. -/
theorem run_compensation_of_absent (hback : node.RollsBack child)
    (habsent : context.data.get? node.state.subgraphKey = none) :
    node.compensation.run limit context host =
      some { result := .ok (), context, host } := by
  have hnone : context.get .process node.state.subgraphKey = none := by
    simp only [Context.get, habsent, Option.bind_none]
  rw [hback]
  simp only [Subgraph.backward, Context.remove, hnone, erase_of_absent habsent]

theorem SparesNested.missed
    (h : graph.SparesNested nesting limit (node.state :: older) context host)
    (hnode : graph.node? node.state = some node) (hback : node.RollsBack child)
    (habsent : context.data.get? node.state.subgraphKey = none) :
    graph.SparesNested nesting limit older context host :=
  h.older hnode (run_compensation_of_absent hback habsent) rfl

section Steps

variable {kept inner : Journey σ}

/-- A node that does its own work. -/
theorem undoneBy_visit (hnode : graph.node? node.state = some node)
    (hsame : ∀ {left}, node.compensation.run limit context host = some left →
      context.SameNested left.context)
    (hearlier : ∀ {left}, node.compensation.run limit context host = some left →
      left.result = .ok () → Option.Rel (kept.UndoneBy left.context)
        (graph.unwind limit older left.context left.host)
        (kept.takeBack.run limit left.context left.host)) :
    Option.Rel ((kept.visit node).UndoneBy context)
      (graph.unwind limit (node.state :: older) context host)
      ((kept.visit node).takeBack.run limit context host) := by
  rw [Journey.takeBack_visit]
  exact optionRel_unwind hnode
    (fun hrun herror hresult hcontext hhost =>
      .visit_of_error hresult hcontext hhost (hsame hrun) herror)
    fun hrun hresult handled journal =>
      optionRel_mono (hearlier hrun hresult) fun h => h.visit (hsame hrun) ..

/-- A node that finds the process of its own run. -/
theorem undoneBy_found (hnode : graph.node? node.state = some node)
    (hback : node.RollsBack child) {process : Process σ}
    (hprocess : context.get .process node.state.subgraphKey = some process)
    (hinner : Option.Rel (inner.UndoneBy (context.erase node.state.subgraphKey))
      (child.unwind limit process.visited.reverse (context.erase node.state.subgraphKey) host)
      (inner.takeBack.run limit (context.erase node.state.subgraphKey) host))
    (hearlier : ∀ {left}, node.compensation.run limit context host = some left →
      left.result = .ok () → Option.Rel (kept.UndoneBy left.context)
        (graph.unwind limit older left.context left.host)
        (kept.takeBack.run limit left.context left.host)) :
    Option.Rel ((kept.nested node child inner).UndoneBy context)
      (graph.unwind limit (node.state :: older) context host)
      ((kept.nested node child inner).takeBack.run limit context host) := by
  have hrun : node.compensation.run limit context host = _ :=
    run_compensation_of_kept hback hprocess
  rw [rollback] at hrun
  rw [Journey.takeBack_nested, Callback.andThen]
  simp only [Undo.callback, Callback.run_ofFunction, Option.bind_some, Callback.andThen]
  generalize child.unwind limit process.visited.reverse _ host = unwound? at hinner hrun
  generalize inner.takeBack.run limit _ host = undone? at hinner
  cases hinner with
  | none =>
    rw [unwind_eq_none hnode hrun]
    exact .none
  | @some unwound undone h =>
    simp only [Option.map_some] at hrun
    rcases h.steps.result with ⟨hok, hundone⟩ | ⟨error, fault, herror, hundone, _⟩
    · have hresult := result_unwound_of_ok hok
      rw [unwind_of_ok hnode hrun hresult]
      simp only [Option.bind_some, hundone, Option.map_map]
      refine optionRel_map (s := Journey.UndoneBy _ context) ?_ fun hlater => h.nested hok hlater ..
      rw [← h.steps.context, ← h.steps.host]
      exact hearlier hrun hresult
    · rw [unwind_of_error hnode hrun (result_unwound_of_error herror)]
      simp only [Option.bind_some, hundone, Option.map_some]
      exact .some (h.nested_of_error herror rfl rfl rfl)

/-- A node that finds nothing. -/
theorem undoneBy_missed (hnode : graph.node? node.state = some node)
    (hback : node.RollsBack child)
    (habsent : context.data.get? node.state.subgraphKey = none)
    (hearlier : Option.Rel (kept.UndoneBy context) (graph.unwind limit older context host)
      (kept.takeBack.run limit context host)) :
    Option.Rel (kept.UndoneBy context)
      (graph.unwind limit (node.state :: older) context host)
      (kept.takeBack.run limit context host) := by
  rw [unwind_of_ok hnode (run_compensation_of_absent hback habsent) rfl]
  exact optionRel_map_left hearlier fun h => h.congr rfl rfl rfl

end Steps

/-! ## A whole rollback -/

variable {journey kept : Journey σ}

/-- The induction is on the journey, whose inner journeys are those of the children. -/
theorem undoneBy_unwind (h : journey.Retraces limit kept context host)
    (hon : journey.On nesting graph)
    (hspares : graph.SparesNested nesting limit journey.states.reverse context host) :
    Option.Rel (kept.UndoneBy context)
      (graph.unwind limit journey.states.reverse context host)
      (kept.takeBack.run limit context host) := by
  induction h generalizing graph with
  | new =>
    exact .some ⟨⟨rfl, rfl, .inl ⟨rfl, rfl⟩⟩, fun _ _ => rfl, fun _ _ hmem => by contradiction⟩
  | @visit earlier kept node context host hretraces ih =>
    obtain ⟨hearlier, hnode, hown⟩ := hon
    rw [Journey.states, List.reverse_concat] at hspares ⊢
    exact undoneBy_visit hnode (fun hrun => hspares.own hnode hown hrun)
      fun hrun hresult => ih hrun hresult hearlier (hspares.older hnode hrun hresult)
  | @found earlier kept inner keptInner node child context host hfound _ _ ihInner ih =>
    obtain ⟨hearlier, hnode, hchild, ⟨_, hback⟩, hinner⟩ := hon
    rw [Journey.states, List.reverse_concat] at hspares ⊢
    have hundone := ihInner hinner (hspares.inner hnode hchild hfound)
    obtain ⟨process, hprocess, hvisited⟩ := hfound
    rw [← hvisited] at hundone
    exact undoneBy_found hnode hback hprocess hundone
      fun hrun hresult => ih hrun hresult hearlier (hspares.older hnode hrun hresult)
  | missed habsent _ ih =>
    obtain ⟨hearlier, hnode, hchild, ⟨_, hback⟩, _⟩ := hon
    rw [Journey.states, List.reverse_concat] at hspares ⊢
    exact undoneBy_missed hnode hback habsent <|
      ih hearlier (hspares.missed hnode hback habsent)

theorem undoneBy_rollback {process : Process σ} (hvisited : journey.states = process.visited)
    (h : journey.Retraces limit kept context host) (hon : journey.On nesting graph)
    (hspares : graph.SparesNested nesting limit process.visited.reverse context host) :
    Option.Rel (kept.UndoneBy context) (graph.rollback limit process context host)
      (kept.takeBack.run limit context host) := by
  rw [← hvisited] at hspares
  rw [rollback, ← hvisited]
  exact optionRel_map_left (undoneBy_unwind h hon hspares) fun h => h.congr rfl rfl rfl

end Graph

end Workflow
