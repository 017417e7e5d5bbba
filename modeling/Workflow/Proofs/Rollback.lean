import Workflow.Rollback

/-!
# A rollback as one callback

* `Callback.inOrder` runs callbacks one after the other, until one fails.
* `Rollback.Matches`: a rollback did what a callback did.
* `Graph.unwind_ok_cases` and the lemmas before it are one step of a rollback.
* `Graph.compensations` is the compensations of visited states as one callback.
  `matches_rollback`: that is what a rollback does.
-/

namespace Workflow

variable {σ : Type}

/-! ## Related results -/

section Related

variable {α β γ δ : Type} {r : α → β → Prop} {first : Option α} {second : Option β}

theorem optionRel_map {s : γ → δ → Prop} {f : α → γ} {g : β → δ} (h : Option.Rel r first second)
    (hmap : ∀ {x y}, r x y → s (f x) (g y)) : Option.Rel s (first.map f) (second.map g) := by
  cases h with
  | none => exact .none
  | some h => exact .some (hmap h)

theorem optionRel_map_left {s : γ → β → Prop} {f : α → γ} (h : Option.Rel r first second)
    (hmap : ∀ {x y}, r x y → s (f x) y) : Option.Rel s (first.map f) second := by
  cases h with
  | none => exact .none
  | some h => exact .some (hmap h)

theorem optionRel_mono {s : α → β → Prop} (h : Option.Rel r first second)
    (hmono : ∀ {x y}, r x y → s x y) : Option.Rel s first second := by
  cases h with
  | none => exact .none
  | some h => exact .some (hmono h)

theorem optionRel_none_left (h : Option.Rel r none second) : second = none := by
  cases h with
  | none => rfl

theorem optionRel_some_left {x : α} (h : Option.Rel r (some x) second) :
    ∃ y, second = some y ∧ r x y := by
  cases h with
  | some h => exact ⟨_, rfl, h⟩

theorem of_optionRel {x : α} {y : β} (h : Option.Rel r first second) (hfirst : first = some x)
    (hsecond : second = some y) : r x y := by
  rw [hfirst, hsecond] at h
  cases h with
  | some h => exact h

end Related

/-! ## One callback after another -/

namespace Callback

/-- Runs the callbacks in order, until one fails. -/
def inOrder : List (Callback σ) → Callback σ
  | [] => .skip
  | callback :: rest => callback.andThen (inOrder rest)

theorem ext_run {first second : Callback σ} (h : first.run = second.run) : first = second := by
  obtain ⟨run, _⟩ := first
  obtain ⟨run', _⟩ := second
  obtain rfl : run = run' := h
  rfl

theorem skip_andThen (callback : Callback σ) : skip.andThen callback = callback := by
  refine ext_run (funext fun limit => funext fun context => funext fun host => ?_)
  show (callback.run limit context host).map _ = callback.run limit context host
  cases callback.run limit context host <;> rfl

theorem andThen_assoc (first second third : Callback σ) :
    (first.andThen second).andThen third = first.andThen (second.andThen third) := by
  refine ext_run (funext fun limit => funext fun context => funext fun host => ?_)
  simp only [andThen]
  cases first.run limit context host with
  | none => rfl
  | some earlier =>
    cases hearlier : earlier.result with
    | error fault => simp [hearlier]
    | ok _ =>
      simp only [Option.bind_some, hearlier]
      cases second.run limit earlier.context earlier.host with
      | none => rfl
      | some later =>
        cases hlater : later.result with
        | error fault => simp [hlater, Reply.after]
        | ok _ =>
          simp only [Option.map_some, Option.bind_some, hlater, Reply.after]
          cases third.run limit later.context later.host with
          | none => rfl
          | some last => simp [List.append_assoc]

theorem inOrder_append (first second : List (Callback σ)) :
    inOrder (first ++ second) = (inOrder first).andThen (inOrder second) := by
  induction first with
  | nil => exact (skip_andThen _).symm
  | cons callback rest ih => rw [List.cons_append, inOrder, inOrder, ih, andThen_assoc]

end Callback

/-! ## What a rollback does -/

/-- A rollback did what a callback does: it left the same, and it failed where the
callback did, with the fault of the callback among its causes. -/
structure Rollback.Matches (rollback : Rollback σ) (reply : Reply σ) : Prop where
  context : rollback.context = reply.context
  host : rollback.host = reply.host
  result : (rollback.result = .ok () ∧ reply.result = .ok ()) ∨
    ∃ error fault, rollback.result = .error error ∧ reply.result = .error fault ∧
      fault ∈ error.toFault.causes

theorem Rollback.Matches.behind {rollback : Rollback σ} {reply : Reply σ}
    (h : rollback.Matches reply) (handled : List StateName) (journal : Journal)
    (earlier : Reply σ) : (rollback.behind handled journal).Matches (reply.after earlier) :=
  ⟨h.context, h.host, h.result⟩

/-- A rollback that a compensation ends fails with the fault of that compensation. -/
theorem Rollback.Matches.of_error {rollback : Rollback σ} {reply : Reply σ} {state : StateName}
    {fault : Fault} (hresult : rollback.result = .error { state, cause := fault })
    (herror : reply.result = .error fault) (hcontext : rollback.context = reply.context)
    (hhost : rollback.host = reply.host) : rollback.Matches reply :=
  ⟨hcontext, hhost, .inr ⟨_, fault, hresult, herror, List.mem_cons_self ..⟩⟩

/-! ## One step of a rollback -/

namespace Graph

variable {graph : Graph σ} {limit : Nat} {state : StateName} {older : List StateName}
  {node : Node σ} {context : Context σ} {host : σ}

theorem unwind_eq_none (hnode : graph.node? state = some node)
    (hrun : node.compensation.run limit context host = none) :
    graph.unwind limit (state :: older) context host = none := by
  simp only [unwind, hnode, hrun, Option.bind_none]

theorem unwind_of_error (hnode : graph.node? state = some node) {reply : Reply σ} {fault : Fault}
    (hrun : node.compensation.run limit context host = some reply)
    (herror : reply.result = .error fault) :
    graph.unwind limit (state :: older) context host =
      some
        { result := .error { state, cause := fault }
          context := reply.context, host := reply.host
          journal := reply.journal ++ .ofEvents [.rollbackFailed state fault.message] } := by
  simp only [unwind, hnode, hrun, Option.bind_some, herror]

theorem unwind_of_ok (hnode : graph.node? state = some node) {reply : Reply σ}
    (hrun : node.compensation.run limit context host = some reply)
    (hok : reply.result = .ok ()) :
    graph.unwind limit (state :: older) context host =
      (graph.unwind limit older reply.context reply.host).map
        (·.behind [state] (reply.journal ++ .ofEvents [.rolledBack state])) := by
  simp only [unwind, hnode, hrun, Option.bind_some, hok]

/-- A rollback that succeeds has compensated its newest state and rolled the older ones
back. -/
theorem unwind_ok_cases (hnode : graph.node? state = some node) {rollback : Rollback σ}
    (h : graph.unwind limit (state :: older) context host = some rollback)
    (hok : rollback.result = .ok ()) :
    ∃ left rest, node.compensation.run limit context host = some left ∧ left.result = .ok () ∧
      graph.unwind limit older left.context left.host = some rest ∧ rest.result = .ok () := by
  cases hrun : node.compensation.run limit context host with
  | none =>
    rw [unwind_eq_none hnode hrun] at h
    contradiction
  | some left =>
    cases hresult : left.result with
    | error fault =>
      rw [unwind_of_error hnode hrun hresult] at h
      obtain rfl := Option.some.inj h
      contradiction
    | ok _ =>
      rw [unwind_of_ok hnode hrun hresult] at h
      obtain ⟨rest, hrest, rfl⟩ := Option.map_eq_some_iff.mp h
      exact ⟨left, rest, rfl, hresult, hrest, hok⟩

/-- A rollback and a callback that begins with the compensation of the newest state: they
are related if that fails, or else if what they go on with is. -/
theorem optionRel_unwind {r : Rollback σ → Reply σ → Prop} {rest : Callback σ}
    (hnode : graph.node? state = some node)
    (herror : ∀ {left fault rollback}, node.compensation.run limit context host = some left →
      left.result = .error fault → rollback.result = .error { state, cause := fault } →
        rollback.context = left.context → rollback.host = left.host → r rollback left)
    (hok : ∀ {left}, node.compensation.run limit context host = some left →
      left.result = .ok () → ∀ handled journal,
        Option.Rel (fun rollback reply => r (rollback.behind handled journal) (reply.after left))
          (graph.unwind limit older left.context left.host)
          (rest.run limit left.context left.host)) :
    Option.Rel r (graph.unwind limit (state :: older) context host)
      ((node.compensation.andThen rest).run limit context host) := by
  cases hrun : node.compensation.run limit context host with
  | none =>
    rw [unwind_eq_none hnode hrun]
    simp only [Callback.andThen, hrun, Option.bind_none]
    exact .none
  | some left =>
    cases hresult : left.result with
    | error fault =>
      rw [unwind_of_error hnode hrun hresult]
      simp only [Callback.andThen, hrun, Option.bind_some, hresult]
      exact .some (herror hrun hresult rfl rfl rfl)
    | ok _ =>
      rw [unwind_of_ok hnode hrun hresult]
      simp only [Callback.andThen, hrun, Option.bind_some, hresult]
      exact optionRel_map (hok hrun hresult _ _) id

/-! ## A rollback as one callback -/

/-- The compensations of the states in order, until one fails.  A state without a node
is left out. -/
def compensations (graph : Graph σ) (states : List StateName) : Callback σ :=
  .inOrder ((states.filterMap graph.node?).map Node.compensation)

theorem compensations_cons_of_node {state : StateName} {node : Node σ}
    (hnode : graph.node? state = some node) (older : List StateName) :
    graph.compensations (state :: older) =
      node.compensation.andThen (graph.compensations older) := by
  rw [compensations, List.filterMap_cons_some hnode]
  rfl

theorem compensations_cons_of_missing {state : StateName} (hnode : graph.node? state = none)
    (older : List StateName) :
    graph.compensations (state :: older) = graph.compensations older := by
  rw [compensations, List.filterMap_cons_none hnode]
  rfl

theorem compensations_append (graph : Graph σ) (newer older : List StateName) :
    graph.compensations (newer ++ older) =
      (graph.compensations newer).andThen (graph.compensations older) := by
  simp only [compensations, List.filterMap_append, List.map_append, Callback.inOrder_append]

theorem matches_unwind {states : List StateName} {context : Context σ} {host : σ} :
    Option.Rel Rollback.Matches (graph.unwind limit states context host)
      ((graph.compensations states).run limit context host) := by
  induction states generalizing context host with
  | nil => exact .some ⟨rfl, rfl, .inl ⟨rfl, rfl⟩⟩
  | cons state older ih =>
    cases hnode : graph.node? state with
    | none =>
      rw [compensations_cons_of_missing hnode]
      simp only [unwind, hnode]
      exact optionRel_map_left ih fun h => ⟨h.context, h.host, h.result⟩
    | some node =>
      rw [compensations_cons_of_node hnode]
      exact optionRel_unwind hnode
        (fun _ herror hresult hcontext hhost => .of_error hresult herror hcontext hhost)
        fun _ _ handled journal => optionRel_mono ih fun h => h.behind ..

/-- A rollback runs the compensations of the visited states, newest first. -/
theorem matches_rollback {process : Process σ} {context : Context σ} {host : σ} :
    Option.Rel Rollback.Matches (graph.rollback limit process context host)
      ((graph.compensations process.visited.reverse).run limit context host) :=
  optionRel_map_left matches_unwind fun h => ⟨h.context, h.host, h.result⟩

end Graph

end Workflow
