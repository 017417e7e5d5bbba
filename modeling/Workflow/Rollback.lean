import Workflow.Graph

/-!
# Rollback

Rolling a process back compensates its visited states, newest first. A state
without a node is skipped. The first compensation that fails ends the walk; what
ran before it, and what it did itself, stays in the context. The process is
neither moved nor saved.

* `Graph.unwind` walks over states given newest first, `Graph.rollback` over the
  history of a process.
* `rollback_of_le`: the answer does not depend on the limit.
-/

namespace Workflow

/-- What a rollback left: its outcome, the states it compensated, and the
context and the host's state. -/
structure Rollback (σ : Type) where
  result : Except RollbackError Unit
  handled : List StateName := []
  context : Context σ
  host : σ
  journal : Journal := []

/-- A rollback that handled and reported something before. -/
def Rollback.behind {σ : Type} (rollback : Rollback σ) (handled : List StateName)
    (journal : Journal) : Rollback σ :=
  { rollback with
    handled := handled ++ rollback.handled
    journal := journal ++ rollback.journal }

namespace Graph

variable {σ : Type}

/-- Compensates the given states in order, if the compensations return within
the limit. -/
def unwind (graph : Graph σ) (limit : Nat) :
    List StateName → Context σ → σ → Option (Rollback σ)
  | [], context, host => some { result := .ok (), context, host }
  | state :: older, context, host =>
    match graph.node? state with
    | none =>
      (graph.unwind limit older context host).map
        (·.behind [] (.ofEvents [.skipped state]))
    | some node =>
      (node.compensation.run limit context host).bind fun reply =>
        match reply.result with
        | .error fault =>
          some
            { result := .error { state, cause := fault }
              context := reply.context, host := reply.host
              journal := reply.journal ++ .ofEvents [.rollbackFailed state fault.message] }
        | .ok () =>
          (graph.unwind limit older reply.context reply.host).map
            (·.behind [state] (reply.journal ++ .ofEvents [.rolledBack state]))

/-- Compensates the visited states of a process, newest first. -/
def rollback (graph : Graph σ) (limit : Nat) (process : Process σ) (context : Context σ)
    (host : σ) : Option (Rollback σ) :=
  (graph.unwind limit process.visited.reverse context host).map fun rollback =>
    { rollback with journal := rollback.journal.within (.rollback graph.name) }

theorem unwind_of_le {graph : Graph σ} {limit larger : Nat} {states : List StateName}
    {context : Context σ} {host : σ} {rollback : Rollback σ} (hle : limit ≤ larger)
    (h : graph.unwind limit states context host = some rollback) :
    graph.unwind larger states context host = some rollback := by
  induction states generalizing context host rollback with
  | nil => exact h
  | cons state older ih =>
    simp only [unwind] at h ⊢
    cases hnode : graph.node? state with
    | none =>
      simp only [hnode, Option.map_eq_some_iff] at h ⊢
      obtain ⟨rest, hrest, hrollback⟩ := h
      exact ⟨rest, ih hrest, hrollback⟩
    | some node =>
      simp only [hnode, Option.bind_eq_some_iff] at h ⊢
      obtain ⟨reply, hreply, h⟩ := h
      refine ⟨reply, node.compensation.run_of_le hle hreply, ?_⟩
      cases hresult : reply.result with
      | error fault => simpa [hresult] using h
      | ok _ =>
        simp only [hresult, Option.map_eq_some_iff] at h ⊢
        obtain ⟨rest, hrest, hrollback⟩ := h
        exact ⟨rest, ih hrest, hrollback⟩

theorem rollback_of_le {graph : Graph σ} {limit larger : Nat} {process : Process σ}
    {context : Context σ} {host : σ} {rollback : Rollback σ} (hle : limit ≤ larger)
    (h : graph.rollback limit process context host = some rollback) :
    graph.rollback larger process context host = some rollback := by
  obtain ⟨rest, hrest, hrollback⟩ := Option.map_eq_some_iff.mp h
  exact Option.map_eq_some_iff.mpr ⟨rest, unwind_of_le hle hrest, hrollback⟩

end Graph

end Workflow
