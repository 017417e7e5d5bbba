import Mathlib.Data.List.Induction
import Workflow.Process

/-!
# History and state under any checkpoint

A process is asked for one visit after the other, and its checkpoint accepts some of them.

* `VisitLog` is what came of the visits.  `Process.visitAll` goes on after a refusal.
* `Process.visit_eq_error_iff` says when a visit is refused and with which error.
* `VisitLog.InStep` is what every visit keeps: the history grows by the states that were
  entered, and the process stands at the last of its history.
* `Process.history_follows_visits` is the main result, with what a refused visit leaves.
-/

namespace Workflow

variable {σ : Type}

/-- The visits that a process was asked for, in order, with what came of each, and what they
left. -/
structure VisitLog (σ : Type) where
  process : Process σ
  host : σ
  outcomes : List (StateName × Except CheckpointError Unit) := []

namespace VisitLog

/-- One more visit. -/
def visit (log : VisitLog σ) (state : StateName) : VisitLog σ :=
  let made := log.process.visit state log.host
  { process := made.process
    host := made.host
    outcomes := log.outcomes ++ [(state, made.outcome)] }

/-- The states whose visits succeeded. -/
def entered (log : VisitLog σ) : List StateName :=
  (log.outcomes.filter (·.2.isOk)).map (·.1)

end VisitLog

/-- Visits states one after the other, whether or not they are entered. -/
def Process.visitAll (process : Process σ) (host : σ) (states : List StateName) : VisitLog σ :=
  states.foldl VisitLog.visit { process, host }

namespace Process

/-! ## One visit -/

/-- A visit is refused just if the checkpoint did not accept it.  The error names the state,
and has a cause just if the checkpoint failed. -/
theorem visit_eq_error_iff {process : Process σ} {state : StateName} {host : σ}
    {error : CheckpointError} :
    (process.visit state host).outcome = .error error ↔
      error.state = state ∧ ∃ checkpoint, process.checkpoint = some checkpoint ∧
        ((checkpoint process.toCursor state host).1 = .ok false ∧ error.cause = none ∨
          ∃ fault, (checkpoint process.toCursor state host).1 = .error fault ∧
            error.cause = some fault) := by
  obtain ⟨target, cause⟩ := error
  unfold visit
  cases process.checkpoint with
  | none => simp
  | some checkpoint =>
    simp only [Save.outcome, Option.some.injEq, exists_eq_left']
    cases (checkpoint process.toCursor state host).1 with
    | error fault => simp [eq_comm]
    | ok accepted => cases accepted <;> simp [eq_comm]

end Process

/-! ## All visits -/

namespace VisitLog

theorem entered_visit (log : VisitLog σ) (state : StateName) :
    (log.visit state).entered =
      log.entered ++ if (log.process.visit state log.host).outcome.isOk then [state] else [] := by
  simp only [entered, visit, List.filter_append, List.map_append]
  split <;> simp_all

/-- The history of the process is the one that it began with and then the states that it
entered.  It stands at the last of them. -/
structure InStep (start : Process σ) (log : VisitLog σ) : Prop where
  visited : log.process.visited = start.visited ++ log.entered
  state : log.process.state = log.process.visited.getLast?.getD .initial
  reference : log.process.reference = start.reference
  checkpoint : log.process.checkpoint = start.checkpoint

theorem InStep.visit {start : Process σ} {log : VisitLog σ} (h : log.InStep start)
    (state : StateName) : (log.visit state).InStep start := by
  have hentered := log.entered_visit state
  cases houtcome : (log.process.visit state log.host).outcome with
  | error error =>
    have hprocess : (log.visit state).process = log.process :=
      Process.visit_process_of_error houtcome
    rw [houtcome] at hentered
    constructor
    · rw [hprocess, hentered, h.visited]
      exact congrArg _ (List.append_nil _).symm
    · rw [hprocess, h.state]
    · rw [hprocess, h.reference]
    · rw [hprocess, h.checkpoint]
  | ok =>
    have hprocess : (log.visit state).process = log.process.enter state :=
      Process.visit_process_of_ok houtcome
    rw [houtcome] at hentered
    constructor
    · rw [hprocess, hentered, ← List.append_assoc, ← h.visited]
      rfl
    · rw [hprocess]
      show state = ((log.process.visited ++ [state]).getLast?).getD .initial
      rw [List.getLast?_concat, Option.getD_some]
    · rw [hprocess, ← h.reference]
      rfl
    · rw [hprocess, ← h.checkpoint]
      rfl

end VisitLog

namespace Process

open VisitLog

theorem visitAll_concat (process : Process σ) (host : σ) (states : List StateName)
    (state : StateName) :
    process.visitAll host (states ++ [state]) = (process.visitAll host states).visit state := by
  rw [visitAll, List.foldl_append]
  rfl

/-- The log has the visits that were asked for, each with one outcome. -/
theorem outcomes_visitAll (process : Process σ) (host : σ) (states : List StateName) :
    (process.visitAll host states).outcomes.map (·.1) = states := by
  induction states using List.reverseRecOn with
  | nil => rfl
  | append_singleton states state ih =>
    rw [visitAll_concat, VisitLog.visit, List.map_append, ih]
    rfl

/-- How a process is made that has a history: it is new, or restored, and is then given a
reference or a checkpoint. -/
inductive MadeFrom : List StateName → Process σ → Prop
  | new : MadeFrom [] new
  | restore (history : List StateName) : MadeFrom history (restore history)
  | withReference {history : List StateName} {process : Process σ}
      (hmade : MadeFrom history process) (reference : String) :
      MadeFrom history (process.withReference reference)
  | withCheckpoint {history : List StateName} {process : Process σ}
      (hmade : MadeFrom history process) (checkpoint : Checkpoint σ) :
      MadeFrom history (process.withCheckpoint checkpoint)

variable {history : List StateName} {start : Process σ}

/-- It has this history, and stands at the last of it. -/
theorem MadeFrom.cursor_eq (h : MadeFrom history start) :
    start.visited = history ∧ start.state = history.getLast?.getD .initial := by
  induction h with
  | new | restore => exact ⟨rfl, rfl⟩
  | withReference _ _ ih | withCheckpoint _ _ ih => exact ih

/-- The induction is on the visits, from the last one back. -/
theorem MadeFrom.inStep_visitAll (h : MadeFrom history start) (host : σ)
    (states : List StateName) : (start.visitAll host states).InStep start := by
  obtain ⟨hvisited, hstate⟩ := h.cursor_eq
  induction states using List.reverseRecOn with
  | nil => exact ⟨(List.append_nil _).symm, by rw [← hvisited] at hstate; exact hstate, rfl, rfl⟩
  | append_singleton states state ih =>
    rw [visitAll_concat]
    exact ih.visit state

/-- Whatever the checkpoint answers and whatever it keeps in the host, a new or a restored
process that was asked for some visits has the history that it began with, and then the states
whose visits succeeded.  It stands at the last of them, where restoring the history puts a
process, too.  The next visit is refused just if the checkpoint does not accept it; the error
names its state, and has the fault of the checkpoint as its cause just if there was one.  A
refusal leaves the process as it is. -/
theorem history_follows_visits (h : MadeFrom history start) (host : σ) (states : List StateName) :
    let log := start.visitAll host states
    log.outcomes.map (·.1) = states ∧
    log.process.visited = history ++ log.entered ∧
    log.process.state = log.process.visited.getLast?.getD .initial ∧
    (restore log.process.visited : Process σ).state = log.process.state ∧
    (restore log.process.visited : Process σ).visited = log.process.visited ∧
    log.process.reference = start.reference ∧ log.process.checkpoint = start.checkpoint ∧
    ∀ state, let made := log.process.visit state log.host
      (made.outcome = .ok () → made.process = log.process.enter state) ∧
      ∀ error, (made.outcome = .error error ↔
          error.state = state ∧ ∃ hook, start.checkpoint = some hook ∧
            ((hook log.process.toCursor state log.host).1 = .ok false ∧ error.cause = none ∨
              ∃ fault, (hook log.process.toCursor state log.host).1 = .error fault ∧
                error.cause = some fault)) ∧
        (made.outcome = .error error → made.process = log.process) := by
  intro log
  have hstep : log.InStep start := h.inStep_visitAll host states
  refine ⟨outcomes_visitAll _ _ _, ?_, hstep.state, hstep.state.symm, rfl, hstep.reference,
    hstep.checkpoint, fun state => ⟨visit_process_of_ok, fun error => ⟨?_, visit_process_of_error⟩⟩⟩
  · rw [hstep.visited, h.cursor_eq.1]
  · rw [← hstep.checkpoint]
    exact visit_eq_error_iff

/-- A keeper who lets nobody into the cellar, stumbles at the attic, and counts who asked. -/
def keeper : Checkpoint Nat := fun _ state asked =>
  (if state = ⟨"cellar"⟩ then .ok false
    else if state = ⟨"attic"⟩ then .error (.text "it is dark")
    else .ok true, asked + 1)

/-- Four of six visits are refused: the restored process goes from the hall to the library
and back, and the last error says why. -/
theorem keeper_shows_house :
    let start := ((restore [⟨"hall"⟩]).withCheckpoint keeper).withReference "guest"
    let states : List StateName :=
      [⟨"cellar"⟩, ⟨"library"⟩, ⟨"attic"⟩, ⟨"cellar"⟩, ⟨"hall"⟩]
    let log := start.visitAll 0 states
    MadeFrom [⟨"hall"⟩] start ∧ log.host = 5 ∧
      log.process.visited = [⟨"hall"⟩, ⟨"library"⟩, ⟨"hall"⟩] ∧
      log.process.state = ⟨"hall"⟩ ∧ log.process.reference = some "guest" ∧
      (restore log.process.visited : Process Nat).state = ⟨"hall"⟩ ∧
      (log.process.visit ⟨"attic"⟩ log.host).outcome =
        .error { state := ⟨"attic"⟩, cause := some (.text "it is dark") } ∧
      (log.process.visit ⟨"attic"⟩ log.host).process = log.process := by
  intro start states log
  have hmade : MadeFrom [⟨"hall"⟩] start := .withReference (.withCheckpoint (.restore _) keeper) _
  obtain ⟨_, hvisited, hstate, hrestored, _, hreference, _, hnext⟩ :=
    history_follows_visits hmade 0 states
  have hhall : log.process.visited = [⟨"hall"⟩, ⟨"library"⟩, ⟨"hall"⟩] := hvisited
  have hdark := (hnext ⟨"attic"⟩).2 { state := ⟨"attic"⟩, cause := some (.text "it is dark") }
  have hrefused := hdark.1.mpr ⟨rfl, keeper, rfl, .inr ⟨_, rfl, rfl⟩⟩
  exact ⟨hmade, rfl, hhall, hstate, hreference, hrestored.trans hstate, hrefused, hdark.2 hrefused⟩

end Process

end Workflow
