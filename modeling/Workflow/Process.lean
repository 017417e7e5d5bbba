import Workflow.Fault

/-!
# Processes

A process is where a run stands: its current state, the states it visited, a
reference of the caller's own, and the checkpoint that has to accept every
transition before it is made. The part that can be stored is the `Cursor`.

A checkpoint may read and change the state `σ` of the host program, so a log
or a counter that it keeps is carried along.

* `Process.visit` asks the checkpoint and moves the process.
* `visit_process_of_ok`, `visit_process_of_error`: an accepted visit enters the
  state and a refused one changes nothing.
-/

namespace Workflow

/-- The part of a process that outlives an invocation. -/
structure Cursor where
  state : StateName := .initial
  visited : List StateName := []
  reference : Option String := none
  deriving DecidableEq

/-- The cursor after entering a state. -/
def Cursor.enter (cursor : Cursor) (state : StateName) : Cursor :=
  { cursor with state, visited := cursor.visited ++ [state] }

/-- Persists a transition. It is given the cursor before the transition and the
state being entered; only the answer `true` accepts. -/
def Checkpoint (σ : Type) : Type :=
  Cursor → StateName → σ → Except Fault Bool × σ

/-- A call of a checkpoint with its answer. -/
structure Save where
  before : Cursor
  state : StateName
  answer : Except Fault Bool

namespace Save

/-- What the answer of a checkpoint means for the transition. -/
def outcome (save : Save) : Except CheckpointError Unit :=
  match save.answer with
  | .ok true => .ok ()
  | .ok false => .error { state := save.state, cause := none }
  | .error fault => .error { state := save.state, cause := some fault }

/-- Whether a checkpoint accepted. -/
def accepted (save : Save) : Bool :=
  match save.answer with
  | .ok accepted => accepted
  | .error _ => false

theorem accepted_iff {save : Save} : save.accepted ↔ save.answer = .ok true := by
  unfold accepted
  split <;> simp_all

theorem outcome_eq_ok_iff {save : Save} : save.outcome = .ok () ↔ save.accepted := by
  unfold outcome accepted
  split <;> simp_all

end Save

/-- The current state and history of a run. -/
structure Process (σ : Type) extends Cursor where
  checkpoint : Option (Checkpoint σ) := none

/-- What came of an attempt to move a process: the process, the host's state,
the call of the checkpoint if there is one, and the outcome. -/
structure Visit (σ : Type) where
  process : Process σ
  host : σ
  save : Option Save
  outcome : Except CheckpointError Unit

namespace Process

variable {σ : Type}

/-- A process at the initial state. -/
def new : Process σ := {}

instance : Inhabited (Process σ) := ⟨new⟩

/-- A process at a state whose history is not kept. -/
def startingAt (state : StateName) : Process σ := { state }

/-- A process with a stored history: it stands at the last visited state, or at
the initial one. -/
def restore (visited : List StateName) : Process σ :=
  { state := visited.getLast?.getD .initial, visited }

def withReference (process : Process σ) (reference : String) : Process σ :=
  { process with reference := some reference }

def withCheckpoint (process : Process σ) (checkpoint : Checkpoint σ) : Process σ :=
  { process with checkpoint := some checkpoint }

/-- The process after a state was entered. -/
def enter (process : Process σ) (state : StateName) : Process σ :=
  { process with toCursor := process.toCursor.enter state }

/-- Moves a process into a state once its checkpoint has accepted; otherwise
the process stays as it is. -/
def visit (process : Process σ) (state : StateName) (host : σ) : Visit σ :=
  match process.checkpoint with
  | none => { process := process.enter state, host, save := none, outcome := .ok () }
  | some checkpoint =>
    let answered := checkpoint process.toCursor state host
    let save : Save := { before := process.toCursor, state, answer := answered.1 }
    { process := if save.accepted then process.enter state else process
      host := answered.2, save, outcome := save.outcome }

/-- The process shows whether it has a checkpoint, not which. -/
def outline (process : Process σ) : Outline :=
  .record "Process"
    [ ("state", process.state.outline)
    , ("visited", .list (process.visited.map StateName.outline))
    , ("reference", .ofOption (process.reference.map .quoted))
    , ("checkpoint", .ofBool process.checkpoint.isSome) ]

/-! ## What a visit does -/

theorem visit_of_no_checkpoint {process : Process σ} (state : StateName) (host : σ)
    (hnone : process.checkpoint = none) :
    process.visit state host =
      { process := process.enter state, host, save := none, outcome := .ok () } := by
  simp [visit, hnone]

theorem visit_process_of_ok {process : Process σ} {state : StateName} {host : σ}
    (hok : (process.visit state host).outcome = .ok ()) :
    (process.visit state host).process = process.enter state := by
  unfold visit at hok ⊢
  split at hok
  · rfl
  · exact if_pos (Save.outcome_eq_ok_iff.mp hok)

theorem visit_process_of_error {process : Process σ} {state : StateName} {host : σ}
    {error : CheckpointError}
    (herror : (process.visit state host).outcome = .error error) :
    (process.visit state host).process = process := by
  unfold visit at herror ⊢
  split at herror
  · simp at herror
  · refine if_neg fun haccepted => ?_
    simp [Save.outcome_eq_ok_iff.mpr haccepted] at herror

/-- Without a checkpoint a visit saves nothing and succeeds; with one it makes a
single save, given the process as it stands, and that decides. -/
theorem visit_cases (process : Process σ) (state : StateName) (host : σ) :
    (process.checkpoint = none ∧ (process.visit state host).save = none ∧
        (process.visit state host).outcome = .ok ()) ∨
      ∃ save : Save, process.checkpoint.isSome ∧
        (process.visit state host).save = some save ∧
        save.before = process.toCursor ∧ save.state = state ∧
        (process.visit state host).outcome = save.outcome := by
  unfold visit
  split
  · rename_i hnone
    exact .inl ⟨hnone, rfl, rfl⟩
  · rename_i checkpoint hsome
    exact .inr ⟨_, by rw [hsome]; rfl, rfl, rfl, rfl, rfl⟩

/-- A refusal names the state that was not entered. -/
theorem visit_error_state {process : Process σ} {state : StateName} {host : σ}
    {error : CheckpointError}
    (herror : (process.visit state host).outcome = .error error) :
    error.state = state := by
  unfold visit at herror
  split at herror
  · simp at herror
  · simp only [Save.outcome] at herror
    split at herror <;> simp_all <;> exact congrArg CheckpointError.state herror.symm

end Process

end Workflow
