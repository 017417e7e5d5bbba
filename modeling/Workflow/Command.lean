import Workflow.Callback

/-!
# Commands

A command is work with a name, the keys it needs, and its own way back. It can
run on its own (`Command.execute`, `Command.revert`) or as the operation of a
node. Either way it is called on a complete context only: `Command.validate`
fails a context that lacks a required key.
-/

namespace Workflow

/-- The text of a failure by an unexpected fault; `owner` is who ran the work. -/
def Fault.unhandledMessage (fault : Fault) (owner : String) : String :=
  "Unhandled exception " ++ owner ++ ": " ++ fault.message

/-- The text of a failure by missing keys. -/
def missingMessage (missing : List String) : String :=
  "Missing required arguments: " ++ ", ".intercalate missing

/-- Reusable work with its compensation. -/
structure Command (σ : Type) where
  name : String
  requiredArgs : List String := []
  call : Callback σ
  rollback : Callback σ := .skip

namespace Command

variable {σ : Type}

/-- The characters after the last `::`, given the text backwards. -/
def lastSegment : List Char → List Char
  | ':' :: ':' :: _ => []
  | c :: rest => c :: lastSegment rest
  | [] => []

/-- The name of a command whose type has the given path: neither the path before
the name nor the type arguments after it are kept. -/
def nameOfPath (path : String) : String :=
  String.ofList (lastSegment (path.toList.takeWhile (· ≠ '<')).reverse).reverse

/-- Fails a context that lacks a required key. -/
def validate (command : Command σ) (context : Context σ) : Except Halt Unit × Context σ :=
  match context.missing command.requiredArgs with
  | [] => (.ok (), context)
  | missing =>
    let (halt, context) := context.fail (missingMessage missing)
    (.error halt, context)

/-- Validation as work: it fails with the halt of the failed context. -/
def validation (command : Command σ) : Callback σ :=
  .ofFunction fun context host =>
    match command.validate context with
    | (.ok (), context) => { result := .ok (), context, host }
    | (.error halt, context) => { result := .error (.halt halt), context, host }

/-- The call of a command behind its validation. -/
def checked (command : Command σ) : Callback σ :=
  command.validation.andThen command.call

/-- The context carries the outcome of a command that ran on its own: a halt is
in it already, and any other fault fails it under the name of the command. -/
def settle (command : Command σ) (reply : Reply σ) : Reply σ :=
  match reply.result with
  | .ok () | .error (.halt _) => { reply with result := .ok () }
  | .error fault =>
    { reply with
      result := .ok ()
      context := (reply.context.failWith (fault.unhandledMessage command.name) fault).2 }

/-- Runs a command on its own. It always succeeds; the context tells how. -/
def execute (command : Command σ) : Callback σ where
  run limit context host := (command.checked.run limit context host).map command.settle
  run_of_le hle h := by
    obtain ⟨reply, hreply, hsettle⟩ := Option.map_eq_some_iff.mp h
    simp [command.checked.run_of_le hle hreply, hsettle]

/-- Runs the compensation of a command on its own. A fault is passed on, and
then there is no context. -/
def revert (command : Command σ) (limit : Nat) (context : Context σ) (host : σ) :
    Option (Except Fault (Context σ) × σ) :=
  (command.rollback.run limit context host).map fun reply =>
    (reply.result.map fun _ => reply.context, reply.host)

theorem validate_of_complete {command : Command σ} {context : Context σ}
    (h : context.missing command.requiredArgs = []) :
    command.validate context = (.ok (), context) := by
  simp [validate, h]

/-- A command that succeeds was called on the context as it was given. -/
theorem run_of_checked_ok {command : Command σ} {limit : Nat} {context : Context σ} {host : σ}
    {reply : Reply σ} (hrun : command.checked.run limit context host = some reply)
    (hok : reply.result = .ok ()) :
    ∃ called, command.call.run limit context host = some called ∧ called.result = .ok () ∧
      called.context = reply.context := by
  rcases Callback.run_andThen_cases hrun with
    ⟨fault, _, hfault⟩ | ⟨validated, called, hvalidated, hvalid, hcalled, rfl⟩
  · rw [hok] at hfault
    contradiction
  · obtain rfl := Option.some.inj hvalidated
    cases hmissing : context.missing command.requiredArgs with
    | nil =>
      simp only [validate, hmissing] at hcalled
      exact ⟨called, hcalled, hok, rfl⟩
    | cons key rest =>
      simp only [validate, hmissing] at hvalid
      contradiction

end Command

end Workflow
