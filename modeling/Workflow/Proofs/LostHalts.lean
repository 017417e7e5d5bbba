import Workflow.Proofs.Outcome

/-!
# Halts that get lost

A callback that returns a halt is trusted to have failed its context.  One that did
not, because the halt was made by failing another context or because the failed context
was replaced afterwards, ends the run all the same, and then nothing tells.

* `Command.run_checked_of_complete`: a command whose keys are all there is called on the
  context as it is given.
* `isFailure_settle_iff` and `isFailure_final_iff` are what a fault comes to at the two
  places where faults end: a command on its own, and a call in halt mode.
* `isFailure_iff_of_fault` states both.  `lost_halt_succeeds` is a lost halt.
-/

namespace Workflow

variable {σ : Type}

namespace Command

/-- With every required key there, validation passes the context on as it is. -/
theorem run_checked_of_complete {command : Command σ} {limit : Nat} {context : Context σ}
    {host : σ} (hcomplete : context.missing command.requiredArgs = []) :
    command.checked.run limit context host = command.call.run limit context host := by
  have hvalidation : command.validation.run limit context host =
      some { result := .ok (), context, host } := by
    simp [validation, validate_of_complete hcomplete]
  simp only [checked, Callback.andThen, hvalidation, Option.bind_some]
  cases command.call.run limit context host <;> rfl

/-- On its own a command fails the context for a fault that is no halt, and leaves it as
it is for a halt. -/
theorem isFailure_settle_iff (command : Command σ) {reply : Reply σ} {fault : Fault}
    (hresult : reply.result = .error fault) :
    (command.settle reply).context.isFailure ↔
      (∀ halt, fault ≠ .halt halt) ∨ reply.context.isFailure := by
  unfold settle
  rw [hresult]
  cases fault with
  | halt halt => simp
  | _ => simp [Context.failWith]

end Command

namespace Graph

variable {graph : Graph σ}

theorem stops_of_error (hmode : graph.failureHandling = .halt) {round : Round σ} {fault : Fault}
    (hresult : round.reply.result = .error fault) : round.Stops graph := by
  rcases fault.halt_or_other with ⟨halt, rfl⟩ | hfault
  · exact .inl ⟨hmode, .inl ⟨halt, hresult⟩⟩
  · exact .inr (.inl ⟨fault, hresult, hfault⟩)

/-- In halt mode a fault ends the call at its node, and the context comes back failed
if it was left so, or if the fault is no halt. -/
theorem isFailure_final_iff (hbuilt : graph.Built) (hmode : graph.failureHandling = .halt)
    {limit : Nat} {node : Node σ} {start : Execution σ} {rounds : List (Round σ)}
    (h : graph.Runs limit node start rounds) {round : Round σ} (hround : round ∈ rounds)
    {fault : Fault} (hresult : round.reply.result = .error fault) :
    rounds.getLast? = some round ∧ round.visited? = none ∧
      ((start.afterRounds rounds).context.isFailure ↔
        (∀ halt, fault ≠ .halt halt) ∨ round.reply.context.isFailure) := by
  have hleaves := leaves_of_runs hbuilt h hround
  have hstops : round.Stops graph := stops_of_error hmode hresult
  obtain ⟨outcome, hends⟩ := ends_of_stops hstops
  obtain ⟨hlast, _, _, hending⟩ := final_of_ends hbuilt h hround hends
  refine ⟨hlast, visited?_of_not_entered ((stops_iff hending).mp hstops), ?_⟩
  rcases fault.halt_or_other with ⟨halt, rfl⟩ | hfault
  · rw [hleaves.stopped hmode (.inl ⟨halt, hresult⟩)]
    simp
  · rw [hleaves.unhandled fault hresult hfault]
    exact iff_of_true rfl (.inl hfault)

/-- What a callback's fault comes to.  In halt mode it ends the call, and on its own it
ends a command.  Either way the context comes back failed if and only if the fault is
no halt, or the callback itself left the context failed. -/
theorem isFailure_iff_of_fault :
    (∀ {graph : Graph σ}, graph.Built → graph.failureHandling = .halt →
      ∀ {limit : Nat} {signal? : Option Signal} {process? : Option (Process σ)}
        {context : Context σ} {host : σ} {segment : Segment σ},
        graph.call limit signal? process? context host = some segment →
        ∀ round ∈ segment.rounds, ∀ fault, round.reply.result = .error fault →
          segment.rounds.getLast? = some round ∧ round.visited? = none ∧
            (segment.final.context.isFailure ↔
              (∀ halt, fault ≠ .halt halt) ∨ round.reply.context.isFailure)) ∧
      ∀ (command : Command σ) {limit : Nat} {context : Context σ} {host : σ} {called : Reply σ},
        context.missing command.requiredArgs = [] →
        command.call.run limit context host = some called →
        ∀ fault, called.result = .error fault →
          ∃ reply, command.execute.run limit context host = some reply ∧
            (reply.context.isFailure ↔
              (∀ halt, fault ≠ .halt halt) ∨ called.context.isFailure) := by
  constructor
  · intro graph hbuilt hmode limit signal? process? context host segment hcall round hround fault
      hresult
    cases (advance_eq_some_iff hbuilt).mp hcall with
    | entered hmem htarget hruns hlength =>
      exact isFailure_final_iff hbuilt hmode hruns hround hresult
    | stayed | invalid => contradiction
  · intro command limit context host called hcomplete hcalled fault hresult
    refine ⟨command.settle called, ?_, command.isFailure_settle_iff hresult⟩
    rw [← Command.run_checked_of_complete hcomplete] at hcalled
    simp only [Command.execute, hcalled, Option.map_some]

/-! ## A letter that is not sealed -/

/-- There is no wax.  The context is failed with that, or it is not. -/
def sealing (noted : Bool) : Callback Unit :=
  .ofFunction fun context host =>
    { result := .error (.halt ⟨"no wax"⟩)
      context := if noted then context.recordFailure "no wax" none else context, host }

def letterSteps (noted : Bool) : List (Directive Unit) :=
  [ .startNode [(.proceed, ⟨"seal"⟩)]
  , .addNode (.define ⟨"seal"⟩ [.operation (sealing noted)]) ]

def letter (noted : Bool) : Graph Unit :=
  (define "Letter" (letterSteps noted)).toOption.getD { name := "" }

theorem built_letter (noted : Bool) : (letter noted).Built := by
  refine ⟨"Letter", letterSteps noted, ?_⟩
  cases noted <;> rfl

def letterSegment (noted : Bool) : Segment Unit :=
  ((letter noted).call 1 none none .empty ()).get rfl

/-- The sealing as a command of its own. -/
def sealCommand (noted : Bool) : Command Unit := { name := "Seal", call := sealing noted }

/-- If the context was failed with the halt, that is what comes back. -/
theorem noted_halt_fails :
    (letter true).call 1 none none .empty () = some (letterSegment true) ∧
      (letterSegment true).final.context.isFailure ∧
      ∃ reply, (sealCommand true).execute.run 0 .empty () = some reply ∧
        reply.context.isFailure := by
  have hcall : (letter true).call 1 none none .empty () = some (letterSegment true) := rfl
  have hround : (letterSegment true).rounds[0] ∈ (letterSegment true).rounds :=
    List.getElem_mem _
  obtain ⟨_, _, hsegment⟩ :=
    isFailure_iff_of_fault.1 (built_letter true) rfl hcall _ hround _ rfl
  have hcomplete :
      (Context.empty : Context Unit).missing (sealCommand true).requiredArgs = [] := rfl
  have hcalled : (sealCommand true).call.run 0 .empty () = some _ := rfl
  obtain ⟨reply, hreply, hcommand⟩ :=
    isFailure_iff_of_fault.2 (sealCommand true) hcomplete hcalled _ rfl
  exact ⟨hcall, hsegment.mpr (.inr rfl), reply, hreply, hcommand.mpr (.inr rfl)⟩

/-- If it was not, the run comes back as a success. -/
theorem lost_halt_succeeds :
    (letter false).Built ∧ (letter false).failureHandling = .halt ∧
      (letter false).call 1 none none .empty () = some (letterSegment false) ∧
      (∃ round, (letterSegment false).rounds = [round] ∧
        round.reply.result = .error (.halt ⟨"no wax"⟩) ∧ round.visited? = none) ∧
      (letterSegment false).final.context.isSuccess ∧
      (∃ called, (sealCommand false).call.run 0 .empty () = some called ∧
        called.result = .error (.halt ⟨"no wax"⟩)) ∧
      ∃ reply, (sealCommand false).execute.run 0 .empty () = some reply ∧
        reply.context.isSuccess :=
  ⟨built_letter false, rfl, rfl, ⟨_, rfl, rfl, rfl⟩, rfl, ⟨_, rfl, rfl⟩, _, rfl, rfl⟩

end Graph

end Workflow
