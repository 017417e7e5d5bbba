import Workflow.Proofs.Nesting
import Workflow.Proofs.Standalone

/-!
# Commands and the keys they need

A command is called on a context that has every key it needs, and on no other, whether it runs
on its own or at a node.  At a node that is the context which the prepare hook left.

* `Command.Complete` says that the keys are there, and `Command.Lacks` what becomes of a context
  where they are not.
* `Command.hanging` has a call that never returns.  Work made of this command returns if it does
  not run the call, so `run_checked_hanging` and `run_attempt_hanging` tell when the call runs.
* `Graph.Attempts` is how a node goes that has a command, after its prepare hook.
* `stops_of_halt` and `goes_on_of_halt` are the rounds whose work halts, in halt mode and in
  chain of command.
* `called_on_complete_contexts` states it all.
-/

namespace Workflow

variable {σ : Type}

/-- Work that never returns. -/
def Callback.never : Callback σ where
  run _ _ _ := none
  run_of_le _ h := nomatch h

theorem Callback.run_never (limit : Nat) (context : Context σ) (host : σ) :
    (never : Callback σ).run limit context host = none := rfl

theorem Context.missing_eq_nil_iff {context : Context σ} {required : List String} :
    context.missing required = [] ↔
      ∀ key ∈ required, ∃ value, context.data.get? key = some value := by
  simp [missing, contains, Table.contains, ← Option.ne_none_iff_exists']

namespace Command

/-- Every required key has a value, of whatever kind. -/
def Complete (command : Command σ) (context : Context σ) : Prop :=
  ∀ key ∈ command.requiredArgs, ∃ value, context.data.get? key = some value

/-- The context is failed for the required keys that it lacks.  They are named in the order of
the command, and as often as it names them.  What was recorded of an earlier failure is gone. -/
structure Lacks (command : Command σ) (context failed : Context σ) : Prop where
  data : failed.data = context.data
  isFailure : failed.isFailure
  message : failed.message = some ("Missing required arguments: " ++
    ", ".intercalate (command.requiredArgs.filter fun key => !context.contains key))
  exception : failed.exception = none

/-- The same command with a call that never returns. -/
def hanging (command : Command σ) : Command σ := { command with call := .never }

variable {command : Command σ} {limit : Nat} {context : Context σ} {host : σ}

theorem complete_iff : command.Complete context ↔ context.missing command.requiredArgs = [] :=
  Context.missing_eq_nil_iff.symm

theorem lacks_rejection (command : Command σ) (context : Context σ) (host : σ) :
    command.Lacks context (command.rejection context host).context :=
  ⟨rfl, rfl, rfl, rfl⟩

/-! ## On its own -/

theorem run_checked_of_not_complete (hlacks : ¬ command.Complete context) :
    command.checked.run limit context host = some (command.rejection context host) :=
  run_checked_of_missing (mt complete_iff.mpr hlacks)

/-- The call runs just if the keys are there. -/
theorem run_checked_hanging :
    command.hanging.checked.run limit context host = none ↔ command.Complete context := by
  constructor
  · intro hnone
    by_contra hlacks
    have hrejected : command.hanging.checked.run limit context host = some _ :=
      run_checked_of_not_complete hlacks
    rw [hnone] at hrejected
    contradiction
  · intro hcomplete
    have hmissing : context.missing command.hanging.requiredArgs = [] := complete_iff.mp hcomplete
    rw [run_checked_of_complete hmissing]
    exact Callback.run_never limit context host

theorem run_execute_of_complete (hcomplete : command.Complete context) :
    command.execute.run limit context host =
      (command.call.run limit context host).map command.settle := by
  rw [← run_checked_of_complete (complete_iff.mp hcomplete)]
  rfl

theorem run_execute_of_not_complete (hlacks : ¬ command.Complete context) :
    command.execute.run limit context host =
      some { command.rejection context host with result := .ok () } := by
  show (command.checked.run limit context host).map command.settle = _
  rw [run_checked_of_not_complete hlacks]
  rfl

end Command

namespace Graph

variable {graph : Graph σ} {node : Node σ} {command : Command σ} {limit : Nat} {context : Context σ}
  {host : σ} {prepared : Reply σ}

/-! ## At a node -/

theorem work_of_command (hcommand : node.operation = some (.command command)) :
    node.work = command.checked := by
  simp only [Node.work, hcommand, Operation.work]

/-- After its preparation the command of a node goes as on its own. -/
theorem run_attempt_of_command (hcommand : node.operation = some (.command command))
    (hprepared : (graph.preparation node).run limit context host = some prepared)
    (hok : prepared.result = .ok ()) :
    (graph.attempt node).run limit context host =
      (command.checked.run limit prepared.context prepared.host).map (·.after prepared) := by
  rw [attempt_eq, work_of_command hcommand]
  simp only [Callback.andThen, hprepared, Option.bind_some, hok]

theorem run_attempt_of_fault
    (hprepared : (graph.preparation node).run limit context host = some prepared)
    {fault : Fault} (hfault : prepared.result = .error fault) :
    (graph.attempt node).run limit context host = some prepared := by
  rw [attempt_eq]
  simp only [Callback.andThen, hprepared, Option.bind_some, hfault]

/-- The call runs just if the preparation succeeds and leaves the keys there. -/
theorem run_attempt_hanging
    (hprepared : (graph.preparation node).run limit context host = some prepared) :
    (graph.attempt (node.withCommand command.hanging)).run limit context host = none ↔
      prepared.result = .ok () ∧ command.Complete prepared.context := by
  have hsame : (graph.preparation (node.withCommand command.hanging)).run limit context host =
      some prepared := hprepared
  cases hresult : prepared.result with
  | error fault =>
    rw [run_attempt_of_fault hsame hresult]
    simp
  | ok =>
    rw [run_attempt_of_command rfl hsame hresult, Option.map_eq_none_iff,
      Command.run_checked_hanging]
    simp

/-- How a node with a command goes whose preparation left the reply.  The hanging command stands
in for the node's own to tell whether the call runs. -/
structure Attempts (graph : Graph σ) (node : Node σ) (command : Command σ) (limit : Nat)
    (context : Context σ) (host : σ) (prepared : Reply σ) : Prop where
  called_iff : (graph.attempt (node.withCommand command.hanging)).run limit context host = none ↔
    prepared.result = .ok () ∧ command.Complete prepared.context
  called : prepared.result = .ok () → command.Complete prepared.context →
    (graph.attempt node).run limit context host =
      (command.call.run limit prepared.context prepared.host).map (·.after prepared)
  faulty : ∀ fault, prepared.result = .error fault →
    (graph.attempt node).run limit context host = some prepared
  lacking : prepared.result = .ok () → ¬ command.Complete prepared.context →
    ∃ failed message, command.Lacks prepared.context failed ∧ failed.message = some message ∧
      (graph.attempt node).run limit context host =
        some { result := .error (.halt { message }), context := failed, host := prepared.host
               journal := prepared.journal }

theorem attempts_of_command (hcommand : node.operation = some (.command command))
    (hprepared : (graph.preparation node).run limit context host = some prepared) :
    graph.Attempts node command limit context host prepared where
  called_iff := run_attempt_hanging hprepared
  called hok hcomplete := by
    rw [run_attempt_of_command hcommand hprepared hok,
      Command.run_checked_of_complete (Command.complete_iff.mp hcomplete)]
  faulty fault hfault := run_attempt_of_fault hprepared hfault
  lacking hok hlacks := by
    refine ⟨_, _, command.lacks_rejection prepared.context prepared.host, rfl, ?_⟩
    rw [run_attempt_of_command hcommand hprepared hok, Command.run_checked_of_not_complete hlacks]
    simp [Command.rejection, Reply.after]

/-! ## In a call -/

section Halted

variable {start : Execution σ} {rounds earlier later : List (Round σ)} {round : Round σ}
  {halt : Halt}

/-- In halt mode a halt ends the call, and the context is left as it is. -/
theorem stops_of_halt (hmode : graph.failureHandling = .halt)
    (hruns : graph.Runs limit node start rounds) (hrounds : rounds = earlier ++ round :: later)
    (hhalt : round.reply.result = .error (.halt halt)) :
    later = [] ∧ round.visited? = none ∧
      (start.afterRounds rounds).context = round.reply.context := by
  obtain ⟨_, hending, _, hlast⟩ := round_of_runs hruns hrounds
  have hstays := (stops_iff hending).mp (stops_of_error hmode hhalt)
  obtain rfl := hlast hstays
  rw [hrounds, afterRounds_concat]
  exact ⟨rfl, visited?_of_not_entered hstays,
    (outcome_of_failure hending hmode (.inl ⟨halt, hhalt⟩)).2⟩

/-- In chain of command a halt is not noticed: unless the checkpoint does not accept, the state is
entered, and the signal is picked on the context as it is. -/
theorem goes_on_of_halt (hmode : graph.failureHandling = .chainOfCommand) {process : Process σ}
    (hending : graph.Ending round.node process round.reply round)
    (hhalt : round.reply.result = .error (.halt halt))
    (hsaved : ∀ save, round.save = some save → save.answer = .ok true) :
    round.visited? = some round.state ∧ round.after.context = round.reply.context ∧
      ∃ signal, (graph.choose round.node round.reply.context round.reply.host).1 = .ok signal ∧
        round.conclusion = graph.onward round.node signal := by
  have hgoes : ¬ round.Stops graph := by
    rintro (⟨hstops, _⟩ | ⟨fault, hfault, hother⟩ | ⟨save, hsave, hanswer⟩)
    · rw [hmode] at hstops
      contradiction
    · rw [hhalt] at hfault
      exact hother halt (Except.error.inj hfault).symm
    · exact hanswer (hsaved save hsave)
  rcases ending_stays_or_enters hending with ⟨hstays, _⟩ | ⟨signal, host, haccepts, hround⟩
  · exact absurd ((stops_iff hending).mpr hstays) hgoes
  · have hvisited : round.visited? = some round.state :=
      (congrArg Round.visited? hround).trans (visited?_accept ..)
    have hcontext : round.after.context = round.reply.context :=
      congrArg (·.after.context) hround
    have hconclusion : round.conclusion = graph.onward round.node signal :=
      congrArg Round.conclusion hround
    exact ⟨hvisited, hcontext, signal, congrArg Prod.fst haccepts.choose, hconclusion⟩

end Halted

/-- What comes of a round whose command was not called, and that left the context failed for it.
In halt mode the round is the last one, and the call leaves this context.  In chain of command
the round goes on as if its work had succeeded, to where the signal leads that is picked on
this context, and only the checkpoint can keep it from that. -/
structure Uncalled (graph : Graph σ) (round : Round σ) (later : List (Round σ))
    (failed final : Context σ) (host : σ) : Prop where
  stops : graph.failureHandling = .halt → later = [] ∧ round.visited? = none ∧ final = failed
  goes_on : graph.failureHandling = .chainOfCommand →
    (∀ save, round.save = some save → save.answer = .ok true) →
    round.visited? = some round.state ∧ round.after.context = failed ∧
      ∃ signal, (graph.choose round.node failed host).1 = .ok signal ∧
        round.conclusion = graph.onward round.node signal

theorem uncalled_of_runs {start : Execution σ} {rounds earlier later : List (Round σ)}
    {round : Round σ} (hruns : graph.Runs limit node start rounds)
    (hrounds : rounds = earlier ++ round :: later)
    (hcommand : round.node.operation = some (.command command))
    (hprepared : (graph.preparation round.node).run limit (start.afterRounds earlier).context
      (start.afterRounds earlier).host = some prepared)
    (hok : prepared.result = .ok ()) (hlacks : ¬ command.Complete prepared.context) :
    ∃ failed, command.Lacks prepared.context failed ∧
      graph.Uncalled round later failed (start.afterRounds rounds).context prepared.host := by
  obtain ⟨failed, message, hfailed, _, hreply⟩ :=
    (attempts_of_command hcommand hprepared).lacking hok hlacks
  obtain ⟨hattempt, hending, _⟩ := round_of_runs hruns hrounds
  have hleft := Option.some.inj (hattempt.symm.trans hreply)
  have hhalt : round.reply.result = .error (.halt { message }) := congrArg Reply.result hleft
  have hcontext : round.reply.context = failed := congrArg Reply.context hleft
  have hhost : round.reply.host = prepared.host := congrArg (·.host) hleft
  refine ⟨failed, hfailed, fun hmode => ?_, fun hmode hsaved => ?_⟩
  · rw [← hcontext]
    exact stops_of_halt hmode hruns hrounds hhalt
  · rw [← hcontext, ← hhost]
    exact goes_on_of_halt hmode hending hhalt hsaved

end Graph

/-- A command is called on complete contexts only.  On its own its call runs just if every
required key has a value, whatever the value.  If one is missing, the context is left with its
data, failed for the missing keys and for nothing else.  At a node it is the context that the
prepare hook left that counts, and a hook that fails keeps the call from running, too.  In a call
of a graph a missing key is a failure like any other: it stops the call in halt mode, where the
context is left like that, and in chain of command the call goes on. -/
theorem Command.called_on_complete_contexts :
    (∀ (command : Command σ) (limit : Nat) (context : Context σ) (host : σ),
      (command.hanging.execute.run limit context host = none ↔ command.Complete context) ∧
      (command.Complete context → command.execute.run limit context host =
        (command.call.run limit context host).map command.settle) ∧
      (¬ command.Complete context → ∃ failed, command.Lacks context failed ∧
        command.execute.run limit context host =
          some { result := .ok (), context := failed, host })) ∧
    (∀ {graph : Graph σ} {node : Node σ} {command : Command σ},
      node.operation = some (.command command) →
      ∀ {limit : Nat} {context : Context σ} {host : σ} {prepared : Reply σ},
        (graph.preparation node).run limit context host = some prepared →
        graph.Attempts node command limit context host prepared) ∧
    ∀ {graph : Graph σ}, graph.Built → ∀ {limit : Nat} {signal? : Option Signal}
      {process? : Option (Process σ)} {context : Context σ} {host : σ} {segment : Segment σ},
      graph.call limit signal? process? context host = some segment →
      ∀ {earlier later : List (Round σ)} {round : Round σ} {command : Command σ},
        segment.rounds = earlier ++ round :: later →
        round.node.operation = some (.command command) →
        let reached := segment.start.afterRounds earlier
        (graph.attempt round.node).run limit reached.context reached.host = some round.reply ∧
        ∃ prepared, (graph.preparation round.node).run limit reached.context reached.host =
            some prepared ∧
          (prepared.result = .ok () → ¬ command.Complete prepared.context →
            ∃ failed, command.Lacks prepared.context failed ∧
              graph.Uncalled round later failed segment.final.context prepared.host) := by
  refine ⟨fun command limit context host => ⟨?hangs, run_execute_of_complete, ?lacking⟩,
    fun hcommand _ _ _ _ hprepared => Graph.attempts_of_command hcommand hprepared, ?call⟩
  case hangs => exact Option.map_eq_none_iff.trans run_checked_hanging
  case lacking =>
    intro hlacks
    exact ⟨_, command.lacks_rejection context host, run_execute_of_not_complete hlacks⟩
  case call =>
    intro graph hbuilt limit signal? process? context host segment hcall earlier later round command
      hrounds hcommand reached
    cases (Graph.advance_eq_some_iff hbuilt).mp hcall with
    | @entered node rounds hmem htarget hruns hlength =>
      have hattempt : (graph.attempt round.node).run limit reached.context reached.host =
          some round.reply := (Graph.round_of_runs hruns hrounds).1
      refine ⟨hattempt, ?_⟩
      rcases Graph.run_attempt_cases hattempt with
        ⟨fault, hprepared, hfault⟩ | ⟨prepared, _, hprepared, _⟩
      · refine ⟨_, hprepared, fun hok => ?_⟩
        rw [hok] at hfault
        contradiction
      · exact ⟨prepared, hprepared, Graph.uncalled_of_runs hruns hrounds hcommand hprepared⟩
    | stayed | invalid => simp at hrounds

/-! ## A bakery -/

namespace Graph

/-- Yeast is needed twice.  The host counts the loaves. -/
def baking : Command Nat where
  name := "Bake"
  requiredArgs := ["yeast", "flour", "yeast"]
  call := .ofFunction fun context loaves => { result := .ok (), context, host := loaves + 1 }

/-- Somebody takes the yeast away before the work begins. -/
def tidying : Callback Nat :=
  .ofFunction fun context host => { result := .ok (), context := context.erase "yeast", host }

def bakingNode : Node Nat := .define ⟨"bake"⟩ [.command baking, .prepare (.inline tidying)]

def bakerySteps (mode : FailureHandling) : List (Directive Nat) :=
  [.failureHandling mode, .startNode [(.proceed, ⟨"bake"⟩)], .addNode bakingNode]

def bakery (mode : FailureHandling) : Graph Nat :=
  (define "Bakery" (bakerySteps mode)).toOption.getD { name := "" }

theorem built_bakery (mode : FailureHandling) : (bakery mode).Built :=
  ⟨"Bakery", bakerySteps mode, rfl⟩

/-- All is there, and something else went wrong before. -/
def larder : Context Nat :=
  ((Context.empty.insert "yeast" ⟨.uint8, 7⟩).insert "flour" ⟨.unit, ()⟩).recordFailure "no light"
    (some (.text "fuse"))

/-- A day in the bakery begins with what is in the larder. -/
def bakeryDay (mode : FailureHandling) : Segment Nat :=
  ((bakery mode).call 1 none none larder 0).get (by cases mode <;> rfl)

/-- With what is in the larder the command would be called.  In the bakery it is not, and the
context tells.  There the day ends in halt mode, and in chain of command it goes on. -/
theorem bakery_runs_out_of_yeast :
    baking.hanging.execute.run 0 larder 0 = none ∧
      ∀ mode, (bakery mode).call 1 none none larder 0 = some (bakeryDay mode) ∧
        ∃ round failed, (bakeryDay mode).rounds = [round] ∧
          failed.message = some "Missing required arguments: yeast, yeast" ∧
          failed.exception = none ∧ failed.data = (larder.erase "yeast").data ∧
          (mode = .halt → round.visited? = none ∧ (bakeryDay mode).final.context = failed) ∧
          (mode = .chainOfCommand →
            round.visited? = some ⟨"bake"⟩ ∧ round.after.context = failed) := by
  obtain ⟨halone, _, hcalls⟩ := Command.called_on_complete_contexts (σ := Nat)
  have hlarder : baking.Complete larder := Command.complete_iff.mpr rfl
  have htidied : ¬ baking.Complete (larder.erase "yeast") := by
    rw [Command.complete_iff]
    decide
  refine ⟨((halone baking 0 larder 0).1).mpr hlarder, fun mode => ?_⟩
  have hcall : (bakery mode).call 1 none none larder 0 = some (bakeryDay mode) :=
    (Option.some_get _).symm
  obtain ⟨round, hround, hnode, hstart, hsave⟩ : ∃ round,
      (bakeryDay mode).rounds = [] ++ round :: [] ∧ round.node = bakingNode ∧
        (bakeryDay mode).start = ⟨larder, .new, 0⟩ ∧ round.save = none := by
    cases mode <;> exact ⟨_, rfl, rfl, rfl, rfl⟩
  obtain ⟨_, prepared, hprepared, hlacking⟩ :=
    hcalls (built_bakery mode) hcall hround (congrArg Node.operation hnode)
  rw [hnode, hstart] at hprepared
  obtain rfl := Option.some.inj hprepared
  obtain ⟨failed, hfailed, huncalled⟩ := hlacking rfl htidied
  refine ⟨hcall, round, failed, hround, hfailed.message, hfailed.exception, hfailed.data,
    fun hmode => ?_, fun hmode => ?_⟩
  · subst hmode
    exact (huncalled.stops rfl).2
  · subst hmode
    obtain ⟨hvisited, hcontext, _⟩ := huncalled.goes_on rfl (by simp [hsave])
    rw [Round.state, hnode] at hvisited
    exact ⟨hvisited, hcontext⟩

end Graph

end Workflow
