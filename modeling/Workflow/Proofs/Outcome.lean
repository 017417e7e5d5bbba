import Workflow.Proofs.Resumption

/-!
# How calls turn out

Whatever the callbacks and the checkpoint do, a call that ends does so in one of six
ways, and each fixes what the call leaves in the context.

* `Outcome` lists the ways.  `Graph.Ends` says what a round shows of them, and
  `Conclusion.outcome?` where the round itself notes it.
* `outcome_of_fault`, `outcome_of_refusal`, `outcome_of_failure` and
  `outcome_of_entered` take the ways one by one: how such a round ends, and the context
  that it leaves.
* `exists_ends`: a round that leads to no further node ends its call in some way.
  `final_of_ends` and `existsUnique_ends`: only the last round of a call does, and only in
  one way.
* `Graph.TurnsOut` is the outcome of a whole call, and `outcome_of_call` states that
  there is one, and what it means.
-/

namespace Workflow

/-- How a call turns out. -/
inductive Outcome
  /-- The signal leads nowhere from the current state. -/
  | invalid
  /-- The signal leads to the pausing target. -/
  | stayed
  /-- The prepare hook or the operation of a node returned a fault that is no halt. -/
  | unhandled
  /-- A save was not accepted. -/
  | unsaved
  /-- In halt mode a node failed without such a fault. -/
  | stopped
  /-- A state was entered from where the picked signal leads nowhere, or pauses. -/
  | ended
  deriving DecidableEq

/-- How a call ends with a round that concludes so; none if the run goes on. -/
def Conclusion.outcome? {σ : Type} : Conclusion σ → Option Outcome
  | .interrupted (.halted _) | .failed _ => some .stopped
  | .interrupted (.unhandled _) | .lost .. => some .unhandled
  | .refused .. => some .unsaved
  | .finished _ | .waiting _ => some .ended
  | .moved .. => none

theorem Conclusion.next?_of_outcome? {σ : Type} {conclusion : Conclusion σ} {outcome : Outcome}
    (h : conclusion.outcome? = some outcome) : conclusion.next? = none := by
  cases conclusion with
  | moved => contradiction
  | _ => rfl

/-- The node returned a halt, or it succeeded but left the context failed. -/
def Round.Fails {σ : Type} (round : Round σ) : Prop :=
  (∃ halt, round.reply.result = .error (.halt halt)) ∨
    (round.reply.result = .ok () ∧ round.reply.context.isFailure)

theorem Round.Fails.stops {σ : Type} {graph : Graph σ} {round : Round σ} (h : round.Fails)
    (hmode : graph.failureHandling = .halt) : round.Stops graph :=
  .inl ⟨hmode, h.imp id And.right⟩

/-- The fault of a checkpoint that raised one instead of answering. -/
def Save.fault? (save : Save) : Option Fault :=
  match save.answer with
  | .ok _ => none
  | .error fault => some fault

theorem Save.cause_of_outcome {save : Save} {refusal : CheckpointError}
    (h : save.outcome = .error refusal) : refusal.cause = save.fault? := by
  unfold outcome at h
  unfold fault?
  split at h <;> rename_i hanswer
  · contradiction
  · rw [hanswer, ← Except.error.inj h]
  · rw [hanswer, ← Except.error.inj h]

namespace Graph

variable {σ : Type} {graph : Graph σ}

/-- The round ends its call, in the given way. -/
def Ends (graph : Graph σ) (round : Round σ) : Outcome → Prop
  | .invalid | .stayed => False
  | .unhandled => ∃ fault, round.reply.result = .error fault ∧ ∀ halt, fault ≠ .halt halt
  | .unsaved => ∃ save, round.save = some save ∧ save.answer ≠ .ok true
  | .stopped => graph.failureHandling = .halt ∧ round.Fails
  | .ended =>
    round.conclusion.entered ∧
      ∃ signal, (graph.choose round.node round.reply.context round.reply.host).1 = .ok signal ∧
        (round.node.target? signal = none ∨ round.node.target? signal = some .wait)

/-- The outcome of a call with a signal from a state, which made the given rounds. -/
def TurnsOut (graph : Graph σ) (state : StateName) (signal : Signal) (rounds : List (Round σ)) :
    Outcome → Prop
  | .invalid => graph.target? state signal = none
  | .stayed => graph.target? state signal = some .wait
  | outcome => ∃ round ∈ rounds, graph.Ends round outcome

/-- What a call leaves in its context if the round ended it: what the prepare hook and
the operation of the node left there, but for the record of a fault or of a refusal. -/
structure Leaves (graph : Graph σ) (round : Round σ) (context : Context σ) : Prop where
  unhandled : ∀ fault, round.reply.result = .error fault → (∀ halt, fault ≠ .halt halt) →
    context = round.reply.context.recordFailure
      ("Unhandled exception " ++ graph.name ++ ": " ++ fault.message) (some fault)
  unsaved : ∀ save, round.save = some save → save.answer ≠ .ok true →
    context = round.reply.context.recordFailure
      (graph.name ++ " failed to persist process state: " ++ ticked round.state.text) save.fault?
  stopped : graph.failureHandling = .halt → round.Fails → context = round.reply.context
  ended : graph.Ends round .ended → context = round.reply.context

/-! ## A round that ends its call -/

section Ending

variable {node : Node σ} {process : Process σ} {reply : Reply σ} {round : Round σ}

/-- A fault other than a halt breaks the run off in either mode. -/
theorem interrupt?_of_fault {fault : Fault} (hfault : ∀ halt, fault ≠ .halt halt) :
    graph.interrupt? (.error fault) = some (.unhandled fault) := by
  cases fault with
  | halt halt => exact absurd rfl (hfault halt)
  | _ => rfl

theorem outcome_of_fault (h : graph.Ending node process reply round) {fault : Fault}
    (hresult : reply.result = .error fault) (hfault : ∀ halt, fault ≠ .halt halt) :
    round.conclusion.outcome? = some .unhandled ∧
      round.after.context =
        reply.context.recordFailure (fault.unhandledMessage graph.name) (some fault) := by
  have hinterrupt : graph.interrupt? reply.result = some (.unhandled fault) := by
    rw [hresult, interrupt?_of_fault hfault]
  cases h with
  | interrupted hwork =>
    obtain rfl := Option.some.inj (hwork.symm.trans hinterrupt)
    exact ⟨rfl, rfl⟩
  | failed hwork | refused hwork =>
    rw [hinterrupt] at hwork
    contradiction
  | entered haccepts =>
    have hwork := haccepts.work
    rw [hinterrupt] at hwork
    contradiction

theorem outcome_of_refusal (h : graph.Ending node process reply round) {save : Save}
    (hsave : round.save = some save) (hanswer : save.answer ≠ .ok true) :
    round.conclusion.outcome? = some .unsaved ∧
      round.after.context =
        reply.context.recordFailure (graph.refusalMessage node.state) save.fault? := by
  cases h with
  | interrupted | failed => contradiction
  | @refused signal host made refusal _ _ _ hmade hrefused =>
    obtain rfl := Option.some.inj hsave
    rcases process.visit_cases node.state host with
      ⟨_, hnone, _⟩ | ⟨other, _, hother, _, _, houtcome⟩
    · rw [hnone] at hmade
      contradiction
    · rw [hmade] at hother
      obtain rfl := Option.some.inj hother
      rw [Save.cause_of_outcome (houtcome.symm.trans hrefused)]
      exact ⟨rfl, rfl⟩
  | entered haccepts =>
    exact absurd (.inr (.inr ⟨save, hsave, hanswer⟩)) (not_stops_accept haccepts)

/-- In halt mode a node that fails goes no further than its signal hook. -/
theorem outcome_of_failure (h : graph.Ending node process reply round)
    (hmode : graph.failureHandling = .halt) (hfails : round.Fails) :
    round.conclusion.outcome? = some .stopped ∧ round.after.context = reply.context := by
  have hstays : round.conclusion.entered = false :=
    (stops_iff h).mp (hfails.stops hmode)
  cases h with
  | @interrupted interrupt hwork =>
    rcases hfails with ⟨halt, hresult⟩ | ⟨hresult, _⟩
    · have hinterrupt : graph.interrupt? reply.result = some (.halted halt) := by
        rw [show reply.result = .error (.halt halt) from hresult]
        simp [interrupt?, Fault.interrupt, isChainOfCommand_eq_false_iff.mpr hmode]
      obtain rfl := Option.some.inj (hwork.symm.trans hinterrupt)
      exact ⟨rfl, rfl⟩
    · rw [show reply.result = .ok () from hresult] at hwork
      contradiction
  | failed => exact ⟨rfl, rfl⟩
  | refused hwork _ hgoes _ _ =>
    have hchain := isChainOfCommand_eq_false_iff.mpr hmode
    rcases hfails with ⟨halt, hresult⟩ | ⟨_, hfailure⟩
    · rw [show reply.result = .error (.halt halt) from hresult, interrupt?_eq_none_iff,
        hchain] at hwork
      simp at hwork
    · rw [Context.isSuccess, show reply.context.isFailure = true from hfailure, hchain] at hgoes
      simp at hgoes
  | entered =>
    rw [accept, entered_onward] at hstays
    contradiction

theorem outcome_of_entered (h : graph.Ending node process reply round)
    (hentered : round.conclusion.entered) {signal : Signal}
    (hchoose : (graph.choose node reply.context reply.host).1 = .ok signal)
    (htarget : node.target? signal = none ∨ node.target? signal = some .wait) :
    round.conclusion.outcome? = some .ended ∧ round.after.context = reply.context := by
  rcases ending_stays_or_enters h with ⟨hstays, _⟩ | ⟨picked, host, haccepts, rfl⟩
  · rw [hstays] at hentered
    contradiction
  · obtain rfl : picked = signal :=
      Except.ok.inj ((congrArg Prod.fst haccepts.choose).symm.trans hchoose)
    refine ⟨?_, rfl⟩
    rcases htarget with hnone | hwait
    · exact congrArg Conclusion.outcome? (onward_of_none hnone)
    · exact congrArg Conclusion.outcome? (onward_of_wait hwait)

theorem outcome?_of_ends (h : graph.Ending node process reply round) {outcome : Outcome}
    (hends : graph.Ends round outcome) : round.conclusion.outcome? = some outcome := by
  obtain ⟨rfl, rfl⟩ := node_reply_of_ending h
  cases outcome with
  | invalid | stayed => exact hends.elim
  | unhandled =>
    obtain ⟨fault, hresult, hfault⟩ := hends
    exact (outcome_of_fault h hresult hfault).1
  | unsaved =>
    obtain ⟨save, hsave, hanswer⟩ := hends
    exact (outcome_of_refusal h hsave hanswer).1
  | stopped => exact (outcome_of_failure h hends.1 hends.2).1
  | ended =>
    obtain ⟨hentered, signal, hchoose, htarget⟩ := hends
    exact (outcome_of_entered h hentered hchoose htarget).1

theorem ends_of_stops (h : round.Stops graph) : ∃ outcome, graph.Ends round outcome := by
  rcases h with ⟨hmode, ⟨halt, hhalt⟩ | hfailure⟩ | hfault | hsave
  · exact ⟨.stopped, hmode, .inl ⟨halt, hhalt⟩⟩
  · cases hresult : round.reply.result with
    | ok => exact ⟨.stopped, hmode, .inr ⟨hresult, hfailure⟩⟩
    | error fault =>
      rcases fault.halt_or_other with ⟨halt, rfl⟩ | hfault
      · exact ⟨.stopped, hmode, .inl ⟨halt, hresult⟩⟩
      · exact ⟨.unhandled, fault, hresult, hfault⟩
  · exact ⟨.unhandled, hfault⟩
  · exact ⟨.unsaved, hsave⟩

/-- A round that leads to no further node ends its call. -/
theorem exists_ends (hbuilt : graph.Built) (hmem : node ∈ graph.nodes)
    (h : graph.Ending node process reply round) (hlast : round.conclusion.next? = none) :
    ∃ outcome, graph.Ends round outcome := by
  rcases ending_stays_or_enters h with ⟨hstays, _⟩ | ⟨signal, host, haccepts, rfl⟩
  · exact ends_of_stops ((stops_iff h).mpr hstays)
  · refine ⟨.ended, entered_onward .., signal, congrArg Prod.fst haccepts.choose, ?_⟩
    rcases onward_cases hbuilt hmem signal with ⟨hnone, _⟩ | ⟨hwait, _⟩ | ⟨next, hnext, hsome, _⟩
    · exact .inl hnone
    · exact .inr hwait
    · rw [next?_accept hbuilt hnext hsome] at hlast
      contradiction

end Ending

/-! ## The rounds of a run -/

section Runs

variable {limit : Nat} {node : Node σ} {start : Execution σ} {rounds : List (Round σ)}

theorem Runs.exists_last (h : graph.Runs limit node start rounds) :
    ∃ earlier last, rounds = earlier ++ [last] := by
  have hne : rounds ≠ [] := by cases h <;> simp
  exact ⟨_, _, (List.dropLast_append_getLast hne).symm⟩

/-- The round that ends a call is the last one of its run. -/
theorem final_of_ends (hbuilt : graph.Built)
    (h : graph.Runs limit node start rounds) {round : Round σ} (hround : round ∈ rounds)
    {outcome : Outcome} (hends : graph.Ends round outcome) :
    rounds.getLast? = some round ∧ start.afterRounds rounds = round.after ∧
      ∃ process, graph.Ending round.node process round.reply round := by
  obtain ⟨earlier, later, rfl⟩ := List.append_of_mem hround
  obtain ⟨_, hending, _⟩ := round_of_runs h rfl
  have hlast := Conclusion.next?_of_outcome? (outcome?_of_ends hending hends)
  obtain rfl := (next?_of_runs hbuilt h rfl).mp hlast
  exact ⟨List.getLast?_concat, afterRounds_concat .., _, hending⟩

theorem existsUnique_ends (hbuilt : graph.Built) (hmem : node ∈ graph.nodes)
    (h : graph.Runs limit node start rounds) :
    ∃! outcome, ∃ round ∈ rounds, graph.Ends round outcome := by
  obtain ⟨earlier, last, rfl⟩ := h.exists_last
  have hlast : last ∈ earlier ++ [last] := List.mem_append_right _ List.mem_cons_self
  have hnode := mem_nodes_of_runs hmem h last hlast
  obtain ⟨_, hending, _⟩ := round_of_runs h rfl
  obtain ⟨outcome, hends⟩ :=
    exists_ends hbuilt hnode hending ((next?_of_runs hbuilt h rfl).mpr rfl)
  refine ⟨outcome, ⟨last, hlast, hends⟩, ?_⟩
  rintro other ⟨round, hround, hother⟩
  obtain ⟨hsame, _⟩ := final_of_ends hbuilt h hround hother
  rw [List.getLast?_concat] at hsame
  obtain rfl := Option.some.inj hsame
  exact Option.some.inj ((outcome?_of_ends hending hother).symm.trans
    (outcome?_of_ends hending hends))

theorem leaves_of_runs (hbuilt : graph.Built) (h : graph.Runs limit node start rounds)
    {round : Round σ} (hround : round ∈ rounds) :
    graph.Leaves round (start.afterRounds rounds).context where
  unhandled := by
    intro fault hresult hfault
    have hends : graph.Ends round .unhandled := ⟨fault, hresult, hfault⟩
    obtain ⟨_, hafter, _, hending⟩ := final_of_ends hbuilt h hround hends
    rw [hafter]
    exact (outcome_of_fault hending hresult hfault).2
  unsaved := by
    intro save hsave hanswer
    have hends : graph.Ends round .unsaved := ⟨save, hsave, hanswer⟩
    obtain ⟨_, hafter, _, hending⟩ := final_of_ends hbuilt h hround hends
    rw [hafter]
    exact (outcome_of_refusal hending hsave hanswer).2
  stopped := by
    intro hmode hfails
    have hends : graph.Ends round .stopped := ⟨hmode, hfails⟩
    obtain ⟨_, hafter, _, hending⟩ := final_of_ends hbuilt h hround hends
    rw [hafter]
    exact (outcome_of_failure hending hmode hfails).2
  ended := by
    intro hends
    obtain ⟨_, hafter, _, hending⟩ := final_of_ends hbuilt h hround hends
    obtain ⟨hentered, _, hchoose, htarget⟩ := hends
    rw [hafter]
    exact (outcome_of_entered hending hentered hchoose htarget).2

theorem process_afterRounds (h : graph.Passes start rounds) :
    (start.afterRounds rounds).process =
      start.process.enterAll (rounds.filterMap Round.visited?) := by
  induction h with
  | nil => exact (Process.enterAll_nil _).symm
  | stop hending hstays =>
    rw [List.filterMap_cons_none (visited?_of_not_entered hstays)]
    rcases ending_stays_or_enters hending with ⟨_, hprocess⟩ | ⟨_, _, _, rfl⟩
    · exact hprocess.trans (Process.enterAll_nil _).symm
    · rw [accept, entered_onward] at hstays
      contradiction
  | enter haccepts hrest ih =>
    rw [List.filterMap_cons_some (visited?_accept ..), Process.enterAll_cons]
    exact ih

end Runs

/-! ## A whole call -/

section Call

variable {state : StateName} {signal : Signal}

/-- A signal that enters a node leaves it to the rounds how the call turns out. -/
theorem turnsOut_iff_of_mem (hbuilt : graph.Built) {node : Node σ} (hmem : node ∈ graph.nodes)
    (htarget : graph.target? state signal = some node.state) {rounds : List (Round σ)}
    {outcome : Outcome} :
    graph.TurnsOut state signal rounds outcome ↔ ∃ round ∈ rounds, graph.Ends round outcome := by
  cases outcome with
  | invalid => simp [TurnsOut, Ends, htarget]
  | stayed => simp [TurnsOut, Ends, htarget, hbuilt.indexed.ne_wait hmem]
  | _ => rfl

/-- Without rounds it is the signal alone that decides. -/
theorem turnsOut_nil_iff {outcome : Outcome} :
    graph.TurnsOut state signal [] outcome ↔
      (outcome = .invalid ∧ graph.target? state signal = none) ∨
        (outcome = .stayed ∧ graph.target? state signal = some .wait) := by
  cases outcome <;> simp [TurnsOut]

theorem existsUnique_turnsOut (hbuilt : graph.Built) {limit : Nat} {start : Execution σ}
    {segment : Segment σ} (h : graph.Advances limit signal start segment) :
    ∃! outcome, graph.TurnsOut start.process.state signal segment.rounds outcome := by
  cases h with
  | entered hmem htarget hruns hlength =>
    simp only [turnsOut_iff_of_mem hbuilt hmem htarget]
    exact existsUnique_ends hbuilt hmem hruns
  | stayed htarget => simp [turnsOut_nil_iff, htarget]
  | invalid htarget => simp [turnsOut_nil_iff, htarget]

/-- A call turns out in exactly one way, whatever the mode of the graph.  It runs the given
process, or a new one, with the checkpoint of the graph if that has none of its own, and
leaves it as it is after the last accepted visit.  An invalid signal and one that pauses
run nothing: the first fails the context, and the second leaves it alone.  Else the round
that ended the call decides what the context is. -/
theorem outcome_of_call (hbuilt : graph.Built) {limit : Nat} {signal? : Option Signal}
    {process? : Option (Process σ)} {context : Context σ} {host : σ} {segment : Segment σ}
    (hcall : graph.call limit signal? process? context host = some segment) :
    let signal := signal?.getD .proceed
    let given := process?.getD .new
    let process : Process σ := { given with checkpoint := given.checkpoint.or graph.checkpoint }
    segment.final.process = process.enterAll segment.visited ∧
      (∃! outcome, graph.TurnsOut process.state signal segment.rounds outcome) ∧
      (graph.TurnsOut process.state signal segment.rounds .invalid →
        segment.rounds = [] ∧
          segment.final =
            { context := context.recordFailure ("invalid signal: " ++ signal.text) none
              process, host }) ∧
      (graph.TurnsOut process.state signal segment.rounds .stayed →
        segment.rounds = [] ∧ segment.final = { context, process, host }) ∧
      ∀ round ∈ segment.rounds, graph.Leaves round segment.final.context := by
  intro signal given process
  have hadvances : graph.Advances limit signal { context, process, host } segment :=
    (advance_eq_some_iff hbuilt).mp hcall
  have hunique := existsUnique_turnsOut hbuilt hadvances
  cases hadvances with
  | entered hmem htarget hruns hlength =>
    refine ⟨process_afterRounds (passes_of_runs hruns), hunique, ?_, ?_,
      fun round hround => leaves_of_runs hbuilt hruns hround⟩
    · rw [turnsOut_iff_of_mem hbuilt hmem htarget]
      rintro ⟨_, _, hnever⟩
      exact hnever.elim
    · rw [turnsOut_iff_of_mem hbuilt hmem htarget]
      rintro ⟨_, _, hnever⟩
      exact hnever.elim
  | stayed htarget =>
    refine ⟨(Process.enterAll_nil _).symm, hunique, fun hinvalid => ?_, fun _ => ⟨rfl, rfl⟩,
      List.forall_mem_nil _⟩
    exact absurd (hinvalid.symm.trans htarget) (by simp)
  | invalid htarget =>
    refine ⟨(Process.enterAll_nil _).symm, hunique, fun _ => ⟨rfl, rfl⟩, fun hstayed => ?_,
      List.forall_mem_nil _⟩
    exact absurd (htarget.symm.trans hstayed) (by simp)

end Call

def etchingSteps : List (Directive Nat) :=
  .checkpoint (fun cursor _ host => (.ok cursor.visited.isEmpty, host)) :: drawingSteps

/-- A drawing that accepts the first draft only, unless its process says otherwise. -/
def etching : Graph Nat := (define "Etching" etchingSteps).toOption.getD { name := "" }

/-- It is drafted twice, and the second draft is not saved. -/
def unsavedEtching : Segment Nat := (etching.call 5 none none .empty 0).get rfl

/-- So the run ended there, for no other reason, and the context tells.  The process now has
the checkpoint of the graph. -/
theorem etching_turns_out_unsaved :
    etching.call 5 none none .empty 0 = some unsavedEtching ∧
      etching.TurnsOut .initial .proceed unsavedEtching.rounds .unsaved ∧
      ¬ etching.TurnsOut .initial .proceed unsavedEtching.rounds .ended ∧
      unsavedEtching.final.process.visited = [⟨"draft"⟩] ∧
      unsavedEtching.final.process.checkpoint = etching.checkpoint ∧
      etching.checkpoint.isSome ∧
      unsavedEtching.final.context.failure =
        some { message := "Etching failed to persist process state: `draft`" } := by
  have hbuilt : etching.Built := ⟨"Etching", etchingSteps, rfl⟩
  have hcall : etching.call 5 none none .empty 0 = some unsavedEtching := rfl
  obtain ⟨hprocess, hunique, _, _, hleaves⟩ := outcome_of_call hbuilt hcall
  have hlast : unsavedEtching.rounds[1] ∈ unsavedEtching.rounds := List.getElem_mem _
  have hturns : etching.TurnsOut .initial .proceed unsavedEtching.rounds .unsaved :=
    ⟨_, hlast, _, rfl, by decide⟩
  refine ⟨hcall, hturns, fun hended => ?_, congrArg (·.visited) hprocess,
    congrArg (·.checkpoint) hprocess, rfl, ?_⟩
  · exact absurd (hunique.unique hturns hended) (by decide)
  · rw [(hleaves _ hlast).unsaved _ rfl (by decide)]
    rfl

end Graph

end Workflow
