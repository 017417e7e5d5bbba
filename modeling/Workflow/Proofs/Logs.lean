import Workflow.Proofs.Path

/-!
# The logs of a call

A call leaves four logs: the executed nodes, the saves, the history of the
process, and the states that its observer was told.  This module proves that
they agree, whatever stops the call.

* `ending_save` is what one round saves: nothing without a checkpoint, and else
  at most one transition, from where the process stands, which is accepted if
  and only if the state is entered.
* `Round.Stops` says what stops a run at a node before its state is entered, and
  `stops_iff` that these are all the rounds that enter nothing.
* `Passes` is a run as its logs see it.  `saves_visited`, `saves_before` and
  `accepted_of_mem_dropLast` carry the saves through it, and `executed_visited`
  the executed nodes.
* `logs_agree` states it all of a call.
-/

namespace Workflow

theorem Fault.halt_or_other (fault : Fault) :
    (∃ halt, fault = .halt halt) ∨ ∀ halt, fault ≠ .halt halt := by
  cases fault with
  | halt halt => exact .inl ⟨halt, rfl⟩
  | _ => exact .inr nofun

/-- What stops a run at a node before its state is entered: in halt mode a halt
or a failed context, and in either mode a fault or a save that is not accepted. -/
def Round.Stops {σ : Type} (graph : Graph σ) (round : Round σ) : Prop :=
  (graph.failureHandling = .halt ∧
      ((∃ halt, round.reply.result = .error (.halt halt)) ∨ round.reply.context.isFailure)) ∨
    (∃ fault, round.reply.result = .error fault ∧ ∀ halt, fault ≠ .halt halt) ∨
    ∃ save, round.save = some save ∧ save.answer ≠ .ok true

namespace Graph

variable {σ : Type} {graph : Graph σ}

theorem isChainOfCommand_eq_false_iff :
    graph.isChainOfCommand = false ↔ graph.failureHandling = .halt := by
  cases hmode : graph.failureHandling <;> simp [isChainOfCommand, hmode]

/-! ## One round -/

section Ending

variable {node : Node σ} {process : Process σ} {reply : Reply σ} {round : Round σ}

/-- What a round saves, and what the answer decides. -/
theorem ending_save (h : graph.Ending node process reply round) :
    (round.save = none ∧ (round.conclusion.entered → process.checkpoint = none)) ∨
      ∃ save, round.save = some save ∧ process.checkpoint.isSome ∧
        save.before = process.toCursor ∧ save.state = node.state ∧
        save.accepted = round.conclusion.entered := by
  cases h with
  | interrupted | failed => exact .inl ⟨rfl, fun hentered => by contradiction⟩
  | @refused signal host save refusal hwork hchoose hgoes hsave hrefused =>
    rcases process.visit_cases node.state host with
      ⟨_, hnone, _⟩ | ⟨made, hsome, hmade, hbefore, hstate, houtcome⟩
    · rw [hnone] at hsave
      contradiction
    · rw [hmade] at hsave
      obtain rfl := Option.some.inj hsave
      refine .inr ⟨made, rfl, hsome, hbefore, hstate, ?_⟩
      cases haccepted : made.accepted with
      | false => rfl
      | true =>
        rw [houtcome, Save.outcome_eq_ok_iff.mpr haccepted] at hrefused
        contradiction
  | @entered signal host haccepts =>
    rcases process.visit_cases node.state host with
      ⟨hnone, hsave, _⟩ | ⟨made, hsome, hmade, hbefore, hstate, houtcome⟩
    · exact .inl ⟨hsave, fun _ => hnone⟩
    · refine .inr ⟨made, hmade, hsome, hbefore, hstate, ?_⟩
      have hok := haccepts.visit
      rw [houtcome] at hok
      rw [Save.outcome_eq_ok_iff.mp hok, accept, entered_onward]

theorem accepted_save {signal : Signal} {host : σ}
    (haccepts : graph.Accepts node process reply signal host)
    (hsome : process.checkpoint.isSome) :
    ∃ save, (graph.accept node process reply signal host).save = some save ∧
      save.state = node.state ∧ save.accepted := by
  rcases ending_save (.entered haccepts) with ⟨_, hnone⟩ | ⟨save, hsave, _, _, hstate, haccepted⟩
  · rw [hnone (by rw [accept, entered_onward])] at hsome
    contradiction
  · rw [accept, entered_onward] at haccepted
    exact ⟨save, hsave, hstate, haccepted⟩

theorem interrupt?_eq_none_iff {result : Except Fault Unit} :
    graph.interrupt? result = none ↔
      result = .ok () ∨
        (∃ halt, result = .error (.halt halt)) ∧ graph.isChainOfCommand := by
  cases result with
  | ok => simp [interrupt?]
  | error fault => cases fault <;> simp [interrupt?, Fault.interrupt]

theorem not_stops_accept {signal : Signal} {host : σ}
    (haccepts : graph.Accepts node process reply signal host) :
    ¬ (graph.accept node process reply signal host).Stops graph := by
  rintro (⟨hmode, ⟨halt, hhalt⟩ | hfailure⟩ | ⟨fault, hfault, hnot⟩ | ⟨save, hsave, hanswer⟩)
  · have hwork := haccepts.work
    rw [show reply.result = .error (.halt halt) from hhalt, interrupt?_eq_none_iff,
      isChainOfCommand_eq_false_iff.mpr hmode] at hwork
    simp at hwork
  · have hgoes := haccepts.goes
    rw [Context.isSuccess, show reply.context.isFailure = true from hfailure,
      isChainOfCommand_eq_false_iff.mpr hmode] at hgoes
    simp at hgoes
  · have hwork := haccepts.work
    rw [show reply.result = .error fault from hfault, interrupt?_eq_none_iff] at hwork
    rcases hwork with hok | ⟨⟨halt, hhalt⟩, _⟩
    · contradiction
    · exact hnot halt (Except.error.inj hhalt)
  · rcases ending_save (.entered haccepts) with ⟨hnone, _⟩ | ⟨made, hmade, _, _, _, haccepted⟩
    · rw [hsave] at hnone
      contradiction
    · rw [hsave] at hmade
      obtain rfl := Option.some.inj hmade
      rw [accept, entered_onward] at haccepted
      exact hanswer (Save.accepted_iff.mp haccepted)

theorem stops_of_interrupt? {interrupt : Interrupt}
    (hwork : graph.interrupt? round.reply.result = some interrupt) : round.Stops graph := by
  cases hresult : round.reply.result with
  | ok => rw [hresult] at hwork; contradiction
  | error fault =>
    rcases fault.halt_or_other with ⟨halt, rfl⟩ | hfault
    · refine .inl ⟨?_, .inl ⟨halt, hresult⟩⟩
      rw [← isChainOfCommand_eq_false_iff]
      cases hmode : graph.isChainOfCommand with
      | false => rfl
      | true => simp [hresult, interrupt?, Fault.interrupt, hmode] at hwork
    · exact .inr (.inl ⟨fault, hresult, hfault⟩)

/-- The rounds that enter nothing are those that stop the run. -/
theorem stops_iff (h : graph.Ending node process reply round) :
    round.Stops graph ↔ round.conclusion.entered = false := by
  constructor
  · intro hstops
    rcases ending_stays_or_enters h with ⟨hstays, _⟩ | ⟨signal, host, haccepts, rfl⟩
    · exact hstays
    · exact absurd hstops (not_stops_accept haccepts)
  · intro hstays
    rcases ending_save h with ⟨_, _⟩ | ⟨made, hmade, _, _, _, haccepted⟩
    · cases h with
      | interrupted hwork => exact stops_of_interrupt? hwork
      | failed hwork hchoose hfailure hmode =>
        exact .inl ⟨isChainOfCommand_eq_false_iff.mp hmode, .inr hfailure⟩
      | refused => contradiction
      | entered haccepts =>
        rw [accept, entered_onward] at hstays
        contradiction
    · refine .inr (.inr ⟨made, hmade, fun hanswer => ?_⟩)
      rw [Save.accepted_iff.mpr hanswer, hstays] at haccepted
      contradiction

end Ending

/-! ## A whole run -/

/-- The rounds of a run as its logs see them: each enters its state, but the last
one may not. -/
inductive Passes (graph : Graph σ) : Execution σ → List (Round σ) → Prop
  | nil {start : Execution σ} : Passes graph start []
  | stop {node : Node σ} {start : Execution σ} {reply : Reply σ} {round : Round σ}
      (hending : graph.Ending node start.process reply round)
      (hstays : round.conclusion.entered = false) : Passes graph start [round]
  | enter {node : Node σ} {start : Execution σ} {reply : Reply σ} {signal : Signal} {host : σ}
      {rounds : List (Round σ)} (haccepts : graph.Accepts node start.process reply signal host)
      (hrest : Passes graph (graph.accept node start.process reply signal host).after rounds) :
      Passes graph start (graph.accept node start.process reply signal host :: rounds)

theorem passes_of_runs {limit : Nat} {node : Node σ} {start : Execution σ}
    {rounds : List (Round σ)} (h : graph.Runs limit node start rounds) :
    graph.Passes start rounds := by
  induction h with
  | last hrun hending hlast =>
    rcases ending_stays_or_enters hending with ⟨hstays, _⟩ | ⟨signal, host, haccepts, rfl⟩
    · exact .stop hending hstays
    · exact .enter haccepts .nil
  | next hrun haccepts hmem htarget hrest ih => exact .enter haccepts ih

namespace Passes

variable {start : Execution σ} {rounds : List (Round σ)}

theorem saves_eq_nil (h : graph.Passes start rounds)
    (hnone : start.process.checkpoint = none) : rounds.filterMap (·.save) = [] := by
  induction h with
  | nil => rfl
  | stop hending hstays =>
    rcases ending_save hending with ⟨hsave, _⟩ | ⟨_, _, hsome, _⟩
    · rw [List.filterMap_cons_none hsave]
      rfl
    · rw [hnone] at hsome
      contradiction
  | enter haccepts hrest ih =>
    rcases ending_save (.entered haccepts) with ⟨hsave, _⟩ | ⟨_, _, hsome, _⟩
    · rw [List.filterMap_cons_none hsave]
      exact ih hnone
    · rw [hnone] at hsome
      contradiction

/-- With a checkpoint in force the accepted saves are those of the visited states. -/
theorem saves_visited (h : graph.Passes start rounds)
    (hsome : start.process.checkpoint.isSome) :
    ((rounds.filterMap (·.save)).filter Save.accepted).map Save.state =
      rounds.filterMap Round.visited? := by
  induction h with
  | nil => rfl
  | stop hending hstays =>
    rw [List.filterMap_cons_none (visited?_of_not_entered hstays)]
    rcases ending_save hending with ⟨hsave, _⟩ | ⟨made, hmade, _, _, _, haccepted⟩
    · rw [List.filterMap_cons_none hsave]
      rfl
    · rw [List.filterMap_cons_some hmade, List.filter_cons_of_neg (by simp [haccepted, hstays])]
      rfl
  | enter haccepts hrest ih =>
    obtain ⟨made, hmade, hstate, haccepted⟩ := accepted_save haccepts hsome
    rw [List.filterMap_cons_some (visited?_accept ..), List.filterMap_cons_some hmade,
      List.filter_cons_of_pos haccepted, List.map_cons, hstate, ih hsome]

/-- Each save was given the cursor as the visits before it had left it. -/
theorem saves_before (h : graph.Passes start rounds) {i : Nat} {save : Save}
    (hsave : (rounds.filterMap (·.save))[i]? = some save) :
    save.before =
      start.process.toCursor.enterAll ((rounds.filterMap Round.visited?).take i) := by
  induction h generalizing i with
  | nil => contradiction
  | stop hending hstays =>
    rw [List.filterMap_cons_none (visited?_of_not_entered hstays), List.filterMap_nil,
      List.take_nil, Cursor.enterAll_nil]
    rcases ending_save hending with ⟨hnone, _⟩ | ⟨made, hmade, _, hbefore, _⟩
    · rw [List.filterMap_cons_none hnone] at hsave
      contradiction
    · rw [List.filterMap_cons_some hmade] at hsave
      obtain rfl := List.mem_singleton.mp (List.mem_of_getElem? hsave)
      exact hbefore
  | enter haccepts hrest ih =>
    rcases ending_save (.entered haccepts) with ⟨hnone, hcheckpoint⟩ | ⟨made, hmade, _, hbefore, _⟩
    · -- Without a checkpoint nothing is saved, now or later.
      have hlater := hrest.saves_eq_nil (hcheckpoint (by rw [accept, entered_onward]))
      rw [List.filterMap_cons_none hnone, hlater] at hsave
      contradiction
    · rw [List.filterMap_cons_some hmade] at hsave
      rw [List.filterMap_cons_some (visited?_accept ..)]
      cases i with
      | zero =>
        obtain rfl := Option.some.inj hsave
        rw [hbefore, List.take_zero, Cursor.enterAll_nil]
      | succ i =>
        rw [List.take_succ_cons, Cursor.enterAll_cons]
        exact ih hsave

/-- A save that is not accepted is the last one. -/
theorem accepted_of_mem_dropLast (h : graph.Passes start rounds) {save : Save}
    (hmem : save ∈ (rounds.filterMap (·.save)).dropLast) : save.accepted := by
  induction h with
  | nil => contradiction
  | @stop _ _ _ round hending hstays => cases hsave : round.save <;> simp [hsave] at hmem
  | @enter _ _ _ _ _ rounds haccepts hrest ih =>
    rcases ending_save (.entered haccepts) with ⟨hnone, _⟩ | ⟨made, hmade, _, _, _, haccepted⟩
    · rw [List.filterMap_cons_none hnone] at hmem
      exact ih hmem
    · rw [accept, entered_onward] at haccepted
      rw [List.filterMap_cons_some hmade] at hmem
      by_cases hnil : rounds.filterMap (·.save) = []
      · rw [hnil] at hmem
        contradiction
      · rw [List.dropLast_cons_of_ne_nil hnil] at hmem
        rcases List.mem_cons.mp hmem with rfl | hmem
        · exact haccepted
        · exact ih hmem

/-- Every executed node was entered, but for one more if that stopped the run. -/
theorem executed_visited (h : graph.Passes start rounds) :
    (∃ last, rounds.getLast? = some last ∧ last.Stops graph ∧
        rounds.map Round.state = rounds.filterMap Round.visited? ++ [last.state]) ∨
      (∀ round ∈ rounds, ¬ round.Stops graph) ∧
        rounds.map Round.state = rounds.filterMap Round.visited? := by
  induction h with
  | nil => exact .inr ⟨List.forall_mem_nil _, rfl⟩
  | @stop _ _ _ round hending hstays =>
    refine .inl ⟨round, rfl, (stops_iff hending).mpr hstays, ?_⟩
    rw [List.filterMap_cons_none (visited?_of_not_entered hstays)]
    rfl
  | enter haccepts hrest ih =>
    rw [List.filterMap_cons_some (visited?_accept ..), List.map_cons]
    rcases ih with ⟨last, hlast, hstops, hexecuted⟩ | ⟨hgoes, hexecuted⟩
    · refine .inl ⟨last, ?_, hstops, ?_⟩
      · rw [List.getLast?_cons, hlast]
        rfl
      · rw [hexecuted]
        rfl
    · refine .inr ⟨List.forall_mem_cons.mpr ⟨not_stops_accept haccepts, hgoes⟩, ?_⟩
      rw [hexecuted]
      rfl

end Passes

/-! ## A whole call -/

/-- The logs of a call agree, whatever the callbacks and the checkpoint answer.
The states that it appends to the history are those that its observer is told
and, with a checkpoint in force, those whose save was accepted.  Each save was
given the cursor that the visits before it had left, and only the last one may
have been refused.  The executed nodes are the visited ones, and one more if and
only if that one stopped the call. -/
theorem logs_agree (hbuilt : graph.Built) {limit : Nat} {signal? : Option Signal}
    {process? : Option (Process σ)} {context : Context σ} {host : σ} {segment : Segment σ}
    (hcall : graph.call limit signal? process? context host = some segment) :
    let process := graph.attach (process?.getD .new)
    segment.final.process.visited = process.visited ++ segment.visited ∧
      (∀ {ω : Type} (tell : ω → StateName → ω) (seen : ω),
        segment.observe tell seen = segment.visited.foldl tell seen) ∧
      (process.checkpoint.isSome →
        (segment.saves.filter Save.accepted).map Save.state = segment.visited) ∧
      (process.checkpoint = none → segment.saves = []) ∧
      (∀ {i : Nat} {save : Save}, segment.saves[i]? = some save →
        save.before = process.toCursor.enterAll (segment.visited.take i)) ∧
      (∀ save ∈ segment.saves.dropLast, save.answer = .ok true) ∧
      ((∃ last, segment.rounds.getLast? = some last ∧ last.Stops graph ∧
          segment.executed = segment.visited ++ [last.state]) ∨
        (∀ round ∈ segment.rounds, ¬ round.Stops graph) ∧
          segment.executed = segment.visited) := by
  have hadvances := (advance_eq_some_iff hbuilt).mp hcall
  obtain ⟨reached, htraverses, hprocess⟩ := traverses_of_advances hbuilt hadvances
  refine ⟨?_, segment.observe_eq_foldl, ?_⟩
  · rw [hprocess, htraverses.toCursor_final]
    rfl
  · cases hadvances with
    | entered hmem htarget hruns hlength =>
      have hpasses := passes_of_runs hruns
      exact ⟨hpasses.saves_visited, hpasses.saves_eq_nil, hpasses.saves_before,
        fun save hmem => Save.accepted_iff.mp (hpasses.accepted_of_mem_dropLast hmem),
        hpasses.executed_visited⟩
    | stayed | invalid => simp [Segment.saves, Segment.visited, Segment.executed]

/-- A process whose checkpoint accepts one transition and refuses the next. -/
def savedOnce : Process Nat :=
  Process.new.withCheckpoint fun cursor _ host => (.ok cursor.visited.isEmpty, host)

/-- The drawing is drafted twice, and the second draft is not saved. -/
theorem drawing_logs_agree :
    ∃ segment, drawing.call 5 none (some savedOnce) .empty 0 = some segment ∧
      segment.saves.map Save.answer = [.ok true, .ok false] ∧
      segment.visited = [⟨"draft"⟩] ∧
      (segment.saves.filter Save.accepted).map Save.state = segment.visited ∧
      segment.final.process.visited = segment.visited ∧
      ∃ last : Round Nat, last.Stops drawing ∧
        segment.executed = segment.visited ++ [last.state] := by
  have hcall : drawing.call 5 none (some savedOnce) .empty 0 = some _ := rfl
  obtain ⟨hvisited, _, hsaves, _, _, _, hexecuted⟩ := logs_agree built_drawing hcall
  refine ⟨_, hcall, rfl, rfl, hsaves rfl, hvisited, ?_⟩
  rcases hexecuted with ⟨last, _, hstops, hexecuted⟩ | ⟨_, hexecuted⟩
  · exact ⟨last, hstops, hexecuted⟩
  · contradiction

end Graph

end Workflow
