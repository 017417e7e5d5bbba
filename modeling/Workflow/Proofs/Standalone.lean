import Workflow.Proofs.LostHalts
import Workflow.Proofs.Rollback
import Workflow.Proofs.Trails

/-!
# A command in a graph of its own

Validation, halts and faults are handled in two places: where a command runs on its own, and
where a node runs it.  A graph that runs nothing but one command shows that the two agree.

* `Command.Calls` is the call of a command behind its validation, and `Command.rejection` the
  reply if that does not pass.  `Command.Succeeds` and `Command.Breaks` are what it can come to,
  and `succeeds_iff` and `breaks_iff` find that in the reply of `Command.checked`.
* `Graph.Solo` is a graph with one command.  `solo_of_define`: there is one for each command.
* `Solo.start_eq`: a call of it is one round, made of that reply.  `Solo.entered_iff`,
  `Solo.context_of_fault` and `Solo.context_of_handled` are that round.
* `runs_command_as_alone` compares it with the command on its own.
-/

namespace Workflow

variable {σ : Type}

/-! ## What a command comes to -/

/-- The reply reports no fault, or one that is a halt. -/
def Reply.Handled (reply : Reply σ) : Prop :=
  ∀ fault, reply.result = .error fault → ∃ halt, fault = .halt halt

namespace Command

/-- The validation of a command passes, and its call leaves the reply. -/
def Calls (command : Command σ) (limit : Nat) (context : Context σ) (host : σ)
    (called : Reply σ) : Prop :=
  (command.validate context).1 = .ok () ∧ command.call.run limit context host = some called

/-- The call returned a fault that is no halt. -/
def Breaks (command : Command σ) (limit : Nat) (context : Context σ) (host : σ)
    (fault : Fault) : Prop :=
  (∀ halt, fault ≠ .halt halt) ∧
    ∃ called, command.Calls limit context host called ∧ called.result = .error fault

/-- Validation and call succeed, and the context that they leave is successful. -/
def Succeeds (command : Command σ) (limit : Nat) (context : Context σ) (host : σ) : Prop :=
  ∃ called, command.Calls limit context host called ∧ called.result = .ok () ∧
    called.context.isSuccess

variable {command : Command σ} {limit : Nat} {context : Context σ} {host : σ} {made : Reply σ}
  {fault : Fault}

theorem validate_eq_ok_iff :
    (command.validate context).1 = .ok () ↔ context.missing command.requiredArgs = [] := by
  unfold validate
  split <;> simp_all

/-- What is left of a context that lacks a required key, with the halt that tells. -/
def rejection (command : Command σ) (context : Context σ) (host : σ) : Reply σ :=
  let message := missingMessage (context.missing command.requiredArgs)
  { result := .error (.halt { message }), context := context.recordFailure message none, host }

/-- With a required key missing it is the validation that ends the command. -/
theorem run_checked_of_missing (hmissing : context.missing command.requiredArgs ≠ []) :
    command.checked.run limit context host = some (command.rejection context host) := by
  rw [rejection]
  cases hkeys : context.missing command.requiredArgs with
  | nil => contradiction
  | cons key rest =>
    simp only [checked, Callback.andThen, validation, Callback.run_ofFunction, validate, hkeys,
      Option.bind_some]
    rfl

/-- Either the validation failed, or this is what the call left. -/
theorem halt_or_calls (hrun : command.checked.run limit context host = some made) :
    ((∃ halt, made.result = .error (.halt halt)) ∧
        ∀ called, ¬ command.Calls limit context host called) ∨
      ∀ called, command.Calls limit context host called ↔ called = made := by
  by_cases hmissing : context.missing command.requiredArgs = []
  · right
    intro called
    rw [Calls, validate_eq_ok_iff, ← run_checked_of_complete hmissing, hrun]
    simp [hmissing, eq_comm]
  · obtain rfl := Option.some.inj ((run_checked_of_missing hmissing).symm.trans hrun)
    exact .inl ⟨⟨_, rfl⟩, fun called hcalls => hmissing (validate_eq_ok_iff.mp hcalls.1)⟩

theorem breaks_iff (hrun : command.checked.run limit context host = some made) :
    command.Breaks limit context host fault ↔
      made.result = .error fault ∧ ∀ halt, fault ≠ .halt halt := by
  rcases halt_or_calls hrun with ⟨⟨halt, hhalt⟩, hnone⟩ | hcalls
  · constructor
    · rintro ⟨_, called, hcalled, _⟩
      exact absurd hcalled (hnone called)
    · rintro ⟨hfault, hother⟩
      rw [hhalt] at hfault
      exact absurd (Except.error.inj hfault).symm (hother halt)
  · simp only [Breaks, hcalls, exists_eq_left]
    exact and_comm

theorem succeeds_iff (hrun : command.checked.run limit context host = some made) :
    command.Succeeds limit context host ↔ made.result = .ok () ∧ made.context.isSuccess := by
  rcases halt_or_calls hrun with ⟨⟨halt, hhalt⟩, hnone⟩ | hcalls
  · constructor
    · rintro ⟨called, hcalled, _⟩
      exact absurd hcalled (hnone called)
    · rintro ⟨hok, _⟩
      rw [hhalt] at hok
      contradiction
  · simp only [Succeeds, hcalls, exists_eq_left]

theorem not_breaks_of_succeeds (h : command.Succeeds limit context host) :
    ¬ command.Breaks limit context host fault := by
  obtain ⟨called, hcalled, hok, _⟩ := h
  rintro ⟨_, other, hother, hfault⟩
  obtain rfl := Option.some.inj (hcalled.2.symm.trans hother.2)
  rw [hok] at hfault
  contradiction

theorem host_settle (command : Command σ) (made : Reply σ) :
    (command.settle made).host = made.host := by
  unfold settle
  split <;> rfl

theorem context_settle_of_fault (command : Command σ) (hresult : made.result = .error fault)
    (hfault : ∀ halt, fault ≠ .halt halt) :
    (command.settle made).context =
      made.context.recordFailure (fault.unhandledMessage command.name) (some fault) := by
  unfold settle
  rw [hresult]
  cases fault with
  | halt halt => exact absurd rfl (hfault halt)
  | _ => rfl

theorem context_settle_of_handled (command : Command σ) (hhandled : made.Handled) :
    (command.settle made).context = made.context := by
  unfold settle
  split
  · rfl
  · rfl
  · rename_i fault hother hresult
    obtain ⟨halt, rfl⟩ := hhandled fault hresult
    exact absurd rfl (hother halt)

end Command

namespace Graph

/-! ## A graph with one command -/

/-- From its initial node the graph proceeds to a node with the command, and from there
nowhere.  There are no hooks, and there is no checkpoint. -/
structure Solo (graph : Graph σ) (node : Node σ) (command : Command σ) : Prop where
  built : graph.Built
  mem : node ∈ graph.nodes
  entry : graph.target? .initial .proceed = some node.state
  operation : node.operation = some (.command command)
  last : node.target? .proceed = none ∨ node.target? .proceed = some .wait
  prepare : node.prepare = none
  determine : node.determine = none
  checkpoint : graph.checkpoint = none

def soloSteps (mode : FailureHandling) (state : StateName) (command : Command σ) :
    List (Directive σ) :=
  [ .failureHandling mode
  , .startNode [(.proceed, state)]
  , .addNode (.define state [.command command]) ]

/-- The graph that these steps define. -/
def solo (name : String) (mode : FailureHandling) (state : StateName) (command : Command σ) :
    Graph σ where
  name
  nodes := [(Node.new .initial).on .proceed state, (Node.new state).withCommand command]
  index := (Table.insert ∅ StateName.initial.text 0).insert state.text 1
  options := { failureHandling := mode }

section Define

variable {name : String} {mode : FailureHandling} {state : StateName} {command : Command σ}

/-- Both nodes are registered. -/
theorem foldl_soloSteps (hinitial : state ≠ .initial) (hwait : state ≠ .wait) :
    (soloSteps mode state command).foldl Draft.apply (Draft.new name) =
      { toGraph := solo name mode state command } := by
  let node : Node σ := (Node.new state).withCommand command
  let started : Draft σ :=
    { name, nodes := [(Node.new .initial).on .proceed state]
      index := Table.insert ∅ StateName.initial.text 0, options := { failureHandling := mode } }
  show started.addNode node = _
  have hnotWait : ¬ node.state.isWait := fun h => hwait (of_decide_eq_true h)
  have hfresh : ¬ started.hasNode node.state := by
    have htext : StateName.initial.text ≠ state.text := by
      obtain ⟨text⟩ := state
      exact fun h => hinitial (congrArg StateName.mk h.symm)
    show ¬ (Table.insert ∅ StateName.initial.text 0).contains state.text
    simp [Table.contains, Table.get?_insert, htext]
  rw [Draft.addNode, if_neg hnotWait, if_neg hfresh]
  rfl

/-- The one transition leads to the node with the command. -/
theorem defects_solo :
    (solo name mode state command).nodes.findSome? (solo name mode state command).defect? =
      none := by
  have hhas : (solo name mode state command).hasNode state :=
    (Table.contains_insert ..).mpr (.inl rfl)
  have hstart : (solo name mode state command).defect? ((Node.new .initial).on .proceed state) =
      none := by
    show (List.findSome? _ [(Signal.proceed, state)]).or none = none
    simp [dangling?, hhas]
  rw [List.findSome?_eq_none_iff]
  exact List.forall_mem_cons.mpr ⟨hstart, List.forall_mem_singleton.mpr rfl⟩

theorem define_solo (hinitial : state ≠ .initial) (hwait : state ≠ .wait) :
    define name (soloSteps mode state command) = .ok (solo name mode state command) := by
  have hcount : ((solo name mode state command).nodes.filter (·.state.isInitial)).length = 1 := by
    simp [solo, Node.new, Node.on, Node.withCommand, StateName.isInitial, hinitial]
  rw [define, foldl_soloSteps hinitial hwait, Draft.build]
  simp only [hcount, defects_solo]

theorem solo_of_define (hinitial : state ≠ .initial) (hwait : state ≠ .wait) :
    (solo name mode state command).Solo ((Node.new state).withCommand command) command := by
  have hbuilt : (solo name mode state command).Built :=
    ⟨name, soloSteps mode state command, define_solo hinitial hwait⟩
  have hmem : (Node.new .initial).on .proceed state ∈ (solo name mode state command).nodes :=
    List.mem_cons_self
  refine ⟨hbuilt, List.mem_cons_of_mem _ List.mem_cons_self, ?_, rfl, .inl rfl, rfl, rfl, rfl⟩
  exact (target?_of_mem hbuilt hmem .proceed).trans ((Node.target?_on ..).trans (if_pos rfl))

end Define

/-! ## The one round of a call -/

namespace Solo

variable {graph : Graph σ} {node : Node σ} {command : Command σ} {made : Reply σ} {fault : Fault}

theorem attempt_eq (h : graph.Solo node command) : graph.attempt node = command.checked := by
  rw [attempt, h.prepare, Node.work, h.operation]
  rfl

theorem attach_new (h : graph.Solo node command) : graph.attach .new = .new := by
  rw [attach, h.checkpoint]
  rfl

theorem choose_eq (h : graph.Solo node command) (context : Context σ) (host : σ) :
    graph.choose node context host = (.ok .proceed, host) := by
  rw [choose, h.determine]

theorem ending (h : graph.Solo node command) (made : Reply σ) :
    graph.Ending node .new made (graph.conclude node .new made) :=
  ending_conclude h.built h.mem .new made

/-- The command is the last thing that happens. -/
theorem next?_eq (h : graph.Solo node command) (made : Reply σ) :
    (graph.conclude node .new made).conclusion.next? = none := by
  cases hnext : (graph.conclude node .new made).conclusion.next? with
  | none => rfl
  | some next =>
    obtain ⟨signal, host, haccepts, hmem, htarget, _⟩ :=
      ending_of_next? h.built h.mem (h.ending made) hnext
    have hchoose := haccepts.choose
    rw [h.choose_eq] at hchoose
    obtain rfl : Signal.proceed = signal := Except.ok.inj (congrArg Prod.fst hchoose)
    rcases h.last with hnone | hwait
    · rw [hnone] at htarget
      contradiction
    · rw [hwait] at htarget
      exact absurd (Option.some.inj htarget).symm (h.built.indexed.ne_wait hmem)

/-- A call is one round, which ends what validation and call leave. -/
theorem start_eq (h : graph.Solo node command) {limit : Nat} (hlimit : 0 < limit)
    (context : Context σ) (host : σ) :
    graph.start limit context host =
      (command.checked.run limit context host).map fun made =>
        { graph := graph.name, signal := .proceed, start := { context, process := .new, host }
          route := .enter node, rounds := [graph.conclude node .new made] } := by
  let start : Execution σ := { context, process := .new, host }
  have hcall : graph.start limit context host = graph.advance limit .proceed start := by
    show graph.advance limit .proceed { context, process := graph.attach .new, host } = _
    rw [h.attach_new]
  have hroute : graph.route start.process.state .proceed = .enter node :=
    route_of_mem h.built h.mem h.entry
  rw [hcall, advance, hroute]
  have hround : graph.round limit node start =
      (command.checked.run limit context host).map (graph.conclude node .new) := by
    rw [round, h.attempt_eq]
  cases hrun : command.checked.run limit context host with
  | none =>
    obtain ⟨steps, rfl⟩ : ∃ n, limit = n + 1 := ⟨limit - 1, by omega⟩
    rw [hrun] at hround
    simp only [follow, hround]
    rfl
  | some made =>
    rw [hrun] at hround
    simp only [follow_of_last hround (h.next?_eq made) hlimit]
    rfl

theorem save_eq (h : graph.Solo node command) (made : Reply σ) :
    (graph.conclude node .new made).save = none := by
  rcases ending_save (h.ending made) with ⟨hsave, _⟩ | ⟨_, _, hsome, _⟩
  · exact hsave
  · contradiction

/-- The node is entered unless the command stops the run. -/
theorem entered_iff (h : graph.Solo node command) (made : Reply σ) :
    (graph.conclude node .new made).conclusion.entered ↔
      made.Handled ∧
        (graph.failureHandling = .halt → made.result = .ok () ∧ made.context.isSuccess) := by
  obtain ⟨_, hreply⟩ := node_reply_of_ending (h.ending made)
  -- A refused save is out, so it is the reply and the mode that decide.
  rw [← Bool.not_eq_false, ← stops_iff (h.ending made), Round.Stops, hreply, h.save_eq]
  constructor
  · intro hgoes
    have hhandled : made.Handled := by
      intro fault hresult
      rcases fault.halt_or_other with hhalt | hother
      · exact hhalt
      · exact absurd (.inr (.inl ⟨fault, hresult, hother⟩)) hgoes
    refine ⟨hhandled, fun hmode => ⟨?_, ?_⟩⟩
    · cases hresult : made.result with
      | ok => rfl
      | error fault =>
        obtain ⟨halt, rfl⟩ := hhandled fault hresult
        exact absurd (.inl ⟨hmode, .inl ⟨halt, hresult⟩⟩) hgoes
    · rw [Context.isSuccess, Bool.not_eq_true']
      exact Bool.eq_false_iff.mpr fun hfailure => hgoes (.inl ⟨hmode, .inr hfailure⟩)
  · rintro ⟨hhandled, hsucceeds⟩ hstops
    rcases hstops with ⟨hmode, hfails⟩ | ⟨fault, hresult, hother⟩ | ⟨_, hsave, _⟩
    · obtain ⟨hok, hsuccess⟩ := hsucceeds hmode
      rcases hfails with ⟨halt, hhalt⟩ | hfailure
      · rw [hok] at hhalt
        contradiction
      · rw [Context.isSuccess, hfailure] at hsuccess
        contradiction
    · obtain ⟨halt, rfl⟩ := hhandled fault hresult
      exact hother halt rfl
    · contradiction

variable {round : Round σ}

/-- Without a fault to record the engine leaves the context alone. -/
theorem context_of_handled (hending : graph.Ending node .new made round)
    (hhandled : made.Handled) :
    round.after.context = made.context := by
  cases hending with
  | @interrupted interrupt hwork =>
    cases hresult : made.result with
    | ok =>
      rw [hresult] at hwork
      contradiction
    | error fault =>
      obtain ⟨halt, rfl⟩ := hhandled fault hresult
      rw [hresult, interrupt?, Fault.interrupt] at hwork
      dsimp only at hwork
      split at hwork
      · contradiction
      · obtain rfl := Option.some.inj hwork
        rfl
  | failed | entered => rfl
  | refused _ _ _ hsave => contradiction

theorem host_eq (h : graph.Solo node command) (hending : graph.Ending node .new made round) :
    round.after.host = made.host := by
  cases hending with
  | interrupted => rfl
  | @failed signal host _ hchoose =>
    rw [h.choose_eq] at hchoose
    exact (congrArg Prod.snd hchoose).symm
  | refused _ _ _ hsave => contradiction
  | @entered signal host haccepts =>
    have hchoose := haccepts.choose
    rw [h.choose_eq] at hchoose
    exact (congrArg Prod.snd hchoose).symm

theorem visited_eq (hending : graph.Ending node .new made round) :
    round.after.process.visited = if round.conclusion.entered then [node.state] else [] := by
  rcases ending_stays_or_enters hending with ⟨hstays, hprocess⟩ | ⟨signal, host, _, rfl⟩
  · rw [hstays, hprocess]
    rfl
  · rw [accept, if_pos (entered_onward ..)]
    rfl

end Solo

/-! ## The command on its own -/

section Alone

variable {graph : Graph σ} {node : Node σ} {command : Command σ} {limit : Nat}
  {context : Context σ} {host : σ} {made : Reply σ} {fault : Fault}

theorem not_breaks_iff (hrun : command.checked.run limit context host = some made) :
    (∀ fault, ¬ command.Breaks limit context host fault) ↔ made.Handled := by
  simp only [Reply.Handled, Command.breaks_iff hrun, not_and, not_forall, not_not]

/-- A fault is recorded under the name of the graph here and of the command there. -/
theorem contexts_of_breaks (hsolo : graph.Solo node command)
    (hrun : command.checked.run limit context host = some made)
    (hbreaks : command.Breaks limit context host fault) :
    (graph.conclude node .new made).after.context =
        made.context.recordFailure (fault.unhandledMessage graph.name) (some fault) ∧
      (command.settle made).context =
        made.context.recordFailure (fault.unhandledMessage command.name) (some fault) := by
  obtain ⟨hresult, hfault⟩ := (Command.breaks_iff hrun).mp hbreaks
  exact ⟨(outcome_of_fault (hsolo.ending made) hresult hfault).2,
    command.context_settle_of_fault hresult hfault⟩

theorem context_eq_of_not_breaks (hsolo : graph.Solo node command)
    (hrun : command.checked.run limit context host = some made)
    (hbreaks : ∀ fault, ¬ command.Breaks limit context host fault) :
    (graph.conclude node .new made).after.context = (command.settle made).context := by
  have hhandled := (not_breaks_iff hrun).mp hbreaks
  rw [Solo.context_of_handled (hsolo.ending made) hhandled,
    command.context_settle_of_handled hhandled]

theorem mem_visited_iff (hsolo : graph.Solo node command)
    (hrun : command.checked.run limit context host = some made) :
    node.state ∈ (graph.conclude node .new made).after.process.visited ↔
      (∀ fault, ¬ command.Breaks limit context host fault) ∧
        (graph.failureHandling = .halt → command.Succeeds limit context host) := by
  rw [Solo.visited_eq (hsolo.ending made), not_breaks_iff hrun, Command.succeeds_iff hrun,
    ← hsolo.entered_iff made]
  split <;> simp_all

/-- What is the same in the reply of a command on its own and in a call that runs nothing but
the command, and what tells the two apart. -/
structure SoloAgrees (graph : Graph σ) (node : Node σ) (command : Command σ) (limit : Nat)
    (context : Context σ) (host : σ) (alone : Reply σ) (segment : Segment σ) : Prop where
  data : segment.final.context.data = alone.context.data
  isFailure : segment.final.context.isFailure = alone.context.isFailure
  exception : segment.final.context.exception = alone.context.exception
  message : (∀ fault, ¬ command.Breaks limit context host fault) →
    segment.final.context.message = alone.context.message
  message_of_breaks : ∀ fault, command.Breaks limit context host fault →
    segment.final.context.message =
        some ("Unhandled exception " ++ graph.name ++ ": " ++ fault.message) ∧
      alone.context.message =
        some ("Unhandled exception " ++ command.name ++ ": " ++ fault.message)
  visited : segment.final.process.visited = [node.state] ∨ segment.final.process.visited = []
  visited_of_halt : graph.failureHandling = .halt →
    (node.state ∈ segment.final.process.visited ↔ command.Succeeds limit context host)
  visited_of_chain : graph.failureHandling = .chainOfCommand →
    (node.state ∈ segment.final.process.visited ↔
      ∀ fault, ¬ command.Breaks limit context host fault)
  host : segment.final.host = alone.host

/-- Whatever was recorded, the two contexts differ in the message at most. -/
theorem same_but_message (hsolo : graph.Solo node command)
    (hrun : command.checked.run limit context host = some made) :
    let inGraph := (graph.conclude node .new made).after.context
    let alone := (command.settle made).context
    inGraph.data = alone.data ∧ inGraph.isFailure = alone.isFailure ∧
      inGraph.exception = alone.exception := by
  intro inGraph alone
  by_cases hbreaks : ∃ fault, command.Breaks limit context host fault
  · obtain ⟨fault, hbreaks⟩ := hbreaks
    obtain ⟨hinGraph, halone⟩ := contexts_of_breaks hsolo hrun hbreaks
    rw [show inGraph = _ from hinGraph, show alone = _ from halone]
    exact ⟨rfl, rfl, rfl⟩
  · have hequal : inGraph = alone := context_eq_of_not_breaks hsolo hrun (not_exists.mp hbreaks)
    rw [hequal]
    exact ⟨rfl, rfl, rfl⟩

theorem soloAgrees (hsolo : graph.Solo node command)
    (hrun : command.checked.run limit context host = some made) :
    graph.SoloAgrees node command limit context host (command.settle made)
      { graph := graph.name, signal := .proceed, start := { context, process := .new, host }
        route := .enter node, rounds := [graph.conclude node .new made] } := by
  have hending := hsolo.ending made
  have hmem := mem_visited_iff hsolo hrun
  obtain ⟨hdata, hfailure, hexception⟩ := same_but_message hsolo hrun
  refine ⟨hdata, hfailure, hexception, fun hbreaks => ?message, fun fault hbreaks => ?breaks,
    ?visited, fun hmode => ?halt, fun hmode => ?chain, ?host⟩
  case message => exact congrArg Context.message (context_eq_of_not_breaks hsolo hrun hbreaks)
  case breaks =>
    obtain ⟨hinGraph, halone⟩ := contexts_of_breaks hsolo hrun hbreaks
    exact ⟨congrArg Context.message hinGraph, congrArg Context.message halone⟩
  case visited =>
    show (graph.conclude node .new made).after.process.visited = _ ∨
      (graph.conclude node .new made).after.process.visited = _
    rw [Solo.visited_eq hending]
    split
    · exact .inl rfl
    · exact .inr rfl
  case halt =>
    refine hmem.trans ⟨fun h => h.2 hmode, fun hsucceeds => ⟨?_, fun _ => hsucceeds⟩⟩
    exact fun _ => Command.not_breaks_of_succeeds hsucceeds
  case chain =>
    refine hmem.trans ⟨And.left, fun hbreaks => ⟨hbreaks, fun hhalt => ?_⟩⟩
    rw [hmode] at hhalt
    contradiction
  case host => exact (hsolo.host_eq hending).trans (command.host_settle made).symm

end Alone

/-- A command on its own and a graph with nothing else do the same.  For every command there is
such a graph, in either mode and with any name for the graph and its node.  On every context
both return or neither does, and then they leave the same data, failure and exception, and also
the same message, but for a fault that the call returned and that is no halt: it goes under the
name of the graph in the one, and of the command in the other.  In halt mode the node is visited
if and only if validation and call succeed and the context is successful, and in chain of command
if and only if there is no such fault. -/
theorem runs_command_as_alone :
    (∀ (name : String) (mode : FailureHandling) (state : StateName) (command : Command σ),
      state ≠ .initial → state ≠ .wait →
      ∃ graph node, define name (soloSteps mode state command) = .ok graph ∧
        graph.name = name ∧ graph.failureHandling = mode ∧ node.state = state ∧
        graph.Solo node command) ∧
    ∀ {graph : Graph σ} {node : Node σ} {command : Command σ}, graph.Solo node command →
      ∀ {limit : Nat}, 0 < limit → ∀ (context : Context σ) (host : σ),
        Option.Rel (graph.SoloAgrees node command limit context host)
          (command.execute.run limit context host) (graph.start limit context host) := by
  refine ⟨fun name mode state command hinitial hwait => ?_, ?_⟩
  · exact ⟨_, _, define_solo hinitial hwait, rfl, rfl, rfl, solo_of_define hinitial hwait⟩
  · intro graph node command hsolo limit hlimit context host
    rw [hsolo.start_eq hlimit]
    show Option.Rel _ ((command.checked.run limit context host).map command.settle) _
    cases hrun : command.checked.run limit context host with
    | none => exact .none
    | some made => exact .some (soloAgrees hsolo hrun)

/-! ## A scale -/

/-- A load is needed.  It is found too heavy, and then the scale breaks. -/
def weighing : Command Unit where
  name := "Weigh"
  requiredArgs := ["load"]
  call := .ofFunction fun context host =>
    { result := .error (.text "scale broke")
      context := context.recordFailure "too heavy" none, host }

def load : Context Unit := Context.empty.insert "load" ⟨.label, "coal"⟩

/-- The broken scale is reported under two names, and it is not visited.  A missing load is
reported in one way, and the graph goes on. -/
theorem weighing_agrees :
    ∃ graph : Graph Unit, define "Gate" (soloSteps .chainOfCommand ⟨"scale"⟩ weighing) = .ok graph ∧
      (∃ alone segment, weighing.execute.run 1 load () = some alone ∧
        graph.start 1 load () = some segment ∧
        segment.final.context.message = some "Unhandled exception Gate: scale broke" ∧
        alone.context.message = some "Unhandled exception Weigh: scale broke" ∧
        segment.final.context.exception = alone.context.exception ∧
        ⟨"scale"⟩ ∉ segment.final.process.visited) ∧
      ∃ alone segment, weighing.execute.run 1 .empty () = some alone ∧
        graph.start 1 .empty () = some segment ∧
        segment.final.context.message = alone.context.message ∧
        alone.context.message = some "Missing required arguments: load" ∧
        ⟨"scale"⟩ ∈ segment.final.process.visited := by
  obtain ⟨graph, node, hgraph, hname, hmode, hstate, hsolo⟩ := runs_command_as_alone.1 "Gate"
    .chainOfCommand ⟨"scale"⟩ weighing (by decide) (by decide)
  have hagrees := runs_command_as_alone.2 hsolo Nat.one_pos
  refine ⟨graph, hgraph, ?_⟩
  rw [← hstate]
  refine ⟨?broken, ?missing⟩
  case broken =>
    have hbreaks : weighing.Breaks 1 load () (.text "scale broke") :=
      ⟨nofun, _, ⟨rfl, rfl⟩, rfl⟩
    have halone : weighing.execute.run 1 load () = some _ := rfl
    have hrel := hagrees load ()
    rw [halone] at hrel
    obtain ⟨segment, hsegment, hsame⟩ := optionRel_some_left hrel
    obtain ⟨hmessage, hown⟩ := hsame.message_of_breaks _ hbreaks
    rw [hname] at hmessage
    refine ⟨_, segment, halone, hsegment, hmessage, hown, hsame.exception, fun hmem => ?_⟩
    exact (hsame.visited_of_chain hmode).mp hmem _ hbreaks
  case missing =>
    have hhandled : ∀ fault, ¬ weighing.Breaks 1 .empty () fault := by
      rintro fault ⟨_, called, ⟨hvalid, _⟩, _⟩
      contradiction
    have halone : weighing.execute.run 1 .empty () = some _ := rfl
    have hrel := hagrees .empty ()
    rw [halone] at hrel
    obtain ⟨segment, hsegment, hsame⟩ := optionRel_some_left hrel
    exact ⟨_, segment, halone, hsegment, hsame.message hhandled, rfl,
      (hsame.visited_of_chain hmode).mpr hhandled⟩

end Graph

end Workflow
