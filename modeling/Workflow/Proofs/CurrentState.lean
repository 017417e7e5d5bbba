import Workflow.Proofs.ReverseWalk
import Workflow.Proofs.Sessions
import Workflow.Proofs.Trails

/-!
# What a call needs of its process

A call reads the current state of its process and, through the checkpoint, nothing else.
Two processes at one state go the same way, whatever their histories and references are.

* The hosts of the two runs need not be the same, so that a checkpoint may note what it was
  given.  They are related, and `Graph.Respects` says that the nodes do the same on related
  hosts.  `respects_eq`: on equal hosts all graphs do.  `respects_forward` is a nested graph.
* `Checkpoint.AnswersAlike` says that two processes at one state get the same answers.
* `alike_round` is one round of the two runs.  `alike_follow` and `alike_trail` carry that
  through a call, and `alike_advance` and `alike_call` are what the two calls leave.
* `rollback_of_visited` rolls a history back in two parts.
* `runs_on_state_alone` is the main result, with the resumption of a process that has no
  history and the rollback of one that has.
-/

namespace Workflow

variable {σ : Type}

/-! ## The same on related hosts -/

/-- Two replies that differ in the host at most. -/
structure Reply.Alike (rel : σ → σ → Prop) (first second : Reply σ) : Prop where
  result : first.result = second.result
  context : first.context = second.context
  journal : first.journal = second.journal
  host : rel first.host second.host

/-- On related hosts a callback does the same, and leaves related hosts. -/
def Callback.Respects (rel : σ → σ → Prop) (callback : Callback σ) : Prop :=
  ∀ limit context {first second : σ}, rel first second →
    Option.Rel (Reply.Alike rel) (callback.run limit context first)
      (callback.run limit context second)

/-- On related hosts a node does the same and picks the same signal. -/
structure Graph.RespectsAt (rel : σ → σ → Prop) (graph : Graph σ) (node : Node σ) : Prop where
  attempt : (graph.attempt node).Respects rel
  choose : ∀ context {first second : σ}, rel first second →
    (graph.choose node context first).1 = (graph.choose node context second).1 ∧
      rel (graph.choose node context first).2 (graph.choose node context second).2

/-- On related hosts all nodes of a graph do the same and pick the same signals. -/
def Graph.Respects (rel : σ → σ → Prop) (graph : Graph σ) : Prop :=
  ∀ node ∈ graph.nodes, graph.RespectsAt rel node

/-- The answer to a transition.  Without a checkpoint all are accepted. -/
def Checkpoint.ask (checkpoint? : Option (Checkpoint σ)) (cursor : Cursor) (state : StateName)
    (host : σ) : Except Fault Bool × σ :=
  match checkpoint? with
  | none => (.ok true, host)
  | some checkpoint => checkpoint cursor state host

/-- Two checkpoints answer alike for the same target, whatever the histories and references
are that they are given. -/
def Checkpoint.AnswersAlike (rel : σ → σ → Prop) (first second : Option (Checkpoint σ)) : Prop :=
  ∀ cursor cursor' state {host host' : σ}, cursor.state = cursor'.state → rel host host' →
    (ask first cursor state host).1 = (ask second cursor' state host').1 ∧
      rel (ask first cursor state host).2 (ask second cursor' state host').2

/-- Two runs that stand at the same state, on the same context and related hosts. -/
structure Execution.Alike (rel : σ → σ → Prop) (first second : Execution σ) : Prop where
  context : first.context = second.context
  state : first.process.state = second.process.state
  answers : Checkpoint.AnswersAlike rel first.process.checkpoint second.process.checkpoint
  host : rel first.host second.host

/-- Two rounds at the same node that ended in the same way. -/
structure Round.Alike (rel : σ → σ → Prop) (first second : Round σ) : Prop where
  node : first.node = second.node
  reply : first.reply.Alike rel second.reply
  conclusion : first.conclusion = second.conclusion
  after : first.after.Alike rel second.after

/-- Two trails of the same rounds. -/
structure Trail.Alike (rel : σ → σ → Prop) (first second : Trail σ) : Prop where
  rounds : List.Forall₂ (Round.Alike rel) first.rounds second.rounds
  complete : first.complete = second.complete

theorem Callback.respects_ofFunction {rel : σ → σ → Prop} {work : Context σ → σ → Reply σ}
    (h : ∀ context {first second : σ}, rel first second →
      (work context first).Alike rel (work context second)) :
    (ofFunction work).Respects rel :=
  fun _ context _ _ hhost => .some (h context hhost)

/-- Equal hosts make no difference at all. -/
theorem Graph.respects_eq (graph : Graph σ) : graph.Respects Eq := by
  refine fun node _ => ⟨?_, ?_⟩
  · intro limit context first second hhost
    subst hhost
    cases (graph.attempt node).run limit context first with
    | none => exact .none
    | some reply => exact .some ⟨rfl, rfl, rfl, rfl⟩
  · intro context first second hhost
    subst hhost
    exact ⟨rfl, rfl⟩

/-- Without hooks it is the work of the node that counts. -/
theorem Graph.respectsAt_of_work {rel : σ → σ → Prop} {graph : Graph σ} {node : Node σ}
    (hprepare : node.prepare = none) (hdetermine : node.determine = none)
    (hwork : node.work.Respects rel) : graph.RespectsAt rel node where
  attempt := by
    rw [attempt, hprepare]
    exact hwork
  choose := by
    intro context first second hhost
    simp only [choose, hdetermine]
    exact ⟨trivial, hhost⟩

variable {rel : σ → σ → Prop}

/-! ## One round -/

/-- A visit is decided by the answer to it. -/
theorem Process.visit_eq_ask (process : Process σ) (state : StateName) (host : σ) :
    let answered := Checkpoint.ask process.checkpoint process.toCursor state host
    (process.visit state host).outcome =
        ({ before := process.toCursor, state, answer := answered.1 } : Save).outcome ∧
      (process.visit state host).host = answered.2 := by
  unfold Process.visit Checkpoint.ask
  cases process.checkpoint <;> exact ⟨rfl, rfl⟩

theorem Checkpoint.AnswersAlike.visit {first second : Process σ}
    (h : AnswersAlike rel first.checkpoint second.checkpoint) (hstate : first.state = second.state)
    (state : StateName) {host host' : σ} (hhost : rel host host') :
    (first.visit state host).outcome = (second.visit state host').outcome ∧
      rel (first.visit state host).host (second.visit state host').host := by
  obtain ⟨hanswer, hleft⟩ := h first.toCursor second.toCursor state hstate hhost
  obtain ⟨hfirst, hfirstHost⟩ := first.visit_eq_ask state host
  obtain ⟨hsecond, hsecondHost⟩ := second.visit_eq_ask state host'
  rw [hfirst, hfirstHost, hsecond, hsecondHost]
  refine ⟨?_, hleft⟩
  unfold Save.outcome
  rw [hanswer]

namespace Graph

variable {graph : Graph σ} {limit steps : Nat} {node : Node σ} {first second : Execution σ}
  {reply other : Reply σ}

/-- The parts of two rounds that do not speak of the process. -/
structure ConcludesAlike (rel : σ → σ → Prop) (round other : Round σ) : Prop where
  reply : round.reply.Alike rel other.reply
  conclusion : round.conclusion = other.conclusion
  context : round.after.context = other.after.context
  host : rel round.after.host other.after.host

theorem concludesAlike_breakOff {process process' : Process σ} (hreply : reply.Alike rel other)
    (interrupt : Interrupt) {host host' : σ} (hhost : rel host host') :
    ConcludesAlike rel (graph.breakOff node process reply interrupt host)
      (graph.breakOff node process' other interrupt host') where
  reply := hreply
  conclusion := rfl
  context := congrArg (graph.record · interrupt) hreply.context
  host := hhost

theorem concludesAlike_persist (hreply : reply.Alike rel other) (signal : Signal)
    {visit visit' : Visit σ} (houtcome : visit.outcome = visit'.outcome)
    (hhost : rel visit.host visit'.host) :
    ConcludesAlike rel (graph.persist node reply signal visit)
      (graph.persist node other signal visit') := by
  unfold persist
  rw [houtcome, hreply.context]
  cases visit'.outcome with
  | ok => exact ⟨hreply, rfl, rfl, hhost⟩
  | error refusal => exact ⟨hreply, rfl, rfl, hhost⟩

theorem concludesAlike_leave {process process' : Process σ} (hreply : reply.Alike rel other)
    (hanswers : Checkpoint.AnswersAlike rel process.checkpoint process'.checkpoint)
    (hstate : process.state = process'.state) (signal : Signal) {host host' : σ}
    (hhost : rel host host') :
    ConcludesAlike rel (graph.leave node process reply signal host)
      (graph.leave node process' other signal host') := by
  obtain ⟨houtcome, hleft⟩ := hanswers.visit hstate node.state hhost
  unfold leave
  rw [hreply.context]
  split
  · exact ⟨hreply, rfl, rfl, hhost⟩
  · exact concludesAlike_persist hreply signal houtcome hleft

/-- Replies that are alike conclude alike: the work of the node, the pick of the signal and
the answer of the checkpoint decide, and they are the same. -/
theorem concludesAlike_conclude (hrespects : graph.Respects rel) (hmem : node ∈ graph.nodes)
    (hreply : reply.Alike rel other) {process process' : Process σ}
    (hanswers : Checkpoint.AnswersAlike rel process.checkpoint process'.checkpoint)
    (hstate : process.state = process'.state) :
    ConcludesAlike rel (graph.conclude node process reply)
      (graph.conclude node process' other) := by
  obtain ⟨hsignal, hhost⟩ := (hrespects node hmem).choose reply.context hreply.host
  unfold conclude
  rw [← hreply.result, ← hreply.context]
  cases graph.interrupt? reply.result with
  | some interrupt => exact concludesAlike_breakOff hreply interrupt hreply.host
  | none =>
    dsimp only
    rw [← hsignal]
    cases (graph.choose node reply.context reply.host).1 with
    | error fault => exact concludesAlike_breakOff hreply (.unhandled fault) hhost
    | ok signal => exact concludesAlike_leave hreply hanswers hstate signal hhost

theorem ConcludesAlike.alike {round made : Round σ} (hconcludes : ConcludesAlike rel round made)
    (h : first.Alike rel second) (hround : graph.round limit node first = some round)
    (hmade : graph.round limit node second = some made) : round.Alike rel made := by
  have hnode : round.node = made.node := (node_round hround).trans (node_round hmade).symm
  refine ⟨hnode, hconcludes.reply, hconcludes.conclusion, hconcludes.context, ?_, ?_,
    hconcludes.host⟩
  all_goals
    rw [process_round hround, process_round hmade, Round.move, Round.move, ← hconcludes.conclusion]
    cases round.conclusion.entered
  · exact h.state
  · exact congrArg Node.state hnode
  · exact h.answers
  · exact h.answers

/-- The rounds of two runs that stand alike. -/
theorem alike_round (hrespects : graph.Respects rel) (hmem : node ∈ graph.nodes) (limit : Nat)
    (h : first.Alike rel second) :
    Option.Rel (Round.Alike rel) (graph.round limit node first)
      (graph.round limit node second) := by
  have hwork := (hrespects node hmem).attempt limit first.context h.host
  cases hrun : (graph.attempt node).run limit first.context first.host with
  | none =>
    rw [hrun, h.context] at hwork
    have hother := optionRel_none_left hwork
    rw [round, round, hrun, hother]
    exact .none
  | some reply =>
    rw [hrun, h.context] at hwork
    obtain ⟨other, hother, hreply⟩ := optionRel_some_left hwork
    have hround : graph.round limit node first =
        some (graph.conclude node first.process reply) := by
      rw [round, hrun, Option.map_some]
    have hmade : graph.round limit node second =
        some (graph.conclude node second.process other) := by
      rw [round, hother, Option.map_some]
    rw [hround, hmade]
    have hconcludes : ConcludesAlike rel (graph.conclude node first.process reply)
        (graph.conclude node second.process other) :=
      concludesAlike_conclude hrespects hmem hreply h.answers h.state
    exact .some (hconcludes.alike h hround hmade)

/-! ## A whole call -/

/-- The induction is on the rounds that the limit allows.  Both runs go on to the same node,
since rounds that are alike conclude in the same way. -/
theorem alike_follow (hbuilt : graph.Built) (hrespects : graph.Respects rel)
    (hmem : node ∈ graph.nodes) (h : first.Alike rel second) :
    (graph.follow limit steps node first).Alike rel (graph.follow limit steps node second) := by
  induction steps generalizing node first second with
  | zero => exact ⟨.nil, rfl⟩
  | succ steps ih =>
    have hrounds := alike_round hrespects hmem limit h
    cases hround : graph.round limit node first with
    | none =>
      rw [hround] at hrounds
      have hmade := optionRel_none_left hrounds
      rw [follow, follow, hround, hmade]
      exact ⟨.nil, rfl⟩
    | some round =>
      rw [hround] at hrounds
      obtain ⟨made, hmade, halike⟩ := optionRel_some_left hrounds
      cases hnext : round.conclusion.next? with
      | none =>
        have hlast : made.conclusion.next? = none := halike.conclusion ▸ hnext
        rw [follow_of_last hround hnext (Nat.succ_pos steps),
          follow_of_last hmade hlast (Nat.succ_pos steps)]
        exact ⟨.cons halike .nil, rfl⟩
      | some next =>
        have hleads : made.conclusion.next? = some next := halike.conclusion ▸ hnext
        have hnextMem := mem_nodes_of_next? hbuilt hmem hround hnext
        obtain ⟨hrest, hcomplete⟩ := ih hnextMem halike.after
        rw [follow_of_next hround hnext, follow_of_next hmade hleads]
        exact ⟨.cons halike hrest, hcomplete⟩

theorem alike_trail (hbuilt : graph.Built) (hrespects : graph.Respects rel) (limit : Nat)
    (signal : Signal) (h : first.Alike rel second) :
    (graph.trail limit signal first).Alike rel (graph.trail limit signal second) := by
  unfold trail
  rw [← h.state]
  cases hroute : graph.route first.process.state signal with
  | enter node => exact alike_follow hbuilt hrespects (mem_nodes_of_route hbuilt hroute) h
  | stay | invalid => exact ⟨.nil, rfl⟩

end Graph

/-! ## What a call leaves -/

theorem Execution.Alike.afterRounds {first second : Execution σ} {rounds others : List (Round σ)}
    (h : first.Alike rel second) (hrounds : List.Forall₂ (Round.Alike rel) rounds others) :
    (first.afterRounds rounds).Alike rel (second.afterRounds others) := by
  induction hrounds generalizing first second with
  | nil => exact h
  | cons hround _ ih => exact ih hround.after

namespace Round.Alike

variable {first second : Round σ}

theorem visited?_eq (h : first.Alike rel second) : first.visited? = second.visited? := by
  simp only [visited?, state, h.node, h.conclusion]

theorem journal_eq (h : first.Alike rel second) : first.journal = second.journal := by
  simp only [journal, excused, closing, state, h.node, h.conclusion, h.reply.result,
    h.reply.context, h.reply.journal, h.after.state, h.after.context]

/-- Rounds that are alike report the same. -/
theorem reports_eq {rounds others : List (Round σ)}
    (h : List.Forall₂ (Round.Alike rel) rounds others) :
    rounds.filterMap Round.visited? = others.filterMap Round.visited? ∧
      rounds.map Round.state = others.map Round.state ∧
      rounds.flatMap Round.journal = others.flatMap Round.journal := by
  induction h with
  | nil => exact ⟨rfl, rfl, rfl⟩
  | cons hround _ ih =>
    obtain ⟨hvisited, hstates, hjournals⟩ := ih
    simp only [List.filterMap_cons, List.map_cons, List.flatMap_cons, hround.visited?_eq,
      hround.journal_eq, state, hround.node, hvisited, hjournals]
    exact ⟨trivial, congrArg _ hstates, trivial⟩

end Round.Alike

/-- Two calls with the same effect, report and answer.  Their saves need not be the same. -/
structure Segment.Alike (rel : σ → σ → Prop) (first second : Segment σ) : Prop where
  final : first.final.Alike rel second.final
  visited : first.visited = second.visited
  executed : first.executed = second.executed
  journal : first.journal = second.journal

namespace Graph

variable {graph : Graph σ} {limit : Nat} {signal : Signal} {first second : Execution σ}

theorem alike_segment (graph : Graph σ) (signal : Signal) (route : Route σ)
    (h : first.Alike rel second) {rounds others : List (Round σ)}
    (hrounds : List.Forall₂ (Round.Alike rel) rounds others) :
    Segment.Alike rel
      { graph := graph.name, signal, start := first, route, rounds }
      { graph := graph.name, signal, start := second, route, rounds := others } := by
  obtain ⟨hvisited, hexecuted, hjournals⟩ := Round.Alike.reports_eq hrounds
  refine ⟨?_, hvisited, hexecuted, ?_⟩
  · cases route with
    | enter node => exact h.afterRounds hrounds
    | stay => exact h
    | invalid =>
      exact ⟨congrArg (·.recordFailure (invalidMessage signal) none) h.context, h.state, h.answers,
        h.host⟩
  · cases route with
    | enter node => exact congrArg (Journal.within _) hjournals
    | stay => rfl
    | invalid => simp only [Segment.journal, h.state]

/-- The calls of two runs that stand alike: both end or neither does, and then each process has
entered the same states. -/
theorem alike_advance (hbuilt : graph.Built) (hrespects : graph.Respects rel) (limit : Nat)
    (signal : Signal) (h : first.Alike rel second) :
    Option.Rel
      (fun left right => left.Alike rel right ∧
        left.final.process = first.process.enterAll left.visited ∧
        right.final.process = second.process.enterAll left.visited)
      (graph.advance limit signal first) (graph.advance limit signal second) := by
  obtain ⟨hrounds, hcomplete⟩ := alike_trail hbuilt hrespects limit signal h
  have hfirst := graph.advance_eq_trail limit signal first
  have hsecond := graph.advance_eq_trail limit signal second
  rw [← hcomplete, ← h.state] at hsecond
  split at hfirst
  · rename_i hends
    rw [if_pos hends] at hsecond
    rw [hfirst, hsecond]
    have halike :=
      alike_segment graph signal (graph.route first.process.state signal) h hrounds
    refine .some ⟨halike, ?_, ?_⟩
    · exact process_of_advances hbuilt ((advance_eq_some_iff hbuilt).mp hfirst)
    · rw [halike.visited]
      exact process_of_advances hbuilt ((advance_eq_some_iff hbuilt).mp hsecond)
  · rename_i hruns
    rw [if_neg hruns] at hsecond
    rw [hfirst, hsecond]
    exact .none

/-- A nested graph does the same on related hosts if its own nodes do, and its checkpoint. -/
theorem respects_forward {child : Graph σ} (hbuilt : child.Built) (hrespects : child.Respects rel)
    (hanswers : Checkpoint.AnswersAlike rel child.checkpoint child.checkpoint) (key : String) :
    (Subgraph.forward child key).Respects rel := by
  intro limit context first second hhost
  have hstarts : Execution.Alike rel
      (child.manager none context first).execution (child.manager none context second).execution :=
    ⟨rfl, rfl, hanswers, hhost⟩
  -- Both processes of the child are new, so they end equal and not only alike.
  refine optionRel_map (alike_advance hbuilt hrespects limit .proceed hstarts) ?_
  rintro left right ⟨halike, hleft, hright⟩
  have hprocess : left.final.process = right.final.process := hleft.trans hright.symm
  refine ⟨rfl, ?_, halike.journal, halike.final.host⟩
  simp only [Subgraph.stored, halike.final.context, hprocess]

theorem alike_manager {process other : Process σ} (hstate : process.state = other.state)
    (hanswers : Checkpoint.AnswersAlike rel (graph.attach process).checkpoint
      (graph.attach other).checkpoint) (context : Context σ) {host host' : σ}
    (hhost : rel host host') :
    Execution.Alike rel (graph.manager (some process) context host).execution
      (graph.manager (some other) context host').execution :=
  ⟨rfl, hstate, hanswers, hhost⟩

theorem alike_call (hbuilt : graph.Built) (hrespects : graph.Respects rel) (limit : Nat)
    (signal? : Option Signal) (context : Context σ) {host host' : σ} (hhost : rel host host')
    {process other : Process σ} (hstate : process.state = other.state)
    (hanswers : Checkpoint.AnswersAlike rel (graph.attach process).checkpoint
      (graph.attach other).checkpoint) :
    Option.Rel
      (fun full short => full.Alike rel short ∧
        full.final.process = (graph.attach process).enterAll full.visited ∧
        short.final.process = (graph.attach other).enterAll full.visited)
      (graph.call limit signal? (some process) context host)
      (graph.call limit signal? (some other) context host') :=
  alike_advance hbuilt hrespects limit _ (alike_manager hstate hanswers context hhost)

/-! ## The rollback of a history and a call -/

/-- A rollback reads the history of its process only. -/
theorem rollback_of_visited_eq {process other : Process σ} (h : process.visited = other.visited)
    (context : Context σ) (host : σ) :
    graph.rollback limit process context host = graph.rollback limit other context host := by
  rw [rollback, rollback, h]

/-- A history to which states were appended is rolled back in two parts. -/
theorem rollback_of_visited {full newer process : Process σ}
    (h : full.visited = process.visited ++ newer.visited) (context : Context σ) (host : σ) :
    graph.rollback limit full context host =
      (graph.rollback limit newer context host).bind
        (·.andThen (graph.rollback limit process)) := by
  have hfull : full.visited =
      { process with visited := process.visited ++ newer.visited }.visited := h
  have hnewer : { process with visited := newer.visited }.visited = newer.visited := rfl
  rw [rollback_of_visited_eq hfull, rollback_append, rollback_of_visited_eq hnewer]

/-! ## What a call needs -/

/-- A call depends on the current state of its process only.  Given two processes at one
state, with any histories and references, and with checkpoints in force that answer alike,
the two calls visit the same states, and if one of them ends, so does the other, with the
same context, and both processes have entered the same states.  The hosts may be the same,
and then nothing is asked of the graph, or related in a way that its callbacks respect.

So a process that is only put at the current state does what the full one does.  To roll back
the full one after that is to roll back the states of the call and, if that succeeds, the
older history. -/
theorem runs_on_state_alone (hbuilt : graph.Built) :
    graph.Respects Eq ∧
    ∀ {rel : σ → σ → Prop}, graph.Respects rel → ∀ (limit : Nat) (signal? : Option Signal)
      (context : Context σ) {host host' : σ}, rel host host' → ∀ process : Process σ,
      (∀ other : Process σ, process.state = other.state →
        Checkpoint.AnswersAlike rel (graph.attach process).checkpoint
          (graph.attach other).checkpoint →
        graph.visitedWithin limit signal? (some process) context host =
            graph.visitedWithin limit signal? (some other) context host' ∧
          Option.Rel
            (fun full short => full.Alike rel short ∧
              full.final.process.toCursor = process.toCursor.enterAll full.visited ∧
              short.final.process.toCursor = other.toCursor.enterAll full.visited)
            (graph.call limit signal? (some process) context host)
            (graph.call limit signal? (some other) context host')) ∧
      ∀ full, graph.call limit signal? (some process) context host = some full →
        (∀ bare : Process σ,
          bare.toCursor = (Process.startingAt process.state : Process σ).toCursor →
          Checkpoint.AnswersAlike rel (graph.attach process).checkpoint
            (graph.attach bare).checkpoint →
          ∃ short, graph.call limit signal? (some bare) context host' = some short ∧
            short.final.context = full.final.context ∧
            short.final.process.visited = full.visited) ∧
        ∀ newer : Process σ, newer.visited = full.visited → ∀ within after left,
          graph.rollback within full.final.process after left =
            (graph.rollback within newer after left).bind
              (·.andThen (graph.rollback within process)) := by
  refine ⟨graph.respects_eq, ?_⟩
  intro rel hrespects limit signal? context host host' hhost process
  refine ⟨fun other hstate hanswers => ⟨?_, ?_⟩, fun full hfull => ⟨?_, ?_⟩⟩
  · have htrails := alike_trail hbuilt hrespects limit (signal?.getD .proceed)
      (alike_manager hstate hanswers context hhost)
    exact (Round.Alike.reports_eq htrails.rounds).1
  · have hcalls := alike_call hbuilt hrespects limit signal? context hhost hstate hanswers
    refine optionRel_mono hcalls ?_
    rintro full short ⟨halike, hfull, hshort⟩
    exact ⟨halike, congrArg Process.toCursor hfull, congrArg Process.toCursor hshort⟩
  · intro bare hbare hanswers
    have hstate : process.state = bare.state := (congrArg Cursor.state hbare).symm
    have hcalls := alike_call hbuilt hrespects limit signal? context hhost hstate hanswers
    rw [hfull] at hcalls
    obtain ⟨short, hshort, halike, _, hentered⟩ := optionRel_some_left hcalls
    refine ⟨short, hshort, halike.final.context.symm, ?_⟩
    calc short.final.process.visited
        = bare.visited ++ full.visited :=
          congrArg (fun process : Process σ => process.visited) hentered
      _ = [] ++ full.visited := congrArg (· ++ full.visited) (congrArg Cursor.visited hbare)
  · intro newer hnewer within
    have hprocess := process_of_advances hbuilt ((advance_eq_some_iff hbuilt).mp hfull)
    refine rollback_of_visited ?_
    rw [hnewer]
    exact congrArg (fun process : Process σ => process.visited) hprocess

/-! ## A harvest -/

/-- The baskets that were filled, and how long the histories were at each save. -/
structure Orchard where
  baskets : Nat
  histories : List Nat
  deriving DecidableEq

/-- The same baskets, whatever was noted of the histories. -/
def SameBaskets (first second : Orchard) : Prop := first.baskets = second.baskets

/-- Notes the length of the history, and does not let anything be pressed. -/
def noting : Checkpoint Orchard := fun cursor state host =>
  (.ok (state ≠ ⟨"press"⟩), { host with histories := host.histories ++ [cursor.visited.length] })

/-- Fills a basket. -/
def fill : Callback Orchard :=
  .ofFunction fun context host =>
    { result := .ok (), context, host := { host with baskets := host.baskets + 1 } }

def pickingSteps : List (Directive Orchard) :=
  [ .checkpoint noting
  , .startNode [(.proceed, ⟨"pick"⟩)]
  , .addNode (.define ⟨"pick"⟩ [.operation fill]) ]

def picking : Graph Orchard := (define "Picking" pickingSteps).toOption.getD { name := "" }

def harvestSteps : List (Directive Orchard) :=
  [ .checkpoint noting
  , .startNode [(.proceed, ⟨"survey"⟩)]
  , .addNode (.define ⟨"survey"⟩ [.signals [(.proceed, .wait), (⟨"go"⟩, ⟨"trees"⟩)]])
  , .addNode (.define ⟨"trees"⟩ [.subgraph picking, .on .proceed ⟨"press"⟩])
  , .addNode (.define ⟨"press"⟩ [.operation fill]) ]

/-- The trees are picked, and what was picked can not be pressed. -/
def harvest : Graph Orchard := (define "Harvest" harvestSteps).toOption.getD { name := "" }

/-- Two surveys were made. -/
def surveyed : Process Orchard :=
  { state := ⟨"survey"⟩, visited := [⟨"survey"⟩, ⟨"survey"⟩], reference := some "slope" }

theorem built_picking : picking.Built := ⟨"Picking", pickingSteps, rfl⟩

theorem built_harvest : harvest.Built := ⟨"Harvest", harvestSteps, rfl⟩

theorem noting_answersAlike : Checkpoint.AnswersAlike SameBaskets (some noting) (some noting) :=
  fun _ _ _ _ _ _ hhost => ⟨rfl, hhost⟩

theorem respects_skip : (Callback.skip : Callback Orchard).Respects SameBaskets :=
  Callback.respects_ofFunction fun _ _ _ hhost => ⟨rfl, rfl, rfl, hhost⟩

theorem respects_fill : fill.Respects SameBaskets :=
  Callback.respects_ofFunction fun _ _ _ hhost => ⟨rfl, rfl, rfl, congrArg (· + 1) hhost⟩

theorem respects_picking : picking.Respects SameBaskets :=
  List.forall_mem_cons.mpr ⟨respectsAt_of_work rfl rfl respects_skip,
    List.forall_mem_singleton.mpr (respectsAt_of_work rfl rfl respects_fill)⟩

theorem respects_harvest : harvest.Respects SameBaskets := by
  refine List.forall_mem_cons.mpr ⟨respectsAt_of_work rfl rfl respects_skip, ?_⟩
  refine List.forall_mem_cons.mpr ⟨respectsAt_of_work rfl rfl respects_skip, ?_⟩
  refine List.forall_mem_cons.mpr ⟨respectsAt_of_work rfl rfl ?_, ?_⟩
  · exact respects_forward built_picking respects_picking noting_answersAlike _
  · exact List.forall_mem_singleton.mpr (respectsAt_of_work rfl rfl respects_fill)

/-- A process that is only put at the survey goes to the trees, too, and is refused there, too.
Only what was noted of the histories differs. -/
theorem harvest_without_history :
    ∃ full short, harvest.call 4 (some ⟨"go"⟩) (some surveyed) .empty ⟨0, []⟩ = some full ∧
      harvest.call 4 (some ⟨"go"⟩) (some (.startingAt ⟨"survey"⟩)) .empty ⟨0, []⟩ = some short ∧
      full.final.process.toCursor = surveyed.toCursor.enterAll [⟨"trees"⟩] ∧
      short.final.process.visited = [⟨"trees"⟩] ∧
      short.final.context = full.final.context ∧
      full.final.context.message = some "Harvest failed to persist process state: `press`" ∧
      full.final.host = ⟨2, [0, 2, 3]⟩ ∧ short.final.host = ⟨2, [0, 0, 1]⟩ ∧
      harvest.rollback 4 full.final.process .empty full.final.host =
        (harvest.rollback 4 short.final.process .empty full.final.host).bind
          (·.andThen (harvest.rollback 4 surveyed)) := by
  obtain ⟨hpair, hcall⟩ := (runs_on_state_alone built_harvest).2 respects_harvest 4
    (some ⟨"go"⟩) .empty (rfl : SameBaskets ⟨0, []⟩ ⟨0, []⟩) surveyed
  obtain ⟨hbare, hback⟩ := hcall _ rfl
  obtain ⟨short, hshort, hcontext, hvisited⟩ :=
    hbare (.startingAt ⟨"survey"⟩) rfl noting_answersAlike
  obtain ⟨_, hrel⟩ := hpair (.startingAt ⟨"survey"⟩) rfl noting_answersAlike
  refine ⟨_, short, rfl, hshort, ?_, hvisited, hcontext, rfl, rfl, ?_, ?_⟩
  · exact (of_optionRel hrel rfl hshort).2.1
  · obtain rfl := Option.some.inj hshort
    rfl
  · exact hback short.final.process hvisited 4 .empty _

end Graph

end Workflow
