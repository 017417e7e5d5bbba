import Workflow.Proofs.Carrying

/-!
# The last failure stays

A failure that a node records is still there when the call ends, with its message and its
exception, unless a later node or the engine records another one.  This is what counts in
chain of command, where the run goes on past failures.

* `Round.GoesWrong` is a node that returned an error or left the context failed, and
  `Reply.Honest` is what is asked of callbacks for that to last.
* `isFailure_after` and `context_after`: what the end of a round does to the failure that
  the work of its node left.
* `isFailure_of_runs` and `failure_of_runs` follow it through a run with `Context.Carried`.
* `last_failure_stays` states it all of a call, at all levels.
-/

namespace Workflow

variable {σ : Type}

/-- The node returned an error, or it left the context failed. -/
def Round.GoesWrong (round : Round σ) : Prop :=
  (∃ fault, round.reply.result = .error fault) ∨ round.reply.context.isFailure

/-- A callback did not make a failed context successful, and if it returned a halt it left
a failed one. -/
structure Reply.Honest (reply : Reply σ) (given : Context σ) : Prop where
  keeps : given.isFailure → reply.context.isFailure
  halts : ∀ halt, reply.result = .error (.halt halt) → reply.context.isFailure

/-- A callback left the record of the failure as it was given. -/
def Reply.SparesFailure (reply : Reply σ) (given : Context σ) : Prop :=
  reply.context.failure = given.failure

/-- All callbacks of the call, at all levels, were honest. -/
def Segment.Honest (nesting : Nesting σ) (graph : Graph σ) (segment : Segment σ) : Prop :=
  ∀ {given : Context σ} {reply : Reply σ},
    graph.Invokes nesting segment.start segment.rounds given reply → reply.Honest given

/-- The signal of the call led somewhere, and the call did not end in a fault other than a
halt, nor at a save that was not accepted.  So the engine had no failure of its own to
record. -/
structure Segment.RunsThrough (segment : Segment σ) (graph : Graph σ) : Prop where
  valid : graph.target? segment.start.process.state segment.signal ≠ none
  handled : ∀ round ∈ segment.rounds, ¬ graph.Ends round .unhandled
  saved : ∀ round ∈ segment.rounds, ¬ graph.Ends round .unsaved

/-! ## The two relations -/

theorem Context.carried_isFailure :
    Carried fun before after : Context σ => before.isFailure → after.isFailure where
  refl _ := id
  trans hfirst hsecond hfailure := hsecond (hfirst hfailure)
  insert _ _ _ hfailure := hfailure

theorem Context.carried_failure :
    Carried fun before after : Context σ => after.failure = before.failure where
  refl _ := rfl
  trans hfirst hsecond := hsecond.trans hfirst
  insert _ _ _ := rfl

namespace Graph

variable {graph : Graph σ} {limit : Nat}

/-! ## The end of a round -/

section Ending

variable {node : Node σ} {process : Process σ} {reply : Reply σ} {round : Round σ}

/-- The engine clears no failure. -/
theorem isFailure_after (h : graph.Ending node process reply round)
    (hfailure : reply.context.isFailure) : round.after.context.isFailure := by
  cases h with
  | @interrupted interrupt =>
    cases interrupt with
    | halted => exact hfailure
    | unhandled => exact Context.isFailure_recordFailure ..
  | failed | entered => exact hfailure
  | refused => exact Context.isFailure_recordFailure ..

/-- An error fails the context, if halts come with a failed one. -/
theorem isFailure_after_of_error (h : graph.Ending node process reply round) {fault : Fault}
    (hresult : reply.result = .error fault)
    (hhalts : ∀ halt, reply.result = .error (.halt halt) → reply.context.isFailure) :
    round.after.context.isFailure := by
  rcases fault.halt_or_other with ⟨halt, rfl⟩ | hfault
  · exact isFailure_after h (hhalts halt hresult)
  · rw [(outcome_of_fault h hresult hfault).2]
    exact Context.isFailure_recordFailure ..

theorem ends_of_outcome? (hbuilt : graph.Built) (hmem : node ∈ graph.nodes)
    (h : graph.Ending node process reply round) {outcome : Outcome}
    (houtcome : round.conclusion.outcome? = some outcome) : graph.Ends round outcome := by
  obtain ⟨other, hends⟩ := exists_ends hbuilt hmem h (Conclusion.next?_of_outcome? houtcome)
  obtain rfl : outcome = other :=
    Option.some.inj (houtcome.symm.trans (outcome?_of_ends h hends))
  exact hends

/-- Unless the engine has a failure of its own to record, it leaves the context alone. -/
theorem context_after (hbuilt : graph.Built) (hmem : node ∈ graph.nodes)
    (h : graph.Ending node process reply round) (hhandled : ¬ graph.Ends round .unhandled)
    (hsaved : ¬ graph.Ends round .unsaved) : round.after.context = round.reply.context := by
  have hends {outcome : Outcome} : round.conclusion.outcome? = some outcome →
      graph.Ends round outcome := ends_of_outcome? hbuilt hmem h
  cases h with
  | @interrupted interrupt =>
    cases interrupt with
    | halted => rfl
    | unhandled => exact absurd (hends rfl) hhandled
  | failed | entered => rfl
  | refused => exact absurd (hends rfl) hsaved

end Ending

/-! ## What the engine respects -/

section Respects

variable {signal : Signal} {start : Execution σ} {segment : Segment σ}

theorem respects_isFailure (h : graph.Advances limit signal start segment) :
    segment.Respects fun before after => before.isFailure → after.isFailure :=
  respects_of_advances Context.carried_isFailure h (fun _ _ _ => isFailure_after)
    fun _ _ => Context.isFailure_recordFailure ..

theorem respects_failure (hbuilt : graph.Built) (h : graph.Advances limit signal start segment)
    (hthrough : segment.RunsThrough graph) :
    segment.Respects fun before after => after.failure = before.failure := by
  have hvalid : graph.target? start.process.state signal ≠ none := by
    cases h <;> exact hthrough.valid
  refine respects_of_advances Context.carried_failure h ?_ fun htarget => absurd htarget hvalid
  intro round hround hmem process hending
  rw [context_after hbuilt hmem hending (hthrough.handled round hround)
    (hthrough.saved round hround)]

end Respects

/-! ## A failure through a run -/

section Run

variable {nesting : Nesting σ} {node : Node σ} {start : Execution σ}
  {rounds earlier later : List (Round σ)} {round : Round σ}

theorem isFailure_of_runs (hlayered : graph.Layered Node.Starts nesting)
    (hmem : node ∈ graph.nodes)
    (hruns : graph.Runs limit node start rounds)
    (hkeeps : ∀ {given : Context σ} {reply : Reply σ},
      graph.Invokes nesting start rounds given reply → given.isFailure → reply.context.isFailure)
    (hfailure : start.context.isFailure) : (start.afterRounds rounds).context.isFailure := by
  refine carried_of_runs Context.carried_isFailure hlayered hmem hruns hkeeps ?_ ?_ hfailure
  · intro round hround
    obtain ⟨_, hending⟩ := ending_of_runs hruns hround
    exact isFailure_after hending
  · intro deeper inner hnests
    obtain ⟨_, _, _, hadvances⟩ := hnests.advances hlayered (mem_nodes_of_runs hmem hruns)
    exact respects_isFailure hadvances

theorem failure_of_runs (hlayered : graph.Layered Node.Starts nesting)
    (hmem : node ∈ graph.nodes)
    (hruns : graph.Runs limit node start rounds)
    (hcallbacks : ∀ {given : Context σ} {reply : Reply σ},
      graph.Invokes nesting start rounds given reply → reply.context.failure = given.failure)
    (hrounds : ∀ round ∈ rounds, round.after.context = round.reply.context)
    (hthrough : ∀ {deeper : Graph σ} {inner : Segment σ},
      graph.Nests nesting start rounds deeper inner → inner.RunsThrough deeper) :
    (start.afterRounds rounds).context.failure = start.context.failure := by
  refine carried_of_runs Context.carried_failure hlayered hmem hruns hcallbacks ?_ ?_
  · intro round hround
    rw [hrounds round hround]
  · intro deeper inner hnests
    obtain ⟨hbelow, _, _, hadvances⟩ := hnests.advances hlayered (mem_nodes_of_runs hmem hruns)
    exact respects_failure hbelow.built hadvances (hthrough hnests)

/-- The record that a node left stays, if nothing after it has one to make. -/
theorem failure_of_split (hlayered : graph.Layered Node.Starts nesting)
    (hmem : node ∈ graph.nodes)
    (hruns : graph.Runs limit node start rounds) (hrounds : rounds = earlier ++ round :: later)
    (hcallbacks : ∀ {given : Context σ} {reply : Reply σ},
      graph.Invokes nesting round.after later given reply → reply.context.failure = given.failure)
    (hcontext : ∀ round ∈ rounds, round.after.context = round.reply.context)
    (hthrough : ∀ {deeper : Graph σ} {inner : Segment σ},
      graph.Nests nesting round.after later deeper inner → inner.RunsThrough deeper) :
    (start.afterRounds rounds).context.failure = round.reply.context.failure := by
  subst hrounds
  have hround : round ∈ earlier ++ round :: later := by simp
  rw [← hcontext round hround, afterRounds_append]
  show (round.after.afterRounds later).context.failure = round.after.context.failure
  rcases runs_later hmem hruns with rfl | ⟨next, hnext, hrest⟩
  · rfl
  · have hlater : ∀ ended ∈ later, ended.after.context = ended.reply.context :=
      fun ended hended => hcontext ended (by simp [hended])
    exact failure_of_runs hlayered hnext hrest hcallbacks hlater hthrough

/-- Not even the run of a graph returns a halt on a successful context. -/
theorem isFailure_of_halt (hlayered : graph.Layered Node.Starts nesting)
    (hmem : round.node ∈ graph.nodes)
    (hrun : (graph.attempt round.node).run limit start.context start.host = some round.reply)
    (hhonest : ∀ {given : Context σ} {reply : Reply σ},
      graph.Invokes nesting start (round :: later) given reply → reply.Honest given)
    {halt : Halt} (hresult : round.reply.result = .error (.halt halt)) :
    round.reply.context.isFailure := by
  cases hchild : nesting round.node with
  | none => exact (hhonest (.own hchild)).halts halt hresult
  | some child =>
    rcases runsChild_of_attempt (hlayered.linked hmem hchild) hrun with
      ⟨_, hprepared, _⟩ | ⟨_, _, _, _, _, hok, _⟩
    · exact (hhonest (.prepared hchild hprepared)).halts halt hresult
    · rw [hok] at hresult
      contradiction

/-- A node that went wrong fails the run. -/
theorem isFailure_of_goesWrong (hlayered : graph.Layered Node.Starts nesting)
    (hmem : node ∈ graph.nodes)
    (hruns : graph.Runs limit node start rounds)
    (hhonest : ∀ {given : Context σ} {reply : Reply σ},
      graph.Invokes nesting start rounds given reply → reply.Honest given)
    (hround : round ∈ rounds) (hwrong : round.GoesWrong) :
    (start.afterRounds rounds).context.isFailure := by
  have hnode := mem_nodes_of_runs hmem hruns round hround
  obtain ⟨earlier, later, rfl⟩ := List.append_of_mem hround
  obtain ⟨hrun, hending, _⟩ := round_of_runs hruns rfl
  have hafter : round.after.context.isFailure := by
    rcases hwrong with ⟨fault, hresult⟩ | hfailure
    · exact isFailure_after_of_error hending hresult fun halt hhalt =>
        isFailure_of_halt hlayered hnode hrun (fun h => hhonest (invokes_append h)) hhalt
    · exact isFailure_after hending hfailure
  rw [afterRounds_append]
  show (round.after.afterRounds later).context.isFailure
  rcases runs_later hmem hruns with rfl | ⟨next, hnext, hrest⟩
  · exact hafter
  · exact isFailure_of_runs hlayered hnext hrest
      (fun h => (hhonest (invokes_append (.later h))).keeps) hafter

/-- A node whose nested run failed went wrong. -/
theorem goesWrong_of_runsChild (hlayered : graph.Layered Node.Starts nesting)
    (hmem : node ∈ graph.nodes)
    (hruns : graph.Runs limit node start (round :: later)) {child : Graph σ} {inner : Segment σ}
    (hchild : nesting round.node = some child)
    (hinner : graph.RunsChild round.node start child inner)
    (hfailure : inner.final.context.isFailure) : round.GoesWrong := by
  obtain ⟨hround, hrun⟩ := attempt_of_runs hmem hruns
  obtain ⟨_, hcontext⟩ := reply_of_runsChild (hlayered.linked hround hchild) hinner hrun
  refine .inr ?_
  rw [hcontext]
  exact hfailure

/-- A nested run that failed fails the run.  The induction is on where it was made. -/
theorem isFailure_of_nests {deeper : Graph σ} {inner : Segment σ}
    (h : graph.Nests nesting start rounds deeper inner)
    (hlayered : graph.Layered Node.Starts nesting)
    (hmem : node ∈ graph.nodes) (hruns : graph.Runs limit node start rounds)
    (hhonest : ∀ {given : Context σ} {reply : Reply σ},
      graph.Invokes nesting start rounds given reply → reply.Honest given)
    (hfailure : inner.final.context.isFailure) :
    (start.afterRounds rounds).context.isFailure := by
  induction h generalizing limit node with
  | child hchild hinner =>
    have hwrong := goesWrong_of_runsChild hlayered hmem hruns hchild hinner hfailure
    exact isFailure_of_goesWrong hlayered hmem hruns hhonest List.mem_cons_self hwrong
  | @deeper _ _ _ _ _ _ inner _ hchild hinner hnests ih =>
    obtain ⟨hround, _⟩ := attempt_of_runs hmem hruns
    obtain ⟨hbelow, _, _, hadvances⟩ := advances_of_runsChild hlayered hround hchild hinner
    have hinside : inner.final.context.isFailure := by
      cases hadvances with
      | entered hfirst _ hbelowRuns _ =>
        exact ih hbelow hfirst hbelowRuns (fun h => hhonest (.nested hchild hinner h)) hfailure
      | stayed | invalid => contradiction
    have hwrong := goesWrong_of_runsChild hlayered hmem hruns hchild hinner hinside
    exact isFailure_of_goesWrong hlayered hmem hruns hhonest List.mem_cons_self hwrong
  | later _ ih =>
    cases hruns with
    | last => contradiction
    | next _ _ hnext _ hrest =>
      exact ih hlayered hnext hrest (fun h => hhonest (.later h)) hfailure

end Run

/-- A call with honest callbacks, in either mode.  If a node that it executed returned an
error or left the context failed, the context that it leaves is failed.  That is so at
all levels: the same holds of nodes that nested runs executed, and of nested runs that
ended failed.  And say that after some node no callback touches the record of the failure,
and the engine has none to record, neither for a later nested run nor for the call.  Then
the call leaves the record that this node left, with its message and its exception. -/
theorem last_failure_stays {nesting : Nesting σ} (hlayered : graph.Layered Node.Starts nesting)
    {signal? : Option Signal} {process? : Option (Process σ)} {context : Context σ} {host : σ}
    {segment : Segment σ}
    (hcall : graph.call limit signal? process? context host = some segment)
    (hhonest : segment.Honest nesting graph) :
    (∀ round ∈ segment.rounds, round.GoesWrong → segment.final.context.isFailure) ∧
    (∀ {deeper : Graph σ} {inner : Segment σ},
      graph.Nests nesting segment.start segment.rounds deeper inner →
      (inner.final.context.isFailure ∨ ∃ round ∈ inner.rounds, round.GoesWrong) →
      segment.final.context.isFailure) ∧
    ∀ {earlier later : List (Round σ)} {round : Round σ},
      segment.rounds = earlier ++ round :: later →
      (∀ {given : Context σ} {reply : Reply σ},
        graph.Invokes nesting round.after later given reply → reply.SparesFailure given) →
      (∀ {deeper : Graph σ} {inner : Segment σ},
        graph.Nests nesting round.after later deeper inner → inner.RunsThrough deeper) →
      segment.RunsThrough graph →
      segment.final.context.failure = round.reply.context.failure := by
  cases (advance_eq_some_iff hlayered.built).mp hcall with
  | entered hmem htarget hruns hlength =>
    refine ⟨fun round => isFailure_of_goesWrong hlayered hmem hruns hhonest, ?_, ?_⟩
    · rintro deeper inner hnests (hfailure | ⟨round, hround, hwrong⟩)
      · exact isFailure_of_nests hnests hlayered hmem hruns hhonest hfailure
      · obtain ⟨hbelow, _, _, hadvances⟩ := hnests.advances hlayered (mem_nodes_of_runs hmem hruns)
        refine isFailure_of_nests hnests hlayered hmem hruns hhonest ?_
        cases hadvances with
        | entered hfirst _ hbelowRuns _ =>
          exact isFailure_of_goesWrong hbelow hfirst hbelowRuns
            (fun h => hhonest (hnests.invokes h)) hround hwrong
        | stayed | invalid => contradiction
    · intro earlier later round hrounds hcallbacks hnested hthrough
      refine failure_of_split hlayered hmem hruns hrounds hcallbacks ?_ hnested
      intro ended hended
      obtain ⟨_, hending⟩ := ending_of_runs hruns hended
      exact context_after hlayered.built (mem_nodes_of_runs hmem hruns ended hended) hending
        (hthrough.handled ended hended) (hthrough.saved ended hended)
  | stayed | invalid =>
    refine ⟨List.forall_mem_nil _, fun hnests => by contradiction, fun hrounds => ?_⟩
    simp at hrounds

/-! ## An audit -/

/-- A node that records a failure and returns a result. -/
def failingNode (state : StateName) (failure : Failure) (result : Except Fault Unit)
    (target? : Option StateName := none) : Node (List Note) :=
  .define state
    (.operation (.ofFunction fun context host =>
      { result, context := context.recordFailure failure.message failure.exception, host }) ::
      (target?.map (.on .proceed)).toList)

def inspectionSteps : List (Directive (List Note)) :=
  [ .startNode [(.proceed, ⟨"look"⟩)]
  , .addNode (notingNode ⟨"look"⟩ (some ⟨"report"⟩))
  , .addNode (notingNode ⟨"report"⟩) ]

def inspection : Graph (List Note) :=
  (define "Inspection" inspectionSteps).toOption.getD { name := "" }

def auditCount : Node (List Note) :=
  failingNode ⟨"count"⟩ { message := "one short" } (.error (.halt ⟨"one short"⟩))
    (some ⟨"weigh"⟩)

def auditWeigh : Node (List Note) :=
  failingNode ⟨"weigh"⟩ { message := "too light", exception := some (.text "scale reads 0") }
    (.ok ()) (some ⟨"inspect"⟩)

def auditInspect : Node (List Note) := delegatingNode ⟨"inspect"⟩ inspection (some ⟨"sign"⟩)

def auditSteps : List (Directive (List Note)) :=
  [ .failureHandling .chainOfCommand
  , .startNode [(.proceed, ⟨"count"⟩)]
  , .addNode auditCount
  , .addNode auditWeigh
  , .addNode auditInspect
  , .addNode (notingNode ⟨"sign"⟩) ]

/-- An audit that goes on past what it finds. -/
def audit : Graph (List Note) := (define "Audit" auditSteps).toOption.getD { name := "" }

def auditSegment : Segment (List Note) := (audit.call 4 none none .empty []).get rfl

theorem call_audit : audit.call 4 none none .empty [] = some auditSegment := rfl

def auditNesting : Nesting (List Note) := fun node =>
  if node.state = ⟨"inspect"⟩ then some inspection else none

theorem nodes_inspection : inspection.nodes =
    [ (Node.new .initial).onAll [(.proceed, ⟨"look"⟩)]
    , notingNode ⟨"look"⟩ (some ⟨"report"⟩), notingNode ⟨"report"⟩ ] := rfl

theorem layered_inspection : inspection.Layered Node.Starts auditNesting := by
  refine layered_of_nodes ⟨"Inspection", inspectionSteps, rfl⟩ ?_
  rw [nodes_inspection]
  simp only [List.forall_mem_cons]
  exact ⟨.inl rfl, .inl rfl, .inl rfl, List.forall_mem_nil _⟩

theorem layered_audit : audit.Layered Node.Starts auditNesting := by
  refine layered_of_nodes ⟨"Audit", auditSteps, rfl⟩ ?_
  have hnodes : audit.nodes =
      [ (Node.new .initial).onAll [(.proceed, ⟨"count"⟩)], auditCount, auditWeigh, auditInspect
      , notingNode ⟨"sign"⟩ ] := rfl
  rw [hnodes]
  simp only [List.forall_mem_cons]
  exact ⟨.inl rfl, .inl rfl, .inl rfl, .inr ⟨_, rfl, rfl, layered_inspection⟩, .inl rfl,
    List.forall_mem_nil _⟩

theorem advances_audit : audit.Advances 4 .proceed auditSegment.start auditSegment :=
  (advance_eq_some_iff layered_audit.built).mp call_audit

/-- The nodes after the weighing only make notes. -/
theorem ensuresAt_audit {post : Reply (List Note) → Context (List Note) → Prop}
    (h : ∀ context host, post { result := .ok (), context, host } context) :
    audit.EnsuresAt auditNesting post auditInspect ∧
      audit.EnsuresAt auditNesting post (notingNode ⟨"sign"⟩) := by
  have hskip : Callback.skip.Ensures post := Callback.ensures_ofFunction h
  have hnote : ∀ note : Note, note.callback.Ensures post :=
    fun note => Callback.ensures_ofFunction fun context host => h context (host ++ [note])
  have hbelow : ∀ node ∈ inspection.nodes, inspection.EnsuresAt auditNesting post node := by
    rw [nodes_inspection]
    simp only [List.forall_mem_cons]
    exact ⟨.own rfl hskip, .own rfl (hnote _), .own rfl (hnote _), List.forall_mem_nil _⟩
  exact ⟨.nested rfl hskip hbelow, .own rfl (hnote _)⟩

theorem honest_audit : auditSegment.Honest auditNesting audit := by
  intro given reply hinvokes
  have hquiet : ∀ (context : Context (List Note)) (host : List Note),
      Reply.Honest { result := .ok (), context, host } context :=
    fun context host => ⟨id, fun halt hhalt => by contradiction⟩
  obtain ⟨hinspect, hsign⟩ := ensuresAt_audit hquiet
  have hcount : audit.EnsuresAt auditNesting Reply.Honest auditCount :=
    .own rfl (Callback.ensures_ofFunction fun _ _ => ⟨fun _ => rfl, fun _ _ => rfl⟩)
  have hweigh : audit.EnsuresAt auditNesting Reply.Honest auditWeigh :=
    .own rfl (Callback.ensures_ofFunction fun _ _ => ⟨fun _ => rfl, fun _ _ => rfl⟩)
  have hensures : ∀ round ∈ auditSegment.rounds,
      audit.EnsuresAt auditNesting Reply.Honest round.node :=
    List.forall_mem_cons.mpr ⟨hcount, List.forall_mem_cons.mpr ⟨hweigh,
      List.forall_mem_cons.mpr ⟨hinspect, List.forall_mem_singleton.mpr hsign⟩⟩⟩
  exact ensures_of_advances layered_audit advances_audit (List.nil_append _).symm hensures hinvokes

/-- The run of the inspection in the audit. -/
def inspectionSegment : Segment (List Note) :=
  (inspection.start 4 (auditSegment.start.afterRounds (auditSegment.rounds.take 2)).context
    []).get rfl

theorem runs_inspection : audit.RunsChild auditInspect
    (auditSegment.start.afterRounds (auditSegment.rounds.take 2)) inspection inspectionSegment :=
  ⟨4, _, rfl, rfl, rfl⟩

/-- The inspection stops at once, as the context is failed, and that is no failure of the
engine. -/
theorem runsThrough_inspection : inspectionSegment.RunsThrough inspection where
  valid := by decide
  handled := by
    refine List.forall_mem_singleton.mpr ?_
    rintro ⟨fault, hresult, _⟩
    contradiction
  saved := by
    refine List.forall_mem_singleton.mpr ?_
    rintro ⟨save, hsave, _⟩
    contradiction

theorem runsThrough_audit : auditSegment.RunsThrough audit where
  valid := by decide
  handled := by
    refine List.forall_mem_cons.mpr ⟨?halted, ?_⟩
    case halted =>
      rintro ⟨fault, hresult, hfault⟩
      exact hfault ⟨"one short"⟩ (Except.error.inj hresult).symm
    have hnever : ∀ round ∈ auditSegment.rounds.tail, round.reply.result = .ok () :=
      List.forall_mem_cons.mpr ⟨rfl, List.forall_mem_cons.mpr ⟨rfl,
        List.forall_mem_singleton.mpr rfl⟩⟩
    rintro round hround ⟨fault, hresult, _⟩
    rw [hnever round hround] at hresult
    contradiction
  saved := by
    have hnever : ∀ round ∈ auditSegment.rounds, round.save = none :=
      List.forall_mem_cons.mpr ⟨rfl, List.forall_mem_cons.mpr ⟨rfl, List.forall_mem_cons.mpr ⟨rfl,
        List.forall_mem_singleton.mpr rfl⟩⟩⟩
    rintro round hround ⟨save, hsave, _⟩
    rw [hnever round hround] at hsave
    contradiction

/-- What is wrong with the weight is the last thing that was found, and so it is what the
audit comes to. -/
theorem audit_keeps_last_failure :
    auditSegment.rounds.map Round.state = [⟨"count"⟩, ⟨"weigh"⟩, ⟨"inspect"⟩, ⟨"sign"⟩] ∧
      auditSegment.final.context.isFailure ∧
      auditSegment.final.context.failure =
        some { message := "too light", exception := some (.text "scale reads 0") } := by
  obtain ⟨hfails, _, hlast⟩ := last_failure_stays layered_audit call_audit honest_audit
  have hrounds : auditSegment.rounds = auditSegment.rounds.take 1 ++ _ :: _ := rfl
  have hlater : auditSegment.rounds = auditSegment.rounds.take 2 ++ _ := rfl
  have hcount : auditSegment.rounds[0] ∈ auditSegment.rounds := List.getElem_mem _
  refine ⟨rfl, hfails _ hcount (.inr rfl), (hlast hrounds ?_ ?_ runsThrough_audit).trans rfl⟩
  · intro given reply hinvokes
    have hquiet : ∀ (context : Context (List Note)) (host : List Note),
        Reply.SparesFailure { result := .ok (), context, host } context := fun _ _ => rfl
    obtain ⟨hinspect, hsign⟩ := ensuresAt_audit hquiet
    exact ensures_of_advances layered_audit advances_audit hlater
      (List.forall_mem_cons.mpr ⟨hinspect, List.forall_mem_singleton.mpr hsign⟩) hinvokes
  · intro deeper inner hnests
    cases hnests with
    | child hchild hruns =>
      obtain rfl := Option.some.inj hchild
      obtain rfl := hruns.unique runs_inspection
      exact runsThrough_inspection
    | deeper hchild hruns hnests =>
      obtain rfl := Option.some.inj hchild
      obtain rfl := hruns.unique runs_inspection
      refine absurd hnests (not_nests_of_own ?_)
      exact List.forall_mem_singleton.mpr rfl
    | later hnests =>
      refine absurd hnests (not_nests_of_own ?_)
      exact List.forall_mem_singleton.mpr rfl

end Graph

end Workflow
