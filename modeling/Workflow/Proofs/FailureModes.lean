import Workflow.Proofs.Outcome
import Workflow.Proofs.Trails

/-!
# The two failure modes

A graph that stops at failures and the same graph that goes on after them run alike up
to the first node that fails.

* `Graph.Relaxes` relates the two graphs.  `fails_or_ending`: a round of the one that
  stops is a round of the other, unless its node fails.
* `Trail.UpToFailure` relates their trails.  `upToFailure_follow` carries a round to the
  next, and `upToFailure_trail` is a whole call.
* `modes_agree_up_to_failure` reads the calls off that.
-/

namespace Workflow

variable {σ : Type}

theorem Conclusion.next?_of_not_entered {conclusion : Conclusion σ}
    (hstays : conclusion.entered = false) : conclusion.next? = none := by
  cases conclusion with
  | moved => contradiction
  | _ => rfl

/-- The first trail ended at a node that failed, and that node was not entered.  Up to
there the second trail has the same rounds.  Or no node failed, and they are one. -/
inductive Trail.UpToFailure : Trail σ → Trail σ → Prop
  | same (trail : Trail σ) : UpToFailure trail trail
  | fails {last : Round σ} (hfails : last.Fails) (hstays : last.visited? = none)
      (trail : Trail σ) : UpToFailure { rounds := [last], complete := true } trail
  | cons (round : Round σ) {short long : Trail σ} (h : UpToFailure short long) :
      UpToFailure (short.cons round) (long.cons round)

namespace Trail.UpToFailure

variable {short long : Trail σ}

theorem isPrefix_visited (h : short.UpToFailure long) : short.visited <+: long.visited := by
  induction h with
  | same => exact List.prefix_refl _
  | fails _ hstays =>
    rw [visited, List.filterMap_cons_none hstays]
    exact List.nil_prefix
  | @cons round short long _ ih =>
    show (round :: short.rounds).filterMap Round.visited? <+:
      (round :: long.rounds).filterMap Round.visited?
    cases hvisited : round.visited? with
    | none => rwa [List.filterMap_cons_none hvisited, List.filterMap_cons_none hvisited]
    | some state =>
      rw [List.filterMap_cons_some hvisited, List.filterMap_cons_some hvisited]
      exact List.cons_prefix_cons.mpr ⟨rfl, ih⟩

theorem complete_of_complete (h : short.UpToFailure long) (hlong : long.complete) :
    short.complete := by
  induction h with
  | same => exact hlong
  | fails => rfl
  | cons _ _ ih => exact ih hlong

theorem eq_of_not_fails (h : short.UpToFailure long)
    (hlast : ∀ last, short.rounds.getLast? = some last → ¬ last.Fails) : short = long := by
  induction h with
  | same => rfl
  | fails hfails => exact absurd hfails (hlast _ rfl)
  | @cons round short long _ ih =>
    rw [ih fun last hsome => hlast last ?_]
    rw [Trail.cons, List.getLast?_cons, hsome]
    rfl

end Trail.UpToFailure

namespace Graph

/-- The graphs differ in their failure mode alone: the second one stops at failures, and
the first one goes on after them. -/
structure Relaxes (lenient strict : Graph σ) : Prop where
  halts : strict.failureHandling = .halt
  eq : lenient = { strict with options.failureHandling := .chainOfCommand }

section Modes

variable {strict lenient : Graph σ}

/-! ## A round in either mode -/

/-- Without a failure the mode has no say in how a round ends. -/
theorem fails_or_ending (hrelaxes : lenient.Relaxes strict) {node : Node σ}
    {process : Process σ} {reply : Reply σ} {round : Round σ}
    (h : strict.Ending node process reply round) :
    round.Fails ∨ lenient.Ending node process reply round := by
  obtain ⟨hmode, rfl⟩ := hrelaxes
  have hhalts := isChainOfCommand_eq_false_iff.mpr hmode
  -- In halt mode the work that was not interrupted succeeded.
  have hok : strict.interrupt? reply.result = none → reply.result = .ok () := by
    rw [interrupt?_eq_none_iff, hhalts]
    simp
  cases h with
  | @interrupted interrupt hwork =>
    cases hresult : reply.result with
    | ok => simp [hresult, interrupt?] at hwork
    | error fault =>
      rcases fault.halt_or_other with ⟨halt, rfl⟩ | hfault
      · exact .inl (.inl ⟨halt, hresult⟩)
      · rw [hresult, interrupt?_of_fault hfault] at hwork
        obtain rfl := Option.some.inj hwork
        refine .inr (.interrupted ?_)
        rw [hresult, interrupt?_of_fault hfault]
  | failed hwork _ hfailure => exact .inl (.inr ⟨hok hwork, hfailure⟩)
  | refused hwork hchoose hgoes hsave hrefused =>
    refine .inr (.refused ?_ hchoose (.inr rfl) hsave hrefused)
    rw [hok hwork]
    rfl
  | entered haccepts =>
    refine .inr (.entered ⟨?_, haccepts.choose, .inr rfl, haccepts.visit⟩)
    rw [hok haccepts.work]
    rfl

theorem fails_or_round (hstrict : strict.Built) (hlenient : lenient.Built)
    (hrelaxes : lenient.Relaxes strict) {limit : Nat} {node : Node σ}
    (hmem : node ∈ strict.nodes) {start : Execution σ} {round : Round σ}
    (h : strict.round limit node start = some round) :
    (round.Fails ∧ round.conclusion.entered = false) ∨
      lenient.round limit node start = some round := by
  obtain ⟨reply, hrun, hending⟩ := (round_eq_some_iff hstrict hmem).mp h
  rcases fails_or_ending hrelaxes hending with hfails | hlong
  · exact .inl ⟨hfails, (stops_iff hending).mp (hfails.stops hrelaxes.halts)⟩
  · obtain ⟨_, rfl⟩ := hrelaxes
    exact .inr ((round_eq_some_iff hlenient hmem).mpr ⟨reply, hrun, hlong⟩)

/-! ## A call in either mode -/

theorem upToFailure_follow (hstrict : strict.Built) (hlenient : lenient.Built)
    (hrelaxes : lenient.Relaxes strict) {limit steps : Nat} {node : Node σ}
    (hmem : node ∈ strict.nodes) (start : Execution σ) :
    (strict.follow limit steps node start).UpToFailure (lenient.follow limit steps node start) := by
  induction steps generalizing node start with
  | zero => exact .same _
  | succ steps ih =>
    cases hround : strict.round limit node start with
    | none =>
      -- Whether the work of a node returns does not depend on the mode.
      have hlong : lenient.round limit node start = none := by
        obtain ⟨_, rfl⟩ := hrelaxes
        rw [Graph.round, Option.map_eq_none_iff] at hround ⊢
        exact hround
      rw [follow, follow, hround, hlong]
      exact .same _
    | some round =>
      rcases fails_or_round hstrict hlenient hrelaxes hmem hround with ⟨hfails, hstays⟩ | hlong
      · rw [follow_of_last hround (Conclusion.next?_of_not_entered hstays) (Nat.succ_pos steps)]
        exact .fails hfails (visited?_of_not_entered hstays) _
      · cases hnext : round.conclusion.next? with
        | none =>
          rw [follow_of_last hround hnext (Nat.succ_pos steps),
            follow_of_last hlong hnext (Nat.succ_pos steps)]
          exact .same _
        | some next =>
          rw [follow_of_next hround hnext, follow_of_next hlong hnext]
          exact .cons round (ih (mem_nodes_of_next? hstrict hmem hround hnext) round.after)

theorem upToFailure_trail (hstrict : strict.Built) (hlenient : lenient.Built)
    (hrelaxes : lenient.Relaxes strict) (limit : Nat) (signal : Signal) (start : Execution σ) :
    (strict.trail limit signal start).UpToFailure (lenient.trail limit signal start) := by
  have hroute : lenient.route = strict.route := by
    obtain ⟨_, rfl⟩ := hrelaxes
    rfl
  unfold trail
  rw [hroute]
  rcases target?_cases hstrict start.process.state signal with hnone | hwait | ⟨node, hmem, hnode⟩
  · rw [route_of_none hnone]
    exact .same _
  · rw [route_of_wait hwait]
    exact .same _
  · rw [route_of_mem hstrict hmem hnode]
    exact upToFailure_follow hstrict hlenient hrelaxes hmem start

/-- Whatever the callbacks and the checkpoint do, a call visits no states in halt mode
but the first ones that it visits in chain of command, also while it has not ended.  It
ends whenever it ends in chain of command.  And if it does not end at a node that
returned a halt or left the context failed, then the mode makes no difference. -/
theorem modes_agree_up_to_failure (hstrict : strict.Built) (hlenient : lenient.Built)
    (hrelaxes : lenient.Relaxes strict) (signal? : Option Signal)
    (process? : Option (Process σ)) (context : Context σ) (host : σ) :
    (∀ limit, strict.visitedWithin limit signal? process? context host <+:
      lenient.visitedWithin limit signal? process? context host) ∧
    (∀ {limit long}, lenient.call limit signal? process? context host = some long →
      ∃ short, strict.call limit signal? process? context host = some short ∧
        short.visited <+: long.visited) ∧
    ∀ {limit short}, strict.call limit signal? process? context host = some short →
      (∀ last, short.rounds.getLast? = some last → ¬ last.Fails) →
      lenient.call limit signal? process? context host = some short := by
  have hstart : (lenient.manager process? context host).execution =
      (strict.manager process? context host).execution := by
    obtain ⟨_, rfl⟩ := hrelaxes
    rfl
  have hroute : lenient.route = strict.route ∧ lenient.name = strict.name := by
    obtain ⟨_, rfl⟩ := hrelaxes
    exact ⟨rfl, rfl⟩
  have htrails limit := upToFailure_trail hstrict hlenient hrelaxes limit (signal?.getD .proceed)
    (strict.manager process? context host).execution
  refine ⟨fun limit => ?_, fun {limit long} hlong => ?_, fun {limit short} hshort hlast => ?_⟩
  · rw [visitedWithin, visitedWithin, hstart]
    exact (htrails limit).isPrefix_visited
  · obtain ⟨hcomplete, rfl⟩ := call_eq_some_iff.mp hlong
    rw [hstart] at hcomplete ⊢
    exact ⟨_, call_eq_some_iff.mpr ⟨(htrails limit).complete_of_complete hcomplete, rfl⟩,
      (htrails limit).isPrefix_visited⟩
  · obtain ⟨hcomplete, rfl⟩ := call_eq_some_iff.mp hshort
    have hsame := (htrails limit).eq_of_not_fails hlast
    refine call_eq_some_iff.mpr ?_
    simp only [hstart, hroute.1, hroute.2, ← hsame, hcomplete, and_self]

end Modes

/-! ## A patrol by night -/

/-- The guard goes from the gate to the tower by the yard.  Without a light, which is
what the host has, there is nothing to be seen in the yard. -/
def patrolSteps (mode : FailureHandling) : List (Directive Bool) :=
  [ .failureHandling mode
  , .startNode [(.proceed, ⟨"gate"⟩)]
  , .addNode (.define ⟨"gate"⟩ [.signals [(.proceed, ⟨"yard"⟩)]])
  , .addNode (.define ⟨"yard"⟩
      [ .operation (.ofFunction fun context light =>
          { result := .ok ()
            context := if light then context else context.recordFailure "no light" none
            host := light })
      , .signals [(.proceed, ⟨"tower"⟩)] ])
  , .addNode (.new ⟨"tower"⟩) ]

def patrol (mode : FailureHandling) : Graph Bool :=
  (define "Patrol" (patrolSteps mode)).toOption.getD { name := "" }

theorem built_patrol (mode : FailureHandling) : (patrol mode).Built := by
  refine ⟨"Patrol", patrolSteps mode, ?_⟩
  cases mode <;> rfl

/-- The patrol that stops if there is nothing to be seen. -/
def patrolled (light : Bool) : Segment Bool :=
  ((patrol .halt).call 3 none none .empty light).get (by cases light <;> rfl)

/-- In the dark the patrol stops in the yard, unless it goes on after failures.  With a
light the mode makes no difference. -/
theorem patrol_stops_in_yard :
    (patrol .halt).visitedWithin 3 none none .empty false = [⟨"gate"⟩] ∧
      (patrol .chainOfCommand).visitedWithin 3 none none .empty false =
        [⟨"gate"⟩, ⟨"yard"⟩, ⟨"tower"⟩] ∧
      (patrol .halt).visitedWithin 3 none none .empty false <+:
        (patrol .chainOfCommand).visitedWithin 3 none none .empty false ∧
      (patrol .halt).call 3 none none .empty true = some (patrolled true) ∧
      (patrol .chainOfCommand).call 3 none none .empty true = some (patrolled true) := by
  have hrelaxes : (patrol .chainOfCommand).Relaxes (patrol .halt) := ⟨rfl, rfl⟩
  have hcall : (patrol .halt).call 3 none none .empty true = some (patrolled true) := rfl
  obtain ⟨hstops, _, _⟩ := modes_agree_up_to_failure (built_patrol _) (built_patrol _) hrelaxes
    none none .empty false
  obtain ⟨_, _, hsame⟩ := modes_agree_up_to_failure (built_patrol _) (built_patrol _) hrelaxes
    none none .empty true
  refine ⟨rfl, rfl, hstops 3, hcall, hsame hcall fun last hlast => ?_⟩
  obtain rfl := Option.some.inj (Eq.symm hlast)
  rintro (⟨_, hhalt⟩ | ⟨_, hfailure⟩) <;> contradiction

end Graph

end Workflow
