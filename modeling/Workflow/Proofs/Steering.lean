import Workflow.Proofs.Logs
import Workflow.Proofs.Trails

/-!
# Failures do not steer

In chain of command, with signal hooks that always pick the same signal, no prepare
hook and no operation has a say in where a run goes, as long as it fails with halts.

* `Callback.Mild` is failing with halts, and `Graph.Mild` is that of all prepare hooks
  and operations.  `mild_attempt`: then whatever happens at a node is mild.
* `Graph.steered` is the path that the constant signals take through the transitions.
  It does not mention the work of any node.
* `accept_of_round` is one round.  `exists_covers_follow` is the rounds from a node on, and
  `exists_covers_trail` those of a call, up to any number of states.
* `Graph.Visits` is a call that visits a path, which may have no end.  `visits_steered`
  is one call, and `failures_do_not_steer` compares the calls of two graphs that are alike
  but for their work.
-/

namespace Workflow

variable {σ : Type}

/-! ## Halts and no other faults -/

/-- The callback returns, and it fails with halts only. -/
structure Callback.Mild (callback : Callback σ) : Prop where
  returns : callback.Returns
  halts : ∀ {limit : Nat} {context : Context σ} {host : σ} {reply : Reply σ},
    callback.run limit context host = some reply →
      ∀ fault, reply.result = .error fault → ∃ halt, fault = .halt halt

/-- The work of an operation itself, which for a command leaves out its validation. -/
def Operation.call : Operation σ → Callback σ
  | .callable body => body
  | .command body => body.call

/-- All prepare hooks and operations are mild. -/
structure Graph.Mild (graph : Graph σ) : Prop where
  prepare : ∀ node ∈ graph.nodes, ∀ hook, node.prepare = some hook →
    (graph.prepareHook hook).Mild
  operation : ∀ node ∈ graph.nodes, ∀ operation, node.operation = some operation →
    operation.call.Mild

/-- The node without its callbacks, but for the signal hook. -/
def Node.idle (node : Node σ) : Node σ :=
  { node with prepare := none, operation := none, rollback := none }

/-- The graph with such nodes, and without prepare hooks that nodes refer to by name. -/
def Graph.idle (graph : Graph σ) : Graph σ :=
  { graph with nodes := graph.nodes.map Node.idle, prepareHooks := ∅ }

namespace Callback

theorem mild_ofFunction {work : Context σ → σ → Reply σ}
    (h : ∀ context host fault, (work context host).result = .error fault →
      ∃ halt, fault = .halt halt) : (ofFunction work).Mild where
  returns := returns_ofFunction work
  halts := by
    intro limit context host reply hrun fault hfault
    obtain rfl := Option.some.inj hrun
    exact h context host fault hfault

theorem mild_raise (halt : Halt) : (raise (.halt halt) : Callback σ).Mild :=
  mild_ofFunction fun _ _ _ hfault => ⟨halt, (Except.error.inj hfault).symm⟩

theorem mild_skip : (skip : Callback σ).Mild :=
  mild_ofFunction fun _ _ _ hfault => by contradiction

theorem mild_andThen {first second : Callback σ} (hfirst : first.Mild) (hsecond : second.Mild) :
    (first.andThen second).Mild where
  returns := returns_andThen hfirst.returns hsecond.returns
  halts := by
    intro limit context host reply hrun fault hfault
    rcases run_andThen_cases hrun with ⟨_, hfailed, _⟩ | ⟨_, later, _, _, hlater, rfl⟩
    · exact hfirst.halts hfailed fault hfault
    · exact hsecond.halts hlater fault hfault

/-- A missing argument is a halt as well. -/
theorem mild_validation (command : Command σ) : command.validation.Mild := by
  refine mild_ofFunction fun context host fault hfault => ?_
  cases hmissing : context.missing command.requiredArgs with
  | nil => simp [Command.validate, hmissing] at hfault
  | cons key rest =>
    simp only [Command.validate, hmissing] at hfault
    exact ⟨_, (Except.error.inj hfault).symm⟩

end Callback

theorem Operation.mild_work {operation : Operation σ} (h : operation.call.Mild) :
    operation.work.Mild := by
  cases operation with
  | callable => exact h
  | command body => exact Callback.mild_andThen (Callback.mild_validation body) h

/-- Whatever happens at a node is mild. -/
theorem Graph.mild_attempt {graph : Graph σ} (h : graph.Mild) {node : Node σ}
    (hmem : node ∈ graph.nodes) : (graph.attempt node).Mild := by
  have hwork : node.work.Mild := by
    unfold Node.work
    cases hoperation : node.operation with
    | none => exact Callback.mild_skip
    | some operation => exact Operation.mild_work (h.operation node hmem operation hoperation)
  unfold attempt
  cases hprepare : node.prepare with
  | none => exact hwork
  | some hook => exact Callback.mild_andThen (h.prepare node hmem hook hprepare) hwork

/-! ## Accepted saves -/

/-- The checkpoint, if there is one, accepts every transition. -/
def Process.Accepting (process : Process σ) : Prop :=
  ∀ checkpoint, process.checkpoint = some checkpoint →
    ∀ cursor state host, (checkpoint cursor state host).1 = .ok true

theorem Process.Accepting.answer {process : Process σ} (h : process.Accepting)
    {state : StateName} {host : σ} {save : Save}
    (hsave : (process.visit state host).save = some save) : save.answer = .ok true := by
  unfold visit at hsave
  cases hcheckpoint : process.checkpoint with
  | none => simp [hcheckpoint] at hsave
  | some checkpoint =>
    simp only [hcheckpoint, Option.some.injEq] at hsave
    rw [← hsave]
    exact h checkpoint hcheckpoint ..

namespace Trail

/-- Every save that was made was accepted. -/
def Saved (trail : Trail σ) : Prop :=
  ∀ round ∈ trail.rounds, ∀ save, round.save = some save → save.answer = .ok true

variable {trail : Trail σ} {round : Round σ} {state : StateName}

theorem Saved.of_cons (h : (trail.cons round).Saved) : trail.Saved :=
  fun round hmem => h round (List.mem_cons_of_mem _ hmem)

theorem Saved.mono {larger : Trail σ} (h : larger.Saved)
    (hrounds : trail.rounds <+: larger.rounds) : trail.Saved :=
  fun round hmem => h round (hrounds.subset hmem)

/-! ## Trails along a path -/

/-- The first states that were visited, in the given number, are the path.  If there are
fewer states on the path, then it is all of the trail. -/
structure Covers (trail : Trail σ) (n : Nat) (path : List StateName) : Prop where
  take : trail.visited.take n = path
  complete : path.length < n → trail.complete

theorem Covers.visited_eq {n : Nat} {path : List StateName} (h : trail.Covers n path)
    (hlength : path.length < n) : trail.visited = path := by
  have htake := h.take
  rwa [List.take_of_length_le] at htake
  rw [← htake, List.length_take] at hlength
  omega

theorem covers_nil (n : Nat) : ({ complete := true } : Trail σ).Covers n [] where
  take := List.take_nil
  complete := fun _ => rfl

theorem covers_zero (trail : Trail σ) : trail.Covers 0 [] where
  take := List.take_zero
  complete := fun h => absurd h (Nat.lt_irrefl 0)

theorem covers_last (hvisited : round.visited? = some state) (n : Nat) :
    Trail.Covers { rounds := [round], complete := true } (n + 1) [state] where
  take := by
    rw [visited, List.filterMap_cons_some hvisited, List.take_succ_cons, List.filterMap_nil,
      List.take_nil]
  complete := fun _ => rfl

theorem Covers.cons {n : Nat} {path : List StateName} (h : trail.Covers n path)
    (hvisited : round.visited? = some state) :
    (trail.cons round).Covers (n + 1) (state :: path) where
  take := by
    show ((round :: trail.rounds).filterMap Round.visited?).take (n + 1) = state :: path
    rw [List.filterMap_cons_some hvisited, List.take_succ_cons]
    exact congrArg (state :: ·) h.take
  complete := fun hlength => h.complete (Nat.lt_of_succ_lt_succ hlength)

end Trail

namespace Graph

variable {graph : Graph σ}

/-! ## Constant signals -/

/-- Each signal hook always picks the signal that is given for the state of its node. -/
def Emits (graph : Graph σ) (signals : StateName → Signal) : Prop :=
  ∀ node ∈ graph.nodes, ∀ context host,
    (graph.choose node context host).1 = .ok (signals node.state)

/-- The first states on the way of a signal from a state, and from each of them of the
signal that is given for it.  The way ends where a signal leads nowhere, or pauses. -/
def steered (graph : Graph σ) (signals : StateName → Signal) :
    Nat → StateName → Signal → List StateName
  | 0, _, _ => []
  | n + 1, state, signal =>
    match graph.target? state signal with
    | none => []
    | some next => if next.isWait then [] else next :: graph.steered signals n next (signals next)

/-- It is enough that each node has no signal hook, or always emits its signal. -/
theorem emits_of_constant {signals : StateName → Signal}
    (h : ∀ node ∈ graph.nodes, (node.determine = none ∧ signals node.state = .proceed) ∨
      node.determine = some (.inline fun _ host => (signals node.state, host))) :
    graph.Emits signals := by
  intro node hmem context host
  rcases h node hmem with ⟨hnone, hproceed⟩ | hconstant
  · rw [choose, hnone, hproceed]
  · rw [choose, hconstant]
    rfl

section Steered

variable {signals : StateName → Signal} {n : Nat} {state : StateName} {signal : Signal}

theorem steered_of_none (h : graph.target? state signal = none) :
    graph.steered signals n state signal = [] := by
  cases n with
  | zero => rfl
  | succ n => simp only [steered, h]

theorem steered_of_wait (h : graph.target? state signal = some .wait) :
    graph.steered signals n state signal = [] := by
  cases n with
  | zero => rfl
  | succ n =>
    simp only [steered, h]
    rfl

theorem steered_of_mem (hbuilt : graph.Built) {next : Node σ} (hmem : next ∈ graph.nodes)
    (h : graph.target? state signal = some next.state) :
    graph.steered signals (n + 1) state signal =
      next.state :: graph.steered signals n next.state (signals next.state) := by
  simp [steered, h, isWait_of_mem hbuilt hmem]

end Steered

/-! ## Rounds that only the transitions steer -/

/-- A run that makes accepted saves only goes on to do so after a round. -/
theorem saved_of_next {node next : Node σ} {start : Execution σ} {round : Round σ} {within : Nat}
    (hsaved : ∀ limit steps, (graph.follow limit steps node start).Saved)
    (hround : graph.round within node start = some round)
    (hnext : round.conclusion.next? = some next) (limit steps : Nat) :
    (graph.follow limit steps next round.after).Saved := by
  have hwhole := hsaved (max within limit) (steps + 1)
  rw [follow_of_next (round_of_le (Nat.le_max_left within limit) hround) hnext] at hwhole
  exact hwhole.of_cons.mono
    (isPrefix_rounds_follow (Nat.le_max_right within limit) (Nat.le_refl steps) next round.after)

section Rounds

variable {signals : StateName → Signal} {node : Node σ} {start : Execution σ}
  (hbuilt : graph.Built) (hchain : graph.failureHandling = .chainOfCommand)
  (hemits : graph.Emits signals) (hmild : graph.Mild)

include hbuilt hchain hemits hmild

/-- A node whose transition is saved is entered, and its constant signal leads on. -/
theorem accept_of_round (hmem : node ∈ graph.nodes) {limit : Nat} {round : Round σ}
    (h : graph.round limit node start = some round)
    (hsaved : ∀ save, round.save = some save → save.answer = .ok true) :
    ∃ reply host, round = graph.accept node start.process reply (signals node.state) host := by
  obtain ⟨reply, hrun, hending⟩ := (round_eq_some_iff hbuilt hmem).mp h
  rcases ending_stays_or_enters hending with ⟨hstays, _⟩ | ⟨signal, host, haccepts, rfl⟩
  · obtain ⟨rfl, rfl⟩ := node_reply_of_ending hending
    rcases (stops_iff hending).mpr hstays with
      ⟨hhalts, _⟩ | ⟨fault, hfault, hnot⟩ | ⟨save, hsave, hanswer⟩
    · rw [hchain] at hhalts
      contradiction
    · obtain ⟨halt, rfl⟩ := (mild_attempt hmild hmem).halts hrun fault hfault
      exact absurd rfl (hnot halt)
    · exact absurd (hsaved save hsave) hanswer
  · obtain rfl : signal = signals node.state :=
      Except.ok.inj ((congrArg Prod.fst haccepts.choose).symm.trans (hemits node hmem _ _))
    exact ⟨reply, host, rfl⟩

theorem exists_round (hmem : node ∈ graph.nodes)
    (hsaved : ∀ limit steps, (graph.follow limit steps node start).Saved) :
    ∃ reply host limit, ∀ larger, limit ≤ larger → graph.round larger node start =
      some (graph.accept node start.process reply (signals node.state) host) := by
  obtain ⟨limit, hsome⟩ := (mild_attempt hmild hmem).returns start.context start.host
  obtain ⟨returned, hreturned⟩ := Option.isSome_iff_exists.mp hsome
  have hround : graph.round limit node start =
      some (graph.conclude node start.process returned) := by
    rw [Graph.round, hreturned, Option.map_some]
  obtain ⟨reply, host, haccept⟩ := accept_of_round hbuilt hchain hemits hmild hmem hround
    (hsaved limit 1 _ (mem_follow_of_round hround))
  rw [haccept] at hround
  exact ⟨reply, host, limit, fun larger hle => round_of_le hle hround⟩

/-- From a node on the rounds cover any number of states of the path that leads to it.
The induction is on that number. -/
theorem exists_covers_follow (n : Nat) {state : StateName} {signal : Signal}
    (hmem : node ∈ graph.nodes) (htarget : graph.target? state signal = some node.state)
    (hsaved : ∀ limit steps, (graph.follow limit steps node start).Saved) :
    ∃ limit, ∀ larger, limit ≤ larger → ∀ steps, n ≤ steps →
      (graph.follow larger steps node start).Covers n (graph.steered signals n state signal) := by
  induction n generalizing node start state signal with
  | zero => exact ⟨0, fun _ _ _ _ => Trail.covers_zero _⟩
  | succ n ih =>
    obtain ⟨reply, host, limit, hround⟩ := exists_round hbuilt hchain hemits hmild hmem hsaved
    have hvisited := visited?_accept graph node start.process reply (signals node.state) host
    have hnode := target?_of_mem hbuilt hmem (signals node.state)
    rw [steered_of_mem hbuilt hmem htarget]
    -- The path may end here, and the run ends with it.
    have hends (hpath : graph.steered signals n node.state (signals node.state) = [])
        (hlast : (graph.onward node (signals node.state)).next? = none) :
        ∃ limit, ∀ larger, limit ≤ larger → ∀ steps, n + 1 ≤ steps →
          (graph.follow larger steps node start).Covers (n + 1)
            (node.state :: graph.steered signals n node.state (signals node.state)) := by
      refine ⟨limit, fun larger hle steps hsteps => ?_⟩
      rw [hpath, follow_of_last (hround larger hle) hlast (Nat.zero_lt_of_lt hsteps)]
      exact Trail.covers_last hvisited n
    rcases onward_cases hbuilt hmem (signals node.state) with
      ⟨hnone, honward⟩ | ⟨hwait, honward⟩ | ⟨next, hnext, hsome, honward⟩
    · exact hends (steered_of_none (hnode.trans hnone)) (congrArg Conclusion.next? honward)
    · exact hends (steered_of_wait (hnode.trans hwait)) (congrArg Conclusion.next? honward)
    · have hleads := congrArg Conclusion.next? honward
      obtain ⟨limit', hcovers⟩ :=
        ih hnext (hnode.trans hsome) (saved_of_next hsaved (hround limit le_rfl) hleads)
      refine ⟨max limit limit', fun larger hle steps hsteps => ?_⟩
      obtain ⟨steps, rfl⟩ : ∃ m, steps = m + 1 := ⟨steps - 1, by omega⟩
      obtain ⟨hfirst, hrest⟩ := Nat.max_le.mp hle
      rw [follow_of_next (hround larger hfirst) hleads]
      exact (hcovers larger hrest steps (Nat.le_of_succ_le_succ hsteps)).cons hvisited

/-- The same from the signal of a call on. -/
theorem exists_covers_trail (n : Nat) {signal : Signal}
    (hsaved : ∀ limit, (graph.trail limit signal start).Saved) :
    ∃ limit, ∀ larger, limit ≤ larger →
      (graph.trail larger signal start).Covers n
        (graph.steered signals n start.process.state signal) := by
  unfold trail at hsaved ⊢
  rcases target?_cases hbuilt start.process.state signal with hnone | hwait | ⟨node, hmem, htarget⟩
  · rw [steered_of_none hnone, route_of_none hnone]
    exact ⟨0, fun _ _ => Trail.covers_nil n⟩
  · rw [steered_of_wait hwait, route_of_wait hwait]
    exact ⟨0, fun _ _ => Trail.covers_nil n⟩
  · rw [route_of_mem hbuilt hmem htarget] at hsaved ⊢
    have hsteps : ∀ limit steps, (graph.follow limit steps node start).Saved := fun limit steps =>
      (hsaved (max limit steps)).mono
        (isPrefix_rounds_follow (Nat.le_max_left ..) (Nat.le_max_right ..) _ _)
    obtain ⟨limit, hcovers⟩ :=
      exists_covers_follow hbuilt hchain hemits hmild n hmem htarget hsteps
    refine ⟨max limit n, fun larger hle => ?_⟩
    obtain ⟨hlimit, hn⟩ := Nat.max_le.mp hle
    exact hcovers larger hlimit larger hn

end Rounds

/-! ## A checkpoint that accepts everything -/

theorem saved_of_round (hbuilt : graph.Built) {node : Node σ} (hmem : node ∈ graph.nodes)
    {limit : Nat} {start : Execution σ} {round : Round σ} (haccepting : start.process.Accepting)
    (h : graph.round limit node start = some round) :
    (∀ save, round.save = some save → save.answer = .ok true) ∧ round.after.process.Accepting := by
  constructor
  · intro save hsave
    obtain ⟨reply, _, hending⟩ := (round_eq_some_iff hbuilt hmem).mp h
    cases hending with
    | interrupted | failed => contradiction
    | refused _ _ _ hvisit =>
      obtain rfl := Option.some.inj hsave
      exact haccepting.answer hvisit
    | entered => exact haccepting.answer hsave
  · rw [process_round h, Round.move]
    split <;> exact haccepting

theorem saved_follow (hbuilt : graph.Built) {limit steps : Nat} {node : Node σ}
    (hmem : node ∈ graph.nodes) {start : Execution σ} (haccepting : start.process.Accepting) :
    (graph.follow limit steps node start).Saved := by
  induction steps generalizing node start with
  | zero => exact List.forall_mem_nil _
  | succ steps ih =>
    cases hround : graph.round limit node start with
    | none =>
      rw [follow, hround]
      exact List.forall_mem_nil _
    | some round =>
      obtain ⟨hsaved, hafter⟩ := saved_of_round hbuilt hmem haccepting hround
      cases hnext : round.conclusion.next? with
      | none =>
        rw [follow_of_last hround hnext (Nat.succ_pos steps)]
        exact List.forall_mem_singleton.mpr hsaved
      | some next =>
        rw [follow_of_next hround hnext]
        exact List.forall_mem_cons.mpr
          ⟨hsaved, ih (mem_nodes_of_next? hbuilt hmem hround hnext) hafter⟩

/-! ## Calls along a path -/

/-- All saves of the call are accepted, also if it does not end. -/
def SavesAll (graph : Graph σ) (signal? : Option Signal) (process? : Option (Process σ))
    (context : Context σ) (host : σ) : Prop :=
  ∀ limit, (graph.trail limit (signal?.getD .proceed)
    (graph.manager process? context host).execution).Saved

/-- The call visits the states of a path, the first ones of which are given for each
number.  If the path ends, so does the call.  If it does not, the call visits any number of
its states within some limit. -/
def Visits (graph : Graph σ) (signal? : Option Signal) (process? : Option (Process σ))
    (context : Context σ) (host : σ) (path : Nat → List StateName) : Prop :=
  ∀ n, ∃ limit, ∀ larger, limit ≤ larger →
    (graph.visitedWithin larger signal? process? context host).take n = path n ∧
      ((path n).length < n → ∃ segment,
        graph.call larger signal? process? context host = some segment ∧
          segment.visited = path n)

theorem savesAll_of_accepting (hbuilt : graph.Built) {signal? : Option Signal}
    {process? : Option (Process σ)} (h : (graph.attach (process?.getD .new)).Accepting)
    (context : Context σ) (host : σ) : graph.SavesAll signal? process? context host := by
  intro limit
  unfold trail
  rcases target?_cases hbuilt (graph.manager process? context host).execution.process.state
    (signal?.getD .proceed) with hnone | hwait | ⟨node, hmem, htarget⟩
  · rw [route_of_none hnone]
    exact List.forall_mem_nil _
  · rw [route_of_wait hwait]
    exact List.forall_mem_nil _
  · rw [route_of_mem hbuilt hmem htarget]
    exact saved_follow hbuilt hmem h

section Calls

variable {signals : StateName → Signal} {signal? : Option Signal} {process? : Option (Process σ)}
  {context : Context σ} {host : σ} {path : Nat → List StateName}

theorem visits_of_covers
    (h : ∀ n, ∃ limit, ∀ larger, limit ≤ larger →
      (graph.trail larger (signal?.getD .proceed)
        (graph.manager process? context host).execution).Covers n (path n)) :
    graph.Visits signal? process? context host path := by
  intro n
  obtain ⟨limit, hcovers⟩ := h n
  refine ⟨limit, fun larger hle => ⟨(hcovers larger hle).take, fun hlength => ?_⟩⟩
  refine ⟨_, call_eq_some_iff.mpr ⟨(hcovers larger hle).complete hlength, rfl⟩, ?_⟩
  exact (hcovers larger hle).visited_eq hlength

/-- In chain of command a call with mild work and constant signals visits the path that
these take. -/
theorem visits_steered (hbuilt : graph.Built)
    (hchain : graph.failureHandling = .chainOfCommand) (hemits : graph.Emits signals)
    (hmild : graph.Mild) (hsaved : graph.SavesAll signal? process? context host) :
    graph.Visits signal? process? context host fun n =>
      graph.steered signals n (process?.getD .new).state (signal?.getD .proceed) :=
  visits_of_covers fun n => exists_covers_trail hbuilt hchain hemits hmild n hsaved

/-- Of two calls that visit one path, both end or neither does, and after the same states. -/
theorem Visits.call_of_call {other : Graph σ} {process'? : Option (Process σ)}
    {context' : Context σ} {host' : σ} (h : graph.Visits signal? process? context host path)
    (hother : other.Visits signal? process'? context' host' path) {limit : Nat}
    {segment : Segment σ}
    (hcall : graph.call limit signal? process? context host = some segment) :
    ∃ limit' segment', other.call limit' signal? process'? context' host' = some segment' ∧
      segment'.visited = segment.visited := by
  obtain ⟨within, hwithin⟩ := h (segment.visited.length + 1)
  obtain ⟨limit', hends⟩ := hother (segment.visited.length + 1)
  -- Within a limit that does for both, the path is the states that the call visited.
  have hpath : path (segment.visited.length + 1) = segment.visited := by
    rw [← (hwithin (max within limit) (Nat.le_max_left ..)).1,
      visitedWithin_of_call (call_of_le (Nat.le_max_right within limit) hcall),
      List.take_of_length_le (Nat.le_succ _)]
  obtain ⟨segment', hcall', hvisited⟩ := (hends limit' (Nat.le_refl _)).2
    (by rw [hpath]; exact Nat.lt_succ_self _)
  exact ⟨limit', segment', hcall', hvisited.trans hpath⟩

end Calls

/-! ## Graphs that differ in their work -/

theorem target?_idle (graph : Graph σ) (state : StateName) (signal : Signal) :
    graph.idle.target? state signal = graph.target? state signal := by
  unfold target? node? idle
  cases graph.index.get? state.text with
  | none => rfl
  | some i =>
    simp only [Option.bind_some, List.getElem?_map]
    cases graph.nodes[i]? <;> rfl

theorem emits_idle_iff {signals : StateName → Signal} :
    graph.idle.Emits signals ↔ graph.Emits signals := by
  show (∀ node ∈ graph.nodes.map Node.idle, _) ↔ _
  rw [List.forall_mem_map]
  rfl

theorem steered_idle (graph : Graph σ) (signals : StateName → Signal) (n : Nat)
    (state : StateName) (signal : Signal) :
    graph.idle.steered signals n state signal = graph.steered signals n state signal := by
  induction n generalizing state signal with
  | zero => rfl
  | succ n ih => simp only [steered, target?_idle, ih]

/-- Two graphs in chain of command have the same nodes but for their work, which is mild,
and their signal hooks always pick the same signals.  Then two calls from one state with
one signal visit the path that these signals take, also if it has no end.  So both calls
end or neither does, and they visit the same states, whatever failed. -/
theorem failures_do_not_steer {first second : Graph σ} (hfirst : first.Built)
    (hsecond : second.Built) (halike : second.idle = first.idle)
    (hchain : first.failureHandling = .chainOfCommand) {signals : StateName → Signal}
    (hemits : first.Emits signals) (hmild : first.Mild) (hmild' : second.Mild)
    {signal? : Option Signal} {process? process'? : Option (Process σ)}
    (hstate : (process'?.getD .new).state = (process?.getD .new).state)
    {context context' : Context σ} {host host' : σ}
    (hsaved : first.SavesAll signal? process? context host)
    (hsaved' : second.SavesAll signal? process'? context' host') :
    let path n := first.steered signals n (process?.getD .new).state (signal?.getD .proceed)
    first.Visits signal? process? context host path ∧
      second.Visits signal? process'? context' host' path ∧
      ∀ states,
        (∃ limit segment, first.call limit signal? process? context host = some segment ∧
          segment.visited = states) ↔
        ∃ limit segment, second.call limit signal? process'? context' host' = some segment ∧
          segment.visited = states := by
  intro path
  have hmode : second.idle.failureHandling = first.idle.failureHandling := by rw [halike]
  have hemits' : second.Emits signals := by
    rw [← emits_idle_iff, halike, emits_idle_iff]
    exact hemits
  have hvisits : first.Visits signal? process? context host path :=
    visits_steered hfirst hchain hemits hmild hsaved
  have hvisits' : second.Visits signal? process'? context' host' path := by
    have hpath : path = fun n =>
        second.steered signals n (process'?.getD .new).state (signal?.getD .proceed) := by
      funext n
      rw [hstate, ← steered_idle second, halike, steered_idle]
    rw [hpath]
    exact visits_steered hsecond (hmode.trans hchain) hemits' hmild' hsaved'
  refine ⟨hvisits, hvisits', fun states => ⟨?_, ?_⟩⟩
  · rintro ⟨limit, segment, hcall, rfl⟩
    exact hvisits.call_of_call hvisits' hcall
  · rintro ⟨limit, segment, hcall, rfl⟩
    exact hvisits'.call_of_call hvisits hcall

/-! ## A tour of two rooms -/

/-- A room that may be closed, which its prepare hook finds. -/
def gallery (closed : Bool) : Node Unit :=
  { Node.define ⟨"gallery"⟩ [.signals [(.proceed, ⟨"vault"⟩)]] with
    prepare := if closed then some (.inline (.raise (.halt ⟨"closed"⟩))) else none }

/-- A room that may be locked, and then there has to be a key. -/
def vault (closed : Bool) : Node Unit :=
  { Node.define ⟨"vault"⟩ [.emit ⟨"out"⟩, .signals [(⟨"out"⟩, .wait)]] with
    operation :=
      if closed then some (.command { name := "Unlock", requiredArgs := ["key"], call := .skip })
      else none }

def tourSteps (closed : Bool) : List (Directive Unit) :=
  [ .failureHandling .chainOfCommand
  , .checkpoint fun _ _ host => (.ok true, host)
  , .startNode [(.proceed, ⟨"gallery"⟩)]
  , .addNode (gallery closed)
  , .addNode (vault closed) ]

def tour (closed : Bool) : Graph Unit :=
  (define "Tour" (tourSteps closed)).toOption.getD { name := "" }

def tourSignals (state : StateName) : Signal := if state = ⟨"vault"⟩ then ⟨"out"⟩ else .proceed

section Tour

variable (closed : Bool)

theorem built_tour : (tour closed).Built := by
  refine ⟨"Tour", tourSteps closed, ?_⟩
  cases closed <;> rfl

theorem nodes_tour : (tour closed).nodes =
    [(Node.new .initial).on .proceed ⟨"gallery"⟩, gallery closed, vault closed] := by
  cases closed <;> rfl

theorem emits_tour : (tour closed).Emits tourSignals := by
  refine emits_of_constant ?_
  simp only [nodes_tour, List.forall_mem_cons, List.not_mem_nil]
  exact ⟨.inl ⟨rfl, rfl⟩, .inl ⟨rfl, rfl⟩, .inr rfl, fun _ h => h.elim⟩

theorem mild_tour : (tour closed).Mild where
  prepare := by
    simp only [nodes_tour, List.forall_mem_cons, List.not_mem_nil]
    refine ⟨nofun, fun hook hhook => ?_, nofun, fun _ h => h.elim⟩
    cases closed with
    | false => contradiction
    | true =>
      obtain rfl := Option.some.inj hhook
      exact Callback.mild_raise _
  operation := by
    simp only [nodes_tour, List.forall_mem_cons, List.not_mem_nil]
    refine ⟨nofun, nofun, fun operation hoperation => ?_, fun _ h => h.elim⟩
    cases closed with
    | false => contradiction
    | true =>
      obtain rfl := Option.some.inj hoperation
      exact Callback.mild_skip

theorem savesAll_tour : (tour closed).SavesAll none none .empty () := by
  refine savesAll_of_accepting (built_tour closed) ?_ _ _
  intro checkpoint hcheckpoint
  cases closed <;> obtain rfl := Option.some.inj hcheckpoint <;> exact fun _ _ _ => rfl

end Tour

def toured (closed : Bool) : Segment Unit :=
  ((tour closed).call 2 none none .empty ()).get (by cases closed <;> rfl)

/-- With everything open nothing fails.  The tour visits both rooms as well if the first is
closed and the second is locked, and comes back with a failure. -/
theorem closed_tour_visits_rooms :
    (tour false).call 2 none none .empty () = some (toured false) ∧
      (toured false).final.context.isSuccess ∧
      (toured false).visited = [⟨"gallery"⟩, ⟨"vault"⟩] ∧
      (∃ limit segment, (tour true).call limit none none .empty () = some segment ∧
        segment.visited = [⟨"gallery"⟩, ⟨"vault"⟩]) ∧
      (tour true).call 2 none none .empty () = some (toured true) ∧
      (toured true).final.context.isFailure := by
  have hcall : (tour false).call 2 none none .empty () = some (toured false) := rfl
  obtain ⟨_, _, hsame⟩ := failures_do_not_steer (built_tour false) (built_tour true) rfl rfl
    (emits_tour false) (mild_tour false) (mild_tour true) rfl (savesAll_tour false)
    (savesAll_tour true)
  exact ⟨hcall, rfl, rfl, (hsame _).mp ⟨2, _, hcall, rfl⟩, rfl, rfl⟩

end Graph

end Workflow
