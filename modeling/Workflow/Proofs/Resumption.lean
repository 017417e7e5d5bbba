import Workflow.Proofs.Logs

/-!
# Resumption

A run that is taken up again from any of its visits goes on as it would have.
The signal that was picked there is the signal of the new call.

* `Cut` is a run right after a round that entered its state: what follows is
  nothing, or a run from where the picked signal leads.  `cut_of_runs` finds one
  at every such round.
* `filterMap_drop` reads a log of the later rounds off that of the whole run.
  `Passes.logged_of_lt` lets it apply: up to a visit every round has left its
  entry.
* `Cut.advances` is the new call.  It starts with `Graph.route` where the run
  went on by `Graph.onward`.
* `resumes_at_every_visit` states it of a call.
-/

namespace Workflow

/-- The process after entering several states, one after the other. -/
def Process.enterAll {σ : Type} (process : Process σ) (states : List StateName) : Process σ :=
  { process with toCursor := process.toCursor.enterAll states }

@[simp]
theorem Process.enterAll_nil {σ : Type} (process : Process σ) : process.enterAll [] = process := by
  rw [enterAll, Cursor.enterAll_nil]

theorem Process.enterAll_cons {σ : Type} (process : Process σ) (state : StateName)
    (states : List StateName) :
    process.enterAll (state :: states) = (process.enter state).enterAll states := by
  rw [enterAll, Cursor.enterAll_cons]
  rfl

theorem Process.state_enterAll_take {σ : Type} (process : Process σ) {states : List StateName}
    {i : Nat} {state : StateName} (hstate : states[i]? = some state) :
    (process.enterAll (states.take (i + 1))).state = state := by
  show (states.take (i + 1)).getLastD process.state = state
  rw [List.take_add_one, hstate]
  exact List.getLastD_concat ..

theorem afterRounds_of_getElem? {σ : Type} {start : Execution σ} {rounds : List (Round σ)} {i : Nat}
    {round : Round σ} (hround : rounds[i]? = some round) :
    start.afterRounds rounds = round.after.afterRounds (rounds.drop (i + 1)) := by
  induction rounds generalizing start i with
  | nil => contradiction
  | cons first rounds ih =>
    cases i with
    | zero =>
      obtain rfl := Option.some.inj hround
      rfl
    | succ i => exact ih hround

/-- What a list leaves after a prefix that leaves something everywhere. -/
theorem filterMap_drop {α β : Type} {f : α → Option β} {xs : List α} {n : Nat}
    (hn : n ≤ xs.length) (hsome : ∀ x ∈ xs.take n, (f x).isSome) :
    (xs.filterMap f).drop n = (xs.drop n).filterMap f := by
  induction n generalizing xs with
  | zero => rfl
  | succ n ih =>
    cases xs with
    | nil => rfl
    | cons x xs =>
      obtain ⟨hx, hxs⟩ := List.forall_mem_cons.mp hsome
      obtain ⟨y, hy⟩ := Option.isSome_iff_exists.mp hx
      rw [List.filterMap_cons_some hy]
      exact ih (Nat.le_of_succ_le_succ hn) hxs

namespace Graph

variable {σ : Type} {graph : Graph σ} {limit : Nat}

@[simp]
theorem attach_attach (graph : Graph σ) (process : Process σ) :
    graph.attach (graph.attach process) = graph.attach process := by
  simp [attach, Option.or_assoc, Option.or_self]

theorem attach_enterAll (graph : Graph σ) (process : Process σ) (states : List StateName) :
    graph.attach (process.enterAll states) = (graph.attach process).enterAll states := rfl

/-- A call does no more to its process than to enter the visited states. -/
theorem process_of_advances (hbuilt : graph.Built) {signal : Signal} {start : Execution σ}
    {segment : Segment σ} (h : graph.Advances limit signal start segment) :
    segment.final.process = start.process.enterAll segment.visited := by
  obtain ⟨reached, htraverses, hprocess⟩ := traverses_of_advances hbuilt h
  rw [hprocess, Process.enterAll, ← htraverses.toCursor_final, ← htraverses.checkpoint_final]

/-! ## Rounds up to a visit -/

/-- A round that enters its state has an entry in the log of the visits and, with
a checkpoint, in that of the saves. -/
theorem logged_accept {node : Node σ} {process : Process σ} {reply : Reply σ} {signal : Signal}
    {host : σ} (haccepts : graph.Accepts node process reply signal host) :
    let round := graph.accept node process reply signal host
    round.visited? = some round.state ∧ (process.checkpoint.isSome → round.save.isSome) := by
  refine ⟨visited?_accept .., fun hsome => ?_⟩
  obtain ⟨save, hsave, _⟩ := accepted_save haccepts hsome
  exact Option.isSome_of_eq_some hsave

namespace Passes

variable {start : Execution σ} {rounds : List (Round σ)} {i : Nat}

theorem logged_of_lt (h : graph.Passes start rounds)
    (hi : i < (rounds.filterMap Round.visited?).length) :
    i < rounds.length ∧ ∀ round ∈ rounds.take (i + 1), round.visited? = some round.state ∧
      (start.process.checkpoint.isSome → round.save.isSome) := by
  induction h generalizing i with
  | nil => contradiction
  | stop hending hstays =>
    rw [List.filterMap_cons_none (visited?_of_not_entered hstays)] at hi
    contradiction
  | enter haccepts hrest ih =>
    rw [List.filterMap_cons_some (visited?_accept ..)] at hi
    cases i with
    | zero => exact ⟨Nat.succ_pos _, List.forall_mem_singleton.mpr (logged_accept haccepts)⟩
    | succ i =>
      obtain ⟨hlength, hlogged⟩ := ih (Nat.lt_of_succ_lt_succ hi)
      exact ⟨Nat.succ_lt_succ hlength,
        List.forall_mem_cons.mpr ⟨logged_accept haccepts, hlogged⟩⟩

/-- The saves after a visit are those of the rounds after it. -/
theorem saves_drop (h : graph.Passes start rounds)
    (hi : i < (rounds.filterMap Round.visited?).length) :
    (rounds.filterMap (·.save)).drop (i + 1) = (rounds.drop (i + 1)).filterMap (·.save) := by
  obtain ⟨hlength, hlogged⟩ := h.logged_of_lt hi
  cases hcheckpoint : start.process.checkpoint with
  | some checkpoint =>
    exact filterMap_drop hlength fun round hmem =>
      (hlogged round hmem).2 (Option.isSome_of_eq_some hcheckpoint)
  | none =>
    have hnone := h.saves_eq_nil hcheckpoint
    rw [hnone, List.drop_nil, eq_comm, List.filterMap_eq_nil_iff]
    intro round hmem
    exact List.filterMap_eq_nil_iff.mp hnone round (List.mem_of_mem_drop hmem)

theorem process_of_getElem? (h : graph.Passes start rounds) {round : Round σ}
    (hround : rounds[i]? = some round) (hi : i < (rounds.filterMap Round.visited?).length) :
    round.after.process =
      start.process.enterAll ((rounds.filterMap Round.visited?).take (i + 1)) := by
  induction h generalizing i with
  | nil => contradiction
  | stop hending hstays =>
    rw [List.filterMap_cons_none (visited?_of_not_entered hstays)] at hi
    contradiction
  | enter haccepts hrest ih =>
    rw [List.filterMap_cons_some (visited?_accept ..)] at hi ⊢
    cases i with
    | zero =>
      obtain rfl := Option.some.inj hround
      rfl
    | succ i =>
      rw [List.take_succ_cons, Process.enterAll_cons]
      exact ih hround (Nat.lt_of_succ_lt_succ hi)

end Passes

theorem entered_of_visited? {round : Round σ} {state : StateName}
    (h : round.visited? = some state) : round.conclusion.entered := by
  cases hentered : round.conclusion.entered with
  | true => rfl
  | false =>
    rw [visited?_of_not_entered hentered] at h
    contradiction

/-! ## A run cut after a visit -/

/-- A run right after a round that entered its state and picked a signal.  What
follows is nothing, or a run from the node that the signal leads to. -/
structure Cut (graph : Graph σ) (limit : Nat) (round : Round σ) (signal : Signal)
    (later : List (Round σ)) : Prop where
  mem : round.node ∈ graph.nodes
  state : round.after.process.state = round.node.state
  context : round.after.context = round.reply.context
  choose : (graph.choose round.node round.reply.context round.reply.host).1 = .ok signal
  ended : (∀ next ∈ graph.nodes, round.node.target? signal ≠ some next.state) → later = []
  follows : ∀ next ∈ graph.nodes, round.node.target? signal = some next.state →
    graph.Runs limit next round.after later

theorem cut_of_runs (hbuilt : graph.Built) {node : Node σ} {start : Execution σ}
    {rounds : List (Round σ)} {i : Nat} {round : Round σ} (hmem : node ∈ graph.nodes)
    (h : graph.Runs limit node start rounds) (hround : rounds[i]? = some round)
    (hentered : round.conclusion.entered) :
    ∃ signal, graph.Cut limit round signal (rounds.drop (i + 1)) := by
  induction h generalizing i with
  | last hrun hending hlast =>
    obtain ⟨rfl, rfl⟩ : i = 0 ∧ _ = round := by
      cases i with
      | zero => exact ⟨rfl, Option.some.inj hround⟩
      | succ i => contradiction
    rcases ending_stays_or_enters hending with ⟨hstays, _⟩ | ⟨signal, host, haccepts, rfl⟩
    · rw [hstays] at hentered
      contradiction
    · refine ⟨signal, hmem, rfl, rfl, congrArg Prod.fst haccepts.choose, fun _ => rfl, ?_⟩
      intro next hnext htarget
      have hmoves := hlast.symm.trans (next?_accept hbuilt hnext htarget)
      contradiction
  | @next node next start reply signal host rounds hrun haccepts hnext htarget hrest ih =>
    cases i with
    | zero =>
      obtain rfl := Option.some.inj hround
      refine ⟨signal, hmem, rfl, rfl, congrArg Prod.fst haccepts.choose,
        fun hnone => absurd htarget (hnone next hnext), ?_⟩
      intro other hother hsame
      have hstate : next.state = other.state := Option.some.inj (htarget.symm.trans hsame)
      have hnode := hbuilt.indexed.node?_of_mem hnext
      rw [hstate, hbuilt.indexed.node?_of_mem hother] at hnode
      obtain rfl := Option.some.inj hnode
      exact hrest
    | succ i => exact ih hnext hround

/-- A run is cut after each of its visits. -/
theorem cut_at_visit (hbuilt : graph.Built) {node : Node σ} {start : Execution σ}
    {rounds : List (Round σ)} {i : Nat} {state : StateName} (hmem : node ∈ graph.nodes)
    (h : graph.Runs limit node start rounds)
    (hstate : (rounds.filterMap Round.visited?)[i]? = some state) :
    ∃ round signal, rounds[i]? = some round ∧
      graph.Cut limit round signal (rounds.drop (i + 1)) ∧
      graph.node? state = some round.node ∧
      round.after.process =
        start.process.enterAll ((rounds.filterMap Round.visited?).take (i + 1)) := by
  have hi := (List.getElem?_eq_some_iff.mp hstate).1
  have hpasses := passes_of_runs h
  obtain ⟨hlt, hlogged⟩ := hpasses.logged_of_lt hi
  have hround : rounds[i]? = some rounds[i] := List.getElem?_eq_getElem hlt
  have hlast : rounds[i] ∈ rounds.take (i + 1) := by
    refine List.mem_of_getElem? (i := i) ?_
    rw [List.getElem?_take_of_lt (Nat.lt_succ_self i), hround]
  obtain ⟨signal, hcut⟩ := cut_of_runs hbuilt hmem h hround
    (entered_of_visited? (hlogged _ hlast).1)
  have hprocess := hpasses.process_of_getElem? hround hi
  have hentered : rounds[i].after.process.state = state := by
    rw [hprocess]
    exact Process.state_enterAll_take _ hstate
  refine ⟨rounds[i], signal, hround, hcut, ?_, hprocess⟩
  rw [← hentered, hcut.state]
  exact hbuilt.indexed.node?_of_mem hcut.mem

namespace Cut

variable {round : Round σ} {signal : Signal} {later : List (Round σ)}

/-- The call with the picked signal makes the rounds that follow. -/
theorem advances (hcut : graph.Cut limit round signal later) (hbuilt : graph.Built)
    (hlength : later.length ≤ limit) {target : StateName}
    (htarget : round.node.target? signal = some target) :
    ∃ resumed, graph.Advances limit signal round.after resumed ∧
      resumed.rounds = later ∧ resumed.final = round.after.afterRounds later := by
  have hleads := target?_of_mem hbuilt hcut.mem signal
  rw [← hcut.state] at hleads
  rcases onward_cases hbuilt hcut.mem signal with
    ⟨hnone, _⟩ | ⟨hwait, _⟩ | ⟨next, hnext, hsome, _⟩
  · rw [htarget] at hnone
    contradiction
  · have hlater : later = [] := by
      refine hcut.ended fun next hnext hsome => ?_
      rw [hwait] at hsome
      exact hbuilt.indexed.ne_wait hnext (Option.some.inj hsome).symm
    exact ⟨_, .stayed (hleads.trans hwait), hlater.symm, by rw [hlater]; rfl⟩
  · exact ⟨_, .entered hnext (hleads.trans hsome) (hcut.follows next hnext hsome) hlength,
      rfl, rfl⟩

/-- Without a target the run ended, and the call with the signal is invalid. -/
theorem invalid (hcut : graph.Cut limit round signal later) (hbuilt : graph.Built)
    (hnone : round.node.target? signal = none) :
    later = [] ∧ ∃ resumed, graph.Advances limit signal round.after resumed ∧
      resumed.rounds = [] ∧
      resumed.final =
        { round.after with
          context := round.after.context.recordFailure (invalidMessage signal) none } := by
  refine ⟨hcut.ended fun next _ hsome => ?_, _, .invalid ?_, rfl, rfl⟩
  · rw [hnone] at hsome
    contradiction
  · rw [hcut.state, target?_of_mem hbuilt hcut.mem, hnone]

end Cut

/-! ## A call taken up again -/

theorem call_of_advances (hbuilt : graph.Built) {signal : Signal} {execution : Execution σ}
    {segment : Segment σ} (hattach : graph.attach execution.process = execution.process)
    (h : graph.Advances limit signal execution segment) :
    graph.call limit (some signal) (some execution.process) execution.context execution.host =
      some segment := by
  have hadvance := (advance_eq_some_iff hbuilt).mpr h
  show graph.advance limit signal
    { execution with process := graph.attach execution.process } = some segment
  rw [hattach]
  exact hadvance

/-- A call may be taken up again from any of its visits, with the process and the
context as they stood right after it and the signal that was picked there.  If the
signal leads anywhere, the new call ends as the old one did and makes the
executions, saves and visits that were left.  If it leads nowhere, the old call
had ended there, and the new one moves nothing and fails the context. -/
theorem resumes_at_every_visit (hbuilt : graph.Built) {signal? : Option Signal}
    {process? : Option (Process σ)} {context : Context σ} {host : σ} {segment : Segment σ}
    (hcall : graph.call limit signal? process? context host = some segment)
    {i : Nat} {state : StateName} (hstate : segment.visited[i]? = some state) :
    ∃ round signal node,
      segment.rounds[i]? = some round ∧ graph.node? state = some node ∧ round.node = node ∧
      round.after.process =
        (graph.attach (process?.getD .new)).enterAll (segment.visited.take (i + 1)) ∧
      round.after.context = round.reply.context ∧
      (graph.choose node round.reply.context round.reply.host).1 = .ok signal ∧
      (∀ target, node.target? signal = some target →
        ∃ resumed,
          graph.call limit (some signal) (some round.after.process) round.after.context
            round.after.host = some resumed ∧
          resumed.final = segment.final ∧
          resumed.executed = segment.executed.drop (i + 1) ∧
          resumed.saves = segment.saves.drop (i + 1) ∧
          resumed.visited = segment.visited.drop (i + 1)) ∧
      (node.target? signal = none →
        segment.executed.length = i + 1 ∧ segment.final = round.after ∧
        ∃ resumed,
          graph.call limit (some signal) (some round.after.process) round.after.context
            round.after.host = some resumed ∧
          resumed.executed = [] ∧ resumed.saves = [] ∧
          resumed.final =
            { round.after with
              context := round.after.context.recordFailure
                ("invalid signal: " ++ signal.text) none }) := by
  have hadvances := (advance_eq_some_iff hbuilt).mp hcall
  cases hadvances with
  | stayed | invalid => contradiction
  | @entered entry rounds hmem htarget hruns hlength =>
    have hi : i < (rounds.filterMap Round.visited?).length :=
      (List.getElem?_eq_some_iff.mp hstate).1
    have hpasses := passes_of_runs hruns
    obtain ⟨hlt, hlogged⟩ := hpasses.logged_of_lt hi
    obtain ⟨round, signal, hround, hcut, hnode, hprocess⟩ :=
      cut_at_visit hbuilt hmem hruns hstate
    have hattach : graph.attach round.after.process = round.after.process := by
      rw [hprocess, attach_enterAll]
      exact congrArg (Process.enterAll · _) (attach_attach graph (process?.getD .new))
    have hlater : (rounds.drop (i + 1)).length ≤ limit := by
      rw [List.length_drop]
      omega
    refine ⟨round, signal, round.node, hround, hnode, rfl, hprocess, hcut.context, hcut.choose,
      ?_, ?_⟩
    · intro target htarget
      obtain ⟨resumed, hresumed, hrounds, hfinal⟩ := hcut.advances hbuilt hlater htarget
      refine ⟨resumed, call_of_advances hbuilt hattach hresumed, ?_, ?_, ?_, ?_⟩
      · rw [hfinal]
        exact (afterRounds_of_getElem? hround).symm
      · rw [Segment.executed, hrounds, List.map_drop]
        rfl
      · rw [Segment.saves, hrounds]
        exact (hpasses.saves_drop hi).symm
      · rw [Segment.visited, hrounds]
        exact (filterMap_drop hlt fun round hmem => by rw [(hlogged round hmem).1]; rfl).symm
    · intro hnone
      obtain ⟨hended, resumed, hresumed, hrounds, hfinal⟩ := hcut.invalid hbuilt hnone
      have hlength : rounds.length = i + 1 := by
        rw [List.drop_eq_nil_iff] at hended
        omega
      refine ⟨?_, ?_, resumed, call_of_advances hbuilt hattach hresumed, ?_, ?_, hfinal⟩
      · rw [Segment.executed, List.length_map, hlength]
      · refine (afterRounds_of_getElem? hround).trans ?_
        rw [hended]
        rfl
      · rw [Segment.executed, hrounds]
        rfl
      · rw [Segment.saves, hrounds]
        rfl

/-- The drawing is taken up again after its first draft, for its second. -/
theorem drawing_resumes_at_draft :
    ∃ segment, drawing.call 5 none (some .new) .empty 0 = some segment ∧
      segment.visited = [⟨"draft"⟩, ⟨"draft"⟩] ∧
      ∃ round resumed, segment.rounds[0]? = some round ∧
        drawing.call 5 (some ⟨"again"⟩) (some round.after.process) round.after.context
          round.after.host = some resumed ∧
        resumed.visited = [⟨"draft"⟩] ∧ resumed.final = segment.final := by
  have hcall : drawing.call 5 none (some .new) .empty 0 = some _ := rfl
  obtain ⟨round, signal, node, hround, _, rfl, _, _, hchoose, hresumes, _⟩ :=
    resumes_at_every_visit (i := 0) built_drawing hcall rfl
  obtain rfl := Option.some.inj hround
  obtain rfl : (⟨"again"⟩ : Signal) = signal := Except.ok.inj hchoose
  obtain ⟨resumed, hresumed, hfinal, _, _, hvisited⟩ := hresumes ⟨"draft"⟩ rfl
  exact ⟨_, hcall, rfl, _, resumed, rfl, hresumed, hvisited, hfinal⟩

end Graph

end Workflow
