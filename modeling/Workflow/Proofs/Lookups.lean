import Workflow.Proofs.Rollback
import Workflow.Proofs.Trails
import Workflow.Subgraph

/-!
# Look-ups in a run

A run looks up nodes by their states and hooks by their names.  On a built graph it finds
every one of them.

* `Dispatches` is what a hook slot of a node stands for: the hook given in place, or the one
  registered under its name.  `exists_dispatches`: a slot that the definition was checked for
  stands for something.
* `Graph.Equipped` says that all look-ups for a node succeed, and `equipped_of_mem` that
  they do for every node of a built graph.
* `Graph.Selects` are the nodes that a call comes to, and `selects_of_mem_trail` says that it
  executes no others.
* `Round.Located` says that a round made no failed look-up.  `located_of_ending` is one
  round, and `never_lost` a whole call.
-/

namespace Workflow

variable {σ : Type}

/-- What a hook slot stands for, with what is done when it is empty. -/
inductive Dispatches {α : Type} (registry : Table α) (default : α) : Option (Hook α) → α → Prop
  | empty : Dispatches registry default none default
  | inline {hook : α} : Dispatches registry default (some (.inline hook)) hook
  | named {name : String} {hook : α} (hget : registry.get? name = some hook) :
      Dispatches registry default (some (.named name)) hook

/-- Without a hook the run proceeds. -/
def SignalHook.proceed : SignalHook σ := fun _ host => (.proceed, host)

namespace Graph

variable {graph : Graph σ} {node : Node σ}

theorem exists_dispatches {α : Type} {registry : Table α} {state : StateName}
    {slot : Option (Hook α)} (default : α) (h : unregistered? registry state slot = none) :
    ∃ hook, Dispatches registry default slot hook := by
  match slot, h with
  | none, _ => exact ⟨default, .empty⟩
  | some (.inline hook), _ => exact ⟨hook, .inline⟩
  | some (.named name), h =>
    obtain ⟨hook, hget⟩ := exists_get?_of_registered h
    exact ⟨hook, .named hget⟩

theorem attempt_of_dispatches {prepare : Callback σ}
    (h : Dispatches graph.prepareHooks .skip node.prepare prepare) :
    graph.attempt node = prepare.andThen node.work := by
  unfold attempt
  generalize node.prepare = slot at h ⊢
  cases h with
  | empty => exact (Callback.skip_andThen node.work).symm
  | inline => rfl
  | named hget => simp only [prepareHook, hget]

theorem choose_of_dispatches {determine : SignalHook σ}
    (h : Dispatches graph.signalHooks .proceed node.determine determine) (context : Context σ)
    (host : σ) : graph.choose node context host = (determine context host).map .ok id := by
  unfold choose
  generalize node.determine = slot at h ⊢
  cases h with
  | empty => rfl
  | inline => rfl
  | named hget => simp only [hget]

/-! ## Nodes -/

/-- All that is looked up for a node is there: the node itself, its hooks, and the nodes to
which its signals lead, whichever of them is picked. -/
structure Equipped (graph : Graph σ) (node : Node σ) : Prop where
  found : graph.node? node.state = some node
  prepare : ∃ prepare, Dispatches graph.prepareHooks .skip node.prepare prepare ∧
    graph.attempt node = prepare.andThen node.work
  determine : ∃ determine, Dispatches graph.signalHooks .proceed node.determine determine ∧
    ∀ context host, graph.choose node context host = (determine context host).map .ok id
  target : ∀ {signal : Signal} {target : StateName}, node.target? signal = some target →
    target ≠ .wait → ∃ next, graph.node? target = some next ∧ next.state = target ∧
      graph.onward node signal = .moved signal next

theorem equipped_of_mem (hbuilt : graph.Built) (hmem : node ∈ graph.nodes) :
    graph.Equipped node := by
  have hdefect := hbuilt.defect?_eq_none hmem
  unfold defect? at hdefect
  obtain ⟨_, hhooks⟩ := Option.or_eq_none_iff.mp hdefect
  obtain ⟨hprepare, hdetermine⟩ := Option.or_eq_none_iff.mp hhooks
  obtain ⟨prepare, hprepare⟩ := exists_dispatches .skip hprepare
  obtain ⟨determine, hdetermine⟩ := exists_dispatches .proceed hdetermine
  refine ⟨hbuilt.indexed.node?_of_mem hmem, ⟨prepare, hprepare, attempt_of_dispatches hprepare⟩,
    ⟨determine, hdetermine, choose_of_dispatches hdetermine⟩, fun {signal target} htarget hwait => ?_⟩
  obtain ⟨next, hnext, rfl⟩ := hbuilt.node?_of_target? hmem htarget hwait
  exact ⟨next, hnext, rfl, onward_of_mem hbuilt (Indexed.mem_of_node? hnext) htarget⟩

end Graph

/-! ## Rounds -/

/-- The round found the hooks of its node and the node to which it leads: it was broken off
by the fault of its work only, its signal is the one that was picked, and if it entered its
state the signal led on as the transitions of the node say, and not to a state without a
node. -/
structure Round.Located (graph : Graph σ) (limit : Nat) (round : Round σ) : Prop where
  interrupted : ∀ {interrupt : Interrupt}, round.conclusion = .interrupted interrupt →
    ∃ context host fault, (graph.attempt round.node).run limit context host = some round.reply ∧
      round.reply.result = .error fault ∧ interrupt = fault.interrupt
  picked : ∀ {signal : Signal}, round.conclusion.signal? = some signal →
    ∃ host, graph.choose round.node round.reply.context round.reply.host = (.ok signal, host)
  entered : ∀ {signal : Signal}, round.conclusion.signal? = some signal →
    round.conclusion.entered → round.conclusion = graph.onward round.node signal
  found : ∀ {signal : Signal} {fault : Fault}, round.conclusion ≠ .lost signal fault

namespace Graph

variable {graph : Graph σ} {limit : Nat} {node : Node σ} {signal : Signal} {start : Execution σ}
  {round : Round σ}

/-- What breaks a round off is the fault of its work. -/
theorem error_of_interrupt? {result : Except Fault Unit} {interrupt : Interrupt}
    (h : graph.interrupt? result = some interrupt) :
    ∃ fault, result = .error fault ∧ interrupt = fault.interrupt := by
  unfold interrupt? at h
  split at h
  · contradiction
  · rename_i fault
    refine ⟨fault, rfl, ?_⟩
    split at h
    · rename_i halt hhalt
      rw [Option.ite_none_left_eq_some] at h
      rw [hhalt, Option.some.inj h.2]
    · rename_i other hother
      rw [hother, Option.some.inj h]

theorem signal?_onward (graph : Graph σ) (node : Node σ) (signal : Signal) :
    (graph.onward node signal).signal? = some signal := by
  unfold onward
  split
  · rfl
  · split
    · rfl
    · split <;> rfl

theorem located_of_ending (hbuilt : graph.Built) (hmem : round.node ∈ graph.nodes)
    (hrun : (graph.attempt round.node).run limit start.context start.host = some round.reply)
    (hending : graph.Ending round.node start.process round.reply round) :
    round.Located graph limit := by
  generalize hnode : round.node = node at hmem hrun hending
  generalize hreply : round.reply = reply at hrun hending
  cases hending with
  | interrupted hwork =>
    obtain ⟨fault, hfault, rfl⟩ := error_of_interrupt? hwork
    refine ⟨fun h => ?_, fun h => (nomatch h), fun h => (nomatch h), fun h => (nomatch h)⟩
    obtain rfl := Conclusion.interrupted.inj h
    exact ⟨_, _, fault, hrun, hfault, rfl⟩
  | failed _ hchoose | refused _ hchoose =>
    refine ⟨fun h => (nomatch h), fun h => ?_, fun _ h => (nomatch h), fun h => (nomatch h)⟩
    obtain rfl := Option.some.inj h
    exact ⟨_, hchoose⟩
  | entered haccepts =>
    -- Only here the run goes on to the target of the signal, and that is a node or pauses.
    rename_i picked host
    have hpicked : (graph.accept node start.process reply picked host).conclusion.signal? =
      some picked := signal?_onward graph node picked
    refine ⟨fun h => ?_, fun h => ?_, fun h _ => ?_, fun h => ?_⟩
    · rw [h] at hpicked
      contradiction
    · obtain rfl := Option.some.inj (hpicked.symm.trans h)
      exact ⟨host, haccepts.choose⟩
    · obtain rfl := Option.some.inj (hpicked.symm.trans h)
      rfl
    · rcases onward_cases hbuilt hmem picked with ⟨_, honward⟩ | ⟨_, honward⟩ | ⟨_, _, _, honward⟩
      all_goals exact nomatch honward.symm.trans h

/-! ## Calls -/

/-- A call comes to a node: its signal leads there, or one of its rounds does. -/
inductive Selects (graph : Graph σ) (limit : Nat) (signal : Signal) (start : Execution σ) :
    Node σ → Prop
  | first {node : Node σ} (hroute : graph.route start.process.state signal = .enter node) :
      Selects graph limit signal start node
  | next {node : Node σ} {round : Round σ}
      (hround : round ∈ (graph.trail limit signal start).rounds)
      (hnext : round.conclusion.next? = some node) : Selects graph limit signal start node

theorem selects_of_mem_trail (hbuilt : graph.Built)
    (h : round ∈ (graph.trail limit signal start).rounds) :
    graph.Selects limit signal start round.node := by
  obtain ⟨_, _, hroute | ⟨earlier, hearlier, hnext⟩⟩ := round_of_mem_trail hbuilt h
  · exact .first hroute
  · exact .next hearlier hnext

/-- The nodes that a call comes to are nodes of the graph. -/
theorem mem_nodes_of_selects (hbuilt : graph.Built)
    (h : graph.Selects limit signal start node) : node ∈ graph.nodes := by
  cases h with
  | first hroute => exact mem_nodes_of_route hbuilt hroute
  | next hround hnext =>
    obtain ⟨hmem, ⟨reached, hround⟩, _⟩ := round_of_mem_trail hbuilt hround
    exact mem_nodes_of_next? hbuilt hmem hround hnext

/-- A call on a built graph finds all that it looks up, wherever it starts and whatever the
callbacks do: the call may be the first or a later one, its process may stand at a state
that has no node, and it need not have ended.  The target of its signal, unless it pauses,
has a node of that very name, and so has the target of every signal that a node it comes to
may pick.  The hooks that these nodes name are registered.  So no round is broken off but
by its own work, and none leads to a state without a node. -/
theorem never_lost (hbuilt : graph.Built) (limit : Nat) (signal : Signal) (start : Execution σ) :
    (∀ {target}, graph.target? start.process.state signal = some target → target ≠ .wait →
      ∃ node, graph.node? target = some node ∧ node.state = target ∧
        graph.route start.process.state signal = .enter node) ∧
    (∀ {node}, graph.Selects limit signal start node → graph.Equipped node) ∧
    ∀ round ∈ (graph.trail limit signal start).rounds,
      graph.Selects limit signal start round.node ∧ round.Located graph limit := by
  refine ⟨fun {target} htarget hwait => ?_, fun hselects => ?_, fun round hround => ?_⟩
  · obtain ⟨node, hnode, hsignal⟩ := Option.bind_eq_some_iff.mp htarget
    obtain ⟨next, hnext, rfl⟩ := hbuilt.node?_of_target? (Indexed.mem_of_node? hnode) hsignal hwait
    exact ⟨next, hnext, rfl, route_of_mem hbuilt (Indexed.mem_of_node? hnext) htarget⟩
  · exact equipped_of_mem hbuilt (mem_nodes_of_selects hbuilt hselects)
  · refine ⟨selects_of_mem_trail hbuilt hround, ?_⟩
    obtain ⟨hmem, ⟨reached, hround⟩, _⟩ := round_of_mem_trail hbuilt hround
    obtain ⟨reply, hrun, hending⟩ := (round_eq_some_iff hbuilt hmem).mp hround
    obtain rfl := (node_reply_of_ending hending).2
    exact located_of_ending hbuilt hmem hrun hending

/-! ## A ferry -/

/-- Whoever boards shows a ticket first, and is taken across if the sea is calm. -/
def boarding : Node Bool :=
  .define ⟨"board"⟩
    [ .prepare (.named "ticket"), .determine (.named "weather")
    , .signals [(⟨"calm"⟩, ⟨"cross"⟩), (⟨"storm"⟩, .wait)] ]

def crossing : Node Bool := .new ⟨"cross"⟩

/-- The state of the sea is what the host knows. -/
def weather : SignalHook Bool := fun _ calm => (⟨if calm then "calm" else "storm"⟩, calm)

/-- Both hooks are registered after the node that names them. -/
def ferrySteps : List (Directive Bool) :=
  [ .startNode [(.proceed, ⟨"board"⟩)], .addNode boarding, .addNode crossing
  , .prepareHook "ticket" .skip, .signalHook "weather" weather ]

def ferry : Graph Bool := (define "Ferry" ferrySteps).toOption.getD { name := "" }

theorem built_ferry : ferry.Built := ⟨"Ferry", ferrySteps, rfl⟩

/-- In calm weather the ferry comes to the other side. -/
theorem ferry_crosses :
    ferry.route .initial .proceed = .enter boarding ∧ ferry.Equipped boarding ∧
      ferry.Selects 3 .proceed ⟨.empty, .new, true⟩ crossing ∧ ferry.Equipped crossing ∧
      ∃ rounds, (ferry.trail 3 .proceed ⟨.empty, .new, true⟩).rounds = rounds ∧
        rounds.map Round.state = [⟨"board"⟩, ⟨"cross"⟩] ∧
        ∀ round ∈ rounds, round.Located ferry 3 := by
  obtain ⟨hentry, hequipped, hrounds⟩ :=
    never_lost built_ferry 3 .proceed ⟨.empty, .new, true⟩
  have htarget : ferry.target? .initial .proceed = some ⟨"board"⟩ := rfl
  obtain ⟨node, hnode, _, hroute⟩ := hentry htarget (by decide)
  obtain rfl : boarding = node := Option.some.inj hnode
  have hcrossing : ferry.Selects 3 .proceed ⟨.empty, .new, true⟩ crossing :=
    .next List.mem_cons_self rfl
  exact ⟨hroute, hequipped (.first hroute), hcrossing, hequipped hcrossing, _, rfl, rfl,
    fun round hround => (hrounds round hround).2⟩

end Graph

end Workflow
