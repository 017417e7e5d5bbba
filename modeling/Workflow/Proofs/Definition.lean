import Workflow.Graph.Draft

/-!
# Built graphs

`Graph.Built` says that a graph came out of a definition.  Everything that a run
relies on follows from that.  There are three groups of facts.

* The index and the list of nodes agree.  `Indexed` is the invariant of a draft
  that every directive keeps (`indexed_apply`), also one whose registration is
  bad, so that every graph that is built has it (`Built.indexed`).  `node?` is
  then a look-up by name: `Indexed.state_of_node?`, `Indexed.node?_of_mem`.
* Every target other than the pausing one has a node, and it has the name of the
  target (`Built.node?_of_target?`).
* Every hook that a node names is registered, so picking a signal always gives
  one (`Built.choose_ok`).
-/

namespace Workflow

namespace Graph

variable {σ : Type}

/-- The index leads from a name to the position of the one node with that name,
and no node has the name of the pausing target. -/
structure Indexed (graph : Graph σ) : Prop where
  get?_index_iff : ∀ {name : String} {i : Nat},
    graph.index.get? name = some i ↔
      ∃ node, graph.nodes[i]? = some node ∧ node.state.text = name
  ne_wait : ∀ {node : Node σ}, node ∈ graph.nodes → node.state ≠ .wait

/-- A graph that some definition puts together. -/
def Built (graph : Graph σ) : Prop :=
  ∃ name directives, define name directives = .ok graph

/-- Where a signal leads from a state. -/
def target? (graph : Graph σ) (state : StateName) (signal : Signal) : Option StateName :=
  (graph.node? state).bind (·.target? signal)

/-! ## Looking up nodes -/

namespace Indexed

variable {graph : Graph σ}

theorem state_of_node? (h : graph.Indexed) {state : StateName} {node : Node σ}
    (hnode : graph.node? state = some node) : node.state = state := by
  obtain ⟨i, hi, hget⟩ := Option.bind_eq_some_iff.mp hnode
  obtain ⟨found, hfound, htext⟩ := h.get?_index_iff.mp hi
  rw [hget] at hfound
  obtain rfl := Option.some.inj hfound
  obtain ⟨state⟩ := state
  exact congrArg StateName.mk htext

theorem mem_of_node? {state : StateName} {node : Node σ}
    (hnode : graph.node? state = some node) : node ∈ graph.nodes := by
  obtain ⟨i, _, hget⟩ := Option.bind_eq_some_iff.mp hnode
  exact List.mem_of_getElem? hget

theorem node?_of_mem (h : graph.Indexed) {node : Node σ} (hmem : node ∈ graph.nodes) :
    graph.node? node.state = some node := by
  obtain ⟨i, hi⟩ := List.getElem?_of_mem hmem
  have hindex : graph.index.get? node.state.text = some i :=
    h.get?_index_iff.mpr ⟨node, hi, rfl⟩
  simp only [node?, hindex, Option.bind_some, hi]

theorem ne_wait_of_node? (h : graph.Indexed) {state : StateName} {node : Node σ}
    (hnode : graph.node? state = some node) : state ≠ .wait := by
  rw [← h.state_of_node? hnode]
  exact h.ne_wait (mem_of_node? hnode)

theorem hasNode_iff (h : graph.Indexed) {state : StateName} :
    graph.hasNode state ↔ ∃ node, graph.node? state = some node := by
  unfold hasNode Table.contains node?
  rw [Option.isSome_iff_exists]
  constructor
  · rintro ⟨i, hi⟩
    obtain ⟨node, hnode, _⟩ := h.get?_index_iff.mp hi
    exact ⟨node, by rw [hi]; exact hnode⟩
  · rintro ⟨node, hnode⟩
    obtain ⟨i, hi, _⟩ := Option.bind_eq_some_iff.mp hnode
    exact ⟨i, hi⟩

end Indexed

/-! ## The invariant of a draft -/

/-- A new name at the end of the nodes keeps the index right. -/
theorem Indexed.snoc {graph extended : Graph σ} {node : Node σ} (h : graph.Indexed)
    (hfresh : graph.hasNode node.state = false) (hwait : node.state ≠ .wait)
    (hindex : extended.index = graph.index.insert node.state.text graph.nodes.length)
    (hnodes : extended.nodes = graph.nodes ++ [node]) : extended.Indexed where
  get?_index_iff := by
    intro name i
    rw [hindex, hnodes, Table.get?_insert, List.getElem?_append]
    by_cases hname : node.state.text = name
    · subst hname
      have hnone : ∀ i, graph.index.get? node.state.text ≠ some i := by
        intro i hi
        simp [hasNode, Table.contains, hi] at hfresh
      rw [if_pos rfl]
      constructor
      · intro hi
        obtain rfl := Option.some.inj hi
        exact ⟨node, by simp, rfl⟩
      · rintro ⟨found, hfound, htext⟩
        by_cases hi : i < graph.nodes.length
        · rw [if_pos hi] at hfound
          exact absurd (h.get?_index_iff.mpr ⟨found, hfound, htext⟩) (hnone i)
        · rw [if_neg hi, List.getElem?_singleton] at hfound
          split at hfound
          · rw [show i = graph.nodes.length by omega]
          · contradiction
    · rw [if_neg hname, h.get?_index_iff]
      by_cases hi : i < graph.nodes.length
      · rw [if_pos hi]
      · rw [if_neg hi, List.getElem?_eq_none (by omega), List.getElem?_singleton]
        constructor
        · rintro ⟨_, hnone, _⟩
          simp at hnone
        · rintro ⟨found, hfound, htext⟩
          split at hfound
          · obtain rfl := Option.some.inj hfound
            exact absurd htext hname
          · simp at hfound
  ne_wait := by
    intro found hfound
    rw [hnodes, List.mem_append, List.mem_singleton] at hfound
    rcases hfound with hfound | rfl
    · exact h.ne_wait hfound
    · exact hwait

/-- `Indexed` speaks of the index and the nodes only. -/
theorem Indexed.of_eq {graph other : Graph σ} (h : graph.Indexed)
    (hindex : other.index = graph.index) (hnodes : other.nodes = graph.nodes) :
    other.Indexed where
  get?_index_iff := by rw [hindex, hnodes]; exact h.get?_index_iff
  ne_wait := by rw [hnodes]; exact h.ne_wait

namespace Draft

theorem indexed_new (name : String) : (Draft.new name : Draft σ).Indexed where
  get?_index_iff := by intro name i; simp [Draft.new]
  ne_wait := by intro node hnode; simp [Draft.new] at hnode

theorem indexed_addNode {draft : Draft σ} (h : draft.Indexed) (node : Node σ) :
    (draft.addNode node).Indexed := by
  unfold addNode
  split
  · exact h.of_eq rfl rfl
  · rename_i hwait
    split
    · exact h.of_eq rfl rfl
    · rename_i hfresh
      refine h.snoc (by simpa using hfresh) ?_ rfl rfl
      simpa [StateName.isWait] using hwait

theorem indexed_apply {draft : Draft σ} (h : draft.Indexed) (directive : Directive σ) :
    (draft.apply directive).Indexed := by
  cases directive with
  | startNode transitions =>
    show (draft.startNode transitions).Indexed
    unfold startNode
    split
    · exact h.of_eq rfl rfl
    · exact indexed_addNode h _
  | addNode node => exact indexed_addNode h node
  | failureHandling mode => exact h.of_eq rfl rfl
  | options options => exact h.of_eq rfl rfl
  | checkpoint checkpoint => exact h.of_eq rfl rfl
  | prepareHook name callback => exact h.of_eq rfl rfl
  | signalHook name hook => exact h.of_eq rfl rfl

theorem indexed_foldl {draft : Draft σ} (h : draft.Indexed)
    (directives : List (Directive σ)) : (directives.foldl Draft.apply draft).Indexed := by
  induction directives generalizing draft with
  | nil => exact h
  | cons directive rest ih => exact ih (indexed_apply h directive)

/-- What `build` answers is the draft itself, and none of its nodes has a defect. -/
theorem build_eq_ok {draft : Draft σ} {graph : Graph σ} (h : draft.build = .ok graph) :
    graph = draft.toGraph ∧ draft.nodes.findSome? draft.toGraph.defect? = none := by
  unfold build at h
  split at h
  · contradiction
  · split at h
    · contradiction
    · split at h
      · contradiction
      · rename_i hdefect
        exact ⟨(Except.ok.inj h).symm, hdefect⟩
    · contradiction

theorem exists_initial_of_build {draft : Draft σ} {graph : Graph σ} (h : draft.build = .ok graph) :
    ∃ node ∈ graph.nodes, node.state = .initial := by
  obtain ⟨rfl, _⟩ := build_eq_ok h
  unfold build at h
  split at h
  · contradiction
  · split at h
    · contradiction
    · rename_i hcount
      have hpos : 0 < (draft.nodes.filter (·.state.isInitial)).length := by omega
      obtain ⟨node, hnode⟩ := List.exists_mem_of_length_pos hpos
      obtain ⟨hmem, hinitial⟩ := List.mem_filter.mp hnode
      exact ⟨node, hmem, of_decide_eq_true hinitial⟩
    · contradiction

end Draft

/-! ## What a built graph has -/

theorem exists_get?_of_registered {α : Type} {registry : Table α} {state : StateName}
    {name : String} (h : unregistered? registry state (some (.named name)) = none) :
    ∃ hook, registry.get? name = some hook := by
  cases hget : registry.get? name with
  | none => simp [unregistered?, Table.contains, hget] at h
  | some hook => exact ⟨hook, rfl⟩

namespace Built

variable {graph : Graph σ}

theorem indexed (h : graph.Built) : graph.Indexed := by
  obtain ⟨name, directives, hdefine⟩ := h
  obtain ⟨rfl, _⟩ := Draft.build_eq_ok hdefine
  exact Draft.indexed_foldl (Draft.indexed_new name) directives

theorem defect?_eq_none (h : graph.Built) {node : Node σ} (hmem : node ∈ graph.nodes) :
    graph.defect? node = none := by
  obtain ⟨name, directives, hdefine⟩ := h
  obtain ⟨rfl, hdefects⟩ := Draft.build_eq_ok hdefine
  exact List.findSome?_eq_none_iff.mp hdefects node hmem

theorem exists_initial (h : graph.Built) : ∃ node ∈ graph.nodes, node.state = .initial := by
  obtain ⟨name, directives, hdefine⟩ := h
  exact Draft.exists_initial_of_build hdefine

/-- A target that does not pause has a node, which goes by its name. -/
theorem node?_of_target? (h : graph.Built) {node : Node σ} {signal : Signal}
    {target : StateName} (hmem : node ∈ graph.nodes)
    (htarget : node.target? signal = some target) (hwait : target ≠ .wait) :
    ∃ next, graph.node? target = some next ∧ next.state = target := by
  have hdefect := h.defect?_eq_none hmem
  unfold defect? at hdefect
  have hdangling := List.findSome?_eq_none_iff.mp (Option.or_eq_none_iff.mp hdefect).1
    (signal, target) (Node.mem_transitions_iff.mpr htarget)
  have hhas : graph.hasNode target := by
    cases hhas : graph.hasNode target with
    | true => rfl
    | false => simp [dangling?, StateName.isWait, hwait, hhas] at hdangling
  obtain ⟨next, hnext⟩ := h.indexed.hasNode_iff.mp hhas
  exact ⟨next, hnext, h.indexed.state_of_node? hnext⟩

/-- The hook of a node, if it has one, picks a signal. -/
theorem choose_ok (h : graph.Built) {node : Node σ} (hmem : node ∈ graph.nodes)
    (context : Context σ) (host : σ) :
    ∃ signal after, graph.choose node context host = (.ok signal, after) := by
  have hdefect := h.defect?_eq_none hmem
  unfold defect? at hdefect
  have hhook := (Option.or_eq_none_iff.mp (Option.or_eq_none_iff.mp hdefect).2).2
  unfold choose
  cases hdetermine : node.determine with
  | none => exact ⟨_, _, rfl⟩
  | some hook =>
    cases hook with
    | inline hook => exact ⟨_, _, rfl⟩
    | named name =>
      rw [hdetermine] at hhook
      obtain ⟨hook, hget⟩ := exists_get?_of_registered hhook
      simp only [hget]
      exact ⟨_, _, rfl⟩

end Built

end Graph

end Workflow
