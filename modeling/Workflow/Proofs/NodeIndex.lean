import Mathlib.Data.Finset.Card
import Workflow.Proofs.Validation

/-!
# The index of the nodes

A graph keeps its nodes in a list, and beside it an index that leads from a state to a position.
Whatever steps a definition takes, bad ones among them, the two agree.

* `Indexed.nodup_states`, `Indexed.node?_eq_some_iff` and `Indexed.hasNode_iff_exists` are what
  the agreement means for those who look up nodes.
* `firsts` is the first node of each state.  `Draft.nodes_apply` is what a step does to the list,
  and `Draft.nodes_foldl`: after all steps it holds the first node of each state.
* `Draft.build_eq_multipleInitialNodes_iff`: the count of the initial nodes never finds a second.
* `index_follows_nodes` states it all.
-/

namespace Workflow

namespace Graph

variable {σ : Type}

/-! ## Looking up nodes -/

namespace Indexed

variable {graph : Graph σ}

/-- The index has one position for a state, so no state stands at two. -/
theorem nodup_states (h : graph.Indexed) : (graph.nodes.map Node.state).Nodup := by
  rw [List.nodup_iff_getElem?_ne_getElem?]
  intro i j hlt hlength hsame
  rw [List.length_map] at hlength
  rw [List.getElem?_map, List.getElem?_map, List.getElem?_eq_getElem hlength,
    List.getElem?_eq_getElem (hlt.trans hlength), Option.map_some, Option.map_some,
    Option.some_inj] at hsame
  have hposition : ∀ k (hk : k < graph.nodes.length),
      graph.index.get? graph.nodes[k].state.text = some k := fun k hk =>
    h.get?_index_iff.mpr ⟨_, List.getElem?_eq_getElem hk, rfl⟩
  have hi := hposition i (hlt.trans hlength)
  rw [hsame, hposition j hlength] at hi
  exact hlt.ne' (Option.some.inj hi)

theorem node?_eq_some_iff (h : graph.Indexed) {state : StateName} {node : Node σ} :
    graph.node? state = some node ↔ node ∈ graph.nodes ∧ node.state = state := by
  constructor
  · intro hnode
    exact ⟨mem_of_node? hnode, h.state_of_node? hnode⟩
  · rintro ⟨hmem, rfl⟩
    exact h.node?_of_mem hmem

theorem hasNode_iff_exists (h : graph.Indexed) {state : StateName} :
    graph.hasNode state ↔ ∃ node ∈ graph.nodes, node.state = state := by
  simp only [h.hasNode_iff, h.node?_eq_some_iff]

end Indexed

/-! ## The first node of each state -/

/-- The nodes whose state none before them has. -/
def firsts : List (Node σ) → List (Node σ)
  | [] => []
  | node :: later => node :: (firsts later).filter fun other => other.state ≠ node.state

theorem mem_states_firsts {nodes : List (Node σ)} {state : StateName} :
    state ∈ (firsts nodes).map Node.state ↔ state ∈ nodes.map Node.state := by
  induction nodes with
  | nil => exact Iff.rfl
  | cons node later ih =>
    rw [List.mem_map] at ih
    by_cases hstate : state = node.state
    · simp [firsts, hstate]
    · simp only [firsts, List.map_cons, List.mem_cons, hstate, false_or, ← ih, List.mem_map,
        List.mem_filter, decide_eq_true_eq]
      constructor
      · rintro ⟨other, ⟨hmem, _⟩, hother⟩
        exact ⟨other, hmem, hother⟩
      · rintro ⟨other, hmem, rfl⟩
        exact ⟨other, ⟨hmem, hstate⟩, rfl⟩

theorem firsts_concat (nodes : List (Node σ)) (last : Node σ) :
    firsts (nodes ++ [last]) =
      firsts nodes ++ if last.state ∈ nodes.map Node.state then [] else [last] := by
  induction nodes with
  | nil => simp [firsts]
  | cons node later ih =>
    rw [List.cons_append, firsts, ih, List.filter_append, firsts, List.cons_append]
    by_cases hlast : last.state = node.state
    · split <;> simp [hlast]
    · split <;> simp_all

namespace Draft

variable {draft : Draft σ}

/-- A step adds its node unless the node pauses or the draft has one of its state. -/
theorem nodes_apply (hindexed : draft.Indexed) (directive : Directive σ) :
    (draft.apply directive).nodes = draft.nodes ++ (directive.node?.filter fun node =>
      node.state ≠ .wait ∧ node.state ∉ draft.nodes.map Node.state).toList := by
  -- a node is kept just if its step is not bad, but a bad step need not have a node
  by_cases hbad : ∃ error, directive.Bad draft.name (draft.nodes.map Node.state) error
  · obtain ⟨error, hbad⟩ := hbad
    rw [apply_of_bad hindexed hbad]
    cases hbad with
    | missingSignals => simp [fail, Directive.node?]
    | node hnode hrejected =>
      have hnot := mt not_rejected_iff.mpr fun h => h error hrejected
      rw [hnode, Option.filter_some, if_neg (by simpa using hnot)]
      simp [fail]
  · have hgood := not_exists.mp hbad
    rw [(apply_of_not_bad hindexed hgood).1]
    cases hnode : directive.node? with
    | none => rfl
    | some node =>
      have hkept := (not_bad_iff.mp hgood).2 node hnode
      rw [Option.filter_some, if_pos (decide_eq_true hkept)]

/-- After any steps the draft has the first node that was registered of each state, in the order
of registration.  A node with the name of the pausing target is none of them. -/
theorem nodes_foldl (name : String) (directives : List (Directive σ)) :
    (directives.foldl Draft.apply (Draft.new name)).nodes =
      firsts ((registered directives).filter fun node => node.state ≠ .wait) := by
  induction directives using List.reverseRecOn with
  | nil => rfl
  | append_singleton directives last ih =>
    rw [List.foldl_concat, nodes_apply (indexed_foldl (indexed_new name) directives), ih,
      registered_concat, List.filter_append]
    cases hnode : last.node? with
    | none => simp
    | some node =>
      by_cases hwait : node.state = .wait
      · simp [hwait]
      · have hnodes : [node].filter (fun node => node.state ≠ .wait) = [node] := by simp [hwait]
        rw [Option.toList_some, hnodes, firsts_concat, Option.filter_some]
        simp only [mem_states_firsts, hwait, ne_eq, not_false_eq_true, true_and]
        split <;> simp_all

/-! ## Counting the initial nodes -/

theorem error_of_fault? {graph : Graph σ} {reference : Reference} {error : DefinitionError}
    (hfault : graph.fault? reference = some error) : error = reference.error := by
  cases reference with
  | transition =>
    rw [fault?, dangling?] at hfault
    split at hfault
    · contradiction
    · exact (Option.some.inj hfault).symm
  | prepareHook | signalHook =>
    rw [fault?, unregistered?] at hfault
    split at hfault
    · contradiction
    · exact (Option.some.inj hfault).symm

theorem count_initial_le (hindexed : draft.Indexed) :
    (draft.nodes.filter (·.state.isInitial)).length ≤ 1 := by
  rw [length_filter_isInitial]
  exact List.nodup_iff_count_le_one.mp hindexed.nodup_states _

/-- A second initial node is reported only if it was noted when it was to be registered. -/
theorem build_eq_multipleInitialNodes_iff (hindexed : draft.Indexed) {graph : String} :
    draft.build = .error (.multipleInitialNodes graph) ↔
      draft.error = some (.multipleInitialNodes graph) := by
  cases herror : draft.error with
  | some error => simp [build, herror]
  | none =>
    refine iff_of_false (fun hbuild => ?_) (by simp)
    -- all that is left to report is a missing initial node and what is wrong with a reference
    have hcount := count_initial_le hindexed
    obtain hzero | hone : (draft.nodes.filter (·.state.isInitial)).length = 0 ∨
        (draft.nodes.filter (·.state.isInitial)).length = 1 := by omega
    · simp [build, herror, hzero] at hbuild
    · simp only [build, herror, hone] at hbuild
      split at hbuild
      · rename_i error hdefect
        obtain ⟨node, _, hdefect⟩ := List.exists_of_findSome?_eq_some hdefect
        rw [defect?_eq] at hdefect
        obtain ⟨reference, _, hfault⟩ := List.exists_of_findSome?_eq_some hdefect
        have hreported := (Except.error.inj hbuild).symm.trans (error_of_fault? hfault)
        cases reference <;> contradiction
      · contradiction

end Draft

/-- Whatever steps a definition takes, and at every point of it, the index and the list of nodes
agree.  The index has the position of the one node of each state and nothing else.  The nodes
stand in the order of registration, each state once and the pausing one never.  Counting the
initial nodes in the end cannot reveal a second one.  In a graph that is built a look-up then
finds the node of a state just if there is one, there are as many nodes as states, and one of
them is initial. -/
theorem index_follows_nodes (name : String) (directives : List (Directive σ)) :
    let draft : Draft σ := directives.foldl Draft.apply (Draft.new name)
    (∀ {text : String} {i : Nat}, draft.index.get? text = some i ↔
      ∃ node, draft.nodes[i]? = some node ∧ node.state.text = text) ∧
    draft.nodes = firsts ((registered directives).filter fun node => node.state ≠ .wait) ∧
    (draft.nodes.map Node.state).Nodup ∧ .wait ∉ draft.nodes.map Node.state ∧
    (∀ {graph : String}, draft.build = .error (.multipleInitialNodes graph) ↔
      draft.error = some (.multipleInitialNodes graph)) ∧
    ∀ {graph : Graph σ}, draft.build = .ok graph →
      (∀ {state : StateName} {node : Node σ},
        graph.node? state = some node ↔ node ∈ graph.nodes ∧ node.state = state) ∧
      (∀ {state : StateName}, graph.hasNode state ↔ ∃ node ∈ graph.nodes, node.state = state) ∧
      graph.nodeCount = (graph.nodes.map Node.state).toFinset.card ∧
      (graph.nodes.map Node.state).count .initial = 1 := by
  intro draft
  have hindexed : draft.Indexed := Draft.indexed_foldl (Draft.indexed_new name) directives
  refine ⟨hindexed.get?_index_iff, Draft.nodes_foldl name directives, hindexed.nodup_states, ?wait,
    Draft.build_eq_multipleInitialNodes_iff hindexed, fun {graph} hbuild => ?built⟩
  case wait =>
    rw [List.mem_map]
    rintro ⟨node, hmem, hwait⟩
    exact hindexed.ne_wait hmem hwait
  case built =>
    obtain ⟨initial, hmem, hinitial⟩ := Draft.exists_initial_of_build hbuild
    obtain ⟨rfl, _⟩ := Draft.build_eq_ok hbuild
    refine ⟨hindexed.node?_eq_some_iff, hindexed.hasNode_iff_exists, ?_, ?_⟩
    · rw [List.toFinset_card_of_nodup hindexed.nodup_states, List.length_map, nodeCount]
    · exact List.count_eq_one_of_mem hindexed.nodup_states (hinitial ▸ List.mem_map_of_mem hmem)

/-- A step that is bad leaves no gap. -/
example :
    let draft : Draft Unit :=
      [ .addNode (.new ⟨"oven"⟩), .addNode (.new .wait), .startNode [], .addNode (.new ⟨"oven"⟩)
      , .addNode (.new ⟨"counter"⟩) ].foldl Draft.apply (Draft.new "Bakery")
    draft.nodes.map Node.state = [⟨"oven"⟩, ⟨"counter"⟩] ∧
      draft.index.entries = [("counter", 1), ("oven", 0)] := by decide

end Graph

end Workflow
