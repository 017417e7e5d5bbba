import Mathlib.Data.List.Induction
import Mathlib.Data.List.Nodup
import Workflow.Proofs.Definition

/-!
# Which definitions are accepted

A definition is a list of steps.  This module says of the list itself which graph it
defines or what is wrong with it, without the draft that is kept while the steps are taken.

* `registered` is the nodes of a definition, `Directive.Bad` what is wrong with a step
  after those before it, and `Sound` a definition without a bad step.
  `sound_or_first_bad`: any other one has a first bad step.
* `Reference` is what a node refers to, and `Reference.Resolves` says that a definition
  has it, before the node or after it.
* `Draft.Collects` is the draft after sound steps.  `collects_of_sound` carries it from step
  to step, and `define_of_bad`: the first bad step decides the answer.
* `FirstFault` is what is reported, and `WellFormed` what is accepted.  One of the two
  holds (`wellFormed_or_firstFault`), and each decides the answer.
* `define_reports_first_fault` states it all.
-/

namespace Workflow

variable {σ : Type}

/-- The signals of a node stand in byte order. -/
theorem Node.transitions_ascending (node : Node σ) :
    (node.transitions.map (·.1.text)).Pairwise Text.Before := by
  rw [transitions, List.map_map]
  exact node.signals.keys_ascending

namespace Graph

/-! ## Registrations -/

/-- The node that a step registers if nothing speaks against it. -/
def Directive.node? : Directive σ → Option (Node σ)
  | .startNode [] => none
  | .startNode (first :: rest) => some ((Node.new .initial).onAll (first :: rest))
  | .addNode node => some node
  | .failureHandling _ | .options _ | .checkpoint _ | .prepareHook .. | .signalHook .. => none

/-- The nodes of a definition, in the order of registration. -/
def registered (directives : List (Directive σ)) : List (Node σ) :=
  directives.filterMap Directive.node?

/-- The states of a definition, in the order of registration. -/
def registeredStates (directives : List (Directive σ)) : List StateName :=
  (registered directives).map Node.state

/-- Why a node cannot be registered next to nodes of the given states. -/
inductive Rejected (name : String) (taken : List StateName) (node : Node σ) :
    DefinitionError → Prop
  | reserved (hwait : node.state = .wait) : Rejected name taken node (.reservedState .wait)
  | initial (hinitial : node.state = .initial) (htaken : .initial ∈ taken) :
      Rejected name taken node (.multipleInitialNodes name)
  | duplicate (hwait : node.state ≠ .wait) (hinitial : node.state ≠ .initial)
      (htaken : node.state ∈ taken) : Rejected name taken node (.duplicateState node.state)

/-- What is wrong with a step, given the states registered before it. -/
inductive Directive.Bad (name : String) (taken : List StateName) :
    Directive σ → DefinitionError → Prop
  | missingSignals : Bad name taken (.startNode []) (.missingSignals name)
  | node {directive : Directive σ} {node : Node σ} {error : DefinitionError}
      (hnode : directive.node? = some node) (hrejected : Rejected name taken node error) :
      Bad name taken directive error

/-- No step is bad after those before it. -/
def Sound (name : String) (directives : List (Directive σ)) : Prop :=
  ∀ {earlier later : List (Directive σ)} {directive : Directive σ} {error : DefinitionError},
    directives = earlier ++ directive :: later →
      ¬ directive.Bad name (registeredStates earlier) error

section Registrations

variable {name : String} {taken : List StateName} {directives : List (Directive σ)}
  {directive : Directive σ}

theorem registered_concat (directives : List (Directive σ)) (directive : Directive σ) :
    registered (directives ++ [directive]) = registered directives ++ directive.node?.toList := by
  rw [registered, List.filterMap_append]
  cases hnode : directive.node? <;> simp [registered, hnode]

theorem registeredStates_concat (directives : List (Directive σ)) (directive : Directive σ) :
    registeredStates (directives ++ [directive]) =
      registeredStates directives ++ (directive.node?.map Node.state).toList := by
  rw [registeredStates, registered_concat, List.map_append, registeredStates]
  cases directive.node? <;> rfl

theorem not_rejected_iff {node : Node σ} :
    (∀ error, ¬ Rejected name taken node error) ↔ node.state ≠ .wait ∧ node.state ∉ taken := by
  constructor
  · intro h
    have hwait : node.state ≠ .wait := fun hwait => h _ (.reserved hwait)
    refine ⟨hwait, fun htaken => ?_⟩
    by_cases hinitial : node.state = .initial
    · exact h _ (.initial hinitial (hinitial ▸ htaken))
    · exact h _ (.duplicate hwait hinitial htaken)
  · rintro ⟨hwait, hfresh⟩ error hrejected
    cases hrejected with
    | reserved h => exact hwait h
    | initial hinitial htaken => exact hfresh (hinitial ▸ htaken)
    | duplicate _ _ htaken => exact hfresh htaken

theorem not_bad_iff :
    (∀ error, ¬ directive.Bad name taken error) ↔
      directive ≠ .startNode [] ∧
        ∀ node, directive.node? = some node → node.state ≠ .wait ∧ node.state ∉ taken := by
  constructor
  · intro h
    refine ⟨?_, fun node hnode => ?_⟩
    · rintro rfl
      exact h _ .missingSignals
    · exact not_rejected_iff.mp fun error hrejected => h error (.node hnode hrejected)
  · rintro ⟨hstart, hnodes⟩ error hbad
    cases hbad with
    | missingSignals => exact hstart rfl
    | node hnode hrejected => exact not_rejected_iff.mpr (hnodes _ hnode) error hrejected

theorem sound_nil : Sound (σ := σ) name [] := by
  intro earlier later directive error hsplit
  simp at hsplit

theorem sound_concat :
    Sound name (directives ++ [directive]) ↔
      Sound name directives ∧
        ∀ error, ¬ directive.Bad name (registeredStates directives) error := by
  constructor
  · intro h
    refine ⟨?_, fun error => h rfl⟩
    rintro earlier later other error rfl
    exact h (List.append_assoc ..)
  · rintro ⟨hsound, hlast⟩ earlier later other error hsplit
    rcases List.eq_nil_or_concat' later with rfl | ⟨later, last, rfl⟩
    · obtain ⟨rfl, hother⟩ := List.append_inj' hsplit rfl
      obtain rfl := List.singleton_inj.mp hother
      exact hlast error
    · rw [← List.cons_append, ← List.append_assoc] at hsplit
      exact hsound (List.append_inj' hsplit rfl).1

/-- A definition is sound, or it has a first bad step. -/
theorem sound_or_first_bad (name : String) (directives : List (Directive σ)) :
    Sound name directives ∨
      ∃ earlier directive later error, directives = earlier ++ directive :: later ∧
        Sound name earlier ∧ directive.Bad name (registeredStates earlier) error := by
  induction directives using List.reverseRecOn with
  | nil => exact .inl sound_nil
  | append_singleton directives last ih =>
    rcases ih with hsound | ⟨earlier, directive, later, error, rfl, hearlier, hbad⟩
    · by_cases hlast : ∃ error, last.Bad name (registeredStates directives) error
      · obtain ⟨error, hbad⟩ := hlast
        exact .inr ⟨directives, last, [], error, rfl, hsound, hbad⟩
      · exact .inl (sound_concat.mpr ⟨hsound, not_exists.mp hlast⟩)
    · exact .inr ⟨earlier, directive, later ++ [last], error, List.append_assoc .., hearlier, hbad⟩

/-- Soundness without the order of the steps. -/
theorem sound_iff :
    Sound name directives ↔
      (registeredStates directives).Nodup ∧ .wait ∉ registeredStates directives ∧
        .startNode [] ∉ directives := by
  induction directives using List.reverseRecOn with
  | nil => exact ⟨fun _ => ⟨List.nodup_nil, List.not_mem_nil, List.not_mem_nil⟩, fun _ => sound_nil⟩
  | append_singleton directives last ih =>
    rw [sound_concat, ih, not_bad_iff, registeredStates_concat]
    cases hnode : last.node? with
    | none =>
      simp only [Option.map_none, Option.toList_none, List.append_nil, List.mem_append,
        List.mem_singleton, not_or]
      grind
    | some node =>
      have hlast : Directive.startNode [] ≠ last := by
        rintro rfl
        contradiction
      simp only [Option.map_some, Option.toList_some, List.nodup_append, List.mem_append,
        List.mem_singleton, not_or]
      grind

end Registrations

/-! ## References -/

/-- Something that a node refers to. -/
inductive Reference
  /-- A signal leads to a target. -/
  | transition (origin : StateName) (signal : Signal) (target : StateName)
  /-- A prepare hook by its name. -/
  | prepareHook (state : StateName) (hook : String)
  /-- A signal hook by its name. -/
  | signalHook (state : StateName) (hook : String)

namespace Reference

/-- What a reference that leads nowhere is reported as. -/
def error : Reference → DefinitionError
  | .transition origin signal target => .unknownState origin signal target
  | .prepareHook state hook | .signalHook state hook => .unknownHook state hook

/-- The definition has what is referred to.  Where it stands there does not matter, but a
prepare hook is not a signal hook. -/
def Resolves (directives : List (Directive σ)) : Reference → Prop
  | .transition _ _ target => target = .wait ∨ target ∈ registeredStates directives
  | .prepareHook _ hook => ∃ callback, .prepareHook hook callback ∈ directives
  | .signalHook _ hook => ∃ picks, .signalHook hook picks ∈ directives

end Reference

/-- The name of a hook that was not given in place. -/
def hookName? {α : Type} : Option (Hook α) → Option String
  | some (.named hook) => some hook
  | _ => none

/-- What a node refers to: the targets of its signals, in the byte order of the signals,
then its prepare hook, then its signal hook. -/
def nodeReferences (node : Node σ) : List Reference :=
  node.transitions.map (fun transition => .transition node.state transition.1 transition.2) ++
    ((hookName? node.prepare).map (Reference.prepareHook node.state)).toList ++
      ((hookName? node.determine).map (Reference.signalHook node.state)).toList

/-- What the nodes of a definition refer to, in the order of registration. -/
def references (directives : List (Directive σ)) : List Reference :=
  (registered directives).flatMap nodeReferences

/-! ## What is accepted and what is reported -/

/-- What a definition is answered with if it is not accepted. -/
inductive FirstFault (name : String) (directives : List (Directive σ)) : DefinitionError → Prop
  /-- The first bad step, whatever follows it. -/
  | step {earlier later : List (Directive σ)} {directive : Directive σ} {error : DefinitionError}
      (hsplit : directives = earlier ++ directive :: later) (hsound : Sound name earlier)
      (hbad : directive.Bad name (registeredStates earlier) error) :
      FirstFault name directives error
  /-- No step is bad, but none registered the initial node. -/
  | initial (hsound : Sound name directives) (hnone : .initial ∉ registeredStates directives) :
      FirstFault name directives (.missingInitialNode name)
  /-- The first reference that leads nowhere. -/
  | reference {earlier later : List Reference} {reference : Reference}
      (hsound : Sound name directives) (hinitial : .initial ∈ registeredStates directives)
      (hsplit : references directives = earlier ++ reference :: later)
      (hearlier : ∀ before ∈ earlier, before.Resolves directives)
      (hdangles : ¬ reference.Resolves directives) :
      FirstFault name directives reference.error

/-- What is right about a definition that is accepted. -/
structure WellFormed (directives : List (Directive σ)) : Prop where
  nodup : (registeredStates directives).Nodup
  wait : .wait ∉ registeredStates directives
  initial : (registeredStates directives).count .initial = 1
  startNode : .startNode [] ∉ directives
  resolves : ∀ reference ∈ references directives, reference.Resolves directives

/-! ## The check of a node -/

/-- What is reported of a reference when the registrations are known. -/
def fault? (graph : Graph σ) : Reference → Option DefinitionError
  | .transition origin signal target => graph.dangling? origin (signal, target)
  | .prepareHook state hook =>
    unregistered? graph.prepareHooks state (some (.named hook : Hook (Callback σ)))
  | .signalHook state hook =>
    unregistered? graph.signalHooks state (some (.named hook : Hook (SignalHook σ)))

theorem unregistered?_eq {α : Type} (registry : Table α) (state : StateName)
    (hook : Option (Hook α)) :
    unregistered? registry state hook =
      (hookName? hook).bind fun name => unregistered? registry state (some (.named name : Hook α)) := by
  cases hook with
  | none => rfl
  | some hook => cases hook <;> rfl

theorem defect?_eq (graph : Graph σ) (node : Node σ) :
    graph.defect? node = (nodeReferences node).findSome? graph.fault? := by
  rw [defect?, nodeReferences, List.append_assoc, List.findSome?_append, List.findSome?_append,
    List.findSome?_map, unregistered?_eq _ _ node.prepare, unregistered?_eq _ _ node.determine]
  congr 2
  · cases hookName? node.prepare with
    | none => rfl
    | some hook => simp [fault?]
  · cases hookName? node.determine with
    | none => rfl
    | some hook => simp [fault?]

theorem findSome?_defect? (graph : Graph σ) (directives : List (Directive σ)) :
    (registered directives).findSome? graph.defect? =
      (references directives).findSome? graph.fault? := by
  rw [references]
  induction registered directives with
  | nil => rfl
  | cons node rest ih =>
    rw [List.findSome?_cons, ih, List.flatMap_cons, List.findSome?_append, defect?_eq]
    cases (nodeReferences node).findSome? graph.fault? <;> rfl

/-! ## The draft of a sound definition -/

namespace Draft

variable {name : String} {directives : List (Directive σ)} {directive : Directive σ}
  {draft : Draft σ}

/-- What a draft holds after the given steps, if none of them was bad. -/
structure Collects (draft : Draft σ) (name : String) (directives : List (Directive σ)) :
    Prop where
  name : draft.name = name
  error : draft.error = none
  nodes : draft.nodes = registered directives
  indexed : draft.Indexed
  prepareHooks : ∀ hook, draft.prepareHooks.contains hook ↔
    ∃ callback, .prepareHook hook callback ∈ directives
  signalHooks : ∀ hook, draft.signalHooks.contains hook ↔
    ∃ picks, .signalHook hook picks ∈ directives

theorem Collects.nodes_map (h : draft.Collects name directives) :
    draft.nodes.map Node.state = registeredStates directives := by
  rw [h.nodes, registeredStates]

theorem collects_new (name : String) :
    (Draft.new name : Draft σ).Collects name [] where
  name := rfl
  error := rfl
  nodes := rfl
  indexed := indexed_new name
  prepareHooks hook := by simp [Draft.new, Table.contains]
  signalHooks hook := by simp [Draft.new, Table.contains]

theorem hasNode_iff_mem (hindexed : draft.Indexed) {state : StateName} :
    draft.hasNode state ↔ state ∈ draft.nodes.map Node.state := by
  rw [hindexed.hasNode_iff, List.mem_map]
  constructor
  · rintro ⟨node, hnode⟩
    exact ⟨node, Indexed.mem_of_node? hnode, hindexed.state_of_node? hnode⟩
  · rintro ⟨node, hmem, rfl⟩
    exact ⟨node, hindexed.node?_of_mem hmem⟩

/-- A rejected node is not registered, and why is noted. -/
theorem addNode_of_rejected (hindexed : draft.Indexed) {node : Node σ} {error : DefinitionError}
    (hrejected : Rejected draft.name (draft.nodes.map Node.state) node error) :
    draft.addNode node = draft.fail error := by
  cases hrejected with
  | reserved hwait =>
    rw [addNode, if_pos (by simp [StateName.isWait, hwait]), hwait]
  | initial hinitial htaken =>
    rw [addNode, hinitial, if_neg (by decide), if_pos ((hasNode_iff_mem hindexed).mpr htaken)]
    rfl
  | duplicate hwait hinitial htaken =>
    rw [addNode, if_neg (by simp [StateName.isWait, hwait]),
      if_pos ((hasNode_iff_mem hindexed).mpr htaken), if_neg (by simp [StateName.isInitial, hinitial])]

/-- Any other node is put behind those before it. -/
theorem addNode_of_fresh (hindexed : draft.Indexed) {node : Node σ} (hwait : node.state ≠ .wait)
    (hfresh : node.state ∉ draft.nodes.map Node.state) :
    (draft.addNode node).nodes = draft.nodes ++ [node] ∧
      (draft.addNode node).error = draft.error := by
  rw [← hasNode_iff_mem hindexed] at hfresh
  rw [addNode, if_neg (by simp [StateName.isWait, hwait]), if_neg hfresh]
  exact ⟨rfl, rfl⟩

theorem apply_of_node? {node : Node σ} (hnode : directive.node? = some node) :
    draft.apply directive = draft.addNode node := by
  cases directive with
  | startNode transitions =>
    cases transitions with
    | nil => contradiction
    | cons first rest =>
      obtain rfl := Option.some.inj hnode
      rfl
  | addNode added =>
    obtain rfl := Option.some.inj hnode
    rfl
  | _ => contradiction

/-- A bad step only notes what is wrong. -/
theorem apply_of_bad (hindexed : draft.Indexed) {error : DefinitionError}
    (hbad : directive.Bad draft.name (draft.nodes.map Node.state) error) :
    draft.apply directive = draft.fail error := by
  cases hbad with
  | missingSignals => rfl
  | node hnode hrejected =>
    rw [apply_of_node? hnode]
    exact addNode_of_rejected hindexed hrejected

/-- Any other step registers its node, if it has one. -/
theorem apply_of_not_bad (hindexed : draft.Indexed)
    (hgood : ∀ error, ¬ directive.Bad draft.name (draft.nodes.map Node.state) error) :
    (draft.apply directive).nodes = draft.nodes ++ directive.node?.toList ∧
      (draft.apply directive).error = draft.error := by
  obtain ⟨hstart, hnodes⟩ := not_bad_iff.mp hgood
  cases hnode : directive.node? with
  | some node =>
    obtain ⟨hwait, hfresh⟩ := hnodes node hnode
    rw [apply_of_node? hnode]
    exact addNode_of_fresh hindexed hwait hfresh
  | none =>
    rw [Option.toList_none, List.append_nil]
    cases directive with
    | startNode transitions =>
      cases transitions with
      | nil => exact absurd rfl hstart
      | cons => contradiction
    | addNode => contradiction
    | _ => exact ⟨rfl, rfl⟩

/-- Registering a node leaves the name and the hooks of the draft alone. -/
theorem addNode_keeps (draft : Draft σ) (node : Node σ) :
    (draft.addNode node).name = draft.name ∧
      (draft.addNode node).prepareHooks = draft.prepareHooks ∧
      (draft.addNode node).signalHooks = draft.signalHooks := by
  unfold addNode
  split
  · exact ⟨rfl, rfl, rfl⟩
  · split <;> exact ⟨rfl, rfl, rfl⟩

/-- The registries after a step. -/
theorem apply_hooks (draft : Draft σ) (directive : Directive σ) :
    (draft.apply directive).name = draft.name ∧
      (∀ hook, (draft.apply directive).prepareHooks.contains hook ↔
        draft.prepareHooks.contains hook ∨ ∃ callback, .prepareHook hook callback = directive) ∧
      ∀ hook, (draft.apply directive).signalHooks.contains hook ↔
        draft.signalHooks.contains hook ∨ ∃ picks, .signalHook hook picks = directive := by
  cases hnode : directive.node? with
  | some node =>
    obtain ⟨hname, hprepare, hsignal⟩ := addNode_keeps draft node
    rw [apply_of_node? hnode, hname, hprepare, hsignal]
    refine ⟨rfl, fun hook => ?_, fun hook => ?_⟩
    · simp only [iff_self_or]
      rintro ⟨callback, rfl⟩
      contradiction
    · simp only [iff_self_or]
      rintro ⟨picks, rfl⟩
      contradiction
  | none =>
    cases directive with
    | startNode transitions =>
      cases transitions with
      | nil => simp [apply, startNode, fail]
      | cons => contradiction
    | addNode => contradiction
    | prepareHook name callback =>
      refine ⟨rfl, fun hook => (Table.contains_insert ..).trans ?_, fun hook => ?_⟩
      · simp only [Directive.prepareHook.injEq, exists_and_left, exists_eq, and_true]
        rw [or_comm, @eq_comm _ name]
      · simp [apply]
    | signalHook name picks =>
      refine ⟨rfl, fun hook => ?_, fun hook => (Table.contains_insert ..).trans ?_⟩
      · simp [apply]
      · simp only [Directive.signalHook.injEq, exists_and_left, exists_eq, and_true]
        rw [or_comm, @eq_comm _ name]
    | _ => simp [apply]

theorem collects_apply (h : draft.Collects name directives)
    (hgood : ∀ error, ¬ directive.Bad name (registeredStates directives) error) :
    (draft.apply directive).Collects name (directives ++ [directive]) := by
  rw [← h.name, ← h.nodes_map] at hgood
  obtain ⟨hnodes, herror⟩ := apply_of_not_bad h.indexed hgood
  obtain ⟨hname, hprepare, hsignal⟩ := apply_hooks draft directive
  constructor
  · rw [hname, h.name]
  · rw [herror, h.error]
  · rw [hnodes, h.nodes, registered_concat]
  · exact indexed_apply h.indexed directive
  · intro hook
    simp only [hprepare, h.prepareHooks, List.mem_append, List.mem_singleton, exists_or]
  · intro hook
    simp only [hsignal, h.signalHooks, List.mem_append, List.mem_singleton, exists_or]

theorem collects_of_sound (hsound : Sound name directives) :
    (directives.foldl Draft.apply (Draft.new name)).Collects name directives := by
  induction directives using List.reverseRecOn with
  | nil => exact collects_new name
  | append_singleton directives last ih =>
    obtain ⟨hearlier, hlast⟩ := sound_concat.mp hsound
    rw [List.foldl_concat]
    exact collects_apply (ih hearlier) hlast

/-- The first error is held, whatever follows. -/
theorem error_apply {error : DefinitionError} (herror : draft.error = some error)
    (directive : Directive σ) : (draft.apply directive).error = some error := by
  have hfail : ∀ later, (draft.fail later).error = some error := by
    intro later
    rw [fail, herror, Option.some_or]
  have hadd : ∀ node, (draft.addNode node).error = some error := by
    intro node
    unfold addNode
    split
    · exact hfail _
    · split
      · exact hfail _
      · exact herror
  cases directive with
  | startNode transitions =>
    simp only [apply, startNode]
    split
    · exact hfail _
    · exact hadd _
  | addNode node => exact hadd node
  | _ => exact herror

theorem error_foldl {error : DefinitionError} (herror : draft.error = some error)
    (directives : List (Directive σ)) :
    (directives.foldl Draft.apply draft).error = some error := by
  induction directives generalizing draft with
  | nil => exact herror
  | cons directive rest ih => exact ih (error_apply herror directive)

/-- The first bad step decides the answer. -/
theorem define_of_bad {earlier : List (Directive σ)} {error : DefinitionError}
    (hsound : Sound name earlier) (hbad : directive.Bad name (registeredStates earlier) error)
    (later : List (Directive σ)) :
    define name (earlier ++ directive :: later) = .error error := by
  have hcollects := collects_of_sound hsound
  rw [← hcollects.name, ← hcollects.nodes_map] at hbad
  have herror : ((earlier ++ directive :: later).foldl Draft.apply (Draft.new name)).error =
      some error := by
    rw [List.foldl_append, List.foldl_cons, apply_of_bad hcollects.indexed hbad]
    refine error_foldl ?_ later
    rw [fail, hcollects.error]
    rfl
  rw [define, build, herror]

/-! ## Building it -/

theorem length_filter_isInitial (nodes : List (Node σ)) :
    (nodes.filter (·.state.isInitial)).length = (nodes.map Node.state).count .initial := by
  rw [List.count_eq_countP, List.countP_map, List.countP_eq_length_filter]
  congr 2

namespace Collects

/-- The draft knows of a reference whether the definition has what it leads to. -/
theorem fault?_eq (h : draft.Collects name directives) (reference : Reference) :
    (reference.Resolves directives ∧ draft.fault? reference = none) ∨
      (¬ reference.Resolves directives ∧ draft.fault? reference = some reference.error) := by
  cases reference with
  | transition origin signal target =>
    have hknown : (target.isWait || draft.hasNode target) ↔
        (Reference.transition origin signal target).Resolves directives := by
      rw [Bool.or_eq_true, hasNode_iff_mem h.indexed, h.nodes_map]
      simp [Reference.Resolves, StateName.isWait]
    by_cases hresolves : (Reference.transition origin signal target).Resolves directives
    · exact .inl ⟨hresolves, if_pos (hknown.mpr hresolves)⟩
    · exact .inr ⟨hresolves, if_neg fun hk => hresolves (hknown.mp hk)⟩
  | prepareHook state hook =>
    by_cases hresolves : (Reference.prepareHook state hook).Resolves directives
    · exact .inl ⟨hresolves, if_pos ((h.prepareHooks hook).mpr hresolves)⟩
    · exact .inr ⟨hresolves, if_neg fun hk => hresolves ((h.prepareHooks hook).mp hk)⟩
  | signalHook state hook =>
    by_cases hresolves : (Reference.signalHook state hook).Resolves directives
    · exact .inl ⟨hresolves, if_pos ((h.signalHooks hook).mpr hresolves)⟩
    · exact .inr ⟨hresolves, if_neg fun hk => hresolves ((h.signalHooks hook).mp hk)⟩

theorem fault?_eq_none_iff (h : draft.Collects name directives) {reference : Reference} :
    draft.fault? reference = none ↔ reference.Resolves directives := by
  rcases h.fault?_eq reference with ⟨hresolves, hnone⟩ | ⟨hdangles, hsome⟩
  · exact iff_of_true hnone hresolves
  · exact iff_of_false (by simp [hsome]) hdangles

theorem fault?_of_not_resolves (h : draft.Collects name directives) {reference : Reference}
    (hdangles : ¬ reference.Resolves directives) :
    draft.fault? reference = some reference.error := by
  rcases h.fault?_eq reference with ⟨hresolves, _⟩ | ⟨_, hsome⟩
  · exact absurd hresolves hdangles
  · exact hsome

/-- How many initial nodes the draft counts. -/
theorem length_initial (h : draft.Collects name directives) :
    (draft.nodes.filter (·.state.isInitial)).length =
      (registeredStates directives).count .initial := by
  rw [length_filter_isInitial, h.nodes_map]

theorem build_of_no_initial (h : draft.Collects name directives)
    (hnone : .initial ∉ registeredStates directives) :
    draft.build = .error (.missingInitialNode name) := by
  simp only [build, h.error, h.length_initial, List.count_eq_zero.mpr hnone, h.name]

/-- With one initial node the references decide. -/
theorem build_of_initial (h : draft.Collects name directives)
    (hinitial : (registeredStates directives).count .initial = 1) :
    draft.build =
      match (references directives).findSome? draft.fault? with
      | some error => .error error
      | none => .ok draft.toGraph := by
  have hfirst : draft.nodes.findSome? draft.toGraph.defect? =
      (references directives).findSome? draft.fault? := by
    rw [h.nodes, findSome?_defect?]
  cases hfault : (references directives).findSome? draft.fault? with
  | none => simp only [build, h.error, h.length_initial, hinitial, hfirst, hfault]
  | some error => simp only [build, h.error, h.length_initial, hinitial, hfirst, hfault]

end Collects

end Draft

/-! ## The answer to a definition -/

section Answer

variable {name : String} {directives : List (Directive σ)} {error : DefinitionError}

theorem count_initial (hsound : Sound name directives)
    (hinitial : .initial ∈ registeredStates directives) :
    (registeredStates directives).count .initial = 1 :=
  List.count_eq_one_of_mem (sound_iff.mp hsound).1 hinitial

theorem define_of_firstFault (h : FirstFault name directives error) :
    define name directives = .error error := by
  cases h with
  | step hsplit hsound hbad => exact hsplit ▸ Draft.define_of_bad hsound hbad _
  | initial hsound hnone => exact (Draft.collects_of_sound hsound).build_of_no_initial hnone
  | @reference earlier later reference hsound hinitial hsplit hearlier hdangles =>
    have hcollects := Draft.collects_of_sound hsound
    rw [define, hcollects.build_of_initial (count_initial hsound hinitial)]
    have hfirst := List.findSome?_eq_some_iff.mpr
      ⟨earlier, reference, later, hsplit, hcollects.fault?_of_not_resolves hdangles,
        fun before hbefore => hcollects.fault?_eq_none_iff.mpr (hearlier before hbefore)⟩
    rw [hfirst]

theorem define_of_wellFormed (name : String) (h : WellFormed directives) :
    ∃ graph, define name directives = .ok graph ∧ graph.name = name ∧
      graph.nodes = registered directives := by
  have hcollects : (directives.foldl Draft.apply (Draft.new name)).Collects name directives :=
    Draft.collects_of_sound (sound_iff.mpr ⟨h.nodup, h.wait, h.startNode⟩)
  refine ⟨_, ?_, hcollects.name, hcollects.nodes⟩
  rw [define, hcollects.build_of_initial h.initial]
  have hnone := List.findSome?_eq_none_iff.mpr fun reference hmem =>
    hcollects.fault?_eq_none_iff.mpr (h.resolves reference hmem)
  rw [hnone]

/-- A definition is well-formed, or there is a first thing wrong with it. -/
theorem wellFormed_or_firstFault (name : String) (directives : List (Directive σ)) :
    WellFormed directives ∨ ∃ error, FirstFault name directives error := by
  rcases sound_or_first_bad name directives with
    hsound | ⟨earlier, directive, later, error, hsplit, hsound, hbad⟩
  · by_cases hinitial : .initial ∈ registeredStates directives
    · have hcollects := Draft.collects_of_sound hsound
      cases hfirst : (references directives).findSome?
          (directives.foldl Draft.apply (Draft.new name)).fault? with
      | none =>
        obtain ⟨hnodup, hwait, hstart⟩ := sound_iff.mp hsound
        refine .inl ⟨hnodup, hwait, count_initial hsound hinitial, hstart, fun reference hmem => ?_⟩
        exact hcollects.fault?_eq_none_iff.mp (List.findSome?_eq_none_iff.mp hfirst reference hmem)
      | some error =>
        obtain ⟨earlier, reference, later, hsplit, hfault, hearlier⟩ :=
          List.findSome?_eq_some_iff.mp hfirst
        refine .inr ⟨_, .reference hsound hinitial hsplit
          (fun before hbefore => hcollects.fault?_eq_none_iff.mp (hearlier before hbefore)) ?_⟩
        intro hresolves
        rw [hcollects.fault?_eq_none_iff.mpr hresolves] at hfault
        contradiction
    · exact .inr ⟨_, .initial hsound hinitial⟩
  · exact .inr ⟨error, .step hsplit hsound hbad⟩

/-- The answer to a definition, whatever steps it takes and in whatever order.  It is an
error if and only if that is the first thing wrong with the definition, and a graph if and
only if the definition is well-formed.  The graph then has the registered nodes, each with
its signals in byte order. -/
theorem define_reports_first_fault (name : String) (directives : List (Directive σ)) :
    (∀ error, define name directives = .error error ↔ FirstFault name directives error) ∧
      ((∃ graph, define name directives = .ok graph) ↔ WellFormed directives) ∧
      ∀ graph, define name directives = .ok graph →
        graph.name = name ∧ graph.nodes = registered directives ∧
          ∀ node ∈ graph.nodes,
            (node.transitions.map (·.1.text)).Pairwise Text.Before := by
  have hwellFormed : (∃ graph, define name directives = .ok graph) → WellFormed directives := by
    rintro ⟨graph, hgraph⟩
    refine (wellFormed_or_firstFault name directives).resolve_right ?_
    rintro ⟨error, h⟩
    rw [define_of_firstFault h] at hgraph
    contradiction
  refine ⟨fun error => ⟨fun herror => ?_, define_of_firstFault⟩,
    ⟨hwellFormed, fun h => (define_of_wellFormed name h).imp fun _ => And.left⟩, ?_⟩
  · rcases wellFormed_or_firstFault name directives with h | ⟨first, h⟩
    · obtain ⟨graph, hgraph, _⟩ := define_of_wellFormed name h
      rw [hgraph] at herror
      contradiction
    · have hfirst := define_of_firstFault h
      rw [herror] at hfirst
      exact Except.error.inj hfirst ▸ h
  · intro graph hgraph
    obtain ⟨built, hbuilt, hname, hnodes⟩ := define_of_wellFormed name (hwellFormed ⟨graph, hgraph⟩)
    obtain rfl := Except.ok.inj (hgraph.symm.trans hbuilt)
    exact ⟨hname, hnodes, fun node _ => node.transitions_ascending⟩

/-- A node that is registered twice is reported before a target that no node has. -/
example :
    (define "Order"
      [ .startNode [(.proceed, ⟨"paid"⟩)], .addNode ((Node.new ⟨"paid"⟩).on .proceed ⟨"shipped"⟩)
      , .addNode (.new ⟨"paid"⟩) ] : Except DefinitionError (Graph Unit)) =
      .error (.duplicateState ⟨"paid"⟩) := rfl

end Answer

end Graph

end Workflow
