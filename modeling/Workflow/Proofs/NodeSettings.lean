import Workflow.Subgraph
import Workflow.Proofs.Validation

/-!
# The settings of a node

A node has a few slots, and every setting writes to one of them, or to two, or to one for each
signal that it maps.  In each slot the last write stays.

* `Node.Slot` names the slots, and `Node.content` is what a node has in one.
* `Setting.writes` is what a setting writes to a slot, and `content_apply` what is there
  afterwards.  `content_define` is the same for all settings of a node.
* `ext_content`: the slots make up the node.  So only the order within a slot matters:
  `define_congr`, and `define_swap` for two settings that share no slot.
* `last_write_stays` states it all.
-/

namespace Workflow

namespace Node

variable {σ : Type}

/-! ## Slots -/

/-- What can be set of a node. -/
inductive Slot
  | operation
  | rollback
  | prepare
  | determine
  /-- Where a signal leads. -/
  | target (signal : Signal)

/-- What a slot can be set to. -/
def Slot.Content (σ : Type) : Slot → Type
  | .operation => Operation σ
  | .rollback => Callback σ
  | .prepare => Hook (Callback σ)
  | .determine => Hook (SignalHook σ)
  | .target _ => StateName

/-- What a slot is set to. -/
def content (node : Node σ) : (slot : Slot) → Option (slot.Content σ)
  | .operation => node.operation
  | .rollback => node.rollback
  | .prepare => node.prepare
  | .determine => node.determine
  | .target signal => node.target? signal

/-- What a setting writes to a slot of the node of a state, one after the other.  A nested graph
is two writes, and one list may map a signal twice. -/
def Setting.writes (state : StateName) : (slot : Slot) → Setting σ → List (slot.Content σ)
  | .operation, .operation callback => [Operation.callable callback]
  | .operation, .command body => [Operation.command body]
  | .operation, .subgraph child =>
    [Operation.callable (Subgraph.forward child state.subgraphKey)]
  | .rollback, .subgraph child => [Subgraph.backward child state.subgraphKey]
  | .rollback, .rollback callback => [callback]
  | .prepare, .prepare hook => [hook]
  | .determine, .determine hook => [hook]
  | .determine, .emit signal => [Hook.inline fun _ host => (signal, host)]
  | .target signal, .on other target => if other = signal then [target] else []
  | .target signal, .signals transitions =>
    (transitions.filter fun transition => transition.1 = signal).map (·.2)
  | _, _ => []

/-- Nodes of one state with the same in every slot are the same. -/
theorem ext_content {node other : Node σ} (hstate : node.state = other.state)
    (hcontent : ∀ slot, node.content slot = other.content slot) : node = other := by
  have hsignals : node.signals = other.signals :=
    Table.ext_get? fun key => hcontent (.target ⟨key⟩)
  have hoperation : node.operation = other.operation := hcontent .operation
  have hrollback : node.rollback = other.rollback := hcontent .rollback
  have hprepare : node.prepare = other.prepare := hcontent .prepare
  have hdetermine : node.determine = other.determine := hcontent .determine
  cases node
  cases other
  simp_all

/-! ## One setting -/

theorem target?_onAll (node : Node σ) (transitions : List (Signal × StateName))
    (signal : Signal) :
    (node.onAll transitions).target? signal =
      ((transitions.filter fun transition => transition.1 = signal).map (·.2)).getLast?.or
        (node.target? signal) := by
  induction transitions generalizing node with
  | nil => rfl
  | cons transition rest ih =>
    -- the head is the first to be mapped, so it counts only if the rest does not map its signal
    rw [onAll, List.foldl_cons]
    refine (ih _).trans ?_
    rw [target?_on]
    by_cases hsignal : transition.1 = signal
    · rw [if_pos hsignal, List.filter_cons_of_pos (by simpa using hsignal), List.map_cons,
        List.getLast?_cons]
      cases List.getLast? _ <;> rfl
    · rw [if_neg hsignal, List.filter_cons_of_neg (by simpa using hsignal)]

/-- Transitions are all that mapping signals changes. -/
theorem onAll_eq (node : Node σ) (transitions : List (Signal × StateName)) :
    node.onAll transitions = { node with signals := (node.onAll transitions).signals } := by
  induction transitions generalizing node with
  | nil => rfl
  | cons transition rest ih => exact ih (node.on transition.1 transition.2)

theorem state_apply (node : Node σ) (setting : Setting σ) :
    (node.apply setting).state = node.state := by
  cases setting with
  | signals transitions => rw [apply, onAll_eq]
  | _ => rfl

/-- The last write of a setting to a slot takes the place of what is there. -/
theorem content_apply (node : Node σ) (setting : Setting σ) (slot : Slot) :
    (node.apply setting).content slot =
      (setting.writes node.state slot).getLast?.or (node.content slot) := by
  cases setting with
  | on other target =>
    cases slot with
    | target signal =>
      refine (target?_on node other signal target).trans ?_
      by_cases hother : other = signal
      · rw [if_pos hother, Setting.writes, if_pos hother]
        rfl
      · rw [if_neg hother, Setting.writes, if_neg hother]
        rfl
    | _ => rfl
  | signals transitions =>
    cases slot with
    | target signal => exact target?_onAll node transitions signal
    | _ =>
      rw [apply, onAll_eq]
      rfl
  | _ => cases slot <;> rfl

/-! ## All settings -/

variable {state : StateName} {settings : List (Setting σ)}

theorem define_concat (state : StateName) (settings : List (Setting σ)) (last : Setting σ) :
    define state (settings ++ [last]) = (define state settings).apply last :=
  List.foldl_concat ..

theorem state_define (state : StateName) (settings : List (Setting σ)) :
    (define state settings).state = state := by
  induction settings using List.reverseRecOn with
  | nil => rfl
  | append_singleton settings last ih => rw [define_concat, state_apply, ih]

/-- A slot has what was written to it last. -/
theorem content_define (state : StateName) (settings : List (Setting σ)) (slot : Slot) :
    (define state settings).content slot = (settings.flatMap (·.writes state slot)).getLast? := by
  induction settings using List.reverseRecOn with
  | nil => cases slot <;> rfl
  | append_singleton settings last ih =>
    rw [define_concat, content_apply, state_define, ih, List.flatMap_append,
      List.flatMap_singleton, List.getLast?_append]

/-- Two ways to define a node give the same one if they write the same to each slot. -/
theorem define_congr {other : List (Setting σ)}
    (hwrites : ∀ slot, other.flatMap (·.writes state slot) =
      settings.flatMap (·.writes state slot)) : define state other = define state settings := by
  refine ext_content (by rw [state_define, state_define]) fun slot => ?_
  rw [content_define, content_define, hwrites]

/-- Settings that share no slot can change places. -/
theorem define_swap {first second : Setting σ}
    (hdisjoint : ∀ slot, first.writes state slot = [] ∨ second.writes state slot = [])
    (earlier later : List (Setting σ)) :
    define state (earlier ++ second :: first :: later) =
      define state (earlier ++ first :: second :: later) := by
  refine define_congr fun slot => ?_
  simp only [List.flatMap_append, List.flatMap_cons]
  rcases hdisjoint slot with hnone | hnone <;> simp [hnone]

/-- What is written to a slot stays there if nothing is written to it later. -/
theorem content_of_last (slot : Slot) {earlier later : List (Setting σ)} {setting : Setting σ}
    {content : slot.Content σ} (hsplit : settings = earlier ++ setting :: later)
    (hwrites : (setting.writes state slot).getLast? = some content)
    (hlater : ∀ other ∈ later, other.writes state slot = []) :
    (define state settings).content slot = some content := by
  have hnone : later.flatMap (·.writes state slot) = [] := List.flatMap_eq_nil_iff.mpr hlater
  rw [content_define, hsplit, List.flatMap_append, List.flatMap_cons, hnone, List.append_nil,
    List.getLast?_append, hwrites, Option.some_or]

theorem mem_signals_iff {signal : Signal} :
    signal ∈ (define state settings).transitions.map (·.1) ↔
      ∃ setting ∈ settings, setting.writes state (.target signal) ≠ [] := by
  have hbound : signal ∈ (define state settings).transitions.map (·.1) ↔
      ((define state settings).content (.target signal)).isSome := by
    rw [List.mem_map, Option.isSome_iff_exists]
    constructor
    · rintro ⟨⟨signal, target⟩, hmem, rfl⟩
      exact ⟨target, mem_transitions_iff.mp hmem⟩
    · rintro ⟨target, htarget⟩
      exact ⟨(signal, target), mem_transitions_iff.mpr htarget, rfl⟩
  rw [hbound, content_define, List.getLast?_isSome]
  simp

/-- What a node has after any settings.  In every slot it is what was written there last; of a
list of transitions that is the later one for a signal.  The signals that were mapped stand in
the table once each, in byte order.  Settings that share no slot can change places, and more: as
long as each slot is written the same, the node is the same.  A nested graph brings its rollback
over one that was set before, and one that is set after it takes its place. -/
theorem last_write_stays (state : StateName) (settings : List (Setting σ)) :
    let node := define state settings
    node.state = state ∧
    (∀ slot, node.content slot = (settings.flatMap (·.writes state slot)).getLast?) ∧
    (node.transitions.map (·.1.text)).Pairwise Text.Before ∧
    (∀ signal, signal ∈ node.transitions.map (·.1) ↔
      ∃ setting ∈ settings, setting.writes state (.target signal) ≠ []) ∧
    (∀ {other : List (Setting σ)},
      (∀ slot, other.flatMap (·.writes state slot) = settings.flatMap (·.writes state slot)) →
        define state other = node) ∧
    (∀ {earlier later : List (Setting σ)} {first second : Setting σ},
      settings = earlier ++ first :: second :: later →
      (∀ slot, first.writes state slot = [] ∨ second.writes state slot = []) →
        define state (earlier ++ second :: first :: later) = node) ∧
    ∀ {earlier later : List (Setting σ)},
      (∀ other ∈ later, other.writes state .rollback = []) →
        (∀ {child : Graph σ}, settings = earlier ++ .subgraph child :: later →
          node.rollback = some (Subgraph.backward child state.subgraphKey)) ∧
        ∀ {callback : Callback σ}, settings = earlier ++ .rollback callback :: later →
          node.rollback = some callback := by
  refine ⟨state_define state settings, content_define state settings,
    transitions_ascending _, fun _ => mem_signals_iff, define_congr, ?_, ?_⟩
  · rintro earlier later first second rfl hdisjoint
    exact define_swap hdisjoint earlier later
  · intro earlier later hlater
    exact ⟨fun hsplit => content_of_last .rollback hsplit rfl hlater,
      fun hsplit => content_of_last .rollback hsplit rfl hlater⟩

/-- The later of two targets counts, and a table does not tell in which order it was written. -/
example :
    (define ⟨"kettle"⟩
      [ .on ⟨"hot"⟩ ⟨"boil"⟩, .emit ⟨"cold"⟩
      , .signals [(⟨"hot"⟩, .wait), (⟨"cold"⟩, ⟨"boil"⟩), (⟨"hot"⟩, ⟨"pour"⟩)] ] :
        Node Unit).transitions = [(⟨"cold"⟩, ⟨"boil"⟩), (⟨"hot"⟩, ⟨"pour"⟩)] := by decide

end Node

end Workflow
