import Workflow.Proofs.Nesting

/-!
# Where the processes of nested runs are kept

A node keeps the process of its nested run under a key made from its state name
alone, in the one context that all levels share.  So of the runs that nodes of
one name started, at whatever level, the newest one is kept.

* `Journey.newest` finds that run in a journey, and `Journey.Kept` says that the
  context has its process.  `kept_of_recounts` carries this through the rounds of
  a run and of the runs nested in it.
* `Journey.Holds` says that the context has the process of every nested run.
  `holds_of_kept`: it has, if the state names are pairwise different.
-/

namespace Workflow

variable {σ : Type}

namespace Journey

/-- The newest of the nested runs that nodes of the state started, at any level. -/
def newest (state : StateName) : Journey σ → Option (Journey σ)
  | .new => none
  | .visit earlier _ => earlier.newest state
  | .nested earlier node _ inner =>
    if node.state = state then some inner
    else (inner.newest state).or (earlier.newest state)

theorem newest_eq_none_iff {state : StateName} {journey : Journey σ} :
    journey.newest state = none ↔ state ∉ journey.delegates := by
  induction journey with
  | new => simp [newest, delegates]
  | visit earlier node ih => exact ih
  | nested earlier node child inner ihEarlier ihInner =>
    by_cases hstate : node.state = state
    · simp [newest, delegates, hstate]
    · simp [newest, delegates, hstate, Ne.symm hstate, ihEarlier, ihInner, and_comm]

theorem mem_delegates_of_newest {state : StateName} {journey inner : Journey σ}
    (h : journey.newest state = some inner) : state ∈ journey.delegates := by
  by_contra hnot
  rw [newest_eq_none_iff.mpr hnot] at h
  contradiction

/-- A context has the process of a nested run under the key of the state. -/
def KeptAt (inner : Journey σ) (state : StateName) (context : Context σ) : Prop :=
  ∃ process, context.get .process state.subgraphKey = some process ∧
    process.visited = inner.states

/-- A context has the processes of the newest nested runs, and under the keys of other
states what it had at the origin. -/
structure Kept (journey : Journey σ) (origin context : Context σ) : Prop where
  newest : ∀ {state inner}, journey.newest state = some inner → inner.KeptAt state context
  other : ∀ {state}, journey.newest state = none →
    context.data.get? state.subgraphKey = origin.data.get? state.subgraphKey

/-- A context has the process of every nested run. -/
def Holds : Journey σ → Context σ → Prop
  | .new, _ => True
  | .visit earlier _, context => earlier.Holds context
  | .nested earlier node _ inner, context =>
    earlier.Holds context ∧ inner.Holds context ∧ inner.KeptAt node.state context

/-! ## One visit -/

theorem keptAt_congr {inner : Journey σ} {state : StateName} {before after : Context σ}
    (h : after.data.get? state.subgraphKey = before.data.get? state.subgraphKey)
    (hkept : inner.KeptAt state before) : inner.KeptAt state after := by
  obtain ⟨process, hprocess, hvisited⟩ := hkept
  refine ⟨process, ?_, hvisited⟩
  rw [← hprocess]
  simp only [Context.get, h]

theorem kept_new (context : Context σ) : (new : Journey σ).Kept context context where
  newest h := by contradiction
  other _ := rfl

theorem Kept.visit {journey : Journey σ} {node : Node σ} {origin before after : Context σ}
    (h : journey.Kept origin before) (hsame : before.SameNested after) :
    (journey.visit node).Kept origin after where
  newest hnewest := keptAt_congr (hsame _) (h.newest hnewest)
  other hnone := (hsame _).trans (h.other hnone)

theorem data_get?_insert_of_ne {context : Context σ} {state other : StateName} {value : Value σ}
    (h : state ≠ other) :
    (context.insert state.subgraphKey value).data.get? other.subgraphKey =
      context.data.get? other.subgraphKey := by
  show (context.data.insert state.subgraphKey value).get? other.subgraphKey = _
  rw [Table.get?_insert, if_neg fun heq => h (StateName.subgraphKey_injective heq)]

/-- The process of the nested run goes over one that was kept under the same key,
whichever level that was from. -/
theorem Kept.nested {journey inside : Journey σ} {node : Node σ} {child : Graph σ}
    {origin before given after : Context σ} {process : Process σ}
    (h : journey.Kept origin before) (hgiven : before.SameNested given)
    (hinside : inside.Kept given after) (hvisited : process.visited = inside.states) :
    (journey.nested node child inside).Kept origin
      (after.insert node.state.subgraphKey ⟨.process, process⟩) where
  newest := by
    intro state inner hnewest
    by_cases hstate : node.state = state
    · simp only [Journey.newest, if_pos hstate] at hnewest
      obtain rfl := Option.some.inj hnewest
      rw [← hstate]
      exact ⟨process, Context.get_insert_self .., hvisited⟩
    · simp only [Journey.newest, if_neg hstate] at hnewest
      refine keptAt_congr (data_get?_insert_of_ne hstate) ?_
      rcases Option.or_eq_some_iff.mp hnewest with hinner | ⟨hnone, hearlier⟩
      · exact hinside.newest hinner
      · exact keptAt_congr ((hinside.other hnone).trans (hgiven state)) (h.newest hearlier)
  other := by
    intro state hnone
    by_cases hstate : node.state = state
    · simp [Journey.newest, hstate] at hnone
    · simp only [Journey.newest, if_neg hstate] at hnone
      obtain ⟨hinner, hearlier⟩ := Option.or_eq_none_iff.mp hnone
      rw [data_get?_insert_of_ne hstate, hinside.other hinner, hgiven state, h.other hearlier]

end Journey

/-! ## A whole run -/

namespace Graph

variable {nesting : Nesting σ} {graph : Graph σ} {origin : Context σ}

theorem kept_of_recounts {start : Execution σ} {rounds : List (Round σ)}
    {journey final : Journey σ} (h : graph.Recounts nesting start rounds journey final)
    (hkept : journey.Kept origin start.context) :
    final.Kept origin (start.afterRounds rounds).context := by
  induction h generalizing origin with
  | nil => exact hkept
  | visit _ _ _ hcontext _ ih => exact ih (hkept.visit hcontext)
  | nested _ _ _ _ _ hgiven hvisited hfinal hcontext hinner _ ihInner ih =>
    refine ih ?_
    rw [hcontext]
    refine hkept.nested hgiven ?_ ?_
    · rw [hfinal]
      exact ihInner (Journey.kept_new _)
    · rw [hfinal]
      exact (hinner.states_eq hvisited.symm).symm

theorem kept_of_tells {segments : List (Segment σ)} {journey : Journey σ} {process : Process σ}
    {context : Context σ} (h : graph.Tells nesting origin segments journey process context) :
    journey.Kept origin context := by
  induction h with
  | new => exact Journey.kept_new _
  | call _ hadvances hfinal hrecounts ih =>
    rw [hfinal]
    refine kept_of_recounts hrecounts ?_
    rw [start_eq_of_advances hadvances]
    exact ih

end Graph

/-! ## Pairwise different state names -/

namespace Journey

/-- Each nested run is the newest one of its name, so its process is there. -/
theorem holds_of_newest {journey : Journey σ} {context : Context σ}
    (hnodup : journey.delegates.Nodup)
    (hnewest : ∀ {state inner}, journey.newest state = some inner →
      inner.KeptAt state context) : journey.Holds context := by
  induction journey with
  | new => trivial
  | visit earlier node ih => exact ih hnodup hnewest
  | nested earlier node child inner ihEarlier ihInner =>
    obtain ⟨hlower, _, hlast⟩ := List.nodup_append.mp hnodup
    obtain ⟨hearlier, hinner, hdisjoint⟩ := List.nodup_append.mp hlower
    have hne : ∀ state ∈ earlier.delegates ++ inner.delegates, node.state ≠ state :=
      fun state hstate => (hlast state hstate node.state (List.mem_singleton_self _)).symm
    refine ⟨ihEarlier hearlier fun hstate => hnewest ?_, ihInner hinner fun hstate => hnewest ?_,
      hnewest (if_pos rfl)⟩
    · have hmem := mem_delegates_of_newest hstate
      have hnone := newest_eq_none_iff.mpr fun h => hdisjoint _ hmem _ h rfl
      rw [newest, if_neg (hne _ (List.mem_append_left _ hmem)), hnone]
      exact hstate
    · have hmem := mem_delegates_of_newest hstate
      rw [newest, if_neg (hne _ (List.mem_append_right _ hmem)), hstate]
      rfl

theorem holds_of_kept {journey : Journey σ} {origin context : Context σ}
    (h : journey.Kept origin context) (hnodup : journey.delegates.Nodup) :
    journey.Holds context := holds_of_newest hnodup h.newest

end Journey

end Workflow
