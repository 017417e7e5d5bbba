import Workflow.Proofs.Unwinding

/-!
# Which nested runs a rollback finds

On the way back the first node of a state name takes the process under that name
out, and those after it find nothing.

* `Journey.thin` is a journey without the visits of those.  `EachKept` asks
  something of each nested run that is left.
* `retraces_thin`: a rollback finds exactly these runs, if the context has their
  processes.
* `retraces_of_nodup`: it finds all runs, if the state names of the nodes that ran
  a graph are pairwise different.
-/

namespace Workflow

variable {σ : Type}

namespace Journey

/-- The visits of the journey that a rollback takes back.  Of the nested runs that nodes
of one state started, at whatever level, that is only the newest, and none if the
state is taken. -/
def thin : Journey σ → List StateName → Journey σ
  | .new, _ => .new
  | .visit earlier node, taken => .visit (earlier.thin taken) node
  | .nested earlier node child inner, taken =>
    if node.state ∈ taken then earlier.thin taken
    else
      .nested (earlier.thin (node.state :: ((inner.thin (node.state :: taken)).delegates ++ taken)))
        node child (inner.thin (node.state :: taken))

/-- Each nested run that `thin` keeps, with the state that started it, is as asked. -/
def EachKept (asked : StateName → Journey σ → Prop) : Journey σ → List StateName → Prop
  | .new, _ => True
  | .visit earlier _, taken => earlier.EachKept asked taken
  | .nested earlier node _ inner, taken =>
    if node.state ∈ taken then earlier.EachKept asked taken
    else
      asked node.state inner ∧ inner.EachKept asked (node.state :: taken) ∧
        earlier.EachKept asked
          (node.state :: ((inner.thin (node.state :: taken)).delegates ++ taken))

theorem EachKept.mono {asked asked' : StateName → Journey σ → Prop} {journey : Journey σ}
    {taken : List StateName} (h : journey.EachKept asked taken)
    (himp : ∀ {state inner}, state ∉ taken → asked state inner → asked' state inner) :
    journey.EachKept asked' taken := by
  induction journey generalizing taken with
  | new => trivial
  | visit earlier node ih => exact ih h himp
  | nested earlier node child inner ihEarlier ihInner =>
    by_cases hmem : node.state ∈ taken
    · simp only [EachKept, if_pos hmem] at h ⊢
      exact ihEarlier h himp
    · simp only [EachKept, if_neg hmem] at h ⊢
      obtain ⟨hasked, hinner, hearlier⟩ := h
      refine ⟨himp hmem hasked, ihInner hinner fun hstate => himp fun hin => hstate ?_,
        ihEarlier hearlier fun hstate => himp fun hin => hstate ?_⟩
      · exact List.mem_cons_of_mem _ hin
      · exact List.mem_cons_of_mem _ (List.mem_append_right _ hin)

/-- No two of the nested runs kept have one state name, and none has one that is taken. -/
theorem nodup_delegates_thin (journey : Journey σ) (taken : List StateName) :
    (journey.thin taken).delegates.Nodup ∧
      ∀ state ∈ (journey.thin taken).delegates, state ∉ taken := by
  induction journey generalizing taken with
  | new => exact ⟨List.nodup_nil, fun _ h => by contradiction⟩
  | visit earlier node ih => exact ih taken
  | nested earlier node child inner ihEarlier ihInner =>
    by_cases hmem : node.state ∈ taken
    · simp only [thin, if_pos hmem]
      exact ihEarlier taken
    · obtain ⟨hinner, hfreshInner⟩ := ihInner (node.state :: taken)
      obtain ⟨hearlier, hfresh⟩ :=
        ihEarlier (node.state :: ((inner.thin (node.state :: taken)).delegates ++ taken))
      simp only [thin, if_neg hmem, delegates]
      simp only [List.mem_cons, List.mem_append, not_or] at hfreshInner hfresh
      refine ⟨List.nodup_append.mpr ⟨List.nodup_append.mpr ⟨hearlier, hinner, ?_⟩,
        List.pairwise_singleton .., ?_⟩, ?_⟩
      · rintro state hstate _ hother rfl
        exact (hfresh state hstate).2.1 hother
      · intro state hstate other hother
        obtain rfl := List.mem_singleton.mp hother
        rcases List.mem_append.mp hstate with hstate | hstate
        · exact (hfresh state hstate).1
        · exact (hfreshInner state hstate).1
      · intro state hstate
        simp only [List.mem_append, List.mem_singleton] at hstate
        rcases hstate with (hstate | hstate) | rfl
        · exact (hfresh state hstate).2.2
        · exact (hfreshInner state hstate).2
        · exact hmem

/-- If the states of the nodes that ran a graph are pairwise different, all runs are kept. -/
theorem thin_eq_self {journey : Journey σ} {taken : List StateName}
    (hnodup : journey.delegates.Nodup) (hfresh : ∀ state ∈ journey.delegates, state ∉ taken) :
    journey.thin taken = journey := by
  induction journey generalizing taken with
  | new => rfl
  | visit earlier node ih => rw [thin, ih hnodup hfresh]
  | nested earlier node child inner ihEarlier ihInner =>
    obtain ⟨hlower, _, hlast⟩ := List.nodup_append.mp hnodup
    obtain ⟨hearlier, hinner, hdisjoint⟩ := List.nodup_append.mp hlower
    have hne : ∀ state ∈ earlier.delegates ++ inner.delegates, state ≠ node.state :=
      fun state hstate => hlast state hstate node.state (List.mem_singleton_self _)
    simp only [delegates, List.mem_append, List.mem_singleton, or_assoc] at hfresh
    have hinside : inner.thin (node.state :: taken) = inner := by
      refine ihInner hinner fun state hstate => List.not_mem_cons_of_ne_of_not_mem ?_ ?_
      · exact hne state (List.mem_append_right _ hstate)
      · exact hfresh state (.inr (.inl hstate))
    have hbefore : earlier.thin (node.state :: (inner.delegates ++ taken)) = earlier := by
      refine ihEarlier hearlier fun state hstate => List.not_mem_cons_of_ne_of_not_mem ?_ ?_
      · exact hne state (List.mem_append_left _ hstate)
      · exact List.not_mem_append (fun h => hdisjoint state hstate state h rfl)
          (hfresh state (.inl hstate))
    rw [thin, if_neg (hfresh node.state (.inr (.inr rfl))), hinside, hbefore]

theorem eachKept_of_holds {journey : Journey σ} {context : Context σ} (h : journey.Holds context)
    (taken : List StateName) :
    journey.EachKept (fun state inner => inner.KeptAt state context) taken := by
  induction journey generalizing taken with
  | new => trivial
  | visit earlier node ih => exact ih h taken
  | nested earlier node child inner ihEarlier ihInner =>
    obtain ⟨hearlier, hinner, hkept⟩ := h
    rw [EachKept]
    split
    · exact ihEarlier hearlier _
    · exact ⟨hkept, ihInner hinner _, ihEarlier hearlier _⟩

end Journey

namespace Graph

variable {nesting : Nesting σ} {graph child : Graph σ} {limit : Nat} {node : Node σ}
  {context : Context σ} {host : σ}

/-- What undoing a node left that found the process of its own run. -/
theorem undoneBy_of_compensation {inner keptInner : Journey σ} {left : Reply σ}
    (hback : node.RollsBack child) (hfound : inner.KeptAt node.state context)
    (hinner : inner.Retraces limit keptInner (context.erase node.state.subgraphKey) host)
    (hon : inner.On nesting child)
    (hspares : child.SparesNested nesting limit inner.states.reverse
      (context.erase node.state.subgraphKey) host)
    (hrun : node.compensation.run limit context host = some left) (hok : left.result = .ok ()) :
    ∃ unwound reply,
      child.unwind limit inner.states.reverse (context.erase node.state.subgraphKey) host =
        some unwound ∧
      keptInner.UndoneBy (context.erase node.state.subgraphKey) unwound reply ∧
      unwound.result = .ok () ∧ left.context = unwound.context := by
  obtain ⟨process, hprocess, hvisited⟩ := hfound
  rw [run_compensation_of_kept hback hprocess, rollback, hvisited] at hrun
  obtain ⟨_, hrollback, rfl⟩ := Option.map_eq_some_iff.mp hrun
  obtain ⟨unwound, hunwound, rfl⟩ := Option.map_eq_some_iff.mp hrollback
  have hundone := undoneBy_unwind hinner hon hspares
  rw [hunwound] at hundone
  obtain ⟨reply, _, h⟩ := optionRel_some_left hundone
  refine ⟨unwound, reply, hunwound, h, ?_, rfl⟩
  rcases h.steps.result with ⟨hresult, _⟩ | ⟨error, _, herror, _, _⟩
  · exact hresult
  · have hfailed := (result_unwound_of_error herror).symm.trans hok
    contradiction

/-- A rollback finds the nested runs that `thin` keeps, if the context has their
processes and has nothing under the names that are taken. -/
theorem retraces_thin {journey : Journey σ} {taken : List StateName}
    (hon : journey.On nesting graph)
    (hkept : journey.EachKept (fun state inner => inner.KeptAt state context) taken)
    (habsent : ∀ state ∈ taken, context.data.get? state.subgraphKey = none)
    (hspares : graph.SparesNested nesting limit journey.states.reverse context host) :
    journey.Retraces limit (journey.thin taken) context host := by
  induction journey generalizing graph taken context host with
  | new => exact .new
  | visit earlier node ih =>
    obtain ⟨hearlier, hnode, hown⟩ := hon
    rw [Journey.states, List.reverse_concat] at hspares
    refine .visit fun {left} hrun hresult => ?_
    have hsame := hspares.own hnode hown hrun
    refine ih hearlier (hkept.mono fun _ => Journey.keptAt_congr (hsame _))
      (fun state hstate => (hsame state).trans (habsent state hstate))
      (hspares.older hnode hrun hresult)
  | nested earlier node child inner ihEarlier ihInner =>
    obtain ⟨hearlier, hnode, hchild, ⟨_, hback⟩, hinner⟩ := hon
    rw [Journey.states, List.reverse_concat] at hspares
    by_cases hmem : node.state ∈ taken
    · have hnone := habsent node.state hmem
      simp only [Journey.EachKept, Journey.thin, if_pos hmem] at hkept ⊢
      exact .missed hnone <|
        ihEarlier hearlier hkept habsent (hspares.missed hnode hback hnone)
    · simp only [Journey.EachKept, Journey.thin, if_neg hmem] at hkept ⊢
      obtain ⟨hfound, hkeptInner, hkeptEarlier⟩ := hkept
      have hinside := hspares.inner hnode hchild hfound
      have herased : ∀ state ∈ node.state :: taken,
          (context.erase node.state.subgraphKey).data.get? state.subgraphKey = none := by
        intro state hstate
        by_cases hne : node.state = state
        · rw [← hne]
          exact Table.get?_erase_self ..
        · rw [data_get?_erase_of_ne hne]
          exact habsent state ((List.mem_cons.mp hstate).resolve_left (Ne.symm hne))
      have hretraces : inner.Retraces limit (inner.thin (node.state :: taken))
          (context.erase node.state.subgraphKey) host := by
        refine ihInner hinner (hkeptInner.mono fun hstate => Journey.keptAt_congr ?_) herased
          hinside
        exact data_get?_erase_of_ne (Ne.symm (List.ne_of_not_mem_cons hstate))
      refine .found hfound hretraces fun hrun hresult => ?_
      obtain ⟨unwound, reply, _, hundone, hok, hleft⟩ :=
        undoneBy_of_compensation hback hfound hretraces hinner hinside hrun hresult
      refine ihEarlier hearlier (hkeptEarlier.mono fun hstate => Journey.keptAt_congr ?_) ?_
        (hspares.older hnode hrun hresult)
      · simp only [List.mem_cons, List.mem_append, not_or] at hstate
        rw [hleft]
        exact hundone.nested_others hstate.2.1 (Ne.symm hstate.1)
      · intro state hstate
        rw [hleft]
        simp only [List.mem_cons, List.mem_append] at hstate
        rcases hstate with rfl | hstate | hstate
        · exact hundone.nested_own hok (.inr rfl)
        · exact hundone.nested_own hok (.inl hstate)
        · exact hundone.absent hok (herased state (List.mem_cons_of_mem _ hstate))

/-- If the states of the nodes that ran a graph are pairwise different, a rollback finds
all their runs. -/
theorem retraces_of_nodup {journey : Journey σ} (hon : journey.On nesting graph)
    (hholds : journey.Holds context) (hnodup : journey.delegates.Nodup)
    (hspares : graph.SparesNested nesting limit journey.states.reverse context host) :
    journey.Retraces limit journey context host := by
  have h := retraces_thin hon (Journey.eachKept_of_holds hholds [])
    (fun state hstate => absurd hstate List.not_mem_nil) hspares
  rwa [Journey.thin_eq_self hnodup fun state _ => List.not_mem_nil] at h

end Graph

end Workflow
