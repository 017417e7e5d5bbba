import Workflow.Proofs.Nesting

/-!
# Conditions on callbacks

What the callbacks of a graph do in general, every callback that a run invoked did.

* `Callback.Ensures` is a condition on the replies of a callback, and `Graph.EnsuresAt` that
  on all callbacks at a node and below it.
* `ensures_of_invokes`: a callback that ran met the condition.  `ensures_of_advances` is
  that for a call, or for what follows some of its rounds.
-/

namespace Workflow

variable {σ : Type}

/-- Whatever the callback is given, its reply meets the condition. -/
def Callback.Ensures (callback : Callback σ) (post : Reply σ → Context σ → Prop) : Prop :=
  ∀ {limit : Nat} {context : Context σ} {host : σ} {reply : Reply σ},
    callback.run limit context host = some reply → post reply context

theorem Callback.ensures_ofFunction {work : Context σ → σ → Reply σ}
    {post : Reply σ → Context σ → Prop} (h : ∀ context host, post (work context host) context) :
    (ofFunction work).Ensures post :=
  fun {_ context host _} hrun => Option.some.inj hrun ▸ h context host

namespace Graph

/-- The callbacks of the node, and of the graphs below it, meet the condition. -/
inductive EnsuresAt (nesting : Nesting σ) (post : Reply σ → Context σ → Prop) :
    Graph σ → Node σ → Prop
  | own {graph : Graph σ} {node : Node σ} (hown : nesting node = none)
      (hattempt : (graph.attempt node).Ensures post) : EnsuresAt nesting post graph node
  | nested {graph child : Graph σ} {node : Node σ} (hchild : nesting node = some child)
      (hpreparation : (graph.preparation node).Ensures post)
      (hbelow : ∀ inner ∈ child.nodes, EnsuresAt nesting post child inner) :
      EnsuresAt nesting post graph node

section EnsuresAt

variable {link : Node σ → Graph σ → Prop} {nesting : Nesting σ}
  {post : Reply σ → Context σ → Prop} {graph : Graph σ} {node : Node σ}

theorem EnsuresAt.attempt (h : graph.EnsuresAt nesting post node) (hown : nesting node = none) :
    (graph.attempt node).Ensures post := by
  cases h with
  | own _ hattempt => exact hattempt
  | nested hchild =>
    rw [hown] at hchild
    contradiction

theorem EnsuresAt.preparation (h : graph.EnsuresAt nesting post node) {child : Graph σ}
    (hchild : nesting node = some child) :
    (graph.preparation node).Ensures post ∧
      ∀ inner ∈ child.nodes, child.EnsuresAt nesting post inner := by
  cases h with
  | own hown =>
    rw [hown] at hchild
    contradiction
  | nested hchild' hpreparation hbelow =>
    obtain rfl := Option.some.inj (hchild.symm.trans hchild')
    exact ⟨hpreparation, hbelow⟩

/-- The induction is on where the callback ran. -/
theorem ensures_of_invokes {start : Execution σ} {rounds : List (Round σ)} {given : Context σ}
    {reply : Reply σ} (h : graph.Invokes nesting start rounds given reply)
    (hlayered : graph.Layered link nesting) {limit : Nat} (hmem : node ∈ graph.nodes)
    (hruns : graph.Runs limit node start rounds)
    (hensures : ∀ round ∈ rounds, graph.EnsuresAt nesting post round.node) :
    post reply given := by
  induction h generalizing limit node with
  | own hown =>
    exact (hensures _ List.mem_cons_self).attempt hown (attempt_of_runs hmem hruns).2
  | prepared hchild hrun =>
    exact ((hensures _ List.mem_cons_self).preparation hchild).1 hrun
  | nested hchild hinner _ ih =>
    have hbelow := ((hensures _ List.mem_cons_self).preparation hchild).2
    have hround := (attempt_of_runs hmem hruns).1
    obtain ⟨hlayered, _, _, hadvances⟩ := advances_of_runsChild hlayered hround hchild hinner
    have hnodes := mem_nodes_of_advances hadvances
    cases hadvances with
    | entered hfirst _ hruns _ =>
      exact ih hlayered hfirst hruns fun inner hinner => hbelow _ (hnodes inner hinner)
    | stayed | invalid => contradiction
  | later _ ih =>
    cases hruns with
    | last => contradiction
    | next _ _ hnext _ hrest => exact ih hlayered hnext hrest (List.forall_mem_cons.mp hensures).2

/-- So did a callback that ran after some rounds of a call. -/
theorem ensures_of_advances (hlayered : graph.Layered link nesting) {limit : Nat} {signal : Signal}
    {start : Execution σ} {segment : Segment σ} (h : graph.Advances limit signal start segment)
    {earlier later : List (Round σ)} (hrounds : segment.rounds = earlier ++ later)
    (hensures : ∀ round ∈ later, graph.EnsuresAt nesting post round.node)
    {given : Context σ} {reply : Reply σ}
    (hinvokes : graph.Invokes nesting (start.afterRounds earlier) later given reply) :
    post reply given := by
  cases h with
  | @entered _ rounds hmem _ hruns _ =>
    obtain rfl : rounds = earlier ++ later := hrounds
    rcases runs_of_append hmem hruns with rfl | ⟨next, hnext, hrest⟩
    · contradiction
    · exact ensures_of_invokes hinvokes hlayered hnext hrest hensures
  | stayed | invalid =>
    obtain ⟨_, rfl⟩ := List.append_eq_nil_iff.mp hrounds.symm
    contradiction

end EnsuresAt

end Graph

end Workflow
