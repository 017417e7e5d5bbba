import Workflow.Context
import Workflow.Journal

/-!
# Callbacks

A callback is work that the host program hands to the engine: it changes a
context and the host's state `σ`, and succeeds or returns a fault. It need not
return. `Callback.run limit` is its reply if it comes within a limit, and by
`Callback.run_of_le` a reply that came stays the same for every larger limit.

* `Callback.ofFunction`: work that always returns.
* `Callback.skip`, `Callback.raise`, `Callback.andThen`: doing nothing, failing
  at once, and one callback after another unless the first fails.
-/

namespace Workflow

/-- What a callback left behind. -/
structure Reply (σ : Type) where
  result : Except Fault Unit
  context : Context σ
  host : σ
  journal : Journal := []

/-- A reply whose journal tells an earlier one first. -/
def Reply.after {σ : Type} (reply earlier : Reply σ) : Reply σ :=
  { reply with journal := earlier.journal ++ reply.journal }

/-- Work on a context that may not return. -/
structure Callback (σ : Type) where
  run : (limit : Nat) → Context σ → σ → Option (Reply σ)
  run_of_le : ∀ {limit larger : Nat} {context : Context σ} {host : σ} {reply : Reply σ},
    limit ≤ larger → run limit context host = some reply →
      run larger context host = some reply

namespace Callback

variable {σ : Type}

/-- Work that always returns. -/
def ofFunction (work : Context σ → σ → Reply σ) : Callback σ where
  run _ context host := some (work context host)
  run_of_le _ h := h

/-- Succeeds and changes nothing. -/
def skip : Callback σ :=
  ofFunction fun context host => { result := .ok (), context, host }

/-- Fails and changes nothing. -/
def raise (fault : Fault) : Callback σ :=
  ofFunction fun context host => { result := .error fault, context, host }

/-- Runs the second callback on what the first left, unless the first fails. -/
def andThen (first second : Callback σ) : Callback σ where
  run limit context host :=
    (first.run limit context host).bind fun reply =>
      match reply.result with
      | .error _ => some reply
      | .ok () => (second.run limit reply.context reply.host).map (·.after reply)
  run_of_le {limit larger context host reply} hle h := by
    obtain ⟨earlier, hfirst, hrest⟩ := Option.bind_eq_some_iff.mp h
    simp only [first.run_of_le hle hfirst, Option.bind_some]
    cases hresult : earlier.result with
    | error fault => simpa [hresult] using hrest
    | ok _ =>
      simp only [hresult, Option.map_eq_some_iff] at hrest
      obtain ⟨later, hsecond, hreply⟩ := hrest
      simp [second.run_of_le hle hsecond, hreply]

/-- The first callback failed, or the second ran on what it left. -/
theorem run_andThen_cases {first second : Callback σ} {limit : Nat} {context : Context σ}
    {host : σ} {reply : Reply σ} (h : (first.andThen second).run limit context host = some reply) :
    (∃ fault, first.run limit context host = some reply ∧ reply.result = .error fault) ∨
      ∃ earlier later, first.run limit context host = some earlier ∧ earlier.result = .ok () ∧
        second.run limit earlier.context earlier.host = some later ∧
        reply = later.after earlier := by
  obtain ⟨earlier, hfirst, hrest⟩ := Option.bind_eq_some_iff.mp h
  cases hresult : earlier.result with
  | error fault =>
    rw [hresult] at hrest
    obtain rfl := Option.some.inj hrest
    exact .inl ⟨fault, hfirst, hresult⟩
  | ok _ =>
    rw [hresult] at hrest
    obtain ⟨later, hlater, rfl⟩ := Option.map_eq_some_iff.mp hrest
    exact .inr ⟨earlier, later, hfirst, hresult, hlater, rfl⟩

/-- Whether a callback returns, whatever it is given. -/
def Returns (callback : Callback σ) : Prop :=
  ∀ context host, ∃ limit, (callback.run limit context host).isSome

@[simp]
theorem run_ofFunction (work : Context σ → σ → Reply σ) (limit : Nat)
    (context : Context σ) (host : σ) :
    (ofFunction work).run limit context host = some (work context host) := rfl

theorem returns_ofFunction (work : Context σ → σ → Reply σ) :
    (ofFunction work).Returns := fun _ _ => ⟨0, rfl⟩

theorem returns_andThen {first second : Callback σ} (hfirst : first.Returns)
    (hsecond : second.Returns) : (first.andThen second).Returns := by
  intro context host
  obtain ⟨limit, h⟩ := hfirst context host
  obtain ⟨earlier, hearlier⟩ := Option.isSome_iff_exists.mp h
  obtain ⟨limit', h'⟩ := hsecond earlier.context earlier.host
  obtain ⟨later, hlater⟩ := Option.isSome_iff_exists.mp h'
  refine ⟨max limit limit', ?_⟩
  simp only [andThen, first.run_of_le (Nat.le_max_left ..) hearlier,
    second.run_of_le (Nat.le_max_right ..) hlater, Option.bind_some, Option.map_some]
  split <;> rfl

end Callback

end Workflow
