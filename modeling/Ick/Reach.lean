import Mathlib.Init

/-!
# States reached by guarded runs

A partial step function `step` answers an event with the next state, or with `none` if
the event is not enabled. `Reach step init C` is the set of states of the runs that
start in `init` and whose events all meet the guard `C`, read in the state before the
event. With the guard `fun _ _ => True` these are the states of all runs.

`Reach.invariant` is the induction rule : what holds at the start and is kept by every
guarded step holds in every state reached.
-/

namespace Ick

/-- The states of the runs from `init` whose events all meet `C` in the state before. -/
inductive Reach {σ ε : Type*} (step : σ → ε → Option σ) (init : σ → Prop)
    (C : σ → ε → Prop) : σ → Prop
  | start {s : σ} : init s → Reach step init C s
  | next {s s' : σ} {e : ε} :
    Reach step init C s → C s e → step s e = some s' → Reach step init C s'

namespace Reach

variable {σ ε : Type*} {step : σ → ε → Option σ} {init : σ → Prop} {C D : σ → ε → Prop}

/-- A property of the start that every guarded step keeps holds in every state reached. -/
theorem invariant {I : σ → Prop} (hinit : ∀ s, init s → I s)
    (hstep : ∀ s e s', I s → C s e → step s e = some s' → I s') {s : σ}
    (h : Reach step init C s) : I s := by
  induction h with
  | start h => exact hinit _ h
  | next _ hC he ih => exact hstep _ _ _ ih hC he

/-- A weaker guard reaches more states. -/
theorem mono (hCD : ∀ s e, C s e → D s e) {s : σ} (h : Reach step init C s) :
    Reach step init D s := by
  induction h with
  | start h => exact .start h
  | next _ hC he ih => exact .next ih (hCD _ _ hC) he

/-- The state after a list of events. -/
theorem of_foldlM {s₀ s : σ} (h₀ : init s₀) {events : List ε}
    (h : events.foldlM step s₀ = some s) : Reach step init (fun _ _ => True) s := by
  have hfrom : ∀ s₁, Reach step init (fun _ _ => True) s₁ → events.foldlM step s₁ = some s →
      Reach step init (fun _ _ => True) s := by
    clear h
    induction events with
    | nil =>
      rintro s₁ hs₁ heq
      obtain rfl := Option.some.inj heq
      exact hs₁
    | cons e events ih =>
      intro s₁ hs₁ heq
      rw [List.foldlM_cons] at heq
      obtain ⟨s₂, he, heq⟩ := Option.bind_eq_some_iff.1 heq
      exact ih s₂ (hs₁.next trivial he) heq
  exact hfrom s₀ (.start h₀) h

end Reach

end Ick
