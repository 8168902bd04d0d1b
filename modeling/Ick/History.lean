import Mathlib.Data.List.Induction

/-!
# Histories of calls

A history is the list of the calls made so far, the last one at the end. `Throughout Q calls`
says that each call of `calls` comes after a history for which `Q` admits it. It is what an
induction over histories from the end proves (`throughout_snoc`). `Throughout.invariant` is the rule
for an invariant that the admitted calls keep, and `throughout_congr` the rule for two conditions
that an invariant makes the same. `Throughout.run` and `forall_run_iff` are these rules for the
states of a run, in which a call that is not defined ends the run.

`Since P Q calls` says that there was a call of a kind, `P`, and none of another kind, `Q`, after
it, and `since_snoc` what one more call makes of that.
-/

namespace Ick

variable {α : Type*} {P Q : List α → α → Prop} {calls : List α}

/-- Each call comes after a history that `Q` admits it after. -/
def Throughout (Q : List α → α → Prop) (calls : List α) : Prop :=
  ∀ pre call, pre ++ [call] <+: calls → Q pre call

theorem throughout_nil : Throughout Q [] := by
  intro pre call h
  simp at h

theorem throughout_snoc {call : α} :
    Throughout Q (calls ++ [call]) ↔ Throughout Q calls ∧ Q calls call := by
  constructor
  · exact fun h => ⟨fun pre c hpre => h pre c (hpre.trans (List.prefix_append _ _)),
      h calls call (List.prefix_refl _)⟩
  · rintro ⟨hcalls, hcall⟩ pre c hpre
    rcases List.prefix_concat_iff.1 hpre with heq | hpre
    · obtain ⟨rfl, hc⟩ := List.append_inj' heq rfl
      rwa [(List.cons.inj hc).1]
    · exact hcalls pre c hpre

theorem throughout_cons {call : α} :
    Throughout Q (call :: calls) ↔ Q [] call ∧ Throughout (fun pre => Q (call :: pre)) calls := by
  constructor
  · refine fun h => ⟨h [] call ⟨calls, rfl⟩, fun pre c hpre => h (call :: pre) c ?_⟩
    exact List.cons_prefix_cons.2 ⟨rfl, hpre⟩
  · rintro ⟨hcall, hcalls⟩ pre c hpre
    cases pre with
    | nil =>
      obtain ⟨rfl, -⟩ := List.cons_prefix_cons.1 hpre
      exact hcall
    | cons c' pre =>
      obtain ⟨rfl, hrest⟩ := List.cons_prefix_cons.1 hpre
      exact hcalls pre c hrest

/-- What holds of every history on the way holds at the start and after each call. -/
theorem forall_prefix_iff {R : List α → Prop} :
    (∀ pre, pre <+: calls → R pre) ↔
      R [] ∧ Throughout (fun pre call => R (pre ++ [call])) calls := by
  constructor
  · exact fun h => ⟨h [] List.nil_prefix, fun pre call hpre => h _ hpre⟩
  · rintro ⟨hnil, hcalls⟩ pre hpre
    rcases List.eq_nil_or_concat pre with rfl | ⟨pre, call, rfl⟩
    · exact hnil
    · rw [List.concat_eq_append] at hpre ⊢
      exact hcalls pre call hpre

/-- An invariant that each admitted call keeps holds of the history. -/
theorem Throughout.invariant {I : List α → Prop} (h : Throughout Q calls) (hnil : I [])
    (hstep : ∀ calls call, I calls → Q calls call → I (calls ++ [call])) : I calls := by
  induction calls using List.reverseRecOn with
  | nil => exact hnil
  | append_singleton calls call ih =>
    obtain ⟨hcalls, hcall⟩ := throughout_snoc.1 h
    exact hstep calls call (ih hcalls) hcall

/-- Two conditions on the calls agree on a history, if an invariant makes them agree on the next
call, and every call that meets the first one keeps it. -/
theorem throughout_congr {R : List α → α → Prop} {I : List α → Prop} (hnil : I [])
    (hstep : ∀ calls call, I calls → Q calls call → I (calls ++ [call]))
    (hiff : ∀ calls call, I calls → (Q calls call ↔ R calls call)) (calls : List α) :
    Throughout Q calls ↔ Throughout R calls := by
  induction calls using List.reverseRecOn with
  | nil => exact iff_of_true throughout_nil throughout_nil
  | append_singleton calls call ih =>
    rw [throughout_snoc, throughout_snoc]
    exact (and_congr_right fun h => hiff calls call (h.invariant hnil hstep)).trans
      (and_congr_left fun _ => ih)

section Runs

variable {σ : Type*} {step : σ → α → Option σ} {s₀ : σ} {I : σ → Prop} {C : σ → α → Prop}

theorem foldlM_snoc_eq_some {call : α} {s' : σ} :
    (calls ++ [call]).foldlM step s₀ = some s' ↔
      ∃ s, calls.foldlM step s₀ = some s ∧ step s call = some s' := by
  simp [List.foldlM_append, Option.bind_eq_some_iff]

/-- One more call of a run keeps an invariant. -/
theorem invariant_snoc (hstep : ∀ s call s', I s → C s call → step s call = some s' → I s')
    {call : α} (hcalls : ∀ s, calls.foldlM step s₀ = some s → I s)
    (hcall : ∀ s, calls.foldlM step s₀ = some s → C s call) {s' : σ}
    (hs' : (calls ++ [call]).foldlM step s₀ = some s') : I s' := by
  obtain ⟨s, hs, he⟩ := foldlM_snoc_eq_some.1 hs'
  exact hstep s call s' (hcalls s hs) (hcall s hs) he

/-- An invariant of a run in which each call is admitted in the state before it. -/
theorem Throughout.run
    (h : Throughout (fun pre call => ∀ s, pre.foldlM step s₀ = some s → C s call) calls)
    (hinit : I s₀) (hstep : ∀ s call s', I s → C s call → step s call = some s' → I s') :
    ∀ s, calls.foldlM step s₀ = some s → I s := by
  refine h.invariant (I := fun calls => ∀ s, calls.foldlM step s₀ = some s → I s) ?_ ?_
  · intro s hs
    exact Option.some.inj hs ▸ hinit
  · intro calls call hcalls hcall s' hs'
    exact invariant_snoc hstep hcalls hcall hs'

/-- All states of a run are good exactly if each call is admitted in the state before it, if an
invariant that the admitted calls keep makes the states good, and a call that leads to none but good
states is admitted. -/
theorem forall_run_iff {P : σ → Prop} (hinit : I s₀) (hI : ∀ s, I s → P s)
    (hstep : ∀ s call s', I s → C s call → step s call = some s' → I s')
    (hback : ∀ s call, I s → (∀ s', step s call = some s' → P s') → C s call) (calls : List α) :
    (∀ pre, pre <+: calls → ∀ s, pre.foldlM step s₀ = some s → P s) ↔
      Throughout (fun pre call => ∀ s, pre.foldlM step s₀ = some s → C s call) calls := by
  have hnil : ∀ s, [].foldlM step s₀ = some s → I s := by
    intro s hs
    exact Option.some.inj hs ▸ hinit
  rw [forall_prefix_iff, and_iff_right fun s hs => hI s (hnil s hs), iff_comm]
  refine throughout_congr hnil
    (fun pre call hpre hcall s' hs' => invariant_snoc hstep hpre hcall hs')
    (fun pre call hpre => ?_) calls
  constructor
  · exact fun hcall s' hs' => hI s' (invariant_snoc hstep hpre hcall hs')
  · exact fun hgood s hs => hback s call (hpre s hs) fun s' he =>
      hgood s' (foldlM_snoc_eq_some.2 ⟨s, hs, he⟩)

end Runs

/-- A call that `P` admits after its history was made, and none that `Q` admits after it. -/
def Since (P Q : List α → α → Prop) (calls : List α) : Prop :=
  ∃ pre call post, calls = pre ++ call :: post ∧ P pre call ∧
    ∀ post' e, post' ++ [e] <+: post → ¬Q (pre ++ call :: post') e

theorem not_since_nil : ¬Since P Q [] := by
  rintro ⟨pre, call, post, h, -⟩
  simp at h

theorem since_snoc {call : α} :
    Since P Q (calls ++ [call]) ↔ P calls call ∨ (Since P Q calls ∧ ¬Q calls call) := by
  constructor
  · rintro ⟨pre, c, post, heq, hc, hpost⟩
    rcases List.eq_nil_or_concat post with rfl | ⟨post, e, rfl⟩
    · obtain ⟨rfl, hlast⟩ := List.append_inj' heq rfl
      rw [(List.cons.inj hlast).1]
      exact Or.inl hc
    · rw [List.concat_eq_append] at heq hpost
      have heq' : calls ++ [call] = (pre ++ c :: post) ++ [e] := by rw [heq]; simp
      obtain ⟨rfl, hlast⟩ := List.append_inj' heq' rfl
      obtain rfl := (List.cons.inj hlast).1
      refine Or.inr ⟨⟨pre, c, post, rfl, hc, fun post' e' hpre => ?_⟩, ?_⟩
      · exact hpost post' e' (hpre.trans (List.prefix_append _ _))
      · exact hpost post call (List.prefix_refl _)
  · rintro (h | ⟨⟨pre, c, post, rfl, hc, hpost⟩, hcall⟩)
    · exact ⟨calls, call, [], rfl, h, fun post' e hpre => absurd hpre (by simp)⟩
    · refine ⟨pre, c, post ++ [call], by simp, hc, fun post' e hpre => ?_⟩
      rcases List.prefix_concat_iff.1 hpre with heq | hpre
      · obtain ⟨rfl, hlast⟩ := List.append_inj' heq rfl
        rwa [(List.cons.inj hlast).1]
      · exact hpost post' e hpre

end Ick
