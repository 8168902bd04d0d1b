import Ick.History
import Mathlib.Tactic.Cases
import Mathlib.Tactic.SplitIfs

/-!
# Polled values

A polled value is written at any time and looked at now and then : a poll that finds it
changed delivers it. `Watched` notices a change by comparing the value with the one it
replaced, `oldValue`, and remembers what it has noticed in `isChanged`.

Writing a value twice makes the comparison blind to the change before. `Revision` keeps
what the calls so far have written, and `Revision.Swallowed` is the pattern that is lost :
two equal writes just before the poll, of a value other than the one of the poll before.
`atPolls_upToDate_iff` says that this is the only one.
-/

namespace Ick

/-- The calls on a polled value. -/
inductive Access (V : Type*)
  | setValue (v : V)
  | poll

/-- What holds before each poll of `ops`, of the calls that come before it. -/
def AtPolls {V : Type*} (Q : List (Access V) → Prop) (ops : List (Access V)) : Prop :=
  Throughout (fun pre op => op = .poll → Q pre) ops

/-- What the calls so far have written : the current value, the values written since the
last poll, and the value that poll found. -/
structure Revision (V : Type*) where
  current : V
  pending : List V
  polled : Option V

namespace Revision

variable {V : Type*}

/-- One more call. -/
def step (r : Revision V) : Access V → Revision V
  | .setValue v => { r with current := v, pending := r.pending ++ [v] }
  | .poll => { r with pending := [], polled := some r.current }

/-- What a list of calls on a value that starts as `v` has written. -/
def of (v : V) (ops : List (Access V)) : Revision V :=
  ops.foldl step ⟨v, [], none⟩

/-- The last two writes since the poll are equal, and that poll found another value. -/
def Swallowed (r : Revision V) : Prop :=
  ∃ ws v u, r.pending = ws ++ [v, v] ∧ r.polled = some u ∧ u ≠ v

theorem of_snoc (v : V) (ops : List (Access V)) (op : Access V) :
    of v (ops ++ [op]) = (of v ops).step op := by
  simp [of]

end Revision

/-- A value, the value before the last write, whether a change has been noticed, and the
value delivered last. -/
structure Watched (V : Type*) where
  value : V
  oldValue : V
  isChanged : Bool
  delivered : Option V

namespace Watched

variable {V : Type*} [DecidableEq V]

/-- A write. -/
def setValue (w : Watched V) (v : V) : Watched V :=
  { w with oldValue := w.value, value := v }

/-- The look at the value that notices a change. -/
def notice (w : Watched V) : Watched V :=
  if w.oldValue ≠ w.value then { w with isChanged := true, oldValue := w.value } else w

/-- The delivery of a noticed change. -/
def deliver (w : Watched V) : Watched V :=
  if w.isChanged then { w with delivered := some w.value, isChanged := false } else w

/-- One call. -/
def step (w : Watched V) : Access V → Watched V
  | .setValue v => w.setValue v
  | .poll => w.notice.deliver

/-- A list of calls. -/
def run (w : Watched V) (ops : List (Access V)) : Watched V :=
  ops.foldl step w

/-- The value delivered last is the current one. -/
def UpToDate (w : Watched V) : Prop :=
  w.delivered = some w.value

theorem run_snoc (w : Watched V) (ops : List (Access V)) (op : Access V) :
    w.run (ops ++ [op]) = (w.run ops).step op := by
  simp [run]

theorem step_poll (w : Watched V) : w.step .poll =
    ⟨w.value, w.value, false,
      if w.isChanged ∨ w.oldValue ≠ w.value then some w.value else w.delivered⟩ := by
  obtain ⟨value, oldValue, isChanged, delivered⟩ := w
  by_cases h : oldValue = value
  · subst h
    cases isChanged <;> simp [step, notice, deliver]
  · simp [step, notice, deliver, h]

/-- The invariant between a watched value and what has been written to it, as long as
every poll so far has left it up to date. -/
def Follows (w : Watched V) (r : Revision V) : Prop :=
  w.value = r.current ∧
    match r.polled with
    | none => w.isChanged = true
    | some u => w.isChanged = false ∧ w.delivered = some u ∧
        ((r.pending = [] ∧ w.oldValue = u ∧ w.value = u) ∨
          ∃ l, u :: r.pending = l ++ [w.oldValue, w.value])

theorem Follows.setValue {w : Watched V} {r : Revision V} (h : w.Follows r) (v : V) :
    (w.step (.setValue v)).Follows (r.step (.setValue v)) := by
  obtain ⟨current, pending, polled⟩ := r
  obtain ⟨hvalue, hpolled⟩ := h
  refine ⟨rfl, ?_⟩
  cases polled with
  | none => exact hpolled
  | some u =>
    obtain ⟨hchanged, hdelivered, ⟨hnil, -, hu⟩ | ⟨l, hl⟩⟩ := hpolled
    · refine ⟨hchanged, hdelivered, Or.inr ⟨[], ?_⟩⟩
      simp only at hnil
      simp [Revision.step, step, Watched.setValue, hnil, hu]
    · refine ⟨hchanged, hdelivered, Or.inr ⟨l ++ [w.oldValue], ?_⟩⟩
      simp only at hl
      simp only [Revision.step, step, Watched.setValue, ← List.cons_append, hl]
      simp

theorem Follows.poll {w : Watched V} {r : Revision V} (h : w.Follows r)
    (hup : (w.step .poll).UpToDate) : (w.step .poll).Follows (r.step .poll) := by
  rw [step_poll] at hup ⊢
  exact ⟨h.1, rfl, hup.trans (congrArg some h.1), Or.inl ⟨rfl, h.1, h.1⟩⟩

/-- A poll leaves the value up to date unless the change before it was swallowed. -/
theorem Follows.upToDate_iff {w : Watched V} {r : Revision V} (h : w.Follows r) :
    (w.step .poll).UpToDate ↔ ¬r.Swallowed := by
  obtain ⟨current, pending, polled⟩ := r
  obtain ⟨-, hpolled⟩ := h
  rw [step_poll]
  unfold UpToDate Revision.Swallowed
  cases polled with
  | none =>
    simp only at hpolled
    simp [hpolled]
  | some u =>
    obtain ⟨hchanged, hdelivered, ⟨hnil, hold, hu⟩ | ⟨l, hl⟩⟩ := hpolled
    · simp only at hnil
      simp [hchanged, hdelivered, hold, hu, hnil]
    · simp only at hl
      cases l with
      | nil =>
        obtain ⟨hu, hp⟩ := List.cons.inj hl
        have hshort : ∀ ws v, pending ≠ ws ++ [v, v] := by
          intro ws v heq
          have := congrArg List.length (hp.symm.trans heq)
          simp at this
        simp only [hshort, false_and, exists_false, not_false_eq_true, iff_true]
        split_ifs with hne
        · rfl
        · have : w.oldValue = w.value := by simpa [hchanged] using hne
          rw [hdelivered, ← this, hu]
      | cons u' l =>
        obtain ⟨rfl, hp⟩ := List.cons.inj hl
        have hlast : ∀ ws v, pending = ws ++ [v, v] → w.oldValue = v ∧ w.value = v := by
          intro ws v heq
          obtain ⟨-, htwo⟩ := List.append_inj' (hp.symm.trans heq) rfl
          simpa using htwo
        by_cases hne : w.oldValue = w.value
        · simp only [hchanged, hne, hdelivered, ne_eq, not_true_eq_false, or_self,
            Bool.false_eq_true, if_false, Option.some.injEq]
          constructor
          · rintro hu ⟨ws, v, x, heq, rfl, hxv⟩
            exact hxv (hu.trans (hlast ws v heq).2)
          · intro hnone
            by_contra hu
            exact hnone ⟨l, w.value, u, by rw [hp, hne]; rfl, rfl, hu⟩
        · simp only [ne_eq, hne, not_false_eq_true, or_true, if_true, true_iff]
          rintro ⟨ws, v, x, heq, -, -⟩
          exact hne ((hlast ws v heq).1.trans (hlast ws v heq).2.symm)

/-- After every poll the value delivered last is the current one, exactly when no poll
comes after a swallowed change. -/
theorem atPolls_upToDate_iff {w : Watched V} (h : w.isChanged = true)
    (ops : List (Access V)) :
    AtPolls (fun pre => (w.run (pre ++ [.poll])).UpToDate) ops ↔
      AtPolls (fun pre => ¬(Revision.of w.value pre).Swallowed) ops := by
  refine throughout_congr (I := fun ops => (w.run ops).Follows (Revision.of w.value ops))
    ⟨rfl, h⟩ (fun ops op hops hop => ?_) (fun ops op hops => imp_congr_right fun _ => ?_) ops
  · rw [run_snoc, Revision.of_snoc]
    cases op with
    | setValue v => exact hops.setValue v
    | poll =>
      have hup : (w.run (ops ++ [.poll])).UpToDate := hop rfl
      rw [run_snoc] at hup
      exact hops.poll hup
  · dsimp only
    rw [run_snoc]
    exact hops.upToDate_iff

end Watched

end Ick
