import Mathlib.Data.List.Count
import Mathlib.Data.List.Infix
import Mathlib.Tactic.SplitIfs

/-!
# What a call does to mutexes

The body of a function, for given arguments, is a list of statements here : it locks and unlocks
mutexes, and in between it makes calls, each of which returns a number or throws. After a number
that the function does not accept it returns `false`, and an exception leaves it. What is done to
mutexes until then is the trace of the call (`LockStmt.run`).

A trace is balanced if it unlocks each mutex as often as it locks it, and never one that it does not
hold. `balanced_section_iff` is the rule for a body that holds one mutex from its first to its last
statement : its trace is balanced if and only if all calls in between pass.
-/

namespace Ick

/-- A mutex is locked or unlocked. -/
inductive LockOp (μ : Type*)
  | lock (m : μ)
  | unlock (m : μ)
  deriving DecidableEq

/-- How a call ends that the body makes. -/
inductive CallResult
  | returns (n : ℤ)
  | throws

/-- How the body ends. -/
inductive LockEnd
  | returned (b : Bool)
  | threw
  | noReturn
  deriving DecidableEq

/-- A statement. A call is followed by a `return false` for the numbers that fail. -/
inductive LockStmt (μ : Type*)
  | lock (m : μ)
  | unlock (m : μ)
  | call (fails : ℤ → Bool)

/-- Each mutex is unlocked as often as it is locked, and never when it is not held. -/
structure Balanced {μ : Type*} [DecidableEq μ] (ops : List (LockOp μ)) : Prop where
  released : ∀ m, ops.count (.lock m) = ops.count (.unlock m)
  held : ∀ m, ∀ pre, pre <+: ops → pre.count (.unlock m) ≤ pre.count (.lock m)

namespace LockStmt

variable {μ : Type*}

/-- The trace of a body that ends like this, and how it ends; `k` calls have been made before. -/
def run (results : ℕ → CallResult) (last : LockEnd) :
    ℕ → List (LockStmt μ) → List (LockOp μ) × LockEnd
  | _, [] => ([], last)
  | k, .lock m :: body => ((run results last k body).1.cons (.lock m), (run results last k body).2)
  | k, .unlock m :: body =>
    ((run results last k body).1.cons (.unlock m), (run results last k body).2)
  | k, .call fails :: body =>
    match results k with
    | .throws => ([], .threw)
    | .returns n => if fails n then ([], .returned false) else run results last (k + 1) body

/-- The trace of a body all calls of which pass. -/
def ops : List (LockStmt μ) → List (LockOp μ)
  | [] => []
  | .lock m :: body => .lock m :: ops body
  | .unlock m :: body => .unlock m :: ops body
  | .call _ :: body => ops body

/-- All calls return numbers that do not fail. -/
def Passes (results : ℕ → CallResult) : ℕ → List (LockStmt μ) → Prop
  | _, [] => True
  | k, .call fails :: body =>
    (∃ n, results k = .returns n ∧ fails n = false) ∧ Passes results (k + 1) body
  | k, _ :: body => Passes results k body

variable {results : ℕ → CallResult} {last : LockEnd} {body rest : List (LockStmt μ)} {m : μ} {k : ℕ}

/-- If all calls pass, the mutex is unlocked at the end. -/
theorem run_of_passes (h : Passes results k body) :
    run results last k (body ++ [.unlock m]) = (ops body ++ [.unlock m], last) := by
  induction body generalizing k with
  | nil => rfl
  | cons stmt body ih =>
    cases stmt with
    | lock m' => rw [List.cons_append, run, ih h]; rfl
    | unlock m' => rw [List.cons_append, run, ih h]; rfl
    | call fails =>
      obtain ⟨⟨n, hreturns, hn⟩, hbody⟩ := h
      rw [List.cons_append, run, hreturns]
      dsimp only
      rw [hn, if_neg Bool.false_ne_true, ih hbody]
      rfl

/-- If a call does not pass, the trace ends there. -/
theorem run_prefix_of_not_passes (h : ¬Passes results k body) :
    (run results last k (body ++ rest)).1 <+: ops body := by
  induction body generalizing k with
  | nil => exact absurd trivial h
  | cons stmt body ih =>
    cases stmt with
    | lock m' => exact List.cons_prefix_cons.2 ⟨rfl, ih h⟩
    | unlock m' => exact List.cons_prefix_cons.2 ⟨rfl, ih h⟩
    | call fails =>
      rw [List.cons_append, run]
      split
      · exact List.nil_prefix
      · next n hreturns =>
        split_ifs with hn
        · exact List.nil_prefix
        · exact ih fun hbody => h ⟨⟨n, hreturns, Bool.eq_false_iff.2 hn⟩, hbody⟩

/-- The operations of a list of calls. -/
theorem ops_map_call {α : Type*} (fails : ℤ → Bool) (l : List α) :
    ops (l.map fun _ => (.call fails : LockStmt μ)) = [] := by
  induction l with
  | nil => rfl
  | cons a l ih => exact ih

theorem ops_append (body rest : List (LockStmt μ)) : ops (body ++ rest) = ops body ++ ops rest := by
  induction body with
  | nil => rfl
  | cons stmt body ih => cases stmt <;> simp [ops, ih]

/-- A call for each element of a list, and what follows. -/
theorem passes_map_call_append {α : Type*} {fails : ℤ → Bool} {l : List α} :
    Passes results k ((l.map fun _ => .call fails) ++ rest) ↔
      (∀ i < l.length, ∃ n, results (k + i) = .returns n ∧ fails n = false) ∧
        Passes results (k + l.length) rest := by
  induction l generalizing k with
  | nil => simp
  | cons a l ih =>
    rw [List.map_cons, List.cons_append, Passes, ih, List.length_cons, ← and_assoc,
      Nat.add_right_comm, Nat.add_assoc k]
    refine and_congr_left fun _ => ⟨fun ⟨hfirst, hrest⟩ i hi => ?_, fun h => ⟨?_, fun i hi => ?_⟩⟩
    · cases i with
      | zero => exact hfirst
      | succ i => exact Nat.add_right_comm k i 1 ▸ hrest i (Nat.lt_of_succ_lt_succ hi)
    · exact h 0 (Nat.succ_pos _)
    · exact Nat.add_right_comm k 1 i ▸ h (i + 1) (Nat.succ_lt_succ hi)

variable [DecidableEq μ]

theorem balanced_nil : Balanced ([] : List (LockOp μ)) :=
  ⟨fun _ => rfl, fun _ _ hpre => by rw [List.prefix_nil.1 hpre]; exact le_rfl⟩

/-- A balanced trace stays balanced inside a section. -/
theorem balanced_wrap {l : List (LockOp μ)} (h : Balanced l) (m : μ) :
    Balanced (.lock m :: l ++ [.unlock m]) := by
  have hreleased : ∀ m', List.count (.lock m') (LockOp.lock m :: l ++ [.unlock m]) =
      List.count (.unlock m') (LockOp.lock m :: l ++ [.unlock m]) := by
    intro m'
    simp [List.count_cons, h.released m']
  refine ⟨hreleased, fun m' pre hpre => ?_⟩
  rcases List.prefix_cons_iff.1 hpre with rfl | ⟨t, rfl, ht⟩
  · exact le_rfl
  · rcases List.prefix_concat_iff.1 ht with rfl | ht
    · exact (hreleased m').ge
    · have hheld := h.held m' t ht
      rw [List.count_cons_of_ne (by simp)]
      exact hheld.trans List.count_le_count_cons

/-- The rule for a section. -/
theorem balanced_section_iff (hbody : Balanced (ops body)) (hfresh : .unlock m ∉ ops body) :
    Balanced (run results last 0 (.lock m :: body ++ [.unlock m])).1 ↔ Passes results 0 body := by
  constructor
  · intro h
    by_contra hpasses
    have hpre := @run_prefix_of_not_passes _ results last body [.unlock m] 0 hpasses
    have hnot : LockOp.unlock m ∉ (run results last 0 (body ++ [.unlock m])).1 := fun hmem =>
      hfresh (hpre.subset hmem)
    have hcount := h.released m
    rw [List.cons_append, run] at hcount
    simp [List.count_eq_zero_of_not_mem hnot] at hcount
  · intro h
    rw [List.cons_append, run, run_of_passes h]
    exact balanced_wrap hbody m

end LockStmt

end Ick
