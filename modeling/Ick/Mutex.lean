import Mathlib.Data.List.Count
import Mathlib.Tactic.Cases
import Mathlib.Tactic.SplitIfs

/-!
# The mutex

`IMutex` is a mutex of the system on Windows : a thread owns it, and may lock it several
times. On Linux its constructor, `lock` and `unlock` have empty bodies, so nobody ever waits.

Threads are told apart by the elements of a type. `Sections` are the codes in which `lock` and
`unlock` alternate, and which do everything else in between.
-/

namespace Ick

/-- The systems that `IMutex` is written for. -/
inductive Platform
  | windows
  | linux
  deriving DecidableEq

/-- An `IMutex`, with the thread that owns it and how often it has locked it. -/
structure IMutex (θ : Type*) where
  owner : Option θ
  count : ℕ

namespace IMutex

variable {θ : Type*} [DecidableEq θ]

/-- `IMutex()` -/
def new : IMutex θ where
  owner := none
  count := 0

/-- `lock`, called by the thread `t`; `none` while it waits. -/
def lock (platform : Platform) (t : θ) (m : IMutex θ) : Option (IMutex θ) :=
  match platform with
  | .windows =>
    if m.owner = none then some ⟨some t, 1⟩
    else if m.owner = some t then some { m with count := m.count + 1 }
    else none
  | .linux => some m

/-- `unlock`, called by the thread `t`. Only the owner can release a mutex. -/
def unlock (platform : Platform) (t : θ) (m : IMutex θ) : IMutex θ :=
  match platform with
  | .windows =>
    if m.owner = some t then
      if m.count = 1 then new else { m with count := m.count - 1 }
    else m
  | .linux => m

end IMutex

/-- What a thread does next : it locks or unlocks the mutex, or takes a step of its own. -/
inductive LockStep (α : Type*)
  | lock
  | unlock
  | act (a : α)
  deriving DecidableEq

/-- A code that locks the mutex, takes its steps, and unlocks it, any number of times; with
`held` it begins inside such a section. -/
def Sections {α : Type*} : Bool → List (LockStep α) → Prop
  | false, [] => True
  | true, [] => False
  | false, .lock :: code => Sections true code
  | true, .unlock :: code => Sections false code
  | true, .act _ :: code => Sections true code
  | _, _ => False

/-- The thread that owns the mutex, and no other, is inside a section. -/
structure Guarded {θ α : Type*} [DecidableEq θ] (m : IMutex θ) (code : θ → List (LockStep α)) :
    Prop where
  sections : ∀ t, Sections (decide (m.owner = some t)) (code t)
  count : m.owner ≠ none → m.count = 1

namespace Guarded

variable {θ α : Type*} [DecidableEq θ] {m m' : IMutex θ} {code : θ → List (LockStep α)} {t t' : θ}
  {rest : List (LockStep α)}

/-- A thread that takes a step of its own owns the mutex. -/
theorem owner_of_act {a : α} (h : Guarded m code) (hcode : code t = .act a :: rest) :
    m.owner = some t := by
  by_contra howner
  have hsections := h.sections t
  rw [decide_eq_false howner, hcode] at hsections
  exact hsections

/-- Two threads cannot both be about to take steps of their own. -/
theorem excludes {a a' : α} {rest' : List (LockStep α)} (h : Guarded m code)
    (ht : code t = .act a :: rest) (ht' : code t' = .act a' :: rest') : t = t' :=
  Option.some.inj ((h.owner_of_act ht).symm.trans (h.owner_of_act ht'))

/-- A thread begins a new code. -/
theorem begin (h : Guarded m code) (hcode : code t = []) (hrest : Sections false rest) :
    Guarded m (Function.update code t rest) := by
  refine ⟨fun u => ?_, h.count⟩
  by_cases hu : u = t
  · subst hu
    have hsections := h.sections u
    rw [hcode] at hsections
    by_cases howner : m.owner = some u
    · rw [decide_eq_true howner] at hsections
      exact absurd hsections id
    · rwa [decide_eq_false howner, Function.update_self]
  · rw [Function.update_of_ne hu]
    exact h.sections u

/-- A thread takes a step of its own. -/
theorem act {a : α} (h : Guarded m code) (hcode : code t = .act a :: rest) :
    Guarded m (Function.update code t rest) := by
  refine ⟨fun u => ?_, h.count⟩
  by_cases hu : u = t
  · subst hu
    have hsections := h.sections u
    rw [decide_eq_true (h.owner_of_act hcode), hcode] at hsections
    rw [decide_eq_true (h.owner_of_act hcode), Function.update_self]
    exact hsections
  · rw [Function.update_of_ne hu]
    exact h.sections u

/-- A thread locks the mutex, which nobody owns. -/
theorem lock (h : Guarded m code) (hcode : code t = .lock :: rest)
    (hlock : m.lock .windows t = some m') : Guarded m' (Function.update code t rest) := by
  have hsections := h.sections t
  rw [hcode] at hsections
  unfold IMutex.lock at hlock
  split_ifs at hlock with hfree howner
  · obtain rfl := Option.some.inj hlock
    refine ⟨fun u => ?_, fun _ => rfl⟩
    have hnot : ∀ u, m.owner ≠ some u := by simp [hfree]
    rw [decide_eq_false (hnot t)] at hsections
    by_cases hu : u = t
    · subst hu
      rw [decide_eq_true rfl, Function.update_self]
      exact hsections
    · have hother := h.sections u
      rw [decide_eq_false (hnot u)] at hother
      rw [decide_eq_false (by simpa using Ne.symm hu), Function.update_of_ne hu]
      exact hother
  · rw [decide_eq_true howner] at hsections
    exact absurd hsections id

/-- The owner unlocks the mutex. -/
theorem unlock (h : Guarded m code) (hcode : code t = .unlock :: rest) :
    Guarded (m.unlock .windows t) (Function.update code t rest) := by
  have hsections := h.sections t
  rw [hcode] at hsections
  by_cases howner : m.owner = some t
  · have hunlock : m.unlock .windows t = .new := by
      rw [IMutex.unlock, if_pos howner, if_pos (h.count (by simp [howner]))]
    rw [decide_eq_true howner] at hsections
    rw [hunlock]
    refine ⟨fun u => ?_, fun hnew => absurd rfl hnew⟩
    rw [decide_eq_false (show (IMutex.new : IMutex θ).owner ≠ some u from nofun)]
    by_cases hu : u = t
    · subst hu
      rw [Function.update_self]
      exact hsections
    · have hother := h.sections u
      rw [decide_eq_false (by simpa [howner] using Ne.symm hu)] at hother
      rw [Function.update_of_ne hu]
      exact hother
  · rw [decide_eq_false howner] at hsections
    exact absurd hsections id

end Guarded

end Ick
