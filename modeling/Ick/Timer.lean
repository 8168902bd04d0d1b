import Ick.History
import Mathlib.Tactic.SplitIfs
import Mathlib.Tactic.Linarith

/-!
# Timers

A `Timer` calls `onTimer` from a thread of its own, the worker. On Windows `stop` suspends the
worker and `start` resumes it; `exit` sets a flag, at which the worker ends, and waits for it.
`m_state` is to say which of these was last, and the worker sets it as well, to running when it
begins and to idle when it ends.

`start` does not set the state when it resumes the worker, and nothing clears the flag. So the
first `start` of a timer does what it should, and one after a `stop` or an `exit` does not :
the timer runs and can not be stopped again, or the worker ends at once
(`throughout_kept_iff`).

The worker runs between the calls, between the creation of the thread and the assignment behind
it in `start`, and while `exit` sleeps. The mutex is that of the callers : the worker does not
lock it, and so the calls are one after the other.
-/

namespace Ick.Timer

/-- `TimerState` -/
inductive TimerState
  | IDLE | RUNNING | STOPPED
  deriving DecidableEq

/-- Where the worker is : before `TimerHandler`, at the head of the loop of `execute`, or in the
sleep with so many milliseconds left. -/
inductive Place
  | begin
  | loop
  | sleep (t : ℤ)

/-- A thread, with its suspend count. -/
structure Worker where
  place : Place
  suspended : ℕ

/-- A timer, its thread, and the number of calls of `onTimer`, of a parent that is not null. -/
structure State where
  m_state : TimerState
  m_exitFlag : Bool
  m_thread : Bool
  m_interval : ℤ
  worker : Option Worker
  fired : ℕ

/-- The constructor. -/
def new : State := ⟨.IDLE, false, false, 1000, none, 0⟩

/-- The worker goes on, unless it is suspended. It ends with the state set to idle. -/
def work (s : State) : State :=
  match s.worker with
  | none => s
  | some worker =>
    if 0 < worker.suspended then s
    else
      match worker.place with
      | .begin => { s with m_state := .RUNNING, worker := some ⟨.loop, 0⟩ }
      | .loop =>
        if s.m_exitFlag then { s with m_state := .IDLE, worker := none }
        else
          { s with
            fired := s.fired + 1
            worker := some ⟨if 0 < s.m_interval then .sleep s.m_interval else .loop, 0⟩ }
      | .sleep t =>
        if s.m_exitFlag then { s with m_state := .IDLE, worker := none }
        else { s with worker := some ⟨if 0 < t - 10 then .sleep (t - 10) else .loop, 0⟩ }

/-- The worker goes on for some steps. -/
def works : ℕ → State → State
  | 0, s => s
  | n + 1, s => works n (work s)

/-- `ResumeThread` -/
def resumeThread (s : State) : State :=
  { s with worker := s.worker.map fun worker => { worker with suspended := worker.suspended - 1 } }

/-- `SuspendThread` -/
def suspendThread (s : State) : State :=
  { s with worker := s.worker.map fun worker => { worker with suspended := worker.suspended + 1 } }

/-- `start`, where a new worker makes some steps before the assignment behind `CreateThread`. -/
def start (early : ℕ) (s : State) : State :=
  if s.m_state = .IDLE then
    let s := works early { s with m_thread := true, worker := some ⟨.begin, 0⟩ }
    { s with m_state := .RUNNING }
  else if s.m_state = .STOPPED ∧ s.m_thread = true then resumeThread s
  else s

/-- `stop` -/
def stop (s : State) : State :=
  if s.m_state = .RUNNING ∧ s.m_thread = true then
    { suspendThread s with m_state := .STOPPED }
  else s

/-- The loop of `exit`, where the worker makes so many steps in the sleep of each round; `none` if
it goes on after the rounds. -/
def exitLoop : List ℕ → State → Option State
  | rounds, s =>
    if s.m_state = .IDLE then some { s with m_thread := false }
    else
      match rounds with
      | [] => none
      | steps :: rounds =>
        let s' := { s with m_exitFlag := true }
        exitLoop rounds
          (works steps (if s.m_state = .STOPPED ∧ s.m_thread = true then resumeThread s' else s'))

/-- `exit` -/
def exit (rounds : List ℕ) (s : State) : Option State :=
  if s.m_state = .IDLE then some s else exitLoop rounds s

/-- `setInterval` -/
def setInterval (millisecond : ℤ) (s : State) : State :=
  if 0 ≤ millisecond then { s with m_interval := millisecond } else s

/-- A step of the worker, or a call. -/
inductive Event
  | work
  | start (early : ℕ)
  | stop
  | exit (rounds : List ℕ)
  | setInterval (millisecond : ℤ)

def step (s : State) : Event → Option State
  | .work => some (work s)
  | .start early => some (start early s)
  | .stop => some (stop s)
  | .exit rounds => exit rounds s
  | .setInterval millisecond => some (setInterval millisecond s)

/-- The timer after the events; `none` if an `exit` does not return. -/
def run (events : List Event) : Option State := events.foldlM step new

/-- `onTimer` is called again, if only the worker goes on. -/
def Fires (s : State) : Prop := ∃ n, s.fired < (works n s).fired

/-- The state is running exactly if there is a worker that is not suspended, and stopped exactly
if there is one that is. After `stop` the worker is suspended, and after `start` it calls
`onTimer`. -/
structure Matches (event : Event) (s : State) : Prop where
  running : s.m_state = .RUNNING ↔ ∃ worker, s.worker = some worker ∧ worker.suspended = 0
  stopped : s.m_state = .STOPPED ↔ ∃ worker, s.worker = some worker ∧ 0 < worker.suspended
  stop : event = .stop → ∀ worker, s.worker = some worker → 0 < worker.suspended
  start : (∃ early, event = .start early) → Fires s

/-- The timer was started. -/
def Started (pre : List Event) : Prop := ∃ early, .start early ∈ pre

/-- It was stopped or ended after it was started. -/
def Halted (pre : List Event) : Prop :=
  Since (fun pre event => Started pre ∧ (event = .stop ∨ ∃ rounds, event = .exit rounds))
    (fun _ _ => False) pre

/-- What an event leaves. -/
def Kept (pre : List Event) (event : Event) : Prop :=
  ∀ s, run (pre ++ [event]) = some s → Matches event s

/-- A `start` is not after a `stop` or `exit` of a started timer. -/
def InOrder (pre : List Event) (event : Event) : Prop :=
  (∃ early, event = .start early) → ¬Halted pre

/-! ## The worker -/

/-- There is a worker that is not suspended and not to end. -/
structure Alive (s : State) : Prop where
  m_exitFlag : s.m_exitFlag = false
  m_thread : s.m_thread = true
  worker : ∃ place, s.worker = some ⟨place, 0⟩

/-- What a step of the worker can be. -/
inductive Work (s : State) : State → Prop
  | gone (h : s.worker = none) : Work s s
  | suspended {worker : Worker} (h : s.worker = some worker) (hpos : 0 < worker.suspended) :
    Work s s
  | begins (h : s.worker = some ⟨.begin, 0⟩) :
    Work s { s with m_state := .RUNNING, worker := some ⟨.loop, 0⟩ }
  | ends {place : Place} (h : s.worker = some ⟨place, 0⟩) (hflag : s.m_exitFlag = true) :
    Work s { s with m_state := .IDLE, worker := none }
  | fires (h : s.worker = some ⟨.loop, 0⟩) (hflag : s.m_exitFlag = false) (place : Place) :
    Work s { s with fired := s.fired + 1, worker := some ⟨place, 0⟩ }
  | sleeps {t : ℤ} (h : s.worker = some ⟨.sleep t, 0⟩) (hflag : s.m_exitFlag = false) :
    Work s { s with worker := some ⟨if 0 < t - 10 then .sleep (t - 10) else .loop, 0⟩ }

theorem work_spec (s : State) : Work s (work s) := by
  unfold work
  cases hworker : s.worker with
  | none => exact .gone hworker
  | some worker =>
    obtain ⟨place, suspended⟩ := worker
    by_cases hpos : 0 < suspended
    · simp only [if_pos hpos]
      exact .suspended hworker hpos
    · obtain rfl : suspended = 0 := Nat.eq_zero_of_not_pos hpos
      simp only [lt_irrefl, if_false]
      cases place with
      | begin => exact .begins hworker
      | loop =>
        by_cases hflag : s.m_exitFlag = true
        · simp only [if_pos hflag]
          exact .ends hworker hflag
        · simp only [if_neg hflag]
          exact .fires hworker (Bool.eq_false_of_not_eq_true hflag) _
      | sleep t =>
        by_cases hflag : s.m_exitFlag = true
        · simp only [if_pos hflag]
          exact .ends hworker hflag
        · simp only [if_neg hflag]
          exact .sleeps hworker (Bool.eq_false_of_not_eq_true hflag)

/-- The flag is the callers'. -/
theorem Work.m_exitFlag {s s' : State} (h : Work s s') : s'.m_exitFlag = s.m_exitFlag := by
  cases h <;> rfl

/-- A worker that is to end does not call `onTimer`. -/
theorem Work.fired {s s' : State} (h : Work s s') (hflag : s.m_exitFlag = true) :
    s'.fired = s.fired := by
  cases h with
  | fires _ hnot => exact absurd (hflag.symm.trans hnot) nofun
  | _ => rfl

/-- A worker is not idle, and with the state idle it has ended. -/
theorem Work.idle {s s' : State} (h : Work s s') (hidle : s.m_state = .IDLE → s.worker = none)
    (hidle' : s'.m_state = .IDLE) : s'.worker = none := by
  cases h with
  | gone h => exact h
  | ends _ _ => rfl
  | begins _ => cases hidle'
  | suspended h _ => exact absurd (h.symm.trans (hidle hidle')) nofun
  | fires h _ _ => exact absurd (h.symm.trans (hidle hidle')) nofun
  | sleeps h _ => exact absurd (h.symm.trans (hidle hidle')) nofun

/-- What a step leaves of a worker that is not to end. -/
theorem Alive.step {s s' : State} (h : Alive s) (hwork : Work s s') :
    Alive s' ∧ (s.m_state = .RUNNING → s'.m_state = .RUNNING) := by
  obtain ⟨hflag, hthread, place, hworker⟩ := h
  cases hwork with
  | gone _ => exact ⟨⟨hflag, hthread, place, hworker⟩, id⟩
  | suspended _ _ => exact ⟨⟨hflag, hthread, place, hworker⟩, id⟩
  | begins _ => exact ⟨⟨hflag, hthread, _, rfl⟩, fun _ => rfl⟩
  | ends _ hnot => exact absurd (hflag.symm.trans hnot) nofun
  | fires _ _ _ => exact ⟨⟨hflag, hthread, _, rfl⟩, id⟩
  | sleeps _ _ => exact ⟨⟨hflag, hthread, _, rfl⟩, id⟩

theorem works_m_exitFlag {n : ℕ} : ∀ {s : State}, (works n s).m_exitFlag = s.m_exitFlag := by
  induction n with
  | zero => exact rfl
  | succ n ih => exact fun {s} => ih.trans (work_spec s).m_exitFlag

theorem works_fired {n : ℕ} : ∀ {s : State}, s.m_exitFlag = true →
    (works n s).fired = s.fired := by
  induction n with
  | zero => exact fun _ => rfl
  | succ n ih =>
    intro s h
    have hwork := work_spec s
    exact (ih (hwork.m_exitFlag.trans h)).trans (hwork.fired h)

theorem not_fires {s : State} (h : s.m_exitFlag = true) : ¬Fires s := by
  rintro ⟨n, hn⟩
  rw [works_fired h] at hn
  exact lt_irrefl _ hn

theorem Alive.works {s : State} (h : Alive s) (n : ℕ) : Alive (works n s) := by
  induction n generalizing s with
  | zero => exact h
  | succ n ih => exact ih (h.step (work_spec s)).1

theorem fires_of_work {s s' : State} (hwork : work s = s') (hfired : s'.fired = s.fired)
    (h : Fires s') : Fires s := by
  obtain ⟨n, hn⟩ := h
  exact ⟨n + 1, by rw [works, hwork, ← hfired]; exact hn⟩

theorem fires_of_loop {s : State} (hflag : s.m_exitFlag = false)
    (h : s.worker = some ⟨.loop, 0⟩) : Fires s := by
  refine ⟨1, ?_⟩
  simp [works, work, hflag, h]

/-- Behind the sleep is the head of the loop. -/
theorem fires_of_sleep {n : ℕ} : ∀ {s : State} {t : ℤ}, t ≤ n → s.m_exitFlag = false →
    s.worker = some ⟨.sleep t, 0⟩ → Fires s := by
  have hwork : ∀ {s : State} {t : ℤ}, s.m_exitFlag = false → s.worker = some ⟨.sleep t, 0⟩ →
      work s = { s with worker := some ⟨if 0 < t - 10 then .sleep (t - 10) else .loop, 0⟩ } := by
    intro s t hflag h
    simp only [work, hflag, h, lt_irrefl, if_false, if_neg Bool.false_ne_true]
  induction n with
  | zero =>
    intro s t ht hflag h
    have hstep := hwork hflag h
    rw [if_neg (by omega)] at hstep
    exact fires_of_work hstep rfl (fires_of_loop hflag rfl)
  | succ n ih =>
    intro s t ht hflag h
    have hstep := hwork hflag h
    by_cases hlt : 0 < t - 10
    · rw [if_pos hlt] at hstep
      exact fires_of_work hstep rfl (ih (by omega) hflag rfl)
    · rw [if_neg hlt] at hstep
      exact fires_of_work hstep rfl (fires_of_loop hflag rfl)

/-- A worker that is not to end calls `onTimer`. -/
theorem Alive.fires {s : State} (h : Alive s) : Fires s := by
  obtain ⟨hflag, -, place, hworker⟩ := h
  cases place with
  | begin =>
    have hstep : work s = { s with m_state := .RUNNING, worker := some ⟨.loop, 0⟩ } := by
      simp [work, hworker]
    exact fires_of_work hstep rfl (fires_of_loop hflag rfl)
  | loop => exact fires_of_loop hflag hworker
  | sleep t => exact fires_of_sleep (Int.self_le_toNat t) hflag hworker

/-! ## The calls -/

/-- Before the first `start`. -/
structure Fresh (s : State) : Prop where
  m_state : s.m_state = .IDLE
  m_exitFlag : s.m_exitFlag = false
  worker : s.worker = none

/-- After it. -/
structure Running (s : State) : Prop extends Alive s where
  m_state : s.m_state = .RUNNING

/-- After `stop`. -/
structure Stopped (s : State) : Prop where
  m_state : s.m_state = .STOPPED
  m_thread : s.m_thread = true
  worker : ∃ place, s.worker = some ⟨place, 1⟩

/-- After `exit`. -/
structure Exited (s : State) : Prop where
  m_state : s.m_state = .IDLE
  m_exitFlag : s.m_exitFlag = true
  worker : s.worker = none

theorem Fresh.start {s : State} (h : Fresh s) (early : ℕ) : Running (start early s) := by
  have halive : Alive { s with m_thread := true, worker := some ⟨.begin, 0⟩ } :=
    ⟨h.m_exitFlag, rfl, _, rfl⟩
  have hworks := halive.works early
  rw [Timer.start, if_pos h.m_state]
  exact { m_exitFlag := hworks.m_exitFlag, m_thread := hworks.m_thread, worker := hworks.worker,
          m_state := rfl }

theorem Running.stop {s : State} (h : Running s) : Stopped (stop s) := by
  obtain ⟨place, hworker⟩ := h.worker
  rw [Timer.stop, if_pos ⟨h.m_state, h.m_thread⟩]
  exact ⟨rfl, h.m_thread, place, by simp [suspendThread, hworker]⟩

theorem works_idle {n : ℕ} : ∀ {s : State}, (s.m_state = .IDLE → s.worker = none) →
    (works n s).m_state = .IDLE → (works n s).worker = none := by
  induction n with
  | zero => exact fun h => h
  | succ n ih => exact fun {s} h => ih ((work_spec s).idle h)

theorem exitLoop_idle {s : State} (h : s.m_state = .IDLE) (rounds : List ℕ) :
    exitLoop rounds s = some { s with m_thread := false } := by
  cases rounds with
  | nil => rw [exitLoop, if_pos h]
  | cons steps rounds => rw [exitLoop, if_pos h]

/-- When `exit` returns the worker has ended. -/
theorem exited_of_exitLoop {rounds : List ℕ} : ∀ {s s' : State}, exitLoop rounds s = some s' →
    (s.m_state = .IDLE → s.worker = none ∧ s.m_exitFlag = true) → Exited s' := by
  have hends : ∀ {rounds : List ℕ} {s s' : State}, exitLoop rounds s = some s' →
      (s.m_state = .IDLE → s.worker = none ∧ s.m_exitFlag = true) → s.m_state = .IDLE →
      Exited s' := by
    intro rounds s s' hloop h hidle
    rw [exitLoop_idle hidle, Option.some.injEq] at hloop
    exact hloop ▸ ⟨hidle, (h hidle).2, (h hidle).1⟩
  induction rounds with
  | nil =>
    intro s s' hloop h
    by_cases hidle : s.m_state = .IDLE
    · exact hends hloop h hidle
    · rw [exitLoop, if_neg hidle] at hloop
      cases hloop
  | cons steps rounds ih =>
    intro s s' hloop h
    by_cases hidle : s.m_state = .IDLE
    · exact hends hloop h hidle
    · rw [exitLoop, if_neg hidle] at hloop
      refine ih hloop fun hnext => ?_
      refine ⟨works_idle (fun hidle' => absurd hidle' ?_) hnext, works_m_exitFlag.trans ?_⟩
      · split_ifs <;> exact hidle
      · split_ifs <;> rfl

theorem exited_of_exit {rounds : List ℕ} {s s' : State} (h : s.m_state ≠ .IDLE)
    (hexit : exit rounds s = some s') : Exited s' := by
  rw [exit, if_neg h] at hexit
  exact exited_of_exitLoop hexit fun hidle => absurd hidle h

/-! ## The states between the calls -/

/-- An idle timer without a worker. -/
theorem matches_of_idle {s : State} (hstate : s.m_state = .IDLE) (hworker : s.worker = none)
    {event : Event} (hevent : ∀ early, event ≠ .start early) : Matches event s where
  running := iff_of_false (by rw [hstate]; nofun) (by simp [hworker])
  stopped := iff_of_false (by rw [hstate]; nofun) (by simp [hworker])
  stop := fun _ => by simp [hworker]
  start := fun ⟨early, hstart⟩ => absurd hstart (hevent early)

theorem Fresh.matches {s : State} (h : Fresh s) {event : Event}
    (hevent : ∀ early, event ≠ .start early) : Matches event s :=
  matches_of_idle h.m_state h.worker hevent

theorem Running.matches {s : State} (h : Running s) {event : Event} (hevent : event ≠ .stop) :
    Matches event s := by
  obtain ⟨place, hworker⟩ := h.worker
  exact {
    running := iff_of_true h.m_state ⟨_, hworker, rfl⟩
    stopped := iff_of_false (by rw [h.m_state]; nofun) (by simp [hworker])
    stop := fun hstop => absurd hstop hevent
    start := fun _ => h.fires }

theorem Stopped.matches {s : State} (h : Stopped s) {event : Event}
    (hevent : ∀ early, event ≠ .start early) : Matches event s := by
  obtain ⟨place, hworker⟩ := h.worker
  exact {
    running := iff_of_false (by rw [h.m_state]; nofun) (by simp [hworker])
    stopped := iff_of_true h.m_state ⟨_, hworker, Nat.one_pos⟩
    stop := fun _ => by simp [hworker]
    start := fun ⟨early, hstart⟩ => absurd hstart (hevent early) }

theorem Exited.matches {s : State} (h : Exited s) {event : Event}
    (hevent : ∀ early, event ≠ .start early) : Matches event s :=
  matches_of_idle h.m_state h.worker hevent

/-- A `start` of a stopped timer leaves the state as it is. -/
theorem Stopped.not_matches {s : State} (h : Stopped s) (early : ℕ) :
    ¬Matches (.start early) (start early s) := by
  obtain ⟨place, hworker⟩ := h.worker
  have hne : s.m_state ≠ .IDLE := by rw [h.m_state]; nofun
  intro hmatches
  have hstopped := hmatches.stopped
  rw [start, if_neg hne, if_pos ⟨h.m_state, h.m_thread⟩] at hstopped
  obtain ⟨worker, hsome, hpos⟩ := hstopped.1 h.m_state
  simp only [resumeThread, hworker, Option.map_some, Option.some.injEq] at hsome
  rw [← hsome] at hpos
  exact lt_irrefl _ hpos

/-- One of a timer that has ended leaves the flag as it is. -/
theorem Exited.not_matches {s : State} (h : Exited s) (early : ℕ) :
    ¬Matches (.start early) (start early s) := by
  intro hmatches
  refine not_fires ?_ (hmatches.start ⟨early, rfl⟩)
  rw [start, if_pos h.m_state]
  exact works_m_exitFlag.trans h.m_exitFlag

/-! ## All calls -/

theorem started_snoc {pre : List Event} {event : Event} :
    Started (pre ++ [event]) ↔ Started pre ∨ ∃ early, event = .start early := by
  unfold Started
  simp only [List.mem_append, List.mem_singleton, exists_or]
  simp [eq_comm]

theorem halted_snoc {pre : List Event} {event : Event} :
    Halted (pre ++ [event]) ↔
      (Started pre ∧ (event = .stop ∨ ∃ rounds, event = .exit rounds)) ∨ Halted pre := by
  unfold Halted
  rw [since_snoc]
  simp

theorem started_of_halted {pre : List Event} (h : Halted pre) : Started pre := by
  obtain ⟨front, event, back, rfl, ⟨⟨early, hmem⟩, -⟩, -⟩ := h
  exact ⟨early, List.mem_append_left _ hmem⟩

/-- The timer after a history in which no `start` came after a `stop` or `exit`. -/
inductive Phase (pre : List Event) (s : State) : Prop
  | fresh (hpre : ¬Started pre) (h : Fresh s)
  | running (hpre : Started pre) (hhalted : ¬Halted pre) (h : Running s)
  | stopped (hpre : Halted pre) (h : Stopped s)
  | exited (hpre : Halted pre) (h : Exited s)

/-- What an event keeps that is no call of `start`, `stop` or `exit`. -/
theorem Phase.keep {pre : List Event} {event : Event} {s s' : State} (h : Phase pre s)
    (hstart : ∀ early, event ≠ .start early) (hstop : event ≠ .stop)
    (hexit : ∀ rounds, event ≠ .exit rounds) (hfresh : Fresh s → Fresh s')
    (hrunning : Running s → Running s') (hstopped : Stopped s → Stopped s')
    (hexited : Exited s → Exited s') :
    Phase (pre ++ [event]) s' ∧ Matches event s' := by
  have hstarted : Started (pre ++ [event]) ↔ Started pre := by simp [started_snoc, hstart]
  have hhalted : Halted (pre ++ [event]) ↔ Halted pre := by simp [halted_snoc, hstop, hexit]
  cases h with
  | fresh hpre h => exact ⟨.fresh (mt hstarted.1 hpre) (hfresh h), (hfresh h).matches hstart⟩
  | running hpre hnot h =>
    exact ⟨.running (hstarted.2 hpre) (mt hhalted.1 hnot) (hrunning h), (hrunning h).matches hstop⟩
  | stopped hpre h => exact ⟨.stopped (hhalted.2 hpre) (hstopped h), (hstopped h).matches hstart⟩
  | exited hpre h => exact ⟨.exited (hhalted.2 hpre) (hexited h), (hexited h).matches hstart⟩

/-- Only a running timer has a worker that goes on. -/
theorem Phase.work {pre : List Event} {s : State} (h : Phase pre s) :
    Phase (pre ++ [.work]) (work s) ∧ Matches .work (work s) := by
  have hnone : s.worker = none → Timer.work s = s := fun hworker => by
    unfold Timer.work
    rw [hworker]
  refine h.keep nofun nofun nofun (fun h => ?_) (fun h => ?_) (fun h => ?_) (fun h => ?_)
  · rwa [hnone h.worker]
  · obtain ⟨halive, hstate⟩ := h.toAlive.step (work_spec s)
    exact { toAlive := halive, m_state := hstate h.m_state }
  · obtain ⟨place, hworker⟩ := h.worker
    have hwork : Timer.work s = s := by
      unfold Timer.work
      simp only [hworker, Nat.one_pos, if_true]
    rwa [hwork]
  · rwa [hnone h.worker]

theorem Phase.setInterval {pre : List Event} {s : State} (h : Phase pre s) (millisecond : ℤ) :
    Phase (pre ++ [.setInterval millisecond]) (setInterval millisecond s) ∧
      Matches (.setInterval millisecond) (setInterval millisecond s) := by
  unfold Timer.setInterval
  split_ifs
  · exact h.keep nofun nofun nofun (fun h => ⟨h.m_state, h.m_exitFlag, h.worker⟩)
      (fun h => ⟨⟨h.m_exitFlag, h.m_thread, h.worker⟩, h.m_state⟩)
      (fun h => ⟨h.m_state, h.m_thread, h.worker⟩)
      (fun h => ⟨h.m_state, h.m_exitFlag, h.worker⟩)
  · exact h.keep nofun nofun nofun id id id id

/-- The first `start`, and those of a timer that runs. -/
theorem Phase.start {pre : List Event} {s : State} (h : Phase pre s) (hhalted : ¬Halted pre)
    (early : ℕ) :
    Phase (pre ++ [.start early]) (start early s) ∧ Matches (.start early) (start early s) := by
  have hstarted : Started (pre ++ [.start early]) := started_snoc.2 (Or.inr ⟨early, rfl⟩)
  have hnot : ¬Halted (pre ++ [.start early]) := by simpa [halted_snoc] using hhalted
  have hrunning : Running (Timer.start early s) := by
    cases h with
    | fresh _ h => exact h.start early
    | running _ _ h =>
      have hkeep : Timer.start early s = s := by
        rw [Timer.start, if_neg (by rw [h.m_state]; nofun), if_neg (by rw [h.m_state]; nofun)]
      rwa [hkeep]
    | stopped hpre _ => exact absurd hpre hhalted
    | exited hpre _ => exact absurd hpre hhalted
  exact ⟨.running hstarted hnot hrunning, hrunning.matches nofun⟩

theorem Phase.stop {pre : List Event} {s : State} (h : Phase pre s) :
    Phase (pre ++ [.stop]) (stop s) ∧ Matches .stop (stop s) := by
  have hkeep : s.m_state ≠ .RUNNING → Timer.stop s = s := fun hne => if_neg fun hrun => hne hrun.1
  cases h with
  | fresh hpre h =>
    rw [hkeep (by rw [h.m_state]; nofun)]
    exact ⟨.fresh (by simpa [started_snoc] using hpre) h, h.matches nofun⟩
  | running hpre _ h =>
    exact ⟨.stopped (halted_snoc.2 (Or.inl ⟨hpre, Or.inl rfl⟩)) h.stop, h.stop.matches nofun⟩
  | stopped hpre h =>
    rw [hkeep (by rw [h.m_state]; nofun)]
    exact ⟨.stopped (halted_snoc.2 (Or.inr hpre)) h, h.matches nofun⟩
  | exited hpre h =>
    rw [hkeep (by rw [h.m_state]; nofun)]
    exact ⟨.exited (halted_snoc.2 (Or.inr hpre)) h, h.matches nofun⟩

theorem Phase.exit {pre : List Event} {s s' : State} (h : Phase pre s) {rounds : List ℕ}
    (hexit : exit rounds s = some s') :
    Phase (pre ++ [.exit rounds]) s' ∧ Matches (.exit rounds) s' := by
  have hkeep : s.m_state = .IDLE → s = s' := fun hidle => by
    rw [Timer.exit, if_pos hidle] at hexit
    exact Option.some.inj hexit
  cases h with
  | fresh hpre h =>
    obtain rfl := hkeep h.m_state
    exact ⟨.fresh (by simpa [started_snoc] using hpre) h, h.matches nofun⟩
  | running hpre _ h =>
    have hexited := exited_of_exit (by rw [h.m_state]; nofun) hexit
    exact ⟨.exited (halted_snoc.2 (Or.inl ⟨hpre, Or.inr ⟨rounds, rfl⟩⟩)) hexited,
      hexited.matches nofun⟩
  | stopped hpre h =>
    have hexited := exited_of_exit (by rw [h.m_state]; nofun) hexit
    exact ⟨.exited (halted_snoc.2 (Or.inr hpre)) hexited, hexited.matches nofun⟩
  | exited hpre h =>
    obtain rfl := hkeep h.m_state
    exact ⟨.exited (halted_snoc.2 (Or.inr hpre)) h, h.matches nofun⟩

/-- An event of a history in order. -/
theorem Phase.step {pre : List Event} {event : Event} {s s' : State} (h : Phase pre s)
    (horder : InOrder pre event) (hstep : step s event = some s') :
    Phase (pre ++ [event]) s' ∧ Matches event s' := by
  cases event with
  | work => exact Option.some.inj hstep ▸ h.work
  | setInterval millisecond => exact Option.some.inj hstep ▸ h.setInterval millisecond
  | start early => exact Option.some.inj hstep ▸ h.start (horder ⟨early, rfl⟩) early
  | stop => exact Option.some.inj hstep ▸ h.stop
  | exit rounds => exact h.exit hstep

/-- An event out of order is a `start` that does not do what it should. -/
theorem Phase.not_matches {pre : List Event} {event : Event} {s s' : State} (h : Phase pre s)
    (horder : ¬InOrder pre event) (hstep : Timer.step s event = some s') : ¬Matches event s' := by
  rw [InOrder, Classical.not_imp, not_not] at horder
  obtain ⟨⟨early, rfl⟩, hhalted⟩ := horder
  obtain rfl : Timer.start early s = s' := Option.some.inj hstep
  cases h with
  | fresh hpre _ => exact absurd (started_of_halted hhalted) hpre
  | running _ hnot _ => exact absurd hhalted hnot
  | stopped _ h => exact h.not_matches early
  | exited _ h => exact h.not_matches early

theorem run_snoc {pre : List Event} {event : Event} :
    run (pre ++ [event]) = (run pre).bind fun s => Timer.step s event := by
  rw [run, List.foldlM_append]
  simp [run]

/-- The timer after events in order. -/
theorem phase_run {events : List Event} (h : Throughout InOrder events) :
    ∀ {s : State}, run events = some s → Phase events s := by
  refine h.invariant (I := fun events => ∀ {s : State}, run events = some s → Phase events s)
    ?_ ?_
  · intro s hs
    obtain rfl : new = s := Option.some.inj hs
    exact .fresh (by simp [Started]) ⟨rfl, rfl, rfl⟩
  · intro pre event ih horder s hs
    rw [run_snoc, Option.bind_eq_some_iff] at hs
    obtain ⟨s₀, hs₀, hstep⟩ := hs
    exact ((ih hs₀).step horder hstep).1

/-- Timers. In a run whose calls all return the state matches the worker after every event, `stop`
suspends it and `start` makes it call `onTimer`, exactly if no `start` comes after a `stop` or
`exit` of the started timer. -/
theorem throughout_kept_iff {events : List Event} {s : State} (h : run events = some s) :
    Throughout Kept events ↔ Throughout InOrder events := by
  induction events using List.reverseRecOn generalizing s with
  | nil => exact iff_of_true throughout_nil throughout_nil
  | append_singleton pre event ih =>
    have hrun := h
    rw [run_snoc, Option.bind_eq_some_iff] at hrun
    obtain ⟨s₀, hs₀, hstep⟩ := hrun
    rw [throughout_snoc, throughout_snoc, ih hs₀]
    refine and_congr_right fun hpre => ?_
    have hphase := phase_run hpre hs₀
    constructor
    · intro hkept
      by_contra horder
      exact hphase.not_matches horder hstep (hkept s h)
    · intro horder s' hs'
      obtain rfl : s = s' := Option.some.inj (h.symm.trans hs')
      exact (hphase.step horder hstep).2

/-- A timer that is started, fires, is stopped and ended. -/
theorem throughout_kept_once :
    Throughout Kept [.start 0, .work, .work, .stop, .exit [1, 1]] ↔
      Throughout InOrder [.start 0, .work, .work, .stop, .exit [1, 1]] :=
  @throughout_kept_iff [.start 0, .work, .work, .stop, .exit [1, 1]] _ rfl

/-- The second `stop` does not suspend the worker. -/
theorem not_kept_second_stop : ¬Throughout Kept [.start 0, .stop, .start 0, .stop] := by
  intro h
  have hstop := (h [.start 0, .stop, .start 0] .stop (List.prefix_refl _) _ rfl).stop rfl
  exact absurd (hstop ⟨.begin, 0⟩ rfl) (by decide)

end Ick.Timer
