import Ick.LogFiles

/-!
# From the calls to the log files

Threads log, the logger's thread takes what they have pushed in batches, and it writes each batch to
a file. `written_of_run` says where the messages are in each state of such a program : what is
written, the batch in the hand of the logger's thread, and the queue are the messages pushed, in
order.

`Fatal` logs a message, waits until the queue is empty, sets the flag on which the logger's thread
ends, waits for the thread, and exits. The queue is empty when the last batch is taken, and not when
it is written. On Linux the thread is waited for, so that the batch is written as well; on Windows
`join` is empty, and what is in the hand of the thread is lost (`written_of_fatal`).

A mutex that is locked for looking at the queue only is locked, and unlocked, in one event.
-/

set_option linter.unusedSectionVars false

namespace Ick

/-- Where the logger's thread is : not started yet, at the test of `exit_flag_`, in an iteration,
or at its end. -/
inductive WriterPhase
  | created
  | test
  | iteration
  | ended
  deriving DecidableEq

/-- How far a call of `Fatal` with a message has got : it waits for an empty queue, or has seen one
when these messages had been pushed, and is before `stop`, or waits there for the logger's
thread. -/
inductive FatalPhase
  | idle
  | waiting (m : LoggerMessage)
  | stopping (m : LoggerMessage) (seen : List LoggerMessage)
  | joining (m : LoggerMessage) (seen : List LoggerMessage)

/-- The call has seen an empty queue when these messages had been pushed. -/
def FatalPhase.Saw (phase : FatalPhase) (m : LoggerMessage) (seen : List LoggerMessage) : Prop :=
  phase = .stopping m seen ∨ phase = .joining m seen

/-- The queue, the files, the logger's thread, and the calls of `Fatal`; and the thread that the
program has been left by. -/
structure LogPipeline (P : Type*) where
  queue : LogQueue P
  logger : Logger
  writer : WriterPhase
  exitFlag : Bool
  fatal : P → FatalPhase
  exited : Option P

/-- `start` succeeds, a thread calls a function of the logger, or `Fatal`, or takes its next step in
the code of the queue, or in `Fatal` : it looks whether the queue is empty, sets the flag, or exits.
The logger's thread tests the flag, or writes its batch. -/
inductive PipelineEvent (P : Type*)
  | start
  | call (p : P) (logTime : Str) (c : LogCall)
  | fatal (p : P) (logTime message : Str) (type : LoggerType)
  | go (t : LogThread P)
  | check (p : P)
  | raise (p : P)
  | exit (p : P)
  | iterate
  | write (formatTime : Str → Str)

namespace LogQueue

variable {P : Type*}

/-- The batch that the logger's thread has taken in its iteration. -/
def held (s : LogQueue P) : List LoggerMessage :=
  if .act .clear ∈ s.code .writer then [] else s.batch

end LogQueue

namespace LogPipeline

variable {P : Type*} [DecidableEq P]

/-- A program that has not logged anything. -/
def new (filePath : Str) (files : Files) : LogPipeline P where
  queue := .new
  logger := .new filePath files
  writer := .created
  exitFlag := false
  fatal _ := .idle
  exited := none

/-- One event in a program that runs. -/
def act (platform : Platform) (logLevel : LoggerLevel) (s : LogPipeline P) :
    PipelineEvent P → Option (LogPipeline P)
  | .start =>
    if s.writer = .created then some { s with writer := .test, exitFlag := false } else none
  | .call p logTime c =>
    match s.fatal p with
    | .idle => (s.queue.step platform logLevel (.call p logTime c)).map ({ s with queue := · })
    | _ => none
  | .fatal p logTime message type =>
    match s.fatal p with
    | .idle =>
      if message = [] then some s
      else
        -- up to here `Fatal` is `Log` with its own level
        (s.queue.step platform logLevel (.call p logTime (.Log message .FATAL type))).map
          ({ s with
            queue := ·
            fatal := Function.update s.fatal p (.waiting ⟨logTime, message, .FATAL, type⟩) })
    | _ => none
  | .go t => (s.queue.step platform logLevel (.go t)).map ({ s with queue := · })
  | .check p =>
    match s.fatal p with
    | .waiting m =>
      if s.queue.code (.producer p) = [] ∧
          (s.queue.mutex.lock platform (.producer p)).isSome then
        if s.queue.messages = [] then
          some { s with fatal := Function.update s.fatal p (.stopping m s.queue.pushed) }
        else some s
      else none
    | _ => none
  | .raise p =>
    match s.fatal p with
    | .stopping m seen =>
      some { s with exitFlag := true, fatal := Function.update s.fatal p (.joining m seen) }
    | _ => none
  | .exit p =>
    match s.fatal p with
    | .joining _ _ =>
      match platform with
      | .windows => some { s with exited := some p }
      | .linux => if s.writer = .ended then some { s with exited := some p } else none
    | _ => none
  | .iterate =>
    if s.writer = .test then
      if s.exitFlag then some { s with writer := .ended }
      else
        (s.queue.step platform logLevel .iterate).map
          ({ s with queue := ·, writer := .iteration })
    else none
  | .write formatTime =>
    if s.writer = .iteration ∧ s.queue.code .writer = [] then
      (s.logger.iterate ⟨formatTime, s.queue.batch⟩).map
        ({ s with logger := ·, writer := .test })
    else none

/-- One event. -/
def step (platform : Platform) (logLevel : LoggerLevel) (s : LogPipeline P) (e : PipelineEvent P) :
    Option (LogPipeline P) :=
  if s.exited.isSome then none else s.act platform logLevel e

/-- The batch that is taken and not written yet. -/
def inHand (s : LogPipeline P) : List LoggerMessage :=
  if s.writer = .iteration then s.queue.held else []

/-- On Linux, no message is pushed between the copy and the clearing of the queue, and each name
given to a new file is new. -/
def Clean (platform : Platform) (s : LogPipeline P) : PipelineEvent P → Prop
  | .go t => platform = .linux → s.queue.Undisturbed (.go t)
  | .write formatTime => s.queue.batch ≠ [] → s.logger.NewName ⟨formatTime, s.queue.batch⟩
  | _ => True

/-- A message is put into the queue. -/
def Recorded (logLevel : LoggerLevel) (m : LoggerMessage) : Prop :=
  m.logType ≠ .Print ∧ m.logLevel.ctorIdx ≥ logLevel.ctorIdx

end LogPipeline

/-! ## The queue -/

namespace LogQueue

variable {P : Type*} [DecidableEq P] {platform : Platform} {logLevel : LoggerLevel}
  {s s' : LogQueue P} {e : LogEvent P}

/-- What is to be kept of the queue. -/
structure Sound (platform : Platform) (s : LogQueue P) : Prop where
  guarded : platform = .windows → Guarded s.mutex s.code
  coded : s.Coded
  accounted : s.Accounted

theorem sound_new : Sound platform (new : LogQueue P) :=
  ⟨fun _ => ⟨fun _ => trivial, fun hne => absurd rfl hne⟩, coded_new, rfl⟩

theorem Sound.step (h : s.Sound platform) (hclean : platform = .linux → s.Undisturbed e)
    (hstep : s.step platform logLevel e = some s') : s'.Sound platform := by
  have hundisturbed : s.Undisturbed e := by
    cases platform with
    | windows => exact undisturbed_of_guarded (h.guarded rfl) e
    | linux => exact hclean rfl
  obtain ⟨hcoded, haccounted⟩ := coded_step h.coded hundisturbed hstep
  refine ⟨?_, hcoded, haccounted h.accounted⟩
  rintro rfl
  exact guarded_step (h.guarded rfl) hstep

/-- What a thread that logs leaves alone, and what it has of its own. -/
structure LeftBy (p : P) (s s' : LogQueue P) : Prop where
  writer : s'.code .writer = s.code .writer
  batch : s'.batch = s.batch
  batches : s'.batches = s.batches
  others : ∀ q, q ≠ p → s'.code (.producer q) = s.code (.producer q)
  pushed : s.pushed <+: s'.pushed

theorem LeftBy.held (h : LeftBy p s s') : s'.held = s.held := by
  rw [LogQueue.held, LogQueue.held, h.writer, h.batch]

theorem leftBy_call {p : P} {logTime : Str} {c : LogCall}
    (hstep : s.step platform logLevel (.call p logTime c) = some s') :
    LeftBy p s s' ∧ s'.code (.producer p) = c.steps logLevel logTime := by
  simp only [LogQueue.step] at hstep
  split_ifs at hstep
  obtain rfl := Option.some.inj hstep
  exact ⟨⟨by simp, rfl, rfl, fun q hq => by simp [hq], List.prefix_refl _⟩, by simp⟩

/-- A step of a thread that logs. What it was about to push is pushed, or still to be pushed. -/
theorem leftBy_go (h : s.Coded) {p : P}
    (hstep : s.step platform logLevel (.go (.producer p)) = some s') :
    LeftBy p s s' ∧ ∀ m, .act (.pushBack m) ∈ s.code (.producer p) →
      m ∈ s'.pushed ∨ .act (.pushBack m) ∈ s'.code (.producer p) := by
  simp only [LogQueue.step] at hstep
  split at hstep
  · cases hstep
  · next op code hcode =>
    obtain ⟨s'', hexec, rfl⟩ := Option.map_eq_some_iff.1 hstep
    have hop := h.producer p op (by rw [hcode]; exact List.mem_cons_self)
    have hleft : s''.code = s.code ∧ s''.batch = s.batch ∧ s''.batches = s.batches ∧
        s.pushed <+: s''.pushed ∧ ∀ m, op = .act (.pushBack m) → m ∈ s''.pushed := by
      cases op with
      | lock =>
        obtain ⟨mutex, -, rfl⟩ := Option.map_eq_some_iff.1 hexec
        exact ⟨rfl, rfl, rfl, List.prefix_refl _, fun _ heq => by cases heq⟩
      | unlock =>
        obtain rfl := Option.some.inj hexec
        exact ⟨rfl, rfl, rfl, List.prefix_refl _, fun _ heq => by cases heq⟩
      | act a =>
        cases a with
        | print m =>
          obtain rfl := Option.some.inj hexec
          exact ⟨rfl, rfl, rfl, List.prefix_refl _, fun _ heq => by cases heq⟩
        | pushBack m =>
          obtain rfl := Option.some.inj hexec
          refine ⟨rfl, rfl, rfl, List.prefix_append _ _, fun m' heq => ?_⟩
          cases heq
          exact List.mem_append_right _ (List.mem_singleton_self m)
        | assign => exact absurd hop id
        | clear => exact absurd hop id
    obtain ⟨hsame, hbatch, hbatches, hpushed, hpush⟩ := hleft
    refine ⟨⟨?_, hbatch, hbatches, fun q hq => ?_, hpushed⟩, fun m hm => ?_⟩
    · simp [hsame]
    · simp [hsame, hq]
    · rw [hcode, List.mem_cons] at hm
      rcases hm with heq | hm
      · exact Or.inl (hpush m heq.symm)
      · exact Or.inr (by simpa using hm)

/-- A step of the logger's thread. What it has taken so far is what it had, and what it holds. -/
theorem go_writer (h : s.Coded) (hstep : s.step platform logLevel (.go .writer) = some s') :
    s'.pushed = s.pushed ∧ (∀ p, s'.code (.producer p) = s.code (.producer p)) ∧
      s.batches.flatten <+: s'.batches.flatten ∧
      ∀ had, s.batches.flatten = had ++ s.held → s'.batches.flatten = had ++ s'.held := by
  simp only [LogQueue.step] at hstep
  split at hstep
  · cases hstep
  · next op code hcode =>
    obtain ⟨s'', hexec, rfl⟩ := Option.map_eq_some_iff.1 hstep
    have hothers : ∀ p, Function.update s.code .writer code (.producer p) = s.code (.producer p) :=
      fun p => by simp
    rcases h.writer_cases hcode with ⟨rfl, rfl⟩ | ⟨rfl, rfl⟩ | ⟨rfl, rfl⟩ | ⟨rfl, rfl⟩
    · obtain ⟨mutex, -, rfl⟩ := Option.map_eq_some_iff.1 hexec
      exact ⟨rfl, hothers, List.prefix_refl _, fun had hhad => by simpa [held, hcode] using hhad⟩
    · obtain rfl := Option.some.inj hexec
      exact ⟨rfl, hothers, List.prefix_refl _, fun had hhad => by simpa [held, hcode] using hhad⟩
    · obtain rfl := Option.some.inj hexec
      refine ⟨rfl, hothers, ?_, fun had hhad => by simpa [held, hcode] using hhad⟩
      exact List.flatten_append ▸ List.prefix_append _ _
    · obtain rfl := Option.some.inj hexec
      exact ⟨rfl, hothers, List.prefix_refl _, fun had hhad => by simpa [held, hcode] using hhad⟩

end LogQueue

/-! ## Runs -/

namespace LogPipeline

variable {P : Type*} [DecidableEq P] {platform : Platform} {logLevel : LoggerLevel}
  {s s' : LogPipeline P} {queue : LogQueue P} {fatal : P → FatalPhase} {p : P}

/-- The invariant : what is taken is written or in hand, and a call of `Fatal` that has seen an
empty queue has seen its own message, and those before it, taken. -/
structure Piped (platform : Platform) (logLevel : LoggerLevel) (s : LogPipeline P) : Prop where
  sound : s.queue.Sound platform
  idle : s.writer ≠ .iteration → s.queue.code .writer = []
  settled : s.logger.Settled
  written : s.queue.batches.flatten = s.logger.messages ++ s.inHand
  waiting : ∀ p m, s.fatal p = .waiting m → Recorded logLevel m →
    m ∈ s.queue.pushed ∨ .act (.pushBack m) ∈ s.queue.code (.producer p)
  saw : ∀ p m seen, (s.fatal p).Saw m seen →
    seen <+: s.queue.batches.flatten ∧ (Recorded logLevel m → m ∈ seen)
  exited : ∀ p, s.exited = some p →
    (∃ m seen, s.fatal p = .joining m seen) ∧ (platform = .linux → s.writer = .ended)

theorem piped_new (filePath : Str) (files : Files) :
    Piped platform logLevel (new filePath files : LogPipeline P) where
  sound := LogQueue.sound_new
  idle _ := rfl
  settled := Logger.settled_new
  written := rfl
  waiting := nofun
  saw := nofun
  exited := nofun

theorem inHand_of_ne (h : s.writer ≠ .iteration) : s.inHand = [] := if_neg h

/-- A thread that logs has taken a step in the code of the queue. -/
theorem Piped.log (h : s.Piped platform logLevel) (hexited : s.exited = none)
    (hleft : LogQueue.LeftBy p s.queue queue) (hsound : queue.Sound platform)
    (hother : ∀ q, q ≠ p → fatal q = s.fatal q)
    (hwaiting : ∀ m, fatal p = .waiting m → Recorded logLevel m →
      m ∈ queue.pushed ∨ .act (.pushBack m) ∈ queue.code (.producer p))
    (hsaw : ∀ m seen, (fatal p).Saw m seen → (s.fatal p).Saw m seen) :
    Piped platform logLevel { s with queue := queue, fatal := fatal } := by
  refine ⟨hsound, fun hne => hleft.writer.trans (h.idle hne), h.settled, ?_, fun q m hq hm => ?_,
    fun q m seen hq => ?_, fun q hq => ?_⟩
  · have hinHand : inHand { s with queue := queue, fatal := fatal } = s.inHand := by
      simp only [inHand, hleft.held]
    rw [hinHand, ← h.written, ← hleft.batches]
  · by_cases hqp : q = p
    · subst hqp
      exact hwaiting m hq hm
    · rw [hleft.others q hqp]
      refine (h.waiting q m ((hother q hqp).symm.trans hq) hm).imp_left fun hmem => ?_
      exact hleft.pushed.subset hmem
  · have hbefore : (s.fatal q).Saw m seen := by
      by_cases hqp : q = p
      · subst hqp
        exact hsaw m seen hq
      · exact hother q hqp ▸ hq
    rw [hleft.batches]
    exact h.saw q m seen hbefore
  · rw [hexited] at hq
    cases hq

/-- `Fatal` pushes its message as `Log` does. -/
theorem pushBack_mem_steps {logTime message : Str} {type : LoggerType} (hmessage : message ≠ [])
    (h : Recorded logLevel ⟨logTime, message, .FATAL, type⟩) :
    .act (.pushBack ⟨logTime, message, .FATAL, type⟩) ∈
      (LogCall.Log message .FATAL type).steps logLevel logTime := by
  simp [LogCall.steps, Ick.log, hmessage, h.1, h.2]

/-- The logger's thread has written its batch. -/
theorem messages_iterate {l l' : Logger} {it : Logger.Iteration} (h : l.Settled)
    (hnew : it.batch ≠ [] → l.NewName it) (hiterate : l.iterate it = some l') :
    l'.Settled ∧ l'.messages = l.messages ++ it.batch := by
  by_cases hbatch : it.batch = []
  · rw [Logger.iterate, if_pos hbatch] at hiterate
    obtain rfl := Option.some.inj hiterate
    exact ⟨h, by rw [hbatch, List.append_nil]⟩
  · obtain ⟨l'', heq, hsettled, hwritten⟩ := h.iterate (hnew hbatch)
    obtain rfl := Option.some.inj (heq.symm.trans hiterate)
    refine ⟨hsettled, ?_⟩
    have hflat := congrArg List.flatten hwritten
    rw [List.flatten_append, ← List.flatMap_def, ← List.flatMap_def] at hflat
    simpa [Logger.messages, hbatch] using hflat

/-- A step is taken in a program that has not been left. -/
theorem step_eq_some {e : PipelineEvent P} (hstep : s.step platform logLevel e = some s') :
    s.exited = none ∧ s.act platform logLevel e = some s' := by
  unfold step at hstep
  split_ifs at hstep with hexited
  exact ⟨by simpa using hexited, hstep⟩

/-- A call of `Fatal` looks at the queue. -/
theorem Piped.check (h : s.Piped platform logLevel)
    (hexited : s.exited = none) (hstep : s.act platform logLevel (.check p) = some s') :
    s'.Piped platform logLevel := by
  rw [act] at hstep
  cases hphase : s.fatal p with
  | idle => simp [hphase] at hstep
  | stopping m seen => simp [hphase] at hstep
  | joining m seen => simp [hphase] at hstep
  | waiting m =>
    simp only [hphase] at hstep
    split_ifs at hstep with hready hempty
    · obtain rfl := Option.some.inj hstep
      -- with the queue empty, what is pushed is what is taken
      have hpushed : s.queue.batches.flatten = s.queue.pushed := by
        have haccounted := h.sound.accounted
        rwa [LogQueue.Accounted, hempty, List.append_nil] at haccounted
      refine ⟨h.sound, h.idle, h.settled, h.written, fun q m' hq hm' => ?_,
        fun q m' seen hq => ?_, fun q hq => ?_⟩
      · by_cases hqp : q = p
        · subst hqp
          simp at hq
        · exact h.waiting q m' (by simpa [hqp] using hq) hm'
      · by_cases hqp : q = p
        · subst hqp
          obtain ⟨rfl, rfl⟩ : m = m' ∧ s.queue.pushed = seen := by
            simpa [FatalPhase.Saw] using hq
          refine ⟨hpushed ▸ List.prefix_refl _, fun hm => ?_⟩
          refine (h.waiting q m hphase hm).resolve_right ?_
          rw [hready.1]
          exact List.not_mem_nil
        · exact h.saw q m' seen (by simpa [hqp] using hq)
      · exact absurd (hexited.symm.trans hq) nofun
    · obtain rfl := Option.some.inj hstep
      exact h

/-- A call of `Fatal` sets the flag. -/
theorem Piped.raise (h : s.Piped platform logLevel)
    (hexited : s.exited = none) (hstep : s.act platform logLevel (.raise p) = some s') :
    s'.Piped platform logLevel := by
  rw [act] at hstep
  cases hphase : s.fatal p with
  | idle => simp [hphase] at hstep
  | waiting m => simp [hphase] at hstep
  | joining m seen => simp [hphase] at hstep
  | stopping m seen =>
    simp only [hphase] at hstep
    obtain rfl := Option.some.inj hstep
    refine ⟨h.sound, h.idle, h.settled, h.written, fun q m' hq hm' => ?_,
      fun q m' seen' hq => ?_, fun q hq => ?_⟩
    · by_cases hqp : q = p
      · subst hqp
        simp at hq
      · exact h.waiting q m' (by simpa [hqp] using hq) hm'
    · by_cases hqp : q = p
      · subst hqp
        obtain ⟨rfl, rfl⟩ : m = m' ∧ seen = seen' := by simpa [FatalPhase.Saw] using hq
        exact h.saw q m seen (Or.inl hphase)
      · exact h.saw q m' seen' (by simpa [hqp] using hq)
    · exact absurd (hexited.symm.trans hq) nofun

/-- The logger's thread takes its next step in the code of the queue. -/
theorem Piped.take (h : s.Piped platform logLevel) (hsound : queue.Sound platform)
    (hqueue : s.queue.step platform logLevel (.go .writer) = some queue) :
    Piped platform logLevel { s with queue := queue } := by
  obtain ⟨hpushed, hcodes, hgrows, htaken⟩ := LogQueue.go_writer h.sound.coded hqueue
  have hiteration : s.writer = .iteration := by
    by_contra hne
    simp [LogQueue.step, h.idle hne] at hqueue
  have hheld : ∀ s : LogPipeline P, s.writer = .iteration → s.inHand = s.queue.held :=
    fun s hs => if_pos hs
  refine ⟨hsound, fun hne => absurd hiteration hne, h.settled, ?_, fun q m hq hrecorded => ?_,
    fun q m seen hq => ?_, h.exited⟩
  · rw [hheld { s with queue := queue } hiteration]
    exact htaken _ (h.written.trans (congrArg _ (hheld s hiteration)))
  · rw [hpushed, hcodes]
    exact h.waiting q m hq hrecorded
  · exact (h.saw q m seen hq).imp_left fun hseen => hseen.trans hgrows

/-- The logger's thread tests the flag. -/
theorem Piped.iterate (h : s.Piped platform logLevel)
    (hexited : s.exited = none) (hstep : s.act platform logLevel .iterate = some s') :
    s'.Piped platform logLevel := by
  rw [act] at hstep
  split_ifs at hstep with htest hflag
  · obtain rfl := Option.some.inj hstep
    have hne : s.writer ≠ .iteration := by rw [htest]; nofun
    refine ⟨h.sound, fun _ => h.idle hne, h.settled, ?_, h.waiting, h.saw, fun q hq => ?_⟩
    · rw [h.written, inHand_of_ne hne, inHand_of_ne (by simp)]
    · exact absurd (hexited.symm.trans hq) nofun
  · obtain ⟨queue, hqueue, rfl⟩ := Option.map_eq_some_iff.1 hstep
    have hsound : queue.Sound platform := by
      refine h.sound.step (fun _ => ?_) hqueue
      trivial
    have hne : s.writer ≠ .iteration := by rw [htest]; nofun
    rw [LogQueue.step, if_pos (h.idle hne)] at hqueue
    obtain rfl := Option.some.inj hqueue
    refine ⟨hsound, fun hne => absurd rfl hne, h.settled, ?_, fun q m hq hrecorded => ?_,
      h.saw, fun q hq => ?_⟩
    · rw [h.written, inHand_of_ne hne]
      simp [inHand, LogQueue.held, takeBatch]
    · simpa using h.waiting q m hq hrecorded
    · exact absurd (hexited.symm.trans hq) nofun

/-- The logger's thread writes its batch. -/
theorem Piped.write {formatTime : Str → Str} (h : s.Piped platform logLevel)
    (hexited : s.exited = none) (hclean : s.Clean platform (.write formatTime))
    (hstep : s.act platform logLevel (.write formatTime) = some s') :
    s'.Piped platform logLevel := by
  rw [act] at hstep
  split_ifs at hstep with hready
  obtain ⟨logger, hlogger, rfl⟩ := Option.map_eq_some_iff.1 hstep
  obtain ⟨hsettled, hmessages⟩ :=
    @messages_iterate _ _ ⟨formatTime, s.queue.batch⟩ h.settled hclean hlogger
  refine ⟨h.sound, fun _ => hready.2, hsettled, ?_, h.waiting, h.saw, fun q hq => ?_⟩
  · have hinHand : s.inHand = s.queue.batch := by
      simp [inHand, LogQueue.held, hready.1, hready.2]
    rw [h.written, hinHand, inHand_of_ne (by simp), List.append_nil]
    exact hmessages.symm
  · exact absurd (hexited.symm.trans hq) nofun

/-- The logger's thread is started. -/
theorem Piped.start (h : s.Piped platform logLevel) (hexited : s.exited = none)
    (hstep : s.act platform logLevel .start = some s') : s'.Piped platform logLevel := by
  rw [act] at hstep
  split_ifs at hstep with hcreated
  obtain rfl := Option.some.inj hstep
  have hne : s.writer ≠ .iteration := by rw [hcreated]; nofun
  refine ⟨h.sound, fun _ => h.idle hne, h.settled, ?_, h.waiting, h.saw, fun q hq => ?_⟩
  · rw [h.written, inHand_of_ne hne, inHand_of_ne (by simp)]
  · exact absurd (hexited.symm.trans hq) nofun

/-- A thread that is in no call of `Fatal` logs. -/
theorem Piped.call {logTime : Str} {c : LogCall} (h : s.Piped platform logLevel)
    (hexited : s.exited = none)
    (hstep : s.act platform logLevel (.call p logTime c) = some s') :
    s'.Piped platform logLevel := by
  rw [act] at hstep
  cases hphase : s.fatal p with
  | waiting m => simp [hphase] at hstep
  | stopping m seen => simp [hphase] at hstep
  | joining m seen => simp [hphase] at hstep
  | idle =>
    simp only [hphase] at hstep
    obtain ⟨queue, hqueue, rfl⟩ := Option.map_eq_some_iff.1 hstep
    have hsound : queue.Sound platform := by
      refine h.sound.step (fun _ => ?_) hqueue
      trivial
    refine h.log hexited (LogQueue.leftBy_call hqueue).1 hsound (fun _ _ => rfl) (fun m hm => ?_)
      fun m seen hm => hm
    rw [hphase] at hm
    cases hm

/-- A thread calls `Fatal`, which logs and waits. -/
theorem Piped.callFatal {logTime message : Str} {type : LoggerType} (h : s.Piped platform logLevel)
    (hexited : s.exited = none)
    (hstep : s.act platform logLevel (.fatal p logTime message type) = some s') :
    s'.Piped platform logLevel := by
  rw [act] at hstep
  cases hphase : s.fatal p with
  | waiting m => simp [hphase] at hstep
  | stopping m seen => simp [hphase] at hstep
  | joining m seen => simp [hphase] at hstep
  | idle =>
    simp only [hphase] at hstep
    split_ifs at hstep with hmessage
    · obtain rfl := Option.some.inj hstep
      exact h
    · obtain ⟨queue, hqueue, rfl⟩ := Option.map_eq_some_iff.1 hstep
      obtain ⟨hleft, hcode⟩ := LogQueue.leftBy_call hqueue
      have hsound : queue.Sound platform := by
        refine h.sound.step (fun _ => ?_) hqueue
        trivial
      refine h.log hexited hleft hsound (fun q hq => Function.update_of_ne hq _ _)
        (fun m hm hrecorded => ?_) fun m seen hm => ?_
      · rw [Function.update_self, FatalPhase.waiting.injEq] at hm
        subst hm
        rw [hcode]
        exact Or.inr (pushBack_mem_steps hmessage hrecorded)
      · rw [Function.update_self] at hm
        rcases hm with hm | hm <;> cases hm

/-- A thread takes its next step in the code of the queue. -/
theorem Piped.go {t : LogThread P} (h : s.Piped platform logLevel) (hexited : s.exited = none)
    (hclean : s.Clean platform (.go t)) (hstep : s.act platform logLevel (.go t) = some s') :
    s'.Piped platform logLevel := by
  rw [act] at hstep
  obtain ⟨queue, hqueue, rfl⟩ := Option.map_eq_some_iff.1 hstep
  have hsound : queue.Sound platform := h.sound.step hclean hqueue
  cases t with
  | writer => exact h.take hsound hqueue
  | producer p =>
    obtain ⟨hleft, hpush⟩ := LogQueue.leftBy_go h.sound.coded hqueue
    refine h.log hexited hleft hsound (fun _ _ => rfl) (fun m hm hrecorded => ?_)
      fun m seen hm => hm
    exact (h.waiting p m hm hrecorded).elim (fun hmem => Or.inl (hleft.pushed.subset hmem))
      (hpush m)

/-- A call of `Fatal` ends the program. -/
theorem Piped.exit (h : s.Piped platform logLevel)
    (hstep : s.act platform logLevel (.exit p) = some s') : s'.Piped platform logLevel := by
  simp only [act] at hstep
  cases hphase : s.fatal p with
  | idle => simp [hphase] at hstep
  | waiting m => simp [hphase] at hstep
  | stopping m seen => simp [hphase] at hstep
  | joining m seen =>
    have hleaves :
        (platform = .linux → s.writer = .ended) ∧ { s with exited := some p } = s' := by
      cases platform with
      | windows => exact ⟨nofun, by simpa [hphase] using hstep⟩
      | linux => simpa [hphase] using hstep
    obtain ⟨hended, rfl⟩ := hleaves
    refine ⟨h.sound, h.idle, h.settled, h.written, h.waiting, h.saw, fun q hq => ?_⟩
    obtain rfl := Option.some.inj hq
    exact ⟨⟨m, seen, hphase⟩, hended⟩

/-- What one event preserves. -/
theorem Piped.step {e : PipelineEvent P} (h : s.Piped platform logLevel)
    (hclean : s.Clean platform e) (hstep : s.step platform logLevel e = some s') :
    s'.Piped platform logLevel := by
  obtain ⟨hexited, hstep⟩ := step_eq_some hstep
  cases e with
  | start => exact h.start hexited hstep
  | call p logTime c => exact h.call hexited hstep
  | fatal p logTime message type => exact h.callFatal hexited hstep
  | go t => exact h.go hexited hclean hstep
  | check p => exact h.check hexited hstep
  | raise p => exact h.raise hexited hstep
  | exit p => exact h.exit hstep
  | iterate => exact h.iterate hexited hstep
  | write formatTime => exact h.write hexited hclean hstep

/-- The message of a call of `Fatal`. -/
def fatalMessage : LoggerMessage := ⟨['t'], ['a'], .FATAL, .Record⟩

/-- A call of `Fatal` leaves the program on Linux. -/
theorem reach_exit : ∃ s : LogPipeline Unit,
    Reach (step .linux .ALL) (· = new [] fun _ => none) (Clean .linux) s ∧
      s.exited = some () ∧ s.logger.messages = [fatalMessage] := by
  have h₀ : Reach (step .linux .ALL) (· = new [] fun _ => none) (Clean .linux)
    (new [] fun _ => none : LogPipeline Unit) := .start rfl
  have h₁ := h₀.next (e := PipelineEvent.start) trivial rfl
  have h₂ := h₁.next (e := PipelineEvent.fatal () ['t'] ['a'] .Record) trivial rfl
  have h₃ := h₂.next (e := PipelineEvent.go (.producer ())) (fun _ => trivial) rfl
  have h₄ := h₃.next (e := PipelineEvent.go (.producer ())) (fun _ => nofun) rfl
  have h₅ := h₄.next (e := PipelineEvent.go (.producer ())) (fun _ => trivial) rfl
  have h₆ := h₅.next (e := PipelineEvent.iterate) trivial rfl
  have h₇ := h₆.next (e := PipelineEvent.go .writer) (fun _ => trivial) rfl
  have h₈ := h₇.next (e := PipelineEvent.go .writer) (fun _ => trivial) rfl
  have h₉ := h₈.next (e := PipelineEvent.go .writer) (fun _ => trivial) rfl
  have h₁₀ := h₉.next (e := PipelineEvent.go .writer) (fun _ => trivial) rfl
  have h₁₁ := h₁₀.next (e := PipelineEvent.check ()) trivial rfl
  have h₁₂ := h₁₁.next (e := PipelineEvent.write id) (fun _ _ => ⟨by decide, rfl⟩) rfl
  have h₁₃ := h₁₂.next (e := PipelineEvent.raise ()) trivial rfl
  have h₁₄ := h₁₃.next (e := PipelineEvent.iterate) trivial rfl
  have h₁₅ := h₁₄.next (e := PipelineEvent.exit ()) trivial rfl
  exact ⟨_, h₁₅, rfl, rfl⟩

/-- From the calls to the files. In every state of a program, what is written, what is in hand, and
the queue are the messages pushed, in order, and the files are a journal of what is written. -/
theorem written_of_run (platform : Platform) (logLevel : LoggerLevel) (filePath : Str)
    (files : Files) (s : LogPipeline P)
    (h : Reach (step platform logLevel) (· = new filePath files) (Clean platform) s) :
    s.logger.messages ++ s.inHand ++ s.queue.messages = s.queue.pushed ∧ s.logger.Journal := by
  have hpiped : s.Piped platform logLevel := by
    refine h.invariant ?_ fun _ _ _ hs hclean hstep => hs.step hclean hstep
    rintro _ rfl
    exact piped_new filePath files
  refine ⟨?_, hpiped.settled.journal⟩
  rw [← hpiped.written]
  exact hpiped.sound.accounted

theorem written_of_run_exit : ∃ s : LogPipeline Unit,
    s.logger.messages = [fatalMessage] ∧
      s.logger.messages ++ s.inHand ++ s.queue.messages = s.queue.pushed ∧ s.logger.Journal := by
  obtain ⟨s, hreach, -, hmessages⟩ := reach_exit
  exact ⟨s, hmessages, written_of_run .linux .ALL [] (fun _ => none) s hreach⟩

/-- On Windows, a call of `Fatal` leaves the program with its own message in hand. -/
theorem not_written_of_windows : ∃ s : LogPipeline Unit,
    Reach (step .windows .ALL) (· = new [] fun _ => none) (Clean .windows) s ∧
      s.exited = some () ∧ s.logger.messages = [] ∧ s.inHand = [fatalMessage] := by
  have h₀ : Reach (step .windows .ALL) (· = new [] fun _ => none) (Clean .windows)
    (new [] fun _ => none : LogPipeline Unit) := .start rfl
  have h₁ := h₀.next (e := PipelineEvent.start) trivial rfl
  have h₂ := h₁.next (e := PipelineEvent.fatal () ['t'] ['a'] .Record) trivial rfl
  have h₃ := h₂.next (e := PipelineEvent.go (.producer ())) nofun rfl
  have h₄ := h₃.next (e := PipelineEvent.go (.producer ())) nofun rfl
  have h₅ := h₄.next (e := PipelineEvent.go (.producer ())) nofun rfl
  have h₆ := h₅.next (e := PipelineEvent.iterate) trivial rfl
  have h₇ := h₆.next (e := PipelineEvent.go .writer) nofun rfl
  have h₈ := h₇.next (e := PipelineEvent.go .writer) nofun rfl
  have h₉ := h₈.next (e := PipelineEvent.go .writer) nofun rfl
  have h₁₀ := h₉.next (e := PipelineEvent.go .writer) nofun rfl
  have h₁₁ := h₁₀.next (e := PipelineEvent.check ()) trivial rfl
  have h₁₂ := h₁₁.next (e := PipelineEvent.raise ()) trivial rfl
  have h₁₃ := h₁₂.next (e := PipelineEvent.exit ()) trivial rfl
  exact ⟨_, h₁₃, rfl, rfl, rfl⟩

end LogPipeline

end Ick
