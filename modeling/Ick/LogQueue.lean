import Ick.Converter
import Ick.Mutex
import Ick.Reach

/-!
# The queue of log messages

`Log`, `Debug`, `Info`, `Warn`, and `Error` put a message into `m_messages`, between `lock` and
`unlock` of the logger's mutex, and the logger's thread, between the two as well, copies the
queue and clears it. Any number of threads log at the same time.

A message that is put into the queue after it was copied and before it is cleared is lost.
Where no step comes in between (`Undisturbed`), the batches taken and what is in the queue are
the messages pushed, in order (`accounted_of_undisturbed`). On Windows the mutex sees to that
(`accounted_of_windows`); on Linux it does nothing.
-/

set_option linter.unusedSectionVars false

namespace Ick

/-! ## Messages -/

/-- `LoggerType` -/
inductive LoggerType
  | RecordAndPrint
  | Record
  | Print
  deriving DecidableEq

/-- `LoggerLevel` -/
inductive LoggerLevel
  | ALL
  | DEBUG
  | INFO
  | WARN
  | ERROR
  | FATAL
  | OFF
  deriving DecidableEq

/-- `strLevel` -/
def LoggerLevel.text : LoggerLevel → Str
  | ALL => "ALL".toList
  | DEBUG => "DEBUG".toList
  | INFO => "INFO".toList
  | WARN => "WARN".toList
  | ERROR => "ERROR".toList
  | FATAL => "FATAL".toList
  | OFF => "OFF".toList

/-- `LoggerMessage` -/
structure LoggerMessage where
  logTime : Str
  logMessage : Str
  logLevel : LoggerLevel
  logType : LoggerType
  deriving DecidableEq

/-- `LoggerMessage::toString` -/
def LoggerMessage.toString (m : LoggerMessage) (crlf : Bool) : Str :=
  if m.logLevel = .WARN ∨ m.logLevel = .ERROR ∨ m.logLevel = .FATAL then
    "!! ".toList ++ m.logTime ++ " ".toList ++ m.logLevel.text ++ "    ".toList ++ m.logMessage ++
      if crlf then ['\n'] else []
  else
    m.logTime ++ "    ".toList ++ m.logLevel.text ++ "    ".toList ++ m.logMessage ++
      if crlf then ['\n'] else []

/-! ## Calls -/

/-- What a thread does while it holds the mutex. -/
inductive LogAction
  | print (m : LoggerMessage)
  | pushBack (m : LoggerMessage)
  | assign
  | clear
  deriving DecidableEq

/-- A call on the logger. -/
inductive LogCall
  | Log (message : Str) (level : LoggerLevel) (type : LoggerType)
  | Debug (message : Str) (type : LoggerType)
  | Info (message : Str) (type : LoggerType)
  | Warn (message : Str) (type : LoggerType)
  | Error (message : Str) (type : LoggerType)

/-- The steps of `Log`, where the time is `logTime`. -/
def log (logLevel : LoggerLevel) (logTime message : Str) (level : LoggerLevel)
    (type : LoggerType) : List (LockStep LogAction) :=
  if message = [] then []
  else
    let loggerMessage : LoggerMessage := ⟨logTime, message, level, type⟩
    (if type ≠ .Record then [.lock, .act (.print loggerMessage), .unlock] else []) ++
      if type ≠ .Print ∧ level.ctorIdx ≥ logLevel.ctorIdx then
        [.lock, .act (.pushBack loggerMessage), .unlock]
      else []

/-- The steps of a call. -/
def LogCall.steps (logLevel : LoggerLevel) (logTime : Str) : LogCall → List (LockStep LogAction)
  | Log message level type => log logLevel logTime message level type
  | Debug message type => log logLevel logTime message .DEBUG type
  | Info message type => log logLevel logTime message .INFO type
  | Warn message type => log logLevel logTime message .WARN type
  | Error message type => log logLevel logTime message .ERROR type

/-- The steps in which `execute` takes a batch. -/
def takeBatch : List (LockStep LogAction) := [.lock, .act .assign, .act .clear, .unlock]

/-- The threads that use the logger : those that log, and its own. -/
inductive LogThread (P : Type*)
  | producer (p : P)
  | writer
  deriving DecidableEq

/-- The queue of the logger, what each thread has still to do in its call, and the local list of
the logger's thread; and the messages pushed so far, and the batches taken. -/
structure LogQueue (P : Type*) where
  mutex : IMutex (LogThread P)
  code : LogThread P → List (LockStep LogAction)
  messages : List LoggerMessage
  batch : List LoggerMessage
  pushed : List LoggerMessage
  batches : List (List LoggerMessage)

/-- A thread calls a function of the logger, the logger's thread begins an iteration, or a thread
takes its next step. -/
inductive LogEvent (P : Type*)
  | call (p : P) (logTime : Str) (c : LogCall)
  | iterate
  | go (t : LogThread P)

namespace LogQueue

variable {P : Type*} [DecidableEq P]

/-- A logger that nothing was logged with. -/
def new : LogQueue P where
  mutex := .new
  code _ := []
  messages := []
  batch := []
  pushed := []
  batches := []

/-- A step of a thread, apart from its code. -/
def exec (platform : Platform) (t : LogThread P) (s : LogQueue P) :
    LockStep LogAction → Option (LogQueue P)
  | .lock => (s.mutex.lock platform t).map fun mutex => { s with mutex := mutex }
  | .unlock => some { s with mutex := s.mutex.unlock platform t }
  | .act (.print _) => some s
  | .act (.pushBack m) => some { s with messages := s.messages ++ [m], pushed := s.pushed ++ [m] }
  | .act .assign => some { s with batch := s.messages }
  | .act .clear => some { s with messages := [], batches := s.batches ++ [s.batch] }

/-- One event. -/
def step (platform : Platform) (logLevel : LoggerLevel) (s : LogQueue P) :
    LogEvent P → Option (LogQueue P)
  | .call p logTime c =>
    if s.code (.producer p) = [] then
      some { s with code := Function.update s.code (.producer p) (c.steps logLevel logTime) }
    else none
  | .iterate =>
    if s.code .writer = [] then
      some { s with code := Function.update s.code .writer takeBatch }
    else none
  | .go t =>
    match s.code t with
    | [] => none
    | op :: code =>
      (s.exec platform t op).map fun s => { s with code := Function.update s.code t code }

/-- The messages in the batches taken and those in the queue are the messages pushed, in
order. -/
def Accounted (s : LogQueue P) : Prop :=
  s.batches.flatten ++ s.messages = s.pushed

/-- No message is pushed between the copy and the clearing of the queue. -/
def Undisturbed (s : LogQueue P) : LogEvent P → Prop
  | .go t =>
    match (s.code t).head? with
    | some (.act (.pushBack _)) => (s.code .writer).head? ≠ some (.act .clear)
    | _ => True
  | _ => True

/-! ## Codes -/

/-- A step that is taken for the threads that log. -/
def ofProducer : LockStep LogAction → Prop
  | .act .assign => False
  | .act .clear => False
  | _ => True

theorem sections_steps (logLevel : LoggerLevel) (logTime : Str) (c : LogCall) :
    Sections false (c.steps logLevel logTime) ∧ ∀ op ∈ c.steps logLevel logTime, ofProducer op := by
  have hlog : ∀ message level type, Sections false (log logLevel logTime message level type) ∧
      ∀ op ∈ log logLevel logTime message level type, ofProducer op := by
    intro message level type
    unfold log
    split_ifs <;> simp [Sections, ofProducer]
  cases c <;> exact hlog _ _ _

/-- Where the threads are : those that log are in calls, the logger's thread is in its iteration,
and if it is about to clear the queue, it holds a copy of it. -/
structure Coded (s : LogQueue P) : Prop where
  producer : ∀ p, ∀ op ∈ s.code (.producer p), ofProducer op
  writer : s.code .writer <:+ takeBatch
  copied : (s.code .writer).head? = some (.act .clear) → s.batch = s.messages

theorem coded_new : (new : LogQueue P).Coded :=
  ⟨by simp [new], List.nil_suffix, by simp [new]⟩

/-- The step that the logger's thread is about to take. -/
theorem Coded.writer_cases {s : LogQueue P} (h : s.Coded) {op : LockStep LogAction}
    {code : List (LockStep LogAction)} (hcode : s.code .writer = op :: code) :
    (op = .lock ∧ code = [.act .assign, .act .clear, .unlock]) ∨
    (op = .act .assign ∧ code = [.act .clear, .unlock]) ∨
    (op = .act .clear ∧ code = [.unlock]) ∨ (op = .unlock ∧ code = []) := by
  have hsuffix := h.writer
  rw [hcode, takeBatch] at hsuffix
  simp only [List.suffix_cons_iff, List.cons.injEq, List.suffix_nil, reduceCtorEq] at hsuffix
  tauto

/-! ## Runs -/

variable {platform : Platform} {logLevel : LoggerLevel} {s s' : LogQueue P} {e : LogEvent P}

/-- A thread that logs has taken a step, or begun a call. -/
theorem Coded.producer_step (h : s.Coded) {p : P} {code : List (LockStep LogAction)}
    (hcode : s'.code = Function.update s.code (.producer p) code)
    (hops : ∀ op ∈ code, ofProducer op) (hbatch : s'.batch = s.batch)
    (hmessages : (s.code .writer).head? = some (.act .clear) → s'.messages = s.messages) :
    s'.Coded := by
  have hwriter : s'.code .writer = s.code .writer := by
    rw [hcode, Function.update_of_ne (by simp)]
  refine ⟨fun q op hop => ?_, hwriter ▸ h.writer, fun hhead => ?_⟩
  · rw [hcode] at hop
    by_cases hq : q = p
    · subst hq
      exact hops op (by simpa using hop)
    · exact h.producer q op (by simpa [hq] using hop)
  · rw [hwriter] at hhead
    rw [hbatch, hmessages hhead, h.copied hhead]

/-- The logger's thread has taken a step, or begun an iteration. -/
theorem Coded.writer_step (h : s.Coded) {code : List (LockStep LogAction)}
    (hcode : s'.code = Function.update s.code .writer code) (hsuffix : code <:+ takeBatch)
    (hcopied : code.head? = some (.act .clear) → s'.batch = s'.messages) : s'.Coded := by
  refine ⟨fun q op hop => ?_, by rwa [hcode, Function.update_self], fun hhead => ?_⟩
  · rw [hcode, Function.update_of_ne (by simp)] at hop
    exact h.producer q op hop
  · rw [hcode, Function.update_self] at hhead
    exact hcopied hhead

/-- What one step of a thread that logs preserves. -/
theorem Coded.go_producer (h : s.Coded) {p : P} {op : LockStep LogAction}
    {code : List (LockStep LogAction)} (hcode : s.code (.producer p) = op :: code)
    (hundisturbed : s.Undisturbed (.go (.producer p)))
    (hexec : s.exec platform (.producer p) op = some s') :
    ({ s' with code := Function.update s'.code (.producer p) code } : LogQueue P).Coded ∧
      (s.Accounted → s'.Accounted) := by
  have hops := h.producer p
  rw [hcode, List.forall_mem_cons] at hops
  cases op with
  | lock =>
    obtain ⟨mutex, -, rfl⟩ := Option.map_eq_some_iff.1 hexec
    exact ⟨h.producer_step rfl hops.2 rfl fun _ => rfl, id⟩
  | unlock =>
    obtain rfl := Option.some.inj hexec
    exact ⟨h.producer_step rfl hops.2 rfl fun _ => rfl, id⟩
  | act a =>
    cases a with
    | print m =>
      obtain rfl := Option.some.inj hexec
      exact ⟨h.producer_step rfl hops.2 rfl fun _ => rfl, id⟩
    | pushBack m =>
      obtain rfl := Option.some.inj hexec
      refine ⟨h.producer_step rfl hops.2 rfl fun hhead => ?_, fun haccounted => ?_⟩
      · rw [Undisturbed, hcode] at hundisturbed
        exact absurd hhead hundisturbed
      · exact (List.append_assoc _ _ _).symm.trans (congrArg (· ++ [m]) haccounted)
    | assign => exact absurd hops.1 id
    | clear => exact absurd hops.1 id

/-- When the queue is cleared, all messages are accounted for exactly if the copy was one of the
queue as it is then. -/
theorem accounted_clear_iff (h : s.Accounted)
    (hexec : s.exec platform .writer (.act .clear) = some s') :
    s'.Accounted ↔ s.batch = s.messages := by
  obtain rfl := Option.some.inj hexec
  unfold Accounted at h ⊢
  rw [List.flatten_append, List.flatten_singleton, List.append_nil, ← h]
  exact List.append_right_inj _

/-- What one step of the logger's thread preserves. -/
theorem Coded.go_writer (h : s.Coded) {op : LockStep LogAction}
    {code : List (LockStep LogAction)} (hcode : s.code .writer = op :: code)
    (hexec : s.exec platform .writer op = some s') :
    ({ s' with code := Function.update s'.code .writer code } : LogQueue P).Coded ∧
      (s.Accounted → s'.Accounted) := by
  have hsuffix : code <:+ takeBatch :=
    (List.suffix_cons op code).trans (hcode ▸ h.writer)
  rcases h.writer_cases hcode with ⟨rfl, rfl⟩ | ⟨rfl, rfl⟩ | ⟨rfl, rfl⟩ | ⟨rfl, rfl⟩
  · obtain ⟨mutex, -, rfl⟩ := Option.map_eq_some_iff.1 hexec
    exact ⟨h.writer_step rfl hsuffix nofun, id⟩
  · obtain rfl := Option.some.inj hexec
    exact ⟨h.writer_step rfl hsuffix fun _ => rfl, id⟩
  · have hcopied : s.batch = s.messages := h.copied (by rw [hcode]; rfl)
    refine ⟨?_, fun haccounted => (accounted_clear_iff haccounted hexec).2 hcopied⟩
    obtain rfl := Option.some.inj hexec
    exact h.writer_step rfl hsuffix nofun
  · obtain rfl := Option.some.inj hexec
    exact ⟨h.writer_step rfl hsuffix nofun, id⟩

/-- What one step preserves if nothing comes between copying and clearing. -/
theorem coded_step (h : s.Coded) (hundisturbed : s.Undisturbed e)
    (hstep : s.step platform logLevel e = some s') : s'.Coded ∧ (s.Accounted → s'.Accounted) := by
  cases e with
  | call p logTime c =>
    simp only [step] at hstep
    split_ifs at hstep
    obtain rfl := Option.some.inj hstep
    exact ⟨h.producer_step rfl (sections_steps logLevel logTime c).2 rfl fun _ => rfl, id⟩
  | iterate =>
    simp only [step] at hstep
    split_ifs at hstep
    obtain rfl := Option.some.inj hstep
    exact ⟨h.writer_step rfl (List.suffix_refl _) nofun, id⟩
  | go t =>
    simp only [step] at hstep
    split at hstep
    · cases hstep
    · next op code hcode =>
      obtain ⟨s'', hexec, rfl⟩ := Option.map_eq_some_iff.1 hstep
      cases t with
      | producer p => exact h.go_producer hcode hundisturbed hexec
      | writer => exact h.go_writer hcode hexec

/-- Lost messages. In every run on Linux in which no message is pushed between the copy and
the clearing of the queue, the batches taken and the queue hold the messages pushed. -/
theorem accounted_of_undisturbed
    (h : Reach (step .linux logLevel) (fun s => s = new) Undisturbed s) : s.Accounted := by
  have hinvariant : s.Coded ∧ s.Accounted := by
    refine h.invariant (I := fun s => s.Coded ∧ s.Accounted) ?_ ?_
    · rintro s rfl
      exact ⟨coded_new, rfl⟩
    · rintro s e s' ⟨hcoded, haccounted⟩ hC hstep
      exact (coded_step hcoded hC hstep).imp_right fun hkeeps => hkeeps haccounted
  exact hinvariant.2

/-- A message is pushed, the logger's thread takes it, and another one is pushed. -/
theorem accounted_a : ∃ s : LogQueue Unit, s.batches = [[⟨[], ['a'], .ALL, .Record⟩]] ∧
    s.messages = [⟨[], ['b'], .ALL, .Record⟩] ∧ s.pushed.length = 2 ∧ s.Accounted := by
  have h₀ : Reach (step .linux .ALL) (fun s : LogQueue Unit => s = new) Undisturbed new :=
    .start rfl
  have h₁ := h₀.next (e := LogEvent.call () [] (.Log ['a'] .ALL .Record)) trivial rfl
  have h₂ := h₁.next (e := LogEvent.go (.producer ())) trivial rfl
  have h₃ := h₂.next (e := LogEvent.go (.producer ())) (by nofun) rfl
  have h₄ := h₃.next (e := LogEvent.go (.producer ())) trivial rfl
  have h₅ := h₄.next (e := LogEvent.iterate) trivial rfl
  have h₆ := h₅.next (e := LogEvent.go .writer) trivial rfl
  have h₇ := h₆.next (e := LogEvent.go .writer) trivial rfl
  have h₈ := h₇.next (e := LogEvent.go .writer) trivial rfl
  have h₉ := h₈.next (e := LogEvent.call () [] (.Log ['b'] .ALL .Record)) trivial rfl
  have h₁₀ := h₉.next (e := LogEvent.go (.producer ())) trivial rfl
  have h₁₁ := h₁₀.next (e := LogEvent.go (.producer ())) (by nofun) rfl
  exact ⟨_, rfl, rfl, rfl, accounted_of_undisturbed h₁₁⟩

/-- On Linux a message is pushed between the copy and the clearing of the queue. -/
theorem not_accounted_of_disturbed : ¬∀ (P : Type) [DecidableEq P] logLevel (s : LogQueue P),
    Reach (step .linux logLevel) (fun s => s = new) (fun _ _ => True) s → s.Accounted := by
  intro h
  have hlost := h Unit .ALL _ (.of_foldlM rfl (rfl : [.iterate, .go .writer, .go .writer,
    .call () [] (.Log ['a'] .ALL .Record), .go (.producer ()), .go (.producer ()),
    .go .writer].foldlM (step .linux .ALL) new = some _))
  exact absurd hlost (by unfold Accounted; decide)

/-! ## A mutex that excludes -/

/-- What one step on Windows preserves. -/
theorem guarded_step (h : Guarded s.mutex s.code) (hstep : s.step .windows logLevel e = some s') :
    Guarded s'.mutex s'.code := by
  cases e with
  | call p logTime c =>
    simp only [step] at hstep
    split_ifs at hstep with hcode
    obtain rfl := Option.some.inj hstep
    exact h.begin hcode (sections_steps logLevel logTime c).1
  | iterate =>
    simp only [step] at hstep
    split_ifs at hstep with hcode
    obtain rfl := Option.some.inj hstep
    exact h.begin hcode (by simp [takeBatch, Sections])
  | go t =>
    simp only [step] at hstep
    split at hstep
    · cases hstep
    · next op code hcode =>
      obtain ⟨s'', hexec, rfl⟩ := Option.map_eq_some_iff.1 hstep
      cases op with
      | lock =>
        obtain ⟨mutex, hlock, rfl⟩ := Option.map_eq_some_iff.1 hexec
        exact h.lock hcode hlock
      | unlock =>
        obtain rfl := Option.some.inj hexec
        exact h.unlock hcode
      | act a => cases a <;> (obtain rfl := Option.some.inj hexec; exact h.act hcode)

/-- The mutex lets nothing come between the copy and the clearing of the queue. -/
theorem undisturbed_of_guarded (h : Guarded s.mutex s.code) (e : LogEvent P) : s.Undisturbed e := by
  cases e with
  | go t =>
    rw [Undisturbed]
    split
    · next m hpush =>
      intro hclear
      obtain ⟨code, hcode⟩ := List.head?_eq_some_iff.1 hpush
      obtain ⟨code', hcode'⟩ := List.head?_eq_some_iff.1 hclear
      obtain rfl := h.excludes hcode hcode'
      rw [hcode] at hcode'
      cases hcode'
    · trivial
  | _ => trivial

/-- In every run on Windows the batches taken and the queue hold the messages pushed. -/
theorem accounted_of_windows
    (h : Reach (step .windows logLevel) (fun s => s = new) (fun _ _ => True) s) :
    s.Accounted := by
  have hinvariant : Guarded s.mutex s.code ∧ s.Coded ∧ s.Accounted := by
    refine h.invariant (I := fun s => Guarded s.mutex s.code ∧ s.Coded ∧ s.Accounted) ?_ ?_
    · rintro s rfl
      exact ⟨⟨fun t => trivial, fun hne => absurd rfl hne⟩, coded_new, rfl⟩
    · rintro s e s' ⟨hguarded, hcoded, haccounted⟩ - hstep
      have hundisturbed := undisturbed_of_guarded hguarded e
      exact ⟨guarded_step hguarded hstep, (coded_step hcoded hundisturbed hstep).imp_right
        fun hkeeps => hkeeps haccounted⟩
  exact hinvariant.2.2

end LogQueue

end Ick
