import Ick.LogHistory
import Ick.Reach

/-!
# The log and its subscribers

A subscriber asks for the log with `getHistoryLog`, which hands out what is in the files and,
under the same mutex, puts the subscriber into the list of those whose `update` gets every batch
that is written from then on. `execute` writes a batch and calls the subscribers under the
mutex as well, but takes the batch and opens the file before, and `getHistoryLog` adds up the
lines before.

If there is no line yet, `getHistoryLog` returns before it gets to the list. Otherwise the lines
returned and the batches of the updates are the messages written, in order
(`joined_of_afterWriting`).

What is done under the mutex is one step here. On Windows the mutex sees to that; on Linux it does
nothing, and the runs are those in which nobody comes between.
-/

namespace Ick

/-- How far the call for a subscriber has got. -/
inductive RequestPhase
  | idle
  | counted (startLineIndex : ℤ)
  | returned
  | cancelled (messages : List LoggerMessage)

/-- The call for a subscriber, with what it returned, and the batches that `update` got. If it was
cancelled, then with the messages written before. -/
structure Request where
  phase : RequestPhase
  data : List Str
  updates : List (List LoggerMessage)

/-- What the subscriber has got, as it is passed on to the client. -/
def Request.received (r : Request) : List Str :=
  r.data ++ r.updates.flatten.map (·.toString false)

/-- A call fits the messages written, and whether its subscriber is in the list. -/
def Request.Fits (r : Request) (listed : Prop) (messages : List LoggerMessage) : Prop :=
  match r.phase with
  | .idle => ¬listed ∧ r.received = []
  | .counted startLineIndex => ¬listed ∧ r.received = [] ∧ startLineIndex = 0
  | .returned => listed ∧ r.received = messages.map (·.toString false)
  | .cancelled messages => ¬listed ∧ r.received = messages.map (·.toString false)

/-- Writing a batch adds it to the messages, and to what the subscribers of the list get. -/
theorem Request.Fits.update {r : Request} {listed : Prop} [Decidable listed]
    {messages : List LoggerMessage} (h : r.Fits listed messages) (batch : List LoggerMessage) :
    Request.Fits
      { r with updates := r.updates ++ List.replicate (if listed then 1 else 0) batch }
      listed (messages ++ batch) := by
  obtain ⟨phase, data, updates⟩ := r
  cases phase with
  | idle => simpa [Request.Fits, Request.received, h.1] using h
  | counted startLineIndex => simpa [Request.Fits, Request.received, h.1] using h
  | returned =>
    refine ⟨h.1, ?_⟩
    rw [List.map_append, ← h.2]
    simp [Request.received, h.1]
  | cancelled messages => simpa [Request.Fits, Request.received, h.1] using h

/-- The logger, the batch that its thread has taken and not written yet, and the calls. -/
structure LogStream where
  logger : Logger
  batch : List LoggerMessage
  requests : ℕ → Request

/-- `execute` up to the mutex, and under the mutex; `getHistoryLog` without a count up to the
mutex, and under it; `cancelLoggerSubscriber`. -/
inductive StreamEvent
  | openFile (formatTime : Str → Str) (batch : List LoggerMessage)
  | writeBatch
  | count (subscriber : ℕ)
  | read (subscriber : ℕ)
  | cancel (subscriber : ℕ)

namespace LogStream

/-- A logger that has not written anything, and no call. -/
def new (filePath : Str) (files : Files) : LogStream where
  logger := .new filePath files
  batch := []
  requests _ := ⟨.idle, [], []⟩

/-- The calls of `update`. -/
def updateAll (batch : List LoggerMessage) (requests : ℕ → Request) (subscribers : List ℕ) :
    ℕ → Request :=
  subscribers.foldl (fun requests it => Function.update requests it
    { requests it with updates := (requests it).updates ++ [batch] }) requests

/-- One event; `none` also if the lines are too many for an `int`. -/
def step (s : LogStream) : StreamEvent → Option LogStream
  | .openFile formatTime batch =>
    if s.batch = [] ∧ batch ≠ [] then
      some { s with logger := s.logger.openFile formatTime, batch := batch }
    else none
  | .writeBatch =>
    if s.batch = [] then none
    else
      (s.logger.writeBatch s.batch).map fun logger =>
        { logger := logger
          batch := []
          requests := updateAll s.batch s.requests s.logger.loggerSubscriberList }
  | .count subscriber =>
    match (s.requests subscriber).phase with
    | .idle =>
      (Logger.totalLineCount s.logger.loggerHistoryList).map fun total =>
        { s with
          requests := Function.update s.requests subscriber
            { s.requests subscriber with
              phase := if total ≤ 0 then .returned
                else .counted (Logger.startLineIndex total 0) } }
    | _ => none
  | .read subscriber =>
    match (s.requests subscriber).phase with
    | .counted startLineIndex =>
      if Logger.lineSum s.logger.loggerHistoryList < 2 ^ 31 then
        let (r, logger) := s.logger.readHistory (s.requests subscriber).data startLineIndex
          (some subscriber)
        some { s with
          logger := logger
          requests := Function.update s.requests subscriber
            { s.requests subscriber with phase := .returned, data := r.data } }
      else none
    | _ => none
  | .cancel subscriber =>
    some { s with
      logger := { s.logger with
        loggerSubscriberList := s.logger.loggerSubscriberList.erase subscriber }
      requests := Function.update s.requests subscriber
        { s.requests subscriber with
          phase := match (s.requests subscriber).phase with
            | .returned => .cancelled s.logger.messages
            | phase => phase } }

/-- The log files are not touched by others, and there is no newline in a message. -/
def Clean (s : LogStream) : StreamEvent → Prop
  | .openFile formatTime batch =>
    s.logger.NewName ⟨formatTime, batch⟩ ∧ ∀ m ∈ batch, '\n' ∉ m.toString false
  | _ => True

/-- No call finds an empty log. -/
def AfterWriting (s : LogStream) : StreamEvent → Prop
  | .count _ => s.logger.messages ≠ []
  | _ => True

/-- Once the call has returned, the subscriber has got all messages written, or those that were
written until it was cancelled. -/
def Joined (s : LogStream) (subscriber : ℕ) : Prop :=
  match (s.requests subscriber).phase with
  | .idle => True
  | .counted _ => True
  | .returned =>
    (s.requests subscriber).received = s.logger.messages.map (·.toString false)
  | .cancelled messages =>
    (s.requests subscriber).received = messages.map (·.toString false)

/-! ## Lines -/

theorem toString_true (m : LoggerMessage) : m.toString true = m.toString false ++ ['\n'] := by
  by_cases h : m.logLevel = .WARN ∨ m.logLevel = .ERROR ∨ m.logLevel = .FATAL
  · simp [LoggerMessage.toString, h]
  · simp [LoggerMessage.toString, h]

theorem getlines_append_newline {s : Str} (hs : '\n' ∉ s) (rest : Str) :
    getlines (s ++ '\n' :: rest) = s :: getlines rest := by
  induction s with
  | nil => exact if_pos rfl
  | cons c s ih =>
    rw [List.mem_cons, not_or] at hs
    rw [List.cons_append, getlines, if_neg (Ne.symm hs.1), ih hs.2]

/-- The lines of a file are the messages. -/
theorem getlines_textOf {messages : List LoggerMessage}
    (hplain : ∀ m ∈ messages, '\n' ∉ m.toString false) :
    getlines (textOf messages) = messages.map (·.toString false) := by
  induction messages with
  | nil => rfl
  | cons m messages ih =>
    obtain ⟨hm, hmessages⟩ := List.forall_mem_cons.1 hplain
    rw [textOf, List.flatMap_cons, toString_true, List.append_assoc, List.singleton_append,
      getlines_append_newline hm, ← textOf, ih hmessages, List.map_cons]

/-! ## Reading all files -/

/-- When nothing is to be left out, a file that does not exist yet changes nothing. -/
theorem readEntry_of_nonpos {files : Files} {it : HistoryLoggerInfo} (hnamed : it.fileName ≠ [])
    {s : ℤ} {r : Logger.Reading} (hs : s ≤ r.totalLineIndex) :
    (Logger.readEntry files s r it).data = r.data ++ Logger.linesOf files it ∧
      s ≤ (Logger.readEntry files s r it).totalLineIndex := by
  rw [Logger.readEntry, if_neg hnamed, if_neg (by omega), readFile, if_neg hnamed, Logger.linesOf]
  cases files it.fileName with
  | none => exact ⟨(List.append_nil _).symm, hs⟩
  | some text =>
    rw [Option.map_some, readLines_eq, show (s - r.totalLineIndex - 0).toNat = 0 by omega,
      List.drop_zero, Option.getD_some]
    cases getlines text with
    | nil => exact ⟨(List.append_nil _).symm, hs⟩
    | cons line lines => exact ⟨rfl, by simp only [List.length_cons]; omega⟩

theorem data_foldl_readEntry_of_nonpos (files : Files) {its : List HistoryLoggerInfo}
    (hnamed : ∀ it ∈ its, it.fileName ≠ []) {s : ℤ} {r : Logger.Reading}
    (hs : s ≤ r.totalLineIndex) :
    (its.foldl (Logger.readEntry files s) r).data = r.data ++ Logger.allLines files its := by
  induction its generalizing r with
  | nil => exact (List.append_nil _).symm
  | cons it its ih =>
    obtain ⟨hit, hits⟩ := List.forall_mem_cons.1 hnamed
    obtain ⟨hdata, htotal⟩ := readEntry_of_nonpos hit hs
    rw [List.foldl_cons, ih hits htotal, hdata, List.append_assoc]
    rfl

/-- The lines of all files are the messages written. -/
theorem allLines_eq {l : Logger} (h : l.Filed)
    (hplain : ∀ m ∈ l.messages, '\n' ∉ m.toString false) :
    Logger.allLines l.files l.loggerHistoryList = l.messages.map (·.toString false) := by
  have hlines : ∀ it ∈ l.loggerHistoryList, Logger.linesOf l.files it =
      (l.messagesIn it.fileName).map (·.toString false) := by
    intro it hit
    rw [Logger.linesOf, h.getD_file hit]
    refine getlines_textOf fun m hm => hplain m ?_
    rw [← h.inOrder]
    exact List.mem_flatMap.2 ⟨it, hit, hm⟩
  rw [Logger.allLines, List.flatMap_congr hlines, ← h.inOrder, List.map_flatMap]

/-- The lines that the list counts are the messages written. -/
theorem lineSum_eq {l : Logger} (h : l.Filed) :
    Logger.lineSum l.loggerHistoryList = l.messages.length := by
  rw [← h.inOrder, List.length_flatMap]
  exact congrArg List.sum (List.map_congr_left h.lineCount)

/-! ## The invariant -/

/-- What holds of the state between any two events. -/
structure Streaming (s : LogStream) : Prop where
  filed : s.logger.Filed
  opened : s.batch ≠ [] → s.logger.fileName ≠ []
  plain : ∀ m ∈ s.logger.messages ++ s.batch, '\n' ∉ m.toString false
  nodup : s.logger.loggerSubscriberList.Nodup
  fits : ∀ subscriber, (s.requests subscriber).Fits
    (subscriber ∈ s.logger.loggerSubscriberList) s.logger.messages

variable {s s' : LogStream} {subscriber : ℕ}

theorem streaming_new (filePath : Str) (files : Files) : (new filePath files).Streaming where
  filed := Logger.filed_new
  opened h := absurd rfl h
  plain := nofun
  nodup := List.nodup_nil
  fits _ := ⟨List.not_mem_nil, rfl⟩

theorem openFile_keeps (l : Logger) (formatTime : Str → Str) :
    (l.openFile formatTime).messages = l.messages ∧
      (l.openFile formatTime).loggerSubscriberList = l.loggerSubscriberList := by
  unfold Logger.openFile
  split_ifs <;> exact ⟨rfl, rfl⟩

theorem Streaming.openFile (h : s.Streaming) {formatTime : Str → Str}
    {batch : List LoggerMessage} (hclean : s.Clean (.openFile formatTime batch))
    (hstep : s.step (.openFile formatTime batch) = some s') : s'.Streaming := by
  obtain ⟨hempty, rfl⟩ := Option.ite_some_none_eq_some.1 hstep
  obtain ⟨hmessages, hsubscribers⟩ := openFile_keeps s.logger formatTime
  have hplain := h.plain
  rw [hempty.1, List.append_nil] at hplain
  refine ⟨h.filed.openFile hclean.1, fun _ => Logger.openFile_ne hclean.1, ?_, ?_, ?_⟩
  · intro m hm
    rcases List.mem_append.1 hm with hm | hm
    · exact hplain m (hmessages ▸ hm)
    · exact hclean.2 m hm
  · rw [hsubscribers]
    exact h.nodup
  · intro subscriber
    rw [hsubscribers, hmessages]
    exact h.fits subscriber

theorem updateAll_apply (batch : List LoggerMessage) (requests : ℕ → Request)
    (subscribers : List ℕ) (subscriber : ℕ) :
    updateAll batch requests subscribers subscriber =
      { requests subscriber with
        updates := (requests subscriber).updates ++
          List.replicate (subscribers.count subscriber) batch } := by
  induction subscribers generalizing requests with
  | nil => simp [updateAll]
  | cons it subscribers ih =>
    rw [updateAll, List.foldl_cons, ← updateAll, ih]
    by_cases hit : it = subscriber
    · subst hit
      simp [List.replicate_succ]
    · simp [hit, Function.update_of_ne (Ne.symm hit)]

theorem Streaming.writeBatch (h : s.Streaming) (hstep : s.step .writeBatch = some s') :
    s'.Streaming := by
  rw [step] at hstep
  split_ifs at hstep with hempty
  obtain ⟨l', heq, hfiled, hwritten, hsubscribers, -⟩ :=
    h.filed.writeBatch (h.opened hempty) hempty
  rw [heq] at hstep
  obtain rfl := Option.some.inj hstep
  have hmessages : l'.messages = s.logger.messages ++ s.batch := by
    rw [Logger.messages, hwritten, List.flatMap_append, List.flatMap_singleton]
    rfl
  refine ⟨hfiled, fun hne => absurd rfl hne, ?_, ?_, fun subscriber => ?_⟩
  · rw [hmessages, List.append_nil]
    exact h.plain
  · rw [hsubscribers]
    exact h.nodup
  · change (updateAll s.batch s.requests s.logger.loggerSubscriberList subscriber).Fits _ _
    rw [hsubscribers, hmessages, updateAll_apply, h.nodup.count]
    exact (h.fits subscriber).update s.batch

/-- What is left to show when only the call for one subscriber and the list change. -/
theorem Streaming.of_update {subscribers : List ℕ} {r : Request} (h : s.Streaming)
    (hnodup : subscribers.Nodup)
    (hothers : ∀ other ≠ subscriber,
      (other ∈ subscribers ↔ other ∈ s.logger.loggerSubscriberList))
    (hr : r.Fits (subscriber ∈ subscribers) s.logger.messages) :
    Streaming { s with
      logger := { s.logger with loggerSubscriberList := subscribers }
      requests := Function.update s.requests subscriber r } := by
  refine ⟨⟨h.filed.nodup, h.filed.named, h.filed.current, h.filed.listed, h.filed.file,
    h.filed.lineCount, h.filed.inOrder, h.filed.full⟩, h.opened, h.plain, hnodup, fun other => ?_⟩
  change (Function.update s.requests subscriber r other).Fits (other ∈ subscribers)
    s.logger.messages
  by_cases hother : other = subscriber
  · subst hother
    rw [Function.update_self]
    exact hr
  · rw [Function.update_of_ne hother, hothers other hother]
    exact h.fits other

theorem Streaming.count (h : s.Streaming) (hafter : s.AfterWriting (.count subscriber))
    (hstep : s.step (.count subscriber) = some s') : s'.Streaming := by
  have hfits := h.fits subscriber
  rw [step] at hstep
  split at hstep
  case h_1 hidle =>
    obtain ⟨total, htotal, rfl⟩ := Option.map_eq_some_iff.1 hstep
    rw [Request.Fits, hidle] at hfits
    have hpos : 0 < total := by
      rw [Logger.totalLineCount_eq, lineSum_eq h.filed] at htotal
      have := List.length_pos_iff.2 hafter
      split_ifs at htotal
      have := Option.some.inj htotal
      omega
    refine h.of_update h.nodup (fun _ _ => Iff.rfl) ?_
    rw [if_neg (not_le.2 hpos)]
    exact ⟨hfits.1, hfits.2, by simp [Logger.startLineIndex]⟩
  case h_2 => cases hstep

theorem Streaming.read (h : s.Streaming) (hstep : s.step (.read subscriber) = some s') :
    s'.Streaming := by
  have hfits := h.fits subscriber
  rw [step] at hstep
  split at hstep
  case h_1 startLineIndex hcounted =>
    rw [Request.Fits, hcounted] at hfits
    obtain ⟨hlisted, hreceived, rfl⟩ := hfits
    split_ifs at hstep
    obtain rfl := Option.some.inj hstep
    obtain ⟨hdata, hupdates⟩ := List.append_eq_nil_iff.1 hreceived
    refine h.of_update ?_ ?_ ?_
    · refine List.nodup_append.2 ⟨h.nodup, List.nodup_singleton _, ?_⟩
      rintro x hx y hy rfl
      obtain rfl := List.mem_singleton.1 hy
      exact hlisted hx
    · intro other hother
      simp [hother]
    · refine ⟨by simp, ?_⟩
      have hread := data_foldl_readEntry_of_nonpos s.logger.files (s := 0)
        (r := ⟨(s.requests subscriber).data, 0, []⟩) h.filed.named le_rfl
      rw [Request.received, hupdates, List.append_nil]
      refine hread.trans ?_
      rw [hdata, List.nil_append]
      exact allLines_eq h.filed fun m hm => h.plain m (List.mem_append_left _ hm)
  case h_2 => cases hstep

theorem Streaming.cancel (h : s.Streaming) (hstep : s.step (.cancel subscriber) = some s') :
    s'.Streaming := by
  obtain rfl := Option.some.inj hstep
  have hfits := h.fits subscriber
  have hnot : subscriber ∉ s.logger.loggerSubscriberList.erase subscriber :=
    h.nodup.not_mem_erase
  refine h.of_update (h.nodup.erase _) (fun other hother => List.mem_erase_of_ne hother) ?_
  unfold Request.Fits at hfits ⊢
  cases hphase : (s.requests subscriber).phase with
  | idle =>
    rw [hphase] at hfits
    exact ⟨hnot, hfits.2⟩
  | counted startLineIndex =>
    rw [hphase] at hfits
    exact ⟨hnot, hfits.2⟩
  | returned =>
    rw [hphase] at hfits
    exact ⟨hnot, hfits.2⟩
  | cancelled messages =>
    rw [hphase] at hfits
    exact ⟨hnot, hfits.2⟩

theorem Streaming.joined (h : s.Streaming) (subscriber : ℕ) : s.Joined subscriber := by
  have hfits := h.fits subscriber
  unfold Request.Fits at hfits
  unfold Joined
  cases hphase : (s.requests subscriber).phase with
  | idle => trivial
  | counted startLineIndex => trivial
  | returned =>
    rw [hphase] at hfits
    exact hfits.2
  | cancelled messages =>
    rw [hphase] at hfits
    exact hfits.2

/-- In every run in which no call finds an empty log, each subscriber gets the messages written,
each once and in order. -/
theorem joined_of_afterWriting (filePath : Str) (files : Files)
    (h : Reach step (· = new filePath files) (fun s e => s.Clean e ∧ s.AfterWriting e) s)
    (subscriber : ℕ) : s.Joined subscriber := by
  suffices hstreaming : s.Streaming from hstreaming.joined subscriber
  refine h.invariant ?_ ?_
  · rintro _ rfl
    exact streaming_new filePath files
  · rintro s e s' hs ⟨hclean, hafter⟩ hstep
    cases e with
    | openFile formatTime batch => exact hs.openFile hclean hstep
    | writeBatch => exact hs.writeBatch hstep
    | count subscriber => exact hs.count hafter hstep
    | read subscriber => exact hs.read hstep
    | cancel subscriber => exact hs.cancel hstep

/-- A message is written, and read by a subscriber. -/
theorem joined_of_afterWriting_read :
    ∃ s, Reach step (· = new [] fun _ => none) (fun s e => s.Clean e ∧ s.AfterWriting e) s ∧
      (s.requests 0).received = ["t    INFO    a".toList] ∧ s.Joined 0 := by
  have hstart : Reach step (· = new [] fun _ => none) (fun s e => s.Clean e ∧ s.AfterWriting e)
    (new [] fun _ => none) := .start rfl
  have hopened := hstart.next
    (e := StreamEvent.openFile id [⟨"t".toList, "a".toList, .INFO, .Record⟩])
    ⟨⟨fun _ => ⟨by decide, rfl⟩, by decide⟩, trivial⟩ rfl
  have hwritten := hopened.next (e := StreamEvent.writeBatch) ⟨trivial, trivial⟩ rfl
  have hcounted := hwritten.next (e := StreamEvent.count 0) ⟨trivial, List.cons_ne_nil _ _⟩ rfl
  have hread := hcounted.next (e := StreamEvent.read 0) ⟨trivial, trivial⟩ rfl
  exact ⟨_, hread, rfl, joined_of_afterWriting [] _ hread 0⟩

/-- A subscriber that calls before the first message is written gets nothing. -/
theorem not_joined_of_count :
    ∃ s, Reach step (· = new [] fun _ => none) Clean s ∧ (s.requests 0).received = [] ∧
      s.logger.messages = [⟨"t".toList, "a".toList, .INFO, .Record⟩] ∧ ¬s.Joined 0 := by
  have hstart : Reach step (· = new [] fun _ => none) Clean (new [] fun _ => none) := .start rfl
  have hcounted := hstart.next (e := StreamEvent.count 0) trivial rfl
  have hopened := hcounted.next
    (e := StreamEvent.openFile id [⟨"t".toList, "a".toList, .INFO, .Record⟩])
    ⟨fun _ => ⟨by decide, rfl⟩, by decide⟩ rfl
  have hwritten := hopened.next (e := StreamEvent.writeBatch) trivial rfl
  exact ⟨_, hwritten, rfl, rfl, fun hjoined => List.cons_ne_nil _ _ (Eq.symm hjoined)⟩

end LogStream

end Ick
