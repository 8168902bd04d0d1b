import Ick.LogStream

/-!
# The log at a remote client

`GrpcRemoteService::RequestLogger` writes to its client what `getHistoryLog` returns, and then,
until the client is gone, what its subscriber has collected. It copies the list of the subscriber
and clears it under a mutex, which on Linux does nothing, so `update` can come between the two.

Whatever the order, the client is written messages of the log in their order, and none twice
(`sublist_of_run`). If no batch is written to the log between a copy and the clearing, what is
written to the client, what is about to be, and what is collected are all messages of the log
(`lines_of_undisturbed`). The calls are those for the whole log.

The mutex of the list is taken as on Linux; what holds without it holds with it too. What is done
under the logger's mutex is one step, as in `LogStream`.
-/

namespace Ick

/-- Where a call of `RequestLogger` is : not begun; in `getHistoryLog`; before these lines of what
it has returned; at the test of `IsCancelled`; at the copying of the list, or at its clearing with
the copy; before these messages of the copy; at `cancelLoggerSubscriber`; or at its end. -/
inductive RemotePhase
  | idle
  | asking
  | history (lines : List Str)
  | test
  | copy
  | clear (copied : List LoggerMessage)
  | sending (messages : List LoggerMessage)
  | leaving
  | done

/-- The call is between `getHistoryLog` and `cancelLoggerSubscriber`. -/
def RemotePhase.Running : RemotePhase → Prop
  | idle => False
  | asking => False
  | done => False
  | _ => True

/-- A call of `RequestLogger`, with the list of its `GrpcLoggerSubscriber`, and what was written to
the client. -/
structure RemoteCall where
  phase : RemotePhase
  loggerMessageList : List LoggerMessage
  written : List Str

namespace RemoteCall

/-- `update` -/
def update (r : RemoteCall) (batch : List LoggerMessage) : RemoteCall :=
  { r with loggerMessageList := r.loggerMessageList ++ batch }

/-- The next step of a call that is in no function of the logger. -/
def next (r : RemoteCall) (isCancelled : Bool) : RemoteCall :=
  match r.phase with
  | .history [] => { r with phase := .test }
  | .history (it :: lines) => { r with phase := .history lines, written := r.written ++ [it] }
  | .test => { r with phase := if isCancelled then .leaving else .copy }
  | .copy => { r with phase := .clear r.loggerMessageList }
  | .clear copied => { r with phase := .sending copied, loggerMessageList := [] }
  | .sending [] => { r with phase := .test }
  | .sending (it :: messages) =>
    { r with phase := .sending messages, written := r.written ++ [it.toString false] }
  | _ => r

/-- What is about to be written. -/
def inHand (r : RemoteCall) : List Str :=
  match r.phase with
  | .history lines => lines
  | .sending messages => messages.map (·.toString false)
  | _ => []

/-- What is written, what is about to be, and what is collected. -/
def lines (r : RemoteCall) : List Str :=
  r.written ++ r.inHand ++ r.loggerMessageList.map (·.toString false)

/-- What is copied is the front of the list, and if `whole`, it is the list. -/
def Copied (whole : Prop) (r : RemoteCall) : Prop :=
  ∀ copied, r.phase = .clear copied →
    copied <+: r.loggerMessageList ∧ (whole → copied = r.loggerMessageList)

variable {r : RemoteCall} {whole : Prop}

theorem next_running (h : r.phase.Running) (isCancelled : Bool) :
    (r.next isCancelled).phase.Running := by
  obtain ⟨phase, list, written⟩ := r
  cases phase with
  | history lines => cases lines <;> trivial
  | sending messages => cases messages <;> trivial
  | test => cases isCancelled <;> trivial
  | idle => exact h.elim
  | asking => exact h.elim
  | done => exact h.elim
  | _ => trivial

/-- A step loses nothing but what has come after the copy. -/
theorem next_lines (h : r.Copied whole) (isCancelled : Bool) :
    (r.next isCancelled).lines.Sublist r.lines ∧ (whole → (r.next isCancelled).lines = r.lines) ∧
      (r.next isCancelled).Copied whole := by
  have hsame : ∀ r' : RemoteCall, r'.lines = r.lines → r'.Copied whole →
      r'.lines.Sublist r.lines ∧ (whole → r'.lines = r.lines) ∧ r'.Copied whole :=
    fun r' hlines hcopied => ⟨hlines ▸ .refl _, fun _ => hlines, hcopied⟩
  obtain ⟨phase, list, written⟩ := r
  cases phase with
  | history lines =>
    cases lines with
    | nil => exact hsame _ rfl fun _ heq => by cases heq
    | cons it lines =>
      exact hsame _ (by simp [RemoteCall.lines, next, inHand]) fun _ heq => by cases heq
  | test =>
    cases isCancelled <;> exact hsame _ rfl fun _ heq => by cases heq
  | copy =>
    refine hsame _ rfl fun copied heq => ?_
    obtain rfl := RemotePhase.clear.inj heq
    exact ⟨List.prefix_refl _, fun _ => rfl⟩
  | clear copied =>
    obtain ⟨hfront, hwhole⟩ := h copied rfl
    refine ⟨?_, fun hw => ?_, fun _ heq => by cases heq⟩
    · simpa [RemoteCall.lines, next, inHand] using (hfront.sublist.map _)
    · obtain rfl := hwhole hw
      simp [RemoteCall.lines, next, inHand]
  | sending messages =>
    cases messages with
    | nil => exact hsame _ rfl fun _ heq => by cases heq
    | cons it messages =>
      exact hsame _ (by simp [RemoteCall.lines, next, inHand]) fun _ heq => by cases heq
  | _ => exact hsame _ rfl fun _ heq => by cases heq

theorem lines_update (r : RemoteCall) (batch : List LoggerMessage) :
    (r.update batch).lines = r.lines ++ batch.map (·.toString false) := by
  have hinHand : (r.update batch).inHand = r.inHand := rfl
  rw [lines, lines, hinHand, update, List.map_append, List.append_assoc, List.append_assoc,
    List.append_assoc]

end RemoteCall

/-- The logger with its stream, and the calls of `RequestLogger`, each with a subscriber of its
own. -/
structure LogRemote where
  stream : LogStream
  calls : ℕ → RemoteCall

/-- The steps of `execute`, and the next step of a call; whether the client is gone is looked at in
only one of them. -/
inductive RemoteEvent
  | openFile (formatTime : Str → Str) (batch : List LoggerMessage)
  | writeBatch
  | go (call : ℕ) (isCancelled : Bool)

namespace LogRemote

/-- A program that has not logged anything, and no call. -/
def new (filePath : Str) (files : Files) : LogRemote where
  stream := .new filePath files
  calls _ := ⟨.idle, [], []⟩

/-- The calls of `update`. -/
def updateAll (batch : List LoggerMessage) (calls : ℕ → RemoteCall) (subscribers : List ℕ) :
    ℕ → RemoteCall :=
  subscribers.foldl (fun calls it => Function.update calls it ((calls it).update batch)) calls

/-- The call is in this phase. -/
def move (s : LogRemote) (call : ℕ) (phase : RemotePhase) : ℕ → RemoteCall :=
  Function.update s.calls call { s.calls call with phase := phase }

/-- One event. -/
def step (s : LogRemote) : RemoteEvent → Option LogRemote
  | .openFile formatTime batch =>
    (s.stream.step (.openFile formatTime batch)).map fun stream => { s with stream := stream }
  | .writeBatch =>
    (s.stream.step .writeBatch).map fun stream =>
      { stream := stream
        calls := updateAll s.stream.batch s.calls s.stream.logger.loggerSubscriberList }
  | .go call isCancelled =>
    match (s.calls call).phase with
    | .idle =>
      (s.stream.step (.count call)).map fun stream =>
        { stream := stream
          calls := s.move call <| match (stream.requests call).phase with
            | .counted _ => .asking
            | _ => .history (stream.requests call).data }
    | .asking =>
      (s.stream.step (.read call)).map fun stream =>
        { stream := stream, calls := s.move call (.history (stream.requests call).data) }
    | .leaving =>
      (s.stream.step (.cancel call)).map fun stream =>
        { stream := stream, calls := s.move call .done }
    | .done => none
    | _ =>
      some { s with
        calls := Function.update s.calls call ((s.calls call).next isCancelled) }

/-- The log files are not touched by others, there is no newline in a message, and no call finds an
empty log. -/
def Clean (s : LogRemote) : RemoteEvent → Prop
  | .openFile formatTime batch => s.stream.Clean (.openFile formatTime batch)
  | .writeBatch => True
  | .go call _ => (s.calls call).phase = .idle → s.stream.AfterWriting (.count call)

/-- No batch is written between a copy and the clearing of the list. -/
def Undisturbed (s : LogRemote) : RemoteEvent → Prop
  | .writeBatch => ∀ call copied, (s.calls call).phase ≠ .clear copied
  | _ => True

/-- The messages of the log. -/
def lines (s : LogRemote) : List Str := s.stream.logger.messages.map (·.toString false)

/-! ## The part of the logger -/

/-- The subscriber of a call is in the list after the call has returned, until it is cancelled. -/
theorem listed_iff_returned {r : Request} {listed : Prop} {messages : List LoggerMessage}
    (h : r.Fits listed messages) : listed ↔ r.phase = .returned := by
  unfold Request.Fits at h
  cases hphase : r.phase with
  | idle =>
    rw [hphase] at h
    exact iff_of_false h.1 (by simp)
  | counted startLineIndex =>
    rw [hphase] at h
    exact iff_of_false h.1 (by simp)
  | returned =>
    rw [hphase] at h
    exact iff_of_true h.1 rfl
  | cancelled messages =>
    rw [hphase] at h
    exact iff_of_false h.1 (by simp)

variable {stream stream' : LogStream} {call : ℕ}

theorem written_writeBatch (h : stream.Streaming) (hstep : stream.step .writeBatch = some stream') :
    stream'.logger.messages = stream.logger.messages ++ stream.batch ∧
      ∀ call, (stream'.requests call).phase = (stream.requests call).phase := by
  rw [LogStream.step] at hstep
  split_ifs at hstep with hempty
  obtain ⟨logger, heq, -, hwritten, -⟩ := h.filed.writeBatch (h.opened hempty) hempty
  rw [heq] at hstep
  obtain rfl := Option.some.inj hstep
  refine ⟨?_, fun call => ?_⟩
  · change logger.messages = _
    rw [Logger.messages, hwritten, List.flatMap_append, List.flatMap_singleton]
    rfl
  · change (LogStream.updateAll _ _ _ call).phase = _
    rw [LogStream.updateAll_apply]

/-- `getHistoryLog` up to the mutex, when the log is not empty. -/
theorem counted_count (h : stream.Streaming) (hafter : stream.AfterWriting (.count call))
    (hstep : stream.step (.count call) = some stream') :
    stream'.Streaming ∧ stream'.logger.messages = stream.logger.messages ∧
      (∀ other ≠ call, stream'.requests other = stream.requests other) ∧
      ∃ startLineIndex, (stream'.requests call).phase = .counted startLineIndex := by
  have hstreaming := h.count hafter hstep
  have hlisted := listed_iff_returned (hstreaming.fits call)
  have hfits := h.fits call
  rw [LogStream.step] at hstep
  split at hstep
  case h_1 hidle =>
    obtain ⟨total, -, rfl⟩ := Option.map_eq_some_iff.1 hstep
    refine ⟨hstreaming, rfl, fun other hother => Function.update_of_ne hother _ _, ?_⟩
    rw [Request.Fits, hidle] at hfits
    simp only [Function.update_self] at hlisted ⊢
    split_ifs at hlisted ⊢
    · exact absurd (hlisted.2 rfl) hfits.1
    · exact ⟨_, rfl⟩
  case h_2 => cases hstep

/-- `getHistoryLog` under the mutex. -/
theorem returned_read (h : stream.Streaming) (hstep : stream.step (.read call) = some stream') :
    stream'.Streaming ∧ stream'.logger.messages = stream.logger.messages ∧
      (∀ other ≠ call, stream'.requests other = stream.requests other) ∧
      (stream'.requests call).phase = .returned ∧
      (stream'.requests call).data = stream.logger.messages.map (·.toString false) := by
  have hstreaming := h.read hstep
  have hjoined := hstreaming.joined call
  have hfits := h.fits call
  rw [LogStream.step] at hstep
  split at hstep
  case h_1 startLineIndex hcounted =>
    split_ifs at hstep
    obtain rfl := Option.some.inj hstep
    refine ⟨hstreaming, rfl, fun other hother => Function.update_of_ne hother _ _, ?_⟩
    rw [Request.Fits, hcounted] at hfits
    obtain ⟨-, hupdates⟩ := List.append_eq_nil_iff.1 hfits.2.1
    simp only [LogStream.Joined, Function.update_self, Request.received, hupdates,
      List.append_nil, true_and] at hjoined ⊢
    exact hjoined
  case h_2 => cases hstep

theorem cancelled_cancel (h : stream.Streaming) (hphase : (stream.requests call).phase = .returned)
    (hstep : stream.step (.cancel call) = some stream') :
    stream'.Streaming ∧ stream'.logger.messages = stream.logger.messages ∧
      (∀ other ≠ call, stream'.requests other = stream.requests other) ∧
      ∃ messages, (stream'.requests call).phase = .cancelled messages := by
  have hstreaming := h.cancel hstep
  obtain rfl := Option.some.inj hstep
  refine ⟨hstreaming, rfl, fun other hother => Function.update_of_ne hother _ _, ?_⟩
  simp only [Function.update_self, hphase]
  exact ⟨_, rfl⟩

/-! ## The invariant -/

/-- The phase of a call, and that of the logger's part in it. -/
def Agree : RemotePhase → RequestPhase → Prop
  | .idle, request => request = .idle
  | .asking, request => ∃ startLineIndex, request = .counted startLineIndex
  | .done, request => ∃ messages, request = .cancelled messages
  | _, request => request = .returned

theorem Agree.returned_iff {phase : RemotePhase} {request : RequestPhase}
    (h : Agree phase request) : request = .returned ↔ phase.Running := by
  cases phase with
  | idle =>
    obtain rfl : request = .idle := h
    exact iff_of_false (by simp) id
  | asking =>
    obtain ⟨_, rfl⟩ := h
    exact iff_of_false (by simp) id
  | done =>
    obtain ⟨_, rfl⟩ := h
    exact iff_of_false (by simp) id
  | _ => exact iff_of_true h trivial

theorem agree_of_running {phase : RemotePhase} (h : phase.Running) : Agree phase .returned := by
  cases phase with
  | idle => exact h.elim
  | asking => exact h.elim
  | done => exact h.elim
  | _ => rfl

/-- What is kept of a call, with these lines in the log; if `whole`, then nothing is lost. -/
structure Serves (whole : Prop) (r : RemoteCall) (request : RequestPhase) (lines : List Str) :
    Prop where
  agree : Agree r.phase request
  begun : r.phase = .idle ∨ r.phase = .asking → r.lines = []
  ordered : r.lines.Sublist lines
  front : whole → r.lines <+: lines
  all : whole → r.phase.Running → r.lines = lines
  copied : r.Copied whole

/-- The invariant. -/
structure Served (whole : Prop) (s : LogRemote) : Prop where
  streaming : s.stream.Streaming
  serves : ∀ call, Serves whole (s.calls call) (s.stream.requests call).phase s.lines

variable {whole : Prop} {s s' : LogRemote}

theorem served_new (filePath : Str) (files : Files) : (new filePath files).Served whole := by
  refine ⟨LogStream.streaming_new filePath files, fun call => ⟨rfl, fun _ => rfl, ?_, ?_, ?_, ?_⟩⟩
  · exact .refl _
  · exact fun _ => List.prefix_refl _
  · exact fun _ h => h.elim
  · exact fun _ heq => by cases heq

/-- Only one call goes on, and the log stays as it is. -/
theorem Served.of_move (h : s.Served whole) (hstreaming : stream'.Streaming)
    (hmessages : stream'.logger.messages = s.stream.logger.messages)
    (hothers : ∀ other ≠ call, stream'.requests other = s.stream.requests other) {r : RemoteCall}
    (hr : Serves whole r (stream'.requests call).phase s.lines) :
    Served whole { stream := stream', calls := Function.update s.calls call r } := by
  have hlines : lines ⟨stream', Function.update s.calls call r⟩ = s.lines := by
    rw [lines, hmessages]
    rfl
  refine ⟨hstreaming, fun other => ?_⟩
  rw [hlines]
  by_cases hother : other = call
  · subst hother
    simpa only [Function.update_self] using hr
  · simp only [Function.update_of_ne hother, hothers other hother]
    exact h.serves other

theorem updateAll_apply (batch : List LoggerMessage) (calls : ℕ → RemoteCall)
    {subscribers : List ℕ} (hnodup : subscribers.Nodup) (call : ℕ) :
    updateAll batch calls subscribers call =
      if call ∈ subscribers then (calls call).update batch else calls call := by
  induction subscribers generalizing calls with
  | nil => rfl
  | cons it subscribers ih =>
    obtain ⟨hit, hnodup⟩ := List.nodup_cons.1 hnodup
    rw [updateAll, List.foldl_cons, ← updateAll, ih _ hnodup]
    by_cases hcall : call = it
    · subst hcall
      simp [hit]
    · simp [hcall]

theorem Served.writeBatch (h : s.Served whole) (hundisturbed : whole → s.Undisturbed .writeBatch)
    (hstep : s.step .writeBatch = some s') : s'.Served whole := by
  obtain ⟨stream, hstream, rfl⟩ := Option.map_eq_some_iff.1 hstep
  obtain ⟨hmessages, hphases⟩ := written_writeBatch h.streaming hstream
  refine ⟨h.streaming.writeBatch hstream, fun call => ?_⟩
  have hlines : ∀ calls, lines ⟨stream, calls⟩ =
      s.lines ++ s.stream.batch.map (·.toString false) := by
    intro calls
    rw [lines, hmessages, List.map_append]
    rfl
  have hserves := h.serves call
  have hlisted := listed_iff_returned (h.streaming.fits call)
  simp only [hlines, hphases, updateAll_apply _ _ h.streaming.nodup]
  split_ifs with hmem
  · -- the subscriber is in the list, and its call is running
    have hrunning := hserves.agree.returned_iff.1 (hlisted.1 hmem)
    have hall : whole → ((s.calls call).update s.stream.batch).lines =
        s.lines ++ s.stream.batch.map (·.toString false) := by
      intro hw
      rw [RemoteCall.lines_update, hserves.all hw hrunning]
    refine ⟨hserves.agree, fun hbegun => ?_, ?_, fun hw => ?_, fun hw _ => hall hw, ?_⟩
    · have hphase : (s.calls call).phase = .idle ∨ (s.calls call).phase = .asking := hbegun
      rcases hphase with heq | heq <;> exact absurd hrunning (heq ▸ id)
    · rw [RemoteCall.lines_update]
      exact hserves.ordered.append_right _
    · exact hall hw ▸ List.prefix_refl _
    · intro copied heq
      obtain ⟨hfront, -⟩ := hserves.copied copied heq
      exact ⟨hfront.trans (List.prefix_append _ _),
        fun hw => absurd heq (hundisturbed hw call copied)⟩
  · have hnot : ¬(s.calls call).phase.Running := fun hrunning =>
      hmem (hlisted.2 (hserves.agree.returned_iff.2 hrunning))
    refine ⟨hserves.agree, hserves.begun, ?_, fun hw => ?_, fun _ h => absurd h hnot,
      hserves.copied⟩
    · exact hserves.ordered.trans (List.sublist_append_left _ _)
    · exact (hserves.front hw).trans (List.prefix_append _ _)

theorem Served.openFile (h : s.Served whole) {formatTime : Str → Str} {batch : List LoggerMessage}
    (hclean : s.Clean (.openFile formatTime batch))
    (hstep : s.step (.openFile formatTime batch) = some s') : s'.Served whole := by
  obtain ⟨stream, hstream, rfl⟩ := Option.map_eq_some_iff.1 hstep
  refine ⟨h.streaming.openFile hclean hstream, fun call => ?_⟩
  obtain ⟨-, rfl⟩ := Option.ite_some_none_eq_some.1 hstream
  have hlines : lines { s with stream := { s.stream with
      logger := s.stream.logger.openFile formatTime, batch := batch } } = s.lines := by
    rw [lines, (LogStream.openFile_keeps _ _).1]
    rfl
  rw [hlines]
  exact h.serves call

theorem Served.go (h : s.Served whole) {isCancelled : Bool}
    (hclean : s.Clean (.go call isCancelled)) (hstep : s.step (.go call isCancelled) = some s') :
    s'.Served whole := by
  have hserves := h.serves call
  have hrunning : ∀ phase, (s.calls call).phase = phase → phase.Running →
      some s' = some { s with
        calls := Function.update s.calls call ((s.calls call).next isCancelled) } →
      s'.Served whole := by
    intro phase hphase hrunning heq
    obtain rfl := Option.some.inj heq
    subst hphase
    obtain ⟨hsublist, hlines, hcopied⟩ := RemoteCall.next_lines hserves.copied isCancelled
    have hnext := RemoteCall.next_running hrunning isCancelled
    refine h.of_move h.streaming rfl (fun _ _ => rfl) ?_
    rw [hserves.agree.returned_iff.2 hrunning]
    refine ⟨agree_of_running hnext, fun hbegun => ?_, hsublist.trans hserves.ordered,
      fun hw => ?_, fun hw _ => ?_, hcopied⟩
    · rcases hbegun with heq | heq <;> exact absurd hnext (heq ▸ id)
    · rw [hlines hw]
      exact hserves.front hw
    · rw [hlines hw]
      exact hserves.all hw hrunning
  rw [step] at hstep
  cases hphase : (s.calls call).phase with
  | idle =>
    rw [hphase] at hstep
    obtain ⟨stream, hstream, rfl⟩ := Option.map_eq_some_iff.1 hstep
    obtain ⟨hstreaming, hmessages, hothers, startLineIndex, hcounted⟩ :=
      counted_count h.streaming (hclean hphase) hstream
    refine h.of_move hstreaming hmessages hothers ?_
    simp only [hcounted]
    have hlines : ({ s.calls call with phase := .asking } : RemoteCall).lines = [] := by
      rw [← hserves.begun (Or.inl hphase), RemoteCall.lines, RemoteCall.lines, RemoteCall.inHand,
        RemoteCall.inHand, hphase]
    refine ⟨⟨startLineIndex, rfl⟩, fun _ => hlines, ?_, fun _ => ?_, fun _ h => h.elim,
      fun _ heq => by cases heq⟩
    · exact hlines ▸ List.nil_sublist _
    · exact hlines ▸ List.nil_prefix
  | asking =>
    rw [hphase] at hstep
    obtain ⟨stream, hstream, rfl⟩ := Option.map_eq_some_iff.1 hstep
    obtain ⟨hstreaming, hmessages, hothers, hreturned, hdata⟩ := returned_read h.streaming hstream
    refine h.of_move hstreaming hmessages hothers ?_
    rw [hreturned, hdata]
    have hbegun := hserves.begun (Or.inr hphase)
    rw [RemoteCall.lines, RemoteCall.inHand, hphase, List.append_nil] at hbegun
    obtain ⟨hwritten, hlist⟩ := List.append_eq_nil_iff.1 hbegun
    have hlines : ({ s.calls call with phase := .history s.lines } : RemoteCall).lines =
        s.lines := by
      rw [RemoteCall.lines, RemoteCall.inHand, hwritten, hlist, List.nil_append, List.append_nil]
    refine ⟨rfl, fun hbegun => ?_, ?_, fun _ => ?_, fun _ _ => hlines, fun _ heq => by cases heq⟩
    · rcases hbegun with heq | heq <;> cases heq
    · exact hlines ▸ .refl _
    · exact hlines ▸ List.prefix_refl _
  | leaving =>
    rw [hphase] at hstep
    obtain ⟨stream, hstream, rfl⟩ := Option.map_eq_some_iff.1 hstep
    have hreturned := hserves.agree.returned_iff.2 (hphase ▸ trivial)
    obtain ⟨hstreaming, hmessages, hothers, messages, hcancelled⟩ :=
      cancelled_cancel h.streaming hreturned hstream
    refine h.of_move hstreaming hmessages hothers ?_
    rw [hcancelled]
    have hlines : ({ s.calls call with phase := .done } : RemoteCall).lines =
        (s.calls call).lines := by
      rw [RemoteCall.lines, RemoteCall.lines, RemoteCall.inHand, RemoteCall.inHand, hphase]
    refine ⟨⟨messages, rfl⟩, fun hbegun => ?_, ?_, fun hw => ?_, fun _ h => h.elim,
      fun _ heq => by cases heq⟩
    · rcases hbegun with heq | heq <;> cases heq
    · exact hlines ▸ hserves.ordered
    · exact hlines ▸ hserves.front hw
  | done =>
    rw [hphase] at hstep
    cases hstep
  | history lines => exact hrunning _ hphase trivial (by rw [← hstep, hphase])
  | test => exact hrunning _ hphase trivial (by rw [← hstep, hphase])
  | copy => exact hrunning _ hphase trivial (by rw [← hstep, hphase])
  | clear copied => exact hrunning _ hphase trivial (by rw [← hstep, hphase])
  | sending messages => exact hrunning _ hphase trivial (by rw [← hstep, hphase])

theorem Served.step {e : RemoteEvent} (h : s.Served whole) (hclean : s.Clean e)
    (hundisturbed : whole → s.Undisturbed e) (hstep : s.step e = some s') : s'.Served whole := by
  cases e with
  | openFile formatTime batch => exact h.openFile hclean hstep
  | writeBatch => exact h.writeBatch hundisturbed hstep
  | go call isCancelled => exact h.go hclean hstep

/-- Order. What is written to a client are messages of the log in their order, none twice, and what
is about to be written and what is collected for it are messages that come after these. -/
theorem sublist_of_run (filePath : Str) (files : Files) (s : LogRemote)
    (h : Reach LogRemote.step (· = new filePath files) Clean s) (call : ℕ) :
    (s.calls call).lines.Sublist s.lines := by
  have hserved : s.Served False := by
    refine h.invariant ?_ fun _ _ _ hs hclean hstep => hs.step hclean False.elim hstep
    rintro _ rfl
    exact served_new filePath files
  exact (hserved.serves call).ordered

/-- Completeness. If no batch is written between a copy and the clearing, what is written to a
client, what is about to be, and what is collected for it are all messages of the log, once
`getHistoryLog` has returned and until the client is gone; and what was written to one that is gone
are the first messages. -/
theorem lines_of_undisturbed (filePath : Str) (files : Files) (s : LogRemote)
    (h : Reach LogRemote.step (· = new filePath files) (fun s e => s.Clean e ∧ s.Undisturbed e) s)
    (call : ℕ) : (s.calls call).written <+: s.lines ∧
      ((s.calls call).phase.Running → (s.calls call).lines = s.lines) := by
  have hserved : s.Served True := by
    refine h.invariant ?_ fun _ _ _ hs hguard hstep => hs.step hguard.1 (fun _ => hguard.2) hstep
    rintro _ rfl
    exact served_new filePath files
  refine ⟨?_, (hserved.serves call).all trivial⟩
  refine List.IsPrefix.trans ?_ ((hserved.serves call).front trivial)
  rw [RemoteCall.lines, List.append_assoc]
  exact List.prefix_append _ _

/-- Two messages. -/
def message (text : Str) : LoggerMessage := ⟨"t".toList, text, .INFO, .Record⟩

/-- A client asks after the first message, and while it is written that, the second one comes and is
collected. -/
theorem reach_ab : ∃ s, Reach LogRemote.step (· = new [] fun _ => none)
    (fun s e => s.Clean e ∧ s.Undisturbed e) s ∧ (s.calls 0).phase.Running ∧
      (s.calls 0).written = ["t    INFO    a".toList] ∧
      s.lines = ["t    INFO    a".toList, "t    INFO    b".toList] := by
  have h₀ : Reach LogRemote.step (· = new [] fun _ => none)
    (fun s e => s.Clean e ∧ s.Undisturbed e) _ := .start rfl
  have h₁ := h₀.next (e := RemoteEvent.openFile id [message ['a']])
    ⟨⟨fun _ => ⟨by decide, rfl⟩, by decide⟩, trivial⟩ rfl
  have h₂ := h₁.next (e := RemoteEvent.writeBatch)
    ⟨trivial, fun _ _ heq => by cases heq⟩ rfl
  have h₃ := h₂.next (e := RemoteEvent.go 0 false) ⟨fun _ => List.cons_ne_nil _ _, trivial⟩ rfl
  have h₄ := h₃.next (e := RemoteEvent.go 0 false) ⟨fun heq => (by cases heq), trivial⟩ rfl
  have h₅ := h₄.next (e := RemoteEvent.go 0 false) ⟨fun heq => (by cases heq), trivial⟩ rfl
  have h₆ := h₅.next (e := RemoteEvent.openFile id [message ['b']])
    ⟨⟨fun heq => (by cases heq), by decide⟩, trivial⟩ rfl
  have h₇ := h₆.next (e := RemoteEvent.writeBatch)
    ⟨trivial, by rintro (_ | call) copied heq <;> cases heq⟩ rfl
  exact ⟨_, h₇, trivial, rfl, rfl⟩

theorem sublist_of_run_ab : ∃ s : LogRemote, (s.calls 0).written = ["t    INFO    a".toList] ∧
    (s.calls 0).lines.Sublist s.lines := by
  obtain ⟨s, hreach, -, hwritten, -⟩ := reach_ab
  exact ⟨s, hwritten, sublist_of_run [] (fun _ => none) s
    (hreach.mono fun _ _ h => h.1) 0⟩

theorem lines_of_undisturbed_ab : ∃ s : LogRemote,
    (s.calls 0).written = ["t    INFO    a".toList] ∧
      (s.calls 0).lines = ["t    INFO    a".toList, "t    INFO    b".toList] := by
  obtain ⟨s, hreach, hrunning, hwritten, hlines⟩ := reach_ab
  refine ⟨s, hwritten, ?_⟩
  rw [(lines_of_undisturbed [] (fun _ => none) s hreach 0).2 hrunning]
  exact hlines

end LogRemote

end Ick
