import Ick.Reach
import Ick.SubscriberClient
import Mathlib.Data.List.Nodup
import Mathlib.Data.List.Range

/-!
# The data to be sent

A client's program puts messages into `m_dataSendList` by `addSendData`, and a pass of
`subscribeChannelHandler` joins them ten at a time and sends them. `addSendData` does not lock
the mutex, so a message may arrive at any point of a pass (`SendQueue.step`). The messages are
numbered here, which tells apart those with the same text.

The list is cleared after the last send only. When a send fails and another one of the same pass
has succeeded, the messages of that one are still in the list and are sent again; and what
arrives between the last send and the clearing is lost. Where neither happens (`Careful`), the
messages sent and those in the list are the messages added, in order, and no message is sent twice
(`SendQueue.sentOnce_of_careful`).
-/

namespace Ick

/-- A message of the list. The serial numbers are not in the program. -/
structure SendData where
  serial : ℕ
  data : Str
  deriving DecidableEq

/-- Where the thread of the connection is : between two passes, after one that has returned a
value; in the loop, after `i` messages, with `str` joined; or before `clear`, after `i`
messages. -/
inductive PassPhase
  | returned (b : Bool)
  | sending (i : ℕ) (str : List SendData)
  | clearing (i : ℕ)
  deriving DecidableEq

/-- `m_dataSendList`, and the phase of the thread that sends it; and the messages added so far,
and those of each send that has succeeded. -/
structure SendQueue where
  dataSendList : List SendData
  phase : PassPhase
  added : List SendData
  accepted : List (List SendData)

/-- A message is added; or the thread starts a pass, takes a turn of the loop, leaves the loop, or
clears the list. A send, if there is one, succeeds or fails. -/
inductive SendQueueEvent
  | addSendData (data : Str)
  | start
  | turn (ok : Bool)
  | leave (ok : Bool)
  | clear

namespace SendQueue

/-- No messages, and no pass. -/
def new : SendQueue where
  dataSendList := []
  phase := .returned true
  added := []
  accepted := []

/-- The messages that have been handed over. -/
def sent (s : SendQueue) : List SendData := s.accepted.flatten

/-- The text that is joined from messages. -/
def joined (str : List SendData) : Str := str.flatMap SendData.data

/-- `addSendData` -/
def addSendData (s : SendQueue) (data : Str) : SendQueue :=
  if data = [] then s
  else { s with
    dataSendList := s.dataSendList ++ [⟨s.added.length, data⟩]
    added := s.added ++ [⟨s.added.length, data⟩] }

/-- A send of `str`, after which the pass is in the phase `next` or has returned `false`. -/
def send (s : SendQueue) (str : List SendData) (next : PassPhase) (ok : Bool) : SendQueue :=
  if ok then { s with phase := next, accepted := s.accepted ++ [str] }
  else { s with phase := .returned false }

/-- One step of the thread, or a message. -/
def step (s : SendQueue) : SendQueueEvent → Option SendQueue
  | .addSendData data => some (s.addSendData data)
  | .start =>
    match s.phase with
    | .returned _ => some { s with phase := .sending 0 [] }
    | _ => none
  | .turn ok =>
    match s.phase with
    | .sending i str =>
      match s.dataSendList[i]? with
      | none => none
      | some it =>
        if (i + 1) % 10 = 0 then some (s.send (str ++ [it]) (.sending (i + 1) []) ok)
        else some { s with phase := .sending (i + 1) (str ++ [it]) }
    | _ => none
  | .leave ok =>
    match s.phase with
    | .sending i str =>
      if i = s.dataSendList.length then
        if joined str = [] then some { s with phase := .clearing i }
        else some (s.send str (.clearing i) ok)
      else none
    | _ => none
  | .clear =>
    match s.phase with
    | .clearing _ => some { s with dataSendList := [], phase := .returned true }
    | _ => none

/-- No message is in two successful sends, and a pass that has returned `false` leaves the messages
that are in none. -/
def SentOnce (s : SendQueue) : Prop :=
  s.sent.Nodup ∧
  (s.phase = .returned false → s.dataSendList = s.added.filter (· ∉ s.sent))

/-- A send that fails is the first of its pass, and the list is cleared when nothing has arrived
since the last turn of the loop. -/
def Careful (s : SendQueue) : SendQueueEvent → Prop
  | .turn ok => ∀ i str, s.phase = .sending i str → (i + 1) % 10 = 0 → ok = false → i < 10
  | .leave ok => ∀ i str, s.phase = .sending i str → joined str ≠ [] → ok = false → i < 10
  | .clear => ∀ i, s.phase = .clearing i → s.dataSendList.length = i
  | _ => True

/-! ## What the messages sent and those left make up -/

/-- The messages added, after those sent, in each phase. -/
def rest (s : SendQueue) : List SendData :=
  match s.phase with
  | .returned _ => s.dataSendList
  | .sending i str => str ++ s.dataSendList.drop i
  | .clearing i => s.dataSendList.drop i

/-- Until a batch of ten is complete, nothing of the list has been sent. -/
def Counts (s : SendQueue) : PassPhase → Prop
  | .returned _ => True
  | .sending i str => i ≤ s.dataSendList.length ∧ (i < 10 → str = s.dataSendList.take i)
  | .clearing i => i ≤ s.dataSendList.length

/-- The invariant. -/
structure Inv (s : SendQueue) : Prop where
  accounts : s.sent ++ s.rest = s.added
  counts : s.Counts s.phase
  numbered : s.added.map SendData.serial = List.range s.added.length
  nonempty : ∀ m ∈ s.added, m.data ≠ []

variable {s s' : SendQueue}

theorem inv_new : Inv new :=
  ⟨rfl, trivial, rfl, fun _ h => absurd h List.not_mem_nil⟩

/-- The messages added are different. -/
theorem Inv.nodup_added (h : s.Inv) : s.added.Nodup :=
  .of_map _ (h.numbered ▸ List.nodup_range)

/-- The messages behind others that are different from them. -/
theorem filter_notMem_append {α : Type*} [DecidableEq α] {l₁ l₂ : List α}
    (h : (l₁ ++ l₂).Nodup) : (l₁ ++ l₂).filter (· ∉ l₁) = l₂ := by
  obtain ⟨-, -, hdisjoint⟩ := List.nodup_append'.1 h
  rw [List.filter_append, List.filter_eq_nil_iff.2 fun m hm => by simpa using hm,
    List.nil_append, List.filter_eq_self]
  exact fun m hm => decide_eq_true fun hm' => hdisjoint hm' hm

theorem Inv.sentOnce (h : s.Inv) : s.SentOnce := by
  have hnodup : (s.sent ++ s.rest).Nodup := h.accounts ▸ h.nodup_added
  refine ⟨hnodup.of_append_left, fun hphase => ?_⟩
  have hrest : s.rest = s.dataSendList := by rw [rest, hphase]
  rw [← h.accounts, filter_notMem_append hnodup, hrest]

/-! ## Steps -/

theorem step_cases {e : SendQueueEvent} (h : s.step e = some s') :
    (∃ data, e = .addSendData data ∧ s' = s.addSendData data) ∨
    (∃ b, e = .start ∧ s.phase = .returned b ∧ s' = { s with phase := .sending 0 [] }) ∨
    (∃ ok i str it, e = .turn ok ∧ s.phase = .sending i str ∧ s.dataSendList[i]? = some it ∧
      s' = if (i + 1) % 10 = 0 then s.send (str ++ [it]) (.sending (i + 1) []) ok
        else { s with phase := .sending (i + 1) (str ++ [it]) }) ∨
    (∃ ok i str, e = .leave ok ∧ s.phase = .sending i str ∧ i = s.dataSendList.length ∧
      s' = if joined str = [] then { s with phase := .clearing i }
        else s.send str (.clearing i) ok) ∨
    ∃ i, e = .clear ∧ s.phase = .clearing i ∧
      s' = { s with dataSendList := [], phase := .returned true } := by
  cases e with
  | addSendData data => exact .inl ⟨data, rfl, (Option.some.inj h).symm⟩
  | start =>
    rw [step] at h
    split at h
    · next b hphase => exact .inr (.inl ⟨b, rfl, hphase, (Option.some.inj h).symm⟩)
    · cases h
  | turn ok =>
    rw [step] at h
    split at h
    · next i str hphase =>
      split at h
      · cases h
      · next it hit =>
        refine .inr (.inr (.inl ⟨ok, i, str, it, rfl, hphase, hit, ?_⟩))
        split_ifs at h ⊢ <;> exact (Option.some.inj h).symm
    · cases h
  | leave ok =>
    rw [step] at h
    split at h
    · next i str hphase =>
      split_ifs at h with hi hjoined
      · refine .inr (.inr (.inr (.inl ⟨ok, i, str, rfl, hphase, hi, ?_⟩)))
        rw [if_pos hjoined, Option.some.inj h]
      · refine .inr (.inr (.inr (.inl ⟨ok, i, str, rfl, hphase, hi, ?_⟩)))
        rw [if_neg hjoined, Option.some.inj h]
    · cases h
  | clear =>
    rw [step] at h
    split at h
    · next i hphase =>
      exact .inr (.inr (.inr (.inr ⟨i, rfl, hphase, (Option.some.inj h).symm⟩)))
    · cases h

/-- What a step of the thread has to show : it adds no message, and only moves some from those left
to those sent. -/
theorem Inv.next (h : s.Inv) (hadded : s'.added = s.added)
    (haccounts : s'.sent ++ s'.rest = s.sent ++ s.rest) (hcounts : s'.Counts s'.phase) : s'.Inv :=
  ⟨haccounts.trans (h.accounts.trans hadded.symm), hcounts, hadded.symm ▸ h.numbered,
    hadded.symm ▸ h.nonempty⟩

theorem Inv.addSendData (h : s.Inv) (data : Str) : (s.addSendData data).Inv := by
  unfold SendQueue.addSendData
  split_ifs with hdata
  · exact h
  · obtain ⟨haccounts, hcounts, hnumbered, hnonempty⟩ := h
    refine ⟨?_, ?_, ?_, fun m hm => ?_⟩
    · change s.sent ++ _ = _
      rw [← haccounts, List.append_assoc, List.append_cancel_left_eq]
      unfold rest
      cases hphase : s.phase with
      | returned b => rfl
      | sending i str =>
        rw [hphase] at hcounts
        dsimp only
        rw [List.drop_append_of_le_length hcounts.1, List.append_assoc]
      | clearing i =>
        rw [hphase] at hcounts
        exact List.drop_append_of_le_length hcounts
    · change Counts _ s.phase
      cases hphase : s.phase with
      | returned b => exact trivial
      | sending i str =>
        rw [hphase] at hcounts
        refine ⟨?_, fun hi => ?_⟩
        · exact hcounts.1.trans (List.sublist_append_left _ _).length_le
        · exact (hcounts.2 hi).trans (List.take_append_of_le_length hcounts.1).symm
      | clearing i =>
        rw [hphase] at hcounts
        exact hcounts.trans (List.sublist_append_left _ _).length_le
    · rw [List.map_append, List.length_append, List.length_singleton, List.range_succ, hnumbered]
      rfl
    · rcases List.mem_append.1 hm with hm | hm
      · exact hnonempty m hm
      · rw [List.mem_singleton.1 hm]
        exact hdata

/-- If no batch of ten is complete, the list holds all that is left. -/
theorem Inv.rest_eq {i : ℕ} {str : List SendData} (h : s.Inv) (hphase : s.phase = .sending i str)
    (hi : i < 10) : s.rest = s.dataSendList := by
  have hcounts := h.counts
  rw [hphase] at hcounts
  rw [rest, hphase, hcounts.2 hi]
  exact List.take_append_drop i s.dataSendList

/-- A send fails. -/
theorem Inv.send_false {i : ℕ} {str str' : List SendData} {next : PassPhase} (h : s.Inv)
    (hphase : s.phase = .sending i str) (hi : i < 10) : (s.send str' next false).Inv := by
  refine h.next rfl ?_ trivial
  rw [h.rest_eq hphase hi]
  rfl

/-- A send succeeds. -/
theorem Inv.send_true {str : List SendData} {next : PassPhase} (h : s.Inv)
    (hrest : str ++ (s.send str next true).rest = s.rest) (hcounts : s.Counts next) :
    (s.send str next true).Inv := by
  refine h.next rfl ?_ hcounts
  rw [← hrest, ← List.append_assoc]
  simp [send, sent]

/-- A turn of the loop puts the next message behind those joined. -/
theorem Inv.turn {i : ℕ} {str : List SendData} {it : SendData} {ok : Bool} (h : s.Inv)
    (hphase : s.phase = .sending i str) (hit : s.dataSendList[i]? = some it)
    (hok : (i + 1) % 10 = 0 → ok = false → i < 10) :
    (if (i + 1) % 10 = 0 then s.send (str ++ [it]) (.sending (i + 1) []) ok
      else { s with phase := .sending (i + 1) (str ++ [it]) }).Inv := by
  obtain ⟨hi, rfl⟩ := List.getElem?_eq_some_iff.1 hit
  have hcounts := h.counts
  rw [hphase] at hcounts
  have hrest : s.rest = str ++ s.dataSendList[i] :: s.dataSendList.drop (i + 1) := by
    rw [rest, hphase, ← List.drop_eq_getElem_cons hi]
  split_ifs with hten
  · cases ok with
    | false => exact h.send_false hphase (hok hten rfl)
    | true =>
      refine h.send_true ?_ ⟨hi, fun hlt => by omega⟩
      rw [hrest, List.append_assoc]
      rfl
  · refine h.next rfl ?_ ⟨hi, fun hlt => ?_⟩
    · rw [hrest]
      simp [rest, sent]
    · rw [hcounts.2 (by omega)]
      exact List.take_append_getElem hi

/-- Behind the loop everything is joined. -/
theorem Inv.leave {i : ℕ} {str : List SendData} {ok : Bool} (h : s.Inv)
    (hphase : s.phase = .sending i str) (hi : i = s.dataSendList.length)
    (hok : joined str ≠ [] → ok = false → i < 10) :
    (if joined str = [] then { s with phase := .clearing i }
      else s.send str (.clearing i) ok).Inv := by
  have hrest : s.rest = str ++ s.dataSendList.drop i := by rw [rest, hphase]
  split_ifs with hjoined
  · have hstr : str = [] := by
      refine List.eq_nil_iff_forall_not_mem.2 fun m hm => ?_
      refine h.nonempty m ?_ (List.flatMap_eq_nil_iff.1 hjoined m hm)
      rw [← h.accounts, hrest]
      exact List.mem_append_right _ (List.mem_append_left _ hm)
    refine h.next rfl ?_ hi.le
    rw [hrest, hstr]
    rfl
  · cases ok with
    | false => exact h.send_false hphase (hok hjoined rfl)
    | true => exact h.send_true hrest.symm hi.le

/-- A careful step keeps the invariant. -/
theorem Inv.step {e : SendQueueEvent} (h : s.Inv) (hcareful : s.Careful e)
    (hstep : s.step e = some s') : s'.Inv := by
  obtain ⟨data, rfl, rfl⟩ | ⟨b, rfl, hphase, rfl⟩ | ⟨ok, i, str, it, rfl, hphase, hit, rfl⟩ |
    ⟨ok, i, str, rfl, hphase, hi, rfl⟩ | ⟨i, rfl, hphase, rfl⟩ := step_cases hstep
  · exact h.addSendData data
  · refine h.next rfl ?_ ⟨Nat.zero_le _, fun _ => rfl⟩
    have hrest : s.rest = s.dataSendList := by rw [rest, hphase]
    rw [hrest]
    rfl
  · exact h.turn hphase hit (hcareful i str hphase)
  · exact h.leave hphase hi (hcareful i str hphase)
  · refine h.next rfl ?_ trivial
    have hrest : s.rest = [] := by
      rw [rest, hphase]
      exact List.drop_eq_nil_of_le (hcareful i hphase).le
    rw [hrest]
    rfl

/-! ## A pass that nothing disturbs -/

theorem joined_append (str str' : List SendData) :
    joined (str ++ str') = joined str ++ joined str' :=
  List.flatMap_append

/-- A loop of `n` turns and what follows it, when all sends succeed. -/
def loopEvents (n : ℕ) : List SendQueueEvent :=
  List.replicate n (.turn true) ++ [.leave true, .clear]

theorem loopEvents_succ (n : ℕ) : loopEvents (n + 1) = .turn true :: loopEvents n := rfl

/-- A turn whose send succeeds. -/
theorem step_turn_true {i : ℕ} {str : List SendData} (hphase : s.phase = .sending i str)
    (hlt : i < s.dataSendList.length) : s.step (.turn true) =
      if (i + 1) % 10 = 0 then
        some (s.send (str ++ [s.dataSendList[i]]) (.sending (i + 1) []) true)
      else some { s with phase := .sending (i + 1) (str ++ [s.dataSendList[i]]) } := by
  rw [step, hphase]
  dsimp only
  rw [List.getElem?_eq_getElem hlt]

/-- The end of a loop whose last send succeeds. -/
theorem leave_events {i : ℕ} {str : List SendData} (hphase : s.phase = .sending i str)
    (hlength : i = s.dataSendList.length) :
    ∃ s', (loopEvents 0).foldlM step s = some s' ∧
      s'.dataSendList = [] ∧ s'.phase = .returned true ∧ s'.accepted.map joined =
        s.accepted.map joined ++ batches i (joined str) [] := by
  rw [loopEvents, List.replicate_zero, List.nil_append, List.foldlM_cons, batches]
  by_cases hjoined : joined str = []
  · have hleave : s.step (.leave true) = some { s with phase := .clearing i } := by
      rw [step, hphase]
      dsimp only
      rw [if_pos hlength, if_pos hjoined]
    refine ⟨{ s with dataSendList := [], phase := .returned true }, ?_, rfl, rfl, ?_⟩
    · rw [hleave]
      rfl
    · rw [if_pos hjoined, List.append_nil]
  · have hleave : s.step (.leave true) = some (s.send str (.clearing i) true) := by
      rw [step, hphase]
      dsimp only
      rw [if_pos hlength, if_neg hjoined]
    refine ⟨{ s.send str (.clearing i) true with
      dataSendList := [], phase := .returned true }, ?_, rfl, rfl, ?_⟩
    · rw [hleave]
      rfl
    · rw [if_neg hjoined]
      exact List.map_append

/-- The loop from the `i`th message on, when nothing arrives and the sends succeed. -/
theorem run_loop (datas : List SendData) : ∀ {s : SendQueue} {i : ℕ} {str : List SendData},
    s.phase = .sending i str → i ≤ s.dataSendList.length → s.dataSendList.drop i = datas →
    ∃ s', (loopEvents datas.length).foldlM step s = some s' ∧
      s'.dataSendList = [] ∧ s'.phase = .returned true ∧ s'.accepted.map joined =
        s.accepted.map joined ++ batches i (joined str) (datas.map SendData.data) := by
  induction datas with
  | nil =>
    intro s i str hphase hi hdrop
    exact leave_events hphase (le_antisymm hi (List.drop_eq_nil_iff.1 hdrop))
  | cons it datas ih =>
    intro s i str hphase hi hdrop
    have hlt : i < s.dataSendList.length := by
      by_contra hge
      rw [List.drop_eq_nil_of_le (not_lt.1 hge)] at hdrop
      cases hdrop
    rw [List.drop_eq_getElem_cons hlt] at hdrop
    obtain ⟨rfl, htail⟩ := List.cons.inj hdrop
    rw [List.length_cons, loopEvents_succ, List.foldlM_cons, step_turn_true hphase hlt,
      List.map_cons, batches]
    have hstr : joined (str ++ [s.dataSendList[i]]) = joined str ++ s.dataSendList[i].data := by
      rw [joined_append]
      simp [joined]
    split_ifs with hten
    · obtain ⟨s', hrun, hnil, hreturned, haccepted⟩ :=
        ih (s := s.send (str ++ [s.dataSendList[i]]) (.sending (i + 1) []) true) rfl hlt htail
      refine ⟨s', hrun, hnil, hreturned, haccepted.trans ?_⟩
      rw [← hstr]
      simp [send, joined]
    · obtain ⟨s', hrun, hnil, hreturned, haccepted⟩ :=
        ih (s := { s with phase := .sending (i + 1) (str ++ [s.dataSendList[i]]) }) rfl hlt htail
      rw [hstr] at haccepted
      exact ⟨s', hrun, hnil, hreturned, haccepted⟩

/-- A pass that nothing disturbs hands over what `subscribeChannelHandler` sends, and empties the
list. -/
theorem run_pass {b : Bool} (hphase : s.phase = .returned b) :
    ∃ s', (SendQueueEvent.start :: loopEvents s.dataSendList.length).foldlM step s = some s' ∧
      s'.dataSendList = [] ∧ s'.phase = .returned true ∧ s'.accepted.map joined =
        s.accepted.map joined ++ batches 0 [] (s.dataSendList.map SendData.data) := by
  have hstart : s.step .start = some { s with phase := .sending 0 [] } := by rw [step, hphase]
  obtain ⟨s', hrun, hspec⟩ := run_loop s.dataSendList (s := { s with phase := .sending 0 [] })
    (i := 0) rfl (Nat.zero_le _) rfl
  refine ⟨s', ?_, hspec⟩
  rw [List.foldlM_cons, hstart]
  exact hrun

/-! ## Runs -/

/-- In every careful run no message is sent twice, and a pass that has returned `false` leaves the
messages that have not been sent. -/
theorem sentOnce_of_careful (h : Reach step (· = new) Careful s) : s.SentOnce :=
  Inv.sentOnce <| h.invariant (by rintro _ rfl; exact inv_new)
    fun _ _ _ hinv hcareful hstep => hinv.step hcareful hstep

/-- The only message, when its send has failed. -/
def oneFailed : SendQueue where
  dataSendList := [⟨0, "ChannelList:a;".toList⟩]
  phase := .returned false
  added := [⟨0, "ChannelList:a;".toList⟩]
  accepted := []

theorem reach_oneFailed : Reach step (· = new) Careful oneFailed := by
  have hadd := Reach.next (.start rfl : Reach step (· = new) Careful new)
    (show new.Careful (.addSendData "ChannelList:a;".toList) from trivial) rfl
  have hstart := hadd.next (show Careful _ .start from trivial) rfl
  have hturn := hstart.next (show Careful _ (.turn false) from fun i str hphase hten => ?_) rfl
  · refine hturn.next (show Careful _ (.leave false) from fun i str hphase _ _ => ?_) rfl
    obtain ⟨rfl, -⟩ := PassPhase.sending.inj hphase
    decide
  · obtain ⟨rfl, -⟩ := PassPhase.sending.inj hphase
    exact absurd hten (by decide)

/-- The send of the only message fails, and the next pass hands it over. -/
theorem sentOnce_of_careful_one : oneFailed.SentOnce ∧ ∃ s : SendQueue,
    s.phase = .returned true ∧ s.SentOnce ∧
      s.accepted.map joined = batches 0 [] ["ChannelList:a;".toList] := by
  refine ⟨sentOnce_of_careful reach_oneFailed, ?_⟩
  have hstart := reach_oneFailed.next (show Careful _ .start from trivial) rfl
  have hturn := hstart.next (show Careful _ (.turn true) from fun _ _ _ _ hok => nomatch hok) rfl
  have hleave := hturn.next (show Careful _ (.leave true) from fun _ _ _ _ hok => nomatch hok) rfl
  have hclear := hleave.next (show Careful _ .clear from fun i hphase => ?_) rfl
  · obtain ⟨s, hrun, -, hreturned, haccepted⟩ := run_pass (rfl : oneFailed.phase = .returned false)
    obtain rfl := Option.some.inj hrun
    exact ⟨_, hreturned, sentOnce_of_careful hclear, haccepted⟩
  · exact PassPhase.clearing.inj hphase

/-- Eleven messages are added, and the send of the last of them fails. -/
def elevenEvents : List SendQueueEvent :=
  List.replicate 11 (.addSendData ['a']) ++ .start :: List.replicate 11 (.turn true) ++
    [.leave false]

/-- A second pass begins. -/
def elevenAgain : List SendQueueEvent := elevenEvents ++ .start :: List.replicate 10 (.turn true)

/-- The first ten messages are left in the list, and the next pass sends them again. -/
theorem not_sentOnce_eleven :
    (∃ s, Reach step (· = new) (fun _ _ => True) s ∧ s.phase = .returned false ∧
      s.dataSendList ≠ s.added.filter (· ∉ s.sent)) ∧
    ∃ s, Reach step (· = new) (fun _ _ => True) s ∧ ¬s.sent.Nodup :=
  ⟨⟨_, .of_foldlM rfl (rfl : elevenEvents.foldlM step new = some _), rfl, by decide⟩,
    ⟨_, .of_foldlM rfl (rfl : elevenAgain.foldlM step new = some _), by decide⟩⟩

end SendQueue

end Ick
