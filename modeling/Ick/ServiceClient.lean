import Ick.History
import Ick.Socket

/-!
# The service client

The client branch of `IckStormServiceSocket::socketConnectHandler` goes over the requests that
`addService` has queued, sends the frame of each, and erases the request unless `send` has
returned a negative number, in which case it returns `false`. But `send` returns zero for a
socket without a handle and for a time-out, and a positive number if only a part of the frame
was accepted, and a request is erased then as if it had been sent.

`Careful` is what a pass must meet for no request to get lost : the frame of each request is
accepted as a whole, up to a request of which nothing is and `send` says so. The requests that
were transmitted and those in the queue are the requests added, in every state of a run,
exactly if all its passes are like that (`accounted_iff`).

The mutex is not modelled. A pass that fails does not unlock it; what can be called then
depends on the threads, and all calls are admitted here.
-/

namespace Ick

/-- `IckStormServiceSocket::ServiceParam`, whose `registTime` is never set. -/
structure ServiceClient.ServiceParam where
  objectName : Str
  serviceName : Str
  param : Str
  deriving DecidableEq

/-- The frame of a request. -/
def ServiceClient.ServiceParam.frame (it : ServiceClient.ServiceParam) : Str :=
  "RunService:".toList ++ it.objectName ++ [':'] ++ it.serviceName ++ [':'] ++ it.param ++ [';']

/-- What the client has tried to send, and how it went. -/
inductive ServiceSend
  | request (it : ServiceClient.ServiceParam) (e : SendEvent)
  | heartBeat (e : SendEvent)

/-- The request whose frame was accepted as a whole. -/
def ServiceSend.transmitted? : ServiceSend → Option ServiceClient.ServiceParam
  | .request it (.accepted len) => if len = it.frame.length then some it else none
  | _ => none

/-- The client of a connection. -/
structure ServiceClient where
  serviceToRun : List ServiceClient.ServiceParam
  recvBlockMode : Bool
  lastHeartBeatTime : ℤ
  log : List ServiceSend

/-- The calls on a client. A pass carries how its sends of frames go, how that of the heartbeat
goes, and the time at its end. -/
inductive ServiceCall
  | addService (it : ServiceClient.ServiceParam)
  | pass (sends : ℕ → SendEvent) (heartBeat : SendEvent) (t : ℤ)

namespace ServiceClient

/-- A client before the first request. -/
def new (recvBlockMode : Bool) (lastHeartBeatTime : ℤ) : ServiceClient where
  serviceToRun := []
  recvBlockMode := recvBlockMode
  lastHeartBeatTime := lastHeartBeatTime
  log := []

/-- One more send. -/
def logged (s : ServiceClient) (e : ServiceSend) : ServiceClient :=
  { s with log := s.log ++ [e] }

/-- `addService` -/
def addService (s : ServiceClient) (it : ServiceParam) : ServiceClient :=
  { s with serviceToRun := s.serviceToRun ++ [it] }

/-- The loop over the requests, after `i` of them have been erased. -/
def sendServices (sends : ℕ → SendEvent) :
    List ServiceParam → ℕ → ServiceClient → Flow ServiceClient
  | [], _, s => .next s
  | it :: its, i, s =>
    let s := s.logged (.request it (sends i))
    if send s.recvBlockMode (sends i) < 0 then .ret s
    else sendServices sends its (i + 1) { s with serviceToRun := its }

/-- The client branch of `socketConnectHandler`. -/
def pass (sends : ℕ → SendEvent) (heartBeat : SendEvent) (t : ℤ) (s : ServiceClient) :
    Flow ServiceClient :=
  match sendServices sends s.serviceToRun 0 s with
  | .next s =>
    if t - s.lastHeartBeatTime > 60 then
      let s := s.logged (.heartBeat heartBeat)
      if send s.recvBlockMode heartBeat < 0 then .ret s
      else .next { s with lastHeartBeatTime := t }
    else .next s
  | flow => flow

/-- One call. -/
def step (s : ServiceClient) : ServiceCall → ServiceClient
  | .addService it => s.addService it
  | .pass sends heartBeat t => ((s.pass sends heartBeat t).state?).getD s

/-- The client after a list of calls. -/
def run (s : ServiceClient) (calls : List ServiceCall) : ServiceClient :=
  calls.foldl step s

/-- The requests whose frames have been accepted as a whole. -/
def transmitted (s : ServiceClient) : List ServiceParam :=
  s.log.filterMap ServiceSend.transmitted?

/-- The requests transmitted and those in the queue are these, in order. -/
def Accounted (s : ServiceClient) (added : List ServiceParam) : Prop :=
  s.transmitted ++ s.serviceToRun = added

/-- The requests added by a list of calls. -/
def added (calls : List ServiceCall) : List ServiceParam :=
  calls.filterMap fun
    | .addService it => some it
    | .pass _ _ _ => none

/-- The frame of each request is accepted as a whole, up to one that is refused. -/
def CarefulFrom (recvBlockMode : Bool) (sends : ℕ → SendEvent) : List ServiceParam → ℕ → Prop
  | [], _ => True
  | it :: its, i =>
    (sends i).Refused recvBlockMode ∨
      (sends i = .accepted it.frame.length ∧ CarefulFrom recvBlockMode sends its (i + 1))

/-- The condition on a call. -/
def Careful (s : ServiceClient) : ServiceCall → Prop
  | .addService _ => True
  | .pass sends _ _ => CarefulFrom s.recvBlockMode sends s.serviceToRun 0

variable {s : ServiceClient} {calls : List ServiceCall}

theorem run_snoc (s : ServiceClient) (calls : List ServiceCall) (call : ServiceCall) :
    s.run (calls ++ [call]) = (s.run calls).step call := by
  simp [run]

theorem transmitted_logged (s : ServiceClient) (e : ServiceSend) :
    (s.logged e).transmitted = s.transmitted ++ e.transmitted?.toList := by
  unfold transmitted logged
  rw [List.filterMap_append, List.filterMap_cons]
  cases e.transmitted? <;> rfl

theorem frame_length_ne_zero (it : ServiceParam) : it.frame.length ≠ 0 :=
  (List.length_pos_of_ne_nil
    (List.append_ne_nil_of_right_ne_nil _ (List.cons_ne_nil _ _))).ne'

/-- A request is transmitted exactly if its frame is accepted as a whole. -/
theorem transmitted?_request {it : ServiceParam} {e : SendEvent} :
    (ServiceSend.request it e).transmitted? =
      if e = .accepted it.frame.length then some it else none := by
  cases e <;> simp [ServiceSend.transmitted?]

/-- A frame that was refused was not accepted. -/
theorem not_accepted_of_refused {recvBlockMode : Bool} {e : SendEvent}
    (h : e.Refused recvBlockMode) (it : ServiceParam) : e ≠ .accepted it.frame.length := by
  rintro rfl
  exact frame_length_ne_zero it h

section Loop

variable {sends : ℕ → SendEvent} {it : ServiceParam} {its : List ServiceParam} {i : ℕ}

/-- The loop ends at a request that is refused. -/
theorem sendServices_refused (h : (sends i).Refused s.recvBlockMode) :
    sendServices sends (it :: its) i s = .ret (s.logged (.request it (sends i))) :=
  if_pos (send_neg_iff.2 h)

/-- Any other request is erased. -/
theorem sendServices_erased (h : ¬(sends i).Refused s.recvBlockMode) :
    sendServices sends (it :: its) i s = sendServices sends its (i + 1)
      { s.logged (.request it (sends i)) with serviceToRun := its } :=
  if_neg fun hneg => h (send_neg_iff.1 hneg)

/-- What the loop leaves : nothing is added to the requests, and none is lost exactly if the
sends are as they must be. -/
theorem sendServices_spec : ∀ {i : ℕ} {s : ServiceClient}, s.serviceToRun = its →
    ∃ s', (sendServices sends its i s).state? = some s' ∧
      (s'.transmitted ++ s'.serviceToRun).length ≤ (s.transmitted ++ its).length ∧
      (s'.transmitted ++ s'.serviceToRun = s.transmitted ++ its ↔
        CarefulFrom s.recvBlockMode sends its i) := by
  induction its with
  | nil =>
    intro i s hs
    exact ⟨s, rfl, by rw [hs], by rw [hs]; exact iff_of_true rfl trivial⟩
  | cons it its ih =>
    intro i s hs
    have hlogged := transmitted_logged s (.request it (sends i))
    rw [transmitted?_request] at hlogged
    rw [CarefulFrom]
    by_cases hrefused : (sends i).Refused s.recvBlockMode
    · -- the request stays at the front of the queue
      rw [if_neg (not_accepted_of_refused hrefused it), Option.toList_none, List.append_nil]
        at hlogged
      have hqueue : (s.logged (.request it (sends i))).serviceToRun = it :: its := hs
      refine ⟨_, congrArg Flow.state? (sendServices_refused hrefused), ?_, ?_⟩
      · rw [hlogged, hqueue]
      · rw [hlogged, hqueue]
        exact iff_of_true rfl (Or.inl hrefused)
    · -- the request is erased
      obtain ⟨s', hs', hle, hiff⟩ := @ih (i + 1)
        { s.logged (.request it (sends i)) with serviceToRun := its } rfl
      change _ ≤ ((s.logged (.request it (sends i))).transmitted ++ its).length at hle
      change _ = (s.logged (.request it (sends i))).transmitted ++ its ↔ _ at hiff
      refine ⟨s', (congrArg Flow.state? (sendServices_erased hrefused)).trans hs', ?_⟩
      by_cases hwhole : sends i = .accepted it.frame.length
      · rw [if_pos hwhole, Option.toList_some] at hlogged
        rw [hlogged, List.append_assoc, List.singleton_append] at hle hiff
        refine ⟨hle, hiff.trans ?_⟩
        exact ⟨fun h => Or.inr ⟨hwhole, h⟩, fun h => (h.resolve_left hrefused).2⟩
      · rw [if_neg hwhole, Option.toList_none, List.append_nil] at hlogged
        rw [hlogged] at hle
        have hlt : (s.transmitted ++ its).length < (s.transmitted ++ it :: its).length := by simp
        refine ⟨hle.trans hlt.le, ?_⟩
        refine iff_of_false (fun heq => ?_) (fun h => hwhole (h.resolve_left hrefused).1)
        exact absurd (heq ▸ hle) hlt.not_ge

end Loop

/-- A pass loses no request exactly if it is careful. -/
theorem pass_spec (sends : ℕ → SendEvent) (heartBeat : SendEvent) (t : ℤ) (s : ServiceClient) :
    ∃ s', (s.pass sends heartBeat t).state? = some s' ∧
      (s'.transmitted ++ s'.serviceToRun = s.transmitted ++ s.serviceToRun ↔
        CarefulFrom s.recvBlockMode sends s.serviceToRun 0) := by
  obtain ⟨s', hs', -, hiff⟩ := @sendServices_spec sends s.serviceToRun 0 s rfl
  unfold pass
  cases hflow : sendServices sends s.serviceToRun 0 s with
  | next s'' =>
    rw [hflow] at hs'
    obtain rfl := Option.some.inj hs'
    -- the heartbeat is no request
    have hbeat : (s''.logged (.heartBeat heartBeat)).transmitted = s''.transmitted := by
      rw [transmitted_logged]
      exact List.append_nil _
    rw [← hbeat] at hiff
    simp only
    split_ifs
    · exact ⟨_, rfl, hiff⟩
    · exact ⟨_, rfl, hiff⟩
    · rw [hbeat] at hiff
      exact ⟨_, rfl, hiff⟩
  | brk s'' => exact ⟨s', by rw [← hs', hflow], hiff⟩
  | ret s'' => exact ⟨s', by rw [← hs', hflow], hiff⟩
  | crash =>
    rw [hflow] at hs'
    cases hs'

/-- One call accounts for all requests exactly if it is careful. -/
theorem accounted_step (h : s.Accounted (added calls)) (call : ServiceCall) :
    (s.step call).Accounted (added (calls ++ [call])) ↔ s.Careful call := by
  unfold Accounted at h ⊢
  rw [added, List.filterMap_append, ← added, ← h]
  cases call with
  | addService it =>
    refine iff_of_true ?_ trivial
    exact (List.append_assoc _ _ _).symm
  | pass sends heartBeat t =>
    obtain ⟨s', hs', hiff⟩ := pass_spec sends heartBeat t s
    rw [step, hs']
    exact (Eq.congr_right (List.append_nil _)).trans hiff

/-- Lost requests. The requests transmitted and those in the queue are those added, after
every call, exactly if every pass is careful. -/
theorem accounted_iff (recvBlockMode : Bool) (lastHeartBeatTime : ℤ) (calls : List ServiceCall) :
    Throughout (fun pre call =>
        ((new recvBlockMode lastHeartBeatTime).run (pre ++ [call])).Accounted
          (added (pre ++ [call]))) calls ↔
      Throughout (fun pre call =>
        ((new recvBlockMode lastHeartBeatTime).run pre).Careful call) calls := by
  refine throughout_congr (I := fun calls =>
    ((new recvBlockMode lastHeartBeatTime).run calls).Accounted (added calls)) rfl
    (fun _ _ _ h => h) (fun calls call hcalls => ?_) calls
  rw [run_snoc]
  exact accounted_step hcalls call

/-- A request for the service `/a:b`. -/
def request_b : ServiceParam := ⟨"/a".toList, "b".toList, []⟩

/-- Five bytes of its frame are accepted. -/
theorem not_accounted_of_partial : ¬∀ recvBlockMode lastHeartBeatTime calls,
    ((new recvBlockMode lastHeartBeatTime).run calls).Accounted (added calls) := by
  intro h
  have hlost := h true 0 [.addService request_b, .pass (fun _ => .accepted 5) .failed 0]
  exact absurd hlost nofun

end ServiceClient

end Ick
