import Ick.ServiceCall

/-!
# Service calls over connections

A client queues requests, sends their frames and heartbeats on its connection, and the server at
the other end of it receives segments and calls the services. When the connection is lost, the
bytes that are under way are lost with it, and there is a new handler for the next one; the queue
of the client stays.

A request is queued, under way, called for, or lost, and it is only one of these :
`conserved_of_guard` says so of every state in which clients, segments, and losses of connections
have come in any order, and that the calls made are in the order of the requests. A request is
lost when it is erased though nothing of its frame was accepted, or when it was under way on a
connection that is lost. What the guard excludes is that a frame is accepted in part, and that a
segment is cut as a handler cannot take it (`ServiceStream.Cut`).

The mutex of the client is not modelled, and all its calls are admitted here.
-/

namespace Ick

namespace ServiceClient.ServiceParam

/-- The message of a request. -/
def message (it : ServiceParam) : Str := requestMessage it.objectName it.serviceName it.param

/-- The call that a request asks for. -/
def call (it : ServiceParam) : Str × Str × Str := (it.objectName, it.serviceName, it.param)

end ServiceClient.ServiceParam

/-- The frame of a heartbeat. -/
def heartBeatFrame : Str := "HeartBeat;".toList

namespace ServiceSend

/-- The bytes that were accepted. -/
def bytes : ServiceSend → Str
  | .request it (.accepted len) => it.frame.take len
  | .heartBeat (.accepted len) => heartBeatFrame.take len
  | _ => []

/-- The request that was erased though nothing of its frame was accepted. -/
def lost? (recvBlockMode : Bool) : ServiceSend → Option ServiceClient.ServiceParam
  | .request it .noHandle => some it
  | .request it .timedOut => if recvBlockMode then none else some it
  | _ => none

end ServiceSend

/-- A client, the connection with the handler of the server, the calls of earlier handlers, and,
for the statements only, the requests that have been added and the calls that have been lost. -/
structure ServiceLink where
  client : ServiceClient
  stream : ServiceStream
  past : List (Str × Str × Str)
  added : List ServiceClient.ServiceParam
  lost : List (Str × Str × Str)

/-- What happens to client and server : a request is added, the client goes over its requests,
the handler receives, or the connection is lost and there is a new one. -/
inductive ServiceLinkEvent
  | addService (it : ServiceClient.ServiceParam)
  | pass (sends : ℕ → SendEvent) (heartBeat : SendEvent) (t : ℤ)
  | receive (e : RecvEvent)
  | reconnect

namespace ServiceLink

/-- The calls of the handler. -/
def calls (c : ServiceLink) : List (Str × Str × Str) :=
  match c.stream.server with
  | some s => s.calls
  | none => []

/-- The calls that the bytes ask for which the handler has carried over, or which are still to
come. -/
def underWay (c : ServiceLink) : List (Str × Str × Str) :=
  match c.stream.server with
  | some s => ((s.reader.strTmp ++ c.stream.rest).splitOn ';').filterMap ServiceServer.serviceCall
  | none => []

/-- One event. -/
def step (world : ServiceWorld) (c : ServiceLink) : ServiceLinkEvent → Option ServiceLink
  | .addService it => some { c with client := c.client.addService it, added := c.added ++ [it] }
  | .pass sends heartBeat t =>
    let client := c.client.step (.pass sends heartBeat t)
    let sent := client.log.drop c.client.log.length
    some { c with
      client := client
      stream := ⟨c.stream.server, c.stream.rest ++ sent.flatMap ServiceSend.bytes⟩
      lost := c.lost ++ (sent.filterMap (ServiceSend.lost? c.client.recvBlockMode)).map (·.call) }
  | .receive e => (c.stream.step world e).map fun stream => { c with stream := stream }
  | .reconnect => some { c with
      stream := ⟨some (.new false), []⟩
      past := c.past ++ c.calls
      lost := c.lost ++ c.underWay }

/-- A client and a server before the first request. -/
def Starts (c : ServiceLink) : Prop :=
  ∃ recvBlockMode lastHeartBeatTime,
    c = ⟨.new recvBlockMode lastHeartBeatTime, ⟨some (.new false), []⟩, [], [], []⟩

/-- A request that a handler understands, for a service of a control object. -/
structure Sendable (world : ServiceWorld) (it : ServiceClient.ServiceParam) : Prop where
  objectName : IsRequestName it.objectName
  serviceName : IsRequestName it.serviceName
  notEmpty : it.serviceName ≠ []
  param : ':' ∉ it.param ∧ ';' ∉ it.param ∧ ' ' ∉ it.param
  noZero : '\x00' ∉ it.message
  short : it.message.length < 4000
  finds : ∃ object, world.objects.getObject it.objectName = some (.control object)

/-- Each frame is accepted as a whole, or nothing of it. -/
def WholeFrom (sends : ℕ → SendEvent) : List ServiceClient.ServiceParam → ℕ → Prop
  | [], _ => True
  | it :: its, i => (sends i).Whole it.frame ∧ WholeFrom sends its (i + 1)

/-- The condition on an event. -/
def Guard (world : ServiceWorld) (c : ServiceLink) : ServiceLinkEvent → Prop
  | .addService it => Sendable world it
  | .pass sends heartBeat _ =>
    WholeFrom sends c.client.serviceToRun 0 ∧ heartBeat.Whole heartBeatFrame
  | .receive e => ServiceStream.Cut c.stream e
  | .reconnect => True

/-- Where the requests are that are not lost : called for on an earlier connection or on this one,
under way, or in the queue. -/
def located (c : ServiceLink) : List (Str × Str × Str) :=
  c.past ++ c.calls ++ c.underWay ++ c.client.serviceToRun.map (·.call)

/-- Each request is in one place, or lost, and those in a place are in the order in which they
have been added. When no bytes are still to come, no request is under way. -/
structure Conserved (c : ServiceLink) : Prop where
  sublist : c.located.Sublist (c.added.map (·.call))
  perm : (c.located ++ c.lost).Perm (c.added.map (·.call))
  arrived : c.stream.rest = [] → c.underWay = []

/-! ## Requests -/

variable {world : ServiceWorld} {it : ServiceClient.ServiceParam}

theorem frame_eq (it : ServiceClient.ServiceParam) : it.frame = it.message ++ [';'] := by
  have hcommand : "RunService:".toList = "RunService".toList ++ [':'] := rfl
  unfold ServiceClient.ServiceParam.frame ServiceClient.ServiceParam.message requestMessage
  rw [hcommand]
  simp only [List.append_assoc, List.cons_append]
  rfl

/-- A byte of a message that has no meaning in it is one of a name or of the parameters. -/
theorem notMem_message {c : Char} (hc : c ∉ "RunService".toList) (hcolon : c ≠ ':')
    (hobject : c ∉ it.objectName) (hservice : c ∉ it.serviceName) (hparam : c ∉ it.param) :
    c ∉ it.message := by
  unfold ServiceClient.ServiceParam.message requestMessage
  generalize "RunService".toList = command at hc
  simp [hc, hcolon, hobject, hservice, hparam]

theorem receivedParams_eq {serviceName params : Str} (hservice : serviceName ≠ [])
    (hblank : ' ' ∉ params) : receivedParams serviceName params = params := by
  have hrdrop : params.rdropWhile (· = ' ') = params :=
    Converter.rdropWhile_of_getLast? fun h => hblank (List.mem_of_getLast? h)
  rw [receivedParams, hrdrop]
  split_ifs with hnil
  · exact hnil.symm
  · exact CmdTarget.dropBlanks_of_head? fun h => hblank (List.mem_of_mem_head? h)

namespace Sendable

theorem isMessage (h : Sendable world it) : ServiceStream.IsMessage it.message where
  noZero := h.noZero
  noBlank := notMem_message (by decide) (by decide) h.objectName.noBlank h.serviceName.noBlank
    h.param.2.2
  noSemicolon := notMem_message (by decide) (by decide) h.objectName.noSemicolon
    h.serviceName.noSemicolon h.param.2.1
  short := h.short

theorem serviceCall (h : Sendable world it) :
    ServiceServer.serviceCall it.message = some it.call := by
  have hnil : it.objectName ≠ [] := by
    obtain ⟨object, hobject⟩ := h.finds
    rintro hnil
    rw [hnil] at hobject
    cases hobject
  rw [ServiceClient.ServiceParam.message, serviceCall_requestMessage
    ⟨h.objectName.noColon, h.objectName.noBlank⟩ hnil
    ⟨h.serviceName.noColon, h.serviceName.noBlank⟩ h.param.1,
    receivedParams_eq h.notEmpty h.param.2.2]
  rfl

theorem isFound (h : Sendable world it) : ServiceServer.Finds world it.message := by
  intro objectName serviceName params hcall
  rw [h.serviceCall] at hcall
  obtain rfl := (Prod.mk.inj (Option.some.inj hcall)).1
  exact h.finds

end Sendable

/-! ## A pass -/

/-- What a pass has sent. -/
structure Sent (s s' : ServiceClient) (es : List ServiceSend)
    (sent : List ServiceClient.ServiceParam) (beats : List Str) : Prop where
  log : s'.log = s.log ++ es
  bytes : es.flatMap ServiceSend.bytes = (sent.map (·.message) ++ beats).flatMap (· ++ [';'])
  transmitted : es.filterMap ServiceSend.transmitted? = sent
  order : (sent ++ s'.serviceToRun).Sublist s.serviceToRun
  lost : (sent ++ s'.serviceToRun ++
    es.filterMap (ServiceSend.lost? s.recvBlockMode)).Perm s.serviceToRun
  beats : ∀ beat ∈ beats, beat = "HeartBeat".toList

/-- A frame that is not refused is accepted as a whole, or the request is lost. -/
theorem bytes_of_not_refused {recvBlockMode : Bool} {e : SendEvent} (h : ¬e.Refused recvBlockMode)
    (hwhole : e.Whole it.frame) :
    ((ServiceSend.request it e).bytes = it.frame ∧
      (ServiceSend.request it e).transmitted? = some it ∧
      (ServiceSend.request it e).lost? recvBlockMode = none) ∨
    ((ServiceSend.request it e).bytes = [] ∧ (ServiceSend.request it e).transmitted? = none ∧
      (ServiceSend.request it e).lost? recvBlockMode = some it) := by
  cases e with
  | noHandle => exact Or.inr ⟨rfl, rfl, rfl⟩
  | accepted len =>
    obtain rfl := hwhole.resolve_left h
    exact Or.inl ⟨List.take_length, if_pos rfl, rfl⟩
  | reset => exact absurd trivial h
  | timedOut =>
    have hmode : recvBlockMode = false := Bool.eq_false_iff.2 h
    exact Or.inr ⟨rfl, rfl, by rw [hmode]; rfl⟩
  | failed => exact absurd trivial h

/-- Nothing of a frame that is refused is accepted, and the request is not lost. -/
theorem bytes_of_refused {recvBlockMode : Bool} {e : SendEvent} (h : e.Refused recvBlockMode) :
    (ServiceSend.request it e).bytes = [] ∧ (ServiceSend.request it e).transmitted? = none ∧
      (ServiceSend.request it e).lost? recvBlockMode = none := by
  cases e with
  | noHandle => exact absurd h id
  | accepted len =>
    obtain rfl : len = 0 := h
    refine ⟨rfl, ?_, rfl⟩
    rw [ServiceClient.transmitted?_request, if_neg]
    exact fun h => ServiceClient.frame_length_ne_zero it (SendEvent.accepted.inj h).symm
  | reset => exact ⟨rfl, rfl, rfl⟩
  | timedOut =>
    have hmode : recvBlockMode = true := h
    exact ⟨rfl, rfl, by rw [hmode]; rfl⟩
  | failed => exact ⟨rfl, rfl, rfl⟩

theorem sendServices_sent {sends : ℕ → SendEvent} {its : List ServiceClient.ServiceParam} :
    ∀ {i : ℕ} {s : ServiceClient}, s.serviceToRun = its → WholeFrom sends its i →
    ∃ s' es sent, (ServiceClient.sendServices sends its i s).state? = some s' ∧
      s'.recvBlockMode = s.recvBlockMode ∧ Sent s s' es sent [] := by
  induction its with
  | nil =>
    intro i s hs _
    exact ⟨s, [], [], rfl, rfl, by simp, rfl, rfl, by simp, by simp, by simp⟩
  | cons it its ih =>
    intro i s hs hwhole
    by_cases hrefused : (sends i).Refused s.recvBlockMode
    · obtain ⟨hbytes, htransmitted, hlost⟩ := @bytes_of_refused it _ _ hrefused
      refine ⟨_, [.request it (sends i)], [],
        congrArg Flow.state? (ServiceClient.sendServices_refused hrefused), rfl, rfl, ?_, ?_, ?_,
        ?_, by simp⟩
      · simp [hbytes]
      · rw [List.filterMap_cons, htransmitted, List.filterMap_nil]
      · exact List.Sublist.refl _
      · simp [hlost, ServiceClient.logged]
    · obtain ⟨s', es, sent, hs', hmode, hsent⟩ := @ih (i + 1)
        { s.logged (.request it (sends i)) with serviceToRun := its } rfl hwhole.2
      have hstate := (congrArg Flow.state? (ServiceClient.sendServices_erased hrefused)).trans hs'
      have hlog : s'.log = s.log ++ .request it (sends i) :: es := by
        rw [hsent.log, ServiceClient.logged, List.append_assoc, List.singleton_append]
      have horder : (sent ++ s'.serviceToRun).Sublist its := hsent.order
      have hperm : (sent ++ s'.serviceToRun ++
          es.filterMap (ServiceSend.lost? s.recvBlockMode)).Perm its := hsent.lost
      rcases bytes_of_not_refused hrefused hwhole.1 with
        ⟨hbytes, htransmitted, hlost⟩ | ⟨hbytes, htransmitted, hlost⟩
      · refine ⟨s', _, it :: sent, hstate, hmode, hlog, ?_, ?_, ?_, ?_, by simp⟩
        · rw [List.flatMap_cons, hbytes, hsent.bytes, frame_eq]
          simp
        · rw [List.filterMap_cons, htransmitted, hsent.transmitted]
        · rw [hs]
          exact horder.cons_cons it
        · rw [hs, List.filterMap_cons, hlost]
          exact hperm.cons it
      · refine ⟨s', _, sent, hstate, hmode, hlog, ?_, ?_, ?_, ?_, by simp⟩
        · rw [List.flatMap_cons, hbytes, hsent.bytes]
          rfl
        · rw [List.filterMap_cons, htransmitted, hsent.transmitted]
        · rw [hs]
          exact horder.cons it
        · rw [hs, List.filterMap_cons, hlost]
          exact List.perm_middle.trans (hperm.cons it)

/-- A heartbeat is sent as a whole, or nothing of it. -/
theorem bytes_heartBeat {e : SendEvent} (h : e.Whole heartBeatFrame) : ∃ beats : List Str,
    (ServiceSend.heartBeat e).bytes = beats.flatMap (· ++ [';']) ∧
      ∀ beat ∈ beats, beat = "HeartBeat".toList := by
  have hnone : ∃ beats : List Str, [] = beats.flatMap (· ++ [';']) ∧
      ∀ beat ∈ beats, beat = "HeartBeat".toList := ⟨[], rfl, by simp⟩
  cases e with
  | accepted len =>
    rcases h with rfl | rfl
    · exact hnone
    · exact ⟨["HeartBeat".toList], rfl, fun beat hbeat => List.mem_singleton.1 hbeat⟩
  | noHandle => exact hnone
  | reset => exact hnone
  | timedOut => exact hnone
  | failed => exact hnone

theorem pass_sent {s : ServiceClient} {sends : ℕ → SendEvent} {heartBeat : SendEvent} {t : ℤ}
    (hwhole : WholeFrom sends s.serviceToRun 0) (hbeat : heartBeat.Whole heartBeatFrame) :
    ∃ es sent beats, Sent s (s.step (.pass sends heartBeat t)) es sent beats := by
  obtain ⟨s', es, sent, hs', -, hsent⟩ := sendServices_sent rfl hwhole
  -- the heartbeat is behind the requests
  have hlogged : ∀ s'' : ServiceClient, s''.log = s'.log ++ [.heartBeat heartBeat] →
      s''.serviceToRun = s'.serviceToRun → ∃ es sent beats, Sent s s'' es sent beats := by
    intro s'' hlog hqueue
    obtain ⟨beats, hbytes, hbeats⟩ := bytes_heartBeat hbeat
    refine ⟨es ++ [.heartBeat heartBeat], sent, beats, ?_, ?_, ?_, ?_, ?_, hbeats⟩
    · rw [hlog, hsent.log, List.append_assoc]
    · rw [List.flatMap_append, hsent.bytes, List.flatMap_singleton, hbytes, List.append_nil,
        List.flatMap_append]
    · have hbeat : (ServiceSend.heartBeat heartBeat).transmitted? = none := rfl
      rw [List.filterMap_append, List.filterMap_cons, hbeat, hsent.transmitted]
      exact List.append_nil _
    · rw [hqueue]
      exact hsent.order
    · have hlost : (ServiceSend.heartBeat heartBeat).lost? s.recvBlockMode = none := rfl
      rw [hqueue, List.filterMap_append, List.filterMap_cons, hlost]
      simpa using hsent.lost
  rw [ServiceClient.step, ServiceClient.pass]
  cases hflow : ServiceClient.sendServices sends s.serviceToRun 0 s with
  | next s₁ =>
    rw [hflow] at hs'
    obtain rfl := Option.some.inj hs'
    dsimp only
    split_ifs
    · exact hlogged _ rfl rfl
    · exact hlogged _ rfl rfl
    · exact ⟨es, sent, [], hsent⟩
  | brk s₁ =>
    rw [hflow] at hs'
    obtain rfl := Option.some.inj hs'
    exact ⟨es, sent, [], hsent⟩
  | ret s₁ =>
    rw [hflow] at hs'
    obtain rfl := Option.some.inj hs'
    exact ⟨es, sent, [], hsent⟩
  | crash =>
    rw [hflow] at hs'
    cases hs'

/-! ## Runs -/

/-- The invariant : the handler is at its place in the messages that have been sent on the
connection, and these and what is in the queue are the requests that are not lost. -/
structure Linked (world : ServiceWorld) (c : ServiceLink) (messages : List Str)
    (s : ServiceServer) (carried : Str) : Prop where
  framed : ServiceStream.Framed messages c.stream s carried
  understood : ∀ m ∈ messages, ServiceStream.IsMessage m ∧ ServiceServer.Finds world m
  sendable : ∀ it ∈ c.client.serviceToRun, Sendable world it
  added : ∀ it ∈ c.added, Sendable world it
  sublist : (c.past ++ messages.filterMap ServiceServer.serviceCall ++
    c.client.serviceToRun.map (·.call)).Sublist (c.added.map (·.call))
  perm : (c.past ++ messages.filterMap ServiceServer.serviceCall ++
    c.client.serviceToRun.map (·.call) ++ c.lost).Perm (c.added.map (·.call))

variable {c c' : ServiceLink} {messages : List Str} {s : ServiceServer} {carried : Str}

theorem linked_of_starts (h : Starts c) :
    ∃ messages s carried, Linked world c messages s carried := by
  obtain ⟨recvBlockMode, lastHeartBeatTime, rfl⟩ := h
  obtain ⟨s, carried, hframed⟩ := @ServiceStream.framed_of_sends [] ⟨some (.new false), []⟩
    (by simp) ⟨rfl, rfl⟩
  exact ⟨[], s, carried, hframed, by simp, by simp [ServiceClient.new],
    by simp, List.nil_sublist _, List.Perm.refl _⟩

/-- The calls made and those under way are those of the messages on the connection. -/
theorem Linked.calls_append_underWay (h : Linked world c messages s carried) :
    c.calls ++ c.underWay = messages.filterMap ServiceServer.serviceCall := by
  have hstrTmp : s.reader.strTmp = carried := by
    rw [h.framed.reader]
    rfl
  rw [calls, underWay, h.framed.server, ← h.framed.remaining.results]
  dsimp only
  rw [hstrTmp]

theorem Linked.conserved (h : Linked world c messages s carried) : Conserved c := by
  have hlocated : c.located = c.past ++ messages.filterMap ServiceServer.serviceCall ++
      c.client.serviceToRun.map (·.call) := by
    rw [located, List.append_assoc c.past, h.calls_append_underWay]
  refine ⟨hlocated ▸ h.sublist, hlocated ▸ h.perm, fun hrest => ?_⟩
  have hremaining := h.framed.remaining
  have hstrTmp : s.reader.strTmp = carried := by
    rw [h.framed.reader]
    rfl
  rw [hrest, List.append_nil] at hremaining
  have hcarried : carried = [] := by
    refine hremaining.ends.resolve_right ?_
    rintro ⟨b, rfl⟩
    exact h.framed.noSemicolon (by simp)
  rw [underWay, h.framed.server]
  dsimp only
  rw [hrest, hstrTmp, hcarried]
  rfl

/-- More messages are sent on the connection. -/
theorem framed_send {c : ServiceStream} (h : ServiceStream.Framed messages c s carried)
    {new : List Str} (hnew : ∀ m ∈ new, ';' ∉ m) :
    ServiceStream.Framed (messages ++ new) ⟨c.server, c.rest ++ new.flatMap (· ++ [';'])⟩ s
      carried := by
  refine ⟨h.server, h.mode, h.reader, h.noSemicolon, ?_⟩
  rw [← List.append_assoc]
  exact h.remaining.send ServiceServer.serviceCall_nil hnew

theorem isMessage_heartBeat : ServiceStream.IsMessage "HeartBeat".toList :=
  ⟨by decide, by decide, by decide, by decide⟩

theorem serviceCall_heartBeat : ServiceServer.serviceCall "HeartBeat".toList = none := by decide

theorem filterMap_message {its : List ServiceClient.ServiceParam}
    (h : ∀ it ∈ its, Sendable world it) :
    (its.map (·.message)).filterMap ServiceServer.serviceCall = its.map (·.call) := by
  induction its with
  | nil => rfl
  | cons it its ih =>
    rw [List.forall_mem_cons] at h
    rw [List.map_cons, List.filterMap_cons, h.1.serviceCall, ih h.2, List.map_cons]

theorem filterMap_beats {beats : List Str} (h : ∀ beat ∈ beats, beat = "HeartBeat".toList) :
    beats.filterMap ServiceServer.serviceCall = [] := by
  rw [List.filterMap_eq_nil_iff]
  intro beat hbeat
  rw [h beat hbeat, serviceCall_heartBeat]

/-- What is sent is understood. -/
theorem understood_sent {sent : List ServiceClient.ServiceParam} {beats : List Str}
    (hsent : ∀ it ∈ sent, Sendable world it) (hbeats : ∀ beat ∈ beats, beat = "HeartBeat".toList) :
    ∀ m ∈ sent.map (·.message) ++ beats,
      ServiceStream.IsMessage m ∧ ServiceServer.Finds world m := by
  refine List.forall_mem_append.2 ⟨List.forall_mem_map.2 fun it hit => ?_, fun beat hbeat => ?_⟩
  · exact ⟨(hsent it hit).isMessage, (hsent it hit).isFound⟩
  · rw [hbeats beat hbeat]
    refine ⟨isMessage_heartBeat, fun _ _ _ hcall => ?_⟩
    rw [serviceCall_heartBeat] at hcall
    cases hcall

theorem Linked.addService (h : Linked world c messages s carried) {it : ServiceClient.ServiceParam}
    (hit : Sendable world it) (hstep : c.step world (.addService it) = some c') :
    Linked world c' messages s carried := by
  obtain rfl := Option.some.inj hstep
  refine ⟨h.framed, h.understood,
    List.forall_mem_append.2 ⟨h.sendable, List.forall_mem_singleton.2 hit⟩,
    List.forall_mem_append.2 ⟨h.added, List.forall_mem_singleton.2 hit⟩, ?_, ?_⟩
  · simpa [ServiceClient.addService, ← List.append_assoc] using
      h.sublist.append_right [it.call]
  · refine List.perm_iff_count.2 fun x => ?_
    have hcount := h.perm.count_eq x
    simp only [ServiceClient.addService, List.map_append, List.count_append] at hcount ⊢
    omega

theorem Linked.pass (h : Linked world c messages s carried) {sends : ℕ → SendEvent}
    {heartBeat : SendEvent} {t : ℤ} (hwhole : WholeFrom sends c.client.serviceToRun 0)
    (hbeat : heartBeat.Whole heartBeatFrame)
    (hstep : c.step world (.pass sends heartBeat t) = some c') :
    ∃ messages', Linked world c' messages' s carried := by
  obtain ⟨es, sent, beats, hsent⟩ := @pass_sent c.client sends heartBeat t hwhole hbeat
  obtain rfl := Option.some.inj hstep
  have hnew : (c.client.step (.pass sends heartBeat t)).log.drop c.client.log.length = es := by
    rw [hsent.log, List.drop_left]
  have hall : ∀ it ∈ sent ++ (c.client.step (.pass sends heartBeat t)).serviceToRun,
      Sendable world it := fun it hit => h.sendable it (hsent.order.subset hit)
  rw [List.forall_mem_append] at hall
  have hunderstood := understood_sent hall.1 hsent.beats
  have hcalls : (messages ++ (sent.map (·.message) ++ beats)).filterMap
      ServiceServer.serviceCall =
      messages.filterMap ServiceServer.serviceCall ++ sent.map (·.call) := by
    rw [List.filterMap_append, List.filterMap_append, filterMap_message hall.1,
      filterMap_beats hsent.beats, List.append_nil]
  refine ⟨messages ++ (sent.map (·.message) ++ beats), ?_,
    List.forall_mem_append.2 ⟨h.understood, hunderstood⟩, hall.2, h.added, ?_, ?_⟩
  · dsimp only
    rw [hnew, hsent.bytes]
    exact framed_send h.framed fun m hm => (hunderstood m hm).1.noSemicolon
  · have horder := hsent.order.map (·.call)
    rw [List.map_append] at horder
    dsimp only
    rw [hcalls, List.append_assoc, List.append_assoc, ← List.append_assoc]
    exact (List.Sublist.append_left horder _).trans h.sublist
  · refine List.perm_iff_count.2 fun x => ?_
    have hcount := h.perm.count_eq x
    have hlost := (hsent.lost.map (·.call)).count_eq x
    dsimp only
    rw [hcalls, hnew]
    simp only [List.map_append, List.count_append] at hcount hlost ⊢
    omega

theorem Linked.receive (h : Linked world c messages s carried)
    (honline : ServiceServer.Online world) {e : RecvEvent} (hcut : ServiceStream.Cut c.stream e)
    (hstep : c.step world (.receive e) = some c') :
    ∃ s' carried', Linked world c' messages s' carried' := by
  obtain ⟨stream, hstream, rfl⟩ := Option.map_eq_some_iff.1 hstep
  obtain ⟨s', carried', hframed⟩ := h.framed.step honline (fun m hm => (h.understood m hm).1)
    (fun m hm => (h.understood m hm).2) hcut hstream
  exact ⟨s', carried', hframed, h.understood, h.sendable, h.added, h.sublist, h.perm⟩

theorem Linked.reconnect (h : Linked world c messages s carried)
    (hstep : c.step world .reconnect = some c') :
    ∃ s' carried', Linked world c' [] s' carried' := by
  obtain rfl := Option.some.inj hstep
  obtain ⟨s', carried', hframed⟩ := @ServiceStream.framed_of_sends [] ⟨some (.new false), []⟩
    (by simp) ⟨rfl, rfl⟩
  have hconserved := h.conserved
  refine ⟨s', carried', hframed, by simp, h.sendable, h.added, ?_, ?_⟩
  · refine List.Sublist.trans ?_ hconserved.sublist
    dsimp only
    rw [List.filterMap_nil, List.append_nil, located]
    exact (List.sublist_append_left _ _).append_right _
  · refine List.perm_iff_count.2 fun x => ?_
    have hcount := hconserved.perm.count_eq x
    simp only [located, List.filterMap_nil, List.count_append, List.count_nil] at hcount ⊢
    omega

theorem linked_of_guard (honline : ServiceServer.Online world)
    (h : Reach (step world) Starts (Guard world) c) :
    ∃ messages s carried, Linked world c messages s carried := by
  refine h.invariant (fun _ hc => linked_of_starts hc) fun c e c' hlinked hguard hstep => ?_
  obtain ⟨messages, s, carried, hlinked⟩ := hlinked
  cases e with
  | addService it => exact ⟨_, _, _, hlinked.addService hguard hstep⟩
  | pass sends heartBeat t =>
    obtain ⟨messages', hlinked'⟩ := hlinked.pass hguard.1 hguard.2 hstep
    exact ⟨_, _, _, hlinked'⟩
  | receive e => exact ⟨_, hlinked.receive honline hguard hstep⟩
  | reconnect => exact ⟨_, hlinked.reconnect hstep⟩

/-- Conservation. In every run of a client and a server whose sends to the client succeed, each
request is queued, under way, called for once, or lost, and the calls are in the order in which the
requests have been added. -/
theorem conserved_of_guard (honline : ServiceServer.Online world)
    (h : Reach (step world) Starts (Guard world) c) : Conserved c := by
  obtain ⟨messages, s, carried, hlinked⟩ := linked_of_guard honline h
  exact hlinked.conserved

/-! ## What is executed -/

/-- A request is for a service that is declared with these parameters, and its own survive. -/
structure AsksFor (o : ControlObject) (it : ServiceClient.ServiceParam)
    (paramNames ps : List Str) : Prop where
  param : it.param = (ServiceClient.request it.objectName it.serviceName ps).param
  declares : o.Declares it.serviceName paramNames
  length : paramNames.length = ps.length
  notEmpty : ps ≠ []
  survives : Survives ps

/-- The record of a service that has been executed for a request with these parameters. -/
def Executes (paramNames ps : ServiceClient.ServiceParam → List Str)
    (record : Str × Std.TreeMap Str ParamValue) (it : ServiceClient.ServiceParam) : Prop :=
  record.1 = it.serviceName ∧
    (paramNames it).map (ControlObject.stringOf record.2) = (ps it).map some

/-- The call as an event of the handler. -/
def eventOf (call : Str × Str × Str) : ServiceEvent := .call call.1 call.2.1 call.2.2

variable {clib : CLib} {object : ℕ} {paramNames ps : ServiceClient.ServiceParam → List Str}

/-- A call leaves the declarations as they are. -/
theorem declares_of_call {o o' : ControlObject} {serviceName name params : Str}
    {names : List Str} (h : o.Declares serviceName names)
    (hcall : o.call clib name params = .ok o') : o'.Declares serviceName names := by
  rcases ControlObject.call_ok hcall with rfl | ⟨values, rfl⟩
  · exact h
  · exact ⟨by simp [h.service], h.declared, h.nodup⟩

/-- The calls for requests of an object execute the services with their parameters. -/
theorem runCalls_requests {its : List ServiceClient.ServiceParam} : ∀ {o : ControlObject},
    (∀ it ∈ its, Sendable world it ∧
      (world.objects.getObject it.objectName = some (.control object) →
        AsksFor o it (paramNames it) (ps it))) →
    ∃ o' records,
      runCalls clib world.objects object (its.map fun it => eventOf it.call) o = .ok o' ∧
      o'.executed = o.executed ++ records ∧
      List.Forall₂ (Executes paramNames ps) records
        (its.filter fun it => world.objects.getObject it.objectName = some (.control object)) := by
  induction its with
  | nil =>
    intro o _
    exact ⟨o, [], rfl, (List.append_nil _).symm, .nil⟩
  | cons it its ih =>
    intro o h
    rw [List.forall_mem_cons] at h
    have hevent : eventOf it.call = .call it.objectName it.serviceName it.param := rfl
    rw [List.map_cons, hevent, runCalls, List.filter_cons]
    by_cases hobject : world.objects.getObject it.objectName = some (.control object)
    · have hasks := h.1.2 hobject
      obtain ⟨o₁, values, hcall, hexecuted, hvalues⟩ := (@call_survives_iff it.objectName
        it.serviceName clib o _ _ hasks.declares hasks.length hasks.notEmpty
        fun p hp => (hasks.survives.plain p hp).noSemicolon).2 hasks.survives
      rw [← hasks.param, receivedParams_eq h.1.1.notEmpty h.1.1.param.2.2] at hcall
      obtain ⟨o', records, hrun, hrecords, hall⟩ := @ih o₁ fun it' hit' =>
        ⟨(h.2 it' hit').1, fun hobject' =>
          { (h.2 it' hit').2 hobject' with
            declares := declares_of_call ((h.2 it' hit').2 hobject').declares hcall }⟩
      refine ⟨o', (it.serviceName, values) :: records, ?_, ?_, ?_⟩
      · rw [if_pos hobject, hcall]
        exact hrun
      · rw [hrecords, hexecuted, List.append_assoc, List.singleton_append]
      · rw [if_pos (decide_eq_true hobject)]
        exact .cons ⟨rfl, hvalues⟩ hall
    · rw [if_neg hobject, if_neg (by simpa using hobject)]
      exact ih h.2

/-- What is executed. If all requests for an object are for services of it with parameters that
survive, then it executes the services of some of them, in order, each once and with its
parameters, and throws no exception. -/
theorem executed_of_guard (clib : CLib) (honline : ServiceServer.Online world)
    (h : Reach (step world) Starts (Guard world) c) (o : ControlObject)
    (hasks : ∀ it ∈ c.added, world.objects.getObject it.objectName = some (.control object) →
      AsksFor o it (paramNames it) (ps it)) :
    ∃ o' records its,
      runCalls clib world.objects object ((c.past ++ c.calls).map eventOf) o = .ok o' ∧
      o'.executed = o.executed ++ records ∧ List.Forall₂ (Executes paramNames ps) records its ∧
      its.Sublist (c.added.filter fun it =>
        world.objects.getObject it.objectName = some (.control object)) := by
  obtain ⟨messages, s, carried, hlinked⟩ := linked_of_guard honline h
  have hsublist : (c.past ++ c.calls).Sublist (c.added.map (·.call)) := by
    refine List.Sublist.trans ?_ hlinked.conserved.sublist
    rw [located, List.append_assoc (c.past ++ c.calls)]
    exact List.sublist_append_left _ _
  obtain ⟨its, hits, hcalls⟩ := List.sublist_map_iff.1 hsublist
  obtain ⟨o', records, hrun, hrecords, hall⟩ := @runCalls_requests world clib object paramNames ps
    its o fun it hit => ⟨hlinked.added it (hits.subset hit), hasks it (hits.subset hit)⟩
  refine ⟨o', records, _, ?_, hrecords, hall, hits.filter _⟩
  rw [hcalls, List.map_map]
  exact hrun

/-! ## Connections that are kept -/

/-- The condition on an event under which nothing is lost. -/
def Keeps (world : ServiceWorld) (c : ServiceLink) (e : ServiceLinkEvent) : Prop :=
  Guard world c e ∧ match e with
    | .pass sends _ _ =>
      ServiceClient.CarefulFrom c.client.recvBlockMode sends c.client.serviceToRun 0
    | .reconnect => False
    | _ => True

/-- A careful pass loses nothing. -/
theorem lost_of_careful {s s' : ServiceClient} {sends : ℕ → SendEvent} {heartBeat : SendEvent}
    {t : ℤ} {es : List ServiceSend} {sent : List ServiceClient.ServiceParam} {beats : List Str}
    (hcareful : ServiceClient.CarefulFrom s.recvBlockMode sends s.serviceToRun 0)
    (hs' : s.step (.pass sends heartBeat t) = s') (hsent : Sent s s' es sent beats) :
    es.filterMap (ServiceSend.lost? s.recvBlockMode) = [] := by
  obtain ⟨s'', hpass, hiff⟩ := ServiceClient.pass_spec sends heartBeat t s
  have heq : s'' = s' := by
    rw [← hs', ServiceClient.step, hpass]
    rfl
  subst heq
  have hqueue := hiff.2 hcareful
  rw [ServiceClient.transmitted, hsent.log, List.filterMap_append, hsent.transmitted,
    ← ServiceClient.transmitted, List.append_assoc] at hqueue
  have hlength := hsent.lost.length_eq
  rw [List.append_cancel_left hqueue, List.length_append] at hlength
  exact List.length_eq_zero_iff.1 (by omega)

/-- The invariant of these runs. -/
structure Kept (world : ServiceWorld) (c : ServiceLink) : Prop where
  linked : ∃ messages s carried, Linked world c messages s carried
  lost : c.lost = []
  past : c.past = []

theorem kept_of_starts (h : Starts c) : Kept world c := by
  have hlinked := @linked_of_starts world c h
  obtain ⟨_, _, rfl⟩ := h
  exact ⟨hlinked, rfl, rfl⟩

theorem Kept.step (h : Kept world c) (honline : ServiceServer.Online world) {e : ServiceLinkEvent}
    (hkeeps : Keeps world c e) (hstep : c.step world e = some c') : Kept world c' := by
  obtain ⟨⟨messages, s, carried, hlinked⟩, hlost, hpast⟩ := h
  obtain ⟨hguard, hkeeps⟩ := hkeeps
  cases e with
  | addService it =>
    have hlinked' := hlinked.addService hguard hstep
    obtain rfl := Option.some.inj hstep
    exact ⟨⟨_, _, _, hlinked'⟩, hlost, hpast⟩
  | pass sends heartBeat t =>
    obtain ⟨messages', hlinked'⟩ := hlinked.pass hguard.1 hguard.2 hstep
    obtain ⟨es, sent, beats, hsent⟩ := @pass_sent c.client sends heartBeat t hguard.1 hguard.2
    obtain rfl := Option.some.inj hstep
    refine ⟨⟨_, _, _, hlinked'⟩, ?_, hpast⟩
    dsimp only
    rw [hsent.log, List.drop_left, lost_of_careful hkeeps rfl hsent, hlost]
    rfl
  | receive e =>
    have hlinked' := hlinked.receive honline hguard hstep
    obtain ⟨stream, -, rfl⟩ := Option.map_eq_some_iff.1 hstep
    exact ⟨⟨_, hlinked'⟩, hlost, hpast⟩
  | reconnect => exact absurd hkeeps id

/-- Exactly once. In every run on one connection whose passes are careful, the calls made, those
under way and those in the queue are the requests added, in order. -/
theorem located_of_keeps (honline : ServiceServer.Online world)
    (h : Reach (step world) Starts (Keeps world) c) :
    c.calls ++ c.underWay ++ c.client.serviceToRun.map (·.call) = c.added.map (·.call) := by
  have hkept : Kept world c := h.invariant (fun _ hc => kept_of_starts hc)
    fun _ _ _ hkept hkeeps hstep => hkept.step honline hkeeps hstep
  obtain ⟨messages, s, carried, hlinked⟩ := hkept.linked
  have hconserved := hlinked.conserved
  have hlength := hconserved.perm.length_eq
  rw [hkept.lost, List.append_nil] at hlength
  have heq := hconserved.sublist.eq_of_length hlength
  rwa [located, hkept.past, List.nil_append] at heq

/-! ## Two requests -/

/-- A request for the service `b` of `/a` with this letter as parameter. -/
def request_b (p : Char) : ServiceClient.ServiceParam :=
  ServiceClient.request "/a".toList "b".toList [[p]]

theorem sendable_b {p : Char} (hp : p = 'y' ∨ p = 'z') :
    Sendable (.online objects_a) (request_b p) where
  objectName := isRequestName_ab.1
  serviceName := isRequestName_ab.2
  notEmpty := List.cons_ne_nil _ _
  param := by rcases hp with rfl | rfl <;> decide
  noZero := by rcases hp with rfl | rfl <;> decide
  short := by rcases hp with rfl | rfl <;> decide
  finds := ⟨0, rfl⟩

/-- The request asks for the service `b` with its letter. -/
theorem asksFor_b {p : Char} (hp : p = 'y' ∨ p = 'z') :
    AsksFor object_b (request_b p) ["x".toList] [[p]] := by
  refine ⟨rfl, declares_b, rfl, List.cons_ne_nil _ _, by rcases hp with rfl | rfl <;> decide,
    fun q hq => ?_, fun q hq => ?_⟩
  · rw [List.mem_singleton.1 hq]
    rcases hp with rfl | rfl <;> exact ⟨by decide, by decide, by decide, by decide⟩
  · obtain rfl := Option.some.inj hq
    rcases hp with rfl | rfl <;> decide

/-- A client and a server at the start. -/
def link_new : ServiceLink := ⟨.new true 0, ⟨some (.new false), []⟩, [], [], []⟩

/-- The first frame is accepted, and the one behind it refused. -/
def pass_y : ServiceLinkEvent :=
  .pass (fun i => if i = 0 then .accepted (request_b 'y').frame.length else .reset) .failed 0

/-- All frames are accepted. -/
def pass_z : ServiceLinkEvent := .pass (fun _ => .accepted (request_b 'z').frame.length) .failed 0

/-- Both are added, the first is sent and received, and then the other is sent. -/
theorem reach_yz : ∃ c, Reach (step (.online objects_a)) Starts (Keeps (.online objects_a)) c ∧
    c.added = [request_b 'y', request_b 'z'] ∧ c.past = [] ∧ c.lost = [] ∧
    c.calls = [(request_b 'y').call] ∧ c.underWay = [(request_b 'z').call] := by
  have h₀ : Reach (step (.online objects_a)) Starts (Keeps (.online objects_a)) link_new :=
    .start ⟨true, 0, rfl⟩
  refine ⟨_, ((((h₀.next (?addY : Keeps _ _ (.addService (request_b 'y'))) rfl).next
    (?addZ : Keeps _ _ (.addService (request_b 'z'))) rfl).next
    (?passY : Keeps _ _ pass_y) rfl).next
    (?receive : Keeps _ _ (.receive (.bytes (request_b 'y').frame))) rfl).next
    (?passZ : Keeps _ _ pass_z) rfl, rfl, rfl, rfl, by decide, by decide⟩
  case addY => exact ⟨sendable_b (.inl rfl), trivial⟩
  case addZ => exact ⟨sendable_b (.inr rfl), trivial⟩
  case passY => exact ⟨⟨⟨Or.inr rfl, trivial, trivial⟩, trivial⟩, Or.inr ⟨rfl, Or.inl trivial⟩⟩
  case receive =>
    refine ⟨?_, trivial⟩
    rintro _ ⟨⟩
    exact Or.inl ⟨(request_b 'y').message, rfl⟩
  case passZ => exact ⟨⟨⟨Or.inr rfl, trivial⟩, trivial⟩, Or.inr ⟨rfl, trivial⟩⟩

/-- The other one is under way when the connection is lost. -/
theorem conserved_yz : ∃ c : ServiceLink, Conserved c ∧ c.past = [(request_b 'y').call] ∧
    c.calls = [] ∧ c.lost = [(request_b 'z').call] := by
  obtain ⟨c, h, -, hpast, hlost, hcalls, hunderWay⟩ := reach_yz
  have hguard : Guard (.online objects_a) c .reconnect := trivial
  refine ⟨_, conserved_of_guard (fun _ _ => rfl)
    ((h.mono fun _ _ hkeeps => hkeeps.1).next hguard rfl), ?_, rfl, ?_⟩
  · rw [hpast, hcalls, List.nil_append]
  · rw [hlost, hunderWay, List.nil_append]

theorem located_yz : ∃ c : ServiceLink,
    c.calls ++ c.underWay ++ c.client.serviceToRun.map (·.call) =
      [(request_b 'y').call, (request_b 'z').call] ∧
    c.calls = [(request_b 'y').call] ∧ c.underWay = [(request_b 'z').call] := by
  obtain ⟨c, h, hadded, -, -, hcalls, hunderWay⟩ := reach_yz
  exact ⟨c, (located_of_keeps (fun _ _ => rfl) h).trans (by rw [hadded]; rfl), hcalls, hunderWay⟩

/-- Both are sent in one pass, and received in one segment. -/
theorem called_yz : ∃ c, Reach (step (.online objects_a)) Starts (Guard (.online objects_a)) c ∧
    c.added = [request_b 'y', request_b 'z'] ∧
    c.past ++ c.calls = [(request_b 'y').call, (request_b 'z').call] := by
  have h₀ : Reach (step (.online objects_a)) Starts (Guard (.online objects_a)) link_new :=
    .start ⟨true, 0, rfl⟩
  refine ⟨_, (((h₀.next (?addY : Guard _ _ (.addService (request_b 'y'))) rfl).next
    (?addZ : Guard _ _ (.addService (request_b 'z'))) rfl).next (?pass : Guard _ _ pass_z) rfl).next
    (?receive : Guard _ _ (.receive (.bytes ((request_b 'y').frame ++ (request_b 'z').frame)))) rfl,
    rfl, by decide⟩
  case addY => exact sendable_b (.inl rfl)
  case addZ => exact sendable_b (.inr rfl)
  case pass => exact ⟨⟨Or.inr rfl, Or.inr rfl, trivial⟩, trivial⟩
  case receive =>
    rintro _ ⟨⟩
    exact Or.inl ⟨(request_b 'y').frame ++ (request_b 'z').message, rfl⟩

theorem executed_yz : ∃ o' records its, ∃ c : ServiceLink,
    c.past ++ c.calls = [(request_b 'y').call, (request_b 'z').call] ∧
    runCalls Update.clib_zero objects_a 0 ((c.past ++ c.calls).map eventOf) object_b = .ok o' ∧
    o'.executed = object_b.executed ++ records ∧
    List.Forall₂ (Executes (fun _ => ["x".toList]) fun it => [it.param]) records its ∧
    its.Sublist [request_b 'y', request_b 'z'] := by
  obtain ⟨c, h, hadded, hcalls⟩ := called_yz
  have hasks : ∀ it ∈ c.added, AsksFor object_b it ["x".toList] [it.param] := by
    rw [hadded]
    rintro it (_ | ⟨_, _ | ⟨_, ⟨⟩⟩⟩)
    · exact asksFor_b (.inl rfl)
    · exact asksFor_b (.inr rfl)
  obtain ⟨o', records, its, hrun, hrecords, hall, hits⟩ := @executed_of_guard
    (.online objects_a) c 0 (fun _ => ["x".toList]) (fun it => [it.param]) Update.clib_zero
    (fun _ _ => rfl) h object_b fun it hit _ => hasks it hit
  rw [hadded] at hits
  exact ⟨o', records, its, c, hcalls, hrun, hrecords, hall, hits.trans List.filter_sublist⟩

end ServiceLink

end Ick
