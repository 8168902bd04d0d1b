import Ick.ChannelLink
import Ick.Reconnect
import Ick.ServiceLink
import Ick.SubscribeRequests
import Ick.SubscriberServer

/-!
# Asking and answering

What a handler of a client does about its requests when something has come, or nothing in time, and
what a handler of a server does about the requests in the bytes that it receives.

Whatever a client receives, it marks the channels that are answered, and then makes one pass over
those that are asked for (`talks_onReceive`). A server records what it can for each request, and
answers all requests, in their order (`answers_handleAll`).
-/

namespace Ick

/-! ## The client -/

/-- The texts that are passed to `::send`. -/
def sendsOf (log : List ClientEvent) : List Str := log.filterMap ClientEvent.sent

/-- The channel that is answered for in a message with these fields. -/
def answerOf : List Str → Option Str
  | command :: success :: channelName :: _ =>
    if command = "Subscribe".toList ∧ success = "Success".toList then some channelName else none
  | _ => none

/-- The channels that are answered for in messages. -/
def answersOf (messages : List (List Str)) : List Str := messages.filterMap answerOf

theorem sendsOf_append (log log' : List ClientEvent) :
    sendsOf (log ++ log') = sendsOf log ++ sendsOf log' :=
  List.filterMap_append

theorem sendsOf_map_send (datas : List Str) : sendsOf (datas.map .send) = datas := by
  rw [sendsOf, List.filterMap_map]
  exact List.filterMap_some

theorem messagesOf_append (log log' : List ClientEvent) :
    SubscriberClient.messagesOf (log ++ log') =
      SubscriberClient.messagesOf log ++ SubscriberClient.messagesOf log' :=
  List.filterMap_append

theorem answersOf_append (messages messages' : List (List Str)) :
    answersOf (messages ++ messages') = answersOf messages ++ answersOf messages' :=
  List.filterMap_append

theorem answersOf_message_none {tmp : List Str} (h : answerOf tmp = none) :
    answersOf (SubscriberClient.messagesOf [.message tmp]) = [] := by
  change answersOf [tmp] = _
  rw [answersOf, List.filterMap_cons_none h, List.filterMap_nil]

namespace SubscribeChannels

/-- The channels after these have been answered for. -/
def successes (channels : SubscribeChannels) (answers : List Str) : SubscribeChannels :=
  answers.foldl success channels

theorem getElem?_success_eq (channels : SubscribeChannels) (channelName name : Str) :
    (channels.success channelName)[name]? = channels[name]?.map fun info =>
      if channelName = name then { info with isRegistSuccess := true } else info := by
  unfold success
  cases hget : channels[channelName]? with
  | none =>
    by_cases heq : channelName = name
    · subst heq
      rw [hget]
      rfl
    · simp [heq]
  | some info =>
    rw [Std.TreeMap.getElem?_insert]
    by_cases heq : channelName = name
    · subst heq
      simp [hget]
    · simp [heq]

theorem getElem?_successes (answers : List Str) (name : Str) : ∀ channels : SubscribeChannels,
    (channels.successes answers)[name]? = channels[name]?.map fun info =>
      if name ∈ answers then { info with isRegistSuccess := true } else info := by
  induction answers with
  | nil =>
    intro channels
    simp [successes]
  | cons answer answers ih =>
    intro channels
    rw [successes, List.foldl_cons, ← successes, ih, getElem?_success_eq, Option.map_map]
    congr 1
    funext info
    by_cases heq : answer = name
    · subst heq
      simp
    · simp [heq, Ne.symm heq]

theorem getElem?_requested_eq (t : ℤ) (channels : SubscribeChannels) (name : Str) :
    (channels.requested t)[name]? = channels[name]?.map fun info =>
      if isDue t info then { info with registTime := t } else info :=
  Std.TreeMap.getElem?_map

end SubscribeChannels

namespace SubscriberClient

variable {world : ClientWorld} {s s' s'' : SubscriberClient} {es es' : List ClientEvent}

/-- The events between the two states, by which channels have been marked; nothing but a heartbeat
was sent. -/
structure Heard (s s' : SubscriberClient) (es : List ClientEvent) : Prop where
  log : s'.log = s.log ++ es
  beats : ∀ data ∈ sendsOf es, data = heartBeatFrame
  channels : s'.subscribeChannels = s.subscribeChannels.successes (answersOf (messagesOf es))
  dataSendList : s'.dataSendList = s.dataSendList
  recvBlockMode : s'.recvBlockMode = s.recvBlockMode

/-- `subscribeChannelHandler`, when there is nothing else to be sent. -/
structure Passed (world : ClientWorld) (s s' : SubscriberClient) : Prop where
  log : s'.log =
    s.log ++ (batches 0 [] (s.subscribeChannels.requests (world.time s.clock))).map .send
  channels : s'.subscribeChannels = s.subscribeChannels.requested (world.time s.clock)
  dataSendList : s'.dataSendList = []
  recvBlockMode : s'.recvBlockMode = s.recvBlockMode
  clock : s'.clock = s.clock + 1

/-- Events that are no answers and no sends. -/
theorem heard_of_log (hlog : s'.log = s.log ++ es) (hsends : sendsOf es = [])
    (hanswers : answersOf (messagesOf es) = [])
    (hchannels : s'.subscribeChannels = s.subscribeChannels)
    (hdata : s'.dataSendList = s.dataSendList) (hmode : s'.recvBlockMode = s.recvBlockMode) :
    Heard s s' es := by
  refine ⟨hlog, ?_, ?_, hdata, hmode⟩
  · rw [hsends]
    exact fun _ h => absurd h List.not_mem_nil
  · rw [hanswers]
    exact hchannels

theorem heard_of_eq (hlog : s'.log = s.log) (hchannels : s'.subscribeChannels = s.subscribeChannels)
    (hdata : s'.dataSendList = s.dataSendList) (hmode : s'.recvBlockMode = s.recvBlockMode) :
    Heard s s' [] :=
  heard_of_log (hlog.trans (List.append_nil _).symm) rfl rfl hchannels hdata hmode

theorem Heard.trans (h : Heard s s' es) (h' : Heard s' s'' es') : Heard s s'' (es ++ es') := by
  refine ⟨?_, ?_, ?_, h'.dataSendList.trans h.dataSendList,
    h'.recvBlockMode.trans h.recvBlockMode⟩
  · rw [h'.log, h.log, List.append_assoc]
  · rw [sendsOf_append]
    exact List.forall_mem_append.2 ⟨h.beats, h'.beats⟩
  · rw [h'.channels, h.channels, messagesOf_append, answersOf_append, SubscribeChannels.successes,
      SubscribeChannels.successes, SubscribeChannels.successes, List.foldl_append]

theorem sendsOf_map {α : Type*} {f : α → ClientEvent} (h : ∀ a, sendsOf [f a] = []) (l : List α) :
    sendsOf (l.map f) = [] := by
  induction l with
  | nil => rfl
  | cons a l ih =>
    rw [List.map_cons, ← List.singleton_append, sendsOf_append, h a, ih, List.append_nil]

/-- The calls after an update. -/
theorem exists_notify (s : SubscriberClient) (channelName : Str) (valueInfo : IckStormValueInfo)
    (untypedData : Option ℕ) :
    ∃ es, s.notify world channelName valueInfo untypedData = s.logged es ∧
      sendsOf es = [] ∧ messagesOf es = [] := by
  refine ⟨_, rfl, ?_, ?_⟩
  · rw [sendsOf_append, sendsOf_map fun _ => rfl, List.nil_append]
    cases untypedData with
    | none => rfl
    | some object => exact sendsOf_map (fun _ => rfl) _
  · rw [messagesOf_append, messagesOf_map fun _ => rfl, List.nil_append]
    cases untypedData with
    | none => rfl
    | some object => exact messagesOf_map (fun _ => rfl) _

/-- An update is no answer. -/
theorem answerOf_of_readUpdate {clib : CLib} {tmp : List Str} {channelName : Str}
    {valueInfo : IckStormValueInfo} (h : readUpdate clib tmp = .update channelName valueInfo) :
    answerOf tmp = none := by
  obtain ⟨accessMode, dataType, value, timeStamp, rest, rfl, -⟩ := readUpdate_eq_update h
  have hcommand : ¬("Update".toList = "Subscribe".toList ∧ channelName = "Success".toList) :=
    fun hboth => absurd hboth.1 (by decide)
  rw [answerOf, if_neg hcommand]

theorem heard_handleUpdate (s : SubscriberClient) {tmp : List Str} (htmp : answerOf tmp = none)
    (channelName : Str) (valueInfo : IckStormValueInfo) :
    (match handleUpdate world s channelName valueInfo with
      | .next s => Flow.next (s.logged [.message tmp])
      | flow => flow).All fun s' => ∃ es, Heard s s' es := by
  have hnotify : ∀ (s₁ : SubscriberClient) untypedData, s₁.log = s.log →
      s₁.subscribeChannels = s.subscribeChannels → s₁.dataSendList = s.dataSendList →
      s₁.recvBlockMode = s.recvBlockMode → ∃ es, Heard s
        ((s₁.notify world channelName valueInfo untypedData).logged [.message tmp]) es := by
    intro s₁ untypedData hlog hchannels hdata hmode
    obtain ⟨es, heq, hsends, hmessages⟩ := @exists_notify world s₁ channelName valueInfo untypedData
    rw [heq]
    refine ⟨es ++ [.message tmp], heard_of_log ?_ ?_ ?_ hchannels hdata hmode⟩
    · rw [logged, logged, hlog, List.append_assoc]
    · rw [sendsOf_append, hsends]
      rfl
    · rw [messagesOf_append, hmessages, List.nil_append]
      exact answersOf_message_none htmp
  unfold handleUpdate
  by_cases hregisted : s.objects.isObjectRegisted channelName = false
  · rw [if_pos hregisted]
    cases world.create valueInfo with
    | none => exact hnotify s none rfl rfl rfl rfl
    | some channel =>
      dsimp only
      cases s.objects.registerData (some ((s.channels ++ [channel]).length - 1)) channelName with
      | ok objects => exact hnotify _ _ rfl rfl rfl rfl
      | throws message objects => exact ⟨[], heard_of_eq rfl rfl rfl rfl⟩
      | crash => trivial
  · rw [if_neg hregisted]
    cases s.getData channelName with
    | none =>
      by_cases htype : valueInfo.dataType = .UNKNOWN
      · simp only [if_pos htype]
        exact hnotify s none rfl rfl rfl rfl
      · simp only [if_neg htype]
        trivial
    | some object =>
      dsimp only
      cases s.channels[object]?.bind (assign (world.io s.log) valueInfo) with
      | none => trivial
      | some channel => exact hnotify _ _ rfl rfl rfl rfl

theorem heard_handleOther (s : SubscriberClient) (tmp : List Str) :
    (handleOther world s tmp).All fun s' => ∃ es, Heard s s' es := by
  rcases tmp with _ | ⟨command, _ | ⟨nodeName, _ | ⟨third, rest⟩⟩⟩
  · exact ⟨[], heard_of_eq rfl rfl rfl rfl⟩
  · exact ⟨[], heard_of_eq rfl rfl rfl rfl⟩
  · exact ⟨[], heard_of_eq rfl rfl rfl rfl⟩
  · unfold handleOther
    by_cases hsuccess : command = "Subscribe".toList ∧ nodeName = "Success".toList
    · dsimp only
      rw [if_pos hsuccess]
      have hanswer : answersOf (messagesOf [.message (command :: nodeName :: third :: rest)]) =
          [third] := by
        have hone : answerOf (command :: nodeName :: third :: rest) = some third := if_pos hsuccess
        change answersOf [_] = _
        rw [answersOf, List.filterMap_cons_some hone, List.filterMap_nil]
      refine ⟨[.message (command :: nodeName :: third :: rest)], rfl, ?_, ?_, rfl, rfl⟩
      · exact fun _ h => absurd h List.not_mem_nil
      · rw [hanswer]
        rfl
    · dsimp only
      rw [if_neg hsuccess]
      cases rest with
      | nil => exact ⟨[], heard_of_eq rfl rfl rfl rfl⟩
      | cons nodeNames rest =>
        dsimp only
        split_ifs
        · cases Converter.split nodeNames ',' with
          | none => trivial
          | some subNodes =>
            refine ⟨_, heard_of_log rfl ?_ ?_ rfl rfl rfl⟩
            · rw [sendsOf_append, sendsOf_map fun _ => rfl]
              rfl
            · rw [messagesOf_append, messagesOf_map fun _ => rfl, List.nil_append]
              exact answersOf_message_none (if_neg hsuccess)
        · exact ⟨[], heard_of_eq rfl rfl rfl rfl⟩

theorem heard_handle (s : SubscriberClient) (data : Str) :
    (handle world s data).All fun s' => ∃ es, Heard s s' es := by
  unfold handle
  split
  · trivial
  · split
    · exact ⟨[], heard_of_eq rfl rfl rfl rfl⟩
    · rename_i hread
      exact heard_handleUpdate s (answerOf_of_readUpdate hread) _ _
    · exact heard_handleOther s _

theorem heard_handleAll (datas : List Str) : ∀ s : SubscriberClient,
    (handleAll world datas s).All fun s' => ∃ es, Heard s s' es := by
  induction datas with
  | nil => exact fun s => ⟨[], heard_of_eq rfl rfl rfl rfl⟩
  | cons data datas ih =>
    intro s
    have hhandle := @heard_handle world s data
    rw [handleAll]
    generalize handle world s data = flow at hhandle
    cases flow with
    | next s₁ =>
      obtain ⟨es, hheard⟩ := hhandle
      have hrest := ih s₁
      dsimp only
      generalize handleAll world datas s₁ = flow at hrest
      cases flow with
      | crash => trivial
      | _ s₂ =>
        obtain ⟨es', hheard'⟩ := hrest
        exact ⟨es ++ es', hheard.trans hheard'⟩
    | brk s₁ => exact hhandle
    | ret s₁ => exact hhandle
    | crash => trivial

/-- A pass, when there is nothing else to be sent. -/
theorem passed_subscribeChannelHandler (hdata : s.dataSendList = []) :
    Passed world s (subscribeChannelHandler world s).1 ∧
      (subscribeChannelHandler world s).2 = true := by
  have hnone : batches 0 [] s.dataSendList = [] := by rw [hdata]; rfl
  unfold subscribeChannelHandler
  simp only [hnone, sendAll]
  exact ⟨⟨rfl, rfl, rfl, rfl, rfl⟩, trivial⟩

theorem passed_again (hdata : s.dataSendList = []) (h : again world s = .next s') :
    Passed world s s' := by
  obtain ⟨hpassed, htrue⟩ := @passed_subscribeChannelHandler world s hdata
  unfold again at h
  generalize subscribeChannelHandler world s = result at h hpassed htrue
  obtain ⟨s₁, ok⟩ := result
  obtain rfl : ok = true := htrue
  obtain rfl := Flow.next.inj h
  exact ⟨hpassed.log, hpassed.channels, hpassed.dataSendList, hpassed.recvBlockMode, hpassed.clock⟩

theorem talks_round (hdata : s.dataSendList = []) {len : ℕ}
    (h : SubscriberClient.round world s len = .next s') :
    ∃ s₁ es, Heard s s₁ es ∧ Passed world s₁ s' := by
  unfold SubscriberClient.round at h
  cases hsplit : Converter.split s.reader.text ';' with
  | none =>
    rw [hsplit] at h
    cases h
  | some datas =>
    simp only [hsplit] at h
    generalize (if s.reader.full len = true then datas.length - 1 else datas.length) = handled at h
    have hall := @heard_handleAll world (datas.take handled) s
    generalize handleAll world (datas.take handled) s = flow at hall h
    cases flow with
    | next s₁ =>
      obtain ⟨es, hheard⟩ := hall
      dsimp only at h
      split_ifs at h
      obtain rfl := Flow.next.inj h
      refine ⟨{ s₁ with reader := s₁.reader.carry len (datas.getLastD []) }, es,
        ⟨hheard.log, hheard.beats, hheard.channels, hheard.dataSendList, hheard.recvBlockMode⟩, ?_⟩
      exact (@passed_subscribeChannelHandler world
        { s₁ with reader := s₁.reader.carry len (datas.getLastD []) }
        (hheard.dataSendList.trans hdata)).1
    | brk s₁ =>
      obtain ⟨es, hheard⟩ := hall
      exact ⟨s₁, es, hheard, passed_again (hheard.dataSendList.trans hdata) h⟩
    | ret s₁ => cases h
    | crash => cases h

/-- Whatever is received, the channels that are answered for are marked, and then those are asked
for that are due. -/
theorem talks_onReceive (hdata : s.dataSendList = []) {e : RecvEvent}
    (h : onReceive world s e = .next s') : ∃ s₁ es, Heard s s₁ es ∧ Passed world s₁ s' := by
  unfold onReceive at h
  generalize receive s.recvBlockMode s.isAlive e = received at h
  obtain ⟨received, isAlive⟩ := received
  cases received with
  | bytes data =>
    obtain ⟨s₁, es, hheard, hpassed⟩ := @talks_round world
      { s with isAlive := isAlive, reader := s.reader.write data } s' hdata data.length h
    exact ⟨s₁, es, ⟨hheard.log, hheard.beats, hheard.channels, hheard.dataSendList,
      hheard.recvBlockMode⟩, hpassed⟩
  | zero =>
    dsimp only at h
    split_ifs at h
    · refine ⟨_, [.send heartBeatFrame], ⟨?_, ?_, ?_, ?_, ?_⟩, passed_again ?_ h⟩
      · rfl
      · exact fun data hmem => List.mem_singleton.1 hmem
      · rfl
      · rfl
      · rfl
      · exact hdata
    · have hpassed := @passed_again world { s with isAlive := isAlive, clock := s.clock + 1 } s'
        hdata h
      exact ⟨{ s with isAlive := isAlive, clock := s.clock + 1 }, [], heard_of_eq rfl rfl rfl rfl,
        hpassed⟩
  | negative => cases h

/-- Nothing comes in time, and a heartbeat can be sent. -/
theorem onReceive_timedOut (hmode : s.recvBlockMode = false) (hdata : s.dataSendList = [])
    (hbeat : world.sends s.log heartBeatFrame = true) :
    ∃ s', onReceive world s .timedOut = .next s' ∧ s'.objects = s.objects ∧
      s'.channels = s.channels ∧ s'.reader = .new ∧ s'.messages = s.messages := by
  have hagain : ∀ s₁ : SubscriberClient, s₁.dataSendList = [] → s₁.objects = s.objects →
      s₁.channels = s.channels → s₁.messages = s.messages → ∃ s', again world s₁ = .next s' ∧
        s'.objects = s.objects ∧ s'.channels = s.channels ∧ s'.reader = .new ∧
        s'.messages = s.messages := by
    intro s₁ hdata hobjects hchannels hmessages
    have htrue := (@passed_subscribeChannelHandler world s₁ hdata).2
    have hsame := @unchanged_subscribeChannelHandler world s₁
    unfold again
    generalize subscribeChannelHandler world s₁ = result at htrue hsame
    obtain ⟨s₂, ok⟩ := result
    obtain rfl : ok = true := htrue
    exact ⟨_, rfl, hsame.objects.trans hobjects, hsame.channels.trans hchannels, rfl,
      hsame.messages.trans hmessages⟩
  have hframe : "HeartBeat;".toList = heartBeatFrame := rfl
  rw [onReceive, receive, hmode]
  simp only [Bool.false_eq_true, if_false, hframe, hbeat, if_true]
  split_ifs
  · refine hagain _ hdata rfl rfl ?_
    exact (messages_logged _ _).trans (List.append_nil _)
  · exact hagain _ hdata rfl rfl rfl

end SubscriberClient

/-! ## What is sent -/

/-- The texts that the connection takes, after what has been done before. -/
def ClientWorld.taken (world : ClientWorld) : List ClientEvent → List ClientEvent → List Str
  | _, [] => []
  | log, e :: es =>
    match e with
    | .send data =>
      if world.sends log data then data :: world.taken (log ++ [e]) es
      else world.taken (log ++ [e]) es
    | _ => world.taken (log ++ [e]) es

theorem taken_sublist (world : ClientWorld) (es : List ClientEvent) :
    ∀ log, (world.taken log es).Sublist (sendsOf es) := by
  induction es with
  | nil => exact fun log => .slnil
  | cons e es ih =>
    intro log
    cases e with
    | send data =>
      have hsends : sendsOf (.send data :: es) = data :: sendsOf es := rfl
      rw [ClientWorld.taken, hsends]
      split_ifs
      · exact (ih _).cons_cons data
      · exact (ih _).cons data
    | _ => exact ih _

/-- The channel that a text asks for. -/
def requestOf (data : Str) : Option Str :=
  match data.splitOn ':' with
  | [command, objectName] => if command = "Subscribe".toList then some objectName else none
  | _ => none

/-- The channels that are asked for in bytes. -/
def requestsOf (bytes : Str) : List Str := (bytes.splitOn ';').filterMap requestOf

/-- What a client sends : a heartbeat, or a request. -/
inductive AskMessage
  | heartBeat
  | request (channelName : Str)

namespace AskMessage

/-- The text of a message, without the semicolon. -/
def text : AskMessage → Str
  | .heartBeat => "HeartBeat".toList
  | .request channelName => "Subscribe:".toList ++ channelName

/-- The channel that is asked for. -/
def channelName? : AskMessage → Option Str
  | .heartBeat => none
  | .request channelName => some channelName

/-- The server understands the message, and the client the answer. -/
def Tellable : AskMessage → Prop
  | .heartBeat => True
  | .request channelName => (LinkMessage.success channelName).Tellable

variable {m : AskMessage}

theorem text_request (channelName : Str) :
    (request channelName).text = "Subscribe:".toList ++ channelName := rfl

theorem splitOn_request {channelName : Str} (h : ':' ∉ channelName) :
    (request channelName).text.splitOn ':' = ["Subscribe".toList, channelName] := by
  have htext : (request channelName).text = "Subscribe".toList ++ ':' :: channelName := rfl
  have hcommand : ':' ∉ "Subscribe".toList := by decide
  rw [htext, List.splitOn_append_cons_self_of_not_mem hcommand, List.splitOn_eq_singleton h]

theorem requestOf_text (h : m.Tellable) : requestOf m.text = m.channelName? := by
  cases m with
  | heartBeat => decide
  | request channelName =>
    rw [requestOf, splitOn_request (h.2.2 _ (by decide))]
    exact if_pos rfl

theorem Tellable.isMessage (h : m.Tellable) : ServiceStream.IsMessage m.text := by
  cases m with
  | heartBeat => exact ⟨by decide, by decide, by decide, by decide⟩
  | request channelName =>
    obtain ⟨-, hlength, hbytes⟩ := h
    have hcommand : ∀ c ∈ ['\x00', ' ', ';'], c ∉ "Subscribe:".toList := by simp
    have hsub : ['\x00', ' ', ';'] ⊆ ['\x00', ' ', ':', ';'] := by simp
    have hnot : ∀ c ∈ ['\x00', ' ', ';'], c ∉ (request channelName).text := by
      intro c hc
      rw [text_request, List.mem_append, not_or]
      exact ⟨hcommand c hc, hbytes c (hsub hc)⟩
    refine ⟨hnot _ (by decide), hnot _ (by decide), hnot _ (by decide), ?_⟩
    have hcommandLength : ("Subscribe:".toList).length = 10 := rfl
    rw [text_request, List.length_append, hcommandLength]
    omega

theorem requestsOf_flatMap {ms : List AskMessage} (h : ∀ m ∈ ms, m.Tellable) :
    requestsOf ((ms.map text).flatMap (· ++ [';'])) = ms.filterMap channelName? := by
  have hnoSemicolon : ∀ data ∈ ms.map text, ';' ∉ data :=
    List.forall_mem_map.2 fun m hm => (h m hm).isMessage.noSemicolon
  rw [requestsOf, Delimited.splitOn_flatMap hnoSemicolon, List.filterMap_append, List.filterMap_map]
  have hlast : [([] : Str)].filterMap requestOf = [] := rfl
  rw [hlast, List.append_nil]
  exact List.filterMap_congr fun m hm => requestOf_text (h m hm)

/-- Texts that are made of messages are made of messages together. -/
theorem exists_flatten {P : AskMessage → Prop} {texts : List Str}
    (h : ∀ text ∈ texts, ∃ ms : List AskMessage,
      text = (ms.map AskMessage.text).flatMap (· ++ [';']) ∧ ∀ m ∈ ms, P m) :
    ∃ ms : List AskMessage, texts.flatten = (ms.map AskMessage.text).flatMap (· ++ [';']) ∧
      ∀ m ∈ ms, P m := by
  induction texts with
  | nil => exact ⟨[], rfl, fun _ h => absurd h List.not_mem_nil⟩
  | cons text texts ih =>
    rw [List.forall_mem_cons] at h
    obtain ⟨⟨ms, rfl, hms⟩, htexts⟩ := h
    obtain ⟨ms', hflatten, hms'⟩ := ih htexts
    refine ⟨ms ++ ms', ?_, List.forall_mem_append.2 ⟨hms, hms'⟩⟩
    rw [List.flatten_cons, hflatten, List.map_append, List.flatMap_append]

end AskMessage

namespace SubscribeChannels

open AskMessage

/-- The frame of a request. -/
theorem frame_eq (channelName : Str) :
    frame channelName = ([(request channelName).text]).flatMap (· ++ [';']) := by
  rw [List.flatMap_singleton]
  rfl

/-- The texts of a pass are made of requests for channels that are due. -/
theorem exists_batches (t : ℤ) (channels : SubscribeChannels) {text : Str}
    (h : text ∈ batches 0 [] (channels.requests t)) :
    ∃ ms : List AskMessage, text = (ms.map AskMessage.text).flatMap (· ++ [';']) ∧
      ∀ m ∈ ms, ∃ it ∈ channels.due t, m = request it.1 := by
  obtain ⟨groups, hsends, hgroups, -⟩ := (complete_requestPass t channels).requests
  rw [← sends_requestPass, hsends] at h
  obtain ⟨group, hgroup, rfl⟩ := List.mem_map.1 h
  refine exists_flatten fun text htext => ?_
  have hmem : text ∈ (channels.due t).map (frame ·.1) :=
    hgroups ▸ List.mem_flatten_of_mem hgroup htext
  obtain ⟨it, hit, rfl⟩ := List.mem_map.1 hmem
  exact ⟨[request it.1], frame_eq it.1, List.forall_mem_singleton.2 ⟨it, hit, rfl⟩⟩

/-- Together they are the requests for all of these. -/
theorem flatten_batches (t : ℤ) (channels : SubscribeChannels) :
    (batches 0 [] (channels.requests t)).flatten =
      (((channels.due t).map fun it => request it.1).map text).flatMap (· ++ [';']) := by
  rw [← sends_requestPass, (complete_requestPass t channels).concatenated, List.map_map,
    List.flatMap_map]
  rfl

end SubscribeChannels

/-! ## What is received -/

namespace Reader

/-- What a segment leads to, behind what is carried over : the pieces that are handled are messages,
and the rest is carried over by a loop that looks at its condition again after each piece. -/
structure Pieces {β : Type*} (f : Str → Option β) (messages : List Str) (done : List β) (r : Reader)
    (carried data rest : Str) (datas handled : List Str) (carried' : Str) : Prop where
  split : Converter.split (carried ++ data) ';' = some datas
  take : datas.take (if data.length = r.room then datas.length - 1 else datas.length) = handled
  carry : (fun r => r.carry data.length (datas.getLastD []))^[handled.length] (r.write data) =
    .holding carried'
  noSemicolon : ';' ∉ carried'
  pieces : ∀ w ∈ handled, w = [] ∨ w = [';'] ∨ w ∈ messages
  remaining : Delimited.Remaining ';' f messages (done ++ handled.filterMap f) (carried' ++ rest)

section Pieces

variable {β : Type*} {f : Str → Option β} {messages : List Str} {done : List β} {r : Reader}
  {carried data rest : Str}

/-- A segment that fills the buffer : the last piece is carried over. -/
theorem exists_pieces_of_full (hmessages : ∀ m ∈ messages, ServiceStream.IsMessage m)
    (hr : r = .holding carried)
    (h : Delimited.Remaining ';' f messages done (carried ++ data ++ rest))
    (hfull : data.length = r.room) (hends : ¬[';'] <:+ carried ++ data)
    (hsurvives : ServiceStream.CarrySurvives carried (carried ++ data)) :
    ∃ datas handled carried',
      Pieces f messages done r carried data rest datas handled carried' := by
  have hblank := h.notMem_left (by decide) fun m hm => (hmessages m hm).noBlank
  have hcarried : r.strTmp = carried := by rw [hr]; rfl
  have hstrTmp : (r.write data).strTmp = carried := hcarried
  obtain ⟨b, p, hbp, hp, hpsep⟩ := Reader.exists_cut (hcarried ▸ h)
    (fun m hm => (hmessages m hm).short) hfull (hcarried ▸ hends)
  rw [hcarried] at hbp
  have hsplit : Converter.split (carried ++ data) ';' = some (b.splitOn ';' ++ [p]) := by
    rw [Converter.split_of_noBlank hblank, hbp, List.splitOn_append_cons_self,
      List.splitOn_eq_singleton hpsep, Converter.tidy_concat hp]
  have hlast : (b.splitOn ';' ++ [p]).getLastD [] = p := by simp
  have htake : (b.splitOn ';' ++ [p]).take ((b.splitOn ';' ++ [p]).length - 1) =
      b.splitOn ';' := by simp
  have hcount : (carried ++ data).count ';' = (b.splitOn ';').length := by
    rw [Delimited.length_splitOn, hbp, List.count_append, List.count_cons_self,
      List.count_eq_zero.2 hpsep]
  have htail : (carried ++ data).reverse.takeWhile (· ≠ ';') = p.reverse := by
    rw [hbp, List.reverse_append, List.reverse_cons, List.append_assoc, List.singleton_append]
    exact Converter.takeWhile_append_cons (by simpa using hpsep) _
  rw [hbp] at h
  refine ⟨_, _, p, hsplit, ?_, ?_, hpsep, fun w hw => ?_, h.keep⟩
  · rw [if_pos hfull, htake]
  · have hroom : data.length = (r.write data).room := hfull
    rw [hlast, Reader.iterate_carry_of_full hroom hp]
    rw [ServiceStream.CarrySurvives, hcount, htail, List.length_reverse] at hsurvives
    rw [hstrTmp]
    have hpos : (b.splitOn ';').length ≠ 0 := by simp
    tauto
  · refine (h.fields w ?_).imp_right Or.inr
    rw [Delimited.splitOn_append_cons_append]
    exact List.mem_append_left _ hw

/-- A segment that leaves room : nothing is carried over. -/
theorem exists_pieces_of_room (hnil : f [] = none) (hsemicolon : f [';'] = none)
    (hmessages : ∀ m ∈ messages, ServiceStream.IsMessage m)
    (h : Delimited.Remaining ';' f messages done (carried ++ data ++ rest)) (hdata : data ≠ [])
    (hroom : data.length < r.room) (hcut : Delimited.Meet ';' (carried ++ data) rest) :
    ∃ datas handled carried',
      Pieces f messages done r carried data rest datas handled carried' := by
  have hblank := h.notMem_left (by decide) fun m hm => (hmessages m hm).noBlank
  have hne : Converter.tidy ';' ((carried ++ data).splitOn ';') ≠ [] :=
    Converter.tidy_splitOn_ne_nil (by simp [hdata])
  have hpieces := Converter.filterMap_tidy hnil hsemicolon ((carried ++ data).splitOn ';')
  refine ⟨_, _, [], Converter.split_of_noBlank hblank, ?_, ?_, List.not_mem_nil, fun w hw => ?_,
    hpieces ▸ h.read hnil hcut⟩
  · rw [if_neg hroom.ne, List.take_length]
  · obtain ⟨n, hn⟩ := Nat.exists_eq_succ_of_ne_zero (List.length_pos_of_ne_nil hne).ne'
    have hlen : data.length < bufferSize - 1 := hroom.trans_le (Nat.sub_le _ _)
    rw [hn]
    exact Reader.iterate_carry_of_not_full hroom.ne hlen _ n
  · rcases Converter.mem_tidy hw with hw | rfl
    · rcases Delimited.mem_splitOn_append_left hcut hw with rfl | hw
      · exact Or.inl rfl
      · exact (h.fields w hw).imp_right Or.inr
    · exact Or.inr (Or.inl rfl)

/-- Whether it fills the buffer or not. -/
theorem exists_pieces (hnil : f [] = none) (hsemicolon : f [';'] = none)
    (hmessages : ∀ m ∈ messages, ServiceStream.IsMessage m) (hr : r = .holding carried)
    (h : Delimited.Remaining ';' f messages done (carried ++ data ++ rest)) (hdata : data ≠ [])
    (hroom : data.length ≤ r.room)
    (hcut : if data.length = r.room then
        ¬[';'] <:+ carried ++ data ∧ ServiceStream.CarrySurvives carried (carried ++ data)
      else Delimited.Meet ';' (carried ++ data) rest) :
    ∃ datas handled carried',
      Pieces f messages done r carried data rest datas handled carried' := by
  split_ifs at hcut with hfull
  · exact exists_pieces_of_full hmessages hr h hfull hcut.1 hcut.2
  · exact exists_pieces_of_room hnil hsemicolon hmessages h hdata (lt_of_le_of_ne hroom hfull) hcut

/-- The text of the segment, behind what is carried over. -/
theorem text_write_of_remaining (hmessages : ∀ m ∈ messages, ServiceStream.IsMessage m)
    (hr : r = .holding carried)
    (h : Delimited.Remaining ';' f messages done (carried ++ data ++ rest)) :
    (r.write data).text = carried ++ data := by
  have hzero := h.notMem_left (by decide) fun m hm => (hmessages m hm).noZero
  rw [hr, text_write_holding hzero]

end Pieces

end Reader

/-! ## The server -/

theorem requestOf_nil : requestOf [] = none := rfl

theorem requestOf_semicolon : requestOf [';'] = none := by decide

namespace SubscriberServer

variable {world : SubscriberWorld} {socketParam : ℕ} {s s' s'' : SubscriberServer}
  {names names' : List Str}

/-- `addSubscribe` finds the channel for the name. -/
def Takes (s : SubscriberServer) (objectName : Str) (object : ℕ) : Prop :=
  if objectName.getLast? = some '/' then
    ∃ child ∈ (s.objects.getChannelNodeList objectName).takeWhile
      (fun child => (s.getData (objectName ++ child)).isSome),
      s.getData (objectName ++ child) = some object
  else s.getData objectName = some object

/-- What is asked for by the name is recorded. -/
def Recorded (socketParam : ℕ) (s : SubscriberServer) (objectName : Str) : Prop :=
  (objectName.getLast? ≠ some '/' → ∃ object, s.objects.datas[objectName]? = some object ∧
    s.clients.Records socketParam object) ∧
  (objectName.getLast? = some '/' → ∀ name object, name ≠ [] → '/' ∉ name →
    s.objects.datas[objectName ++ name]? = some object → s.clients.Records socketParam object)

/-- Requests for these names have been answered, one after the other. -/
structure Answers (socketParam : ℕ) (s s' : SubscriberServer) (names : List Str) : Prop where
  objects : s'.objects = s.objects
  recvBlockMode : s'.recvBlockMode = s.recvBlockMode
  log : s'.log = s.log ++ names.map fun name => .send (successText name)
  records : ∀ object, s'.clients.Records socketParam object ↔
    s.clients.Records socketParam object ∨ ∃ name ∈ names, s.Takes name object

theorem answers_of_eq (hobjects : s'.objects = s.objects)
    (hmode : s'.recvBlockMode = s.recvBlockMode) (hlog : s'.log = s.log)
    (hclients : s'.clients = s.clients) : Answers socketParam s s' [] := by
  refine ⟨hobjects, hmode, hlog.trans (List.append_nil _).symm, fun object => ?_⟩
  rw [hclients]
  simp

theorem takes_congr (h : s'.objects = s.objects) : s'.Takes = s.Takes := by
  have hgetData : ∀ name, s'.getData name = s.getData name := by
    intro name
    rw [getData, getData, h]
  unfold Takes
  simp only [hgetData, h]

theorem Answers.trans (h : Answers socketParam s s' names)
    (h' : Answers socketParam s' s'' names') : Answers socketParam s s'' (names ++ names') := by
  refine ⟨h'.objects.trans h.objects, h'.recvBlockMode.trans h.recvBlockMode, ?_, fun object => ?_⟩
  · rw [h'.log, h.log, List.map_append, List.append_assoc]
  · rw [h'.records, h.records, takes_congr h.objects]
    simp only [List.mem_append, or_and_right, exists_or, or_assoc]

/-- Asking for channels leaves the reader alone. -/
theorem subscribeAll_keeps (dataList : List Str) : ∀ s : SubscriberServer,
    (subscribeAll world socketParam dataList s).reader = s.reader ∧
      (subscribeAll world socketParam dataList s).recvBlockMode = s.recvBlockMode := by
  induction dataList with
  | nil => exact fun s => ⟨rfl, rfl⟩
  | cons name dataList ih =>
    intro s
    rw [subscribeAll]
    cases s.getData name with
    | none => exact ⟨rfl, rfl⟩
    | some object => exact ih (s.subscribeObject world socketParam object)

/-- What `addSubscribe` does, and the answer. -/
theorem answers_subscribeAll (s : SubscriberServer) (objectName : Str) :
    Answers socketParam s ((subscribeAll world socketParam (s.dataList objectName) s).logged
      [.send (successText objectName)]) [objectName] := by
  obtain ⟨hobjects, hlog, -⟩ := @subscribeAll_spec world socketParam (s.dataList objectName) s
  refine ⟨hobjects, (subscribeAll_keeps _ s).2, ?_, fun object => ?_⟩
  · rw [logged, hlog]
    rfl
  · have hrecords := @records_addSubscribe world socketParam s objectName object
    simp only [List.mem_singleton, exists_eq_left]
    exact hrecords

/-- One message. -/
theorem handle_ask (hsends : ∀ log data, world.sends log data = true) (s : SubscriberServer)
    {m : AskMessage} (hm : m.Tellable) : ∃ s', handle world socketParam s m.text = .next s' ∧
      s'.reader = s.reader ∧ Answers socketParam s s' m.channelName?.toList := by
  cases m with
  | heartBeat => exact ⟨s, rfl, rfl, answers_of_eq rfl rfl rfl rfl⟩
  | request channelName =>
    have hblank := hm.isMessage.noBlank
    obtain ⟨hne, -, hbytes⟩ := hm
    have hsplit : Converter.split (AskMessage.request channelName).text ':' =
        some ["Subscribe".toList, channelName] := by
      rw [Converter.split_of_noBlank hblank,
        AskMessage.splitOn_request (hbytes _ (by decide))]
      exact congrArg _ (Converter.tidy_concat hne ["Subscribe".toList])
    refine ⟨_, ?_, ?_, @answers_subscribeAll world socketParam s channelName⟩
    · rw [handle_subscribe hsplit, if_neg hne]
      simp only [hsends, if_true]
    · exact (subscribeAll_keeps _ s).1

/-- The pieces that are messages are answered, one after the other. -/
theorem answers_handleAll (hsends : ∀ log data, world.sends log data = true) {len : ℕ} {last : Str}
    {datas : List Str} (hdatas : ∀ data ∈ datas, data = [] ∨ data = [';'] ∨
      ∃ m : AskMessage, m.Tellable ∧ data = m.text) : ∀ s : SubscriberServer,
    ∃ s', handleAll world socketParam len last datas s = .next s' ∧
      s'.reader = (fun r => r.carry len last)^[datas.length] s.reader ∧
      Answers socketParam s s' (datas.filterMap requestOf) := by
  induction datas with
  | nil => exact fun s => ⟨s, rfl, rfl, answers_of_eq rfl rfl rfl rfl⟩
  | cons data datas ih =>
    rw [List.forall_mem_cons] at hdatas
    intro s
    have hone : ∃ s', handle world socketParam s data = .next s' ∧ s'.reader = s.reader ∧
        Answers socketParam s s' (requestOf data).toList := by
      rcases hdatas.1 with rfl | rfl | ⟨m, hm, rfl⟩
      · exact ⟨s, rfl, rfl, answers_of_eq rfl rfl rfl rfl⟩
      · exact ⟨s, rfl, rfl, answers_of_eq rfl rfl rfl rfl⟩
      · rw [AskMessage.requestOf_text hm]
        exact handle_ask hsends s hm
    obtain ⟨s₁, heq, hreader, hanswers⟩ := hone
    obtain ⟨s', hrest, hreader', hanswers'⟩ :=
      ih hdatas.2 { s₁ with reader := s₁.reader.carry len last }
    refine ⟨s', ?_, ?_, ?_⟩
    · rw [handleAll, heq]
      exact hrest
    · rw [hreader', hreader]
      rfl
    · have hcons : (data :: datas).filterMap requestOf =
          (requestOf data).toList ++ datas.filterMap requestOf := by
        rw [List.filterMap_cons]
        cases requestOf data <;> rfl
      rw [hcons]
      have hcarried : Answers socketParam s { s₁ with reader := s₁.reader.carry len last }
          (requestOf data).toList :=
        ⟨hanswers.objects, hanswers.recvBlockMode, hanswers.log, hanswers.records⟩
      exact hcarried.trans hanswers'

/-- A segment that is read as messages. -/
theorem answers_onReceive (hsends : ∀ log data, world.sends log data = true) {data text : Str}
    {datas handled : List Str} {carried : Str} (htext : (s.reader.write data).text = text)
    (hsplit : Converter.split text ';' = some datas)
    (htake : datas.take (if data.length = s.reader.room then datas.length - 1 else datas.length) =
      handled)
    (hcarry : (fun r => r.carry data.length (datas.getLastD []))^[handled.length]
      (s.reader.write data) = .holding carried)
    (hhandled : ∀ w ∈ handled, w = [] ∨ w = [';'] ∨ ∃ m : AskMessage, m.Tellable ∧ w = m.text) :
    ∃ s', s.onReceive world socketParam (.bytes data) = .next s' ∧ s'.reader = .holding carried ∧
      Answers socketParam s s' (handled.filterMap requestOf) := by
  have hfull : (s.reader.write data).full data.length = decide (data.length = s.reader.room) :=
    rfl
  obtain ⟨s', heq, hreader, hanswers⟩ := @answers_handleAll world socketParam hsends data.length
    (datas.getLastD []) handled hhandled { s with isAlive := true, reader := s.reader.write data }
  refine ⟨s', ?_, hreader.trans hcarry, hanswers.objects, hanswers.recvBlockMode, hanswers.log,
    hanswers.records⟩
  rw [onReceive, receive]
  simp only [htext, hsplit, hfull, decide_eq_true_eq, htake]
  exact heq

/-- What has been asked for is recorded exactly if it can be. -/
theorem recorded_iff_subscribable {objectName : Str} (hne : objectName ≠ [])
    (h : ∀ object, s.Takes objectName object → s.clients.Records socketParam object) :
    Recorded socketParam s objectName ↔ Subscribable socketParam s objectName := by
  unfold Recorded Subscribable
  unfold Takes at h
  by_cases hslash : objectName.getLast? = some '/'
  · simp only [hslash, ne_eq, not_true_eq_false, false_implies, true_and, true_implies, if_true]
      at h ⊢
    constructor
    · exact fun hrecorded name object hname hnot hdata =>
        Or.inl (hrecorded name object hname hnot hdata)
    · exact fun hsubscribable name object hname hnot hdata =>
        (hsubscribable name object hname hnot hdata).elim id (h object)
  · simp only [hslash, ne_eq, not_false_eq_true, true_implies, false_implies, and_true, if_false]
      at h ⊢
    refine exists_congr fun object => and_congr_right fun hdata => ?_
    constructor
    · exact Or.inr
    · rintro (hentity | hrecords)
      · exact h object (getData_eq_some.2 ⟨hne, hentity, hdata⟩)
      · exact hrecords

end SubscriberServer

end Ick
