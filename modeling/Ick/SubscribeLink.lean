import Ick.Subscribing
import Mathlib.Data.List.Chain

/-!
# Subscriptions over a connection

A client and a server of subscriptions, and the connection between them. The program of the client
asks for channels; its handler sends requests for those that are due, and heartbeats, and receives
answers and updates; the handler of the server records what it can for each request, and answers it;
and the server sends updates in between.

Requests and answers are in one line : a request that the connection has taken is answered at the
client, or its answer is under way, or the request is (`inLine_of_guard`). So a channel that the
client holds to be subscribed is recorded at the server exactly if it can be, and when nothing is
under way the client holds all channels to be subscribed that it has asked for (`agreed_of_guard`).
The client asks for a channel again only after more than five seconds, and not after it was answered
(`apart_of_guard`).

A call of `recv` with what the handler does about it is one step. The connection stays, and nothing
else is sent by the client's program. A segment may cut no message unless it fills the buffer, and
the server must still carry over what is cut then.
-/

namespace Ick

/-- The client and the bytes that are under way to it, the server and the bytes under way to that,
and, for the statements only, the channels asked for, with the time of the pass, and the channels
in the requests that the connection has taken. -/
structure SubscribeLink where
  stream : SubscriberStream
  server : Option SubscriberServer
  requests : Str
  asked : List (ℤ × Str)
  sent : List Str

/-- The client's program asks for a channel; the server sends an update; the client or the server
receives something. -/
inductive SubscribeEvent
  | subscribe (channelName : Str)
  | publish (text : Str)
  | client (e : RecvEvent)
  | server (e : RecvEvent)

/-- The state after which a handler goes on. -/
def Flow.next? {σ : Type*} : Flow σ → Option σ
  | next s => some s
  | _ => none

/-- The texts that the server sends. -/
def textsOf (log : List ServiceEvent) : List Str := log.filterMap ServiceEvent.sent

/-- The channels that are answered for in bytes. -/
def answersIn (bytes : Str) : List Str := answersOf ((bytes.splitOn ';').filterMap fieldsOf)

/-- The client holds the channel to be subscribed. -/
def SubscriberClient.Marked (s : SubscriberClient) (channelName : Str) : Prop :=
  ∃ info, s.subscribeChannels[channelName]? = some info ∧ info.isRegistSuccess = true

namespace SubscribeLink

/-- The client has gone on, and what it has sent is under way. -/
def goes (world : ClientWorld) (c : SubscribeLink) (stream : SubscriberStream) : SubscribeLink :=
  match c.stream.client, stream.client with
  | some s, some s' =>
    let es := s'.log.drop s.log.length
    let bytes := (world.taken s.log es).flatten
    { c with
      stream := stream
      requests := c.requests ++ bytes
      asked := c.asked ++ (requestsOf (sendsOf es).flatten).map (world.time (s'.clock - 1), ·)
      sent := c.sent ++ requestsOf bytes }
  | _, _ => { c with stream := stream }

/-- One event. -/
def step (world : ClientWorld) (serverWorld : SubscriberWorld) (socketParam : ℕ)
    (c : SubscribeLink) : SubscribeEvent → Option SubscribeLink
  | .subscribe channelName =>
    let client := c.stream.client.map fun s =>
      { s with subscribeChannels := s.subscribeChannels.subscribe channelName }
    some { c with stream := ⟨client, c.stream.rest⟩ }
  | .publish text => some { c with stream := ⟨c.stream.client, c.stream.rest ++ (text ++ [';'])⟩ }
  | .client (.bytes data) => (c.stream.step world data).map (c.goes world)
  | .client .timedOut =>
    c.stream.client.map fun s =>
      c.goes world ⟨(s.onReceive world .timedOut).next?, c.stream.rest⟩
  | .client _ => none
  | .server (.bytes data) =>
    c.server.bind fun s =>
      if data ≠ [] ∧ data.length ≤ s.reader.room ∧ data <+: c.requests then
        let server := (s.onReceive serverWorld socketParam (.bytes data)).next?
        let texts := (server.map fun s' => textsOf (s'.log.drop s.log.length)).getD []
        some { c with
          stream := ⟨c.stream.client, c.stream.rest ++ texts.flatten⟩
          server := server
          requests := c.requests.drop data.length }
      else none
  | .server .timedOut =>
    c.server.map fun s =>
      { c with server := (s.onReceive serverWorld socketParam .timedOut).next? }
  | .server _ => none

/-- The condition on an event. -/
def Guard (world : ClientWorld) (c : SubscribeLink) : SubscribeEvent → Prop
  | .subscribe channelName => (AskMessage.request channelName).Tellable
  | .publish text => IsServerMessage text ∧ answerOf (text.splitOn ':') = none
  | .client (.bytes data) => SubscriberStream.Cut c.stream data
  | .client _ => ∀ s, c.stream.client = some s →
      s.reader.strTmp = [] ∧ world.sends s.log heartBeatFrame = true
  | .server (.bytes data) => ∀ s, c.server = some s →
      if data.length = s.reader.room then
        ¬[';'] <:+ s.reader.strTmp ++ data ∧
          ServiceStream.CarrySurvives s.reader.strTmp (s.reader.strTmp ++ data)
      else Delimited.Meet ';' (s.reader.strTmp ++ data) (c.requests.drop data.length)
  | .server _ => ∀ s, c.server = some s → s.reader.strTmp = []

/-- A client that has asked for nothing, and a server, with nothing under way. -/
def Starts (c : SubscribeLink) : Prop :=
  ∃ s server, c = ⟨⟨some s, []⟩, some server, [], [], []⟩ ∧ s.Allocated ∧
    s.subscribeChannels = ∅ ∧ s.dataSendList = [] ∧ s.recvBlockMode = false ∧ s.reader = .new ∧
    s.log = [] ∧ server.recvBlockMode = false ∧ server.reader = .new

/-- The channels that the client was answered for. -/
def answered (c : SubscribeLink) : List Str :=
  match c.stream.client with
  | some s => answersOf s.messages
  | none => []

/-- The channels in the answers that are under way, or carried over. -/
def answersUnderWay (c : SubscribeLink) : List Str :=
  match c.stream.client with
  | some s => answersIn (s.reader.strTmp ++ c.stream.rest)
  | none => []

/-- The channels in the requests that are under way, or carried over. -/
def requestsUnderWay (c : SubscribeLink) : List Str :=
  match c.server with
  | some s => requestsOf (s.reader.strTmp ++ c.requests)
  | none => []

/-- The times at which the channel was asked for. -/
def times (c : SubscribeLink) (channelName : Str) : List ℤ :=
  (c.asked.filter (·.2 = channelName)).map Prod.fst

open SubscriberClient SubscriberServer

variable {world : ClientWorld} {serverWorld : SubscriberWorld} {socketParam : ℕ}
  {c c' : SubscribeLink} {s s' s₁ : SubscriberClient} {server : SubscriberServer}
  {carried carried' : Str} {told : List Str} {ms : List AskMessage}

/-! ## One handler -/

/-- The channel that is answered for in a text. -/
def answerIn (text : Str) : Option Str := answerOf (text.splitOn ':')

theorem answersOf_filterMap_fieldsOf {texts : List Str} (h : ∀ m ∈ texts, IsServerMessage m) :
    answersOf (texts.filterMap fieldsOf) = texts.filterMap answerIn := by
  rw [answersOf, List.filterMap_filterMap]
  refine List.filterMap_congr fun m hm => ?_
  rw [fieldsOf_message (h m hm)]
  rfl

/-- What a pass sends, behind heartbeats. -/
theorem exists_sends {es : List ClientEvent} (h : Heard s s₁ es) (h' : Passed world s₁ s') :
    s'.log.drop s.log.length = es ++
        (batches 0 [] (s₁.subscribeChannels.requests (world.time s₁.clock))).map .send ∧
      s'.messages = s.messages ++ messagesOf es := by
  constructor
  · rw [h'.log, h.log, List.append_assoc, List.drop_left]
  · rw [SubscriberClient.messages, h'.log, h.log, messagesOf_append, messagesOf_append,
      messagesOf_map fun _ => rfl, List.append_nil]
    rfl

/-- What the connection takes of it. -/
theorem exists_taken {es : List ClientEvent} (h : Heard s s₁ es) (t : ℤ) (log : List ClientEvent) :
    ∃ new : List AskMessage, (world.taken log (es ++
        (batches 0 [] (s₁.subscribeChannels.requests t)).map .send)).flatten =
          (new.map AskMessage.text).flatMap (· ++ [';']) ∧
      ∀ m ∈ new, m = .heartBeat ∨ ∃ it ∈ s₁.subscribeChannels.due t, m = .request it.1 := by
  refine AskMessage.exists_flatten fun text htext => ?_
  have hsends := (taken_sublist world _ log).subset htext
  rw [sendsOf_append, sendsOf_map_send, List.mem_append] at hsends
  rcases hsends with hbeat | hbatch
  · rw [h.beats text hbeat]
    exact ⟨[.heartBeat], rfl, List.forall_mem_singleton.2 (Or.inl rfl)⟩
  · obtain ⟨new, htext, hnew⟩ := SubscribeChannels.exists_batches t _ hbatch
    exact ⟨new, htext, fun m hm => Or.inr (hnew m hm)⟩

/-- The channels that are asked for, taken or not. -/
theorem requestsOf_sends {es : List ClientEvent} (h : Heard s s₁ es) {t : ℤ}
    (hdue : ∀ it ∈ s₁.subscribeChannels.due t, (AskMessage.request it.1).Tellable) :
    requestsOf (sendsOf (es ++
      (batches 0 [] (s₁.subscribeChannels.requests t)).map .send)).flatten =
        (s₁.subscribeChannels.due t).map Prod.fst := by
  obtain ⟨beats, hbeats, hall⟩ := @AskMessage.exists_flatten (· = .heartBeat) (sendsOf es)
    fun text htext => ⟨[.heartBeat], h.beats text htext, List.forall_mem_singleton.2 rfl⟩
  have hnone : beats.filterMap AskMessage.channelName? = [] :=
    List.filterMap_eq_nil_iff.2 fun m hm => by rw [hall m hm]; rfl
  have htellable : ∀ m ∈ beats ++ (s₁.subscribeChannels.due t).map (AskMessage.request ·.1),
      m.Tellable := by
    refine List.forall_mem_append.2 ⟨fun m hm => ?_, List.forall_mem_map.2 hdue⟩
    rw [hall m hm]
    trivial
  rw [sendsOf_append, sendsOf_map_send, List.flatten_append, hbeats,
    SubscribeChannels.flatten_batches, ← List.flatMap_append, ← List.map_append,
    AskMessage.requestsOf_flatMap htellable, List.filterMap_append, hnone, List.nil_append,
    List.filterMap_map, ← List.filterMap_eq_map]
  rfl

/-- A channel after answers and a pass. -/
theorem getElem?_of_passed {es : List ClientEvent} (h : Heard s s₁ es) (h' : Passed world s₁ s')
    (name : Str) : s'.subscribeChannels[name]? = s.subscribeChannels[name]?.map fun info =>
      { info with
        registTime :=
          if name ∉ answersOf (messagesOf es) ∧
            SubscribeChannels.isDue (world.time s₁.clock) info = true then world.time s₁.clock
          else info.registTime
        isRegistSuccess := decide (name ∈ answersOf (messagesOf es)) || info.isRegistSuccess } := by
  rw [h'.channels, SubscribeChannels.getElem?_requested_eq, h.channels,
    SubscribeChannels.getElem?_successes, Option.map_map]
  congr 1
  funext info
  by_cases hmem : name ∈ answersOf (messagesOf es)
  · simp [hmem, SubscribeChannels.isDue]
  · by_cases hdue : SubscribeChannels.isDue (world.time s₁.clock) info = true <;> simp [hmem, hdue]

/-- The channels that are due after answers. -/
theorem mem_map_due {es : List ClientEvent} (h : Heard s s₁ es) {t : ℤ} {name : Str} :
    name ∈ (s₁.subscribeChannels.due t).map Prod.fst ↔
      ∃ info, s.subscribeChannels[name]? = some info ∧ name ∉ answersOf (messagesOf es) ∧
        SubscribeChannels.isDue t info = true := by
  have hmem : name ∈ (s₁.subscribeChannels.due t).map Prod.fst ↔
      ∃ info, s₁.subscribeChannels[name]? = some info ∧
        SubscribeChannels.isDue t info = true := by
    rw [SubscribeChannels.due, List.mem_map]
    simp only [List.mem_filter]
    constructor
    · rintro ⟨it, ⟨hit, hdue⟩, rfl⟩
      exact ⟨it.2, Std.TreeMap.mem_toList_iff_getElem?_eq_some.1 hit, hdue⟩
    · rintro ⟨info, hget, hdue⟩
      exact ⟨(name, info), ⟨Std.TreeMap.mem_toList_iff_getElem?_eq_some.2 hget, hdue⟩, rfl⟩
  rw [hmem, h.channels, SubscribeChannels.getElem?_successes]
  by_cases hanswered : name ∈ answersOf (messagesOf es)
  · simp [hanswered, SubscribeChannels.isDue]
  · simp [hanswered]

/-! ## The invariant -/

/-- The invariant : the client has handled the first of the texts sent to it, the server has
answered the first of the messages sent to it, with these texts, and records what it found; and the
client has marked the channels that it was answered for. -/
structure Joined (socketParam : ℕ) (c : SubscribeLink) (s : SubscriberClient)
    (server : SubscriberServer) (carried carried' : Str) (told : List Str) (ms : List AskMessage) :
    Prop where
  framed : SubscriberStream.Framed told c.stream s carried
  messages : ∀ m ∈ told, IsServerMessage m
  dataSendList : s.dataSendList = []
  mode : s.recvBlockMode = false
  serves : c.server = some server
  serverMode : server.recvBlockMode = false
  reader : server.reader = .holding carried'
  noSemicolon : ';' ∉ carried'
  remaining : Delimited.Remaining ';' requestOf (ms.map AskMessage.text) (told.filterMap answerIn)
    (carried' ++ c.requests)
  tellable : ∀ m ∈ ms, m.Tellable
  sent : c.sent = ms.filterMap AskMessage.channelName?
  names : ∀ name info, s.subscribeChannels[name]? = some info → (AskMessage.request name).Tellable
  known : ∀ name ∈ c.sent, ∃ info, s.subscribeChannels[name]? = some info
  marked : ∀ name info, s.subscribeChannels[name]? = some info →
    (info.isRegistSuccess = true ↔ name ∈ answersOf s.messages)
  recorded : ∀ name ∈ told.filterMap answerIn, ∀ object, server.Takes name object →
    server.clients.Records socketParam object

/-- The texts that are sent to the client are handled, or under way. -/
theorem Joined.told_eq (h : Joined socketParam c s server carried carried' told ms) :
    told.filterMap answerIn = answersOf s.messages ++ answersIn (carried ++ c.stream.rest) := by
  rw [← answersOf_filterMap_fieldsOf h.messages, ← h.framed.remaining.results, answersOf_append]
  rfl

theorem Joined.filterMap_text (h : Joined socketParam c s server carried carried' told ms) :
    (ms.map AskMessage.text).filterMap requestOf = c.sent := by
  rw [h.sent, List.filterMap_map]
  exact List.filterMap_congr fun m hm => AskMessage.requestOf_text (h.tellable m hm)

/-- The requests are answered, or under way. -/
theorem Joined.sent_eq (h : Joined socketParam c s server carried carried' told ms) :
    c.sent = told.filterMap answerIn ++ requestsOf (carried' ++ c.requests) := by
  rw [← h.filterMap_text]
  exact h.remaining.results.symm

/-- When nothing is under way, all are answered. -/
theorem Joined.sent_eq_of_nil (h : Joined socketParam c s server carried carried' told ms)
    (hrest : c.stream.rest = []) (hrequests : c.requests = []) :
    c.sent = answersOf s.messages := by
  have hclient := h.framed.remaining.done_eq fieldsOf_nil
    (by rw [hrest, List.append_nil]; exact h.framed.noSemicolon)
  have hserver := h.remaining.done_eq requestOf_nil
    (by rw [hrequests, List.append_nil]; exact h.noSemicolon)
  rw [hclient, answersOf_filterMap_fieldsOf h.messages, hserver, h.filterMap_text]

theorem joined_of_starts (h : Starts c) :
    ∃ s server, Joined socketParam c s server [] [] [] [] := by
  obtain ⟨s, server, rfl, hs, hchannels, hdata, hmode, hreader, hlog, hserverMode, hserver⟩ := h
  have hmessages : s.messages = [] := by rw [SubscriberClient.messages, hlog]; rfl
  have hnone : ∀ (name : Str) info, s.subscribeChannels[name]? ≠ some info := by
    intro name info
    rw [hchannels, Std.TreeMap.getElem?_emptyc]
    exact Option.some_ne_none info ∘ Eq.symm
  refine ⟨s, server, ⟨rfl, hs, hreader, List.not_mem_nil, ?_⟩, ?_, hdata, hmode, rfl, hserverMode,
    hserver, List.not_mem_nil, ?_, ?_, rfl, ?_, ?_, ?_, ?_⟩
  · rw [hmessages]
    exact Delimited.remaining_start fieldsOf_nil fun m hm => absurd hm List.not_mem_nil
  · exact fun m hm => absurd hm List.not_mem_nil
  · exact Delimited.remaining_start requestOf_nil fun m hm => absurd hm List.not_mem_nil
  · exact fun m hm => absurd hm List.not_mem_nil
  · exact fun name info hget => absurd hget (hnone name info)
  · exact fun name hname => absurd hname List.not_mem_nil
  · exact fun name info hget => absurd hget (hnone name info)
  · exact fun name hname => absurd hname List.not_mem_nil

/-! ## The client's steps -/

/-- What is asked for between two states : nothing, and what is kept of the channels stays; or,
after answers, the channels that are due. -/
def Moves (world : ClientWorld) (c c' : SubscribeLink) (s s' : SubscriberClient) : Prop :=
  (c'.asked = c.asked ∧ ∀ (name : Str) info, s.subscribeChannels[name]? = some info →
    s'.subscribeChannels[name]? = some info) ∨
  ∃ s₁ es, Heard s s₁ es ∧ Passed world s₁ s' ∧
    c'.asked = c.asked ++ (s₁.subscribeChannels.due (world.time s₁.clock)).map
      fun it => (world.time s₁.clock, it.1)

/-- What has changed when the client has gone on. -/
theorem Joined.goes_eq (h : Joined socketParam c s server carried carried' told ms)
    {es : List ClientEvent} (hheard : Heard s s₁ es) (hpassed : Passed world s₁ s')
    {stream : SubscriberStream} (hclient : stream.client = some s') :
    ∃ new : List AskMessage, c.goes world stream =
        { stream := stream
          server := c.server
          requests := c.requests ++ (new.map AskMessage.text).flatMap (· ++ [';'])
          asked := c.asked ++ (s₁.subscribeChannels.due (world.time s₁.clock)).map
            fun it => (world.time s₁.clock, it.1)
          sent := c.sent ++ new.filterMap AskMessage.channelName? } ∧
      (∀ m ∈ new, m.Tellable) ∧ ∀ name ∈ new.filterMap AskMessage.channelName?,
        ∃ info, s.subscribeChannels[name]? = some info := by
  obtain ⟨hlog, -⟩ := exists_sends hheard hpassed
  obtain ⟨new, htaken, hnew⟩ := @exists_taken world _ _ _ hheard (world.time s₁.clock) s.log
  have hdue : ∀ it ∈ s₁.subscribeChannels.due (world.time s₁.clock),
      (AskMessage.request it.1).Tellable := by
    intro it hit
    obtain ⟨info, hget, -⟩ := (mem_map_due hheard).1 (List.mem_map_of_mem hit)
    exact h.names it.1 info hget
  have htellable : ∀ m ∈ new, m.Tellable := by
    intro m hm
    rcases hnew m hm with rfl | ⟨it, hit, rfl⟩
    · trivial
    · exact hdue it hit
  have hasked := requestsOf_sends hheard hdue
  have hclock : s'.clock - 1 = s₁.clock := by rw [hpassed.clock, Nat.add_sub_cancel]
  refine ⟨new, ?_, htellable, fun name hname => ?_⟩
  · simp only [goes, h.framed.client, hclient, hlog, htaken, hasked, hclock,
      AskMessage.requestsOf_flatMap htellable, List.map_map]
    rfl
  · obtain ⟨m, hm, hsome⟩ := List.mem_filterMap.1 hname
    rcases hnew m hm with rfl | ⟨it, hit, rfl⟩
    · cases hsome
    · obtain ⟨info, hget, -⟩ := (mem_map_due hheard).1 (List.mem_map_of_mem hit)
      rw [← Option.some.inj hsome]
      exact ⟨info, hget⟩

/-- The client has gone on. -/
theorem Joined.goes (h : Joined socketParam c s server carried carried' told ms)
    {es : List ClientEvent} (hheard : Heard s s₁ es) (hpassed : Passed world s₁ s')
    {stream : SubscriberStream} {carried'' : Str}
    (hframed : SubscriberStream.Framed told stream s' carried'') :
    ∃ ms', Joined socketParam (c.goes world stream) s' server carried'' carried' told ms' ∧
      Moves world c (c.goes world stream) s s' := by
  obtain ⟨new, heq, htellable, hknown⟩ := h.goes_eq hheard hpassed hframed.client
  obtain ⟨-, hmessages⟩ := exists_sends hheard hpassed
  have hget := getElem?_of_passed hheard hpassed
  have hsome : ∀ name : Str, (∃ info, s'.subscribeChannels[name]? = some info) ↔
      ∃ info, s.subscribeChannels[name]? = some info := by
    intro name
    rw [hget name]
    simp
  rw [heq]
  refine ⟨ms ++ new, ?_, Or.inr ⟨s₁, es, hheard, hpassed, rfl⟩⟩
  refine ⟨hframed, h.messages, hpassed.dataSendList, ?_, h.serves, h.serverMode,
    h.reader, h.noSemicolon, ?_, ?_, ?_, ?_, ?_, ?_, h.recorded⟩
  · exact hpassed.recvBlockMode.trans (hheard.recvBlockMode.trans h.mode)
  · rw [List.map_append, ← List.append_assoc]
    refine h.remaining.send requestOf_nil fun text htext => ?_
    obtain ⟨m, hm, rfl⟩ := List.mem_map.1 htext
    exact (htellable m hm).isMessage.noSemicolon
  · exact List.forall_mem_append.2 ⟨h.tellable, htellable⟩
  · rw [h.sent, List.filterMap_append]
  · intro name info hinfo
    obtain ⟨info', hinfo'⟩ := (hsome name).1 ⟨info, hinfo⟩
    exact h.names name info' hinfo'
  · intro name hname
    rw [hsome]
    exact (List.mem_append.1 hname).elim (h.known name) (hknown name)
  · intro name info hinfo
    rw [hget name] at hinfo
    obtain ⟨info', hinfo', rfl⟩ := Option.map_eq_some_iff.1 hinfo
    have hmarked := h.marked name info' hinfo'
    rw [hmessages, answersOf_append, List.mem_append, ← hmarked]
    rw [Bool.or_eq_true, decide_eq_true_eq, or_comm]

/-- The client's program asks for a channel. -/
theorem Joined.subscribe (h : Joined socketParam c s server carried carried' told ms)
    {channelName : Str} (hguard : (AskMessage.request channelName).Tellable) :
    Joined socketParam { c with stream := ⟨some { s with
      subscribeChannels := s.subscribeChannels.subscribe channelName }, c.stream.rest⟩ }
      { s with subscribeChannels := s.subscribeChannels.subscribe channelName } server carried
      carried' told ms := by
  obtain ⟨-, hs, hreader, hnoSemicolon, hremaining⟩ := h.framed
  refine ⟨⟨rfl, hs, hreader, hnoSemicolon, hremaining⟩, h.messages, h.dataSendList, h.mode,
    h.serves, h.serverMode, h.reader, h.noSemicolon, h.remaining, h.tellable, h.sent, ?_, ?_, ?_,
    h.recorded⟩
  · intro name info hget
    rw [SubscribeChannels.getElem?_subscribe] at hget
    split_ifs at hget with hnew
    · rw [hnew.1]
      exact hguard
    · exact h.names name info hget
  · intro name hname
    rw [SubscribeChannels.getElem?_subscribe]
    split_ifs
    · exact ⟨_, rfl⟩
    · exact h.known name hname
  · intro name info hget
    rw [SubscribeChannels.getElem?_subscribe] at hget
    split_ifs at hget with hnew
    · -- it was not answered for, as it was not asked for
      rw [← Option.some.inj hget]
      refine iff_of_false Bool.false_ne_true fun hanswered => ?_
      have hsent : name ∈ c.sent := by
        rw [h.sent_eq, h.told_eq]
        exact List.mem_append_left _ (List.mem_append_left _ hanswered)
      obtain ⟨info', hinfo'⟩ := h.known name hsent
      rw [hnew.1, Std.TreeMap.getElem?_eq_none hnew.2] at hinfo'
      cases hinfo'
    · exact h.marked name info hget

/-- The server sends an update. -/
theorem Joined.publish (h : Joined socketParam c s server carried carried' told ms) {text : Str}
    (htext : IsServerMessage text) (hanswer : answerOf (text.splitOn ':') = none) :
    Joined socketParam { c with
      stream := ⟨c.stream.client, c.stream.rest ++ (text ++ [';'])⟩ } s server carried carried'
      (told ++ [text]) ms := by
  have hanswers : (told ++ [text]).filterMap answerIn = told.filterMap answerIn := by
    have hnone : answerIn text = none := hanswer
    rw [List.filterMap_append, List.filterMap_cons_none hnone, List.filterMap_nil, List.append_nil]
  obtain ⟨hclient, hs, hreader, hnoSemicolon, hremaining⟩ := h.framed
  refine ⟨⟨hclient, hs, hreader, hnoSemicolon, ?_⟩, ?_, h.dataSendList, h.mode, h.serves,
    h.serverMode, h.reader, h.noSemicolon, ?_, h.tellable, h.sent, h.names, h.known, h.marked, ?_⟩
  · have hsend := @Delimited.Remaining.send _ _ _ _ fieldsOf told s.messages _ hremaining
      fieldsOf_nil [text] (List.forall_mem_singleton.2 htext.noSemicolon)
    rw [List.flatMap_singleton, List.append_assoc] at hsend
    exact hsend
  · exact List.forall_mem_append.2 ⟨h.messages, List.forall_mem_singleton.2 htext⟩
  · rw [hanswers]
    exact h.remaining
  · rw [hanswers]
    exact h.recorded

/-- The client receives a segment. -/
theorem Joined.receive (h : Joined socketParam c s server carried carried' told ms) {data : Str}
    (hcut : SubscriberStream.Cut c.stream data) {stream : SubscriberStream}
    (hstep : c.stream.step world data = some stream) :
    ∃ s' carried'' ms', Joined socketParam (c.goes world stream) s' server carried'' carried' told
      ms' ∧ Moves world c (c.goes world stream) s s' := by
  obtain ⟨s', carried'', hframed⟩ := h.framed.step h.messages hcut hstep
  have honReceive : s.onReceive world (.bytes data) = .next s' := by
    simp only [SubscriberStream.step, h.framed.client] at hstep
    split_ifs at hstep
    obtain rfl := Option.some.inj hstep
    have hclient := hframed.client
    generalize s.onReceive world (.bytes data) = flow at hclient
    cases flow with
    | next s₂ => rw [Option.some.inj hclient]
    | _ => cases hclient
  obtain ⟨s₁, es, hheard, hpassed⟩ := talks_onReceive h.dataSendList honReceive
  obtain ⟨ms', hjoined⟩ := h.goes hheard hpassed hframed
  exact ⟨s', carried'', ms', hjoined⟩

/-- Nothing comes in time. -/
theorem Joined.timedOut (h : Joined socketParam c s server carried carried' told ms)
    (hstrTmp : s.reader.strTmp = []) (hbeat : world.sends s.log heartBeatFrame = true) :
    ∃ c' s' ms', c' = c.goes world ⟨(s.onReceive world .timedOut).next?, c.stream.rest⟩ ∧
      Joined socketParam c' s' server [] carried' told ms' ∧ Moves world c c' s s' := by
  obtain ⟨s', heq, hobjects, hchannels, hreader, hmessages⟩ :=
    onReceive_timedOut h.mode h.dataSendList hbeat
  obtain ⟨s₁, es, hheard, hpassed⟩ := talks_onReceive h.dataSendList heq
  have hnil : carried = [] := by
    rw [h.framed.reader] at hstrTmp
    exact hstrTmp
  have hframed : SubscriberStream.Framed told ⟨some s', c.stream.rest⟩ s' [] := by
    refine ⟨rfl, ?_, hreader, List.not_mem_nil, ?_⟩
    · unfold Allocated
      rw [hobjects, hchannels]
      exact h.framed.allocated
    · rw [hmessages]
      exact hnil ▸ h.framed.remaining
  obtain ⟨ms', hjoined⟩ := h.goes hheard hpassed hframed
  rw [heq]
  exact ⟨_, s', ms', rfl, hjoined⟩

/-! ## The server's steps -/

theorem answerIn_success {channelName : Str} (h : (LinkMessage.success channelName).Tellable) :
    answerIn (LinkMessage.success channelName).text = some channelName := by
  have hfields : (LinkMessage.success channelName).text.splitOn ':' = _ :=
    LinkMessage.fields_success h
  rw [answerIn, hfields, answerOf, if_pos ⟨rfl, rfl⟩]

/-- The answer to a piece that is a message is understood. -/
theorem tellable_of_requestOf {w name : Str}
    (hw : w = [] ∨ w = [';'] ∨ ∃ m : AskMessage, m.Tellable ∧ w = m.text)
    (h : requestOf w = some name) : (LinkMessage.success name).Tellable := by
  rcases hw with rfl | rfl | ⟨m, hm, rfl⟩
  · cases h
  · rw [requestOf_semicolon] at h
    cases h
  · rw [AskMessage.requestOf_text hm] at h
    cases m with
    | heartBeat => cases h
    | request channelName =>
      rw [← Option.some.inj h]
      exact hm

/-- The texts that are sent for answers. -/
theorem textsOf_answers (names : List Str) :
    (textsOf (names.map fun name => .send (successText name))).flatten =
      (names.map fun name => (LinkMessage.success name).text).flatMap (· ++ [';']) := by
  have htexts : textsOf (names.map fun name => .send (successText name)) =
      names.map successText := by
    rw [textsOf, List.filterMap_map, ← List.filterMap_eq_map]
    rfl
  rw [htexts, List.flatMap_map, ← List.flatMap_def]
  rfl

/-- The server has answered. -/
theorem Joined.answers (h : Joined socketParam c s server carried carried' told ms)
    {server' : SubscriberServer} {names : List Str} {carried'' rest : Str}
    (hanswers : Answers socketParam server server' names)
    (hreader : server'.reader = .holding carried'') (hnoSemicolon : ';' ∉ carried'')
    (hnames : ∀ name ∈ names, (LinkMessage.success name).Tellable)
    (hremaining : Delimited.Remaining ';' requestOf (ms.map AskMessage.text)
      (told.filterMap answerIn ++ names) (carried'' ++ rest)) :
    Joined socketParam { c with
      stream := ⟨c.stream.client,
        c.stream.rest ++ (textsOf (server'.log.drop server.log.length)).flatten⟩
      server := some server'
      requests := rest } s server' carried carried''
      (told ++ names.map fun name => (LinkMessage.success name).text) ms := by
  have hlog : server'.log.drop server.log.length =
      names.map fun name => .send (successText name) := by
    rw [hanswers.log, List.drop_left]
  have hnew : (names.map fun name => (LinkMessage.success name).text).filterMap answerIn =
      names := by
    rw [List.filterMap_map]
    refine (List.filterMap_congr fun name hname => ?_).trans List.filterMap_some
    exact answerIn_success (hnames name hname)
  have hmessages : ∀ m ∈ names.map (fun name => (LinkMessage.success name).text),
      IsServerMessage m :=
    List.forall_mem_map.2 fun name hname => (hnames name hname).isServerMessage
  obtain ⟨hclient, hs, hclientReader, hclientSemicolon, hclientRemaining⟩ := h.framed
  refine ⟨⟨hclient, hs, hclientReader, hclientSemicolon, ?_⟩, ?_, h.dataSendList, h.mode, rfl,
    hanswers.recvBlockMode.trans h.serverMode, hreader, hnoSemicolon, ?_, h.tellable, h.sent,
    h.names, h.known, h.marked, ?_⟩
  · rw [hlog, textsOf_answers, ← List.append_assoc]
    exact hclientRemaining.send fieldsOf_nil fun m hm => (hmessages m hm).noSemicolon
  · exact List.forall_mem_append.2 ⟨h.messages, hmessages⟩
  · rw [List.filterMap_append, hnew]
    exact hremaining
  · rw [List.filterMap_append, hnew, takes_congr hanswers.objects]
    intro name hname object htakes
    rw [hanswers.records]
    rcases List.mem_append.1 hname with hname | hname
    · exact Or.inl (h.recorded name hname object htakes)
    · exact Or.inr ⟨name, hname, htakes⟩

/-- The server receives a segment. -/
theorem Joined.serve (hsends : ∀ log data, serverWorld.sends log data = true)
    (h : Joined socketParam c s server carried carried' told ms) {data rest : Str}
    (hrest : c.requests = data ++ rest) (hdata : data ≠ [])
    (hroom : data.length ≤ server.reader.room)
    (hcut : if data.length = server.reader.room then
        ¬[';'] <:+ carried' ++ data ∧ ServiceStream.CarrySurvives carried' (carried' ++ data)
      else Delimited.Meet ';' (carried' ++ data) rest) :
    ∃ server' carried'' told', server.onReceive serverWorld socketParam (.bytes data) =
        .next server' ∧
      Joined socketParam { c with
        stream := ⟨c.stream.client,
          c.stream.rest ++ (textsOf (server'.log.drop server.log.length)).flatten⟩
        server := some server'
        requests := rest } s server' carried carried'' told' ms := by
  have hisMessage : ∀ m ∈ ms.map AskMessage.text, ServiceStream.IsMessage m :=
    List.forall_mem_map.2 fun m hm => (h.tellable m hm).isMessage
  have hremaining := h.remaining
  rw [hrest, ← List.append_assoc] at hremaining
  have htext := Reader.text_write_of_remaining hisMessage h.reader hremaining
  obtain ⟨datas, handled, carried'', hsplit, htake, hcarry, hnoSemicolon, hhandled, hremaining'⟩ :=
    Reader.exists_pieces requestOf_nil requestOf_semicolon hisMessage h.reader hremaining hdata
      hroom hcut
  have hpieces : ∀ w ∈ handled, w = [] ∨ w = [';'] ∨ ∃ m : AskMessage, m.Tellable ∧ w = m.text := by
    intro w hw
    refine (hhandled w hw).imp_right (Or.imp_right fun hmem => ?_)
    obtain ⟨m, hm, rfl⟩ := List.mem_map.1 hmem
    exact ⟨m, h.tellable m hm, rfl⟩
  obtain ⟨server', heq, hreader, hanswers⟩ := @answers_onReceive serverWorld socketParam server
    hsends data _ datas handled carried'' htext hsplit htake hcarry hpieces
  have hnames : ∀ name ∈ handled.filterMap requestOf, (LinkMessage.success name).Tellable := by
    intro name hname
    obtain ⟨w, hw, hsome⟩ := List.mem_filterMap.1 hname
    exact tellable_of_requestOf (hpieces w hw) hsome
  exact ⟨server', carried'', _, heq, h.answers hanswers hreader hnoSemicolon hnames hremaining'⟩

/-- Nothing comes in time. -/
theorem Joined.serverTimedOut (h : Joined socketParam c s server carried carried' told ms)
    (hstrTmp : server.reader.strTmp = []) :
    ∃ server', server.onReceive serverWorld socketParam .timedOut = .next server' ∧
      Joined socketParam { c with server := some server' } s server' carried [] told ms := by
  have hnil : carried' = [] := by
    rw [h.reader] at hstrTmp
    exact hstrTmp
  refine ⟨{ server with isAlive := server.isAlive, reader := .new }, ?_, ?_⟩
  · rw [SubscriberServer.onReceive, Ick.receive, h.serverMode]
    rfl
  · exact ⟨h.framed, h.messages, h.dataSendList, h.mode, rfl, h.serverMode, rfl, List.not_mem_nil,
      hnil ▸ h.remaining, h.tellable, h.sent, h.names, h.known, h.marked, h.recorded⟩

/-! ## Runs -/

/-- What one event preserves. -/
theorem joined_step (hsends : ∀ log data, serverWorld.sends log data = true)
    (h : Joined socketParam c s server carried carried' told ms) {e : SubscribeEvent}
    (hguard : Guard world c e) (hstep : c.step world serverWorld socketParam e = some c') :
    ∃ s' server' carried carried' told' ms',
      Joined socketParam c' s' server' carried carried' told' ms' ∧ Moves world c c' s s' := by
  cases e with
  | subscribe channelName =>
    have hjoined := h.subscribe hguard
    simp only [step, h.framed.client, Option.map_some, Option.some.injEq] at hstep
    refine hstep ▸ ⟨_, server, carried, carried', told, ms, hjoined, Or.inl ⟨rfl, ?_⟩⟩
    intro name info hget
    have hold : ¬(name = channelName ∧ channelName ∉ s.subscribeChannels) := by
      rintro ⟨rfl, hnew⟩
      rw [Std.TreeMap.getElem?_eq_none hnew] at hget
      cases hget
    rw [SubscribeChannels.getElem?_subscribe, if_neg hold, hget]
  | publish text =>
    obtain rfl := Option.some.inj hstep
    exact ⟨s, server, carried, carried', _, ms, h.publish hguard.1 hguard.2,
      Or.inl ⟨rfl, fun _ _ => id⟩⟩
  | client e =>
    cases e with
    | bytes data =>
      obtain ⟨stream, hstream, rfl⟩ := Option.map_eq_some_iff.1 hstep
      obtain ⟨s', carried'', ms', hjoined⟩ := h.receive hguard hstream
      exact ⟨s', server, carried'', carried', told, ms', hjoined⟩
    | timedOut =>
      obtain ⟨hstrTmp, hbeat⟩ := hguard s h.framed.client
      obtain ⟨_, s', ms', rfl, hjoined⟩ := h.timedOut hstrTmp hbeat
      simp only [step, h.framed.client, Option.map_some, Option.some.injEq] at hstep
      exact hstep ▸ ⟨s', server, [], carried', told, ms', hjoined⟩
    | _ => cases hstep
  | server e =>
    cases e with
    | bytes data =>
      have hcut := hguard server h.serves
      simp only [step, h.serves, Option.bind_some] at hstep
      split_ifs at hstep with hseg
      obtain ⟨hdata, hroom, rest, hrest⟩ := hseg
      have hdrop : c.requests.drop data.length = rest := by rw [← hrest, List.drop_left]
      have hstrTmp : server.reader.strTmp = carried' := by
        rw [h.reader]
        rfl
      rw [hdrop, hstrTmp] at hcut
      obtain ⟨server', carried'', told', heq, hjoined⟩ :=
        h.serve hsends hrest.symm hdata hroom hcut
      rw [heq, hdrop] at hstep
      exact Option.some.inj hstep ▸ ⟨s, server', carried, carried'', told', ms, hjoined,
        Or.inl ⟨rfl, fun _ _ => id⟩⟩
    | timedOut =>
      obtain ⟨server', heq, hjoined⟩ :=
        @Joined.serverTimedOut serverWorld _ _ _ _ _ _ _ _ h (hguard server h.serves)
      simp only [step, h.serves, Option.map_some, heq, Option.some.injEq] at hstep
      exact hstep ▸ ⟨s, server', carried, [], told, ms, hjoined, Or.inl ⟨rfl, fun _ _ => id⟩⟩
    | _ => cases hstep

/-- The invariant holds in every state reached, and with it what holds at first and each event
keeps. -/
theorem exists_joined_and {P : SubscribeLink → SubscriberClient → Prop}
    {init : SubscribeLink → Prop} (hsends : ∀ log data, serverWorld.sends log data = true)
    (hinit : ∀ c, init c → ∃ s server carried carried' told ms,
      Joined socketParam c s server carried carried' told ms ∧ P c s)
    (hmoves : ∀ c c' s s', P c s → Moves world c c' s s' → P c' s')
    (h : Reach (step world serverWorld socketParam) init (Guard world) c) :
    ∃ s server carried carried' told ms,
      Joined socketParam c s server carried carried' told ms ∧ P c s := by
  refine h.invariant (I := fun c => ∃ s server carried carried' told ms,
    Joined socketParam c s server carried carried' told ms ∧ P c s) hinit ?_
  rintro c e c' ⟨s, server, carried, carried', told, ms, hjoined, hP⟩ hguard hstep
  obtain ⟨s', server', carried, carried', told', ms', hjoined', hmoves'⟩ :=
    joined_step hsends hjoined hguard hstep
  exact ⟨s', server', carried, carried', told', ms', hjoined', hmoves c c' s s' hP hmoves'⟩

theorem exists_joined (hsends : ∀ log data, serverWorld.sends log data = true)
    (h : Reach (step world serverWorld socketParam) Starts (Guard world) c) :
    ∃ s server carried carried' told ms,
      Joined socketParam c s server carried carried' told ms := by
  obtain ⟨s, server, carried, carried', told, ms, hjoined, -⟩ :=
    exists_joined_and (P := fun _ _ => True) hsends (fun c hc => by
      obtain ⟨s, server, hjoined⟩ := joined_of_starts hc
      exact ⟨s, server, [], [], [], [], hjoined, trivial⟩) (fun _ _ _ _ _ _ => trivial) h
  exact ⟨s, server, carried, carried', told, ms, hjoined⟩

/-- A client in whose world a reading of the clock takes six seconds. -/
def world_six : ClientWorld := { ClientWorld.quiet with time := fun n => 6 * n }

/-- A client that has asked for the channel `/a`, and a server that has it. -/
def link_a : SubscribeLink := ⟨⟨some .new, []⟩, some server_a, [], [], []⟩

theorem starts_a : Starts link_a :=
  ⟨_, _, rfl, SubscriberStream.allocated_new, rfl, rfl, rfl, rfl, rfl, rfl, rfl⟩

theorem reach_asked : Reach (step world_six .quiet 0) Starts (Guard world_six)
    { link_a with stream := ⟨some { SubscriberClient.new with
      subscribeChannels := SubscribeChannels.subscribe ∅ "/a".toList }, []⟩ } :=
  (Reach.start starts_a).next (e := SubscribeEvent.subscribe "/a".toList)
    ⟨by simp, by simp, by simp⟩ rfl

/-- The request is answered, and the answer is received. -/
theorem reach_answered : ∃ c c', Reach (step world_six .quiet 0) Starts (Guard world_six) c ∧
    Reach (step world_six .quiet 0) Starts (Guard world_six) c' ∧ c.sent = ["/a".toList] ∧
    c.stream.rest = "Subscribe:Success:/a;".toList ∧ c'.sent = ["/a".toList] ∧
    c'.requests = [] ∧ c'.stream.rest = [] := by
  have h₁ := reach_asked.next (e := SubscribeEvent.client .timedOut)
    (by rintro _ ⟨⟩; exact ⟨rfl, rfl⟩) rfl
  have h₂ := h₁.next (e := SubscribeEvent.server (.bytes "Subscribe:/a;".toList))
    (by rintro _ ⟨⟩; exact Or.inl ⟨"Subscribe:/a".toList, rfl⟩) rfl
  have h₃ := h₂.next (e := SubscribeEvent.client (.bytes "Subscribe:Success:/a;".toList)) (by
    rintro _ ⟨⟩
    exact ⟨Or.inl ⟨"Subscribe:Success:/a".toList, rfl⟩, (by decide : "/a".toList ≠ []), trivial⟩)
    rfl
  exact ⟨_, _, h₂, h₃, by decide, by decide, by decide, by decide, by decide⟩

/-- The channel is asked for twice, with two readings of the clock in between. -/
theorem reach_asked_twice : ∃ c, Reach (step world_six .quiet 0) Starts (Guard world_six) c ∧
    c.times "/a".toList = [6, 18] := by
  have h₁ := reach_asked.next (e := SubscribeEvent.client .timedOut)
    (by rintro _ ⟨⟩; exact ⟨rfl, rfl⟩) rfl
  have h₂ := h₁.next (e := SubscribeEvent.client .timedOut)
    (by rintro _ ⟨⟩; exact ⟨rfl, rfl⟩) rfl
  exact ⟨_, h₂, by decide⟩

/-- One line. Where the answers are accepted, the channels in the requests that the connection
has taken are, in order, those that the client was answered for, those whose answers are under way,
and those whose requests are. -/
theorem inLine_of_guard (world : ClientWorld) (serverWorld : SubscriberWorld) (socketParam : ℕ)
    (hsends : ∀ log data, serverWorld.sends log data = true) (c : SubscribeLink)
    (h : Reach (step world serverWorld socketParam) Starts (Guard world) c) :
    c.sent = c.answered ++ c.answersUnderWay ++ c.requestsUnderWay := by
  obtain ⟨s, server, carried, carried', told, ms, hjoined⟩ := exists_joined hsends h
  have hcarried : s.reader.strTmp = carried := by rw [hjoined.framed.reader]; rfl
  have hcarried' : server.reader.strTmp = carried' := by rw [hjoined.reader]; rfl
  simp only [answered, answersUnderWay, requestsUnderWay, hjoined.framed.client, hjoined.serves,
    hcarried, hcarried']
  rw [hjoined.sent_eq, hjoined.told_eq]

theorem inLine_of_guard_a : ∃ c : SubscribeLink, c.sent = ["/a".toList] ∧
    c.sent = c.answered ++ c.answersUnderWay ++ c.requestsUnderWay := by
  obtain ⟨c, -, hreach, -, hsent, -⟩ := reach_answered
  exact ⟨c, hsent, inLine_of_guard world_six .quiet 0 (fun _ _ => rfl) c hreach⟩

/-- Agreement. What the client holds to be subscribed is recorded at the server exactly if it can
be. When nothing is under way, the client holds everything to be subscribed that it has asked
for. -/
theorem agreed_of_guard (world : ClientWorld) (serverWorld : SubscriberWorld) (socketParam : ℕ)
    (hsends : ∀ log data, serverWorld.sends log data = true) (c : SubscribeLink)
    (h : Reach (step world serverWorld socketParam) Starts (Guard world) c) :
    ∃ s server, c.stream.client = some s ∧ c.server = some server ∧
      (∀ name, s.Marked name →
        (server.Recorded socketParam name ↔ server.Subscribable socketParam name)) ∧
      (c.stream.rest = [] → c.requests = [] → ∀ name ∈ c.sent, s.Marked name) := by
  obtain ⟨s, server, carried, carried', told, ms, hjoined⟩ := exists_joined hsends h
  refine ⟨s, server, hjoined.framed.client, hjoined.serves, ?_, ?_⟩
  · rintro name ⟨info, hget, hsuccess⟩
    have hanswered := (hjoined.marked name info hget).1 hsuccess
    refine recorded_iff_subscribable (hjoined.names name info hget).1 ?_
    refine hjoined.recorded name ?_
    rw [hjoined.told_eq]
    exact List.mem_append_left _ hanswered
  · intro hrest hrequests name hname
    obtain ⟨info, hget⟩ := hjoined.known name hname
    rw [hjoined.sent_eq_of_nil hrest hrequests] at hname
    exact ⟨info, hget, (hjoined.marked name info hget).2 hname⟩

theorem agreed_of_guard_a : ∃ (s : SubscriberClient) (server : SubscriberServer),
    s.Marked "/a".toList ∧
      (server.Recorded 0 "/a".toList ↔ server.Subscribable 0 "/a".toList) := by
  obtain ⟨-, c, -, hreach, -, -, hsent, hrequests, hrest⟩ := reach_answered
  obtain ⟨s, server, -, -, hagreed, hall⟩ :=
    agreed_of_guard world_six .quiet 0 (fun _ _ => rfl) c hreach
  have hmarked : s.Marked "/a".toList := by
    refine hall hrest hrequests _ ?_
    rw [hsent]
    exact List.mem_singleton_self _
  exact ⟨s, server, hmarked, hagreed _ hmarked⟩

/-! ## The times of the requests -/

/-- The times of one channel, when each is asked for once at a time. -/
theorem times_of_nodup (t : ℤ) (name : Str) {its : List (Str × ChannelSubscribeInfo)}
    (h : (its.map Prod.fst).Nodup) :
    ((its.map fun it => (t, it.1)).filter (·.2 = name)).map Prod.fst =
      if name ∈ its.map Prod.fst then [t] else [] := by
  induction its with
  | nil => rfl
  | cons it its ih =>
    rw [List.map_cons, List.nodup_cons] at h
    have hrest := ih h.2
    rw [List.map_cons, List.map_cons, List.filter_cons]
    by_cases heq : it.1 = name
    · subst heq
      rw [if_neg h.1, List.map_eq_nil_iff] at hrest
      simp [hrest]
    · simp only [heq, decide_false, Bool.false_eq_true, if_false, hrest, List.mem_cons,
        Ne.symm heq, false_or]

/-- A pass asks for a channel once if it is due. -/
theorem times_append (t : ℤ) (channels : SubscribeChannels) (name : Str)
    (hasked : c'.asked = c.asked ++ (channels.due t).map fun it => (t, it.1)) :
    c'.times name = c.times name ++
      if name ∈ (channels.due t).map Prod.fst then [t] else [] := by
  have hnodup : ((channels.due t).map Prod.fst).Nodup :=
    (nodup_names channels).sublist (List.filter_sublist.map _)
  rw [times, hasked, List.filter_append, List.map_append, times_of_nodup t name hnodup]
  rfl

/-- The channel was asked for last at the time that is kept of it, and more than five seconds after
it was asked for before. -/
structure Paced (c : SubscribeLink) (s : SubscriberClient) (name : Str) : Prop where
  apart : (c.times name).IsChain (· + 5 < ·)
  last : ∀ t, (c.times name).getLast? = some t →
    ∃ info, s.subscribeChannels[name]? = some info ∧ info.registTime = t

theorem Paced.step {name : Str} (h : Paced c s name) (hmoves : Moves world c c' s s') :
    Paced c' s' name := by
  rcases hmoves with ⟨hasked, hkept⟩ | ⟨s₁, es, hheard, hpassed, hasked⟩
  · have htimes : c'.times name = c.times name := by rw [times, hasked]; rfl
    refine ⟨htimes ▸ h.apart, fun t ht => ?_⟩
    obtain ⟨info, hget, htime⟩ := h.last t (htimes ▸ ht)
    exact ⟨info, hkept name info hget, htime⟩
  · have htimes := times_append _ _ name hasked
    have hget := getElem?_of_passed hheard hpassed name
    by_cases hdue : name ∈ (s₁.subscribeChannels.due (world.time s₁.clock)).map Prod.fst
    · obtain ⟨info, hinfo, hboth⟩ := (mem_map_due hheard).1 hdue
      have hlate : world.time s₁.clock - info.registTime > 5 := by
        have hisDue := hboth.2
        rw [SubscribeChannels.isDue, Bool.and_eq_true, decide_eq_true_eq] at hisDue
        exact hisDue.2
      rw [if_pos hdue] at htimes
      rw [hinfo, Option.map_some] at hget
      simp only [if_pos hboth] at hget
      refine ⟨?_, fun t ht => ⟨_, hget, ?_⟩⟩
      · rw [htimes]
        refine h.apart.append (.singleton _) fun t ht t' ht' => ?_
        obtain ⟨info', hinfo', htime⟩ := h.last t ht
        rw [hinfo, Option.some.injEq] at hinfo'
        obtain rfl := Option.some.inj ht'
        rw [← htime, ← hinfo']
        omega
      · rw [htimes, List.getLast?_append, List.getLast?_singleton, Option.some_or,
          Option.some.injEq] at ht
        exact ht
    · rw [if_neg hdue, List.append_nil] at htimes
      refine ⟨htimes ▸ h.apart, fun t ht => ?_⟩
      obtain ⟨info, hinfo, htime⟩ := h.last t (htimes ▸ ht)
      have hnot : ¬(name ∉ answersOf (messagesOf es) ∧
          SubscribeChannels.isDue (world.time s₁.clock) info = true) := fun hboth =>
        hdue ((mem_map_due hheard).2 ⟨info, hinfo, hboth⟩)
      rw [hinfo, Option.map_some] at hget
      simp only [if_neg hnot] at hget
      exact ⟨_, hget, htime⟩

/-- A channel that is held to be subscribed stays so, and is not asked for. -/
theorem marked_of_moves {name : Str} (h : s.Marked name) (hmoves : Moves world c c' s s') :
    s'.Marked name ∧ c'.times name = c.times name := by
  obtain ⟨info, hinfo, hsuccess⟩ := h
  rcases hmoves with ⟨hasked, hkept⟩ | ⟨s₁, es, hheard, hpassed, hasked⟩
  · exact ⟨⟨info, hkept name info hinfo, hsuccess⟩, by rw [times, hasked]; rfl⟩
  · have hdue : name ∉ (s₁.subscribeChannels.due (world.time s₁.clock)).map Prod.fst := by
      rw [mem_map_due hheard]
      rintro ⟨info', hinfo', -, hisDue⟩
      rw [hinfo, Option.some.injEq] at hinfo'
      simp [SubscribeChannels.isDue, ← hinfo', hsuccess] at hisDue
    refine ⟨?_, by rw [times_append _ _ name hasked, if_neg hdue, List.append_nil]⟩
    have hget := getElem?_of_passed hheard hpassed name
    rw [hinfo, Option.map_some] at hget
    exact ⟨_, hget, by simp [hsuccess]⟩

theorem paced_of_starts (h : Starts c) (name : Str) : Paced c s name := by
  have htimes : c.times name = [] := by
    obtain ⟨_, _, rfl, -⟩ := h
    rfl
  refine ⟨htimes ▸ .nil, fun t ht => ?_⟩
  rw [htimes] at ht
  cases ht

/-- The times. A channel is asked for again only after more than five seconds, and when the client
holds it to be subscribed, not any more. -/
theorem apart_of_guard (world : ClientWorld) (serverWorld : SubscriberWorld) (socketParam : ℕ)
    (hsends : ∀ log data, serverWorld.sends log data = true) (c : SubscribeLink)
    (h : Reach (step world serverWorld socketParam) Starts (Guard world) c) (name : Str) :
    (c.times name).IsChain (· + 5 < ·) ∧
      ∀ s, c.stream.client = some s → s.Marked name →
        ∀ c', Reach (step world serverWorld socketParam) (· = c) (Guard world) c' →
          c'.times name = c.times name := by
  constructor
  · obtain ⟨_, _, _, _, _, _, -, hpaced⟩ :=
      exists_joined_and (P := fun c s => Paced c s name) hsends (fun c hc => by
        obtain ⟨s, server, hjoined⟩ := joined_of_starts hc
        exact ⟨s, server, [], [], [], [], hjoined, paced_of_starts hc name⟩)
        (fun _ _ _ _ => Paced.step) h
    exact hpaced.apart
  · intro s hs hmarked c' h'
    have hstart : ∀ c₀, c₀ = c → ∃ s server carried carried' told ms,
        Joined socketParam c₀ s server carried carried' told ms ∧ s.Marked name ∧
          c₀.times name = c.times name := by
      rintro _ rfl
      obtain ⟨s', server, carried, carried', told, ms, hjoined⟩ := exists_joined hsends h
      obtain rfl := Option.some.inj (hs.symm.trans hjoined.framed.client)
      exact ⟨s, server, carried, carried', told, ms, hjoined, hmarked, rfl⟩
    obtain ⟨_, _, _, _, _, _, -, -, htimes⟩ :=
      exists_joined_and (P := fun c' s => s.Marked name ∧ c'.times name = c.times name) hsends
        hstart (fun _ _ _ _ ⟨hmarked, htimes⟩ hmoves =>
          (marked_of_moves hmarked hmoves).imp_right (·.trans htimes)) h'
    exact htimes

theorem apart_of_guard_a : ∃ c : SubscribeLink, c.times "/a".toList = [6, 18] ∧
    (c.times "/a".toList).IsChain (· + 5 < ·) := by
  obtain ⟨c, hreach, htimes⟩ := reach_asked_twice
  exact ⟨c, htimes, (apart_of_guard world_six .quiet 0 (fun _ _ => rfl) c hreach _).1⟩

end SubscribeLink

end Ick
