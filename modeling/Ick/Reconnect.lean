import Ick.Reach
import Ick.SubscriberClient
import Ick.SubscriberServer

/-!
# Subscriptions and lost connections

A client and a server, the connection between them, and the messages under way on it. The
client subscribes to channels, and asks for those that are not subscribed whenever it passes
`subscribeChannelHandler`; the server answers; the connection is lost, and the server forgets
the socket and what it has recorded for it; and the client connects again, with a new socket
on the server.

A client that has once been told of success keeps its flag over a lost connection and does
not ask again. `kept_of_safe` says when the flags are right : in every run in which the
client connects only while no flag of a registered channel is up, and in which each request
that is answered can be recorded.
-/

namespace Ick

/-- The messages in texts that are sent one after the other. -/
def messagesIn (texts : List Str) : List Str :=
  (texts.flatten.splitOn ';').filter (· ≠ [])

/-- The text that the client sends. -/
def ClientEvent.sent : ClientEvent → Option Str
  | .send data => some data
  | _ => none

/-- The text that the server sends. -/
def ServiceEvent.sent : ServiceEvent → Option Str
  | .send data => some data
  | _ => none

/-- A client and a server. `connection` is the server's socket for the client, while there is
one, and the lists are the messages under way. -/
structure Link where
  client : SubscriberClient
  server : SubscriberServer
  connection : Option ℕ
  toServer : List Str
  toClient : List Str

/-- What happens. -/
inductive LinkEvent
  | subscribe (channelName : Str)
  | request
  | deliverToServer
  | deliverToClient
  | lose
  | reconnect (socketParam : ℕ)

namespace Link

variable {cworld : ClientWorld} {sworld : SubscriberWorld} {l l' : Link}

/-- The pass of `subscribeChannelHandler`. Where a send fails the connection is lost, which is
an event of its own. -/
def request (cworld : ClientWorld) (l : Link) : Option Link :=
  match l.connection, l.client.subscribeChannelHandler cworld with
  | some _, (client, true) =>
    some { l with
      client := client
      toServer := l.toServer ++
        messagesIn ((client.log.drop l.client.log.length).filterMap ClientEvent.sent) }
  | _, _ => none

/-- The server handles the next message. -/
def deliverToServer (sworld : SubscriberWorld) (l : Link) : Option Link :=
  match l.connection, l.toServer with
  | some socketParam, data :: rest =>
    match l.server.handle sworld socketParam data with
    | .next server | .brk server =>
      some { l with
        server := server
        toServer := rest
        toClient := l.toClient ++
          messagesIn ((server.log.drop l.server.log.length).filterMap ServiceEvent.sent) }
    | _ => none
  | _, _ => none

/-- The client handles the next message. -/
def deliverToClient (cworld : ClientWorld) (l : Link) : Option Link :=
  match l.connection, l.toClient with
  | some _, data :: rest =>
    match l.client.handle cworld data with
    | .next client | .brk client => some { l with client := client, toClient := rest }
    | _ => none
  | _, _ => none

/-- One event. -/
def step (cworld : ClientWorld) (sworld : SubscriberWorld) (l : Link) :
    LinkEvent → Option Link
  | .subscribe channelName =>
    some { l with client := { l.client with
      subscribeChannels := l.client.subscribeChannels.subscribe channelName } }
  | .request => l.request cworld
  | .deliverToServer => l.deliverToServer sworld
  | .deliverToClient => l.deliverToClient cworld
  | .lose =>
    match l.connection with
    | some socketParam =>
      some { l with
        server := { l.server with clients := l.server.clients.removeClientSocket socketParam }
        connection := none
        toServer := []
        toClient := [] }
    | none => none
  | .reconnect socketParam =>
    if l.connection = none ∧ socketParam ∉ l.server.clients then
      some { l with
        client := { l.client with reader := .new }
        server := { l.server with
          clients := l.server.clients.insertClientSocket socketParam
          reader := .new }
        connection := some socketParam }
    else none

/-- A client that has not subscribed to anything and has nothing to send, and is not
connected to the server yet. -/
def Starts (l : Link) : Prop :=
  l.client.subscribeChannels = ∅ ∧ l.client.dataSendList = [] ∧ l.connection = none ∧
    l.toServer = [] ∧ l.toClient = []

/-- The server records the channel object for the client's connection. -/
def Recorded (l : Link) (object : ℕ) : Prop :=
  ∀ socketParam, l.connection = some socketParam → l.server.clients.Records socketParam object

/-- The channels that the client holds as subscribed, if they are registered, are recorded
for its connection. -/
def Kept (l : Link) : Prop :=
  ∀ (channelName : Str) object (info : ChannelSubscribeInfo),
    l.server.objects.datas[channelName]? = some object →
    l.client.subscribeChannels[channelName]? = some info → info.isRegistSuccess = true →
    l.Recorded object

/-- The channel that the client takes for subscribed when it is sent this message. -/
def Confirms (message channelName : Str) : Prop :=
  ∃ rest, Converter.split message ':' =
    some ("Subscribe".toList :: "Success".toList :: channelName :: rest)

/-- If the answer to the request confirms a registered channel, this one is recorded already,
or it is the one asked for, does not end with a slash, and is not behind a control object. -/
def Answerable (l : Link) (data : Str) : Prop :=
  ∀ objectName rest, Converter.split data ':' = some ("Subscribe".toList :: objectName :: rest) →
    ∀ message ∈ messagesIn [SubscriberServer.successText objectName], ∀ channelName,
    Confirms message channelName → ∀ object, l.server.objects.datas[channelName]? = some object →
      l.Recorded object ∨ (channelName = objectName ∧ objectName.getLast? ≠ some '/' ∧
        objectName ∉ l.server.objects.entites)

/-- The condition on an event : the names subscribed can be sent in a message, the requests
delivered are answerable, and the client connects only while it holds no registered channel
as subscribed. -/
def Safe (l : Link) : LinkEvent → Prop
  | .subscribe channelName => ';' ∉ channelName ∧ '\x00' ∉ channelName
  | .deliverToServer => ∀ data rest, l.toServer = data :: rest → l.Answerable data
  | .reconnect _ => ∀ (channelName : Str) (info : ChannelSubscribeInfo),
      channelName ∈ l.server.objects.datas →
      l.client.subscribeChannels[channelName]? = some info → info.isRegistSuccess = false
  | _ => True

end Link

/-! ## What is sent -/

theorem batches_flatten (texts : List Str) : ∀ (i : ℕ) (str : Str),
    (batches i str texts).flatten = str ++ texts.flatten := by
  induction texts with
  | nil =>
    intro i str
    rw [batches]
    split_ifs with hstr <;> simp [hstr]
  | cons text texts ih =>
    intro i str
    rw [batches]
    split_ifs
    · rw [List.flatten_cons, ih, List.flatten_cons, List.nil_append, List.append_assoc]
    · rw [ih, List.flatten_cons, List.append_assoc]

/-- The messages in a text that ends each of them with a semicolon. -/
theorem mem_messagesIn {texts messages : List Str}
    (h : texts.flatten = messages.flatMap (· ++ [';'])) (hsep : ∀ m ∈ messages, ';' ∉ m)
    {m : Str} (hm : m ∈ messagesIn texts) : m ∈ messages := by
  rw [messagesIn, h, Delimited.splitOn_flatMap hsep, List.mem_filter, List.mem_append] at hm
  obtain ⟨hm | hm, hne⟩ := hm
  · exact hm
  · simp [List.mem_singleton.1 hm] at hne

namespace SubscribeChannels

variable {channels : SubscribeChannels}

/-- A pass asks for channels of the table. -/
theorem exists_of_requests (t : ℤ) (h : ∀ c ∈ channels, ';' ∉ c) :
    ∃ names : List Str, (∀ c ∈ names, ';' ∉ c) ∧ (channels.requests t).flatten =
      (names.map ("Subscribe:".toList ++ ·)).flatMap (· ++ [';']) := by
  refine ⟨(channels.toList.filter fun entry => isDue t entry.2).map Prod.fst, ?_, ?_⟩
  · intro c hc
    obtain ⟨⟨c', info⟩, hentry, rfl⟩ := List.mem_map.1 hc
    have hmem := Std.TreeMap.mem_toList_iff_getElem?_eq_some.1 (List.mem_filter.1 hentry).1
    exact h _ (Std.TreeMap.mem_iff_isSome_getElem?.2 (by simp [hmem]))
  · rw [requests, List.flatMap_def, List.map_map, List.map_map]
    rfl

theorem getElem?_subscribe (c c' : Str) : (channels.subscribe c)[c']? =
    if c' = c ∧ c ∉ channels then some ⟨c, 0, false⟩ else channels[c']? := by
  simp only [subscribe, Std.TreeMap.getElem?_insertIfNew, Std.compare_eq_iff_eq, @eq_comm _ c]

/-- Asking for channels leaves the flags alone. -/
theorem getElem?_requested (t : ℤ) {c : Str} {info : ChannelSubscribeInfo}
    (h : (channels.requested t)[c]? = some info) :
    ∃ info', channels[c]? = some info' ∧ info'.isRegistSuccess = info.isRegistSuccess := by
  rw [requested, Std.TreeMap.getElem?_map] at h
  obtain ⟨info', hinfo', rfl⟩ := Option.map_eq_some_iff.1 h
  refine ⟨info', hinfo', ?_⟩
  split_ifs <;> rfl

/-- A confirmation raises one flag. -/
theorem getElem?_success (c : Str) {c' : Str} {info : ChannelSubscribeInfo}
    (h : (channels.success c)[c']? = some info) : c' = c ∨ channels[c']? = some info := by
  unfold success at h
  cases hget : channels[c]? with
  | none =>
    rw [hget] at h
    exact Or.inr h
  | some old =>
    simp only [hget, Std.TreeMap.getElem?_insert, Std.compare_eq_iff_eq] at h
    by_cases hc : c = c'
    · exact Or.inl hc.symm
    · rw [if_neg hc] at h
      exact Or.inr h

theorem mem_success (c c' : Str) : c' ∈ channels.success c ↔ c' ∈ channels := by
  unfold success
  cases hget : channels[c]? with
  | none => rfl
  | some old =>
    have hmem : c ∈ channels := Std.TreeMap.mem_iff_isSome_getElem?.2 (by simp [hget])
    simp only [Std.TreeMap.mem_insert, Std.compare_eq_iff_eq]
    exact ⟨fun h => h.elim (fun heq => heq ▸ hmem) id, Or.inr⟩

end SubscribeChannels

namespace SubscriberClient

variable {world : ClientWorld} {s : SubscriberClient}

/-- A pass of a client that has nothing else to send. -/
theorem subscribeChannelHandler_eq (h : s.dataSendList = []) :
    subscribeChannelHandler world s =
      ({ s with
        clock := s.clock + 1
        subscribeChannels := s.subscribeChannels.requested (world.time s.clock)
        dataSendList := [] }.logged
          ((batches 0 [] (s.subscribeChannels.requests (world.time s.clock))).map .send),
        true) := by
  simp only [subscribeChannelHandler, h, batches, if_true, sendAll]
  rfl

/-- An update leaves the channels asked for alone. -/
theorem handleUpdate_subscribeChannels (channelName : Str) (valueInfo : IckStormValueInfo) :
    (handleUpdate world s channelName valueInfo).All fun s' =>
      s'.dataSendList = s.dataSendList ∧ s'.subscribeChannels = s.subscribeChannels := by
  unfold handleUpdate
  split
  · cases world.create valueInfo with
    | none => exact ⟨rfl, rfl⟩
    | some channel =>
      simp only
      split
      · exact ⟨rfl, rfl⟩
      · exact ⟨rfl, rfl⟩
      · trivial
  · cases s.getData channelName with
    | none =>
      simp only
      split_ifs
      · exact ⟨rfl, rfl⟩
      · trivial
    | some object =>
      simp only
      split
      · trivial
      · exact ⟨rfl, rfl⟩

/-- A message leaves the channels asked for alone, or confirms one of them. -/
theorem handle_subscribeChannels (data : Str) : (handle world s data).All fun s' =>
    s'.dataSendList = s.dataSendList ∧ (s'.subscribeChannels = s.subscribeChannels ∨
      ∃ channelName, Link.Confirms data channelName ∧
        s'.subscribeChannels = s.subscribeChannels.success channelName) := by
  unfold handle
  cases htmp : Converter.split data ':' with
  | none => trivial
  | some tmp =>
    simp only
    cases readUpdate world.clib tmp with
    | throws => exact ⟨rfl, Or.inl rfl⟩
    | update channelName valueInfo =>
      have hupdate := @handleUpdate_subscribeChannels world s channelName valueInfo
      simp only
      cases hflow : handleUpdate world s channelName valueInfo with
      | crash => trivial
      | _ s' =>
        rw [hflow] at hupdate
        exact ⟨hupdate.1, Or.inl hupdate.2⟩
    | other =>
      simp only
      unfold handleOther
      split
      · next command nodeName third rest =>
        split
        · next hconfirm =>
          obtain ⟨rfl, rfl⟩ := hconfirm
          exact ⟨rfl, Or.inr ⟨third, ⟨rest, htmp⟩, rfl⟩⟩
        · split
          · split
            · split
              · trivial
              · exact ⟨rfl, Or.inl rfl⟩
            · exact ⟨rfl, Or.inl rfl⟩
          · exact ⟨rfl, Or.inl rfl⟩
      · exact ⟨rfl, Or.inl rfl⟩

end SubscriberClient

namespace SubscriberServer

variable {world : SubscriberWorld} {s : SubscriberServer}

/-- The handler goes on after a request if it has done nothing, or if it has recorded what it
could, and has answered. -/
theorem handle_request (world : SubscriberWorld) (socketParam : ℕ) (s : SubscriberServer)
    (channelName : Str) {data : Str} (hdata : data = "Subscribe:".toList ++ channelName) :
    handle world socketParam s data = .crash ∨ (∃ s', handle world socketParam s data = .ret s') ∨
      handle world socketParam s data = .next s ∨
      ∃ objectName rest, Converter.split data ':' =
          some ("Subscribe".toList :: objectName :: rest) ∧ objectName ≠ [] ∧
        handle world socketParam s data =
          .next ((subscribeAll world socketParam (s.dataList objectName) s).logged
            [.send (successText objectName)]) := by
  cases hsplit : Converter.split data ':' with
  | none =>
    rw [handle, hsplit]
    exact Or.inl rfl
  | some tmp =>
    obtain ⟨rest, rfl⟩ : ∃ rest, tmp = "Subscribe".toList :: rest := by
      rw [hdata] at hsplit
      exact @Converter.split_head ':' "Subscribe".toList channelName _ (by decide) (by decide)
        (by simp) hsplit
    cases rest with
    | nil =>
      rw [handle, hsplit]
      exact Or.inr (Or.inr (Or.inl rfl))
    | cons objectName rest =>
      rw [handle_subscribe hsplit]
      by_cases hnil : objectName = []
      · rw [if_pos hnil]
        exact Or.inl rfl
      · rw [if_neg hnil]
        by_cases hsends : world.sends s.log (successText objectName) = true
        · simp only [hsends, if_true]
          exact Or.inr (Or.inr (Or.inr ⟨objectName, rest, rfl, hnil, rfl⟩))
        · simp only [hsends, Bool.false_eq_true, if_false]
          exact Or.inr (Or.inl ⟨_, rfl⟩)

end SubscriberServer

/-! ## The invariant -/

namespace Link

variable {cworld : ClientWorld} {sworld : SubscriberWorld} {l l' : Link}

/-- The invariant : only requests are under way to the server, and what the messages under way
to the client confirm is recorded. -/
structure Sound (l : Link) : Prop where
  names : ∀ c ∈ l.client.subscribeChannels, ';' ∉ c
  nothingElse : l.client.dataSendList = []
  requests : ∀ m ∈ l.toServer, ∃ c, m = "Subscribe:".toList ++ c
  idle : l.connection = none → l.toClient = []
  promised : ∀ m ∈ l.toClient, ∀ c, Confirms m c → ∀ object,
    l.server.objects.datas[c]? = some object → l.Recorded object
  kept : l.Kept

theorem sound_of_starts (h : Starts l) : Sound l := by
  obtain ⟨hchannels, hnothing, hconnection, hserver, hclient⟩ := h
  refine ⟨?_, hnothing, ?_, fun _ => hclient, ?_, ?_⟩
  · rw [hchannels]
    exact fun c hc => absurd hc Std.TreeMap.not_mem_emptyc
  · rw [hserver]
    exact fun m hm => absurd hm List.not_mem_nil
  · rw [hclient]
    exact fun m hm => absurd hm List.not_mem_nil
  · intro c object info hdata hinfo
    rw [hchannels] at hinfo
    simp at hinfo

theorem Sound.subscribe (h : Sound l) {channelName : Str} (hname : ';' ∉ channelName) :
    Sound { l with client := { l.client with
      subscribeChannels := l.client.subscribeChannels.subscribe channelName } } := by
  refine ⟨fun c hc => ?_, h.nothingElse, h.requests, h.idle, h.promised, ?_⟩
  · rcases Std.TreeMap.mem_insertIfNew.1 hc with heq | hc
    · exact Std.compare_eq_iff_eq.1 heq ▸ hname
    · exact h.names c hc
  · intro c object info hdata hinfo hsuccess
    rw [SubscribeChannels.getElem?_subscribe] at hinfo
    split_ifs at hinfo
    · obtain rfl := Option.some.inj hinfo
      cases hsuccess
    · exact h.kept c object info hdata hinfo hsuccess

theorem Sound.request (h : Sound l) (hstep : l.request cworld = some l') : Sound l' := by
  obtain ⟨client, server, connection, toServer, toClient⟩ := l
  unfold Link.request at hstep
  rw [SubscriberClient.subscribeChannelHandler_eq h.nothingElse] at hstep
  cases connection with
  | none => cases hstep
  | some socketParam =>
    obtain rfl := Option.some.inj hstep
    obtain ⟨names, hsep, hflatten⟩ :=
      SubscribeChannels.exists_of_requests (cworld.time client.clock) h.names
    refine ⟨fun c hc => ?_, rfl, fun m hm => ?_, h.idle, h.promised, ?_⟩
    · exact h.names c (Std.TreeMap.mem_map.1 hc)
    · rcases List.mem_append.1 hm with hm | hm
      · exact h.requests m hm
      · have hsent : ∀ texts : List Str,
            (texts.map ClientEvent.send).filterMap ClientEvent.sent = texts := by
          intro texts
          rw [List.filterMap_map]
          exact List.filterMap_some
        simp only [SubscriberClient.logged, List.drop_left, hsent] at hm
        obtain ⟨c, -, rfl⟩ := List.mem_map.1 (mem_messagesIn ((batches_flatten _ 0 []).trans
          hflatten) (fun m hm => by
            obtain ⟨c, hc, rfl⟩ := List.mem_map.1 hm
            have := hsep c hc
            simp [this]) hm)
        exact ⟨c, rfl⟩
    · intro c object info hdata hinfo hsuccess
      obtain ⟨info', hinfo', heq⟩ := SubscribeChannels.getElem?_requested _ hinfo
      exact h.kept c object info' hdata hinfo' (heq.trans hsuccess)

/-- The client takes a message from those under way, and its flags change at most by what the
message confirms. -/
theorem deliverToClient_cases (hstep : l.deliverToClient cworld = some l') :
    ∃ data rest client, l.toClient = data :: rest ∧ l.connection ≠ none ∧
      l' = { l with client := client, toClient := rest } ∧
      client.dataSendList = l.client.dataSendList ∧
      (client.subscribeChannels = l.client.subscribeChannels ∨ ∃ channelName,
        Confirms data channelName ∧
        client.subscribeChannels = l.client.subscribeChannels.success channelName) := by
  obtain ⟨client, server, connection, toServer, toClient⟩ := l
  unfold Link.deliverToClient at hstep
  cases connection with
  | none => cases hstep
  | some socketParam =>
    cases toClient with
    | nil => cases hstep
    | cons data rest =>
      have hhandle := @SubscriberClient.handle_subscribeChannels cworld client data
      simp only at hstep
      cases hflow : client.handle cworld data with
      | next client' =>
        rw [hflow] at hstep hhandle
        exact ⟨data, rest, client', rfl, Option.some_ne_none _, (Option.some.inj hstep).symm,
          hhandle⟩
      | brk client' =>
        rw [hflow] at hstep hhandle
        exact ⟨data, rest, client', rfl, Option.some_ne_none _, (Option.some.inj hstep).symm,
          hhandle⟩
      | ret client' =>
        rw [hflow] at hstep
        cases hstep
      | crash =>
        rw [hflow] at hstep
        cases hstep

theorem Sound.deliverToClient (h : Sound l) (hstep : l.deliverToClient cworld = some l') :
    Sound l' := by
  obtain ⟨data, rest, client, hmessages, hconnection, rfl, hnothing, hchannels⟩ :=
    deliverToClient_cases hstep
  refine ⟨fun c hc => ?_, hnothing.trans h.nothingElse, h.requests,
    fun hnone => absurd hnone hconnection,
    fun m hm => h.promised m (hmessages ▸ List.mem_cons_of_mem _ hm), ?_⟩
  · rcases hchannels with heq | ⟨channelName, -, heq⟩
    · exact h.names c (heq ▸ hc)
    · refine h.names c ?_
      change c ∈ client.subscribeChannels at hc
      rwa [heq, SubscribeChannels.mem_success] at hc
  · intro c object info hdata hinfo hsuccess
    change client.subscribeChannels[c]? = some info at hinfo
    rcases hchannels with heq | ⟨channelName, hconfirms, heq⟩
    · rw [heq] at hinfo
      exact h.kept c object info hdata hinfo hsuccess
    · rw [heq] at hinfo
      rcases SubscribeChannels.getElem?_success _ hinfo with rfl | hinfo
      · exact h.promised data (hmessages ▸ List.mem_cons_self) c hconfirms object hdata
      · exact h.kept c object info hdata hinfo hsuccess

/-- The server takes a request from those under way, and does nothing, or records what it
could, and answers. -/
theorem deliverToServer_cases (hrequests : ∀ m ∈ l.toServer, ∃ c, m = "Subscribe:".toList ++ c)
    (hstep : l.deliverToServer sworld = some l') :
    ∃ data rest socketParam server texts, l.toServer = data :: rest ∧
      l.connection = some socketParam ∧ server.objects = l.server.objects ∧
      l' = { l with
        server := server, toServer := rest, toClient := l.toClient ++ messagesIn texts } ∧
      ((server.clients = l.server.clients ∧ texts = []) ∨
        ∃ objectName rest', Converter.split data ':' =
            some ("Subscribe".toList :: objectName :: rest') ∧ objectName ≠ [] ∧
          texts = [SubscriberServer.successText objectName] ∧
          server.clients = (SubscriberServer.subscribeAll sworld socketParam
            (l.server.dataList objectName) l.server).clients) := by
  obtain ⟨client, server, connection, toServer, toClient⟩ := l
  unfold Link.deliverToServer at hstep
  cases connection with
  | none => cases hstep
  | some socketParam =>
    cases toServer with
    | nil => cases hstep
    | cons data rest =>
      obtain ⟨c, hdata⟩ := hrequests data List.mem_cons_self
      simp only at hstep
      rcases SubscriberServer.handle_request sworld socketParam server c hdata with
        hflow | ⟨server', hflow⟩ | hflow | ⟨objectName, rest', hsplit, hne, hflow⟩
      · rw [hflow] at hstep
        cases hstep
      · rw [hflow] at hstep
        cases hstep
      · rw [hflow] at hstep
        refine ⟨data, rest, socketParam, server, [], rfl, rfl, rfl, ?_, Or.inl ⟨rfl, rfl⟩⟩
        rw [← Option.some.inj hstep, List.drop_length]
        rfl
      · obtain ⟨hobjects, hlog, -⟩ :=
          @SubscriberServer.subscribeAll_spec sworld socketParam (server.dataList objectName) server
        obtain ⟨server', hserver'⟩ : ∃ server', SubscriberServer.subscribeAll sworld socketParam
            (server.dataList objectName) server = server' := ⟨_, rfl⟩
        rw [hserver'] at hobjects hlog hflow
        rw [hflow] at hstep
        refine ⟨data, rest, socketParam,
          server'.logged [.send (SubscriberServer.successText objectName)], _, rfl, rfl, hobjects,
          ?_, Or.inr ⟨objectName, rest', hsplit, hne, rfl, by rw [hserver']; rfl⟩⟩
        rw [← Option.some.inj hstep, SubscriberServer.logged, hlog, List.drop_left]
        rfl

theorem Sound.deliverToServer (h : Sound l)
    (hanswerable : ∀ data rest, l.toServer = data :: rest → l.Answerable data)
    (hstep : l.deliverToServer sworld = some l') : Sound l' := by
  obtain ⟨data, rest, socketParam, server, texts, hmessages, hconnection, hobjects, rfl, hdone⟩ :=
    deliverToServer_cases h.requests hstep
  -- what was recorded stays recorded
  have hmono : ∀ object, l.Recorded object →
      ({ l with server := server, toServer := rest, toClient := l.toClient ++ messagesIn texts } :
        Link).Recorded object := by
    intro object hrecorded k hk
    have hrecords := hrecorded k hk
    rcases hdone with ⟨hclients, -⟩ | ⟨objectName, rest', -, -, -, hclients⟩
    · rw [hclients]
      exact hrecords
    · obtain rfl : socketParam = k := Option.some.inj (hconnection.symm.trans hk)
      rw [hclients, SubscriberServer.records_addSubscribe]
      exact Or.inl hrecords
  refine ⟨h.names, h.nothingElse,
    fun m hm => h.requests m (hmessages ▸ List.mem_cons_of_mem _ hm),
    fun hnone => absurd (hconnection.symm.trans hnone) (Option.some_ne_none _),
    fun m hm c hconfirms object hdata => ?_, fun c object info hdata hinfo hsuccess => ?_⟩
  · change server.objects.datas[c]? = some object at hdata
    rw [hobjects] at hdata
    rcases List.mem_append.1 hm with hm | hm
    · exact hmono object (h.promised m hm c hconfirms object hdata)
    · rcases hdone with ⟨-, rfl⟩ | ⟨objectName, rest', hsplit, hne, rfl, hclients⟩
      · exact absurd hm List.not_mem_nil
      · rcases hanswerable data rest hmessages objectName rest' hsplit m hm c hconfirms object hdata
          with hrecorded | ⟨rfl, hslash, hentites⟩
        · exact hmono object hrecorded
        · intro k hk
          obtain rfl : socketParam = k := Option.some.inj (hconnection.symm.trans hk)
          rw [hclients, SubscriberServer.records_addSubscribe, if_neg hslash]
          exact Or.inr (SubscriberServer.getData_eq_some.2 ⟨hne, hentites, hdata⟩)
  · change server.objects.datas[c]? = some object at hdata
    rw [hobjects] at hdata
    exact hmono object (h.kept c object info hdata hinfo hsuccess)

theorem Sound.lose (h : Sound l) (socketParam : ℕ) :
    Sound { l with
      server := { l.server with clients := l.server.clients.removeClientSocket socketParam }
      connection := none
      toServer := []
      toClient := [] } :=
  ⟨h.names, h.nothingElse, fun _ hm => absurd hm List.not_mem_nil, fun _ => rfl,
    fun _ hm => absurd hm List.not_mem_nil, fun _ _ _ _ _ _ _ hk => nomatch hk⟩

theorem Sound.reconnect (h : Sound l) (hconnection : l.connection = none) (socketParam : ℕ)
    (hflags : ∀ (channelName : Str) (info : ChannelSubscribeInfo),
      channelName ∈ l.server.objects.datas →
      l.client.subscribeChannels[channelName]? = some info → info.isRegistSuccess = false) :
    Sound { l with
      client := { l.client with reader := .new }
      server := { l.server with
        clients := l.server.clients.insertClientSocket socketParam
        reader := .new }
      connection := some socketParam } := by
  refine ⟨h.names, h.nothingElse, h.requests, fun hnone => (nomatch hnone), fun m hm => ?_,
    fun c object info hdata hinfo hsuccess => ?_⟩
  · have hnil := h.idle hconnection
    exact absurd (hnil ▸ hm) List.not_mem_nil
  · have hmem : c ∈ l.server.objects.datas :=
      Std.TreeMap.mem_iff_isSome_getElem?.2 (by
        change l.server.objects.datas[c]? = some object at hdata
        rw [hdata]
        rfl)
    rw [hflags c info hmem hinfo] at hsuccess
    cases hsuccess

theorem Sound.step (h : Sound l) {e : LinkEvent} (hsafe : l.Safe e)
    (hstep : l.step cworld sworld e = some l') : Sound l' := by
  cases e with
  | subscribe channelName =>
    obtain rfl := Option.some.inj hstep
    exact h.subscribe hsafe.1
  | request => exact h.request hstep
  | deliverToServer => exact h.deliverToServer hsafe hstep
  | deliverToClient => exact h.deliverToClient hstep
  | lose =>
    simp only [Link.step] at hstep
    cases hconnection : l.connection with
    | none => simp [hconnection] at hstep
    | some socketParam =>
      simp only [hconnection, Option.some.injEq] at hstep
      subst hstep
      exact h.lose socketParam
  | reconnect socketParam =>
    simp only [Link.step] at hstep
    split_ifs at hstep with hnone
    obtain rfl := Option.some.inj hstep
    exact h.reconnect hnone.1 socketParam hsafe

/-- Subscriptions and lost connections. In every run whose events meet the condition, each
registered channel that the client holds as subscribed is recorded for its connection, in
every state. -/
theorem kept_of_safe (h : Reach (Link.step cworld sworld) Starts Safe l) : l.Kept :=
  (h.invariant (fun _ hl => sound_of_starts hl)
    fun _ _ _ hl hsafe hstep => hl.step hsafe hstep : Sound l).kept

/-- A new client, and a server with the channel `/a`. -/
def link_a : Link := ⟨.new, .server_a, none, [], []⟩

/-- A clock that shows more than five seconds. -/
def world_late : ClientWorld := { ClientWorld.quiet with time := fun _ => 10 }

theorem flags_subscribe (c c' : Str) (info : ChannelSubscribeInfo)
    (h : (SubscribeChannels.subscribe ∅ c)[c']? = some info) : info.isRegistSuccess = false := by
  rw [SubscribeChannels.getElem?_subscribe] at h
  split_ifs at h
  · rw [← Option.some.inj h]
  · simp at h

theorem answerable_a {l : Link} (h : l.server.objects = SubscriberServer.server_a.objects) :
    l.Answerable "Subscribe:/a".toList := by
  intro objectName rest hsplit message hmessage channelName hconfirms object _
  have hfields : Converter.split "Subscribe:/a".toList ':' =
      some ["Subscribe".toList, "/a".toList] := by decide
  rw [hfields] at hsplit
  obtain ⟨rfl, -⟩ := List.cons.inj (List.cons.inj (Option.some.inj hsplit)).2
  have hmessages : messagesIn [SubscriberServer.successText "/a".toList] =
      ["Subscribe:Success:/a".toList] := by decide
  rw [hmessages, List.mem_singleton] at hmessage
  subst hmessage
  obtain ⟨rest', hrest'⟩ := hconfirms
  have hfields' : Converter.split "Subscribe:Success:/a".toList ':' =
      some ["Subscribe".toList, "Success".toList, "/a".toList] := by decide
  rw [hfields'] at hrest'
  obtain ⟨rfl, -⟩ :=
    List.cons.inj (List.cons.inj (List.cons.inj (Option.some.inj hrest')).2).2
  exact Or.inr ⟨rfl, by decide, by rw [h]; decide⟩

/-- The client subscribes to `/a`, connects, asks, and is told of success. -/
theorem reach_subscribed : ∃ l, Reach (Link.step world_late .quiet) Starts Safe l ∧
    l.connection = some 0 ∧ 1 ∉ l.server.clients ∧
    l.server.objects = SubscriberServer.server_a.objects ∧
    l.client.subscribeChannels["/a".toList]? = some ⟨"/a".toList, 10, true⟩ := by
  have h₀ : Reach (Link.step world_late .quiet) Starts Safe link_a :=
    .start ⟨rfl, rfl, rfl, rfl, rfl⟩
  have h₁ := h₀.next (e := LinkEvent.subscribe "/a".toList) ⟨by decide, by decide⟩ rfl
  have h₂ := h₁.next (e := LinkEvent.reconnect 0)
    (fun c' info _ h => flags_subscribe _ c' info h) rfl
  have h₃ := h₂.next (e := LinkEvent.request) trivial rfl
  have h₄ := h₃.next (e := LinkEvent.deliverToServer) (fun data rest h => by
    obtain ⟨rfl, -⟩ := List.cons.inj h
    exact answerable_a rfl) rfl
  have h₅ := h₄.next (e := LinkEvent.deliverToClient) trivial rfl
  exact ⟨_, h₅, rfl, by decide, rfl, rfl⟩

theorem kept_subscribed : ∃ l : Link, l.connection = some 0 ∧
    l.client.subscribeChannels["/a".toList]? = some ⟨"/a".toList, 10, true⟩ ∧ l.Kept := by
  obtain ⟨l, hreach, hconnection, -, -, hflag⟩ := reach_subscribed
  exact ⟨l, hconnection, hflag, kept_of_safe hreach⟩

/-- The connection is lost after that, and the client connects again. -/
theorem not_kept_of_reconnect : ¬∀ cworld sworld l,
    Reach (Link.step cworld sworld) Starts (fun _ _ => True) l → l.Kept := by
  intro h
  obtain ⟨⟨client, server, connection, toServer, toClient⟩, hreach, hconnection, hnew, hobjects,
    hflag⟩ := reach_subscribed
  dsimp only at hconnection hnew hobjects hflag
  subst hconnection
  have hlost := (hreach.mono fun _ _ _ => trivial).next (e := LinkEvent.lose) trivial rfl
  have hnew' : 1 ∉ server.clients.removeClientSocket 0 :=
    fun hmem => hnew (Std.TreeMap.mem_erase.1 hmem).2
  have hkept := h _ _ _ (hlost.next (e := LinkEvent.reconnect 1) trivial (if_pos ⟨rfl, hnew'⟩))
  have hdata : server.objects.datas["/a".toList]? = some 0 := by
    rw [hobjects]
    decide
  exact SocketSubscribeChannelMap.not_records_insertClientSocket hnew' _
    (hkept _ 0 _ hdata hflag rfl 1 rfl)

end Link

end Ick
