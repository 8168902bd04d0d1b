import Ick.ObjectManager
import Ick.UpdateFrame

/-!
# The subscriber client

The client branch of `IckStormSubscriberSocket::socketConnectHandler` mirrors the channels
of a server. The first `Update` of a channel creates an object of one of six classes, chosen
by access mode and data type, and registers it; a later one casts the registered object to a
read-write class that is chosen by the data type alone, and sets its value without looking
whether the cast has failed. A `Subscribe:Success` marks a channel as subscribed, and after
each round of the receive loop `subscribeChannelHandler` asks again for the channels that
are not.

An exception ends the loop, and the thread of the connection calls the handler again, which
has new local variables then : `Flow.brk` stands for it.

`handleUpdate_first` and `handleUpdate_later` say what the two kinds of updates do to the
objects; everything around them leaves the objects alone (`Unchanged`).
-/

namespace Ick

/-! ## The channels asked for -/

/-- `m_subscribeChannels` -/
abbrev SubscribeChannels := Std.TreeMap Str ChannelSubscribeInfo

namespace SubscribeChannels

/-- `subscribe` -/
def subscribe (channels : SubscribeChannels) (channelName : Str) : SubscribeChannels :=
  channels.insertIfNew channelName ⟨channelName, 0, false⟩

/-- The channel is not subscribed, and was not asked for in the last five seconds. -/
def isDue (t : ℤ) (info : ChannelSubscribeInfo) : Bool :=
  !info.isRegistSuccess && t - info.registTime > 5

/-- The requests for the channels that are due. -/
def requests (t : ℤ) (channels : SubscribeChannels) : List Str :=
  (channels.toList.filter fun entry => isDue t entry.2).map fun entry =>
    "Subscribe:".toList ++ entry.1 ++ [';']

/-- The channels after they have been asked for. -/
def requested (t : ℤ) (channels : SubscribeChannels) : SubscribeChannels :=
  channels.map fun _ info => if isDue t info then { info with registTime := t } else info

/-- The channel is subscribed, if it is one of those asked for. -/
def success (channels : SubscribeChannels) (channelName : Str) : SubscribeChannels :=
  match channels[channelName]? with
  | some info => channels.insert channelName { info with isRegistSuccess := true }
  | none => channels

end SubscribeChannels

/-- The texts that are sent when ten are joined at a time, after `i` of them and with `str`
joined so far. -/
def batches : ℕ → Str → List Str → List Str
  | _, str, [] => if str = [] then [] else [str]
  | i, str, text :: texts =>
    if (i + 1) % 10 = 0 then (str ++ text) :: batches (i + 1) [] texts
    else batches (i + 1) (str ++ text) texts

/-! ## The handler -/

/-- What the client does on a connection and in its program, and, as `message`, the fields
of a message that has been handled to its end. -/
inductive ClientEvent
  | send (data : Str)
  | callBack (callBack : ℕ) (channelName : Str) (valueInfo : IckStormValueInfo)
  | update (subscriber untypedData : ℕ)
  | nodeInfo (callBack : ℕ) (nodeName nodeNames : Str) (subNodeSize : ℕ)
  | message (tmp : List Str)

/-- The world of the client branch : the C library, the clock at each reading, what drivers
answer and which sends succeed after what has been done before, what a member holds that is
not set, and the functions and subscribers that `IckStormSubscriberManager` and
`ObjectManager` know. -/
structure ClientWorld where
  clib : CLib
  time : ℕ → ℤ
  io : List ClientEvent → DriverIO
  sends : List ClientEvent → Str → Bool
  unset : Float
  callbacks : Std.TreeMap Str (List ℕ)
  subscriberCallBack : Std.TreeMap Str (List ℕ)
  nodeInfoCallBacks : List ℕ

/-- A name with dashes for its slashes. It is copied with an `int i`, so it has less than `2 ^ 31`
bytes. -/
def dashed (name : Str) : Str :=
  name.map fun c => if c = '/' then '-' else c

namespace ClientWorld

/-- `getSubscriberCallBackList` : the functions for the channel, or else for the path up to
its last slash. -/
def getSubscriberCallBackList (world : ClientWorld) (channelName : Str) : List ℕ :=
  match world.callbacks[(dashed channelName).takeWhile (· ≠ '\x00')]? with
  | some callbackList => callbackList
  | none => world.callbacks.getD (dashed (channelName.rdropWhile (· ≠ '/'))) []

/-- `getSubscriberList` -/
def getSubscriberList (world : ClientWorld) (channelName : Str) : List ℕ :=
  world.subscriberCallBack.getD ((dashed channelName).takeWhile (· ≠ '\x00')) []

/-- The object that the first `Update` of a channel creates. The argument of `ReadWriteInt`
is the lower bound, and the upper one is `INT_MAX`. -/
def create (world : ClientWorld) (valueInfo : IckStormValueInfo) : Option Channel :=
  match valueInfo.accessMode, valueInfo.dataType with
  | .READONLY, .INTDATA => some (.readOnlyInt (.new valueInfo.iValue))
  | .READONLY, .DOUBLEDATA => some (.readOnlyDouble (.new valueInfo.dValue world.unset))
  | .READONLY, .STRINGDATA => some (.readOnlyString (.new valueInfo.sValue))
  | .READWRITE, .INTDATA => some (.readWriteInt (.new valueInfo.iValue (2 ^ 31 - 1)))
  | .READWRITE, .DOUBLEDATA => some (.readWriteDouble (.new valueInfo.dValue))
  | .READWRITE, .STRINGDATA => some (.readWriteString (.new valueInfo.sValue))
  | _, _ => none

end ClientWorld

/-- A world in which all sends succeed and nobody waits for an update. -/
def ClientWorld.quiet : ClientWorld where
  clib := Update.clib_zero
  time _ := 0
  io _ := PolledChannel.noDriver
  sends _ _ := true
  unset := 0
  callbacks := ∅
  subscriberCallBack := ∅
  nodeInfoCallBacks := []

/-- What a later `Update` does to the object; `none` if the cast gives `NULL`. -/
def assign (io : DriverIO) (valueInfo : IckStormValueInfo) : Channel → Option Channel
  | .readWriteInt d =>
    match valueInfo.dataType with
    | .UNKNOWN => some (.readWriteInt d)
    | .INTDATA => some (.readWriteInt (d.setValue io valueInfo.iValue))
    | _ => none
  | .readWriteDouble d =>
    match valueInfo.dataType with
    | .UNKNOWN => some (.readWriteDouble d)
    | .DOUBLEDATA => some (.readWriteDouble (d.setValue io valueInfo.dValue))
    | _ => none
  | .readWriteString d =>
    match valueInfo.dataType with
    | .UNKNOWN => some (.readWriteString d)
    | .STRINGDATA => some (.readWriteString (d.setValue io valueInfo.sValue))
    | _ => none
  | channel => if valueInfo.dataType = .UNKNOWN then some channel else none

/-- The handler of the client's connection, and the state of its program : the registry, the
channel objects by their addresses, the channels asked for, and the data to be sent. `clock`
counts the readings of the clock. -/
structure SubscriberClient where
  objects : ObjectManager
  channels : List Channel
  subscribeChannels : SubscribeChannels
  dataSendList : List Str
  lastHeartBeatTime : ℤ
  recvBlockMode : Bool
  isAlive : Bool
  reader : Reader
  clock : ℕ
  log : List ClientEvent

namespace SubscriberClient

/-- A client without objects, before the first bytes. -/
def new : SubscriberClient where
  objects := .new
  channels := []
  subscribeChannels := ∅
  dataSendList := []
  lastHeartBeatTime := 0
  recvBlockMode := false
  isAlive := true
  reader := .new
  clock := 0
  log := []

/-- More events. -/
def logged (s : SubscriberClient) (es : List ClientEvent) : SubscriberClient :=
  { s with log := s.log ++ es }

/-- The address of the channel data registered under the name. -/
def getData (s : SubscriberClient) (channelName : Str) : Option ℕ :=
  match s.objects.getObject channelName with
  | some (.data object) => some object
  | _ => none

/-- The last lines of the `Update` branch : the functions and the subscribers of the channel
are called. -/
def notify (world : ClientWorld) (s : SubscriberClient) (channelName : Str)
    (valueInfo : IckStormValueInfo) (untypedData : Option ℕ) : SubscriberClient :=
  s.logged ((world.getSubscriberCallBackList channelName).map
      (ClientEvent.callBack · channelName valueInfo) ++
    match untypedData with
    | none => []
    | some object => (world.getSubscriberList channelName).map (ClientEvent.update · object))

/-- The `Update` branch, once the message is read. -/
def handleUpdate (world : ClientWorld) (s : SubscriberClient) (channelName : Str)
    (valueInfo : IckStormValueInfo) : Flow SubscriberClient :=
  if s.objects.isObjectRegisted channelName = false then
    match world.create valueInfo with
    | none => .next (s.notify world channelName valueInfo none)
    | some channel =>
      let s := { s with channels := s.channels ++ [channel] }
      let object := s.channels.length - 1
      match s.objects.registerData (some object) channelName with
      | .ok objects =>
        .next ({ s with objects := objects }.notify world channelName valueInfo (some object))
      | .throws _ objects => .brk { s with objects := objects }
      | .crash => .crash
  else
    match s.getData channelName with
    | none =>
      if valueInfo.dataType = .UNKNOWN then .next (s.notify world channelName valueInfo none)
      else .crash
    | some object =>
      match s.channels[object]?.bind (assign (world.io s.log) valueInfo) with
      | none => .crash
      | some channel =>
        .next ({ s with channels := s.channels.set object channel }.notify world channelName
          valueInfo (some object))

/-- The branches for other messages. -/
def handleOther (world : ClientWorld) (s : SubscriberClient) :
    List Str → Flow SubscriberClient
  | command :: nodeName :: third :: rest =>
    if command = "Subscribe".toList ∧ nodeName = "Success".toList then
      .next ({ s with subscribeChannels := s.subscribeChannels.success third }.logged
        [.message (command :: nodeName :: third :: rest)])
    else
      match rest with
      | nodeNames :: _ =>
        if command = "ChannelList".toList then
          match Converter.split nodeNames ',' with
          | none => .crash
          | some subNodes =>
            .next (s.logged (world.nodeInfoCallBacks.map
                (ClientEvent.nodeInfo · nodeName nodeNames subNodes.length) ++
              [.message (command :: nodeName :: third :: rest)]))
        else .next s
      | [] => .next s
  | _ => .next s

/-- The body of the loop over the pieces. -/
def handle (world : ClientWorld) (s : SubscriberClient) (data : Str) :
    Flow SubscriberClient :=
  match Converter.split data ':' with
  | none => .crash
  | some tmp =>
    match readUpdate world.clib tmp with
    | .throws => .brk s
    | .update channelName valueInfo =>
      match handleUpdate world s channelName valueInfo with
      | .next s => .next (s.logged [.message tmp])
      | flow => flow
    | .other => handleOther world s tmp

/-- The loop over the pieces. -/
def handleAll (world : ClientWorld) : List Str → SubscriberClient → Flow SubscriberClient
  | [], s => .next s
  | data :: datas, s =>
    match handle world s data with
    | .next s => handleAll world datas s
    | flow => flow

/-- Sends one text after the other until one fails, and says whether none has. -/
def sendAll (world : ClientWorld) : List Str → SubscriberClient → SubscriberClient × Bool
  | [], s => (s, true)
  | data :: datas, s =>
    if world.sends s.log data then sendAll world datas (s.logged [.send data])
    else (s.logged [.send data], false)

/-- `subscribeChannelHandler`, with what it returns. Whether a request could be sent is not
looked at. -/
def subscribeChannelHandler (world : ClientWorld) (s : SubscriberClient) :
    SubscriberClient × Bool :=
  let t := world.time s.clock
  let s' := { s with
    clock := s.clock + 1
    subscribeChannels := s.subscribeChannels.requested t }.logged
      ((batches 0 [] (s.subscribeChannels.requests t)).map .send)
  match sendAll world (batches 0 [] s.dataSendList) s' with
  | (s', true) => ({ s' with dataSendList := [] }, true)
  | (s', false) => (s', false)

/-- The handler returns `true` and is called again. -/
def again (world : ClientWorld) (s : SubscriberClient) : Flow SubscriberClient :=
  match subscribeChannelHandler world s with
  | (s, true) => .next { s with reader := .new }
  | (s, false) => .ret s

/-- One round, with `len` bytes just written into the buffer. -/
def round (world : ClientWorld) (s : SubscriberClient) (len : ℕ) : Flow SubscriberClient :=
  match Converter.split s.reader.text ';' with
  | none => .crash
  | some datas =>
    let full := s.reader.full len
    match handleAll world (datas.take (if full then datas.length - 1 else datas.length)) s with
    | .next s =>
      if full ∧ datas = [] then .crash
      else
        .next (subscribeChannelHandler world
          { s with reader := s.reader.carry len (datas.getLastD []) }).1
    | .brk s => again world s
    | flow => flow

/-- What the handler does about one call of `recv`. When nothing comes in time it may send a
heartbeat, and returns `true`. -/
def onReceive (world : ClientWorld) (s : SubscriberClient) (e : RecvEvent) :
    Flow SubscriberClient :=
  match receive s.recvBlockMode s.isAlive e with
  | (.bytes data, isAlive) =>
    round world { s with isAlive := isAlive, reader := s.reader.write data } data.length
  | (.zero, isAlive) =>
    let t := world.time s.clock
    let s := { s with isAlive := isAlive, clock := s.clock + 1 }
    if t - s.lastHeartBeatTime > 60 then
      let s' := s.logged [.send "HeartBeat;".toList]
      if world.sends s.log "HeartBeat;".toList then
        again world { s' with lastHeartBeatTime := t }
      else .ret s'
    else again world s
  | (.negative, isAlive) => .ret { s with isAlive := isAlive }

/-- The messages that have been handled to their end, in order. -/
def messagesOf (log : List ClientEvent) : List (List Str) :=
  log.filterMap fun
    | .message tmp => some tmp
    | _ => none

/-- The messages handled so far. -/
def messages (s : SubscriberClient) : List (List Str) := messagesOf s.log

/-! ## What stays as it is -/

/-- What the calls around the handling of a message leave alone. -/
structure Unchanged (s s' : SubscriberClient) : Prop where
  objects : s'.objects = s.objects
  channels : s'.channels = s.channels
  reader : s'.reader = s.reader
  recvBlockMode : s'.recvBlockMode = s.recvBlockMode
  messages : s'.messages = s.messages

variable {world : ClientWorld} {s s' s'' : SubscriberClient}

theorem Unchanged.refl (s : SubscriberClient) : Unchanged s s :=
  ⟨rfl, rfl, rfl, rfl, rfl⟩

theorem Unchanged.trans (h : Unchanged s s') (h' : Unchanged s' s'') : Unchanged s s'' :=
  ⟨h'.objects.trans h.objects, h'.channels.trans h.channels, h'.reader.trans h.reader,
    h'.recvBlockMode.trans h.recvBlockMode, h'.messages.trans h.messages⟩

theorem messages_logged (s : SubscriberClient) (es : List ClientEvent) :
    (s.logged es).messages = s.messages ++ messagesOf es :=
  List.filterMap_append

theorem unchanged_logged {es : List ClientEvent} (h : messagesOf es = []) :
    Unchanged s (s.logged es) :=
  ⟨rfl, rfl, rfl, rfl, by rw [messages_logged, h, List.append_nil]⟩

theorem messagesOf_map {α : Type*} {f : α → ClientEvent} (h : ∀ a, messagesOf [f a] = [])
    (l : List α) : messagesOf (l.map f) = [] := by
  induction l with
  | nil => rfl
  | cons a l ih =>
    rw [List.map_cons, ← List.singleton_append, messagesOf, List.filterMap_append]
    exact List.append_eq_nil_iff.2 ⟨h a, ih⟩

theorem unchanged_notify (s : SubscriberClient) (channelName : Str)
    (valueInfo : IckStormValueInfo) (untypedData : Option ℕ) :
    Unchanged s (s.notify world channelName valueInfo untypedData) := by
  refine unchanged_logged ?_
  rw [messagesOf, List.filterMap_append]
  refine List.append_eq_nil_iff.2 ⟨messagesOf_map (fun _ => rfl) _, ?_⟩
  cases untypedData with
  | none => rfl
  | some object => exact messagesOf_map (fun _ => rfl) _

theorem unchanged_sendAll (datas : List Str) (s : SubscriberClient) :
    Unchanged s (sendAll world datas s).1 := by
  induction datas generalizing s with
  | nil => exact .refl s
  | cons data datas ih =>
    rw [sendAll]
    split_ifs
    · exact (unchanged_logged rfl).trans (ih _)
    · exact unchanged_logged rfl

theorem unchanged_subscribeChannelHandler (s : SubscriberClient) :
    Unchanged s (subscribeChannelHandler world s).1 := by
  simp only [subscribeChannelHandler]
  generalize hs' : ({ s with
    clock := s.clock + 1
    subscribeChannels := s.subscribeChannels.requested (world.time s.clock) } :
      SubscriberClient).logged ((batches 0 [] (s.subscribeChannels.requests
        (world.time s.clock))).map .send) = s'
  have hrequests : Unchanged s s' := by
    rw [← hs']
    exact ⟨rfl, rfl, rfl, rfl, (messages_logged _ _).trans (by
      rw [messagesOf_map fun _ => rfl, List.append_nil]
      rfl)⟩
  have hsends := @unchanged_sendAll world (batches 0 [] s.dataSendList) s'
  rcases hall : sendAll world (batches 0 [] s.dataSendList) s' with ⟨s'', ok⟩
  rw [hall] at hsends
  cases ok with
  | true => exact hrequests.trans ⟨hsends.1, hsends.2, hsends.3, hsends.4, hsends.5⟩
  | false => exact hrequests.trans hsends

/-! ## One update -/

/-- Every channel object that is registered exists. -/
def Allocated (s : SubscriberClient) : Prop :=
  ∀ channelName object, s.objects.getObject channelName = some (.data object) →
    object < s.channels.length

theorem isObjectRegisted_eq_false {m : ObjectManager} {fullName : Str} :
    m.isObjectRegisted fullName = false ↔ m.getObject fullName = none := by
  rw [m.isObjectRegisted_eq]
  simp

/-- `registerObject` accepts the name of a channel under which nothing is registered. -/
theorem registerData_of_isChannelName {m : ObjectManager} {fullName : Str}
    (hname : IsChannelName fullName) (hfree : m.getObject fullName = none) (object : ℕ) :
    ∃ m', m.registerData (some object) fullName = .ok m' ∧
      m'.getObject = Function.update m.getObject fullName (some (.data object)) := by
  have hne : fullName ≠ [] := by
    rintro rfl
    simpa using hname.1
  have hregisted := isObjectRegisted_eq_false.2 hfree
  have hpasses : m.Passes [] (.data (some object) fullName) :=
    Or.inr ⟨hname.1, hname.2, (ObjectManager.notMem_of_not_registed hne hregisted).2⟩
  obtain ⟨m', hm'⟩ := (ObjectManager.step_ok_iff_passes rfl).2 hpasses
  exact ⟨m', RegisterOutcome.ofOutcome_eq_ok.1 hm',
    ObjectManager.getObject_of_step hm' rfl hne hregisted⟩

/-- The first update of a channel. -/
theorem handleUpdate_first {channelName : Str} {valueInfo : IckStormValueInfo}
    (hname : IsChannelName channelName) (hfree : s.objects.getObject channelName = none)
    {channel : Channel} (hcreate : world.create valueInfo = some channel) :
    ∃ objects, objects.getObject = Function.update s.objects.getObject channelName
        (some (.data s.channels.length)) ∧
      handleUpdate world s channelName valueInfo =
        .next ({ s with channels := s.channels ++ [channel], objects := objects }.notify world
          channelName valueInfo (some s.channels.length)) := by
  obtain ⟨objects, hregister, hget⟩ :=
    registerData_of_isChannelName hname hfree s.channels.length
  refine ⟨objects, hget, ?_⟩
  rw [handleUpdate, if_pos (isObjectRegisted_eq_false.2 hfree)]
  simp only [hcreate, List.length_append, List.length_singleton, Nat.add_sub_cancel, hregister]

theorem getData_of_getObject {channelName : Str} {object : ℕ}
    (h : s.objects.getObject channelName = some (.data object)) :
    s.getData channelName = some object := by
  rw [getData, h]

/-- A later update of a channel. -/
theorem handleUpdate_later {channelName : Str} {valueInfo : IckStormValueInfo} {object : ℕ}
    (hobject : s.objects.getObject channelName = some (.data object)) {channel : Channel}
    (hchannel : s.channels[object]? = some channel) :
    handleUpdate world s channelName valueInfo =
      match assign (world.io s.log) valueInfo channel with
      | none => .crash
      | some channel =>
        .next ({ s with channels := s.channels.set object channel }.notify world channelName
          valueInfo (some object)) := by
  have hregisted : ¬s.objects.isObjectRegisted channelName = false := by
    rw [isObjectRegisted_eq_false, hobject]
    exact Option.some_ne_none _
  rw [handleUpdate, if_neg hregisted]
  simp only [getData_of_getObject hobject, hchannel, Option.bind_some]

end SubscriberClient

end Ick
