import Ick.ChannelData
import Ick.ServiceSocket

/-!
# The subscriber server

The server branch of `IckStormSubscriberSocket::socketConnectHandler` answers the requests of
a client. For `Subscribe:x` it calls `addSubscribe`, which records the socket as a subscriber
of the channel `x`, or, if `x` ends with a slash, of the channels listed below `x` one after
the other, up to the first name under which `getObject` finds no channel. The answer
`Subscribe:Success:x` does not depend on what `addSubscribe` has done, and the last byte of
`x` is read even if there is none.

`truthful_iff` says when the answer is true, in terms of the registry and the subscriptions
before the request. The lists of nodes and the calls of services are modelled as well; they
touch no subscription.
-/

namespace Ick

/-- The world of the server branch : which sends are accepted, after what has been done
before, the clock at each reading, and the address of the socket object as a subscriber. -/
structure SubscriberWorld where
  sends : List ServiceEvent → Str → Bool
  time : ℕ → ℤ
  self : ℕ

/-- A world in which all sends are accepted. -/
def SubscriberWorld.quiet : SubscriberWorld where
  sends _ _ := true
  time _ := 0
  self := 0

/-- The handler of one connection of the server, and the state of its program : the registry,
the channel objects by their addresses, and the subscriptions. `clock` counts the readings of
the clock, and the log has the texts that were sent. -/
structure SubscriberServer where
  objects : ObjectManager
  channels : List Channel
  clients : SocketSubscribeChannelMap
  recvBlockMode : Bool
  isAlive : Bool
  reader : Reader
  clock : ℕ
  log : List ServiceEvent

namespace SubscriberServer

/-- A server without objects, before the first bytes. -/
def new : SubscriberServer where
  objects := .new
  channels := []
  clients := ∅
  recvBlockMode := false
  isAlive := true
  reader := .new
  clock := 0
  log := []

/-- More events. -/
def logged (s : SubscriberServer) (es : List ServiceEvent) : SubscriberServer :=
  { s with log := s.log ++ es }

/-- The channel data registered under the name, unless a control object is. -/
def getData (s : SubscriberServer) (channelName : Str) : Option ℕ :=
  match s.objects.getObject channelName with
  | some (.data object) => some object
  | _ => none

/-- `insertSubscribeChannel` and `subscribe` for one channel object. -/
def subscribeObject (world : SubscriberWorld) (socketParam : ℕ) (s : SubscriberServer)
    (object : ℕ) : SubscriberServer :=
  { s with
    clock := s.clock + 1
    clients := s.clients.insertSubscribeChannel socketParam object
      (s.objects.fullName (.data object)) (world.time s.clock)
    channels := s.channels.modify object (Channel.mapBase fun d => d.subscribe world.self) }

/-- The loop of `addSubscribe`, which returns at the first name without a channel. -/
def subscribeAll (world : SubscriberWorld) (socketParam : ℕ) :
    List Str → SubscriberServer → SubscriberServer
  | [], s => s
  | channelName :: dataList, s =>
    match s.getData channelName with
    | none => s
    | some object =>
      subscribeAll world socketParam dataList (s.subscribeObject world socketParam object)

/-- The names that `addSubscribe` goes over. -/
def dataList (s : SubscriberServer) (channelName : Str) : List Str :=
  if channelName.getLast? = some '/' then
    (s.objects.getChannelNodeList channelName).map (channelName ++ ·)
  else [channelName]

/-- `addSubscribe`; `none` when it throws. -/
def addSubscribe (world : SubscriberWorld) (socketParam : ℕ) (s : SubscriberServer)
    (channelName : Str) : Option SubscriberServer :=
  if channelName = [] then none
  else some (subscribeAll world socketParam (s.dataList channelName) s)

/-- The loop over the names of a list of nodes, after `index` of them have been joined to
`strTmp` : the texts that it sends, and what `strTmp` is in the end. -/
def nodeBatches (head : Str) : ℕ → Str → List Str → List Str × Str
  | _, strTmp, [] => ([], strTmp)
  | index, strTmp, node :: nodes =>
    if index < 10 then
      nodeBatches head (index + 1) (strTmp ++ node ++ [if index = 9 then ';' else ',']) nodes
    else
      let (texts, last) := nodeBatches head 1 node nodes
      ((head ++ "10:".toList ++ strTmp) :: texts, last)

/-- The texts that are sent for a list of nodes before the end of the branch, and the text
that is sent there. The names joined last are not sent. -/
def nodeList (command nodeName : Str) (subNodes : List Str) : List Str × Str :=
  let head := command ++ [':'] ++ nodeName ++ [':'] ++
    Converter.convertToString subNodes.length ++ [':']
  let (texts, strTmp) := nodeBatches head 0 [] subNodes
  (if strTmp = [] then texts else texts ++ [head], head)

/-- Sends texts until one is not accepted; the handler returns `false` then. -/
def sendAll (world : SubscriberWorld) : List Str → SubscriberServer → Flow SubscriberServer
  | [], s => .next s
  | data :: datas, s =>
    if world.sends s.log data then sendAll world datas (s.logged [.send data]) else .ret s

/-- The end of the branches, where a text that is not empty is sent. -/
def answer (world : SubscriberWorld) (s : SubscriberServer) (sendData : Str) :
    Flow SubscriberServer :=
  if sendData = [] then .next s else sendAll world [sendData] s

/-- The answer to a subscription. -/
def successText (objectName : Str) : Str :=
  "Subscribe:Success:".toList ++ objectName ++ [';']

/-- The `Subscribe` branch. An exception is not caught, and ends the program. -/
def handleSubscribe (world : SubscriberWorld) (socketParam : ℕ) (s : SubscriberServer)
    (objectName : Str) : Flow SubscriberServer :=
  match s.addSubscribe world socketParam objectName with
  | none => .crash
  | some s => answer world s (successText objectName)

/-- The `RunService` branch. A failed send leaves the loop. -/
def handleRunService (world : SubscriberWorld) (s : SubscriberServer)
    (objectName serviceName params : Str) : Flow SubscriberServer :=
  let sendData := "RunService:Success:".toList ++ objectName ++ [':'] ++ serviceName ++ [';']
  if world.sends s.log sendData then
    let s := s.logged [.send sendData]
    match s.objects.getObject objectName with
    | some (.control _) => .next (s.logged [.call objectName serviceName params])
    | _ => .next s
  else .brk s

/-- The `ChannelList` and `ServiceList` branches. -/
def handleList (world : SubscriberWorld) (s : SubscriberServer) (command nodeName : Str)
    (subNodes : List Str) : Flow SubscriberServer :=
  let (texts, sendData) := nodeList command nodeName subNodes
  match sendAll world texts s with
  | .next s => answer world s sendData
  | flow => flow

/-- The body of the loop over the pieces, up to the carry-over. A message that is not
understood is only printed. -/
def handle (world : SubscriberWorld) (socketParam : ℕ) (s : SubscriberServer) (data : Str) :
    Flow SubscriberServer :=
  match Converter.split data ':' with
  | none => .crash
  | some [] => .next s
  | some [_] => .next s
  | some (command :: objectName :: rest) =>
    if command = "HeartBeat".toList then .next s
    else if command = "Subscribe".toList then handleSubscribe world socketParam s objectName
    else if command = "Unsubscribe".toList then
      answer world s ("Unsubscribe:Success:".toList ++ objectName ++ [';'])
    else
      match rest with
      | [] => .next s
      | third :: rest =>
        if command = "RunService".toList then
          handleRunService world s objectName third (rest.headD [])
        else if command = "ChannelList".toList then
          handleList world s command objectName (s.objects.getChannelNodeList objectName)
        else if command = "ServiceList".toList then
          handleList world s command objectName (s.objects.getServiceNodeList objectName)
        else .next s

/-- The loop over the pieces, after `len` bytes were received and with `last` the last of all
pieces. -/
def handleAll (world : SubscriberWorld) (socketParam len : ℕ) (last : Str) :
    List Str → SubscriberServer → Flow SubscriberServer
  | [], s => .next s
  | data :: datas, s =>
    match handle world socketParam s data with
    | .next s =>
      handleAll world socketParam len last datas { s with reader := s.reader.carry len last }
    | .brk s => .next s
    | flow => flow

/-- What the handler does about one call of `recv`. -/
def onReceive (world : SubscriberWorld) (socketParam : ℕ) (s : SubscriberServer)
    (e : RecvEvent) : Flow SubscriberServer :=
  match receive s.recvBlockMode s.isAlive e with
  | (.bytes data, isAlive) =>
    let s := { s with isAlive := isAlive, reader := s.reader.write data }
    match Converter.split s.reader.text ';' with
    | none => .crash
    | some datas =>
      handleAll world socketParam data.length (datas.getLastD [])
        (datas.take (if s.reader.full data.length then datas.length - 1 else datas.length)) s
  | (.zero, isAlive) => .next { s with isAlive := isAlive, reader := .new }
  | (.negative, isAlive) => .ret { s with isAlive := isAlive }

/-! ## What a subscription records -/

/-- If the request is answered with success, the socket is recorded as a subscriber of the
channel that it names, or, if it names a folder, of every channel directly below the folder;
and no exception is thrown. -/
def Truthful (world : SubscriberWorld) (socketParam : ℕ) (s : SubscriberServer)
    (objectName data : Str) : Prop :=
  ∃ s', (handle world socketParam s data = .next s' ∨ handle world socketParam s data = .ret s') ∧
    (ServiceEvent.send (successText objectName) ∈ s'.log.drop s.log.length →
      (objectName.getLast? ≠ some '/' → ∃ object, s.objects.datas[objectName]? = some object ∧
        s'.clients.Records socketParam object) ∧
      (objectName.getLast? = some '/' → ∀ name object, name ≠ [] → '/' ∉ name →
        s.objects.datas[objectName ++ name]? = some object →
        s'.clients.Records socketParam object))

/-- The channel is registered, and not behind a control object unless its subscription is
already recorded; of a folder, every channel directly below it is already recorded or is
listed among the names below the folder, with channels only before it. -/
def Subscribable (socketParam : ℕ) (s : SubscriberServer) (objectName : Str) : Prop :=
  if objectName.getLast? = some '/' then
    ∀ name object, name ≠ [] → '/' ∉ name → s.objects.datas[objectName ++ name]? = some object →
      s.clients.Records socketParam object ∨
      ∃ child ∈ (s.objects.getChannelNodeList objectName).takeWhile
        (fun child => (s.getData (objectName ++ child)).isSome),
        s.getData (objectName ++ child) = some object
  else
    ∃ object, s.objects.datas[objectName]? = some object ∧
      (objectName ∉ s.objects.entites ∨ s.clients.Records socketParam object)

variable {world : SubscriberWorld} {socketParam : ℕ} {s : SubscriberServer}

theorem getData_eq_some {channelName : Str} {object : ℕ} :
    s.getData channelName = some object ↔ channelName ≠ [] ∧ channelName ∉ s.objects.entites ∧
      s.objects.datas[channelName]? = some object := by
  unfold getData ObjectManager.getObject
  by_cases hnil : channelName = []
  · simp [hnil]
  · rw [if_neg hnil, Std.TreeMap.mem_iff_isSome_getElem?]
    cases he : s.objects.entites[channelName]? with
    | some control => simp
    | none => cases hd : s.objects.datas[channelName]? <;> simp [hnil]

/-- The loop records the channels before the first name without one. -/
theorem subscribeAll_spec (dataList : List Str) : ∀ s : SubscriberServer,
    (subscribeAll world socketParam dataList s).objects = s.objects ∧
    (subscribeAll world socketParam dataList s).log = s.log ∧
    ∀ object, (subscribeAll world socketParam dataList s).clients.Records socketParam object ↔
      s.clients.Records socketParam object ∨
        ∃ name ∈ dataList.takeWhile (fun name => (s.getData name).isSome),
          s.getData name = some object := by
  induction dataList with
  | nil =>
    intro s
    simp [subscribeAll]
  | cons name dataList ih =>
    intro s
    rw [subscribeAll]
    cases hget : s.getData name with
    | none => simp [hget]
    | some object =>
      obtain ⟨hobjects, hlog, hrecords⟩ := ih (s.subscribeObject world socketParam object)
      have hgetData : ∀ name, (s.subscribeObject world socketParam object).getData name =
          s.getData name := fun _ => rfl
      refine ⟨hobjects, hlog, fun object' => ?_⟩
      rw [hrecords, List.takeWhile_cons_of_pos (by simp [hget])]
      simp only [hgetData, List.exists_mem_cons_iff, hget, Option.some.injEq]
      have hone : (s.subscribeObject world socketParam object).clients.Records socketParam object' ↔
          object = object' ∨ s.clients.Records socketParam object' := by
        rw [subscribeObject, SocketSubscribeChannelMap.records_insertSubscribeChannel]
        simp [eq_comm]
      rw [hone]
      tauto

/-- What `addSubscribe` records. -/
theorem records_addSubscribe {objectName : Str} {object : ℕ} :
    (subscribeAll world socketParam (s.dataList objectName) s).clients.Records socketParam object ↔
      s.clients.Records socketParam object ∨
      if objectName.getLast? = some '/' then
        ∃ child ∈ (s.objects.getChannelNodeList objectName).takeWhile
          (fun child => (s.getData (objectName ++ child)).isSome),
          s.getData (objectName ++ child) = some object
      else s.getData objectName = some object := by
  rw [(@subscribeAll_spec world socketParam _ s).2.2, dataList]
  split_ifs with hslash
  · rw [List.takeWhile_map]
    simp [Function.comp_def]
  · cases hget : s.getData objectName <;> simp [hget]

/-- A request for a name without bytes ends the program; any other one is answered. -/
theorem handle_subscribe {data objectName : Str} {rest : List Str}
    (h : Converter.split data ':' = some ("Subscribe".toList :: objectName :: rest)) :
    handle world socketParam s data =
      if objectName = [] then .crash
      else
        let s' := subscribeAll world socketParam (s.dataList objectName) s
        if world.sends s.log (successText objectName) then
          .next (s'.logged [.send (successText objectName)])
        else .ret s' := by
  have hcommand : ¬"Subscribe".toList = "HeartBeat".toList := by decide
  have htext : successText objectName ≠ [] :=
    List.append_ne_nil_of_right_ne_nil _ (List.cons_ne_nil _ _)
  unfold handle
  simp only [h, hcommand, if_false, if_true, handleSubscribe, addSubscribe]
  by_cases hnil : objectName = []
  · simp only [hnil, if_true]
  · simp only [hnil, if_false, answer, htext, sendAll,
      (@subscribeAll_spec world socketParam _ s).2.1]

/-- What is asked for is recorded by `addSubscribe` exactly if it can be. -/
theorem recorded_iff {objectName : Str} (hnil : objectName ≠ []) :
    ((objectName.getLast? ≠ some '/' → ∃ object, s.objects.datas[objectName]? = some object ∧
        (subscribeAll world socketParam (s.dataList objectName) s).clients.Records socketParam
          object) ∧
      (objectName.getLast? = some '/' → ∀ name object, name ≠ [] → '/' ∉ name →
        s.objects.datas[objectName ++ name]? = some object →
        (subscribeAll world socketParam (s.dataList objectName) s).clients.Records socketParam
          object)) ↔ Subscribable socketParam s objectName := by
  simp only [records_addSubscribe]
  unfold Subscribable
  by_cases hslash : objectName.getLast? = some '/'
  · simp only [hslash, ne_eq, not_true_eq_false, false_implies, true_and, true_implies, if_true]
  · simp only [hslash, ne_eq, not_false_eq_true, true_implies, false_implies, and_true, if_false]
    refine exists_congr fun object => and_congr_right fun hdata => ?_
    rw [getData_eq_some, or_comm]
    simp [hnil, hdata]

/-- Truthful answers. A request to subscribe is handled without an exception, and answered
with success only if what it asks for is recorded, exactly if its name is not empty and what
it asks for can be recorded, or the answer is not accepted. -/
theorem truthful_iff {data objectName : Str} {rest : List Str}
    (h : Converter.split data ':' = some ("Subscribe".toList :: objectName :: rest)) :
    Truthful world socketParam s objectName data ↔ objectName ≠ [] ∧
      (world.sends s.log (successText objectName) = true →
        Subscribable socketParam s objectName) := by
  have hlog := (@subscribeAll_spec world socketParam (s.dataList objectName) s).2.1
  unfold Truthful
  rw [handle_subscribe h]
  by_cases hnil : objectName = []
  · simp [hnil]
  · rw [if_neg hnil, ← @recorded_iff world socketParam s objectName hnil]
    by_cases hsends : world.sends s.log (successText objectName) = true
    · simp only [hsends, if_true, true_implies, ne_eq, hnil, not_false_eq_true, true_and]
      constructor
      · rintro ⟨s', heq | heq, htrue⟩
        · obtain rfl := Flow.next.inj heq
          refine htrue ?_
          rw [logged, hlog, List.drop_left]
          exact List.mem_singleton_self _
        · cases heq
      · exact fun hrecorded => ⟨_, Or.inl rfl, fun _ => hrecorded⟩
    · simp only [hsends, ne_eq, hnil, not_false_eq_true, true_and, false_implies, iff_true,
        if_false, Bool.false_eq_true]
      refine ⟨_, Or.inr rfl, fun hmem => ?_⟩
      rw [hlog, List.drop_length] at hmem
      exact absurd hmem List.not_mem_nil

/-- A server with the channel `/a`. -/
def server_a : SubscriberServer :=
  { new with
    objects := { ObjectManager.new with datas := Std.TreeMap.insertIfNew ∅ "/a".toList 0 }
    channels := [.readOnlyInt (.new 0)] }

/-- A request for that channel. -/
def request_a : Str := "Subscribe:/a".toList

theorem truthful_registered : Truthful .quiet 0 server_a "/a".toList request_a := by
  have hsplit : Converter.split request_a ':' =
      some ("Subscribe".toList :: "/a".toList :: []) := rfl
  exact (truthful_iff hsplit).2 ⟨by decide, fun _ => ⟨0, by decide, Or.inl (by decide)⟩⟩

/-- A channel that is not registered is answered with success. -/
theorem not_truthful_unregistered : ¬∀ world socketParam s objectName data rest,
    Converter.split data ':' = some ("Subscribe".toList :: objectName :: rest) →
    Truthful world socketParam s objectName data := by
  intro h
  obtain ⟨s', hs', htrue⟩ := h .quiet 0 new "/a".toList request_a [] rfl
  obtain rfl : _ = s' := Flow.next.inj (hs'.resolve_right nofun)
  obtain ⟨object, hdata, -⟩ := (htrue (List.mem_singleton_self _)).1 (by decide)
  exact absurd hdata nofun

end SubscriberServer

end Ick
