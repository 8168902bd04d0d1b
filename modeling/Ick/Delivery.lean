import Ick.ChannelLink
import Mathlib.Data.List.Forall2

/-!
# What the client is called with

After an update the client calls the functions that were given for the channel, and tells the
subscribers of the channel of its object. A `Note` is what these calls are made with.

Whatever the client receives, the calls that it makes are those of its notes, one after the other,
and there is a note for each update among the messages that it has handled to their ends, in the
order of the messages (`noted_onReceive`). With the runs of a server and a client this gives
`notified_of_guard` : each update that the server has sent makes its calls once, in the order in
which they were sent, with what was sent. When nothing is under way, none is missing.
-/

namespace Ick

/-! ## Notes -/

/-- What the calls after an update are made with. -/
structure Note where
  channelName : Str
  valueInfo : IckStormValueInfo
  object : Option ℕ

namespace Note

/-- The calls. -/
def events (world : ClientWorld) (n : Note) : List ClientEvent :=
  (world.getSubscriberCallBackList n.channelName).map
      (ClientEvent.callBack · n.channelName n.valueInfo) ++
    match n.object with
    | none => []
    | some object => (world.getSubscriberList n.channelName).map (ClientEvent.update · object)

/-- The update is one that registers an object, or finds one. -/
def Registers (n : Note) : Prop :=
  n.channelName ≠ [] ∧ n.valueInfo.accessMode ≠ .DEFAULT ∧ n.valueInfo.dataType ≠ .UNKNOWN

end Note

/-- The calls among the events. -/
def noticesOf (log : List ClientEvent) : List ClientEvent :=
  log.filter fun
    | .callBack _ _ _ => true
    | .update _ _ => true
    | _ => false

theorem noticesOf_append (log log' : List ClientEvent) :
    noticesOf (log ++ log') = noticesOf log ++ noticesOf log' :=
  List.filter_append log log'

theorem noticesOf_map_send (datas : List Str) : noticesOf (datas.map .send) = [] := by
  simp [noticesOf]

theorem noticesOf_events (world : ClientWorld) (n : Note) :
    noticesOf (n.events world) = n.events world := by
  refine List.filter_eq_self.2 fun e he => ?_
  rcases List.mem_append.1 he with he | he
  · obtain ⟨f, -, rfl⟩ := List.mem_map.1 he
    rfl
  · cases hobject : n.object with
    | none =>
      rw [hobject] at he
      exact absurd he List.not_mem_nil
    | some object =>
      rw [hobject] at he
      obtain ⟨subscriber, -, rfl⟩ := List.mem_map.1 he
      rfl

/-- The updates among the messages, as they are read. -/
def readsOf (clib : CLib) (messages : List (List Str)) : List (Str × IckStormValueInfo) :=
  messages.filterMap fun tmp =>
    match readUpdate clib tmp with
    | .update channelName valueInfo => some (channelName, valueInfo)
    | _ => none

theorem readsOf_append (clib : CLib) (messages messages' : List (List Str)) :
    readsOf clib (messages ++ messages') = readsOf clib messages ++ readsOf clib messages' :=
  List.filterMap_append

namespace SubscriberClient

variable {world : ClientWorld} {s s' : SubscriberClient} {notes : List Note}

/-- The invariant : the calls are those of the notes, the notes are those of the updates among the
messages, and the objects in them are the registered ones. -/
structure Noted (world : ClientWorld) (s : SubscriberClient) (notes : List Note) : Prop where
  reads : readsOf world.clib s.messages = notes.map fun n => (n.channelName, n.valueInfo)
  notices : noticesOf s.log = notes.flatMap (Note.events world)
  objects : ∀ n ∈ notes, n.Registers → ∃ object, n.object = some object ∧
    s.objects.getObject n.channelName = some (.data object)

theorem noted_of_log (h : s.log = []) : Noted world s [] := by
  refine ⟨?_, ?_, fun n hn => absurd hn List.not_mem_nil⟩
  · rw [messages, h]
    rfl
  · rw [h]
    rfl

/-- Nothing of what the notes are about is changed. -/
theorem Noted.congr (h : Noted world s notes) (hobjects : s'.objects = s.objects)
    (hmessages : s'.messages = s.messages) (hnotices : noticesOf s'.log = noticesOf s.log) :
    Noted world s' notes := by
  refine ⟨hmessages ▸ h.reads, hnotices ▸ h.notices, fun n hn hregisters => ?_⟩
  rw [hobjects]
  exact h.objects n hn hregisters

/-- Events that are no calls, and no messages that are read as updates. -/
theorem Noted.logged (h : Noted world s notes) {es : List ClientEvent}
    (hreads : readsOf world.clib (messagesOf es) = []) (hnotices : noticesOf es = []) :
    Noted world (s.logged es) notes := by
  refine ⟨?_, ?_, h.objects⟩
  · rw [messages_logged, readsOf_append, hreads, List.append_nil]
    exact h.reads
  · rw [SubscriberClient.logged, noticesOf_append, hnotices, List.append_nil]
    exact h.notices

theorem Noted.sends (h : Noted world s notes) (datas : List Str) :
    Noted world (s.logged (datas.map .send)) notes := by
  refine h.logged ?_ (noticesOf_map_send datas)
  rw [messagesOf_map fun _ => rfl]
  rfl

/-! ## One update -/

/-- The calls after an update have been made, and the update is logged as handled. -/
theorem Noted.notify (h : Noted world s notes) {objects : ObjectManager} {channels : List Channel}
    {n : Note} (hkept : ∀ name object, s.objects.getObject name = some (.data object) →
      objects.getObject name = some (.data object))
    (hobject : n.Registers → ∃ object, n.object = some object ∧
      objects.getObject n.channelName = some (.data object))
    {tmp : List Str} (hread : readUpdate world.clib tmp = .update n.channelName n.valueInfo) :
    Noted world ((({ s with channels := channels, objects := objects } :
      SubscriberClient).notify world n.channelName n.valueInfo n.object).logged [.message tmp])
      (notes ++ [n]) := by
  generalize hs' : ({ s with channels := channels, objects := objects } : SubscriberClient) = s'
  have hlog : s'.log = s.log := by rw [← hs']
  have hobjects : s'.objects = objects := by rw [← hs']
  refine ⟨?_, ?_, fun n' hn' hregisters => ?_⟩
  · have hsame : s'.messages = s.messages := congrArg messagesOf hlog
    have hread : readsOf world.clib [tmp] = [(n.channelName, n.valueInfo)] := by
      simp only [readsOf, List.filterMap_cons, hread, List.filterMap_nil]
    rw [messages_logged, (unchanged_notify _ _ _ _).messages, hsame, readsOf_append, h.reads,
      List.map_append]
    exact congrArg _ hread
  · have hevents : s'.notify world n.channelName n.valueInfo n.object =
        s'.logged (n.events world) := rfl
    rw [hevents, SubscriberClient.logged, SubscriberClient.logged, noticesOf_append,
      noticesOf_append, noticesOf_events, hlog, h.notices, List.flatMap_append,
      List.flatMap_singleton]
    exact List.append_nil _
  · change ∃ object, n'.object = some object ∧
      s'.objects.getObject n'.channelName = some (.data object)
    rw [hobjects]
    rcases List.mem_append.1 hn' with hn' | hn'
    · obtain ⟨object, hsome, hget⟩ := h.objects n' hn' hregisters
      exact ⟨object, hsome, hkept _ _ hget⟩
    · obtain rfl := List.mem_singleton.1 hn'
      exact hobject hregisters

/-- `registerObject` under a name under which nothing is registered. -/
theorem getObject_of_registerData {m m' : ObjectManager} {object : ℕ} {fullName : Str}
    (hfree : m.isObjectRegisted fullName = false)
    (h : m.registerData (some object) fullName = .ok m') :
    (∀ name object', m.getObject name = some (.data object') →
      m'.getObject name = some (.data object')) ∧
      (fullName ≠ [] → m'.getObject fullName = some (.data object)) := by
  by_cases hname : fullName = []
  · subst hname
    obtain rfl := Outcome.ok.inj h
    exact ⟨fun _ _ hget => hget, fun hne => absurd rfl hne⟩
  · have hget := @ObjectManager.getObject_of_step [] m m' (.data (some object) fullName)
      (RegisterOutcome.ofOutcome_eq_ok.2 h) (.data object) fullName rfl hname hfree
    rw [hget]
    refine ⟨fun name object' hobject => ?_, fun _ => Function.update_self _ _ _⟩
    rw [Function.update_of_ne, hobject]
    rintro rfl
    rw [isObjectRegisted_eq_false.1 hfree] at hobject
    cases hobject

theorem create_isSome {valueInfo : IckStormValueInfo} (haccess : valueInfo.accessMode ≠ .DEFAULT)
    (htype : valueInfo.dataType ≠ .UNKNOWN) : (world.create valueInfo).isSome := by
  unfold ClientWorld.create
  cases hmode : valueInfo.accessMode <;> cases hdata : valueInfo.dataType <;>
    first
    | rfl
    | exact absurd hmode haccess
    | exact absurd hdata htype

theorem getObject_of_getData {channelName : Str} {object : ℕ}
    (h : s.getData channelName = some object) :
    s.objects.getObject channelName = some (.data object) := by
  unfold getData at h
  split at h
  · rename_i hget
    rw [hget, Option.some.inj h]
  · cases h

/-- What is done about a message that is read as an update. -/
theorem noted_handleUpdate (h : Noted world s notes) {tmp : List Str} {channelName : Str}
    {valueInfo : IckStormValueInfo}
    (hread : readUpdate world.clib tmp = .update channelName valueInfo) :
    (match handleUpdate world s channelName valueInfo with
      | .next s => Flow.next (s.logged [.message tmp])
      | flow => flow).All fun s' => ∃ notes', Noted world s' notes' := by
  have hnone : ¬(Note.mk channelName valueInfo none).Registers → ∃ notes',
      Noted world ((s.notify world channelName valueInfo none).logged [.message tmp]) notes' :=
    fun hnot => ⟨_, @Noted.notify world s notes h s.objects s.channels
      ⟨channelName, valueInfo, none⟩ (fun _ _ hget => hget) (fun hregisters =>
        absurd hregisters hnot) tmp hread⟩
  unfold handleUpdate
  by_cases hregisted : s.objects.isObjectRegisted channelName = false
  · rw [if_pos hregisted]
    cases hcreate : world.create valueInfo with
    | none =>
      refine hnone fun hregisters => ?_
      have hsome := @create_isSome world valueInfo hregisters.2.1 hregisters.2.2
      rw [hcreate] at hsome
      cases hsome
    | some channel =>
      simp only [List.length_append, List.length_singleton, Nat.add_sub_cancel]
      cases hregister : s.objects.registerData (some s.channels.length) channelName with
      | ok objects =>
        obtain ⟨hkept, hnew⟩ := getObject_of_registerData hregisted hregister
        exact ⟨_, @Noted.notify world s notes h objects (s.channels ++ [channel])
          ⟨channelName, valueInfo, some s.channels.length⟩ hkept
          (fun hregisters => ⟨_, rfl, hnew hregisters.1⟩) tmp hread⟩
      | throws message objects =>
        have hstep : s.objects.step [] (.data (some s.channels.length) channelName) =
          .throws message objects := RegisterOutcome.ofOutcome_eq_throws.2 hregister
        obtain rfl := ObjectManager.step_throws hstep
        exact ⟨notes, h.congr rfl rfl rfl⟩
      | crash => trivial
  · rw [if_neg hregisted]
    cases hdata : s.getData channelName with
    | none =>
      split_ifs with htype
      · exact hnone fun hregisters => hregisters.2.2 htype
      · trivial
    | some object =>
      dsimp only
      cases s.channels[object]?.bind (assign (world.io s.log) valueInfo) with
      | none => trivial
      | some channel =>
        exact ⟨_, @Noted.notify world s notes h s.objects (s.channels.set object channel)
          ⟨channelName, valueInfo, some object⟩ (fun _ _ hget => hget)
          (fun _ => ⟨object, rfl, getObject_of_getData hdata⟩) tmp hread⟩

/-! ## Whatever is received -/

theorem noted_handleOther (h : Noted world s notes) {tmp : List Str}
    (hread : readUpdate world.clib tmp = .other) :
    (handleOther world s tmp).All fun s' => ∃ notes', Noted world s' notes' := by
  have hlogged : ∀ es : List ClientEvent, messagesOf es = [] → noticesOf es = [] →
      ∀ s' : SubscriberClient, s'.objects = s.objects → s'.log = s.log →
        ∃ notes', Noted world (s'.logged (es ++ [.message tmp])) notes' := by
    intro es hmessages hnotices s' hobjects hlog
    have hsame : Noted world s' notes :=
      h.congr hobjects (congrArg messagesOf hlog) (congrArg noticesOf hlog)
    refine ⟨notes, hsame.logged ?_ ?_⟩
    · have htmp : messagesOf (es ++ [.message tmp]) = messagesOf es ++ [tmp] :=
        List.filterMap_append
      rw [htmp, hmessages, List.nil_append, readsOf, List.filterMap_cons, hread]
      rfl
    · rw [noticesOf_append, hnotices]
      rfl
  rcases tmp with _ | ⟨command, _ | ⟨nodeName, _ | ⟨third, rest⟩⟩⟩
  · exact ⟨notes, h⟩
  · exact ⟨notes, h⟩
  · exact ⟨notes, h⟩
  · unfold handleOther
    by_cases hsuccess : command = "Subscribe".toList ∧ nodeName = "Success".toList
    · dsimp only
      rw [if_pos hsuccess]
      exact hlogged [] rfl rfl _ rfl rfl
    · dsimp only
      rw [if_neg hsuccess]
      cases rest with
      | nil => exact ⟨notes, h⟩
      | cons nodeNames rest =>
        dsimp only
        by_cases hlist : command = "ChannelList".toList
        · rw [if_pos hlist]
          cases Converter.split nodeNames ',' with
          | none => trivial
          | some subNodes =>
            refine hlogged _ (messagesOf_map (fun _ => rfl) _) ?_ s rfl rfl
            simp [noticesOf]
        · rw [if_neg hlist]
          exact ⟨notes, h⟩

theorem noted_handle (h : Noted world s notes) (data : Str) :
    (handle world s data).All fun s' => ∃ notes', Noted world s' notes' := by
  unfold handle
  split
  · trivial
  · split
    · exact ⟨notes, h⟩
    · rename_i hread
      exact noted_handleUpdate h hread
    · rename_i hread
      exact noted_handleOther h hread

theorem noted_handleAll (datas : List Str) :
    ∀ {s : SubscriberClient}, (∃ notes, Noted world s notes) →
      (handleAll world datas s).All fun s' => ∃ notes', Noted world s' notes' := by
  induction datas with
  | nil => exact fun h => h
  | cons data datas ih =>
    rintro s ⟨notes, h⟩
    have hhandle := @noted_handle world s notes h data
    rw [handleAll]
    generalize handle world s data = flow at hhandle
    cases flow with
    | next s' => exact ih hhandle
    | brk s' => exact hhandle
    | ret s' => exact hhandle
    | crash => trivial

theorem noted_sendAll (datas : List Str) :
    ∀ {s : SubscriberClient}, Noted world s notes →
      Noted world (sendAll world datas s).1 notes := by
  induction datas with
  | nil => exact fun h => h
  | cons data datas ih =>
    intro s h
    rw [sendAll]
    split_ifs
    · exact ih (h.sends [data])
    · exact h.sends [data]

theorem noted_subscribeChannelHandler (h : Noted world s notes) :
    Noted world (subscribeChannelHandler world s).1 notes := by
  unfold subscribeChannelHandler
  generalize hs' : ({ s with
    clock := s.clock + 1
    subscribeChannels := s.subscribeChannels.requested (world.time s.clock) } :
      SubscriberClient) = s'
  have hasked : Noted world s' notes := by
    rw [← hs']
    exact h.congr rfl rfl rfl
  have hsends := @noted_sendAll world notes (batches 0 [] s.dataSendList) _
    (hasked.sends (batches 0 [] (s.subscribeChannels.requests (world.time s.clock))))
  simp only [hs']
  generalize sendAll world (batches 0 [] s.dataSendList) _ = result at hsends
  obtain ⟨s'', ok⟩ := result
  cases ok with
  | true => exact hsends.congr rfl rfl rfl
  | false => exact hsends

theorem noted_again (h : Noted world s notes) :
    (again world s).All fun s' => ∃ notes', Noted world s' notes' := by
  have hsends := noted_subscribeChannelHandler h
  unfold again
  generalize subscribeChannelHandler world s = result at hsends
  obtain ⟨s', ok⟩ := result
  cases ok with
  | true => exact ⟨notes, hsends.congr rfl rfl rfl⟩
  | false => exact ⟨notes, hsends⟩

theorem noted_round (h : Noted world s notes) (len : ℕ) :
    (round world s len).All fun s' => ∃ notes', Noted world s' notes' := by
  unfold SubscriberClient.round
  cases Converter.split s.reader.text ';' with
  | none => trivial
  | some datas =>
    dsimp only
    generalize (if s.reader.full len then datas.length - 1 else datas.length) = handled
    have hall := @noted_handleAll world (datas.take handled) s ⟨notes, h⟩
    generalize handleAll world (datas.take handled) s = flow at hall
    cases flow with
    | next s' =>
      obtain ⟨notes', hnoted⟩ := hall
      dsimp only
      split_ifs
      · trivial
      · exact ⟨notes', noted_subscribeChannelHandler (hnoted.congr rfl rfl rfl)⟩
    | brk s' =>
      obtain ⟨notes', hnoted⟩ := hall
      exact noted_again hnoted
    | ret s' => exact hall
    | crash => trivial

/-- Whatever is received. -/
theorem noted_onReceive (h : Noted world s notes) (e : RecvEvent) :
    (onReceive world s e).All fun s' => ∃ notes', Noted world s' notes' := by
  unfold onReceive
  generalize receive s.recvBlockMode s.isAlive e = received
  obtain ⟨received, isAlive⟩ := received
  cases received with
  | bytes data =>
    have hwritten : Noted world { s with isAlive := isAlive, reader := s.reader.write data }
        notes := h.congr rfl rfl rfl
    exact noted_round hwritten data.length
  | zero =>
    dsimp only
    split_ifs
    · exact noted_again ((h.sends ["HeartBeat;".toList]).congr rfl rfl rfl)
    · exact ⟨notes, (h.sends ["HeartBeat;".toList]).congr rfl rfl rfl⟩
    · exact noted_again (h.congr rfl rfl rfl)
  | negative => exact ⟨notes, h.congr rfl rfl rfl⟩

end SubscriberClient

/-! ## Runs of a server and a client -/

/-- The note is the one of the message : it has the name of the channel, what was sent, and the
object that is registered under the name. -/
structure Note.IsOf (s : SubscriberClient) (n : Note) (m : UpdateMessage) : Prop where
  channelName : n.channelName = m.channelName
  value : m.Says n.valueInfo
  object : ∃ object, n.object = some object ∧
    s.objects.getObject m.channelName = some (.data object)

namespace ChannelLink

open UpdateMessage LinkMessage SubscriberClient

variable {clib : CLib} {world : ClientWorld} {socketParam : ℕ} {c : ChannelLink}

/-- An update is read as what it says. -/
theorem readUpdate_fields (clib : CLib) {u : Update} (hu : u.Tellable)
    (hvalue : u.value ≠ .inr ['%']) : ∃ valueInfo,
      readUpdate clib (LinkMessage.update u).fields = .update u.channelName valueInfo ∧
        u.message.Says valueInfo := by
  obtain ⟨tmp, valueInfo, hsplit, hread, hsaid⟩ := hu.wellFormed.exists_says hvalue clib
  have hfields := @SubscriberClient.split_message u.text hu.isServerMessage.noBlank u.fields
    (Converter.convertToString u.t) hu.plain.splitOn_text (Converter.convertToString_ne_nil _)
  rw [← hu.plain.splitOn_text] at hfields
  obtain rfl := Option.some.inj (hsplit.symm.trans hfields)
  exact ⟨valueInfo, hread, hsaid⟩

/-- The updates among the messages are read as what they say. -/
theorem reads_of_tellable (clib : CLib) {messages : List LinkMessage}
    (hmessages : ∀ m ∈ messages, m.Tellable)
    (hvalue : ∀ m ∈ updates messages, m.value ≠ .inr ['%']) :
    List.Forall₂ (fun r m => r.1 = m.channelName ∧ m.channelName ≠ [] ∧ UpdateMessage.Says m r.2)
      (readsOf clib (messages.map LinkMessage.fields)) (updates messages) := by
  induction messages with
  | nil => exact .nil
  | cons m messages ih =>
    rw [List.forall_mem_cons] at hmessages
    cases m with
    | success channelName =>
      have hread : readUpdate clib (LinkMessage.success channelName).fields = .other := by
        rw [fields_success hmessages.1]
        rfl
      rw [List.map_cons, readsOf, List.filterMap_cons, hread]
      exact ih hmessages.2 hvalue
    | update u =>
      have hupdates : updates (.update u :: messages) = u.message :: updates messages := rfl
      rw [hupdates, List.forall_mem_cons] at hvalue
      have hu : u.Tellable := hmessages.1
      obtain ⟨valueInfo, hread, hsaid⟩ := readUpdate_fields clib hu hvalue.1
      have hname : u.channelName ≠ [] := by
        intro heq
        simpa [heq] using hu.name.1
      rw [List.map_cons, readsOf, List.filterMap_cons, hread]
      exact .cons ⟨rfl, hname, hsaid⟩ (ih hmessages.2 hvalue.2)

theorem noted_step {c c' : ChannelLink} {e : ChannelEvent}
    (h : ∀ s, c.stream.client = some s → ∃ notes, Noted world s notes)
    (hstep : c.step clib world socketParam e = some c') :
    ∀ s, c'.stream.client = some s → ∃ notes, Noted world s notes := by
  cases e with
  | call call =>
    obtain ⟨server, -, rfl⟩ := Option.map_eq_some_iff.1 hstep
    exact h
  | answer channelName =>
    obtain rfl := Option.some.inj hstep
    exact h
  | receive data =>
    obtain ⟨stream, hstream, rfl⟩ := Option.map_eq_some_iff.1 hstep
    intro s' hs'
    unfold SubscriberStream.step at hstream
    cases hclient : c.stream.client with
    | none =>
      rw [hclient] at hstream
      cases hstream
    | some s =>
      obtain ⟨notes, hnoted⟩ := h s hclient
      have hreceived := noted_onReceive hnoted (.bytes data)
      simp only [hclient] at hstream
      split_ifs at hstream
      obtain rfl := Option.some.inj hstream
      generalize onReceive world s (.bytes data) = flow at hreceived hs'
      cases flow with
      | next s'' =>
        obtain rfl := Option.some.inj hs'
        exact hreceived
      | brk s'' => cases hs'
      | ret s'' => cases hs'
      | crash => cases hs'

/-- The calls that the client makes are those of the first updates that were sent, each made once
and in the order in which they were sent, with what was sent and the registered object. When nothing
is under way, these are all updates. -/
theorem notified_of_guard (clib : CLib) (world : ClientWorld) (socketParam : ℕ) (c : ChannelLink)
    (h : Reach (step clib world socketParam) Starts (Guard socketParam) c) :
    ∃ s notes told, c.stream.client = some s ∧ told <+: updates c.sent ∧
      (c.stream.rest = [] → told = updates c.sent) ∧
      List.Forall₂ (Note.IsOf s) notes told ∧
      noticesOf s.log = notes.flatMap (Note.events world) := by
  have hnoted : ∀ s, c.stream.client = some s → ∃ notes, Noted world s notes := by
    refine h.invariant
      (I := fun c => ∀ s, c.stream.client = some s → ∃ notes, Noted world s notes) ?_ ?_
    · rintro c ⟨-, -, -, s, hclient, -, -, hlog⟩ s' hs'
      obtain rfl := Option.some.inj (hclient.symm.trans hs')
      exact ⟨[], noted_of_log hlog⟩
    · exact fun c e c' hc _ hstep => noted_step hc hstep
  obtain ⟨s, carried, done, htold⟩ := exists_told h
  obtain ⟨notes, hnotes⟩ := hnoted s htold.framed.client
  have hprefix : updates done <+: updates c.sent := htold.initial.filterMap _
  have hvalue : ∀ m ∈ updates done, m.value ≠ .inr ['%'] := by
    intro m hm
    obtain ⟨pre, post, heq⟩ := List.append_of_mem hm
    have hpre : pre ++ [m] <+: updates done := ⟨post, by rw [heq, List.append_assoc]; rfl⟩
    exact (htold.followed pre m (hpre.trans hprefix)).1
  have hreads := reads_of_tellable world.clib
    (fun m hm => htold.tellable m (htold.initial.subset hm)) hvalue
  rw [← htold.messages, hnotes.reads, List.forall₂_map_left_iff] at hreads
  have hboth := (List.forall₂_and_left notes (updates done)).2 ⟨hnotes.objects, hreads⟩
  refine ⟨s, notes, updates done, htold.framed.client, hprefix, fun hrest => ?_,
    hboth.imp fun n m hnm => ?_, hnotes.notices⟩
  · rw [htold.done_eq hrest]
  · obtain ⟨hobject, hname, hne, hsaid⟩ := hnm
    have hname : n.channelName = m.channelName := hname
    refine ⟨hname, hsaid, ?_⟩
    rw [← hname]
    refine hobject ⟨hname ▸ hne, ?_, ?_⟩
    · rw [hsaid.accessMode, Update.accessMode]
      split_ifs <;> simp
    · rw [hsaid.dataType, Update.dataType]
      split <;> simp

/-- A client with a function for the channel `/a`. -/
def world_a : ClientWorld :=
  { ClientWorld.quiet with callbacks := Std.TreeMap.insert ∅ "-a".toList [7] }

/-- The function is called with the string that was sent. -/
theorem notified_of_guard_a : ∃ (c : ChannelLink) (s : SubscriberClient)
    (valueInfo : IckStormValueInfo), c.stream.client = some s ∧
      updates c.sent = [update_x.message] ∧
      noticesOf s.log = [.callBack 7 "/a".toList valueInfo] ∧ valueInfo.sValue = ['x'] := by
  obtain ⟨server, h⟩ := reach_a world_a
  have h := h.next (e := ChannelEvent.receive "Update:/a:W:S:x:0;".toList) (by
    rintro _ ⟨⟩
    exact Or.inl ⟨"Update:/a:W:S:x:0".toList, rfl⟩) rfl
  obtain ⟨s, notes, told, hclient, -, hall, hnotes, hnotices⟩ :=
    notified_of_guard Update.clib_zero world_a 1 _ h
  rw [hall rfl] at hnotes
  obtain ⟨n, notes', hn, hnil, rfl⟩ := List.forall₂_cons_right_iff.1 hnotes
  obtain rfl := List.forall₂_nil_right_iff.1 hnil
  have hfunctions : world_a.getSubscriberCallBackList n.channelName = [7] := by
    rw [hn.channelName]
    rfl
  have hsubscribers : world_a.getSubscriberList n.channelName = [] := by
    rw [hn.channelName]
    rfl
  refine ⟨_, s, n.valueInfo, hclient, rfl, ?_, hn.value.string _ rfl⟩
  obtain ⟨object, hobject, -⟩ := hn.object
  rw [hnotices, List.flatMap_singleton, Note.events, hfunctions, hsubscribers, hobject,
    hn.channelName]
  rfl

end ChannelLink

end Ick
