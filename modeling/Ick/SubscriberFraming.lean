import Ick.Delimited
import Ick.Reach
import Ick.SubscriberClient

/-!
# Messages and segments at the subscriber client

The client's receive loop splits its buffer at `;`. If the bytes received have filled the
buffer, the last piece is carried over to the next round, otherwise it is handled like the
others. So a message is cut in two wherever a segment that does not fill the buffer ends
inside it, and fused with the next one where a full buffer ends at its semicolon. An update
on which an exception is thrown takes the rest of its round with it, and one whose cast
fails ends the program.

`Cut` says what a segment must be like for the messages to survive all this; in every run
of segments like that the messages handled are those sent (`handled_of_cut`). Whether a
message is handled depends on what is registered under its channel's name, `kindOf`, which
the messages before it may have changed (`kindAfter`).
-/

namespace Ick

/-! ## What a message finds registered -/

/-- The access mode and the data type of a channel object; `none` for an object that is no
channel. -/
abbrev Kind := Option (AccessMode × DataType)

/-- The access mode and the data type that the class of a channel sets. -/
def Channel.kind (c : Channel) : AccessMode × DataType := (c.accessMode, c.dataType)

/-- What is registered under a name, where the channel objects are those of a list. -/
def kindOf (objects : ObjectManager) (channels : List Channel) (name : Str) : Option Kind :=
  (objects.getObject name).map fun
    | .control _ => none
    | .data object => channels[object]?.map Channel.kind

/-- A message of the server : an update with six fields, or the answer to a request, without
zero bytes, blanks, and semicolons, and of fewer than 4000 bytes. -/
structure IsServerMessage (message : Str) : Prop where
  noZero : '\x00' ∉ message
  noBlank : ' ' ∉ message
  noSemicolon : ';' ∉ message
  short : message.length < 4000
  fields : (∃ channelName accessMode dataType value timeStamp, message.splitOn ':' =
      ["Update".toList, channelName, accessMode, dataType, value, timeStamp]) ∨
    ∃ channelName, message.splitOn ':' = ["Subscribe".toList, "Success".toList, channelName]

/-- The client accepts an update of a channel with this mode and type : nothing is registered
under its name, and the name can be registered if an object is created; or the object under
its name is of the read-write class of that type, unless the type is unknown. -/
def Accepts (kind : Option Kind) (channelName : Str) (accessMode : AccessMode)
    (dataType : DataType) : Prop :=
  match kind with
  | none => accessMode = .DEFAULT ∨ dataType = .UNKNOWN ∨ channelName = [] ∨
      IsChannelName channelName
  | some kind => dataType = .UNKNOWN ∨ kind = some (.READWRITE, dataType)

/-- The message is handled to its end where `kinds` is registered : its last field is not
empty, and an update has a value that can be decoded, and is accepted. -/
def Deliverable (kinds : Str → Option Kind) : List Str → Prop
  | [_, channelName, accessMode, dataType, value, timeStamp] =>
    value ≠ ['%'] ∧ timeStamp ≠ [] ∧
      Accepts (kinds channelName) channelName (accessModeOf accessMode) (dataTypeOf dataType)
  | [_, _, channelName] => channelName ≠ []
  | _ => True

/-- What is registered after an update with this mode and type. -/
def kindAfterUpdate (kinds : Str → Option Kind) (channelName : Str) (accessMode : AccessMode)
    (dataType : DataType) : Str → Option Kind :=
  if kinds channelName = none ∧ channelName ≠ [] ∧ accessMode ≠ .DEFAULT ∧
      dataType ≠ .UNKNOWN then
    Function.update kinds channelName (some (some (accessMode, dataType)))
  else kinds

/-- What is registered after the message. -/
def kindAfter (kinds : Str → Option Kind) : List Str → Str → Option Kind
  | [_, channelName, accessMode, dataType, _, _] =>
    kindAfterUpdate kinds channelName (accessModeOf accessMode) (dataTypeOf dataType)
  | _ => kinds

/-- The messages are handled to their ends, one after the other. -/
def AllDeliverable : (Str → Option Kind) → List (List Str) → Prop
  | _, [] => True
  | kinds, fields :: messages =>
    Deliverable kinds fields ∧ AllDeliverable (kindAfter kinds fields) messages

/-- What is registered after the messages. -/
def kindsAfter (kinds : Str → Option Kind) (messages : List (List Str)) : Str → Option Kind :=
  messages.foldl kindAfter kinds

/-- The fields of a piece, if it is a message. -/
def fieldsOf (data : Str) : Option (List Str) :=
  if data = [] ∨ data = [';'] then none else some (data.splitOn ':')

/-! ## Segments of a stream -/

/-- A connection : the handler, unless it has run into undefined behaviour or closed the
connection, and the bytes that are still to come. -/
structure SubscriberStream where
  client : Option SubscriberClient
  rest : Str

namespace SubscriberStream

/-- The handler receives a segment of the stream, not empty and not longer than the room
that it offers. -/
def step (world : ClientWorld) (c : SubscriberStream) (data : Str) :
    Option SubscriberStream :=
  match c.client with
  | none => none
  | some s =>
    if data ≠ [] ∧ data.length ≤ s.reader.room ∧ data <+: c.rest then
      some ⟨match s.onReceive world (.bytes data) with
        | .next s => some s
        | _ => none, c.rest.drop data.length⟩
    else none

/-- A handler that waits for the first bytes, with objects that exist, and a stream of
messages. -/
def Sends (messages : List Str) (c : SubscriberStream) : Prop :=
  (∃ s, c.client = some s ∧ s.Allocated ∧ s.reader = .new ∧ s.log = []) ∧
    c.rest = messages.flatMap (· ++ [';'])

/-- The condition on a segment. -/
def Cut (c : SubscriberStream) (data : Str) : Prop :=
  ∀ s, c.client = some s →
    let text := s.reader.strTmp ++ data
    let kinds := kindOf s.objects s.channels
    if data.length = s.reader.room then
      ¬[';'] <:+ text ∧ AllDeliverable kinds ((text.splitOn ';').dropLast.filterMap fieldsOf)
    else
      Delimited.Meet ';' text (c.rest.drop data.length) ∧
        AllDeliverable kinds ((text.splitOn ';').filterMap fieldsOf)

/-- The messages handled are the first ones sent, and all of them when the stream has
ended. -/
def Handled (messages : List Str) (c : SubscriberStream) : Prop :=
  ∃ s, c.client = some s ∧ s.messages <+: messages.map (·.splitOn ':') ∧
    (c.rest = [] → s.messages = messages.map (·.splitOn ':'))

end SubscriberStream

/-! ## One message -/

section Kinds

variable {objects : ObjectManager} {channels : List Channel}

theorem kindOf_eq_none {name : Str} :
    kindOf objects channels name = none ↔ objects.getObject name = none := by
  simp [kindOf]

/-- A new object that is not registered is not seen. -/
theorem kindOf_append (h : ∀ name object, objects.getObject name = some (.data object) →
    object < channels.length) (c : Channel) :
    kindOf objects (channels ++ [c]) = kindOf objects channels := by
  funext name
  unfold kindOf
  cases hget : objects.getObject name with
  | none => rfl
  | some managed =>
    cases managed with
    | control object => rfl
    | data object => simp only [Option.map_some, List.getElem?_append_left (h name object hget)]

/-- A new object is seen under its name. -/
theorem kindOf_update {objects' : ObjectManager} {channelName : Str} {c : Channel}
    (h : ∀ name object, objects.getObject name = some (.data object) → object < channels.length)
    (hget : objects'.getObject =
      Function.update objects.getObject channelName (some (.data channels.length))) :
    kindOf objects' (channels ++ [c]) =
      Function.update (kindOf objects channels) channelName (some (some c.kind)) := by
  funext name
  by_cases hname : name = channelName
  · subst hname
    simp [kindOf, hget]
  · rw [Function.update_of_ne hname, ← kindOf_append h c, kindOf, hget,
      Function.update_of_ne hname, kindOf]

/-- An object keeps its kind when it is replaced by one of the same class. -/
theorem kindOf_set {object : ℕ} {c c' : Channel} (hc : channels[object]? = some c)
    (hkind : c'.kind = c.kind) :
    kindOf objects (channels.set object c') = kindOf objects channels := by
  funext name
  unfold kindOf
  cases hget : objects.getObject name with
  | none => rfl
  | some managed =>
    cases managed with
    | control object' => rfl
    | data object' =>
      simp only [Option.map_some, Option.some.injEq]
      by_cases hobject : object = object'
      · subst hobject
        have hlt : object < channels.length := (List.getElem?_eq_some_iff.1 hc).1
        rw [List.getElem?_set_self hlt, hc, Option.map_some, Option.map_some, hkind]
      · rw [List.getElem?_set_ne hobject]

/-- The object is created with the mode and the type of the message. -/
theorem kind_of_create {world : ClientWorld} {valueInfo : IckStormValueInfo} :
    (world.create valueInfo).map Channel.kind =
      if valueInfo.accessMode ≠ .DEFAULT ∧ valueInfo.dataType ≠ .UNKNOWN then
        some (valueInfo.accessMode, valueInfo.dataType)
      else none := by
  unfold ClientWorld.create
  cases valueInfo.accessMode <;> cases valueInfo.dataType <;> rfl

/-- An object of the read-write class of the message's type is assigned to, and keeps its
class; with an unknown type any object stays as it is. -/
theorem exists_assign {io : DriverIO} {valueInfo : IckStormValueInfo} {c : Channel}
    (h : valueInfo.dataType = .UNKNOWN ∨ c.kind = (.READWRITE, valueInfo.dataType)) :
    ∃ c', assign io valueInfo c = some c' ∧ c'.kind = c.kind := by
  rcases h with h | h
  · refine ⟨c, ?_, rfl⟩
    cases c <;> simp [assign, h]
  · obtain ⟨hmode, htype⟩ := Prod.mk.inj h
    cases c with
    | readOnlyInt d => cases hmode
    | readOnlyDouble d => cases hmode
    | readOnlyString d => cases hmode
    | readWriteInt d =>
      refine ⟨.readWriteInt (d.setValue io valueInfo.iValue), ?_, rfl⟩
      simp only [assign, ← htype, Channel.dataType]
    | readWriteDouble d =>
      refine ⟨.readWriteDouble (d.setValue io valueInfo.dValue), ?_, rfl⟩
      simp only [assign, ← htype, Channel.dataType]
    | readWriteString d =>
      refine ⟨.readWriteString (d.setValue io valueInfo.sValue), ?_, rfl⟩
      simp only [assign, ← htype, Channel.dataType]

end Kinds

namespace SubscriberClient

variable {world : ClientWorld} {s : SubscriberClient}

/-- The client has gone from `s` to `s'` by handling these messages to their ends, and this is
registered now. -/
structure Handles (s : SubscriberClient) (kinds : Str → Option Kind)
    (messages : List (List Str)) (s' : SubscriberClient) : Prop where
  kinds : kindOf s'.objects s'.channels = kinds
  allocated : s'.Allocated
  reader : s'.reader = s.reader
  recvBlockMode : s'.recvBlockMode = s.recvBlockMode
  messages : s'.messages = s.messages ++ messages

theorem Handles.refl (h : s.Allocated) : Handles s (kindOf s.objects s.channels) [] s :=
  ⟨rfl, h, rfl, rfl, (List.append_nil _).symm⟩

theorem Handles.trans {s' s'' : SubscriberClient} {kinds kinds' : Str → Option Kind}
    {messages messages' : List (List Str)} (h : Handles s kinds messages s')
    (h' : Handles s' kinds' messages' s'') : Handles s kinds' (messages ++ messages') s'' := by
  refine ⟨h'.kinds, h'.allocated, h'.reader.trans h.reader,
    h'.recvBlockMode.trans h.recvBlockMode, ?_⟩
  rw [h'.messages, h.messages, List.append_assoc]

theorem Handles.unchanged {s' s'' : SubscriberClient} {kinds : Str → Option Kind}
    {messages : List (List Str)} (h : Handles s kinds messages s') (h' : Unchanged s' s'') :
    Handles s kinds messages s'' := by
  refine ⟨?_, ?_, h'.reader.trans h.reader, h'.recvBlockMode.trans h.recvBlockMode,
    h'.messages.trans h.messages⟩
  · rw [h'.objects, h'.channels, h.kinds]
  · unfold Allocated
    rw [h'.objects, h'.channels]
    exact h.allocated

theorem Handles.message {s' : SubscriberClient} {kinds : Str → Option Kind}
    (h : Handles s kinds [] s') (tmp : List Str) :
    Handles s kinds [tmp] (s'.logged [.message tmp]) :=
  ⟨h.kinds, h.allocated, h.reader, h.recvBlockMode, by
    rw [messages_logged, h.messages, List.append_nil]
    rfl⟩

/-- A new object that is not registered. -/
theorem handles_unregistered (hs : s.Allocated) (channel : Channel) :
    Handles s (kindOf s.objects s.channels) []
      { s with channels := s.channels ++ [channel] } := by
  refine ⟨kindOf_append hs channel, fun name object hget => ?_, rfl, rfl,
    (List.append_nil _).symm⟩
  rw [List.length_append]
  exact Nat.lt_add_right _ (hs name object hget)

/-- A new object that is registered under a name. -/
theorem handles_registered (hs : s.Allocated) (channel : Channel) {objects : ObjectManager}
    {channelName : Str} (hget : objects.getObject =
      Function.update s.objects.getObject channelName (some (.data s.channels.length))) :
    Handles s (Function.update (kindOf s.objects s.channels) channelName
      (some (some channel.kind))) []
        { s with channels := s.channels ++ [channel], objects := objects } := by
  refine ⟨kindOf_update hs hget, fun name object hobject => ?_, rfl, rfl,
    (List.append_nil _).symm⟩
  rw [hget] at hobject
  rw [List.length_append, List.length_singleton]
  by_cases hname : name = channelName
  · rw [hname, Function.update_self, Option.some.injEq, ManagedObject.data.injEq] at hobject
    omega
  · rw [Function.update_of_ne hname] at hobject
    exact Nat.lt_succ_of_lt (hs name object hobject)

/-- An update of a channel under whose name nothing is registered. -/
theorem handleUpdate_of_free (hs : s.Allocated) {channelName : Str}
    {valueInfo : IckStormValueInfo} (hfree : s.objects.getObject channelName = none)
    (h : Accepts none channelName valueInfo.accessMode valueInfo.dataType) :
    ∃ s', handleUpdate world s channelName valueInfo = .next s' ∧
      Handles s (kindAfterUpdate (kindOf s.objects s.channels) channelName valueInfo.accessMode
        valueInfo.dataType) [] s' := by
  have hkind : kindOf s.objects s.channels channelName = none := kindOf_eq_none.2 hfree
  have hcreated := @kind_of_create world valueInfo
  cases hcreate : world.create valueInfo with
  | none =>
    have hnot : ¬(valueInfo.accessMode ≠ .DEFAULT ∧ valueInfo.dataType ≠ .UNKNOWN) := by
      intro hboth
      rw [hcreate, if_pos hboth] at hcreated
      cases hcreated
    refine ⟨s.notify world channelName valueInfo none, ?_, ?_⟩
    · rw [handleUpdate, if_pos (isObjectRegisted_eq_false.2 hfree)]
      simp only [hcreate]
    · rw [kindAfterUpdate, if_neg fun hall => hnot hall.2.2]
      exact (Handles.refl hs).unchanged (unchanged_notify _ _ _ _)
  | some channel =>
    have hboth : valueInfo.accessMode ≠ .DEFAULT ∧ valueInfo.dataType ≠ .UNKNOWN := by
      by_contra hnot
      rw [hcreate, if_neg hnot] at hcreated
      cases hcreated
    rw [hcreate, if_pos hboth] at hcreated
    have hchannel : channel.kind = (valueInfo.accessMode, valueInfo.dataType) :=
      Option.some.inj hcreated
    rcases h with h | h | rfl | hname
    · exact absurd h hboth.1
    · exact absurd h hboth.2
    · -- the object is created and not registered
      refine ⟨({ s with channels := s.channels ++ [channel] } : SubscriberClient).notify world []
        valueInfo (some s.channels.length), ?_, ?_⟩
      · rw [handleUpdate, if_pos (isObjectRegisted_eq_false.2 hfree)]
        simp only [hcreate, ObjectManager.registerData, if_true, List.length_append,
          List.length_singleton, Nat.add_sub_cancel]
      · rw [kindAfterUpdate, if_neg fun hall => hall.2.1 rfl]
        exact (handles_unregistered hs channel).unchanged (unchanged_notify _ _ _ _)
    · obtain ⟨objects, hget, hupdate⟩ := handleUpdate_first hname hfree hcreate
      have hne : channelName ≠ [] := by
        rintro rfl
        simpa using hname.1
      rw [kindAfterUpdate, if_pos ⟨hkind, hne, hboth⟩, ← hchannel]
      exact ⟨_, hupdate, (handles_registered hs channel hget).unchanged (unchanged_notify _ _ _ _)⟩

/-- An update of a channel under whose name an object is registered. -/
theorem handleUpdate_of_registed (hs : s.Allocated) {channelName : Str}
    {valueInfo : IckStormValueInfo} {kind : Kind}
    (hkind : kindOf s.objects s.channels channelName = some kind)
    (h : Accepts (some kind) channelName valueInfo.accessMode valueInfo.dataType) :
    ∃ s', handleUpdate world s channelName valueInfo = .next s' ∧
      Handles s (kindOf s.objects s.channels) [] s' := by
  unfold kindOf at hkind
  cases hget : s.objects.getObject channelName with
  | none => simp [hget] at hkind
  | some managed =>
    have hregisted : ¬s.objects.isObjectRegisted channelName = false := by
      rw [isObjectRegisted_eq_false, hget]
      exact Option.some_ne_none _
    cases managed with
    | control object =>
      rw [hget, Option.map_some, Option.some.injEq] at hkind
      subst hkind
      refine ⟨s.notify world channelName valueInfo none, ?_,
        (Handles.refl hs).unchanged (unchanged_notify _ _ _ _)⟩
      rw [handleUpdate, if_neg hregisted]
      simp only [getData, hget]
      refine if_pos (h.resolve_right fun hkind => ?_)
      cases hkind
    | data object =>
      rw [hget, Option.map_some, Option.some.injEq] at hkind
      have hchannel := List.getElem?_eq_getElem (hs channelName object hget)
      simp only [hchannel, Option.map_some] at hkind
      subst hkind
      obtain ⟨channel', hassign, hkind'⟩ :=
        @exists_assign (world.io s.log) valueInfo _ (h.imp_right Option.some.inj)
      rw [handleUpdate_later hget hchannel]
      simp only [hassign]
      refine ⟨_, rfl, Handles.unchanged ?_ (unchanged_notify _ _ _ _)⟩
      refine ⟨kindOf_set hchannel hkind', fun name object' hget' => ?_, rfl, rfl,
        (List.append_nil _).symm⟩
      rw [List.length_set]
      exact hs name object' hget'

/-- An update that is accepted is handled to its end. -/
theorem handleUpdate_eq (hs : s.Allocated) {channelName : Str} {valueInfo : IckStormValueInfo}
    (h : Accepts (kindOf s.objects s.channels channelName) channelName valueInfo.accessMode
      valueInfo.dataType) :
    ∃ s', handleUpdate world s channelName valueInfo = .next s' ∧
      Handles s (kindAfterUpdate (kindOf s.objects s.channels) channelName valueInfo.accessMode
        valueInfo.dataType) [] s' := by
  cases hkind : kindOf s.objects s.channels channelName with
  | none =>
    rw [hkind] at h
    exact handleUpdate_of_free hs (kindOf_eq_none.1 hkind) h
  | some kind =>
    rw [hkind] at h
    rw [kindAfterUpdate,
      if_neg fun hall => absurd (hkind.symm.trans hall.1) (Option.some_ne_none _)]
    exact handleUpdate_of_registed hs hkind h

/-- A message whose last field is not empty is split into its fields. -/
theorem split_message {data : Str} (hblank : ' ' ∉ data) {init : List Str} {last : Str}
    (hfields : data.splitOn ':' = init ++ [last]) (hlast : last ≠ []) :
    Converter.split data ':' = some (init ++ [last]) := by
  rw [Converter.split_of_noBlank hblank, hfields, Converter.tidy_concat hlast]

/-- A message that is deliverable is handled to its end. -/
theorem handle_message (hs : s.Allocated) {data : Str} (hdata : IsServerMessage data)
    (h : Deliverable (kindOf s.objects s.channels) (data.splitOn ':')) :
    ∃ s', handle world s data = .next s' ∧
      Handles s (kindAfter (kindOf s.objects s.channels) (data.splitOn ':'))
        [data.splitOn ':'] s' := by
  rcases hdata.fields with ⟨channelName, accessMode, dataType, value, timeStamp, hfields⟩ |
    ⟨channelName, hfields⟩
  · rw [hfields] at h ⊢
    obtain ⟨hvalue, htime, haccepts⟩ := h
    have hsplit := @split_message data hdata.noBlank
      ["Update".toList, channelName, accessMode, dataType, value] timeStamp hfields htime
    rw [List.cons_append, List.cons_append, List.cons_append, List.cons_append,
      List.cons_append, List.nil_append] at hsplit
    unfold handle
    simp only [hsplit, readUpdate_six world.clib hvalue]
    obtain ⟨s', heq, hhandles⟩ := @handleUpdate_eq world s hs channelName
      { accessMode := accessModeOf accessMode
        dataType := dataTypeOf dataType
        timeStamp := Converter.atoi timeStamp
        iValue := Converter.atoi (decodeLoop value)
        dValue := world.clib.atof (decodeLoop value)
        sValue := decodeLoop value } haccepts
    simp only [heq]
    exact ⟨_, rfl, hhandles.message _⟩
  · rw [hfields] at h ⊢
    have hsplit := @split_message data hdata.noBlank ["Subscribe".toList, "Success".toList]
      channelName hfields h
    rw [List.cons_append, List.cons_append, List.nil_append] at hsplit
    unfold handle
    simp only [hsplit, readUpdate, handleOther, if_true, and_self]
    have hsuccess : Handles s (kindOf s.objects s.channels) []
        { s with subscribeChannels := s.subscribeChannels.success channelName } :=
      ⟨rfl, hs, rfl, rfl, (List.append_nil _).symm⟩
    exact ⟨_, rfl, hsuccess.message _⟩

theorem fieldsOf_nil : fieldsOf [] = none := rfl

theorem fieldsOf_semicolon : fieldsOf [';'] = none := rfl

theorem fieldsOf_message {data : Str} (h : IsServerMessage data) :
    fieldsOf data = some (data.splitOn ':') := by
  refine if_neg ?_
  rintro (rfl | rfl)
  · rcases h.fields with ⟨_, _, _, _, _, hfields⟩ | ⟨_, hfields⟩ <;> cases hfields
  · exact h.noSemicolon (by simp)

/-- The pieces of a round that are messages are handled to their ends. -/
theorem handleAll_eq {datas : List Str}
    (hdatas : ∀ data ∈ datas, data = [] ∨ data = [';'] ∨ IsServerMessage data) :
    ∀ {s : SubscriberClient}, s.Allocated →
    AllDeliverable (kindOf s.objects s.channels) (datas.filterMap fieldsOf) →
    ∃ s', handleAll world datas s = .next s' ∧
      Handles s (kindsAfter (kindOf s.objects s.channels) (datas.filterMap fieldsOf))
        (datas.filterMap fieldsOf) s' := by
  induction datas with
  | nil => exact fun hs _ => ⟨_, rfl, .refl hs⟩
  | cons data datas ih =>
    rw [List.forall_mem_cons] at hdatas
    intro s hs h
    rcases hdatas.1 with rfl | rfl | hdata
    · exact ih hdatas.2 hs h
    · exact ih hdatas.2 hs h
    · rw [List.filterMap_cons, fieldsOf_message hdata] at h ⊢
      obtain ⟨s', heq, hhandles⟩ := @handle_message world s hs data hdata h.1
      obtain ⟨s'', heq', hhandles'⟩ := @ih hdatas.2 s' hhandles.allocated (by
        rw [hhandles.kinds]
        exact h.2)
      refine ⟨s'', ?_, ?_⟩
      · rw [handleAll, heq]
        exact heq'
      · rw [hhandles.kinds] at hhandles'
        exact hhandles.trans hhandles'

/-! ## One round -/

/-- The bytes received stand behind what was carried over. The pieces before the last one, or
all of them if the buffer is not full, are handled, and the last one of a full buffer is
carried over. -/
theorem onReceive_eq (hs : s.Allocated) {carried data : Str} {datas : List Str}
    (hreader : s.reader = .holding carried) (hzero : '\x00' ∉ carried ++ data)
    (hsplit : Converter.split (carried ++ data) ';' = some datas) (hne : datas ≠ [])
    {handled : List Str}
    (htake : datas.take (if data.length = s.reader.room then datas.length - 1 else datas.length) =
      handled)
    (hdatas : ∀ data ∈ handled, data = [] ∨ data = [';'] ∨ IsServerMessage data)
    (h : AllDeliverable (kindOf s.objects s.channels) (handled.filterMap fieldsOf)) :
    ∃ s', s.onReceive world (.bytes data) = .next s' ∧ s'.Allocated ∧
      s'.reader = .holding (if data.length = s.reader.room then datas.getLastD [] else []) ∧
      s'.recvBlockMode = s.recvBlockMode ∧
      s'.messages = s.messages ++ handled.filterMap fieldsOf := by
  have htext : (s.reader.write data).text = carried ++ data := by
    rw [hreader, Reader.text_write_holding hzero]
  have hfull : (s.reader.write data).full data.length = decide (data.length = s.reader.room) :=
    rfl
  obtain ⟨s', heq, hhandles⟩ := @handleAll_eq world handled hdatas
    { s with isAlive := true, reader := s.reader.write data } hs h
  have hround := @unchanged_subscribeChannelHandler world
    { s' with reader := s'.reader.carry data.length (datas.getLastD []) }
  refine ⟨_, ?_, ?_, hround.reader.trans ?_, hround.recvBlockMode.trans hhandles.recvBlockMode,
    hround.messages.trans hhandles.messages⟩
  · rw [onReceive, receive]
    simp only [round, htext, hsplit, hfull, decide_eq_true_eq, htake, heq, hne, and_false,
      if_false]
  · unfold Allocated
    rw [hround.objects, hround.channels]
    exact hhandles.allocated
  · change s'.reader.carry _ _ = _
    rw [Reader.carry_eq, hhandles.reader]
    rfl

end SubscriberClient

/-! ## A run of segments -/

namespace SubscriberStream

variable {world : ClientWorld} {messages : List Str} {c c' : SubscriberStream}

/-- The invariant : the handler carries over the beginning of the next message, and the
messages handled are those before it. -/
structure Framed (messages : List Str) (c : SubscriberStream) (s : SubscriberClient)
    (carried : Str) : Prop where
  client : c.client = some s
  allocated : s.Allocated
  reader : s.reader = .holding carried
  noSemicolon : ';' ∉ carried
  remaining : Delimited.Remaining ';' fieldsOf messages s.messages (carried ++ c.rest)

theorem framed_of_sends (hmessages : ∀ m ∈ messages, IsServerMessage m)
    (h : Sends messages c) : ∃ s carried, Framed messages c s carried := by
  obtain ⟨⟨s, hclient, hs, hreader, hlog⟩, hrest⟩ := h
  refine ⟨s, [], hclient, hs, hreader, List.not_mem_nil, ?_⟩
  rw [List.nil_append, hrest, SubscriberClient.messages, hlog]
  exact Delimited.remaining_start SubscriberClient.fieldsOf_nil fun m hm =>
    (hmessages m hm).noSemicolon

theorem Framed.handled {s : SubscriberClient} {carried : Str} (h : Framed messages c s carried)
    (hmessages : ∀ m ∈ messages, IsServerMessage m) : Handled messages c := by
  have hsent : messages.filterMap fieldsOf = messages.map (·.splitOn ':') := by
    rw [← List.filterMap_eq_map]
    exact List.filterMap_congr fun m hm => SubscriberClient.fieldsOf_message (hmessages m hm)
  rw [Handled, ← hsent]
  refine ⟨s, h.client, h.remaining.initial, fun hrest => ?_⟩
  refine h.remaining.done_eq SubscriberClient.fieldsOf_nil ?_
  rw [hrest, List.append_nil]
  exact h.noSemicolon

/-- A segment that does not fill the buffer. -/
theorem Framed.step_not_full {s : SubscriberClient} {carried : Str}
    (h : Framed messages c s carried) (hmessages : ∀ m ∈ messages, IsServerMessage m)
    {data rest : Str} (hrest : c.rest = data ++ rest) (hdata : data ≠ [])
    (hfull : data.length ≠ s.reader.room) (hzero : '\x00' ∉ carried ++ data)
    (hblank : ' ' ∉ carried ++ data) (hmeet : Delimited.Meet ';' (carried ++ data) rest)
    (hdeliverable : AllDeliverable (kindOf s.objects s.channels)
      (((carried ++ data).splitOn ';').filterMap fieldsOf)) :
    ∃ s', s.onReceive world (.bytes data) = .next s' ∧ Framed messages ⟨some s', rest⟩ s' [] := by
  have hremaining := h.remaining
  rw [hrest, ← List.append_assoc] at hremaining
  have hpieces := Converter.filterMap_tidy SubscriberClient.fieldsOf_nil
    SubscriberClient.fieldsOf_semicolon ((carried ++ data).splitOn ';')
  obtain ⟨s', heq, hs', hreader, -, hdone⟩ := @SubscriberClient.onReceive_eq world s h.allocated
    carried data _ h.reader hzero (Converter.split_of_noBlank hblank)
    (Converter.tidy_splitOn_ne_nil (by simp [hdata])) _
    (by rw [if_neg hfull, List.take_length])
    (fun w hw => by
      rcases Converter.mem_tidy hw with hw | rfl
      · rcases Delimited.mem_splitOn_append_left hmeet hw with rfl | hw
        · exact Or.inl rfl
        · exact (hremaining.fields w hw).imp_right fun hw => Or.inr (hmessages w hw)
      · exact Or.inr (Or.inl rfl))
    (by rwa [hpieces])
  rw [if_neg hfull] at hreader
  refine ⟨s', heq, rfl, hs', hreader, List.not_mem_nil, ?_⟩
  rw [hdone, hpieces]
  exact hremaining.read SubscriberClient.fieldsOf_nil hmeet

/-- A segment that fills the buffer and ends inside a message. -/
theorem Framed.step_full {s : SubscriberClient} {carried : Str}
    (h : Framed messages c s carried) (hmessages : ∀ m ∈ messages, IsServerMessage m)
    {data rest b p : Str} (hrest : c.rest = data ++ rest)
    (hfull : data.length = s.reader.room) (hzero : '\x00' ∉ carried ++ data)
    (hblank : ' ' ∉ carried ++ data) (htext : carried ++ data = b ++ ';' :: p) (hp : p ≠ [])
    (hpsep : ';' ∉ p)
    (hdeliverable : AllDeliverable (kindOf s.objects s.channels)
      ((b.splitOn ';').filterMap fieldsOf)) :
    ∃ s', s.onReceive world (.bytes data) = .next s' ∧ Framed messages ⟨some s', rest⟩ s' p := by
  have hremaining := h.remaining
  rw [hrest, ← List.append_assoc, htext] at hremaining
  have hsplit : Converter.split (carried ++ data) ';' = some (b.splitOn ';' ++ [p]) := by
    rw [Converter.split_of_noBlank hblank, htext, List.splitOn_append_cons_self,
      List.splitOn_eq_singleton hpsep, Converter.tidy_concat hp]
  obtain ⟨s', heq, hs', hreader, -, hdone⟩ := @SubscriberClient.onReceive_eq world s h.allocated
    carried data _ h.reader hzero hsplit (by simp) (b.splitOn ';')
    (by rw [if_pos hfull]; simp)
    (fun w hw => (hremaining.fields w (by
      rw [Delimited.splitOn_append_cons_append]
      exact List.mem_append_left _ hw)).imp_right fun hw => Or.inr (hmessages w hw))
    hdeliverable
  rw [if_pos hfull] at hreader
  refine ⟨s', heq, rfl, hs', ?_, hpsep, ?_⟩
  · rw [hreader]
    simp
  · rw [hdone]
    exact hremaining.keep

theorem Framed.step {s : SubscriberClient} {carried : Str} (h : Framed messages c s carried)
    (hmessages : ∀ m ∈ messages, IsServerMessage m) {data : Str} (hcut : Cut c data)
    (hstep : c.step world data = some c') : ∃ s' carried', Framed messages c' s' carried' := by
  have hcut := hcut s h.client
  simp only [SubscriberStream.step, h.client] at hstep
  split_ifs at hstep with hseg
  obtain ⟨hdata, hroom, rest, hrest⟩ := hseg
  have hdrop : c.rest.drop data.length = rest := by rw [← hrest, List.drop_left]
  have hstrTmp : s.reader.strTmp = carried := by
    rw [h.reader]
    rfl
  have hremaining := h.remaining
  rw [← hrest, ← List.append_assoc] at hremaining
  have hzero := hremaining.notMem_left (by decide) fun m hm => (hmessages m hm).noZero
  have hblank := hremaining.notMem_left (by decide) fun m hm => (hmessages m hm).noBlank
  rw [Option.some.injEq, hdrop] at hstep
  simp only [hdrop] at hcut
  rw [← hstrTmp] at hremaining
  split_ifs at hcut with hfull
  · obtain ⟨hnot, hdeliverable⟩ := hcut
    obtain ⟨b, p, htext, hp, hpsep⟩ := Reader.exists_cut hremaining
      (fun m hm => (hmessages m hm).short) hfull hnot
    rw [hstrTmp] at htext hdeliverable
    rw [htext, List.splitOn_append_cons_self, List.splitOn_eq_singleton hpsep,
      List.dropLast_concat] at hdeliverable
    obtain ⟨s', heq, hframed⟩ := h.step_full hmessages hrest.symm hfull hzero
      hblank htext hp hpsep hdeliverable
    rw [heq] at hstep
    subst hstep
    exact ⟨s', p, hframed⟩
  · obtain ⟨hmeet, hdeliverable⟩ := hcut
    rw [hstrTmp] at hmeet hdeliverable
    obtain ⟨s', heq, hframed⟩ := h.step_not_full hmessages hrest.symm hdata hfull
      hzero hblank hmeet hdeliverable
    rw [heq] at hstep
    subst hstep
    exact ⟨s', [], hframed⟩

/-- Framing. In every run of a connection on which messages are sent, and whose segments meet
the condition, the messages handled so far are the first ones sent, each once and unaltered,
and they are all messages once the stream has ended. -/
theorem handled_of_cut (hmessages : ∀ m ∈ messages, IsServerMessage m)
    (h : Reach (SubscriberStream.step world) (Sends messages) Cut c) : Handled messages c := by
  have hframed : ∃ s carried, Framed messages c s carried :=
    h.invariant (fun _ hc => framed_of_sends hmessages hc)
      fun _ _ _ ⟨_, _, hs⟩ hcut hstep => hs.step hmessages hcut hstep
  obtain ⟨s, carried, hs⟩ := hframed
  exact hs.handled hmessages

theorem allocated_new : SubscriberClient.new.Allocated := by
  intro channelName object h
  simp [SubscriberClient.new, ObjectManager.getObject, ObjectManager.new] at h

/-- The answer to the request for the channel `/a`. -/
def message_a : Str := "Subscribe:Success:/a".toList

theorem isServerMessage_a : ∀ m ∈ [message_a], IsServerMessage m := by
  intro m hm
  rw [List.mem_singleton.1 hm]
  exact ⟨by decide, by decide, by decide, by decide, Or.inr ⟨"/a".toList, by decide⟩⟩

theorem reach_a (C : SubscriberStream → Str → Prop) :
    Reach (SubscriberStream.step ClientWorld.quiet) (Sends [message_a]) C
      ⟨some .new, message_a ++ [';']⟩ :=
  .start ⟨⟨.new, rfl, allocated_new, rfl, rfl⟩, rfl⟩

theorem handled_before_semicolon : ∃ s, Handled [message_a] ⟨some s, []⟩ := by
  have hcut₁ : Cut ⟨some .new, message_a ++ [';']⟩ message_a := by
    rintro _ ⟨⟩
    exact ⟨Or.inr (Or.inr ⟨[], rfl⟩), (by decide : "/a".toList ≠ []), trivial⟩
  have h₁ : SubscriberStream.step ClientWorld.quiet ⟨some .new, message_a ++ [';']⟩ message_a =
      some _ := rfl
  have h₂ := (reach_a Cut).next hcut₁ h₁
  refine ⟨_, handled_of_cut isServerMessage_a (h₂.next (?_ : Cut _ [';']) rfl)⟩
  rintro _ ⟨⟩
  exact ⟨Or.inl ⟨[], rfl⟩, trivial⟩

/-- One message arrives in two segments, and is taken for another. -/
theorem not_handled_of_split : ¬∀ world messages c, (∀ m ∈ messages, IsServerMessage m) →
    Reach (SubscriberStream.step world) (Sends messages) (fun _ _ => True) c →
    Handled messages c := by
  intro h
  have h₁ : SubscriberStream.step ClientWorld.quiet ⟨some .new, message_a ++ [';']⟩
      "Subscribe:Success:/".toList = some _ := rfl
  obtain ⟨s, hs, hfirst, -⟩ := h ClientWorld.quiet [message_a] _ isServerMessage_a
    ((reach_a fun _ _ => True).next trivial h₁)
  obtain rfl := Option.some.inj hs
  exact absurd hfirst (by decide)

end SubscriberStream

end Ick
