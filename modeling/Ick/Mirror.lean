import Ick.SubscriberClient

/-!
# The mirror of the server's channels

The client is to hold, under the name of each channel that it was told about, an object with
the value it was told last. `board` is what the messages so far have said, and `Mirrors` is
the relation between the board and the client's objects that a correct client would keep.

It is kept by a message exactly if the first update of a channel is not one of a read-write
integer other than 0, whose value the constructor takes for a lower bound, if later updates
are of read-write channels, and if no value is the text on which `decodeData` throws :
`mirrored_iff`.
-/

namespace Ick

/-- An update, and the text in which the client is sent it. -/
structure UpdateMessage extends Update where
  text : Str

namespace UpdateMessage

/-- The value of the channel. -/
def datum (m : UpdateMessage) : Datum :=
  match m.value with
  | .inl value => .int value
  | .inr value => .string value

/-- The text has six fields, which say what the update says : an `int` in decimal, or a
string in the encoding of `encodeData`. -/
structure WellFormed (m : UpdateMessage) : Prop where
  name : IsChannelName m.channelName
  int : ∀ v, m.value = .inl v → -2 ^ 31 ≤ v ∧ v < 2 ^ 31
  fields : ∃ value, Converter.split m.text ':' =
      some ["Update".toList, m.channelName, (accessModeText m.accessMode).tail,
        (dataTypeText m.dataType).tail, value, Converter.convertToString m.t] ∧
    (∀ v, m.value = .inl v → value = Converter.convertToString v) ∧
    ∀ v, m.value = .inr v → decodeLoop value = v

/-- Messages of the same channel agree on its access mode and data type. -/
def Consistent (messages : List UpdateMessage) : Prop :=
  ∀ m ∈ messages, ∀ m' ∈ messages, m.channelName = m'.channelName →
    m.accessMode = m'.accessMode ∧ m.dataType = m'.dataType

/-- The last message of each channel. -/
def board (messages : List UpdateMessage) : Str → Option UpdateMessage :=
  messages.foldl (fun board m => Function.update board m.channelName (some m)) fun _ => none

/-- The message is one that the client can follow : its value can be decoded, and it is the
first of its channel and not that of a read-write integer other than 0, or a later one of a
read-write channel. -/
def Followed (board : Str → Option UpdateMessage) (m : UpdateMessage) : Prop :=
  m.value ≠ .inr ['%'] ∧
    match board m.channelName with
    | none => m.readWrite = true → ∀ v, m.value = .inl v → v = 0
    | some _ => m.readWrite = true

end UpdateMessage

namespace SubscriberClient

/-- What the client has become after a message. An exception leaves the state that has been
reached; undefined behaviour leaves none. -/
def receives (world : ClientWorld) (s : SubscriberClient) (m : UpdateMessage) :
    Option SubscriberClient :=
  match handle world s m.text with
  | .next s => some s
  | .brk s => some s
  | .ret s => some s
  | .crash => none

/-- The client after a list of messages. -/
def runMessages (world : ClientWorld) (s : SubscriberClient) (messages : List UpdateMessage) :
    Option SubscriberClient :=
  messages.foldl (fun s m => s.bind fun s => s.receives world m) (some s)

/-- The object under the name of the message's channel has the value of the message. -/
def Holds (s : SubscriberClient) (m : UpdateMessage) : Prop :=
  ∃ object channel, s.objects.getObject m.channelName = some (.data object) ∧
    s.channels[object]? = some channel ∧ channel.value = m.datum

/-- After each message there has been no undefined behaviour, and the object of every channel
has the value of the last message of the channel. -/
def Mirrored (world : ClientWorld) (s : SubscriberClient) (messages : List UpdateMessage) :
    Prop :=
  Throughout (fun pre m => ∃ s', s.runMessages world (pre ++ [m]) = some s' ∧
    ∀ name m', UpdateMessage.board (pre ++ [m]) name = some m' → s'.Holds m') messages

end SubscriberClient

/-! ## Boards -/

namespace UpdateMessage

theorem board_snoc (messages : List UpdateMessage) (m : UpdateMessage) :
    board (messages ++ [m]) = Function.update (board messages) m.channelName (some m) := by
  rw [board, List.foldl_append]
  rfl

theorem mem_of_board {messages : List UpdateMessage} {name : Str} {m : UpdateMessage}
    (h : board messages name = some m) : m ∈ messages ∧ m.channelName = name := by
  induction messages using List.reverseRecOn with
  | nil => cases h
  | append_singleton messages m' ih =>
    rw [board_snoc] at h
    by_cases hname : name = m'.channelName
    · subst hname
      rw [Function.update_self, Option.some.injEq] at h
      exact ⟨by simp [h], by rw [h]⟩
    · rw [Function.update_of_ne hname] at h
      exact ⟨List.mem_append_left _ (ih h).1, (ih h).2⟩

variable {m : UpdateMessage}

theorem Consistent.board_eq {messages : List UpdateMessage} (h : Consistent (messages ++ [m]))
    {m' : UpdateMessage} (hm' : board messages m.channelName = some m') :
    m.accessMode = m'.accessMode ∧ m.dataType = m'.dataType := by
  obtain ⟨hmem, hname⟩ := mem_of_board hm'
  exact h m (by simp) m' (by simp [hmem]) hname.symm

/-- What the client reads from a message. -/
structure Says (m : UpdateMessage) (valueInfo : IckStormValueInfo) : Prop where
  accessMode : valueInfo.accessMode = m.accessMode
  dataType : valueInfo.dataType = m.dataType
  int : ∀ v, m.value = .inl v → valueInfo.iValue = v
  string : ∀ v, m.value = .inr v → valueInfo.sValue = v

/-- A message that is well formed is read as what it says, if its value can be decoded. -/
theorem WellFormed.exists_says (h : m.WellFormed) (hvalue : m.value ≠ .inr ['%'])
    (clib : CLib) : ∃ tmp valueInfo, Converter.split m.text ':' = some tmp ∧
      readUpdate clib tmp = .update m.channelName valueInfo ∧ m.Says valueInfo := by
  obtain ⟨value, hsplit, hint, hstring⟩ := h.fields
  have hpercent : value ≠ ['%'] := by
    rintro rfl
    cases hm : m.value with
    | inl v =>
      have hmem : '%' ∈ Converter.convertToString v := by rw [← hint v hm]; simp
      exact Converter.notMem_convertToString (by decide) (by decide) hmem
    | inr v => exact hvalue (by rw [hm, ← hstring v hm]; rfl)
  refine ⟨_, _, hsplit, readUpdate_six clib hpercent _ _ _ _,
    accessModeOf_accessModeText _, dataTypeOf_dataTypeText _, fun v hv => ?_, hstring⟩
  obtain ⟨hlo, hhi⟩ := h.int v hv
  have hdigits : '%' ∉ Converter.convertToString v :=
    Converter.notMem_convertToString (by decide) (by decide)
  simp only [hint v hv, decodeLoop_of_notMem hdigits]
  exact Converter.atoi_convertToString hlo hhi

/-- A message whose value cannot be decoded is not read. -/
theorem WellFormed.throws (h : m.WellFormed) (hvalue : m.value = .inr ['%']) (clib : CLib) :
    ∃ tmp, Converter.split m.text ':' = some tmp ∧ readUpdate clib tmp = .throws := by
  obtain ⟨value, hsplit, -, hstring⟩ := h.fields
  obtain rfl := decodeLoop_eq_percent.1 (hstring _ hvalue)
  exact ⟨_, hsplit, readUpdate_percent clib _ _ _ _⟩

/-- The channel object is of the message's class, has its value, and no driver. -/
structure Shows (channel : Channel) (m : UpdateMessage) : Prop where
  accessMode : channel.accessMode = m.accessMode
  dataType : channel.dataType = m.dataType
  value : channel.value = m.datum
  driver : channel.base.driver = false

/-- The value that a new object has. -/
def created (m : UpdateMessage) : Datum :=
  match m.readWrite, m.value with
  | true, .inl _ => .int 0
  | _, .inl value => .int value
  | _, .inr value => .string value

/-- The first update of a channel creates an object of its class, but the value of a
read-write integer is 0. -/
theorem Says.create {world : ClientWorld} {valueInfo : IckStormValueInfo}
    (h : m.Says valueInfo) : ∃ channel, world.create valueInfo = some channel ∧
      channel.accessMode = m.accessMode ∧ channel.dataType = m.dataType ∧
      channel.value = m.created ∧ channel.base.driver = false := by
  obtain ⟨haccess, htype, hint, hstring⟩ := h
  obtain ⟨⟨name, readWrite, value, t⟩, text⟩ := m
  cases readWrite with
  | false =>
    replace haccess : valueInfo.accessMode = .READONLY := haccess
    cases value with
    | inl v =>
      replace htype : valueInfo.dataType = .INTDATA := htype
      refine ⟨.readOnlyInt (.new valueInfo.iValue), ?_, rfl, rfl, ?_, rfl⟩
      · simp only [ClientWorld.create, haccess, htype]
      · exact congrArg Datum.int (hint v rfl)
    | inr v =>
      replace htype : valueInfo.dataType = .STRINGDATA := htype
      refine ⟨.readOnlyString (.new valueInfo.sValue), ?_, rfl, rfl, ?_, rfl⟩
      · simp only [ClientWorld.create, haccess, htype]
      · exact congrArg Datum.string (hstring v rfl)
  | true =>
    replace haccess : valueInfo.accessMode = .READWRITE := haccess
    cases value with
    | inl v =>
      replace htype : valueInfo.dataType = .INTDATA := htype
      refine ⟨.readWriteInt (.new valueInfo.iValue (2 ^ 31 - 1)), ?_, rfl, rfl, rfl, rfl⟩
      simp only [ClientWorld.create, haccess, htype]
    | inr v =>
      replace htype : valueInfo.dataType = .STRINGDATA := htype
      refine ⟨.readWriteString (.new valueInfo.sValue), ?_, rfl, rfl, ?_, rfl⟩
      · simp only [ClientWorld.create, haccess, htype]
      · exact congrArg Datum.string (hstring v rfl)

/-- A later update of a read-write channel sets the value. -/
theorem Says.assign {io : DriverIO} {valueInfo : IckStormValueInfo} (h : m.Says valueInfo)
    {channel : Channel} {m' : UpdateMessage} (hshows : Shows channel m')
    (haccess' : m.accessMode = m'.accessMode) (htype' : m.dataType = m'.dataType)
    (hreadWrite : m.readWrite = true) :
    ∃ channel', Ick.assign io valueInfo channel = some channel' ∧ Shows channel' m := by
  obtain ⟨-, htype, hint, hstring⟩ := h
  have hmode : channel.accessMode = .READWRITE := by
    rw [hshows.accessMode, ← haccess', Update.accessMode, if_pos hreadWrite]
  have hdata := hshows.dataType.trans htype'.symm
  have hdriver := hshows.driver
  unfold Update.dataType at htype hdata
  cases hv : m.value with
  | inl v =>
    simp only [hv] at htype hdata
    cases channel with
    | readWriteInt d =>
      simp only [Channel.base] at hdriver
      refine ⟨.readWriteInt (d.setValue io valueInfo.iValue), ?_, ?_, ?_, ?_, ?_⟩
      · simp only [Ick.assign, htype]
      · rw [Update.accessMode, if_pos hreadWrite]
        rfl
      · simp only [Update.dataType, hv]
        rfl
      · simp [Channel.value, ReadWriteInt.setValue, hdriver, datum, hv, hint v hv]
      · simp [Channel.base, ReadWriteInt.setValue, hdriver]
    | readOnlyInt d => cases hmode
    | readOnlyDouble d => cases hmode
    | readOnlyString d => cases hmode
    | readWriteDouble d => cases hdata
    | readWriteString d => cases hdata
  | inr v =>
    simp only [hv] at htype hdata
    cases channel with
    | readWriteString d =>
      simp only [Channel.base] at hdriver
      refine ⟨.readWriteString (d.setValue io valueInfo.sValue), ?_, ?_, ?_, ?_, ?_⟩
      · simp only [Ick.assign, htype]
      · rw [Update.accessMode, if_pos hreadWrite]
        rfl
      · simp only [Update.dataType, hv]
        rfl
      · simp [Channel.value, ReadWriteString.setValue, hdriver, datum, hv, hstring v hv]
      · simp [Channel.base, ReadWriteString.setValue, hdriver]
    | readOnlyInt d => cases hmode
    | readOnlyDouble d => cases hmode
    | readOnlyString d => cases hmode
    | readWriteDouble d => cases hdata
    | readWriteInt d => cases hdata

/-- A later update of a read-only channel uses the result of a cast that has failed. -/
theorem Says.assign_eq_none {io : DriverIO} {valueInfo : IckStormValueInfo}
    (h : m.Says valueInfo) {channel : Channel} {m' : UpdateMessage} (hshows : Shows channel m')
    (haccess' : m.accessMode = m'.accessMode) (hreadWrite : m.readWrite = false) :
    Ick.assign io valueInfo channel = none := by
  have hmode : channel.accessMode = .READONLY := by
    rw [hshows.accessMode, ← haccess', Update.accessMode, hreadWrite]
    rfl
  have htype : valueInfo.dataType ≠ .UNKNOWN := by
    rw [h.dataType, Update.dataType]
    cases m.value <;> simp
  cases channel with
  | readOnlyInt d => exact if_neg htype
  | readOnlyDouble d => exact if_neg htype
  | readOnlyString d => exact if_neg htype
  | _ => cases hmode

end UpdateMessage

/-! ## One message -/

namespace SubscriberClient

open UpdateMessage

variable {world : ClientWorld} {s s' : SubscriberClient} {b : Str → Option UpdateMessage}
  {m : UpdateMessage}

/-- The client's objects show the board : each name on it has an object of its own, which
shows its message, and there are no others. -/
structure Mirrors (s : SubscriberClient) (b : Str → Option UpdateMessage) : Prop where
  registered : ∀ name, b name = none → s.objects.getObject name = none
  shown : ∀ name m, b name = some m → m.value ≠ .inr ['%'] ∧ ∃ object channel,
    s.objects.getObject name = some (.data object) ∧ s.channels[object]? = some channel ∧
      Shows channel m
  separate : ∀ name name' object, s.objects.getObject name = some (.data object) →
    s.objects.getObject name' = some (.data object) → name = name'

theorem mirrors_new (h : s.objects = .new) : Mirrors s (board []) := by
  have hnone : ∀ name, s.objects.getObject name = none := by
    intro name
    simp [h, ObjectManager.getObject, ObjectManager.new]
  refine ⟨fun name _ => hnone name, fun name m hm => ?_, fun name name' object hname => ?_⟩
  · cases hm
  · rw [hnone] at hname
    cases hname

/-- A registered channel object exists. -/
theorem Mirrors.lt (h : Mirrors s b) {name : Str} {object : ℕ}
    (hget : s.objects.getObject name = some (.data object)) : object < s.channels.length := by
  cases hb : b name with
  | none =>
    rw [h.registered name hb] at hget
    cases hget
  | some m =>
    obtain ⟨-, object', channel, hget', hchannel, -⟩ := h.shown name m hb
    rw [hget, Option.some.injEq, ManagedObject.data.injEq] at hget'
    rw [hget']
    exact (List.getElem?_eq_some_iff.1 hchannel).1

theorem Mirrors.holds (h : Mirrors s b) {name : Str} (hm : b name = some m)
    (hname : m.channelName = name) : s.Holds m := by
  obtain ⟨-, object, channel, hget, hchannel, hshows⟩ := h.shown name m hm
  exact ⟨object, channel, hname ▸ hget, hchannel, hshows.value⟩

/-- A message whose value can be decoded is handled in the update branch. -/
theorem receives_eq (h : m.WellFormed) (hvalue : m.value ≠ .inr ['%']) :
    ∃ valueInfo tmp, m.Says valueInfo ∧ s.receives world m =
      match handleUpdate world s m.channelName valueInfo with
      | .next s => some (s.logged [.message tmp])
      | .brk s => some s
      | .ret s => some s
      | .crash => none := by
  obtain ⟨tmp, valueInfo, hsplit, hread, hsays⟩ := h.exists_says hvalue world.clib
  refine ⟨valueInfo, tmp, hsays, ?_⟩
  unfold receives handle
  simp only [hsplit, hread]
  cases handleUpdate world s m.channelName valueInfo <;> rfl

/-- A new object is registered under the name of a channel. -/
theorem Mirrors.first (h : Mirrors s b) {channel : Channel} (hshows : Shows channel m)
    (hvalue : m.value ≠ .inr ['%'])
    (hobjects : s'.objects.getObject = Function.update s.objects.getObject m.channelName
      (some (.data s.channels.length)))
    (hchannels : s'.channels = s.channels ++ [channel]) :
    Mirrors s' (Function.update b m.channelName (some m)) := by
  have hnew : s'.objects.getObject m.channelName = some (.data s.channels.length) := by
    rw [hobjects, Function.update_self]
  have hold : ∀ name, name ≠ m.channelName →
      s'.objects.getObject name = s.objects.getObject name := by
    intro name hname
    rw [hobjects, Function.update_of_ne hname]
  refine ⟨fun name hname => ?_, fun name m' hm' => ?_, fun name name' object hget hget' => ?_⟩
  · by_cases heq : name = m.channelName
    · rw [heq, Function.update_self] at hname
      cases hname
    · rw [Function.update_of_ne heq] at hname
      rw [hold name heq]
      exact h.registered name hname
  · by_cases heq : name = m.channelName
    · rw [heq, Function.update_self, Option.some.injEq] at hm'
      subst hm'
      exact ⟨hvalue, _, channel, heq ▸ hnew, by rw [hchannels, List.getElem?_concat_length], hshows⟩
    · rw [Function.update_of_ne heq] at hm'
      obtain ⟨hvalue', object, channel', hget, hchannel', hshows'⟩ := h.shown name m' hm'
      refine ⟨hvalue', object, channel', (hold name heq).trans hget, ?_, hshows'⟩
      rw [hchannels, List.getElem?_append_left (h.lt hget), hchannel']
  · by_cases heq : name = m.channelName
    · by_cases heq' : name' = m.channelName
      · rw [heq, heq']
      · rw [heq, hnew, Option.some.injEq, ManagedObject.data.injEq] at hget
        rw [hold name' heq'] at hget'
        exact absurd (hget ▸ h.lt hget') (lt_irrefl _)
    · rw [hold name heq] at hget
      by_cases heq' : name' = m.channelName
      · rw [heq', hnew, Option.some.injEq, ManagedObject.data.injEq] at hget'
        exact absurd (hget' ▸ h.lt hget) (lt_irrefl _)
      · rw [hold name' heq'] at hget'
        exact h.separate name name' object hget hget'

/-- The object under the name of a channel is replaced by one that shows the message. -/
theorem Mirrors.later (h : Mirrors s b) {object : ℕ} {channel : Channel}
    (hget : s.objects.getObject m.channelName = some (.data object))
    (hshows : Shows channel m) (hvalue : m.value ≠ .inr ['%'])
    (hobjects : s'.objects = s.objects) (hchannels : s'.channels = s.channels.set object channel) :
    Mirrors s' (Function.update b m.channelName (some m)) := by
  refine ⟨fun name hname => ?_, fun name m' hm' => ?_, by rw [hobjects]; exact h.separate⟩
  · by_cases heq : name = m.channelName
    · rw [heq, Function.update_self] at hname
      cases hname
    · rw [Function.update_of_ne heq] at hname
      rw [hobjects]
      exact h.registered name hname
  · rw [hobjects, hchannels]
    by_cases heq : name = m.channelName
    · rw [heq, Function.update_self, Option.some.injEq] at hm'
      subst hm'
      exact ⟨hvalue, object, channel, heq ▸ hget, List.getElem?_set_self (h.lt hget), hshows⟩
    · rw [Function.update_of_ne heq] at hm'
      obtain ⟨hvalue', object', channel', hget', hchannel', hshows'⟩ := h.shown name m' hm'
      refine ⟨hvalue', object', channel', hget', ?_, hshows'⟩
      have hne : object ≠ object' := by
        rintro rfl
        exact heq (h.separate name m.channelName object hget' hget)
      rw [List.getElem?_set_ne hne, hchannel']

/-- A message that can be followed is followed. -/
theorem Mirrors.follows (h : Mirrors s b) (hm : m.WellFormed)
    (hconsistent : ∀ m', b m.channelName = some m' →
      m.accessMode = m'.accessMode ∧ m.dataType = m'.dataType) (hfollowed : Followed b m) :
    ∃ s', s.receives world m = some s' ∧
      Mirrors s' (Function.update b m.channelName (some m)) := by
  obtain ⟨hvalue, hclass⟩ := hfollowed
  obtain ⟨valueInfo, tmp, hsays, hreceives⟩ := @receives_eq world s m hm hvalue
  cases hb : b m.channelName with
  | none =>
    simp only [hb] at hclass
    obtain ⟨channel, hcreate, haccess, htype, hcreated, hdriver⟩ :=
      @Says.create m world valueInfo hsays
    have hshows : Shows channel m := by
      refine ⟨haccess, htype, hcreated.trans ?_, hdriver⟩
      unfold created datum
      cases hrw : m.readWrite <;> cases hv : m.value <;> simp only
      rw [hclass hrw _ hv]
    obtain ⟨objects, hobjects, hupdate⟩ :=
      @handleUpdate_first world s _ _ hm.name (h.registered _ hb) _ hcreate
    rw [hupdate] at hreceives
    exact ⟨_, hreceives, h.first hshows hvalue hobjects rfl⟩
  | some m' =>
    simp only [hb] at hclass
    obtain ⟨haccess, htype⟩ := hconsistent m' hb
    obtain ⟨-, object, channel, hget, hchannel, hshows⟩ := h.shown _ m' hb
    obtain ⟨channel', hassign, hshows'⟩ :=
      @Says.assign m (world.io s.log) _ hsays _ m' hshows haccess htype hclass
    rw [handleUpdate_later hget hchannel, hassign] at hreceives
    exact ⟨_, hreceives, h.later hget hshows' hvalue rfl rfl⟩

/-- A message whose value cannot be decoded leaves what the board shows, and this is another
value. -/
theorem Mirrors.value_ne_of_holds (h : Mirrors s b) (hm : m.WellFormed)
    (hreceives : s.receives world m = some s') (hholds : s'.Holds m) : m.value ≠ .inr ['%'] := by
  intro hvalue
  obtain ⟨tmp, hsplit, hread⟩ := hm.throws hvalue world.clib
  unfold receives handle at hreceives
  simp only [hsplit, hread, Option.some.injEq] at hreceives
  subst hreceives
  obtain ⟨object, channel, hget, hchannel, hdatum⟩ := hholds
  cases hb : b m.channelName with
  | none =>
    rw [h.registered _ hb] at hget
    cases hget
  | some m' =>
    obtain ⟨hvalue', object', channel', hget', hchannel', hshows⟩ := h.shown _ m' hb
    rw [hget, Option.some.injEq, ManagedObject.data.injEq] at hget'
    rw [← hget', hchannel, Option.some.injEq] at hchannel'
    have hdatum' := hshows.value
    rw [← hchannel', hdatum] at hdatum'
    refine absurd ?_ hvalue'
    unfold datum at hdatum'
    rw [hvalue] at hdatum'
    cases hv : m'.value with
    | inl v =>
      rw [hv] at hdatum'
      cases hdatum'
    | inr v =>
      rw [hv] at hdatum'
      rw [← Datum.string.inj hdatum']

/-- The first update of a channel leaves the value that the object is created with. -/
theorem Mirrors.created_of_holds (h : Mirrors s b) (hm : m.WellFormed)
    (hvalue : m.value ≠ .inr ['%']) (hb : b m.channelName = none)
    (hreceives : s.receives world m = some s') (hholds : s'.Holds m) : m.created = m.datum := by
  obtain ⟨valueInfo, tmp, hsays, heq⟩ := @receives_eq world s m hm hvalue
  obtain ⟨channel, hcreate, -, -, hcreated, -⟩ := @Says.create m world valueInfo hsays
  obtain ⟨objects, hobjects, hupdate⟩ :=
    @handleUpdate_first world s _ _ hm.name (h.registered _ hb) _ hcreate
  rw [hreceives, hupdate] at heq
  obtain rfl := Option.some.inj heq
  obtain ⟨object, channel', hget, hchannel', hdatum⟩ := hholds
  have hget' : objects.getObject m.channelName = some (.data object) := hget
  have hlist : (s.channels ++ [channel])[object]? = some channel' := hchannel'
  rw [hobjects, Function.update_self, Option.some.injEq, ManagedObject.data.injEq] at hget'
  rw [← hget', List.getElem?_concat_length, Option.some.injEq] at hlist
  rw [← hcreated, hlist, hdatum]

/-- A later update that goes through is one of a channel that can be written. -/
theorem Mirrors.readWrite_of_receives (h : Mirrors s b) (hm : m.WellFormed)
    (hvalue : m.value ≠ .inr ['%']) {m' : UpdateMessage} (hb : b m.channelName = some m')
    (haccess : m.accessMode = m'.accessMode) (hreceives : s.receives world m = some s') :
    m.readWrite = true := by
  obtain ⟨valueInfo, tmp, hsays, heq⟩ := @receives_eq world s m hm hvalue
  obtain ⟨-, object, channel, hget, hchannel, hshows⟩ := h.shown _ m' hb
  by_contra hrw
  rw [hreceives, handleUpdate_later hget hchannel, hsays.assign_eq_none hshows haccess
    (Bool.eq_false_of_not_eq_true hrw)] at heq
  cases heq

/-- After a message that cannot be followed the object does not have its value, or there has
been undefined behaviour. -/
theorem Mirrors.followed_of_holds (h : Mirrors s b) (hm : m.WellFormed)
    (hconsistent : ∀ m', b m.channelName = some m' →
      m.accessMode = m'.accessMode ∧ m.dataType = m'.dataType)
    (hreceives : s.receives world m = some s') (hholds : s'.Holds m) : Followed b m := by
  have hvalue := h.value_ne_of_holds hm hreceives hholds
  refine ⟨hvalue, ?_⟩
  cases hb : b m.channelName with
  | none =>
    intro hrw v hv
    have hcreated := h.created_of_holds hm hvalue hb hreceives hholds
    unfold created datum at hcreated
    rw [hrw, hv] at hcreated
    exact (Datum.int.inj hcreated).symm
  | some m' =>
    exact h.readWrite_of_receives hm hvalue hb (hconsistent m' hb).1 hreceives

/-! ## A sequence of messages -/

theorem runMessages_snoc (world : ClientWorld) (s : SubscriberClient)
    (messages : List UpdateMessage) (m : UpdateMessage) :
    s.runMessages world (messages ++ [m]) =
      (s.runMessages world messages).bind fun s => s.receives world m := by
  simp [runMessages]

/-- Messages that can all be followed leave a client that shows the board. -/
theorem mirrors_of_followed (hs : s.objects = .new) (messages : List UpdateMessage)
    (hmessages : ∀ m ∈ messages, m.WellFormed) (hconsistent : Consistent messages)
    (h : Throughout (fun pre m => Followed (board pre) m) messages) :
    ∃ s', s.runMessages world messages = some s' ∧ Mirrors s' (board messages) := by
  induction messages using List.reverseRecOn with
  | nil => exact ⟨s, rfl, mirrors_new hs⟩
  | append_singleton messages m ih =>
    obtain ⟨hpre, hm⟩ := throughout_snoc.1 h
    obtain ⟨s', hrun, hmirrors⟩ := ih (fun m hm => hmessages m (by simp [hm]))
      (fun m hm m' hm' => hconsistent m (by simp [hm]) m' (by simp [hm'])) hpre
    obtain ⟨s'', hreceives, hmirrors'⟩ := hmirrors.follows (hmessages m (by simp))
      (fun m' => hconsistent.board_eq) hm
    refine ⟨s'', ?_, ?_⟩
    · rw [runMessages_snoc, hrun]
      exact hreceives
    · rw [board_snoc]
      exact hmirrors'

/-- The mirror. A client whose registry is empty holds, after each of a sequence of well-formed
and consistent messages, the last value of every channel, and has not used the result of a
cast that has failed, exactly if each message can be followed. -/
theorem mirrored_iff (world : ClientWorld) {s : SubscriberClient} (hs : s.objects = .new)
    (messages : List UpdateMessage) (hmessages : ∀ m ∈ messages, m.WellFormed)
    (hconsistent : Consistent messages) :
    Mirrored world s messages ↔ Throughout (fun pre m => Followed (board pre) m) messages := by
  induction messages using List.reverseRecOn with
  | nil => exact iff_of_true throughout_nil throughout_nil
  | append_singleton messages m ih =>
    have hpre : ∀ m ∈ messages, m.WellFormed := fun m hm => hmessages m (by simp [hm])
    have hconsistent' : Consistent messages := fun m hm m' hm' =>
      hconsistent m (by simp [hm]) m' (by simp [hm'])
    unfold Mirrored at ih ⊢
    rw [throughout_snoc, throughout_snoc, ih hpre hconsistent']
    refine and_congr_right fun hfollowed => ?_
    obtain ⟨s', hrun, hmirrors⟩ :=
      @mirrors_of_followed world s hs messages hpre hconsistent' hfollowed
    rw [runMessages_snoc, hrun, Option.bind_some, board_snoc]
    constructor
    · rintro ⟨s'', hreceives, hholds⟩
      exact hmirrors.followed_of_holds (hmessages m (by simp)) (fun m' => hconsistent.board_eq)
        hreceives (hholds m.channelName m (Function.update_self _ _ _))
    · intro hm
      obtain ⟨s'', hreceives, hmirrors'⟩ := hmirrors.follows (hmessages m (by simp))
        (fun m' => hconsistent.board_eq) hm
      refine ⟨s'', hreceives, fun name m' hm' => hmirrors'.holds hm' ?_⟩
      by_cases hname : name = m.channelName
      · rw [hname, Function.update_self, Option.some.injEq] at hm'
        rw [hname, hm']
      · rw [Function.update_of_ne hname] at hm'
        exact (mem_of_board hm').2

/-- A string for the read-write channel `/a`. -/
def message_string (c : Char) : UpdateMessage where
  channelName := "/a".toList
  readWrite := true
  value := .inr [c]
  t := 0
  text := "Update:/a:W:S:".toList ++ [c] ++ ":0".toList

/-- An integer for that channel. -/
def message_int : UpdateMessage where
  channelName := "/a".toList
  readWrite := true
  value := .inl 5
  t := 0
  text := "Update:/a:W:I:5:0".toList

theorem wellFormed_string : ∀ m ∈ [message_string 'x', message_string 'y'], m.WellFormed := by
  intro m hm
  rcases List.mem_pair.1 hm with rfl | rfl
  · exact ⟨⟨rfl, by decide⟩, nofun, ['x'], rfl, nofun, by rintro _ ⟨⟩; rfl⟩
  · exact ⟨⟨rfl, by decide⟩, nofun, ['y'], rfl, nofun, by rintro _ ⟨⟩; rfl⟩

theorem mirrored_strings :
    Mirrored .quiet .new [message_string 'x', message_string 'y'] := by
  refine (mirrored_iff .quiet rfl _ wellFormed_string ?_).2 ?_
  · intro m hm m' hm' _
    rcases List.mem_pair.1 hm with rfl | rfl <;> rcases List.mem_pair.1 hm' with rfl | rfl <;>
      exact ⟨rfl, rfl⟩
  · change Throughout _ ([] ++ [_] ++ [_])
    rw [throughout_snoc, throughout_snoc]
    exact ⟨⟨throughout_nil, by decide, nofun⟩, by decide, rfl⟩

/-- The first update of a read-write integer leaves it at 0. -/
theorem not_mirrored_int : ¬∀ world (s : SubscriberClient) messages, s.objects = .new →
    (∀ m ∈ messages, m.WellFormed) → Consistent messages → Mirrored world s messages := by
  intro h
  have hwell : ∀ m ∈ [message_int], m.WellFormed := by
    intro m hm
    rw [List.mem_singleton.1 hm]
    exact ⟨⟨rfl, by decide⟩, by rintro _ ⟨⟩; decide, ['5'], rfl, by rintro _ ⟨⟩; rfl, nofun⟩
  obtain ⟨s', hrun, hholds⟩ := h .quiet .new [message_int] rfl hwell (by
    intro m hm m' hm' _
    rw [List.mem_singleton.1 hm, List.mem_singleton.1 hm']
    exact ⟨rfl, rfl⟩) [] message_int (List.prefix_refl _)
  obtain rfl := Option.some.inj hrun
  obtain ⟨object, channel, hget, hchannel, hvalue⟩ := hholds "/a".toList message_int rfl
  obtain rfl : 0 = object := ManagedObject.data.inj (Option.some.inj hget)
  obtain rfl := Option.some.inj hchannel
  exact absurd (Datum.int.inj hvalue) (by decide)

end SubscriberClient

end Ick
