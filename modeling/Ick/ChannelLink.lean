import Ick.Mirror
import Ick.Publish
import Ick.SubscriberFraming

/-!
# From the server's channels to the client's

A server, a client, and the connection between them. The server publishes its channels to those
who have subscribed them, and answers requests; the client receives what is sent in segments, and
keeps objects for the channels it is told of.

`holds_of_guard` is about every run in which each send through the connection is accepted as a
whole or not at all, no segment cuts a message, and each update is one that the client can
follow. At any time the client has handled the first ones of the updates sent, in order, and has,
for each channel among them, an object with the value that the channel had at the last of them.
When nothing is under way, these are all updates.
-/

namespace Ick

/-! ## Messages -/

namespace Update

/-- The text of the frame of an update, without the semicolon. -/
def text (u : Update) : Str := u.fields.flatMap (· ++ [':']) ++ Converter.convertToString u.t

/-- The update is one that the client is told, and that it can decode. -/
structure Tellable (u : Update) : Prop where
  name : IsChannelName u.channelName
  plain : u.Plain
  noBlank : ' ' ∉ u.channelName ∧ ∀ v, u.value = .inr v → ' ' ∉ v
  noZero : ∀ v, u.value = .inr v → '\x00' ∉ v
  int : ∀ v, u.value = .inl v → -2 ^ 31 ≤ v ∧ v < 2 ^ 31
  short : u.text.length < 4000

variable {u : Update}

/-- A byte that is in none of the texts of a frame, and not the one between them. -/
theorem notMem_text {c : Char} (hdigit : c.isDigit = false) (hc : c ∉ "Update:RWIS-".toList)
    (hname : c ∉ u.channelName) (hfield : c ∉ u.field) : c ∉ u.text := by
  have hminus : c ≠ '-' := fun h => hc (h ▸ by decide)
  have hmode : c ∉ (accessModeText u.accessMode).tail := by
    unfold accessMode
    split_ifs
    · exact fun h => hc (List.mem_singleton.1 h ▸ by decide)
    · exact fun h => hc (List.mem_singleton.1 h ▸ by decide)
  have htype : c ∉ (dataTypeText u.dataType).tail := by
    unfold dataType
    split
    · exact fun h => hc (List.mem_singleton.1 h ▸ by decide)
    · exact fun h => hc (List.mem_singleton.1 h ▸ by decide)
  have hcommand : c ∉ "Update".toList := fun h =>
    hc (List.mem_append_left ":RWIS-".toList h)
  have hcolon : c ≠ ':' := fun h => hc (h ▸ by decide)
  intro hmem
  rcases List.mem_append.1 hmem with hmem | hmem
  · obtain ⟨x, hx, hmem⟩ := List.mem_flatMap.1 hmem
    rcases List.mem_append.1 hmem with hmem | hmem
    · simp only [fields, List.mem_cons, List.not_mem_nil, or_false] at hx
      rcases hx with rfl | rfl | rfl | rfl | rfl
      · exact hcommand hmem
      · exact hname hmem
      · exact hmode hmem
      · exact htype hmem
      · exact hfield hmem
    · exact hcolon (List.mem_singleton.1 hmem)
  · exact Converter.notMem_convertToString hdigit hminus hmem

/-- A byte that is not in the value, and no part of an escape or a number. -/
theorem notMem_field {c : Char} (hdigit : c.isDigit = false) (hc : c ≠ '-' ∧ c ∉ ['%', '3', 'A'])
    (hvalue : ∀ v, u.value = .inr v → c ∉ v) : c ∉ u.field := by
  unfold field
  cases hv : u.value with
  | inl v => exact Converter.notMem_convertToString hdigit hc.1
  | inr v => exact fun hmem => (mem_of_mem_encodeData hmem).elim hc.2 fun h => hvalue v hv h.1

theorem Plain.splitOn_text (h : u.Plain) : u.text.splitOn ':' =
    u.fields ++ [Converter.convertToString u.t] := by
  refine Delimited.splitOn_flatMap_append (fun x hx => ?_)
    (Converter.notMem_convertToString (by decide) (by decide))
  simp only [fields, List.mem_cons, List.not_mem_nil, or_false] at hx
  rcases hx with rfl | rfl | rfl | rfl | rfl
  · decide
  · exact h.nameBytes.2.1
  · cases u.accessMode <;> decide
  · cases u.dataType <;> decide
  · exact h.field_bytes.1

theorem Tellable.isServerMessage (h : u.Tellable) : IsServerMessage u.text where
  noZero := notMem_text (by decide) (by decide) h.plain.nameBytes.1
    (notMem_field (by decide) (by decide) h.noZero)
  noBlank := notMem_text (by decide) (by decide) h.noBlank.1
    (notMem_field (by decide) (by decide) h.noBlank.2)
  noSemicolon := notMem_text (by decide) (by decide) h.plain.nameBytes.2.2 h.plain.field_bytes.2.1
  short := h.short
  fields := Or.inl ⟨_, _, _, _, _, h.plain.splitOn_text⟩

/-- The update as a message. -/
def message (u : Update) : UpdateMessage := ⟨u, u.text⟩

theorem Tellable.wellFormed (h : u.Tellable) : u.message.WellFormed where
  name := h.name
  int := h.int
  fields := by
    refine ⟨u.field, h.plain.split_fields h.name.1, fun v hv => ?_, fun v hv => ?_⟩
    · have hv : u.value = .inl v := hv
      rw [field, hv]
      rfl
    · have hv : u.value = .inr v := hv
      rw [field, hv]
      exact decodeLoop_encodeData (h.plain.string v hv).2.2.1

/-- What the server says about a channel at a time; nothing that is known of its text about a
channel of doubles. -/
def of (channelName : Str) (c : Channel) (t : ℤ) : Option Update :=
  match c.value with
  | .int v => some ⟨channelName, c.accessMode = .READWRITE, .inl v, t⟩
  | .string v => some ⟨channelName, c.accessMode = .READWRITE, .inr v, t⟩
  | .double _ => none

theorem updateFrame_of (clib : CLib) {channelName : Str} {c : Channel} {t : ℤ}
    (h : of channelName c t = some u) : updateFrame clib t channelName c = u.text ++ [';'] ∧
      u.channelName = channelName ∧ u.accessMode = c.accessMode ∧ u.dataType = c.dataType := by
  have hsays : u.channelName = channelName ∧ u.accessMode = c.accessMode ∧
      u.dataType = c.dataType ∧ u.t = t ∧ c.value.text clib = u.field := by
    cases c <;> simp only [of, Channel.value, Option.some.injEq, reduceCtorEq] at h <;> subst h <;>
      simp [accessMode, dataType, Channel.accessMode, Channel.dataType, Channel.value, Datum.text,
        field]
  obtain ⟨hname, haccess, htype, rfl, hvalue⟩ := hsays
  refine ⟨?_, hname, haccess, htype⟩
  have hcommand : "Update:".toList = "Update".toList ++ [':'] := rfl
  have hmode : ∀ mode, accessModeText mode = ':' :: (accessModeText mode).tail := by
    intro mode
    cases mode <;> rfl
  have hdata : ∀ type, dataTypeText type = ':' :: (dataTypeText type).tail := by
    intro type
    cases type <;> rfl
  unfold updateFrame text fields
  rw [← haccess, ← htype, hvalue, ← hname]
  generalize u.field = value
  generalize Converter.convertToString u.t = time
  rw [hmode u.accessMode, hdata u.dataType, hcommand]
  simp only [List.flatMap_cons, List.flatMap_nil, List.append_assoc, List.cons_append,
    List.nil_append, List.tail_cons]

end Update

/-- What the server sends through the connection : an update, or the answer to a request. -/
inductive LinkMessage
  | update (u : Update)
  | success (channelName : Str)

namespace LinkMessage

/-- The text of a message, without the semicolon. -/
def text : LinkMessage → Str
  | .update u => u.text
  | .success channelName => "Subscribe:Success:".toList ++ channelName

/-- The fields of a message. -/
def fields (m : LinkMessage) : List Str := m.text.splitOn ':'

/-- The client understands the message. -/
def Tellable : LinkMessage → Prop
  | .update u => u.Tellable
  | .success channelName => channelName ≠ [] ∧ channelName.length < 3900 ∧
      ∀ c ∈ ['\x00', ' ', ':', ';'], c ∉ channelName

/-- The updates among the messages. -/
def updates (messages : List LinkMessage) : List UpdateMessage :=
  messages.filterMap fun
    | .update u => some u.message
    | .success _ => none

variable {m : LinkMessage}

theorem updates_append (messages messages' : List LinkMessage) :
    updates (messages ++ messages') = updates messages ++ updates messages' :=
  List.filterMap_append

theorem text_update (u : Update) : (update u).text = u.text := rfl

theorem text_success (channelName : Str) :
    (success channelName).text = "Subscribe:Success:".toList ++ channelName := rfl

theorem fields_success {channelName : Str} (h : (success channelName).Tellable) :
    (success channelName).fields = ["Subscribe".toList, "Success".toList, channelName] := by
  have hcolon : ':' ∉ channelName := h.2.2 _ (by decide)
  have hsubscribe : ':' ∉ "Subscribe".toList := by decide
  have hsuccess : ':' ∉ "Success".toList := by decide
  have htext : (success channelName).text =
      "Subscribe".toList ++ ':' :: ("Success".toList ++ ':' :: channelName) := rfl
  rw [fields, htext, List.splitOn_append_cons_self_of_not_mem hsubscribe,
    List.splitOn_append_cons_self_of_not_mem hsuccess, List.splitOn_eq_singleton hcolon]

theorem Tellable.isServerMessage (h : m.Tellable) : IsServerMessage m.text := by
  cases m with
  | update u => exact Update.Tellable.isServerMessage h
  | success channelName =>
    have hfields := fields_success h
    obtain ⟨-, hlength, hbytes⟩ := h
    have hcommand : ∀ c ∈ ['\x00', ' ', ';'], c ∉ "Subscribe:Success:".toList := by simp
    have hsub : ['\x00', ' ', ';'] ⊆ ['\x00', ' ', ':', ';'] := by simp
    have hnot : ∀ c ∈ ['\x00', ' ', ';'], c ∉ (success channelName).text := by
      intro c hc
      rw [text_success, List.mem_append, not_or]
      exact ⟨hcommand c hc, hbytes c (hsub hc)⟩
    refine ⟨hnot _ (by decide), hnot _ (by decide), hnot _ (by decide), ?_,
      Or.inr ⟨channelName, hfields⟩⟩
    have hprefix : ("Subscribe:Success:".toList).length = 18 := rfl
    rw [text_success, List.length_append, hprefix]
    omega

end LinkMessage

/-! ## The system -/

/-- The bytes of a frame that are accepted. -/
def Sending.bytes (x : Sending) : Str :=
  match x.event with
  | .accepted len => x.data.take len
  | _ => []

theorem Sending.bytes_accepted (socketParam : ℕ) (data : Str) :
    (Sending.mk socketParam data (.accepted data.length)).bytes = data := List.take_length

/-- The server, the connection with the client, and, for the statements only, the messages that were
sent through the connection. -/
structure ChannelLink where
  server : Publisher
  stream : SubscriberStream
  sent : List LinkMessage

/-- A call on the server, its answer to a request of the client, and a segment that the client
receives. -/
inductive ChannelEvent
  | call (call : PublishCall)
  | answer (channelName : Str)
  | receive (data : Str)

namespace ChannelLink

/-- The message in a frame, if it is accepted as a whole. -/
def toldBy (server : Publisher) (socketParam : ℕ) (call : PublishCall) (x : Sending) :
    List LinkMessage :=
  match call with
  | .update untypedData _ t =>
    if x.event = .accepted x.data.length then
      ((Update.of (server.fullName untypedData) (server.channels untypedData)
        (t socketParam)).map .update).toList
    else []
  | _ => []

/-- One event. The connection is the one of the socket `socketParam` of the server. -/
def step (clib : CLib) (world : ClientWorld) (socketParam : ℕ) (c : ChannelLink) :
    ChannelEvent → Option ChannelLink
  | .call call =>
    (c.server.step clib call).map fun server =>
      let sendings := (server.sentTo socketParam).drop (c.server.sentTo socketParam).length
      { server := server
        stream := ⟨c.stream.client, c.stream.rest ++ sendings.flatMap Sending.bytes⟩
        sent := c.sent ++ sendings.flatMap (toldBy c.server socketParam call) }
  | .answer channelName =>
    some { c with
      stream :=
        ⟨c.stream.client, c.stream.rest ++ ((LinkMessage.success channelName).text ++ [';'])⟩
      sent := c.sent ++ [.success channelName] }
  | .receive data => (c.stream.step world data).map fun stream => { c with stream := stream }

/-- A segment does not cut a message, unless it fills the buffer. -/
def Segmented (c : SubscriberStream) (data : Str) : Prop :=
  ∀ s, c.client = some s →
    if data.length = s.reader.room then ¬[';'] <:+ s.reader.strTmp ++ data
    else Delimited.Meet ';' (s.reader.strTmp ++ data) (c.rest.drop data.length)

/-- The condition on an event. -/
def Guard (socketParam : ℕ) (c : ChannelLink) : ChannelEvent → Prop
  | .call (.update untypedData sends t) => c.server.Reaches untypedData socketParam →
      ∃ u, Update.of (c.server.fullName untypedData) (c.server.channels untypedData)
        (t socketParam) = some u ∧ u.Tellable ∧ (sends socketParam).Whole (u.text ++ [';']) ∧
        (sends socketParam = .accepted (u.text ++ [';']).length →
          UpdateMessage.Followed (UpdateMessage.board (LinkMessage.updates c.sent)) u.message)
  | .call (.setChannel untypedData channel) =>
      channel.accessMode = (c.server.channels untypedData).accessMode ∧
        channel.dataType = (c.server.channels untypedData).dataType
  | .call _ => True
  | .answer channelName => (LinkMessage.success channelName).Tellable
  | .receive data => Segmented c.stream data

/-- A server whose channels have names of their own, and a client that has no objects and has
received nothing. -/
def Starts (c : ChannelLink) : Prop :=
  Function.Injective c.server.fullName ∧ c.sent = [] ∧ c.stream.rest = [] ∧
    ∃ s, c.stream.client = some s ∧ s.objects = .new ∧ s.reader = .new ∧ s.log = []

end ChannelLink

/-! ## One message -/

section Message

open UpdateMessage LinkMessage SubscriberClient

variable {world : ClientWorld} {s s' : SubscriberClient} {done : List LinkMessage}
  {m : LinkMessage}

theorem SubscriberClient.Mirrors.congr {b : Str → Option UpdateMessage} (h : Mirrors s b)
    (hobjects : s'.objects = s.objects) (hchannels : s'.channels = s.channels) : Mirrors s' b := by
  refine ⟨fun name hname => ?_, fun name m hm => ?_, fun name name' object hname hname' => ?_⟩
  · rw [hobjects]
    exact h.registered name hname
  · rw [hobjects, hchannels]
    exact h.shown name m hm
  · rw [hobjects] at hname hname'
    exact h.separate name name' object hname hname'

/-- An update that can be followed is handled to its end. -/
theorem deliverable_of_followed {b : Str → Option UpdateMessage} (h : Mirrors s b) {u : Update}
    (hu : u.Tellable) (hconsistent : ∀ m', b u.channelName = some m' →
      u.accessMode = m'.accessMode ∧ u.dataType = m'.dataType) (hfollowed : Followed b u.message) :
    Deliverable (kindOf s.objects s.channels) (u.text.splitOn ':') := by
  rw [hu.plain.splitOn_text]
  refine ⟨hu.plain.field_bytes.2.2.2, Converter.convertToString_ne_nil _, ?_⟩
  rw [accessModeOf_accessModeText, dataTypeOf_dataTypeText]
  obtain ⟨-, hclass⟩ := hfollowed
  cases hb : b u.channelName with
  | none =>
    rw [kindOf_eq_none.2 (h.registered _ hb)]
    exact Or.inr (Or.inr (Or.inr hu.name))
  | some m' =>
    have hclass : u.readWrite = true := by
      have hb' : b u.message.channelName = some m' := hb
      simp only [hb'] at hclass
      exact hclass
    obtain ⟨-, object, channel, hget, hchannel, hshows⟩ := h.shown _ m' hb
    obtain ⟨haccess, htype⟩ := hconsistent m' hb
    have hmode : channel.accessMode = .READWRITE := by
      rw [hshows.accessMode, ← haccess, Update.accessMode, if_pos hclass]
    have hkind : kindOf s.objects s.channels u.channelName =
        some (some (.READWRITE, u.dataType)) := by
      rw [kindOf, hget]
      simp only [Option.map_some, hchannel, Channel.kind, hmode, hshows.dataType, ← htype]
    rw [hkind]
    exact Or.inr rfl

/-- The conditions on the messages that are handled next. -/
structure Next (done ms : List LinkMessage) : Prop where
  tellable : ∀ m ∈ ms, m.Tellable
  consistent : Consistent (updates (done ++ ms))
  followed : Throughout (fun pre m => Followed (board pre) m) (updates (done ++ ms))

theorem Next.tail {ms : List LinkMessage} (h : Next done (m :: ms)) : Next (done ++ [m]) ms := by
  have happend : done ++ m :: ms = done ++ [m] ++ ms := by simp
  exact ⟨fun m' hm' => h.tellable m' (List.mem_cons_of_mem m hm'), happend ▸ h.consistent,
    happend ▸ h.followed⟩

theorem Next.first {u : Update} {ms : List LinkMessage} (h : Next done (.update u :: ms)) :
    Consistent (updates done ++ [u.message]) ∧ Followed (board (updates done)) u.message := by
  have happend : updates (done ++ .update u :: ms) =
      updates done ++ [u.message] ++ updates ms := by
    rw [updates_append, List.append_assoc]
    rfl
  refine ⟨fun m hm m' hm' => ?_, ?_⟩
  · refine h.consistent m ?_ m' ?_
    · exact happend ▸ List.mem_append_left _ hm
    · exact happend ▸ List.mem_append_left _ hm'
  · exact h.followed _ _ (happend ▸ List.prefix_append _ _)

/-- A message is handled to its end, and the objects show it. -/
theorem handle_told (hs : s.Allocated) (h : Mirrors s (board (updates done)))
    {ms : List LinkMessage} (hnext : Next done (m :: ms)) :
    Deliverable (kindOf s.objects s.channels) m.fields ∧
      ∃ s', handle world s m.text = .next s' ∧
        Handles s (kindAfter (kindOf s.objects s.channels) m.fields) [m.fields] s' ∧
        Mirrors s' (board (updates (done ++ [m]))) := by
  have htellable := hnext.tellable m List.mem_cons_self
  cases m with
  | success channelName =>
    have hfields := fields_success htellable
    have hdeliverable : Deliverable (kindOf s.objects s.channels) (success channelName).fields := by
      rw [hfields]
      exact htellable.1
    obtain ⟨s', heq, hhandles⟩ :=
      @SubscriberClient.handle_message world s hs _ htellable.isServerMessage hdeliverable
    refine ⟨hdeliverable, s', heq, hhandles, ?_⟩
    have hupdates : updates (done ++ [success channelName]) = updates done := by
      rw [updates_append]
      exact List.append_nil _
    rw [hupdates]
    have hsplit := @SubscriberClient.split_message _ htellable.isServerMessage.noBlank
      ["Subscribe".toList, "Success".toList] channelName hfields htellable.1
    unfold handle at heq
    simp only [hsplit, List.cons_append, List.nil_append, readUpdate, handleOther, if_true,
      and_self, Flow.next.injEq] at heq
    subst heq
    exact h.congr rfl rfl
  | update u =>
    obtain ⟨hconsistent, hfollowed⟩ := hnext.first
    have hdeliverable := deliverable_of_followed h htellable (fun m' => hconsistent.board_eq)
      hfollowed
    obtain ⟨s', heq, hhandles⟩ :=
      @SubscriberClient.handle_message world s hs _ htellable.isServerMessage hdeliverable
    refine ⟨hdeliverable, s', heq, hhandles, ?_⟩
    obtain ⟨s'', hreceives, hmirrors⟩ := @Mirrors.follows world s _ u.message h
      (Update.Tellable.wellFormed htellable) (fun m' => hconsistent.board_eq) hfollowed
    have hsame : s' = s'' := by
      unfold receives at hreceives
      rw [show u.message.text = (LinkMessage.update u).text from rfl, heq] at hreceives
      exact Option.some.inj hreceives
    rw [hsame, updates_append]
    have hboard := board_snoc (updates done) u.message
    rw [← hboard] at hmirrors
    exact hmirrors

/-- The pieces of a round are handled to their ends. -/
theorem handleAll_told {datas : List Str}
    (hdatas : ∀ data ∈ datas, data = [] ∨ data = [';'] ∨ IsServerMessage data) :
    ∀ {s : SubscriberClient} {done ms : List LinkMessage}, s.Allocated →
    Mirrors s (board (updates done)) → datas.filterMap fieldsOf = ms.map LinkMessage.fields →
    Next done ms → AllDeliverable (kindOf s.objects s.channels) (datas.filterMap fieldsOf) ∧
      ∃ s', handleAll world datas s = .next s' ∧ Mirrors s' (board (updates (done ++ ms))) := by
  induction datas with
  | nil =>
    intro s done ms _ h hfields _
    obtain rfl := List.map_eq_nil_iff.1 hfields.symm
    exact ⟨trivial, s, rfl, by rwa [List.append_nil]⟩
  | cons data datas ih =>
    rw [List.forall_mem_cons] at hdatas
    intro s done ms hs h hfields hnext
    rcases hdatas.1 with rfl | rfl | hdata
    · exact ih hdatas.2 hs h hfields hnext
    · exact ih hdatas.2 hs h hfields hnext
    · rw [List.filterMap_cons, fieldsOf_message hdata] at hfields ⊢
      cases ms with
      | nil => cases hfields
      | cons m ms =>
        rw [List.map_cons, List.cons.injEq] at hfields
        have htext : data = m.text := by
          have hjoin := congrArg ([':'].intercalate ·) hfields.1
          simpa only [LinkMessage.fields, List.intercalate_splitOn] using hjoin
        obtain ⟨hdeliverable, s', heq, hhandles, hmirrors⟩ :=
          @handle_told world s done m hs h ms hnext
        obtain ⟨hall, s'', heq', hmirrors'⟩ := @ih hdatas.2 s' (done ++ [m]) ms
          hhandles.allocated hmirrors hfields.2 hnext.tail
        rw [hhandles.kinds] at hall
        refine ⟨⟨hfields.1 ▸ hdeliverable, ?_⟩, s'', ?_, ?_⟩
        · rw [hfields.1]
          exact hall
        · rw [handleAll, htext, heq]
          exact heq'
        · rwa [List.append_assoc, List.singleton_append] at hmirrors'

/-- A round. The pieces before what is carried over are handled to their ends. -/
theorem onReceive_told (hs : s.Allocated) {carried data : Str} {datas handled : List Str}
    (hreader : s.reader = .holding carried) (hzero : '\x00' ∉ carried ++ data)
    (hsplit : Converter.split (carried ++ data) ';' = some datas) (hne : datas ≠ [])
    (htake : datas.take (if data.length = s.reader.room then datas.length - 1 else datas.length) =
      handled)
    (hdatas : ∀ data ∈ handled, data = [] ∨ data = [';'] ∨ IsServerMessage data)
    {ms : List LinkMessage} (h : Mirrors s (board (updates done)))
    (hfields : handled.filterMap fieldsOf = ms.map LinkMessage.fields) (hnext : Next done ms) :
    ∃ s', s.onReceive world (.bytes data) = .next s' ∧ s'.Allocated ∧
      s'.reader = .holding (if data.length = s.reader.room then datas.getLastD [] else []) ∧
      s'.messages = s.messages ++ ms.map LinkMessage.fields ∧
      Mirrors s' (board (updates (done ++ ms))) := by
  have hwritten : Mirrors { s with isAlive := true, reader := s.reader.write data }
      (board (updates done)) := h.congr rfl rfl
  obtain ⟨hall, s₁, heq₁, hmirrors⟩ := @handleAll_told world handled hdatas
    { s with isAlive := true, reader := s.reader.write data } done ms hs hwritten hfields hnext
  obtain ⟨s', heq, hs', hreader', -, hmessages⟩ := @onReceive_eq world s hs carried data datas
    hreader hzero hsplit hne handled htake hdatas hall
  refine ⟨s', heq, hs', hreader', hfields ▸ hmessages, ?_⟩
  have htext : (s.reader.write data).text = carried ++ data := by
    rw [hreader, Reader.text_write_holding hzero]
  have hfull : (s.reader.write data).full data.length = decide (data.length = s.reader.room) :=
    rfl
  rw [onReceive, receive] at heq
  simp only [SubscriberClient.round, htext, hsplit, hfull, decide_eq_true_eq, htake, heq₁, hne,
    and_false, if_false, Flow.next.injEq] at heq
  have hround := @unchanged_subscribeChannelHandler world
    { s₁ with reader := s₁.reader.carry data.length (datas.getLastD []) }
  rw [heq] at hround
  exact hmirrors.congr hround.objects hround.channels

end Message

/-! ## Runs -/

namespace ChannelLink

open UpdateMessage LinkMessage SubscriberClient

variable {clib : CLib} {world : ClientWorld} {socketParam : ℕ} {c c' : ChannelLink}
  {s : SubscriberClient} {carried : Str} {done : List LinkMessage}

/-- The invariant : the messages handled are the first ones sent, the rest of them is under way or
carried over, and the client's objects show the updates among those handled. -/
structure Told (c : ChannelLink) (s : SubscriberClient) (carried : Str) (done : List LinkMessage) :
    Prop where
  framed : SubscriberStream.Framed (c.sent.map LinkMessage.text) c.stream s carried
  initial : done <+: c.sent
  messages : s.messages = done.map LinkMessage.fields
  mirrors : Mirrors s (board (updates done))
  tellable : ∀ m ∈ c.sent, m.Tellable
  server : ∀ m ∈ updates c.sent, ∃ d, c.server.fullName d = m.channelName ∧
    m.accessMode = (c.server.channels d).accessMode ∧ m.dataType = (c.server.channels d).dataType
  followed : Throughout (fun pre m => Followed (board pre) m) (updates c.sent)
  injective : Function.Injective c.server.fullName

theorem told_of_starts (h : Starts c) : ∃ s, Told c s [] [] := by
  obtain ⟨hinjective, hsent, hrest, s, hclient, hobjects, hreader, hlog⟩ := h
  have hs : s.Allocated := by
    intro channelName object hget
    simp [hobjects, ObjectManager.getObject, ObjectManager.new] at hget
  have hmessages : s.messages = [] := by rw [SubscriberClient.messages, hlog]; rfl
  refine ⟨s, ⟨hclient, hs, hreader, List.not_mem_nil, ?_⟩, List.nil_prefix, hmessages,
    mirrors_new hobjects, ?_, ?_, ?_, hinjective⟩
  · rw [hsent, hrest, hmessages]
    exact Delimited.remaining_start fieldsOf_nil fun m hm => absurd hm List.not_mem_nil
  · rw [hsent]
    exact fun m hm => absurd hm List.not_mem_nil
  · rw [hsent]
    exact fun m hm => absurd hm List.not_mem_nil
  · rw [hsent]
    exact throughout_nil

/-- Updates of the same channel agree on its access mode and data type. -/
theorem Told.consistent (h : Told c s carried done) : Consistent (updates c.sent) := by
  intro m hm m' hm' hname
  obtain ⟨d, hd, haccess, htype⟩ := h.server m hm
  obtain ⟨d', hd', haccess', htype'⟩ := h.server m' hm'
  obtain rfl := h.injective (hd.trans (hname.trans hd'.symm))
  exact ⟨haccess.trans haccess'.symm, htype.trans htype'.symm⟩

theorem Told.isServerMessage (h : Told c s carried done) :
    ∀ m ∈ c.sent.map LinkMessage.text, IsServerMessage m := by
  intro text htext
  obtain ⟨m, hm, rfl⟩ := List.mem_map.1 htext
  exact (h.tellable m hm).isServerMessage

/-- The messages of a stream, as the client reads them. -/
theorem filterMap_text {sent : List LinkMessage} (h : ∀ m ∈ sent, m.Tellable) :
    (sent.map LinkMessage.text).filterMap fieldsOf = sent.map LinkMessage.fields := by
  rw [List.filterMap_map, ← List.filterMap_eq_map]
  exact List.filterMap_congr fun m hm => fieldsOf_message (h m hm).isServerMessage

/-- What is handled next is what was sent next. -/
theorem Told.exists_next (h : Told c s carried done) {new : List (List Str)} {rest : Str}
    (hremaining : Delimited.Remaining ';' fieldsOf (c.sent.map LinkMessage.text)
      (s.messages ++ new) rest) :
    ∃ ms, new = ms.map LinkMessage.fields ∧ done ++ ms <+: c.sent ∧ Next done ms := by
  have hprefix := hremaining.initial
  rw [filterMap_text h.tellable, h.messages] at hprefix
  obtain ⟨tail, hsent⟩ := h.initial
  rw [← hsent, List.map_append, List.prefix_append_right_inj, List.prefix_map_iff] at hprefix
  obtain ⟨ms, hms, rfl⟩ := hprefix
  have hinitial : done ++ ms <+: c.sent := by
    rw [← hsent, List.prefix_append_right_inj]
    exact hms
  have hupdates : updates (done ++ ms) <+: updates c.sent := hinitial.filterMap _
  refine ⟨ms, rfl, hinitial, fun m hm => ?_, fun m hm m' hm' => ?_, fun pre m hpre => ?_⟩
  · exact h.tellable m (hinitial.subset (List.mem_append_right _ hm))
  · exact h.consistent m (hupdates.subset hm) m' (hupdates.subset hm')
  · exact h.followed pre m (hpre.trans hupdates)

/-- A segment is received. -/
theorem Told.round (h : Told c s carried done) {data rest carried' : Str} {datas handled : List Str}
    (hzero : '\x00' ∉ carried ++ data)
    (hsplit : Converter.split (carried ++ data) ';' = some datas) (hne : datas ≠ [])
    (htake : datas.take (if data.length = s.reader.room then datas.length - 1 else datas.length) =
      handled)
    (hlast : (if data.length = s.reader.room then datas.getLastD [] else []) = carried')
    (hdatas : ∀ data ∈ handled, data = [] ∨ data = [';'] ∨ IsServerMessage data)
    (hnoSemicolon : ';' ∉ carried')
    (hremaining : Delimited.Remaining ';' fieldsOf (c.sent.map LinkMessage.text)
      (s.messages ++ handled.filterMap fieldsOf) (carried' ++ rest)) :
    ∃ s' done', s.onReceive world (.bytes data) = .next s' ∧
      Told { c with stream := ⟨some s', rest⟩ } s' carried' done' := by
  obtain ⟨ms, hfields, hinitial, hnext⟩ := h.exists_next hremaining
  obtain ⟨s', heq, hs', hreader', hmessages, hmirrors⟩ := @onReceive_told world s done
    h.framed.allocated carried data datas handled h.framed.reader hzero hsplit hne htake hdatas ms
    h.mirrors hfields hnext
  rw [hlast] at hreader'
  refine ⟨s', done ++ ms, heq, ⟨rfl, hs', hreader', hnoSemicolon, ?_⟩, hinitial, ?_, hmirrors,
    h.tellable, h.server, h.followed, h.injective⟩
  · rw [hmessages, ← hfields]
    exact hremaining
  · rw [hmessages, h.messages, List.map_append]

theorem Told.receive (h : Told c s carried done) {data : Str} (hsegmented : Segmented c.stream data)
    {stream : SubscriberStream} (hstep : c.stream.step world data = some stream) :
    ∃ s' carried' done', Told { c with stream := stream } s' carried' done' := by
  have hsegmented := hsegmented s h.framed.client
  simp only [SubscriberStream.step, h.framed.client] at hstep
  split_ifs at hstep with hseg
  obtain ⟨hdata, hroom, rest, hrest⟩ := hseg
  have hdrop : c.stream.rest.drop data.length = rest := by rw [← hrest, List.drop_left]
  have hstrTmp : s.reader.strTmp = carried := by
    rw [h.framed.reader]
    rfl
  have hmessages := h.isServerMessage
  have hremaining := h.framed.remaining
  rw [← hrest, ← List.append_assoc] at hremaining
  have hzero := hremaining.notMem_left (by decide) fun m hm => (hmessages m hm).noZero
  have hblank := hremaining.notMem_left (by decide) fun m hm => (hmessages m hm).noBlank
  rw [Option.some.injEq, hdrop] at hstep
  rw [hdrop, hstrTmp] at hsegmented
  split_ifs at hsegmented with hfull
  · rw [← hstrTmp] at hremaining
    obtain ⟨b, p, htext, hp, hpsep⟩ := Reader.exists_cut hremaining
      (fun m hm => (hmessages m hm).short) hfull (hstrTmp ▸ hsegmented)
    rw [htext] at hremaining
    rw [hstrTmp] at htext
    have hsplit : Converter.split (carried ++ data) ';' = some (b.splitOn ';' ++ [p]) := by
      rw [Converter.split_of_noBlank hblank, htext, List.splitOn_append_cons_self,
        List.splitOn_eq_singleton hpsep, Converter.tidy_concat hp]
    obtain ⟨s', done', heq, htold⟩ := @Told.round world c s carried done h data rest p _
      (b.splitOn ';') hzero hsplit (by simp) (by rw [if_pos hfull]; simp)
      (by rw [if_pos hfull]; simp)
      (fun w hw => (hremaining.fields w (by
        rw [Delimited.splitOn_append_cons_append]
        exact List.mem_append_left _ hw)).imp_right fun hw => Or.inr (hmessages w hw))
      hpsep hremaining.keep
    rw [heq] at hstep
    exact ⟨s', p, done', hstep ▸ htold⟩
  · have hpieces := Converter.filterMap_tidy fieldsOf_nil fieldsOf_semicolon
      ((carried ++ data).splitOn ';')
    obtain ⟨s', done', heq, htold⟩ := @Told.round world c s carried done h data rest []
      (Converter.tidy ';' ((carried ++ data).splitOn ';')) _ hzero
      (Converter.split_of_noBlank hblank) (Converter.tidy_splitOn_ne_nil (by simp [hdata]))
      (by rw [if_neg hfull, List.take_length]) (if_neg hfull)
      (fun w hw => by
        rcases Converter.mem_tidy hw with hw | rfl
        · rcases Delimited.mem_splitOn_append_left hsegmented hw with rfl | hw
          · exact Or.inl rfl
          · exact (hremaining.fields w hw).imp_right fun hw => Or.inr (hmessages w hw)
        · exact Or.inr (Or.inl rfl))
      List.not_mem_nil (by
        rw [hpieces]
        exact hremaining.read fieldsOf_nil hsegmented)
    rw [heq] at hstep
    exact ⟨s', [], done', hstep ▸ htold⟩

/-- More messages are sent. -/
theorem Told.send (h : Told c s carried done) {new : List LinkMessage} {server : Publisher}
    (htellable : ∀ m ∈ new, m.Tellable)
    (hserver : ∀ m ∈ updates (c.sent ++ new), ∃ d, server.fullName d = m.channelName ∧
      m.accessMode = (server.channels d).accessMode ∧ m.dataType = (server.channels d).dataType)
    (hfollowed : Throughout (fun pre m => Followed (board pre) m) (updates (c.sent ++ new)))
    (hinjective : Function.Injective server.fullName) :
    Told ⟨server, ⟨c.stream.client,
      c.stream.rest ++ (new.map LinkMessage.text).flatMap (· ++ [';'])⟩, c.sent ++ new⟩
      s carried done := by
  obtain ⟨hclient, hs, hreader, hnoSemicolon, hremaining⟩ := h.framed
  refine ⟨⟨hclient, hs, hreader, hnoSemicolon, ?_⟩, h.initial.trans (List.prefix_append _ _),
    h.messages, h.mirrors, ?_, hserver, hfollowed, hinjective⟩
  · rw [List.map_append, ← List.append_assoc]
    refine hremaining.send fieldsOf_nil fun text htext => ?_
    obtain ⟨m, hm, rfl⟩ := List.mem_map.1 htext
    exact (htellable m hm).isServerMessage.noSemicolon
  · intro m hm
    exact (List.mem_append.1 hm).elim (h.tellable m) (htellable m)

theorem toldBy_accepted {server : Publisher} {d : ℕ} {sends : ℕ → SendEvent} {t : ℕ → ℤ}
    {u : Update} {data : Str}
    (hof : Update.of (server.fullName d) (server.channels d) (t socketParam) = some u) :
    toldBy server socketParam (.update d sends t) ⟨socketParam, data, .accepted data.length⟩ =
      [.update u] := by
  simp [toldBy, hof]

/-- What a call of the server sends through the connection : nothing, or an update that the
client can follow. -/
theorem told_of_call {call : PublishCall} {server : Publisher}
    (hguard : Guard socketParam c (.call call))
    (hstep : c.server.step clib call = some server) :
    ∃ new : List LinkMessage,
      ((server.sentTo socketParam).drop (c.server.sentTo socketParam).length).flatMap
        Sending.bytes = (new.map LinkMessage.text).flatMap (· ++ [';']) ∧
      ((server.sentTo socketParam).drop (c.server.sentTo socketParam).length).flatMap
        (toldBy c.server socketParam call) = new ∧
      (new = [] ∨ ∃ d u, new = [.update u] ∧ u.Tellable ∧
        Followed (board (updates c.sent)) u.message ∧ c.server.fullName d = u.channelName ∧
        u.accessMode = (c.server.channels d).accessMode ∧
        u.dataType = (c.server.channels d).dataType) := by
  have hnothing : server.sentTo socketParam = c.server.sentTo socketParam →
      (server.sentTo socketParam).drop (c.server.sentTo socketParam).length = [] := by
    intro hsame
    rw [hsame, List.drop_length]
  cases call with
  | update d sends t =>
    obtain ⟨-, hleaves⟩ := Publisher.update_spec hstep
    by_cases htaken : c.server.Reaches d socketParam
    · obtain ⟨u, hof, hu, hwhole, hfollowed⟩ := hguard htaken
      obtain ⟨hframe, hname, haccess, htype⟩ := Update.updateFrame_of clib hof
      have hone : (u.text ++ [';']).length ≠ 0 := by simp
      have hsent : u.text ++ [';'] = ([LinkMessage.update u].map LinkMessage.text).flatMap
          (· ++ [';']) := by
        rw [List.map_singleton, List.flatMap_singleton, text_update]
      rw [(hleaves socketParam).sent htaken, List.drop_left, Publisher.sendings, hframe]
      generalize u.text ++ [';'] = frame at *
      cases hevent : sends socketParam with
      | accepted len =>
        rw [hevent] at hwhole hfollowed
        rw [if_neg (by simp), List.flatMap_singleton, List.flatMap_singleton]
        rcases hwhole with rfl | rfl
        · refine ⟨[], rfl, ?_, Or.inl rfl⟩
          exact if_neg fun heq => hone (SendEvent.accepted.inj heq).symm
        · refine ⟨[.update u], ?_, toldBy_accepted hof, Or.inr ⟨d, u, rfl, hu, hfollowed rfl,
            hname.symm, haccess, htype⟩⟩
          rw [Sending.bytes_accepted, hsent]
      | noHandle => exact ⟨[], by rw [if_pos rfl]; rfl, by rw [if_pos rfl]; rfl, Or.inl rfl⟩
      | reset =>
        exact ⟨[], by rw [if_neg (by simp)]; rfl, by rw [if_neg (by simp)]; rfl, Or.inl rfl⟩
      | timedOut =>
        exact ⟨[], by rw [if_neg (by simp)]; rfl, by rw [if_neg (by simp)]; rfl, Or.inl rfl⟩
      | failed =>
        exact ⟨[], by rw [if_neg (by simp)]; rfl, by rw [if_neg (by simp)]; rfl, Or.inl rfl⟩
    · rw [hnothing ((hleaves socketParam).unsent htaken)]
      exact ⟨[], rfl, rfl, Or.inl rfl⟩
  | _ =>
    obtain rfl := Option.some.inj hstep
    rw [hnothing rfl]
    exact ⟨[], rfl, rfl, Or.inl rfl⟩

/-- A call leaves the names of the channels, and their access modes and data types. -/
theorem kinds_of_call {call : PublishCall} {server : Publisher}
    (hguard : Guard socketParam c (.call call))
    (hstep : c.server.step clib call = some server) (d : ℕ) :
    (server.channels d).accessMode = (c.server.channels d).accessMode ∧
      (server.channels d).dataType = (c.server.channels d).dataType := by
  cases call with
  | setChannel untypedData channel =>
    obtain rfl := Option.some.inj hstep
    by_cases hd : d = untypedData
    · subst hd
      simp only [Function.update_self]
      exact hguard
    · simp [hd]
  | _ =>
    have hsame := @Publisher.channels_step clib c.server server d _ hstep fun _ heq => by cases heq
    rw [hsame]
    exact ⟨rfl, rfl⟩

theorem Told.call (h : Told c s carried done) {call : PublishCall}
    (hguard : Guard socketParam c (.call call))
    (hstep : c.step clib world socketParam (.call call) = some c') : Told c' s carried done := by
  obtain ⟨server, hserver, rfl⟩ := Option.map_eq_some_iff.1 hstep
  obtain ⟨new, hbytes, htold, hnew⟩ := told_of_call hguard hserver
  have hnames := Publisher.fullName_step hserver
  have hkinds := kinds_of_call hguard hserver
  simp only [hbytes, htold]
  have hkept : ∀ m : UpdateMessage, (∃ d, c.server.fullName d = m.channelName ∧
      m.accessMode = (c.server.channels d).accessMode ∧
      m.dataType = (c.server.channels d).dataType) →
      ∃ d, server.fullName d = m.channelName ∧ m.accessMode = (server.channels d).accessMode ∧
        m.dataType = (server.channels d).dataType := by
    rintro m ⟨d, hname, haccess, htype⟩
    exact ⟨d, hnames ▸ hname, haccess.trans (hkinds d).1.symm, htype.trans (hkinds d).2.symm⟩
  rcases hnew with rfl | ⟨d, u, rfl, hu, hfollowed, hname, haccess, htype⟩
  · refine h.send nofun (fun m hm => hkept m ?_) ?_ (hnames ▸ h.injective)
    · rw [List.append_nil] at hm
      exact h.server m hm
    · rw [List.append_nil]
      exact h.followed
  · have hupdates : updates (c.sent ++ [.update u]) = updates c.sent ++ [u.message] := by
      rw [updates_append]
      rfl
    refine h.send ?_ (fun m hm => hkept m ?_) ?_ (hnames ▸ h.injective)
    · intro m hm
      rw [List.mem_singleton.1 hm]
      exact hu
    · rw [hupdates, List.mem_append, List.mem_singleton] at hm
      rcases hm with hm | rfl
      · exact h.server m hm
      · exact ⟨d, hname, haccess, htype⟩
    · rw [hupdates]
      exact throughout_snoc.2 ⟨h.followed, hfollowed⟩

theorem Told.answer (h : Told c s carried done) {channelName : Str}
    (hguard : Guard socketParam c (.answer channelName)) :
    Told ⟨c.server, ⟨c.stream.client,
      c.stream.rest ++ ((LinkMessage.success channelName).text ++ [';'])⟩,
      c.sent ++ [.success channelName]⟩ s carried done := by
  have hupdates : updates (c.sent ++ [.success channelName]) = updates c.sent := by
    rw [updates_append]
    exact List.append_nil _
  have htold := @Told.send c s carried done h [.success channelName] c.server
    (fun m hm => by rw [List.mem_singleton.1 hm]; exact hguard) (hupdates ▸ h.server)
    (hupdates ▸ h.followed) h.injective
  simpa using htold

/-- What one event preserves. -/
theorem told_step {e : ChannelEvent} (h : Told c s carried done) (hguard : Guard socketParam c e)
    (hstep : c.step clib world socketParam e = some c') :
    ∃ s' carried' done', Told c' s' carried' done' := by
  cases e with
  | call call => exact ⟨s, carried, done, h.call hguard hstep⟩
  | answer channelName =>
    obtain rfl := Option.some.inj hstep
    exact ⟨s, carried, done, h.answer hguard⟩
  | receive data =>
    obtain ⟨stream, hstream, rfl⟩ := Option.map_eq_some_iff.1 hstep
    exact h.receive hguard hstream

/-- The invariant holds in every state reached. -/
theorem exists_told (h : Reach (step clib world socketParam) Starts (Guard socketParam) c) :
    ∃ s carried done, Told c s carried done := by
  refine h.invariant (I := fun c => ∃ s carried done, Told c s carried done) (fun c hc => ?_) ?_
  · obtain ⟨s, hs⟩ := told_of_starts hc
    exact ⟨s, [], [], hs⟩
  · rintro c e c' ⟨s, carried, done, hs⟩ hguard hstep
    exact told_step hs hguard hstep

/-- When nothing is under way, all messages are handled. -/
theorem Told.done_eq (h : Told c s carried done) (hrest : c.stream.rest = []) : done = c.sent := by
  have hall := h.framed.remaining.done_eq fieldsOf_nil
    (by rw [hrest, List.append_nil]; exact h.framed.noSemicolon)
  rw [filterMap_text h.tellable, h.messages] at hall
  have hlength : done.length = c.sent.length := by simpa using congrArg List.length hall
  exact h.initial.eq_of_length hlength

/-- From the server's channels to the client's. The client has handled the first updates that were
sent, and all of them when nothing is under way. It has an object for each channel of these, with
the value that the channel had at the last of them, and no other objects. -/
theorem holds_of_guard (clib : CLib) (world : ClientWorld) (socketParam : ℕ) (c : ChannelLink)
    (h : Reach (step clib world socketParam) Starts (Guard socketParam) c) :
    ∃ s told, c.stream.client = some s ∧ told <+: updates c.sent ∧
      (c.stream.rest = [] → told = updates c.sent) ∧
      (∀ name m, board told name = some m → s.Holds m) ∧
      ∀ name, board told name = none → s.objects.getObject name = none := by
  obtain ⟨s, carried, done, htold⟩ := exists_told h
  refine ⟨s, updates done, htold.framed.client, htold.initial.filterMap _, fun hrest => ?_,
    fun name m hm => ?_, htold.mirrors.registered⟩
  · rw [htold.done_eq hrest]
  · exact htold.mirrors.holds hm (mem_of_board hm).2

/-- A server with strings, of which the first is called `/a`. -/
def server_a : Publisher :=
  .new .windows true (fun d => '/' :: List.replicate (d + 1) 'a')
    (fun _ => .readWriteString (.new ['x'])) fun _ => true

/-- The update of that string. -/
def update_x : Update := ⟨['/', 'a'], true, .inr ['x'], 0⟩

theorem tellable_x : update_x.Tellable := by
  refine ⟨⟨rfl, by decide⟩, ⟨by decide, by decide, by decide, ?_⟩, ⟨by decide, ?_⟩, ?_, nofun,
    by decide⟩
  all_goals
    rintro _ ⟨⟩
    decide

/-- The update is published. -/
theorem reach_a (world : ClientWorld) : ∃ server,
    Reach (step Update.clib_zero world 1) Starts (Guard 1)
      ⟨server, ⟨some .new, "Update:/a:W:S:x:0;".toList⟩, [.update update_x]⟩ := by
  have hstart : Starts ⟨server_a, ⟨some .new, []⟩, []⟩ := by
    refine ⟨fun d d' heq => ?_, rfl, rfl, .new, rfl, rfl, rfl, rfl⟩
    simpa [server_a, Publisher.new] using congrArg List.length heq
  have h₀ : Reach (step Update.clib_zero world 1) Starts (Guard 1) _ := .start hstart
  have h₁ := h₀.next (e := ChannelEvent.call (.insertSubscribeChannel 1 0 0)) trivial rfl
  have h₂ := h₁.next
    (e := ChannelEvent.call (.update 0 (fun _ => .accepted 18) fun _ => 0)) (fun _ =>
      ⟨update_x, rfl, tellable_x, Or.inr (by decide),
        fun _ => ⟨by decide, fun _ _ heq => by cases heq⟩⟩) rfl
  exact ⟨_, h₂⟩

/-- The update is received. -/
theorem holds_of_guard_a : ∃ (c : ChannelLink) (s : SubscriberClient), c.stream.client = some s ∧
    updates c.sent = [update_x.message] ∧ s.Holds update_x.message := by
  obtain ⟨server, h⟩ := reach_a .quiet
  have h := h.next (e := ChannelEvent.receive "Update:/a:W:S:x:0;".toList) (by
    rintro _ ⟨⟩
    exact Or.inl ⟨"Update:/a:W:S:x:0".toList, rfl⟩) rfl
  obtain ⟨s, told, hclient, -, hall, hholds, -⟩ := holds_of_guard Update.clib_zero .quiet 1 _ h
  refine ⟨_, s, hclient, rfl, hholds ['/', 'a'] _ ?_⟩
  rw [hall rfl]
  rfl

end ChannelLink

end Ick
