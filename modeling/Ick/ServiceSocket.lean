import Ick.Delimited
import Ick.ObjectManager
import Ick.Reach
import Ick.Socket

/-!
# The service server

The server branch of `IckStormServiceSocket::socketConnectHandler` receives
`RunService:object:service:params;` messages, answers each, and calls the service. It reads
in rounds : the buffer is split at `;`, and if the bytes received have filled it, the last
piece is not processed but carried over to the next round.

The carry-over is renewed inside the loop over the pieces, where it changes the room that
its own condition compares with, and a piece is carried over only from a full buffer.
`Cut` says what a segment must be like for the messages to survive it; in every run of
segments like that the services called are those of the messages sent
(`called_of_cut`).
-/

namespace Ick

/-- What the server does on a connection and to its objects. -/
inductive ServiceEvent
  | send (data : Str)
  | call (objectName serviceName params : Str)

/-- The world of the server branch : which sends succeed, after what has been done before,
and the registry that object names are looked up in. -/
structure ServiceWorld where
  sends : List ServiceEvent → Str → Bool
  objects : ObjectManager

/-- The handler of one connection of the server. -/
structure ServiceServer where
  recvBlockMode : Bool
  isAlive : Bool
  reader : Reader
  log : List ServiceEvent

namespace ServiceServer

/-- One more event. -/
def logged (s : ServiceServer) (e : ServiceEvent) : ServiceServer :=
  { s with log := s.log ++ [e] }

/-- The fields of a `RunService` message, without the first. -/
def runService : List Str → Option (Str × Str × Str)
  | command :: objectName :: serviceName :: rest =>
    if command = "RunService".toList then some (objectName, serviceName, rest.headD [])
    else none
  | _ => none

/-- The body of the loop over the pieces, up to the carry-over. The other branches, for
`HeartBeat` and for a message that is not understood, only write to the log of the
program. -/
def handle (world : ServiceWorld) (s : ServiceServer) (data : Str) : Flow ServiceServer :=
  match Converter.split data ':' with
  | none => .crash
  | some tmp =>
    match runService tmp with
    | none => .next s
    | some (objectName, serviceName, params) =>
      let sendData := "RunService:Success:".toList ++ objectName ++ [':'] ++ serviceName ++ [';']
      if world.sends s.log sendData then
        let s := s.logged (.send sendData)
        match world.objects.getObject objectName with
        | some (.control _) => .next (s.logged (.call objectName serviceName params))
        | _ => .next s
      else .brk s

/-- The loop over the pieces, after `len` bytes were received and with `last` the last of
all pieces. A failed send leaves it before the carry-over. -/
def handleAll (world : ServiceWorld) (len : ℕ) (last : Str) :
    List Str → ServiceServer → Flow ServiceServer
  | [], s => .next s
  | data :: datas, s =>
    match handle world s data with
    | .next s => handleAll world len last datas { s with reader := s.reader.carry len last }
    | .brk s => .next s
    | .ret s => .ret s
    | .crash => .crash

/-- One round, with `len` bytes just written into the buffer. -/
def round (world : ServiceWorld) (s : ServiceServer) (len : ℕ) : Flow ServiceServer :=
  match Converter.split s.reader.text ';' with
  | none => .crash
  | some datas =>
    handleAll world len (datas.getLastD [])
      (datas.take (if s.reader.full len then datas.length - 1 else datas.length)) s

/-- What the handler does about one call of `recv`. When nothing comes in time it returns
`true`, and the thread of the connection calls it again, with new local variables. -/
def onReceive (world : ServiceWorld) (s : ServiceServer) (e : RecvEvent) :
    Flow ServiceServer :=
  match receive s.recvBlockMode s.isAlive e with
  | (.bytes data, isAlive) =>
    round world { s with isAlive := isAlive, reader := s.reader.write data } data.length
  | (.zero, isAlive) => .next { s with isAlive := isAlive, reader := .new }
  | (.negative, isAlive) => .ret { s with isAlive := isAlive }

/-- The handler of a new connection. -/
def new (recvBlockMode : Bool) : ServiceServer where
  recvBlockMode := recvBlockMode
  isAlive := true
  reader := .new
  log := []

/-- The calls of services among the events. -/
def callsOf (log : List ServiceEvent) : List (Str × Str × Str) :=
  log.filterMap fun
    | .send _ => none
    | .call objectName serviceName params => some (objectName, serviceName, params)

/-- The calls of services, in order. -/
def calls (s : ServiceServer) : List (Str × Str × Str) := callsOf s.log

/-- The calls made for a message that arrives alone in one segment. -/
def callsAlone (world : ServiceWorld) (message : Str) : List (Str × Str × Str) :=
  match onReceive world (new false) (.bytes (message ++ [';'])) with
  | .next s => s.calls
  | _ => []

end ServiceServer

/-! ## Segments of a stream -/

/-- A connection : the handler, unless it has run into undefined behaviour or closed the
connection, and the bytes that are still to come. -/
structure ServiceStream where
  server : Option ServiceServer
  rest : Str

namespace ServiceStream

/-- The handler receives a segment of the stream, not empty and not longer than the room
that it offers, or nothing comes in time. -/
def step (world : ServiceWorld) (c : ServiceStream) (e : RecvEvent) : Option ServiceStream :=
  match c.server with
  | none => none
  | some s =>
    let server := match s.onReceive world e with
      | .next s => some s
      | _ => none
    match e with
    | .bytes data =>
      if data ≠ [] ∧ data.length ≤ s.reader.room ∧ data <+: c.rest then
        some ⟨server, c.rest.drop data.length⟩
      else none
    | .timedOut => some ⟨server, c.rest⟩
    | _ => none

/-- A new connection, not in blocking mode, on which these messages are sent. -/
def Sends (messages : List Str) (c : ServiceStream) : Prop :=
  c.server = some (.new false) ∧ c.rest = messages.flatMap (· ++ [';'])

/-- A text without zero bytes, blanks, and semicolons, of fewer than 4000 bytes. -/
structure IsMessage (message : Str) : Prop where
  noZero : '\x00' ∉ message
  noBlank : ' ' ∉ message
  noSemicolon : ';' ∉ message
  short : message.length < 4000

/-- The last piece of a full buffer is still carried over after all pieces before it have
been processed : there is one of these, or it is as long as what was carried over before,
or nothing was and their number is odd. -/
def CarrySurvives (strTmp text : Str) : Prop :=
  text.count ';' = 1 ∨ (text.reverse.takeWhile (· ≠ ';')).length = strTmp.length ∨
    (strTmp = [] ∧ Odd (text.count ';'))

/-- The condition on a segment, or on a time-out. -/
def Cut (c : ServiceStream) (e : RecvEvent) : Prop :=
  ∀ s, c.server = some s → match e with
    | .bytes data =>
      if data.length = s.reader.room then
        ¬[';'] <:+ s.reader.strTmp ++ data ∧
          CarrySurvives s.reader.strTmp (s.reader.strTmp ++ data)
      else
        [';'] <:+ s.reader.strTmp ++ data ∨ c.rest.drop data.length = [] ∨
          [';'] <+: c.rest.drop data.length
    | .timedOut => s.reader.strTmp = []
    | _ => True

end ServiceStream

/-! ## The loop over the pieces -/

namespace Reader

/-- A buffer that is not full is clear after the first piece, and stays so. -/
theorem iterate_carry_of_not_full {r : Reader} {len : ℕ} (hfull : len ≠ r.room)
    (hlen : len < bufferSize - 1) (last : Str) (n : ℕ) :
    (fun r => r.carry len last)^[n + 1] r = new := by
  have hnew : ∀ n, (fun r => r.carry len last)^[n] new = new := by
    intro n
    induction n with
    | zero => rfl
    | succ n ih =>
      have hroom : len ≠ new.room := hlen.ne
      rw [Function.iterate_succ_apply, carry_eq, if_neg hroom, holding_nil, ih]
  rw [Function.iterate_succ_apply, carry_eq, if_neg hfull, holding_nil, hnew]

/-- A full buffer keeps its last piece if there is one piece before it, if the piece is as
long as what was carried over, or if nothing was and the pieces before it are odd in
number. -/
theorem iterate_carry_of_full {r : Reader} {len : ℕ} (hfull : len = r.room) {last : Str}
    (hlast : last ≠ []) {n : ℕ}
    (h : n = 1 ∨ (n ≠ 0 ∧ last.length = r.strTmp.length) ∨ (r.strTmp = [] ∧ Odd n)) :
    (fun r => r.carry len last)^[n] r = holding last := by
  have hone : r.carry len last = holding last := by rw [carry_eq, if_pos hfull]
  rcases h with rfl | ⟨hn, hlength⟩ | ⟨hnil, m, rfl⟩
  · exact hone
  · obtain ⟨m, rfl⟩ := Nat.exists_eq_succ_of_ne_zero hn
    have hroom : len = (holding last).room := by
      rw [hfull, room, room, holding, hlength]
    rw [Function.iterate_succ_apply, hone]
    induction m with
    | zero => rfl
    | succ m ih =>
      rw [Function.iterate_succ_apply, carry_eq, if_pos hroom]
      exact ih (Nat.succ_ne_zero m)
  · have hlen : len = bufferSize - 1 := by rw [hfull, room, hnil]; rfl
    have hroom : len ≠ (holding last).room := by
      have := List.length_pos_of_ne_nil hlast
      rw [hlen, room, holding]
      simp only [bufferSize]
      omega
    rw [Function.iterate_add_apply, Function.iterate_one, hone]
    induction m with
    | zero => rfl
    | succ m ih =>
      rw [Nat.mul_succ, Function.iterate_add_apply]
      change (fun r => r.carry len last)^[2 * m] (((holding last).carry len last).carry len last)
        = holding last
      rw [carry_eq (holding last), if_neg hroom, holding_nil, carry_eq new,
        if_pos (show len = new.room from hlen), ih]

end Reader

namespace ServiceServer

variable {world : ServiceWorld} {s : ServiceServer}

/-- The call that a piece asks for. -/
def serviceCall (data : Str) : Option (Str × Str × Str) :=
  (Converter.split data ':').bind runService

theorem serviceCall_nil : serviceCall [] = none := rfl

theorem serviceCall_semicolon : serviceCall [';'] = none := by decide

/-- All sends succeed. -/
def Online (world : ServiceWorld) : Prop :=
  ∀ log data, world.sends log data = true

/-- The object that a piece asks for is a control object. -/
def Finds (world : ServiceWorld) (data : Str) : Prop :=
  ∀ objectName serviceName params, serviceCall data = some (objectName, serviceName, params) →
    ∃ object, world.objects.getObject objectName = some (.control object)

theorem handle_eq (hsends : Online world) {data : Str} (hblank : ' ' ∉ data)
    (hfinds : Finds world data) : ∃ log, handle world s data = .next { s with log := log } ∧
      callsOf log = callsOf s.log ++ (serviceCall data).toList := by
  obtain ⟨tmp, htmp⟩ : ∃ tmp, Converter.split data ':' = some tmp :=
    ⟨_, Converter.split_of_noBlank hblank⟩
  have hcall : serviceCall data = runService tmp := by rw [serviceCall, htmp]; rfl
  unfold handle
  simp only [htmp]
  cases hrun : runService tmp with
  | none => exact ⟨s.log, rfl, by rw [hcall, hrun]; simp⟩
  | some call =>
    obtain ⟨objectName, serviceName, params⟩ := call
    obtain ⟨object, hobject⟩ := hfinds _ _ _ (hcall.trans hrun)
    simp only [hsends _ _, if_true, hobject]
    refine ⟨_, rfl, ?_⟩
    rw [hcall, hrun]
    simp [logged, callsOf]

theorem handleAll_eq (hsends : Online world) {len : ℕ} {last : Str} {datas : List Str}
    (hblank : ∀ data ∈ datas, ' ' ∉ data) (hfinds : ∀ data ∈ datas, Finds world data) :
    ∃ log, handleAll world len last datas s =
        .next { s with reader := (fun r => r.carry len last)^[datas.length] s.reader, log := log } ∧
      callsOf log = callsOf s.log ++ datas.filterMap serviceCall := by
  induction datas generalizing s with
  | nil => exact ⟨s.log, rfl, by simp⟩
  | cons data datas ih =>
    rw [List.forall_mem_cons] at hblank hfinds
    obtain ⟨log, hhandle, hcalls⟩ := @handle_eq world s hsends data hblank.1 hfinds.1
    obtain ⟨log', hrest, hcalls'⟩ :=
      @ih { s with reader := s.reader.carry len last, log := log } hblank.2 hfinds.2
    refine ⟨log', ?_, ?_⟩
    · rw [handleAll, hhandle]
      exact hrest
    · rw [hcalls', hcalls, List.append_assoc, List.filterMap_cons]
      cases serviceCall data <;> rfl

/-! ## One round -/

/-- The bytes received stand behind what was carried over, and the pieces before the last
one, or all of them if the buffer is not full, are processed. -/
theorem onReceive_bytes {carried data : Str} {datas : List Str}
    (hreader : s.reader = .holding carried) (hzero : '\x00' ∉ carried ++ data)
    (hsplit : Converter.split (carried ++ data) ';' = some datas) :
    s.onReceive world (.bytes data) =
      handleAll world data.length (datas.getLastD [])
        (datas.take (if data.length = s.reader.room then datas.length - 1 else datas.length))
        { s with isAlive := true, reader := s.reader.write data } := by
  have htext : (s.reader.write data).text = carried ++ data := by
    rw [hreader, Reader.text_write_holding hzero]
  have hfull : (s.reader.write data).full data.length = decide (data.length = s.reader.room) :=
    rfl
  rw [onReceive, receive]
  simp only [round, htext, hsplit, hfull, decide_eq_true_eq]

/-- Bytes that do not fill the buffer : all pieces are processed and nothing is carried
over. -/
theorem onReceive_not_full (hsends : Online world) {carried data : Str}
    (hreader : s.reader = .holding carried) (hdata : data ≠ [])
    (hfull : data.length < s.reader.room) (hzero : '\x00' ∉ carried ++ data)
    (hblank : ' ' ∉ carried ++ data)
    (hfinds : ∀ w ∈ (carried ++ data).splitOn ';', Finds world w) :
    ∃ log, s.onReceive world (.bytes data) =
        .next { s with isAlive := true, reader := .new, log := log } ∧
      callsOf log =
        callsOf s.log ++ ((carried ++ data).splitOn ';').filterMap serviceCall := by
  have hmem : ∀ d ∈ Converter.tidy ';' ((carried ++ data).splitOn ';'),
      ' ' ∉ d ∧ Finds world d := by
    intro d hd
    rcases Converter.mem_tidy hd with hd | rfl
    · exact ⟨fun hb => hblank (Delimited.mem_of_mem_field hd hb), hfinds d hd⟩
    · exact ⟨by decide, fun _ _ _ h => absurd h (by rw [serviceCall_semicolon]; nofun)⟩
  have hne : Converter.tidy ';' ((carried ++ data).splitOn ';') ≠ [] :=
    Converter.tidy_splitOn_ne_nil (by simp [hdata])
  rw [onReceive_bytes hreader hzero (Converter.split_of_noBlank hblank), if_neg hfull.ne,
    List.take_length, ← Converter.filterMap_tidy serviceCall_nil serviceCall_semicolon]
  generalize Converter.tidy ';' ((carried ++ data).splitOn ';') = datas at hmem hne ⊢
  obtain ⟨n, hn⟩ := Nat.exists_eq_succ_of_ne_zero (List.length_pos_of_ne_nil hne).ne'
  obtain ⟨log, hall, hcalls⟩ := @handleAll_eq world
    { s with isAlive := true, reader := s.reader.write data } hsends data.length
    (datas.getLastD []) datas (fun d hd => (hmem d hd).1) fun d hd => (hmem d hd).2
  have hlen : data.length < bufferSize - 1 := hfull.trans_le (Nat.sub_le _ _)
  have hroom : data.length ≠ (s.reader.write data).room := hfull.ne
  rw [hn, Reader.iterate_carry_of_not_full hroom hlen] at hall
  exact ⟨log, hall, hcalls⟩

/-- Bytes that fill the buffer and end inside a message : the pieces before the last one are
processed, and the last one is carried over. -/
theorem onReceive_full (hsends : Online world) {carried data b p : Str}
    (hreader : s.reader = .holding carried) (hfull : data.length = s.reader.room)
    (htext : carried ++ data = b ++ ';' :: p) (hp : p ≠ []) (hpsep : ';' ∉ p)
    (hzero : '\x00' ∉ carried ++ data) (hblank : ' ' ∉ carried ++ data)
    (hfinds : ∀ w ∈ b.splitOn ';', Finds world w)
    (hsurvives : ServiceStream.CarrySurvives carried (carried ++ data)) :
    ∃ log, s.onReceive world (.bytes data) =
        .next { s with isAlive := true, reader := .holding p, log := log } ∧
      callsOf log = callsOf s.log ++ (b.splitOn ';').filterMap serviceCall := by
  have hsplit : Converter.split (carried ++ data) ';' = some (b.splitOn ';' ++ [p]) := by
    rw [Converter.split_of_noBlank hblank, htext, List.splitOn_append_cons_self,
      List.splitOn_eq_singleton hpsep, Converter.tidy_concat hp]
  have hlast : (b.splitOn ';' ++ [p]).getLastD [] = p := by simp
  have htake : (b.splitOn ';' ++ [p]).take ((b.splitOn ';' ++ [p]).length - 1) =
      b.splitOn ';' := by simp
  rw [onReceive_bytes hreader hzero hsplit, if_pos hfull, hlast, htake]
  obtain ⟨log, hall, hcalls⟩ := @handleAll_eq world
    { s with isAlive := true, reader := s.reader.write data } hsends data.length p
    (b.splitOn ';') (fun w hw hb => hblank (by
      rw [htext]
      exact List.mem_append_left _ (Delimited.mem_of_mem_field hw hb))) hfinds
  have hcount : (carried ++ data).count ';' = (b.splitOn ';').length := by
    rw [Delimited.length_splitOn, htext, List.count_append, List.count_cons_self,
      List.count_eq_zero.2 hpsep]
  have htail : (carried ++ data).reverse.takeWhile (· ≠ ';') = p.reverse := by
    rw [htext, List.reverse_append, List.reverse_cons, List.append_assoc, List.singleton_append]
    exact Converter.takeWhile_append_cons (by simpa using hpsep) _
  have hstrTmp : (s.reader.write data).strTmp = carried := by
    rw [hreader]
    rfl
  rw [ServiceStream.CarrySurvives, hcount, htail, List.length_reverse] at hsurvives
  have hroom : data.length = (s.reader.write data).room := hfull
  rw [Reader.iterate_carry_of_full hroom hp] at hall
  · exact ⟨log, hall, hcalls⟩
  · rw [hstrTmp]
    have hpos : (b.splitOn ';').length ≠ 0 := by simp
    tauto

/-- The calls for a message that arrives alone are those that its text asks for. -/
theorem callsAlone_eq (hsends : Online world) {message : Str}
    (hm : ServiceStream.IsMessage message) (hfinds : Finds world message) :
    callsAlone world message = (serviceCall message).toList := by
  have hzero : '\x00' ∉ [] ++ (message ++ [';']) := by simpa using hm.noZero
  have hblank : ' ' ∉ [] ++ (message ++ [';']) := by simpa using hm.noBlank
  have hfields : ([] ++ (message ++ [';'])).splitOn ';' = [message, []] := by
    rw [List.nil_append, List.splitOn_append_cons_self_of_not_mem hm.noSemicolon]
    rfl
  have hroom : (message ++ [';']).length < (new false).reader.room := by
    have := hm.short
    simp only [List.length_append, List.length_singleton]
    change _ < 4095
    omega
  obtain ⟨log, heq, hcalls⟩ := onReceive_not_full hsends
    (show (new false).reader = .holding [] from rfl) (by simp) hroom hzero hblank (by
      rw [hfields]
      intro w hw
      rcases List.mem_pair.1 hw with rfl | rfl
      · exact hfinds
      · exact fun _ _ _ h => absurd h (by rw [serviceCall_nil]; nofun))
  rw [hfields] at hcalls
  rw [callsAlone, heq]
  change callsOf log = _
  rw [hcalls]
  cases hcall : serviceCall message <;> simp [hcall, serviceCall_nil, new, callsOf]

end ServiceServer

/-! ## A run of segments -/

namespace ServiceStream

variable {world : ServiceWorld} {messages : List Str} {c c' : ServiceStream}

/-- The calls are those for the first messages, and no more when the stream has ended. -/
def Called (world : ServiceWorld) (messages : List Str) (c : ServiceStream) : Prop :=
  ∃ s, c.server = some s ∧ s.calls <+: messages.flatMap (ServiceServer.callsAlone world) ∧
    (c.rest = [] → s.calls = messages.flatMap (ServiceServer.callsAlone world))

/-- The invariant : the handler carries over the beginning of the next message, and the calls
made are those for the messages before it. -/
structure Framed (messages : List Str) (c : ServiceStream) (s : ServiceServer)
    (carried : Str) : Prop where
  server : c.server = some s
  mode : s.recvBlockMode = false
  reader : s.reader = .holding carried
  noSemicolon : ';' ∉ carried
  remaining : Delimited.Remaining ';' ServiceServer.serviceCall messages s.calls
    (carried ++ c.rest)

theorem framed_of_sends (hmessages : ∀ m ∈ messages, IsMessage m) (h : Sends messages c) :
    ∃ s carried, Framed messages c s carried := by
  refine ⟨.new false, [], h.1, rfl, rfl, List.not_mem_nil, ?_⟩
  rw [List.nil_append, h.2]
  exact Delimited.remaining_start ServiceServer.serviceCall_nil fun m hm =>
    (hmessages m hm).noSemicolon

theorem finds_of_fields (hfinds : ∀ m ∈ messages, ServiceServer.Finds world m) {w : Str}
    (hw : w = [] ∨ w ∈ messages) : ServiceServer.Finds world w := by
  rcases hw with rfl | hw
  · exact fun _ _ _ h => absurd h (by rw [ServiceServer.serviceCall_nil]; nofun)
  · exact hfinds w hw

theorem Framed.called {s : ServiceServer} {carried : Str} (h : Framed messages c s carried)
    (hsends : ServiceServer.Online world) (hmessages : ∀ m ∈ messages, IsMessage m)
    (hfinds : ∀ m ∈ messages, ServiceServer.Finds world m) : Called world messages c := by
  have hexpected : messages.flatMap (ServiceServer.callsAlone world) =
      messages.filterMap ServiceServer.serviceCall := by
    rw [List.filterMap_eq_flatMap_toList]
    exact List.flatMap_congr fun m hm =>
      ServiceServer.callsAlone_eq hsends (hmessages m hm) (hfinds m hm)
  rw [Called, hexpected]
  refine ⟨s, h.server, h.remaining.initial, fun hrest => ?_⟩
  refine h.remaining.done_eq ServiceServer.serviceCall_nil ?_
  rw [hrest, List.append_nil]
  exact h.noSemicolon

/-- A segment that does not fill the buffer. -/
theorem Framed.step_not_full {s : ServiceServer} {carried : Str} (h : Framed messages c s carried)
    (hsends : ServiceServer.Online world)
    (hfinds : ∀ m ∈ messages, ServiceServer.Finds world m) {data rest : Str}
    (hrest : c.rest = data ++ rest) (hdata : data ≠ []) (hfull : data.length < s.reader.room)
    (hzero : '\x00' ∉ carried ++ data) (hblank : ' ' ∉ carried ++ data)
    (hmeet : Delimited.Meet ';' (carried ++ data) rest) :
    ∃ s', s.onReceive world (.bytes data) = .next s' ∧ Framed messages ⟨some s', rest⟩ s' [] := by
  have hremaining := h.remaining
  rw [hrest, ← List.append_assoc] at hremaining
  obtain ⟨log, heq, hlog⟩ := ServiceServer.onReceive_not_full hsends h.reader hdata hfull hzero
    hblank fun w hw => finds_of_fields hfinds
      ((Delimited.mem_splitOn_append_left hmeet hw).elim Or.inl (hremaining.fields w))
  refine ⟨_, heq, rfl, h.mode, rfl, List.not_mem_nil, ?_⟩
  rw [ServiceServer.calls, hlog]
  exact hremaining.read ServiceServer.serviceCall_nil hmeet

/-- A segment that fills the buffer and ends inside a message. -/
theorem Framed.step_full {s : ServiceServer} {carried : Str} (h : Framed messages c s carried)
    (hsends : ServiceServer.Online world)
    (hfinds : ∀ m ∈ messages, ServiceServer.Finds world m) {data rest b p : Str}
    (hrest : c.rest = data ++ rest) (hfull : data.length = s.reader.room)
    (hzero : '\x00' ∉ carried ++ data) (hblank : ' ' ∉ carried ++ data)
    (htext : carried ++ data = b ++ ';' :: p) (hp : p ≠ []) (hpsep : ';' ∉ p)
    (hsurvives : CarrySurvives carried (carried ++ data)) :
    ∃ s', s.onReceive world (.bytes data) = .next s' ∧ Framed messages ⟨some s', rest⟩ s' p := by
  have hremaining := h.remaining
  rw [hrest, ← List.append_assoc, htext] at hremaining
  obtain ⟨log, heq, hlog⟩ := ServiceServer.onReceive_full hsends h.reader hfull htext hp hpsep
    hzero hblank (fun w hw => finds_of_fields hfinds (hremaining.fields w (by
      rw [Delimited.splitOn_append_cons_append]
      exact List.mem_append_left _ hw))) hsurvives
  refine ⟨_, heq, rfl, h.mode, rfl, hpsep, ?_⟩
  rw [ServiceServer.calls, hlog]
  exact hremaining.keep

theorem Framed.step {s : ServiceServer} {carried : Str} (h : Framed messages c s carried)
    (hsends : ServiceServer.Online world) (hmessages : ∀ m ∈ messages, IsMessage m)
    (hfinds : ∀ m ∈ messages, ServiceServer.Finds world m) {e : RecvEvent} (hcut : Cut c e)
    (hstep : c.step world e = some c') : ∃ s' carried', Framed messages c' s' carried' := by
  have hcut := hcut s h.server
  simp only [ServiceStream.step, h.server] at hstep
  cases e with
  | bytes data =>
    simp only at hstep hcut
    split_ifs at hstep with hseg
    obtain ⟨hdata, hroom, rest, hrest⟩ := hseg
    have hdrop : c.rest.drop data.length = rest := by rw [← hrest, List.drop_left]
    have hstrTmp : s.reader.strTmp = carried := by
      rw [h.reader]
      rfl
    have hremaining := h.remaining
    rw [← hrest, ← List.append_assoc] at hremaining
    have hzero := hremaining.notMem_left (by decide) fun m hm => (hmessages m hm).noZero
    have hblank := hremaining.notMem_left (by decide) fun m hm => (hmessages m hm).noBlank
    rw [Option.some.injEq, hdrop] at hstep
    rw [hdrop] at hcut
    rw [← hstrTmp] at hremaining
    split_ifs at hcut with hfull
    · obtain ⟨hnot, hsurvives⟩ := hcut
      obtain ⟨b, p, htext, hp, hpsep⟩ := Reader.exists_cut hremaining
        (fun m hm => (hmessages m hm).short) hfull hnot
      rw [hstrTmp] at htext hsurvives
      obtain ⟨s', heq, hframed⟩ := h.step_full hsends hfinds hrest.symm hfull hzero hblank htext
        hp hpsep hsurvives
      rw [heq] at hstep
      subst hstep
      exact ⟨s', p, hframed⟩
    · rw [hstrTmp] at hcut
      obtain ⟨s', heq, hframed⟩ := h.step_not_full hsends hfinds hrest.symm hdata
        (lt_of_le_of_ne hroom hfull) hzero hblank hcut
      rw [heq] at hstep
      subst hstep
      exact ⟨s', [], hframed⟩
  | timedOut =>
    simp only [ServiceServer.onReceive, receive, h.mode, Bool.false_eq_true, if_false,
      Option.some.injEq] at hstep
    subst hstep
    have hnil : carried = [] := by
      rw [h.reader] at hcut
      exact hcut
    subst hnil
    exact ⟨_, [], rfl, rfl, rfl, h.noSemicolon, h.remaining⟩
  | closed => cases hstep
  | reset => cases hstep
  | failed => cases hstep

/-- Framing. Where all sends succeed and the objects asked for are control objects, in every
run of a connection on which messages are sent and whose segments and time-outs meet the
condition, the calls made so far are those for the first messages, each alone, and for all
messages once the stream has ended. -/
theorem called_of_cut (hsends : ServiceServer.Online world)
    (hmessages : ∀ m ∈ messages, IsMessage m)
    (hfinds : ∀ m ∈ messages, ServiceServer.Finds world m)
    (h : Reach (ServiceStream.step world) (Sends messages) Cut c) : Called world messages c := by
  have hframed : ∃ s carried, Framed messages c s carried :=
    h.invariant (fun _ hc => framed_of_sends hmessages hc)
      fun _ _ _ ⟨_, _, hs⟩ hcut hstep => hs.step hsends hmessages hfinds hcut hstep
  obtain ⟨s, carried, hs⟩ := hframed
  exact hs.called hsends hmessages hfinds

/-- A server with a control object `/a`. -/
def world_a : ServiceWorld where
  sends _ _ := true
  objects := { ObjectManager.new with entites := Std.TreeMap.insertIfNew ∅ "/a".toList 0 }

/-- A message for the service `b` of that object. -/
def message_ab : Str := "RunService:/a:b".toList

theorem isMessage_ab : ∀ m ∈ [message_ab], IsMessage m := by
  intro m hm
  rw [List.mem_singleton.1 hm]
  exact ⟨by decide, by decide, by decide, by decide⟩

theorem finds_ab : ∀ m ∈ [message_ab], ServiceServer.Finds world_a m := by
  intro m hm objectName serviceName params hcall
  rw [List.mem_singleton.1 hm] at hcall
  obtain ⟨rfl, -⟩ := Prod.mk.inj (Option.some.inj hcall)
  exact ⟨0, by decide⟩

theorem called_before_semicolon : ∃ s, Called world_a [message_ab] ⟨some s, []⟩ := by
  have h₀ : Reach (ServiceStream.step world_a) (Sends [message_ab]) Cut
      ⟨some (.new false), message_ab ++ [';']⟩ := .start ⟨rfl, rfl⟩
  have hcut₁ : Cut ⟨some (.new false), message_ab ++ [';']⟩ (.bytes message_ab) := by
    rintro _ ⟨⟩
    exact Or.inr (Or.inr ⟨[], rfl⟩)
  have h₁ : ServiceStream.step world_a ⟨some (.new false), message_ab ++ [';']⟩
      (.bytes message_ab) = some _ := rfl
  have h₂ := h₀.next hcut₁ h₁
  refine ⟨_, called_of_cut (fun _ _ => rfl) isMessage_ab finds_ab
    (h₂.next (?_ : Cut _ (.bytes [';'])) rfl)⟩
  rintro _ ⟨⟩
  exact Or.inl ⟨[], rfl⟩

/-- One message arrives in two segments, and is not understood. -/
theorem not_called_of_split : ¬∀ world messages c, ServiceServer.Online world →
    (∀ m ∈ messages, IsMessage m) → (∀ m ∈ messages, ServiceServer.Finds world m) →
    Reach (ServiceStream.step world) (Sends messages) (fun _ _ => True) c →
    Called world messages c := by
  intro h
  have h₀ : Reach (ServiceStream.step world_a) (Sends [message_ab]) (fun _ _ => True)
      ⟨some (.new false), message_ab ++ [';']⟩ := .start ⟨rfl, rfl⟩
  have h₁ : ServiceStream.step world_a ⟨some (.new false), message_ab ++ [';']⟩
      (.bytes "RunService:/a".toList) = some _ := rfl
  have h₂ : ServiceStream.step world_a ⟨some (.new false), ":b;".toList⟩ (.bytes ":b;".toList) =
      some _ := rfl
  obtain ⟨s, hs, -, hend⟩ := h world_a [message_ab] _ (fun _ _ => rfl) isMessage_ab finds_ab
    ((h₀.next trivial h₁).next trivial h₂)
  obtain rfl := Option.some.inj hs
  exact absurd (hend rfl) (by decide)

end ServiceStream

end Ick
