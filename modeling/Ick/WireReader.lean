import Ick.Reach
import Ick.ServiceCall

/-!
# The wire readers

The client of the subscriber sockets and the server of the service sockets read alike : the bytes
received are split at `;` and the pieces at `:`, the last piece of a full buffer is carried over,
and the room for the next bytes is what is left beside it. Here a reader is looked at from the
peer's side, who may send any bytes : a piece that is not there is an index outside a vector, an
exception may escape, and the room may be used up. What is done about a message that was
understood is up to the program (`CallEnd`).

The server carries a piece over only after another one, so its room is never used up, and only
a service that throws is a danger to it (`CallsReturn`). The client carries over whatever is left,
which may be all of a full buffer, or nothing at all (`Carries`). With these conditions on each
segment, both are safe (`robust_of_carries`), and a segment that does not meet them is one round
away from a fault or a buffer without room (`not_robust_of_not_carries`,
`not_robust_of_not_callsReturn`).
-/

namespace Ick

/-- How the program's part in the handling of a message ends : a call of the program returns,
throws, or the behaviour is undefined. -/
inductive CallEnd
  | returns
  | throws
  | crash
  deriving DecidableEq

/-- How the handling of the pieces ends : they are all handled, a send has failed, an exception
was thrown, the behaviour of the program is undefined, or a vector was indexed outside its
size. -/
inductive PieceEnd
  | returns
  | breaks
  | throws
  | crash
  | outside
  deriving DecidableEq

/-- The end of a call. -/
def CallEnd.pieceEnd : CallEnd → PieceEnd
  | returns => .returns
  | throws => .throws
  | crash => .crash

theorem CallEnd.pieceEnd_ne_outside (callEnd : CallEnd) : callEnd.pieceEnd ≠ .outside := by
  cases callEnd <;> exact PieceEnd.noConfusion

/-- The end of a call of a control object. -/
def CallEnd.ofOutcome {σ : Type*} : Outcome σ → CallEnd
  | .ok _ => .returns
  | .throws _ _ => .throws
  | .crash => .crash

/-- What must not happen in a handler. -/
inductive Fault
  | outside
  | escapes

/-- A connection : its handler waits for bytes, it has ended, or something has happened that must
not. -/
inductive WireState
  | reading (r : Reader)
  | ended
  | fault (f : Fault)

/-- The handler receives bytes, with what the program does about the messages; or nothing comes
in time, and the handler is called again or not. -/
inductive WireEvent (ε : Type*)
  | bytes (data : Str) (env : ε)
  | timedOut (again : Bool)

namespace WireReader

/-! ## Splitting -/

/-- `trim`. Of blanks alone nothing is left. The byte before an emptied text is read then, and if
it is a blank too, `trim` does not return. -/
def trim (s : Str) : Str := (s.dropWhile (· = ' ')).rdropWhile (· = ' ')

/-- The loop of `split`, and what follows it. -/
def splitLoop (pattern : Char) : ℕ → Str → List Str
  | 0, s => if s = [] then [] else [s]
  | fuel + 1, s =>
    if pattern ∈ s then
      let rest := trim ((s.dropWhile (· ≠ pattern)).drop 1)
      if rest = [pattern] then [s.takeWhile (· ≠ pattern), [], rest]
      else s.takeWhile (· ≠ pattern) :: splitLoop pattern fuel rest
    else if s = [] then [] else [s]

/-- `split` -/
def split (str : Str) (pattern : Char) : List Str := splitLoop pattern (trim str).length (trim str)

/-! ## Pieces -/

/-- The fields at these places are compared with texts, up to the first that differs; `none` if
one of them is not there. -/
def compareAll (tmp : List Str) : List (ℕ × String) → Option Bool
  | [] => some true
  | (i, text) :: rest =>
    match tmp[i]? with
    | none => none
    | some field => if field = text.toList then compareAll tmp rest else some false

/-- `tmp.size() > n && ...` -/
def hasFields (tmp : List Str) (n : ℕ) (texts : List (ℕ × String)) : Option Bool :=
  if tmp.length > n then compareAll tmp texts else some false

/-- What the client understands, with the fields that it reads. -/
inductive ClientMessage
  | update (channelName accessMode dataType value timeStamp : Str)
  | subscribed (channelName : Str)
  | channelList (nodeName size nodeNames : Str)
  | other

/-- The branches of the client; `none` if a field is read that is not there. -/
def clientMessage (tmp : List Str) : Option ClientMessage := do
  if ← hasFields tmp 5 [(0, "Update")] then
    return .update (← tmp[1]?) (← tmp[2]?) (← tmp[3]?) (← tmp[4]?) (← tmp[5]?)
  else if ← hasFields tmp 2 [(0, "Subscribe"), (1, "Success")] then
    return .subscribed (← tmp[2]?)
  else if ← hasFields tmp 3 [(0, "ChannelList")] then
    return .channelList (← tmp[1]?) (← tmp[2]?) (← tmp[3]?)
  else
    return .other

/-- What the server understands, with the fields that it reads. -/
inductive ServerMessage
  | runService (objectName serviceName params : Str)
  | heartBeat
  | other

/-- The branches of the server; `none` if a field is read that is not there. -/
def serverMessage (tmp : List Str) : Option ServerMessage := do
  if ← hasFields tmp 2 [(0, "RunService")] then
    return .runService (← tmp[1]?) (← tmp[2]?) (← if tmp.length > 3 then tmp[3]? else some [])
  else if ← hasFields tmp 0 [(0, "HeartBeat")] then
    return .heartBeat
  else
    return .other

/-! ## The client -/

/-- The body of the client's loop. A value is decoded before the program does anything. -/
def clientPiece (callEnd : CallEnd) (data : Str) : PieceEnd :=
  match clientMessage (split data ':') with
  | none => .outside
  | some (.update _ _ _ value _) =>
    if decodeData value = none then .throws else callEnd.pieceEnd
  | some (.subscribed _) => callEnd.pieceEnd
  | some (.channelList _ _ _) => callEnd.pieceEnd
  | some .other => .returns

/-- The client's loop, `n` rounds of it from the `i`th piece on. -/
def clientLoop (ends : ℕ → CallEnd) (datas : List Str) : ℕ → ℕ → PieceEnd
  | 0, _ => .returns
  | n + 1, i =>
    match datas[i]? with
    | none => .outside
    | some data =>
      match clientPiece (ends i) data with
      | .returns => clientLoop ends datas n (i + 1)
      | pieceEnd => pieceEnd

/-- What the client's program does about the messages of a segment, and whether the handler is
called again after an exception, which it has caught. -/
structure ClientEnv where
  ends : ℕ → CallEnd
  again : Bool

/-- One round of the client, with `len` bytes just written into the buffer. If there is no
piece, then `dataSize` is -1 and the last place is the largest number. -/
def clientRound (env : ClientEnv) (r : Reader) (len : ℕ) : WireState :=
  let datas := split r.text ';'
  match clientLoop env.ends datas (if r.full len then datas.length - 1 else datas.length) 0 with
  | .returns =>
    if r.full len then
      match datas[datas.length - 1]? with
      | none => .fault .outside
      | some last => .reading (r.carry len last)
    else .reading (r.carry len [])
  | .breaks => .ended
  | .throws => if env.again then .reading .new else .ended
  | .crash => .ended
  | .outside => .fault .outside

/-! ## The server -/

/-- What the server's program does about a message : whether the answer can be sent, and how the
call of the service ends, if there is a control object to call. -/
structure ServerEnv where
  sends : Bool
  call : Option CallEnd

/-- The body of the server's loop, up to the carry-over. -/
def serverPiece (env : ServerEnv) (data : Str) : PieceEnd :=
  match serverMessage (split data ':') with
  | none => .outside
  | some (.runService _ _ _) =>
    if env.sends then (env.call.getD .returns).pieceEnd else .breaks
  | some .heartBeat => .returns
  | some .other => .returns

/-- The server's loop, `n` rounds of it from the `i`th piece on. -/
def serverLoop (env : ℕ → ServerEnv) (len : ℕ) (datas : List Str) :
    ℕ → ℕ → Reader → PieceEnd × Reader
  | 0, _, r => (.returns, r)
  | n + 1, i, r =>
    match datas[i]? with
    | none => (.outside, r)
    | some data =>
      match serverPiece (env i) data with
      | .returns =>
        if r.full len then
          match datas[datas.length - 1]? with
          | none => (.outside, r)
          | some last => serverLoop env len datas n (i + 1) (r.carry len last)
        else serverLoop env len datas n (i + 1) (r.carry len [])
      | pieceEnd => (pieceEnd, r)

/-- One round of the server, with `len` bytes just written into the buffer. -/
def serverRound (env : ℕ → ServerEnv) (r : Reader) (len : ℕ) : WireState :=
  let datas := split r.text ';'
  match serverLoop env len datas (if r.full len then datas.length - 1 else datas.length) 0 r with
  | (.returns, r) => .reading r
  | (.breaks, r) => .reading r
  | (.throws, _) => .fault .escapes
  | (.crash, _) => .ended
  | (.outside, _) => .fault .outside

/-! ## Connections -/

/-- An event, for a handler with these rounds. The bytes fit into the room that is offered. -/
def step {ε : Type*} (round : ε → Reader → ℕ → WireState) : WireState → WireEvent ε →
    Option WireState
  | .reading r, .bytes data env =>
    if data ≠ [] ∧ data.length ≤ r.room then some (round env (r.write data) data.length) else none
  | .reading _, .timedOut again => some (if again then .reading .new else .ended)
  | _, _ => none

/-- Nothing has happened that must not, and the room offered is positive and fits behind the text
carried over. -/
def Robust : WireState → Prop
  | .reading r => 0 < r.room ∧ r.strTmp.length + r.room ≤ bufferSize - 1
  | .ended => True
  | .fault _ => False

/-- A segment that fills the client's buffer leaves something to be carried over, and this is not
the whole buffer : there is something else than blanks, and there is a semicolon, a zero byte, or a
blank at an end. -/
def Carries : WireState → WireEvent ClientEnv → Prop
  | .reading r, .bytes data _ => data.length = r.room →
    trim (r.write data).text ≠ [] ∧
      ¬((r.write data).text.length = bufferSize - 1 ∧ ';' ∉ (r.write data).text ∧
        trim (r.write data).text = (r.write data).text)
  | _, _ => True

/-- None of the calls made for these pieces throws, from the `i`th on, until an answer cannot be
sent. -/
def NoneThrows (env : ℕ → ServerEnv) : ℕ → List Str → Prop
  | _, [] => True
  | i, data :: datas =>
    match serverMessage (split data ':') with
    | some (.runService _ _ _) =>
      (env i).sends = true → (env i).call ≠ some .throws ∧
        ((env i).call ≠ some .crash → NoneThrows env (i + 1) datas)
    | _ => NoneThrows env (i + 1) datas

/-- No service that is called for the segment throws. -/
def CallsReturn : WireState → WireEvent (ℕ → ServerEnv) → Prop
  | .reading r, .bytes data env =>
    let datas := split (r.write data).text ';'
    NoneThrows env 0
      (datas.take (if r.full data.length then datas.length - 1 else datas.length))
  | _, _ => True

/-! ## Lengths of pieces -/

variable {pattern : Char} {s piece : Str}

/-- Where `trim` of the strict model returns, it returns the same. -/
theorem trim_of_converter {t : Str} (h : Converter.trim s = some t) : trim s = t := by
  unfold Converter.trim at h
  split_ifs at h with hs hd
  · rw [hs, ← Option.some.inj h]
    rfl
  · exact Option.some.inj h

theorem splitLoop_of_converter {fuel : ℕ} {pieces : List Str}
    (h : Converter.splitLoop pattern fuel s = some pieces) : splitLoop pattern fuel s = pieces := by
  induction fuel generalizing s pieces with
  | zero => exact Option.some.inj h
  | succ fuel ih =>
    rw [Converter.splitLoop] at h
    rw [splitLoop]
    split_ifs at h with hp hs
    · rw [if_pos hp]
      cases htrim : Converter.trim ((s.dropWhile (· ≠ pattern)).drop 1) with
      | none =>
        rw [htrim] at h
        cases h
      | some rest =>
        rw [htrim] at h
        dsimp only at h
        rw [trim_of_converter htrim]
        split_ifs at h with hrest
        · exact (if_pos hrest).trans (Option.some.inj h)
        · obtain ⟨pieces', h', rfl⟩ := Option.map_eq_some_iff.1 h
          exact (if_neg hrest).trans (congrArg _ (ih h'))
    · rw [if_neg hp, if_pos hs, ← Option.some.inj h]
    · rw [if_neg hp, if_neg hs, ← Option.some.inj h]

theorem split_of_converter {pieces : List Str} (h : Converter.split s pattern = some pieces) :
    split s pattern = pieces := by
  unfold Converter.split at h
  cases htrim : Converter.trim s with
  | none => simp [htrim] at h
  | some t =>
    rw [htrim] at h
    rw [split, trim_of_converter htrim]
    exact splitLoop_of_converter h

theorem trim_sublist (s : Str) : (trim s).Sublist s :=
  (List.rdropWhile_prefix _ _).sublist.trans (List.dropWhile_suffix _).sublist

theorem length_trim_le (s : Str) : (trim s).length ≤ s.length := (trim_sublist s).length_le

/-- What is left behind a separator is shorter. -/
theorem length_rest_lt (hp : pattern ∈ s) :
    (trim ((s.dropWhile (· ≠ pattern)).drop 1)).length < s.length := by
  have hle := length_trim_le ((s.dropWhile (· ≠ pattern)).drop 1)
  have hsuffix := (List.dropWhile_suffix (l := s) fun c => decide (c ≠ pattern)).length_le
  have hpos := List.length_pos_of_mem hp
  rw [List.length_drop] at hle
  omega

/-- What stands before a separator is shorter. -/
theorem length_takeWhile_lt (hp : pattern ∈ s) :
    (s.takeWhile (· ≠ pattern)).length < s.length := by
  refine (List.takeWhile_prefix _).length_le.lt_of_ne fun heq => ?_
  have hself := (List.takeWhile_prefix (l := s) fun c => decide (c ≠ pattern)).eq_of_length heq
  simpa using List.takeWhile_eq_self_iff.1 hself pattern hp

theorem splitLoop_of_notMem {fuel : ℕ} (hp : pattern ∉ s) :
    splitLoop pattern fuel s = if s = [] then [] else [s] := by
  cases fuel with
  | zero => rw [splitLoop]
  | succ fuel => rw [splitLoop, if_neg hp]

theorem mem_splitLoop_of_notMem {fuel : ℕ} (hp : pattern ∉ s)
    (hpiece : piece ∈ splitLoop pattern fuel s) : piece = s := by
  rw [splitLoop_of_notMem hp] at hpiece
  split_ifs at hpiece
  · cases hpiece
  · exact List.mem_singleton.1 hpiece

/-- A piece is no longer than the text, and shorter if there is a separator in it. -/
theorem length_of_mem_splitLoop {fuel : ℕ} (hfuel : s.length ≤ fuel)
    (hpiece : piece ∈ splitLoop pattern fuel s) :
    piece.length ≤ s.length ∧ (pattern ∈ s → piece.length < s.length) := by
  by_cases hp : pattern ∈ s
  · suffices hlt : piece.length < s.length from ⟨hlt.le, fun _ => hlt⟩
    induction fuel generalizing s with
    | zero => exact absurd hfuel (Nat.not_le.2 (List.length_pos_of_mem hp))
    | succ fuel ih =>
      have hrest := length_rest_lt hp
      have hfirst := length_takeWhile_lt hp
      rw [splitLoop, if_pos hp] at hpiece
      dsimp only at hpiece
      split_ifs at hpiece
      · simp only [List.mem_cons, List.not_mem_nil, or_false] at hpiece
        rcases hpiece with rfl | rfl | rfl
        · exact hfirst
        · exact List.length_pos_of_mem hp
        · exact hrest
      · rcases List.mem_cons.1 hpiece with rfl | hpiece
        · exact hfirst
        · by_cases hp' : pattern ∈ trim ((s.dropWhile (· ≠ pattern)).drop 1)
          · exact (ih (by omega) hpiece hp').trans hrest
          · rw [mem_splitLoop_of_notMem hp' hpiece]
            exact hrest
  · rw [mem_splitLoop_of_notMem hp hpiece]
    exact ⟨le_rfl, fun h => absurd h hp⟩

theorem length_le_of_mem_split (hpiece : piece ∈ split s pattern) : piece.length ≤ s.length :=
  (length_of_mem_splitLoop le_rfl hpiece).1.trans (length_trim_le s)

/-- A piece that is as long as the text is the text. -/
theorem eq_of_mem_split (hpiece : piece ∈ split s pattern) (hlength : piece.length = s.length) :
    pattern ∉ s ∧ trim s = s := by
  obtain ⟨hle, hlt⟩ := length_of_mem_splitLoop le_rfl hpiece
  have htrim := (trim_sublist s).eq_of_length_le (by omega)
  refine ⟨fun hp => ?_, htrim⟩
  rw [htrim] at hlt
  exact (hlt hp).ne hlength

/-- There is a piece unless there is nothing but blanks. -/
theorem split_ne_nil (h : trim s ≠ []) : split s pattern ≠ [] := by
  rw [split]
  cases hfuel : (trim s).length with
  | zero => exact absurd (List.length_eq_zero_iff.1 hfuel) h
  | succ fuel =>
    rw [splitLoop]
    split_ifs
    · dsimp only
      split_ifs <;> exact List.cons_ne_nil _ _
    · exact List.cons_ne_nil _ _

/-- If there are two pieces, none of them is the whole text. -/
theorem length_lt_of_two_le (htwo : 2 ≤ (split s pattern).length)
    (hpiece : piece ∈ split s pattern) : piece.length < s.length := by
  refine (length_le_of_mem_split hpiece).lt_of_ne fun hlength => ?_
  obtain ⟨hp, htrim⟩ := eq_of_mem_split hpiece hlength
  rw [split, htrim, splitLoop_of_notMem hp] at htwo
  split_ifs at htwo
  · simp at htwo
  · simp at htwo

/-! ## Every index is in range -/

variable {tmp : List Str}

theorem compareAll_eq_some {texts : List (ℕ × String)} (h : ∀ x ∈ texts, x.1 < tmp.length) :
    ∃ b, compareAll tmp texts = some b := by
  induction texts with
  | nil => exact ⟨true, rfl⟩
  | cons x rest ih =>
    obtain ⟨hx, hrest⟩ := List.forall_mem_cons.1 h
    rw [compareAll, List.getElem?_eq_getElem hx]
    dsimp only
    split_ifs
    · exact ih hrest
    · exact ⟨false, rfl⟩

/-- The size is looked at first. -/
theorem hasFields_eq_some {n : ℕ} {texts : List (ℕ × String)} (h : ∀ x ∈ texts, x.1 ≤ n) :
    ∃ b, hasFields tmp n texts = some b ∧ (b = true → n < tmp.length) := by
  unfold hasFields
  split_ifs with hn
  · obtain ⟨b, hb⟩ := @compareAll_eq_some tmp texts fun x hx => (h x hx).trans_lt hn
    exact ⟨b, hb, fun _ => hn⟩
  · exact ⟨false, rfl, fun hfalse => absurd hfalse Bool.false_ne_true⟩

theorem getElem?_eq_some_of_lt {i n : ℕ} (hn : n < tmp.length) (hi : i ≤ n) :
    ∃ field, tmp[i]? = some field :=
  ⟨_, List.getElem?_eq_getElem (hi.trans_lt hn)⟩

theorem clientMessage_eq_some (tmp : List Str) : ∃ message, clientMessage tmp = some message := by
  obtain ⟨b₁, hb₁, hlt₁⟩ := @hasFields_eq_some tmp 5 [(0, "Update")] (by simp)
  obtain ⟨b₂, hb₂, hlt₂⟩ := @hasFields_eq_some tmp 2 [(0, "Subscribe"), (1, "Success")] (by simp)
  obtain ⟨b₃, hb₃, hlt₃⟩ := @hasFields_eq_some tmp 3 [(0, "ChannelList")] (by simp)
  rw [clientMessage, hb₁, hb₂, hb₃]
  rcases b₁ with _ | _
  · rcases b₂ with _ | _
    · rcases b₃ with _ | _
      · exact ⟨_, rfl⟩
      · have hlt := hlt₃ rfl
        obtain ⟨_, h₁⟩ := getElem?_eq_some_of_lt (i := 1) hlt (by omega)
        obtain ⟨_, h₂⟩ := getElem?_eq_some_of_lt (i := 2) hlt (by omega)
        obtain ⟨_, h₃⟩ := getElem?_eq_some_of_lt (i := 3) hlt le_rfl
        rw [h₁, h₂, h₃]
        exact ⟨_, rfl⟩
    · obtain ⟨_, h₂⟩ := getElem?_eq_some_of_lt (i := 2) (hlt₂ rfl) le_rfl
      rw [h₂]
      exact ⟨_, rfl⟩
  · have hlt := hlt₁ rfl
    obtain ⟨_, h₁⟩ := getElem?_eq_some_of_lt (i := 1) hlt (by omega)
    obtain ⟨_, h₂⟩ := getElem?_eq_some_of_lt (i := 2) hlt (by omega)
    obtain ⟨_, h₃⟩ := getElem?_eq_some_of_lt (i := 3) hlt (by omega)
    obtain ⟨_, h₄⟩ := getElem?_eq_some_of_lt (i := 4) hlt (by omega)
    obtain ⟨_, h₅⟩ := getElem?_eq_some_of_lt (i := 5) hlt le_rfl
    rw [h₁, h₂, h₃, h₄, h₅]
    exact ⟨_, rfl⟩

theorem serverMessage_eq_some (tmp : List Str) : ∃ message, serverMessage tmp = some message := by
  obtain ⟨b₁, hb₁, hlt₁⟩ := @hasFields_eq_some tmp 2 [(0, "RunService")] (by simp)
  obtain ⟨b₂, hb₂, -⟩ := @hasFields_eq_some tmp 0 [(0, "HeartBeat")] (by simp)
  rw [serverMessage, hb₁, hb₂]
  rcases b₁ with _ | _
  · rcases b₂ with _ | _
    · exact ⟨_, rfl⟩
    · exact ⟨_, rfl⟩
  · obtain ⟨_, h₁⟩ := getElem?_eq_some_of_lt (i := 1) (hlt₁ rfl) (by omega)
    obtain ⟨_, h₂⟩ := getElem?_eq_some_of_lt (i := 2) (hlt₁ rfl) le_rfl
    rw [h₁, h₂]
    by_cases h : tmp.length > 3 <;> simp [h]

theorem clientPiece_ne_outside (callEnd : CallEnd) (data : Str) :
    clientPiece callEnd data ≠ .outside := by
  obtain ⟨message, hmessage⟩ := clientMessage_eq_some (split data ':')
  rw [clientPiece, hmessage]
  cases message with
  | update channelName accessMode dataType value timeStamp =>
    dsimp only
    split_ifs
    · exact PieceEnd.noConfusion
    · exact CallEnd.pieceEnd_ne_outside callEnd
  | subscribed channelName => exact CallEnd.pieceEnd_ne_outside callEnd
  | channelList nodeName size nodeNames => exact CallEnd.pieceEnd_ne_outside callEnd
  | other => exact PieceEnd.noConfusion

theorem serverPiece_ne_outside (env : ServerEnv) (data : Str) :
    serverPiece env data ≠ .outside := by
  obtain ⟨message, hmessage⟩ := serverMessage_eq_some (split data ':')
  rw [serverPiece, hmessage]
  cases message with
  | runService objectName serviceName params =>
    dsimp only
    split_ifs
    · exact CallEnd.pieceEnd_ne_outside _
    · exact PieceEnd.noConfusion
  | heartBeat => exact PieceEnd.noConfusion
  | other => exact PieceEnd.noConfusion

theorem clientLoop_ne_outside {ends : ℕ → CallEnd} {datas : List Str} {n i : ℕ}
    (h : i + n ≤ datas.length) : clientLoop ends datas n i ≠ .outside := by
  induction n generalizing i with
  | zero => exact PieceEnd.noConfusion
  | succ n ih =>
    rw [clientLoop, List.getElem?_eq_getElem (by omega)]
    dsimp only
    split
    · exact ih (by omega)
    · exact clientPiece_ne_outside _ _

/-! ## The room that is left -/

/-- There is room behind the text carried over, and nothing is behind the buffer. -/
def Fits (r : Reader) : Prop :=
  r.buff.length ≤ bufferSize - 1 ∧ r.strTmp.length < bufferSize - 1

variable {r : Reader} {len : ℕ} {data : Str} {datas : List Str}

theorem fits_new : Fits .new := by
  unfold Fits Reader.new bufferSize
  simp

theorem Fits.robust (h : Fits r) : Robust (.reading r) := by
  have hlt := h.2
  unfold Robust Reader.room
  omega

theorem Fits.length_text_write (h : Fits r) (hdata : data.length ≤ r.room) :
    (r.write data).text.length ≤ bufferSize - 1 := by
  obtain ⟨hbuff, hstrTmp⟩ := h
  rw [Reader.room] at hdata
  refine (List.takeWhile_prefix _).length_le.trans ?_
  simp only [Reader.write, List.length_append, List.length_take, List.length_replicate,
    List.length_drop]
  omega

theorem Fits.write (h : Fits r) (hdata : data.length ≤ r.room) : Fits (r.write data) := by
  obtain ⟨hbuff, hstrTmp⟩ := h
  refine ⟨?_, hstrTmp⟩
  rw [Reader.room] at hdata
  simp only [Reader.write, List.length_append, List.length_take, List.length_replicate,
    List.length_drop]
  omega

theorem fits_carry {last : Str} (h : r.full len = true → last.length < bufferSize - 1) :
    Fits (r.carry len last) := by
  unfold Reader.carry
  split_ifs with hfull
  · exact ⟨(h hfull).le, h hfull⟩
  · exact fits_new

/-- The last piece of a text that fits has room behind it, unless it is all of a full buffer. -/
theorem length_last_lt {s last : Str} (hs : s.length ≤ bufferSize - 1)
    (hall : ¬(s.length = bufferSize - 1 ∧ ';' ∉ s ∧ trim s = s)) (hlast : last ∈ split s ';') :
    last.length < bufferSize - 1 := by
  have hle := length_le_of_mem_split hlast
  refine (hle.trans hs).lt_of_ne fun hlength => hall ?_
  have heq : s.length = bufferSize - 1 := le_antisymm hs (hlength ▸ hle)
  exact ⟨heq, eq_of_mem_split hlast (hlength.trans heq.symm)⟩

/-- The server's loop stays inside the pieces and leaves room. It carries the last piece over, in
a round that is the only one just when the buffer is not full. -/
theorem serverLoop_spec {env : ℕ → ServerEnv} {n i : ℕ} (hr : Fits r) (h : i + n ≤ datas.length)
    (hcarry : ∀ last ∈ datas, last.length < bufferSize - 1 ∨ n ≤ 1 ∧ (r.full len = true → n = 0)) :
    (serverLoop env len datas n i r).1 ≠ .outside ∧ Fits (serverLoop env len datas n i r).2 := by
  induction n generalizing i r with
  | zero => exact ⟨PieceEnd.noConfusion, hr⟩
  | succ n ih =>
    obtain ⟨last, hlast⟩ : ∃ last, datas[datas.length - 1]? = some last :=
      ⟨_, List.getElem?_eq_getElem (by omega)⟩
    have hnext : ∀ r' : Reader, ∀ last ∈ datas,
        last.length < bufferSize - 1 ∨ n ≤ 1 ∧ (r'.full len = true → n = 0) := by
      intro r' last hmem
      refine (hcarry last hmem).imp_right fun hn => ?_
      omega
    rw [serverLoop, List.getElem?_eq_getElem (by omega)]
    dsimp only
    split
    · rw [hlast]
      dsimp only
      split_ifs with hfull
      · refine ih (fits_carry fun _ => ?_) (by omega) (hnext _)
        refine (hcarry last (List.mem_of_getElem? hlast)).resolve_right fun hn => ?_
        exact absurd (hn.2 hfull) (Nat.succ_ne_zero n)
      · exact ih (fits_carry fun hfull' => absurd hfull' hfull) (by omega) (hnext _)
    · exact ⟨serverPiece_ne_outside _ _, hr⟩

/-! ## Exceptions -/

/-- A piece is handled without an exception, and if it does not end the loop, so are those behind
it. -/
theorem noneThrows_cons {env : ℕ → ServerEnv} {i : ℕ} : NoneThrows env i (data :: datas) ↔
    serverPiece (env i) data ≠ .throws ∧
      (serverPiece (env i) data = .returns → NoneThrows env (i + 1) datas) := by
  obtain ⟨message, hmessage⟩ := serverMessage_eq_some (split data ':')
  rw [NoneThrows, serverPiece, hmessage]
  cases message with
  | runService objectName serviceName params =>
    dsimp only
    cases hsends : (env i).sends with
    | false => simp
    | true =>
      rcases hcall : (env i).call with _ | _ | _ | _
      · simp [CallEnd.pieceEnd]
      · simp [CallEnd.pieceEnd]
      · simp [CallEnd.pieceEnd]
      · simp [CallEnd.pieceEnd]
  | heartBeat => simp
  | other => simp

/-- The loop ends with an exception exactly if one of the calls throws. -/
theorem serverLoop_eq_throws_iff {env : ℕ → ServerEnv} {n i : ℕ} (hn : i + n ≤ datas.length) :
    (serverLoop env len datas n i r).1 = .throws ↔
      ¬NoneThrows env i ((datas.drop i).take n) := by
  induction n generalizing i r with
  | zero => exact iff_of_false PieceEnd.noConfusion (not_not.2 trivial)
  | succ n ih =>
    have hlt : i < datas.length := by omega
    rw [serverLoop, List.getElem?_eq_getElem hlt, List.drop_eq_getElem_cons hlt,
      List.take_succ_cons, noneThrows_cons, List.getElem?_eq_getElem (by omega)]
    dsimp only
    split
    · next hreturns =>
      have hiff : ¬(serverPiece (env i) datas[i] ≠ .throws ∧
          (serverPiece (env i) datas[i] = .returns →
            NoneThrows env (i + 1) ((datas.drop (i + 1)).take n))) ↔
          ¬NoneThrows env (i + 1) ((datas.drop (i + 1)).take n) := by
        simp [hreturns]
      rw [hiff]
      split_ifs
      · exact ih (by omega)
      · exact ih (by omega)
    · next hpiece =>
      dsimp only
      rw [not_and_or, not_not]
      exact (or_iff_left fun hnot => hnot fun hreturns => absurd hreturns hpiece).symm

/-! ## Runs -/

/-- What every step keeps. -/
def Sound : WireState → Prop
  | .reading r => Fits r
  | .ended => True
  | .fault _ => False

theorem Sound.robust {s : WireState} (h : Sound s) : Robust s := by
  cases s with
  | reading r => exact Fits.robust h
  | ended => exact trivial
  | fault f => exact h

theorem sound_clientRound {env : ClientEnv} (hr : Fits r) (hdata : data.length ≤ r.room)
    (hcarries : Carries (.reading r) (.bytes data env)) :
    Sound (clientRound env (r.write data) data.length) := by
  have hne : ∀ n ≤ (split (r.write data).text ';').length,
      clientLoop env.ends (split (r.write data).text ';') n 0 ≠ .outside :=
    fun n hn => clientLoop_ne_outside (by omega)
  unfold clientRound
  dsimp only
  split
  · split_ifs with hfull
    · obtain ⟨htrim, hall⟩ := hcarries (of_decide_eq_true hfull)
      have hpos := List.length_pos_iff.2 (@split_ne_nil ';' _ htrim)
      rw [List.getElem?_eq_getElem (by omega)]
      exact fits_carry fun _ =>
        length_last_lt (hr.length_text_write hdata) hall (List.getElem_mem _)
    · exact fits_carry fun hfull' => absurd hfull' hfull
  · exact trivial
  · split_ifs
    · exact fits_new
    · exact trivial
  · exact trivial
  · next houtside =>
    refine absurd houtside (hne _ ?_)
    split_ifs
    · exact Nat.sub_le _ _
    · exact le_rfl

theorem sound_serverRound {env : ℕ → ServerEnv} (hr : Fits r) (hdata : data.length ≤ r.room)
    (hreturn : CallsReturn (.reading r) (.bytes data env)) :
    Sound (serverRound env (r.write data) data.length) := by
  have htext := hr.length_text_write hdata
  have hlast : ∀ last ∈ split (r.write data).text ';',
      last.length < bufferSize - 1 ∨ (split (r.write data).text ';').length ≤ 1 := by
    intro last hmem
    refine (Nat.lt_or_ge 1 (split (r.write data).text ';').length).imp (fun htwo => ?_) id
    exact (length_lt_of_two_le htwo hmem).trans_le htext
  unfold serverRound
  dsimp only [CallsReturn] at hreturn ⊢
  generalize split (r.write data).text ';' = datas at hreturn hlast ⊢
  generalize hn : (if (r.write data).full data.length then datas.length - 1 else datas.length) = n
  have hle : n ≤ datas.length := by
    rw [← hn]
    split_ifs <;> omega
  have hcarry : ∀ last ∈ datas,
      last.length < bufferSize - 1 ∨ n ≤ 1 ∧ ((r.write data).full data.length = true → n = 0) := by
    intro last hmem
    refine (hlast last hmem).imp_right fun hone => ⟨hle.trans hone, fun hfull => ?_⟩
    rw [← hn, if_pos hfull]
    omega
  have hspec := @serverLoop_spec _ data.length _ env _ _ (hr.write hdata)
    ((Nat.zero_add n).trans_le hle) hcarry
  have hthrows : (serverLoop env data.length datas n 0 (r.write data)).1 ≠ .throws := by
    rw [ne_eq, serverLoop_eq_throws_iff ((Nat.zero_add n).trans_le hle), List.drop_zero, not_not,
      ← hn]
    exact hreturn
  split
  · next heq =>
    rw [heq] at hspec
    exact hspec.2
  · next heq =>
    rw [heq] at hspec
    exact hspec.2
  · next heq => exact absurd (congrArg Prod.fst heq) hthrows
  · exact trivial
  · next heq => exact absurd (congrArg Prod.fst heq) hspec.1

/-- The bytes of an event fit into the room, and the state after it is that after the round. -/
theorem step_cases {ε : Type*} {round : ε → Reader → ℕ → WireState} {s s' : WireState}
    {e : WireEvent ε} (h : step round s e = some s') :
    (∃ r data env, s = .reading r ∧ e = .bytes data env ∧ data.length ≤ r.room ∧
      s' = round env (r.write data) data.length) ∨
    s' = .reading .new ∨ s' = .ended := by
  unfold step at h
  split at h
  · next r data env =>
    split_ifs at h with hdata
    exact .inl ⟨r, data, env, rfl, rfl, hdata.2, (Option.some.inj h).symm⟩
  · next r again =>
    refine .inr ?_
    rw [← Option.some.inj h]
    cases again
    · exact .inr rfl
    · exact .inl rfl
  · cases h

/-- A step of a handler whose rounds are sound keeps it sound. -/
theorem sound_step {ε : Type*} {round : ε → Reader → ℕ → WireState}
    {C : WireState → WireEvent ε → Prop}
    (hround : ∀ r data env, Fits r → data.length ≤ r.room → C (.reading r) (.bytes data env) →
      Sound (round env (r.write data) data.length))
    {s s' : WireState} {e : WireEvent ε} (hs : Sound s) (hC : C s e)
    (h : step round s e = some s') : Sound s' := by
  obtain ⟨r, data, env, rfl, rfl, hdata, rfl⟩ | rfl | rfl := step_cases h
  · exact hround r data env hs hdata hC
  · exact fits_new
  · exact trivial

/-- A run of a handler whose rounds are sound reaches robust states only. -/
theorem robust_of_reach {ε : Type*} {round : ε → Reader → ℕ → WireState}
    {C : WireState → WireEvent ε → Prop}
    (hround : ∀ r data env, Fits r → data.length ≤ r.room → C (.reading r) (.bytes data env) →
      Sound (round env (r.write data) data.length))
    {s : WireState} (h : Reach (step round) (· = .reading .new) C s) : Robust s :=
  Sound.robust <| h.invariant (by rintro _ rfl; exact fits_new)
    fun _ _ _ hs hC hstep => sound_step hround hs hC hstep

/-- With these conditions on each segment, all states of a client and of a server are robust. -/
theorem robust_of_carries {client server : WireState}
    (hclient : Reach (step clientRound) (· = .reading .new) Carries client)
    (hserver : Reach (step serverRound) (· = .reading .new) CallsReturn server) :
    Robust client ∧ Robust server :=
  ⟨robust_of_reach (fun _ _ _ => sound_clientRound) hclient,
    robust_of_reach (fun _ _ _ => sound_serverRound) hserver⟩

theorem step_bytes {ε : Type*} {round : ε → Reader → ℕ → WireState} {env : ε} (hne : data ≠ [])
    (hdata : data.length ≤ r.room) :
    step round (.reading r) (.bytes data env) = some (round env (r.write data) data.length) :=
  if_pos ⟨hne, hdata⟩

/-- An answer and the begin of another message. -/
def cutSegment (rest : Str) : Str := "Subscribe:Success:a;".toList ++ rest

/-- A text that `trim` and `split` leave alone. -/
structure Whole (rest : Str) : Prop where
  ne_nil : rest ≠ []
  noBlank : ' ' ∉ rest
  noSeparator : ';' ∉ rest
  noZero : '\x00' ∉ rest

theorem whole_letters {n : ℕ} (hn : n ≠ 0) : Whole (List.replicate n 'x') where
  ne_nil := mt (List.replicate_eq_nil_iff _).1 hn
  noBlank h := absurd (List.eq_of_mem_replicate h) (by decide)
  noSeparator h := absurd (List.eq_of_mem_replicate h) (by decide)
  noZero h := absurd (List.eq_of_mem_replicate h) (by decide)

section

variable {rest : Str}

theorem text_write_cutSegment (h : Whole rest) :
    (Reader.new.write (cutSegment rest)).text = cutSegment rest := by
  have hanswer : '\x00' ∉ "Subscribe:Success:a;".toList := by decide
  have hzero : '\x00' ∉ cutSegment rest := fun hmem =>
    (List.mem_append.1 hmem).elim hanswer h.noZero
  exact Reader.text_write_holding (c := []) hzero

theorem split_cutSegment (h : Whole rest) :
    split (cutSegment rest) ';' = ["Subscribe:Success:a".toList, rest] := by
  obtain ⟨hhead, hlast⟩ := Converter.ends_of_noBlank h.noBlank
  refine split_of_converter (Converter.split_flatMap_append (l := ["Subscribe:Success:a".toList])
    (by decide) h.ne_nil h.noSeparator hhead hlast ?_)
  exact List.forall_mem_singleton.2 ⟨by decide, by decide⟩

/-- A client whose buffer is full handles the answer, and carries over the rest. -/
theorem clientRound_cutSegment (h : Whole rest)
    (hfull : (cutSegment rest).length = Reader.new.room) :
    clientRound ⟨fun _ => .returns, true⟩ (Reader.new.write (cutSegment rest))
      (cutSegment rest).length = .reading (.holding rest) := by
  have hfull' : (Reader.new.write (cutSegment rest)).full (cutSegment rest).length = true :=
    decide_eq_true hfull
  have hpiece : clientPiece .returns "Subscribe:Success:a".toList = .returns := by decide
  have hloop : clientLoop (fun _ => .returns) ["Subscribe:Success:a".toList, rest] 1 0 =
      .returns := by
    rw [clientLoop]
    dsimp only [List.getElem?_cons_zero]
    rw [hpiece]
    rfl
  unfold clientRound
  rw [text_write_cutSegment h, split_cutSegment h]
  dsimp only
  rw [if_pos hfull']
  dsimp only [List.length_cons, List.length_nil]
  rw [hloop]
  exact (if_pos hfull').trans (congrArg WireState.reading (if_pos hfull'))

theorem carries_cutSegment {env : ClientEnv} (h : Whole rest) :
    Carries (.reading .new) (.bytes (cutSegment rest) env) := by
  intro
  rw [text_write_cutSegment h]
  refine ⟨fun htrim => ?_, fun hall => hall.2.1 ?_⟩
  · have hsplit := split_cutSegment h
    rw [split, htrim] at hsplit
    cases hsplit
  · exact List.mem_append_left _ (by decide)

end

theorem robust_of_carries_segment : ∃ server,
    step clientRound (.reading .new)
      (.bytes (cutSegment (List.replicate 4075 'x')) ⟨fun _ => .returns, true⟩) =
        some (.reading (.holding (List.replicate 4075 'x'))) ∧
    step serverRound (.reading .new)
      (.bytes "RunService:/a:b:1;HeartBeat;".toList fun _ => ⟨true, some .returns⟩) = some server ∧
    Robust (.reading (.holding (List.replicate 4075 'x'))) ∧ Robust server := by
  have hwhole : Whole (List.replicate 4075 'x') := whole_letters (by decide)
  have hfull : (cutSegment (List.replicate 4075 'x')).length = Reader.new.room := by
    have hanswer : "Subscribe:Success:a;".toList.length = 20 := by decide
    refine List.length_append.trans ?_
    rw [List.length_replicate, hanswer]
    rfl
  have hstep : step clientRound (.reading .new)
      (.bytes (cutSegment (List.replicate 4075 'x')) ⟨fun _ => .returns, true⟩) =
        some (.reading (.holding (List.replicate 4075 'x'))) := by
    rw [← clientRound_cutSegment hwhole hfull]
    exact step_bytes (List.cons_ne_nil _ _) hfull.le
  have hreturn : CallsReturn (.reading .new)
      (.bytes "RunService:/a:b:1;HeartBeat;".toList fun _ => ⟨true, some .returns⟩) :=
    fun _ => ⟨by decide, fun _ => trivial⟩
  exact ⟨_, hstep, rfl, robust_of_carries
    (.next (.start rfl) (carries_cutSegment hwhole) hstep) (.next (.start rfl) hreturn rfl)⟩

/-! ## The conditions are exact -/

/-- A segment that does not meet the condition leaves the client without room, or without a piece
to carry over. -/
theorem not_robust_of_not_carries {env : ClientEnv}
    (h : ¬Carries (.reading r) (.bytes data env)) :
    ¬Robust (clientRound env (r.write data) data.length) := by
  unfold Carries at h
  rw [Classical.not_imp, not_and_or, not_not, not_not] at h
  obtain ⟨hdata, htext⟩ := h
  have hfull : (r.write data).full data.length = true := decide_eq_true hdata
  unfold clientRound
  dsimp only
  rw [if_pos hfull, if_pos hfull]
  rcases htext with hblank | ⟨hlength, hmem, htrim⟩
  · have hsplit : split (r.write data).text ';' = [] := by rw [split, hblank]; rfl
    rw [hsplit]
    exact id
  · have hsplit : split (r.write data).text ';' = [(r.write data).text] := by
      rw [split, htrim, splitLoop_of_notMem hmem, if_neg]
      rintro hnil
      rw [hnil] at hlength
      cases hlength
    rw [hsplit]
    rintro ⟨hroom, -⟩
    rw [Reader.carry, if_pos hfull, Reader.room, hlength] at hroom
    exact absurd hroom (Nat.sub_self _).not_gt

/-- A service that throws in a segment ends the server's handler with an exception. -/
theorem not_robust_of_not_callsReturn {env : ℕ → ServerEnv}
    (h : ¬CallsReturn (.reading r) (.bytes data env)) :
    ¬Robust (serverRound env (r.write data) data.length) := by
  have hthrows := (@serverLoop_eq_throws_iff (r.write data) data.length
    (split (r.write data).text ';') env
    (if (r.write data).full data.length then (split (r.write data).text ';').length - 1
      else (split (r.write data).text ';').length) 0 (by split_ifs <;> omega)).2 h
  unfold serverRound
  dsimp only
  generalize serverLoop env data.length _ _ 0 (r.write data) = out at hthrows ⊢
  obtain ⟨pieceEnd, r'⟩ := out
  obtain rfl : pieceEnd = .throws := hthrows
  exact id

theorem text_write_zeros (n : ℕ) : (Reader.new.write (List.replicate n '\x00')).text = [] := by
  cases n <;> rfl

theorem text_write_letters (n : ℕ) :
    (Reader.new.write (List.replicate n 'a')).text = List.replicate n 'a' := by
  refine Reader.text_write_holding (c := []) fun hmem => ?_
  exact absurd (List.eq_of_mem_replicate hmem) (by decide)

theorem trim_letters (n : ℕ) : trim (List.replicate n 'a') = List.replicate n 'a' := by
  have hdrop : ∀ m, (List.replicate m 'a').dropWhile (fun c => decide (c = ' ')) =
      List.replicate m 'a' := by
    intro m
    cases m <;> rfl
  rw [trim, List.rdropWhile, hdrop, List.reverse_replicate, hdrop, List.reverse_replicate]

/-- Zero bytes that fill the buffer leave no piece, letters that fill it leave no room, and a
parameter `%` makes a service throw. -/
theorem not_robust_zeros :
    (∃ s, step clientRound (.reading .new)
        (.bytes (List.replicate 4095 '\x00') ⟨fun _ => .returns, true⟩) = some s ∧ ¬Robust s) ∧
    (∃ s, step clientRound (.reading .new)
        (.bytes (List.replicate 4095 'a') ⟨fun _ => .returns, true⟩) = some s ∧ ¬Robust s) ∧
    (∃ s, step serverRound (.reading .new) (.bytes "RunService:/a:b:%;".toList fun _ =>
        ⟨true, some (.ofOutcome (object_b.call Update.clib_zero "b".toList "%".toList))⟩) = some s ∧
      ¬Robust s) := by
  have hlength : ∀ c : Char, (List.replicate 4095 c).length = Reader.new.room := fun c =>
    List.length_replicate
  have hne : ∀ c : Char, List.replicate 4095 c ≠ [] := fun c hnil =>
    absurd ((List.replicate_eq_nil_iff c).1 hnil) (by decide)
  refine ⟨⟨_, step_bytes (hne _) (hlength _).le, not_robust_of_not_carries fun h => ?_⟩,
    ⟨_, step_bytes (hne _) (hlength _).le, not_robust_of_not_carries fun h => ?_⟩,
    ⟨_, rfl, id⟩⟩
  · refine (h (hlength _)).1 ?_
    rw [text_write_zeros]
    rfl
  · refine (h (hlength _)).2 ?_
    rw [text_write_letters]
    refine ⟨List.length_replicate, fun hmem => ?_, trim_letters _⟩
    exact absurd (List.eq_of_mem_replicate hmem) (by decide)

end WireReader

end Ick
