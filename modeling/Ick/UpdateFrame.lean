import Ick.ChannelData
import Ick.Escape
import Ick.Socket

/-!
# Update frames

The server tells its subscribers about a channel with a frame
`Update:name:mode:type:value:time;`, which `publish` builds, and the client takes apart with
`Converter::split` at `;` and then at `:`. Of the three characters with a meaning, `:` is
escaped in string values, by `encodeData`, and in no other place.

`Update.arrives_iff_plain` says which updates come through : those whose channel name fits the local
buffer of `publish` and contains no separator and no zero byte, at times below `2^31`, with
a string value that `split` and `decodeData` leave as it is.

`encodeData` and `decodeData` are inverse on texts that do not contain the escape itself
(`decodeLoop_encodeData`), and `decodeData` throws on the text `"%"`, where `length() - 2`
wraps around. Doubles are written and read by the C library (`CLib`).
-/

namespace Ick

/-! ## Escapes -/

/-- `encodeData` -/
def encodeData (data : Str) : Str :=
  data.flatMap fun c => if c = ':' then ['%', '3', 'A'] else [c]

/-- The loop of `decodeData`, on a text that does not consist of one character. -/
def decodeLoop : Str → Str
  | '%' :: '3' :: 'A' :: rest => ':' :: decodeLoop rest
  | c :: rest => c :: decodeLoop rest
  | [] => []

/-- `decodeData`; `none` when it throws. On a text of one character `data.length() - 2` is
the largest number, and `data.at(1)` is tried if the character is `%`. -/
def decodeData (data : Str) : Option Str :=
  if data = ['%'] then none else some (decodeLoop data)

/-- The escape of a colon. -/
def colonEscapes : Escapes Char where
  mark := '%'
  code c := if c = ':' then some ('3', 'A') else none
  elem x y := if x = '3' ∧ y = 'A' then some ':' else none
  elem_eq_some := by
    intro x y c
    by_cases hc : c = ':'
    · simp [hc, eq_comm]
    · simp [hc, Ne.symm hc]
  code_mark := by decide
  plain_fst := by
    intro x y c h
    split_ifs at h
    obtain ⟨rfl, -⟩ := Prod.mk.inj (Option.some.inj h)
    decide
  plain_snd := by
    intro x y c h
    split_ifs at h
    obtain ⟨-, rfl⟩ := Prod.mk.inj (Option.some.inj h)
    decide

/-- The elements with a code. -/
theorem colonEscapes_code {c x y : Char} :
    colonEscapes.code c = some (x, y) ↔ c = ':' ∧ x = '3' ∧ y = 'A' := by
  by_cases hc : c = ':'
  · simp [colonEscapes, hc, eq_comm]
  · simp [colonEscapes, hc]

theorem colonEscapes_code_ne {c : Char} (hc : c ≠ ':') : colonEscapes.code c = none :=
  if_neg hc

theorem colonEscapes_contains {v : Str} : colonEscapes.Contains v ↔ ['%', '3', 'A'] <:+: v := by
  constructor
  · rintro ⟨x, y, c, hc, h⟩
    obtain ⟨-, rfl, rfl⟩ := colonEscapes_code.1 hc
    exact h
  · exact fun h => ⟨'3', 'A', ':', rfl, h⟩

theorem encodeData_eq (v : Str) : encodeData v = colonEscapes.encode v := by
  refine List.flatMap_congr fun c _ => ?_
  by_cases hc : c = ':' <;> simp [Escapes.encodeElem, colonEscapes, hc]

theorem decodeLoop_eq (v : Str) : decodeLoop v = colonEscapes.decode v := by
  induction v using colonEscapes.decode_rec with
  | nil => rfl
  | escape x y d rest hd ih =>
    rw [Escapes.decode_escape hd, ← ih]
    obtain ⟨rfl, rfl, rfl⟩ := colonEscapes_code.1 hd
    rfl
  | plain c v heq hnone ih =>
    rw [heq, ← ih, decodeLoop]
    rintro rest rfl rfl
    exact hnone '3' 'A' ':' rfl ⟨rest, rfl⟩

/-- A byte of an encoding that begins no escape is a byte of the text. -/
theorem exists_of_encodeData_eq_cons {v r : Str} {x : Char} (hx : x ≠ '%')
    (h : encodeData v = x :: r) : ∃ v', v = x :: v' ∧ encodeData v' = r := by
  simp only [encodeData_eq] at h ⊢
  exact Escapes.exists_of_encode_eq_cons hx h

/-- Decoding undoes encoding on a text that does not contain an escape. -/
theorem decodeLoop_encodeData {v : Str} (h : ¬['%', '3', 'A'] <:+: v) :
    decodeLoop (encodeData v) = v := by
  rw [decodeLoop_eq, encodeData_eq]
  exact Escapes.decode_encode (mt colonEscapes_contains.1 h)

/-- A decoded text does not contain an escape. -/
theorem not_escape_decodeLoop (v : Str) : ¬['%', '3', 'A'] <:+: decodeLoop v := by
  rw [decodeLoop_eq, ← colonEscapes_contains]
  exact Escapes.not_contains_decode v

theorem decodeLoop_of_notMem {v : Str} (h : '%' ∉ v) : decodeLoop v = v := by
  rw [decodeLoop_eq]
  exact Escapes.decode_of_notMem h

/-- A byte of a decoded text is a colon or a byte of the text. -/
theorem mem_of_mem_decodeLoop {v : Str} {x : Char} (h : x ∈ decodeLoop v) :
    x = ':' ∨ x ∈ v := by
  rw [decodeLoop_eq] at h
  exact (Escapes.mem_of_mem_decode h).imp_left fun hcode => by_contra fun hx =>
    hcode (colonEscapes_code_ne hx)

/-- A decoded text begins with a colon or as the text does. -/
theorem head?_decodeLoop (v : Str) :
    (decodeLoop v).head? = some ':' ∨ (decodeLoop v).head? = v.head? := by
  rw [decodeLoop_eq]
  cases h : (colonEscapes.decode v).head? with
  | none =>
    rw [List.head?_eq_none_iff, Escapes.decode_eq_nil] at h
    exact Or.inr (by rw [h, List.head?_nil])
  | some x =>
    by_cases hx : x = ':'
    · exact Or.inl (congrArg some hx)
    · exact Or.inr (Escapes.head?_decode h (colonEscapes_code_ne hx)).symm

/-- Decoding gives the text that `decodeData` throws on for that text only. -/
theorem decodeLoop_eq_percent {v : Str} : decodeLoop v = ['%'] ↔ v = ['%'] := by
  rw [decodeLoop_eq]
  exact Escapes.decode_eq_mark

/-- A byte of an encoding is one of an escape or a byte of the text that is no colon. -/
theorem mem_of_mem_encodeData {v : Str} {x : Char} (h : x ∈ encodeData v) :
    x ∈ ['%', '3', 'A'] ∨ (x ∈ v ∧ x ≠ ':') := by
  rw [encodeData_eq] at h
  rcases Escapes.mem_of_mem_encode h with ⟨c, a, b, hc, hx⟩ | ⟨hx, hcode⟩
  · obtain ⟨-, rfl, rfl⟩ := colonEscapes_code.1 hc
    exact Or.inl hx
  · refine Or.inr ⟨hx, ?_⟩
    rintro rfl
    cases hcode

/-- Encoding gives the text that `decodeData` throws on for that text only. -/
theorem encodeData_eq_percent {v : Str} : encodeData v = ['%'] ↔ v = ['%'] := by
  rw [encodeData_eq]
  exact Escapes.encode_eq_mark

/-! ## Frames -/

/-- What the C library makes of a text that is to be a double, and how it writes one with
`%lf`. -/
structure CLib where
  atof : Str → Float
  sprintf : Float → Str

/-- The members of `RemoteValueInfo` that `publish` reads. -/
structure RemoteValueInfo where
  accessMode : AccessMode
  dataType : DataType
  iValue : ℤ
  dValue : Float
  sValue : Str

/-- How `publish` writes an access mode. -/
def accessModeText : AccessMode → Str
  | .DEFAULT => [':', 'U']
  | .READONLY => [':', 'R']
  | .READWRITE => [':', 'W']

/-- How `publish` writes a data type. -/
def dataTypeText : DataType → Str
  | .UNKNOWN => [':', 'U']
  | .INTDATA => [':', 'I']
  | .STRINGDATA => [':', 'S']
  | .DOUBLEDATA => [':', 'D']

/-- How `publish` writes a value. -/
def valueText (clib : CLib) (valueInfo : RemoteValueInfo) : Str :=
  match valueInfo.dataType with
  | .UNKNOWN => [':']
  | .INTDATA => ':' :: Converter.convertToString valueInfo.iValue
  | .DOUBLEDATA => ':' :: clib.sprintf valueInfo.dValue
  | .STRINGDATA => ':' :: encodeData valueInfo.sValue

/-- `convertToString` has an array of 256 bytes for a double and the zero behind it. -/
def RemoteValueInfo.Fits (clib : CLib) (valueInfo : RemoteValueInfo) : Prop :=
  valueInfo.dataType = .DOUBLEDATA → (clib.sprintf valueInfo.dValue).length < 256

instance (clib : CLib) (valueInfo : RemoteValueInfo) : Decidable (valueInfo.Fits clib) :=
  inferInstanceAs (Decidable (_ → _))

/-- The frame that `publish` sends at the time `t`; `none` if it writes the name behind the
end of its local buffer `name`, or leaves no zero byte in it, or if a double is written behind the
end of the array for it. -/
def publish (clib : CLib) (t : ℤ) (channelName : Str) (valueInfo : RemoteValueInfo) :
    Option Str :=
  if (channelName.length < 255 ∨ (channelName.length = 255 ∧ '\x00' ∈ channelName)) ∧
      valueInfo.Fits clib then
    some ("Update:".toList ++ channelName ++ accessModeText valueInfo.accessMode ++
      dataTypeText valueInfo.dataType ++ valueText clib valueInfo ++
      [':'] ++ Converter.convertToString t ++ [';'])
  else none

/-- `IckStormValueInfo` -/
structure IckStormValueInfo where
  accessMode : AccessMode
  dataType : DataType
  timeStamp : ℤ
  iValue : ℤ
  dValue : Float
  sValue : Str

/-- How the client reads an access mode. -/
def accessModeOf (accessMode : Str) : AccessMode :=
  if accessMode = ['U'] then .DEFAULT
  else if accessMode = ['R'] then .READONLY
  else if accessMode = ['W'] then .READWRITE
  else .DEFAULT

/-- How the client reads a data type. -/
def dataTypeOf (dataType : Str) : DataType :=
  if dataType = ['0'] then .UNKNOWN
  else if dataType = ['I'] then .INTDATA
  else if dataType = ['S'] then .STRINGDATA
  else if dataType = ['D'] then .DOUBLEDATA
  else .UNKNOWN

theorem accessModeOf_accessModeText (accessMode : AccessMode) :
    accessModeOf (accessModeText accessMode).tail = accessMode := by
  cases accessMode <;> rfl

theorem dataTypeOf_dataTypeText (dataType : DataType) :
    dataTypeOf (dataTypeText dataType).tail = dataType := by
  cases dataType <;> rfl

/-- How the client reads the fields of a piece : as an update of a channel, as an update
with a value on which `decodeData` throws, or as something else. -/
inductive Reading
  | update (channelName : Str) (valueInfo : IckStormValueInfo)
  | throws
  | other

/-- The first lines of the `Update` branch. -/
def readUpdate (clib : CLib) : List Str → Reading
  | command :: channelName :: accessMode :: dataType :: value :: timeStamp :: _ =>
    if command = "Update".toList then
      match decodeData value with
      | none => .throws
      | some sValue => .update channelName
          { accessMode := accessModeOf accessMode
            dataType := dataTypeOf dataType
            timeStamp := Converter.atoi timeStamp
            iValue := Converter.atoi sValue
            dValue := clib.atof sValue
            sValue := sValue }
    else .other
  | _ => .other

theorem readUpdate_eq_update {clib : CLib} {tmp : List Str} {channelName : Str}
    {valueInfo : IckStormValueInfo} (h : readUpdate clib tmp = .update channelName valueInfo) :
    ∃ accessMode dataType value timeStamp rest,
      tmp = "Update".toList :: channelName :: accessMode :: dataType :: value :: timeStamp :: rest ∧
      value ≠ ['%'] ∧ valueInfo.sValue = decodeLoop value ∧
      valueInfo.timeStamp = Converter.atoi timeStamp := by
  unfold readUpdate at h
  split at h
  · next command name accessMode dataType value timeStamp rest =>
    split_ifs at h with hcommand
    unfold decodeData at h
    split_ifs at h with hvalue
    obtain ⟨rfl, rfl⟩ := Reading.update.inj h
    exact ⟨accessMode, dataType, value, timeStamp, rest, by rw [hcommand], hvalue, rfl, rfl⟩
  · cases h

theorem readUpdate_percent (clib : CLib) (channelName accessMode dataType timeStamp : Str) :
    readUpdate clib ["Update".toList, channelName, accessMode, dataType, ['%'], timeStamp] =
      .throws := by
  rw [readUpdate, if_pos rfl, decodeData, if_pos rfl]

theorem readUpdate_six (clib : CLib) {value : Str} (hvalue : value ≠ ['%'])
    (channelName accessMode dataType timeStamp : Str) :
    readUpdate clib ["Update".toList, channelName, accessMode, dataType, value, timeStamp] =
      .update channelName
        { accessMode := accessModeOf accessMode
          dataType := dataTypeOf dataType
          timeStamp := Converter.atoi timeStamp
          iValue := Converter.atoi (decodeLoop value)
          dValue := clib.atof (decodeLoop value)
          sValue := decodeLoop value } := by
  rw [readUpdate, if_pos rfl, decodeData, if_neg hvalue]

/-- The updates among the pieces of a text; `none` if reading them throws or reads outside
a string. -/
def readPieces (clib : CLib) : List Str → Option (List (Str × IckStormValueInfo))
  | [] => some []
  | data :: datas =>
    match Converter.split data ':' with
    | none => none
    | some tmp =>
      match readUpdate clib tmp with
      | .throws => none
      | .other => readPieces clib datas
      | .update channelName valueInfo =>
        (readPieces clib datas).map ((channelName, valueInfo) :: ·)

/-- Each update that is read comes from one of the pieces. -/
theorem exists_of_mem_readPieces {clib : CLib} {datas : List Str}
    {updates : List (Str × IckStormValueInfo)} (h : readPieces clib datas = some updates)
    {channelName : Str} {valueInfo : IckStormValueInfo}
    (hmem : (channelName, valueInfo) ∈ updates) :
    ∃ data ∈ datas, ∃ tmp, Converter.split data ':' = some tmp ∧
      readUpdate clib tmp = .update channelName valueInfo := by
  induction datas generalizing updates with
  | nil =>
    obtain rfl := Option.some.inj h
    exact absurd hmem List.not_mem_nil
  | cons data datas ih =>
    rw [readPieces] at h
    cases htmp : Converter.split data ':' with
    | none => simp [htmp] at h
    | some tmp =>
      simp only [htmp] at h
      cases hread : readUpdate clib tmp with
      | throws => simp [hread] at h
      | other =>
        simp only [hread] at h
        obtain ⟨data', hdata', hrest⟩ := ih h hmem
        exact ⟨data', List.mem_cons_of_mem _ hdata', hrest⟩
      | update name info =>
        simp only [hread] at h
        obtain ⟨rest, hrest, rfl⟩ := Option.map_eq_some_iff.1 h
        rcases List.mem_cons.1 hmem with heq | hmem
        · obtain ⟨rfl, rfl⟩ := Prod.mk.inj heq
          exact ⟨data, List.mem_cons_self, tmp, htmp, hread⟩
        · obtain ⟨data', hdata', hread'⟩ := ih hrest hmem
          exact ⟨data', List.mem_cons_of_mem _ hdata', hread'⟩

/-- The updates that the client reads from bytes that arrive in one segment and do not fill
the buffer. -/
def readSegment (clib : CLib) (segment : Str) : Option (List (Str × IckStormValueInfo)) :=
  match Converter.split (Reader.new.write segment).text ';' with
  | none => none
  | some datas => readPieces clib datas

/-- `registerObject(UntypedData*, std::string)` accepts the name on an empty registry. -/
def IsChannelName (channelName : Str) : Prop :=
  channelName.head? = some '/' ∧ channelName ≠ ['/']

/-- An update : a channel with its access mode and an integer or a string. -/
structure Update where
  channelName : Str
  readWrite : Bool
  value : ℤ ⊕ Str
  t : ℤ

namespace Update

/-- The access mode of the channel. -/
def accessMode (u : Update) : AccessMode := if u.readWrite then .READWRITE else .READONLY

/-- The data type of the channel. -/
def dataType (u : Update) : DataType :=
  match u.value with
  | .inl _ => .INTDATA
  | .inr _ => .STRINGDATA

/-- What the server passes to `publish`. -/
def remote (u : Update) : RemoteValueInfo where
  accessMode := u.accessMode
  dataType := u.dataType
  iValue := u.value.elim id fun _ => 0
  dValue := 0
  sValue := u.value.elim (fun _ => []) id

/-- The update is one that the server may send : a registered name, an `int` or a string
without zero bytes, a 64-bit time that is not negative, and a frame of fewer than 4095
bytes if `publish` builds one. -/
structure Sendable (clib : CLib) (u : Update) : Prop where
  name : IsChannelName u.channelName
  int : ∀ v, u.value = .inl v → -2 ^ 31 ≤ v ∧ v < 2 ^ 31
  noZero : ∀ v, u.value = .inr v → '\x00' ∉ v
  time : 0 ≤ u.t ∧ u.t < 2 ^ 63
  short : ∀ frame, publish clib u.t u.channelName u.remote = some frame → frame.length < 4095

/-- The frame arrives as one update of the same channel, with the same access mode, data
type, value, and time. -/
def Arrives (clib : CLib) (u : Update) : Prop :=
  ∃ frame valueInfo, publish clib u.t u.channelName u.remote = some frame ∧
    readSegment clib frame = some [(u.channelName, valueInfo)] ∧
    valueInfo.accessMode = u.accessMode ∧ valueInfo.dataType = u.dataType ∧
    (∀ v, u.value = .inl v → valueInfo.iValue = v) ∧
    (∀ v, u.value = .inr v → valueInfo.sValue = v) ∧ valueInfo.timeStamp = u.t

/-- The name is shorter than 255 bytes and without separators and zero bytes, the time is
below `2^31`, and a string value is without semicolons and escapes, does not begin with a
blank, and is not `"%"`. -/
structure Plain (u : Update) : Prop where
  nameShort : u.channelName.length < 255
  nameBytes : '\x00' ∉ u.channelName ∧ ':' ∉ u.channelName ∧ ';' ∉ u.channelName
  time : u.t < 2 ^ 31
  string : ∀ v, u.value = .inr v →
    ';' ∉ v ∧ v.head? ≠ some ' ' ∧ ¬['%', '3', 'A'] <:+: v ∧ v ≠ ['%']

variable {clib : CLib} {u : Update}

/-- What is read in one segment contains no separator in the name and in the value. -/
theorem exists_of_readSegment {segment channelName : Str} {valueInfo : IckStormValueInfo}
    {updates : List (Str × IckStormValueInfo)} (h : readSegment clib segment = some updates)
    (hmem : (channelName, valueInfo) ∈ updates) (hname : channelName.head? = some '/') :
    ('\x00' ∉ channelName ∧ ':' ∉ channelName ∧ ';' ∉ channelName) ∧
    (∃ value, valueInfo.sValue = decodeLoop value ∧ value ≠ ['%'] ∧ ';' ∉ value ∧
      value.head? ≠ some ' ') ∧ valueInfo.timeStamp < 2 ^ 31 := by
  unfold readSegment at h
  cases hdatas : Converter.split (Reader.new.write segment).text ';' with
  | none => simp [hdatas] at h
  | some datas =>
    simp only [hdatas] at h
    obtain ⟨data, hdata, tmp, htmp, hread⟩ := exists_of_mem_readPieces h hmem
    obtain ⟨accessMode, dataType, value, timeStamp, rest, rfl, hvalue, hsValue, htime⟩ :=
      readUpdate_eq_update hread
    obtain ⟨hbytes, hsemicolon, -⟩ := Converter.split_fields hdatas hdata
    obtain ⟨hnameBytes, hnameColon, -⟩ :=
      Converter.split_fields htmp (x := channelName) (by simp)
    obtain ⟨hvalueBytes, -, hvalueHead⟩ := Converter.split_fields htmp (x := value) (by simp)
    -- a lone semicolon has one field only
    have hdataSemicolon : ';' ∉ data := by
      refine hsemicolon.resolve_right ?_
      rintro rfl
      have hone : Converter.split [';'] ':' = some [[';']] := rfl
      rw [hone] at htmp
      simp at htmp
    refine ⟨⟨fun hzero => ?_, ?_, fun hmem => hdataSemicolon (hnameBytes _ hmem)⟩,
      ⟨value, hsValue, hvalue, fun hmem => hdataSemicolon (hvalueBytes _ hmem), hvalueHead⟩,
      htime ▸ Converter.atoi_lt _⟩
    · have htext := hbytes _ (hnameBytes _ hzero)
      rw [Reader.text] at htext
      simpa using List.mem_takeWhile_imp htext
    · refine hnameColon.resolve_right ?_
      rintro rfl
      simp at hname

theorem plain_of_arrives (hsend : Sendable clib u) (h : u.Arrives clib) : u.Plain := by
  obtain ⟨frame, valueInfo, hframe, hread, -, -, -, hstring, htime⟩ := h
  obtain ⟨hbytes, ⟨value, hsValue, hvalue, hsemicolon, hhead⟩, hlt⟩ :=
    exists_of_readSegment hread List.mem_cons_self hsend.name.1
  unfold publish at hframe
  split_ifs at hframe with hlen
  refine ⟨hlen.1.resolve_right fun hl => hbytes.1 hl.2, hbytes, htime ▸ hlt, fun v hv => ?_⟩
  obtain rfl : decodeLoop value = v := by rw [← hsValue, hstring v hv]
  refine ⟨fun hmem => ?_, fun hb => ?_, not_escape_decodeLoop value, fun hpercent => ?_⟩
  · exact (mem_of_mem_decodeLoop hmem).elim (by decide) hsemicolon
  · rcases head?_decodeLoop value with hcolon | heq
    · rw [hcolon] at hb
      simp at hb
    · exact hhead (heq ▸ hb)
  · exact hvalue (decodeLoop_eq_percent.1 hpercent)

/-- The text of the value in the frame, without the colon before it. -/
def field (u : Update) : Str :=
  u.value.elim Converter.convertToString encodeData

/-- The fields of the frame, without the time. -/
def fields (u : Update) : List Str :=
  ["Update".toList, u.channelName, (accessModeText u.accessMode).tail,
    (dataTypeText u.dataType).tail, u.field]

theorem publish_remote (hlen : u.channelName.length < 255) :
    publish clib u.t u.channelName u.remote =
      some (u.fields.flatMap (· ++ [':']) ++ Converter.convertToString u.t ++ [';']) := by
  rcases u with ⟨name, _ | _, value | value, t⟩ <;>
    simp [publish, hlen, RemoteValueInfo.Fits, remote, accessMode, dataType, accessModeText,
      dataTypeText, valueText, fields, field]

theorem Plain.field_bytes (h : u.Plain) : ':' ∉ u.field ∧ ';' ∉ u.field ∧
    u.field.head? ≠ some ' ' ∧ u.field ≠ ['%'] := by
  unfold field
  cases hv : u.value with
  | inl v =>
    refine ⟨Converter.notMem_convertToString (by decide) (by decide),
      Converter.notMem_convertToString (by decide) (by decide), fun hb => ?_, fun heq => ?_⟩
    · exact Converter.notMem_convertToString (z := v) (by decide) (by decide)
        (List.mem_of_mem_head? (Option.mem_def.2 hb))
    · exact Converter.notMem_convertToString (z := v) (c := '%') (by decide) (by decide)
        (by rw [show Converter.convertToString v = ['%'] from heq]; simp)
  | inr v =>
    obtain ⟨hsemicolon, hhead, -, hpercent⟩ := h.string v hv
    refine ⟨fun hmem => ?_, fun hmem => ?_, fun hb => ?_, fun heq => ?_⟩
    · exact (mem_of_mem_encodeData hmem).elim (by decide) fun hc => hc.2 rfl
    · exact (mem_of_mem_encodeData hmem).elim (by decide) fun hc => hsemicolon hc.1
    · obtain ⟨rest, hrest⟩ : ∃ rest, encodeData v = ' ' :: rest := List.head?_eq_some_iff.1 hb
      obtain ⟨v', rfl, -⟩ := exists_of_encodeData_eq_cons (by decide) hrest
      exact hhead rfl
    · exact hpercent (encodeData_eq_percent.1 heq)

theorem noZero_field (hsend : Sendable clib u) : '\x00' ∉ u.field := by
  unfold field
  cases hv : u.value with
  | inl v => exact Converter.notMem_convertToString (by decide) (by decide)
  | inr v =>
    exact fun hmem => (mem_of_mem_encodeData hmem).elim (by decide) fun hc =>
      hsend.noZero v hv hc.1

/-- A byte that is in none of the texts of a frame, and not the one between them. -/
theorem notMem_fields {c : Char} (hc : c = '\x00' ∨ c = ';') (hname : c ∉ u.channelName)
    (hfield : c ∉ u.field) :
    c ∉ u.fields.flatMap (· ++ [':']) ++ Converter.convertToString u.t := by
  have hrest : c ≠ ':' ∧ c ∉ "Update".toList ∧ c ∉ (accessModeText u.accessMode).tail ∧
      c ∉ (dataTypeText u.dataType).tail ∧ c ∉ Converter.convertToString u.t := by
    have htime : c.isDigit = false ∧ c ≠ '-' := by rcases hc with rfl | rfl <;> decide
    refine ⟨?_, ?_, ?_, ?_, Converter.notMem_convertToString htime.1 htime.2⟩
    · rcases hc with rfl | rfl <;> decide
    · rcases hc with rfl | rfl <;> decide
    · cases u.accessMode <;> rcases hc with rfl | rfl <;> decide
    · cases u.dataType <;> rcases hc with rfl | rfl <;> decide
  obtain ⟨hcolon, hcommand, hmode, htype, htime⟩ := hrest
  intro hmem
  rcases List.mem_append.1 hmem with hmem | hmem
  · obtain ⟨x, hx, hmem⟩ := List.mem_flatMap.1 hmem
    rcases List.mem_append.1 hmem with hmem | hmem
    · simp only [fields, List.mem_cons, List.not_mem_nil, or_false] at hx
      rcases hx with rfl | rfl | rfl | rfl | rfl
      · exact hcommand hmem
      · exact hname hmem
      · exact hmode hmem
      · exact htype hmem
      · exact hfield hmem
    · exact hcolon (List.mem_singleton.1 hmem)
  · exact htime hmem

theorem Plain.split_fields (h : u.Plain) (hname : u.channelName.head? = some '/') :
    Converter.split (u.fields.flatMap (· ++ [':']) ++ Converter.convertToString u.t) ':' =
      some (u.fields ++ [Converter.convertToString u.t]) := by
  obtain ⟨hcolon, -, hhead, -⟩ := h.field_bytes
  obtain ⟨htime, htime'⟩ := @Converter.ends_of_noBlank (Converter.convertToString u.t)
    (Converter.notMem_convertToString (by decide) (by decide))
  refine Converter.split_flatMap_append (by decide) (Converter.convertToString_ne_nil _)
    (Converter.notMem_convertToString (by decide) (by decide)) htime htime' fun x hx => ?_
  simp only [fields, List.mem_cons, List.not_mem_nil, or_false] at hx
  rcases hx with rfl | rfl | rfl | rfl | rfl
  · decide
  · exact ⟨h.nameBytes.2.1, by rw [hname]; decide⟩
  · cases u.accessMode <;> decide
  · cases u.dataType <;> decide
  · exact ⟨hcolon, hhead⟩

theorem Plain.arrives (hsend : Sendable clib u) (h : u.Plain) : u.Arrives clib := by
  obtain ⟨hnameZero, hnameColon, hnameSemicolon⟩ := h.nameBytes
  obtain ⟨-, hsemicolon, -, hpercent⟩ := h.field_bytes
  have hframe := @publish_remote clib u h.nameShort
  have hzero := notMem_fields (Or.inl rfl) hnameZero (noZero_field hsend)
  have hnosep := notMem_fields (Or.inr rfl) hnameSemicolon hsemicolon
  have hfields := h.split_fields hsend.name.1
  generalize hbody : u.fields.flatMap (· ++ [':']) ++ Converter.convertToString u.t = body at *
  have hhead : body.head? = some 'U' := by rw [← hbody]; rfl
  have htext : (Reader.new.write (body ++ [';'])).text = body ++ [';'] := by
    have := @Reader.text_write_holding [] (body ++ [';']) (by simpa using hzero)
    rwa [Reader.holding_nil, List.nil_append] at this
  have hpieces : Converter.split (body ++ [';']) ';' = some [body] := by
    rw [Converter.split_append_cons hnosep (by simp [List.head?_append, hhead]) (by simp)
      (by simp) (by simp)]
    rfl
  have hread : readSegment clib (body ++ [';']) = some [(u.channelName,
      { accessMode := u.accessMode
        dataType := u.dataType
        timeStamp := Converter.atoi (Converter.convertToString u.t)
        iValue := Converter.atoi (decodeLoop u.field)
        dValue := clib.atof (decodeLoop u.field)
        sValue := decodeLoop u.field })] := by
    simp only [readSegment, htext, hpieces, readPieces, hfields]
    rw [fields, List.cons_append, List.cons_append, List.cons_append, List.cons_append,
      List.cons_append, List.nil_append, readUpdate_six clib hpercent,
      accessModeOf_accessModeText, dataTypeOf_dataTypeText]
    rfl
  refine ⟨_, _, hframe, hread, rfl, rfl, fun v hv => ?_, fun v hv => ?_, ?_⟩
  · obtain ⟨hlo, hhi⟩ := hsend.int v hv
    have hdigits : '%' ∉ Converter.convertToString v :=
      Converter.notMem_convertToString (by decide) (by decide)
    simp only [field, hv, Sum.elim_inl, decodeLoop_of_notMem hdigits]
    exact Converter.atoi_convertToString hlo hhi
  · obtain ⟨-, -, hescape, -⟩ := h.string v hv
    simp only [field, hv, Sum.elim_inr]
    exact decodeLoop_encodeData hescape
  · exact Converter.atoi_convertToString (by have := hsend.time.1; omega) h.time

/-- The round trip. An update that the server may send arrives as one update, with the same
data, exactly if it is plain. -/
theorem arrives_iff_plain (h : Sendable clib u) : u.Arrives clib ↔ u.Plain :=
  ⟨plain_of_arrives h, fun hplain => hplain.arrives h⟩

/-- A C library for texts that are no numbers. -/
def clib_zero : CLib where
  atof _ := 0
  sprintf _ := ['0']

/-- A string for the channel `/a`. -/
def update_a (value : Str) : Update := ⟨"/a".toList, true, .inr value, 0⟩

theorem sendable_colon : Sendable clib_zero (update_a "x:y".toList) := by
  refine ⟨⟨rfl, by decide⟩, nofun, ?_, by decide, ?_⟩
  · rintro _ ⟨⟩
    decide
  · rintro _ ⟨⟩
    decide

theorem arrives_colon : (update_a "x:y".toList).Arrives clib_zero ↔
    (update_a "x:y".toList).Plain :=
  arrives_iff_plain sendable_colon

theorem sendable_percent : Sendable clib_zero (update_a ['%']) := by
  refine ⟨⟨rfl, by decide⟩, nofun, ?_, by decide, ?_⟩
  · rintro _ ⟨⟩
    decide
  · rintro _ ⟨⟩
    decide

/-- `decodeData` throws on `"%"`. -/
theorem not_arrives_percent : ¬∀ clib u, Sendable clib u → u.Arrives clib := fun h =>
  ((plain_of_arrives sendable_percent (h clib_zero _ sendable_percent)).string _ rfl).2.2.2 rfl

end Update

end Ick
