import Ick.Converter
import Ick.Polling

/-!
# Channel data

A channel is an object of one of six classes, one for each access mode and data type. The
poll thread, `ObjectManager::execute`, goes over all channels : it calls `getValue`, which
raises `isChanged` when it sees a new value, and if `isChanged` is up it calls `update`,
which notifies the subscribers and takes the flag down.

A driver is what its functions answer during one call (`DriverIO`). A `double` is a
`Float`, and a member that a constructor leaves unset is an argument of it.

Without a driver, `setValue` of the classes `ReadWriteInt` and `ReadWriteString` copies the
value into `oldValue` before it stores the new one, and `getValue` compares the two. They
are watched values in the sense of `Watched`, and lose exactly the changes that those lose
(`upToDate_iff_not_swallowed`).
-/

namespace Ick

/-- `AccessMode` -/
inductive AccessMode
  | DEFAULT
  | READONLY
  | READWRITE
  deriving DecidableEq, Repr

/-- `DataType` -/
inductive DataType
  | UNKNOWN
  | INTDATA
  | STRINGDATA
  | DOUBLEDATA
  deriving DecidableEq, Repr

/-- A value of a channel. -/
inductive Datum
  | int (value : ℤ)
  | double (value : Float)
  | string (value : Str)

/-- What the driver functions bound to a channel answer during one call, for the channel
number they are called with : a read gives a value or fails, a write is accepted or
not. -/
structure DriverIO where
  readInt : ℤ → Option ℤ
  readDouble : ℤ → Option Float
  readString : ℤ → Option Str
  writeInt : ℤ → ℤ → Bool
  writeDouble : ℤ → Float → Bool
  writeString : ℤ → Str → Bool

/-! ## The classes -/

/-- The members of `UntypedData` and its bases that the classes below use. `driver`,
`pfnRead`, and `pfnWrite` say whether the pointer is not `NULL`. -/
structure UntypedData where
  channelNumber : ℤ
  simulated : Bool
  driver : Bool
  pfnRead : Bool
  pfnWrite : Bool
  isChanged : Bool
  isValid : Bool
  subscribers : List ℕ

namespace UntypedData

/-- `UntypedData()` -/
def new : UntypedData where
  channelNumber := 0
  simulated := false
  driver := false
  pfnRead := false
  pfnWrite := false
  isChanged := true
  isValid := false
  subscribers := []

/-- `subscribe`, for a subscriber that is not `NULL`. -/
def subscribe (d : UntypedData) (object : ℕ) : UntypedData :=
  if object ∈ d.subscribers then { d with isChanged := true }
  else { d with isChanged := true, subscribers := d.subscribers ++ [object] }

/-- `unsubscribe` -/
def unsubscribe (d : UntypedData) (object : ℕ) : UntypedData :=
  { d with subscribers := d.subscribers.filter (· ≠ object) }

end UntypedData

/-- `ReadOnlyInt` -/
structure ReadOnlyInt extends UntypedData where
  value : ℤ
  oldValue : ℤ
  valid : Bool

namespace ReadOnlyInt

/-- `ReadOnlyInt(int value)` -/
def new (value : ℤ) : ReadOnlyInt where
  toUntypedData := .new
  value := value
  oldValue := value
  valid := false

/-- `getValue` -/
def getValue (io : DriverIO) (d : ReadOnlyInt) : ℤ × ReadOnlyInt :=
  if d.simulated then
    if d.value ≠ d.oldValue then
      (d.value, { d with oldValue := d.value, valid := true, isChanged := true })
    else (d.value, d)
  else if d.driver ∧ d.pfnRead then
    match io.readInt d.channelNumber with
    | none => (d.value, d)
    | some value =>
      if d.value ≠ value then
        (value, { d with
          oldValue := d.value, value := value, valid := true, isChanged := true,
          isValid := true })
      else (d.value, { d with isValid := true })
  else (d.value, d)

/-- `setSimulatedValue`; `none` when it throws. -/
def setSimulatedValue (d : ReadOnlyInt) (value : ℤ) : Option ReadOnlyInt :=
  if d.simulated then some { d with value := value, isValid := true } else none

end ReadOnlyInt

/-- `ReadOnlyDouble` -/
structure ReadOnlyDouble extends UntypedData where
  value : Float
  oldValue : Float
  accuracy : Float

namespace ReadOnlyDouble

/-- `ReadOnlyDouble(double value)`, which does not set `oldValue`. -/
def new (value unset : Float) : ReadOnlyDouble where
  toUntypedData := .new
  value := value
  oldValue := unset
  accuracy := 0.01

/-- `getValue`, which has no branch for simulation. -/
def getValue (io : DriverIO) (d : ReadOnlyDouble) : Float × ReadOnlyDouble :=
  if d.driver ∧ d.pfnRead then
    match io.readDouble d.channelNumber with
    | none => (d.value, d)
    | some value =>
      if (d.value - value).abs ≥ d.accuracy then
        (value, { d with
          oldValue := d.value, value := value, isChanged := true, isValid := true })
      else (d.value, { d with isValid := true })
  else (d.value, d)

/-- `setSimulatedValue`; `none` when it throws. -/
def setSimulatedValue (d : ReadOnlyDouble) (value : Float) : Option ReadOnlyDouble :=
  if d.simulated then some { d with value := value, isValid := true } else none

end ReadOnlyDouble

/-- `ReadOnlyString` -/
structure ReadOnlyString extends UntypedData where
  value : Str
  oldValue : Str
  valid : Bool

namespace ReadOnlyString

/-- `ReadOnlyString(std::string value)` -/
def new (value : Str) : ReadOnlyString where
  toUntypedData := .new
  value := value
  oldValue := []
  valid := false

/-- `getValue` -/
def getValue (io : DriverIO) (d : ReadOnlyString) : Str × ReadOnlyString :=
  if d.simulated then
    if d.value ≠ d.oldValue then
      (d.value, { d with oldValue := d.value, valid := true, isChanged := true })
    else (d.value, d)
  else if d.driver ∧ d.pfnRead then
    match io.readString d.channelNumber with
    | none => (d.value, d)
    | some value =>
      if value ≠ d.value then
        (value, { d with
          oldValue := d.value, value := value, valid := true, isChanged := true,
          isValid := true })
      else (d.value, { d with isValid := true })
  else (d.value, d)

/-- `setSimulatedValue`; `none` when it throws. -/
def setSimulatedValue (d : ReadOnlyString) (value : Str) : Option ReadOnlyString :=
  if d.simulated then some { d with value := value, isValid := true } else none

end ReadOnlyString

/-- `ReadWriteInt` -/
structure ReadWriteInt extends UntypedData where
  value : ℤ
  oldValue : ℤ
  minValue : ℤ
  maxValue : ℤ

namespace ReadWriteInt

/-- `ReadWriteInt(int min, int max)`. The arguments are the bounds, not the value. -/
def new (min max : ℤ) : ReadWriteInt where
  toUntypedData := .new
  value := 0
  oldValue := 0
  minValue := min
  maxValue := max

/-- `getValue` -/
def getValue (io : DriverIO) (d : ReadWriteInt) : ℤ × ReadWriteInt :=
  if d.pfnRead ∧ d.driver then
    match io.readInt d.channelNumber with
    | none => (d.value, d)
    | some value =>
      if value ≠ d.oldValue then
        (value, { d with isChanged := true, oldValue := d.value, value := value })
      else (value, { d with value := value })
  else if d.oldValue ≠ d.value then
    (d.value, { d with isChanged := true, oldValue := d.value })
  else (d.value, d)

/-- `setValue` -/
def setValue (io : DriverIO) (d : ReadWriteInt) (value : ℤ) : ReadWriteInt :=
  if d.pfnWrite ∧ d.driver then
    if io.writeInt d.channelNumber value then
      { d with
        isChanged := if value ≠ d.oldValue then true else d.isChanged
        value := value
        isValid := true }
    else d
  else { d with oldValue := d.value, value := value, isValid := true }

end ReadWriteInt

/-- `ReadWriteDouble` -/
structure ReadWriteDouble extends UntypedData where
  value : Float
  oldValue : Float
  accuracy : Float

namespace ReadWriteDouble

/-- `ReadWriteDouble(double value)` -/
def new (value : Float) : ReadWriteDouble where
  toUntypedData := { UntypedData.new with isChanged := false }
  value := value
  oldValue := 0
  accuracy := 0.01

/-- `getValue`, which never asks the driver. -/
def getValue (d : ReadWriteDouble) : Float := d.value

/-- `setValue` -/
def setValue (io : DriverIO) (d : ReadWriteDouble) (value : Float) : ReadWriteDouble :=
  if d.driver ∧ d.pfnWrite then
    if io.writeDouble d.channelNumber value then
      if (d.value - value).abs ≥ d.accuracy then
        { d with oldValue := d.value, value := value, isChanged := true, isValid := true }
      else { d with isValid := true }
    else d
  else if (d.value - value).abs ≥ d.accuracy then
    { d with oldValue := d.value, value := value, isChanged := true, isValid := true }
  else { d with isValid := true }

end ReadWriteDouble

/-- `ReadWriteString` -/
structure ReadWriteString extends UntypedData where
  value : Str
  oldValue : Str

namespace ReadWriteString

/-- `ReadWriteString(std::string value)` -/
def new (value : Str) : ReadWriteString where
  toUntypedData := .new
  value := value
  oldValue := []

/-- `getValue`, which does not raise `isChanged` for a driver's reading. -/
def getValue (io : DriverIO) (d : ReadWriteString) : Str × ReadWriteString :=
  if d.pfnRead ∧ d.driver then
    match io.readString d.channelNumber with
    | none => (d.value, d)
    | some value => (value, { d with value := value })
  else if d.oldValue ≠ d.value then
    (d.value, { d with isChanged := true, oldValue := d.value })
  else (d.value, d)

/-- `setValue` -/
def setValue (io : DriverIO) (d : ReadWriteString) (value : Str) : ReadWriteString :=
  if d.driver ∧ d.pfnWrite then
    if io.writeString d.channelNumber value then
      { d with
        isChanged := if value ≠ d.oldValue then true else d.isChanged
        value := value
        isValid := true }
    else d
  else { d with oldValue := d.value, value := value, isValid := true }

end ReadWriteString

/-- An object of one of the six classes. -/
inductive Channel
  | readOnlyInt (d : ReadOnlyInt)
  | readOnlyDouble (d : ReadOnlyDouble)
  | readOnlyString (d : ReadOnlyString)
  | readWriteInt (d : ReadWriteInt)
  | readWriteDouble (d : ReadWriteDouble)
  | readWriteString (d : ReadWriteString)

namespace Channel

/-- The access mode that the constructor of the class sets. -/
def accessMode : Channel → AccessMode
  | readOnlyInt _ => .READONLY
  | readOnlyDouble _ => .READONLY
  | readOnlyString _ => .READONLY
  | readWriteInt _ => .READWRITE
  | readWriteDouble _ => .READWRITE
  | readWriteString _ => .READWRITE

/-- The data type that the constructor of the class sets. -/
def dataType : Channel → DataType
  | readOnlyInt _ => .INTDATA
  | readOnlyDouble _ => .DOUBLEDATA
  | readOnlyString _ => .STRINGDATA
  | readWriteInt _ => .INTDATA
  | readWriteDouble _ => .DOUBLEDATA
  | readWriteString _ => .STRINGDATA

/-- The member `value`. -/
def value : Channel → Datum
  | readOnlyInt d => .int d.value
  | readOnlyDouble d => .double d.value
  | readOnlyString d => .string d.value
  | readWriteInt d => .int d.value
  | readWriteDouble d => .double d.value
  | readWriteString d => .string d.value

/-- The members of the base class. -/
def base : Channel → UntypedData
  | readOnlyInt d => d.toUntypedData
  | readOnlyDouble d => d.toUntypedData
  | readOnlyString d => d.toUntypedData
  | readWriteInt d => d.toUntypedData
  | readWriteDouble d => d.toUntypedData
  | readWriteString d => d.toUntypedData

/-- A change of the members of the base class. -/
def mapBase (f : UntypedData → UntypedData) : Channel → Channel
  | readOnlyInt d => readOnlyInt { d with toUntypedData := f d.toUntypedData }
  | readOnlyDouble d => readOnlyDouble { d with toUntypedData := f d.toUntypedData }
  | readOnlyString d => readOnlyString { d with toUntypedData := f d.toUntypedData }
  | readWriteInt d => readWriteInt { d with toUntypedData := f d.toUntypedData }
  | readWriteDouble d => readWriteDouble { d with toUntypedData := f d.toUntypedData }
  | readWriteString d => readWriteString { d with toUntypedData := f d.toUntypedData }

/-- `getValue` of the channel's class, as `execute` calls it. -/
def getValue (io : DriverIO) : Channel → Datum × Channel
  | readOnlyInt d => ((d.getValue io).1 |> .int, readOnlyInt (d.getValue io).2)
  | readOnlyDouble d => ((d.getValue io).1 |> .double, readOnlyDouble (d.getValue io).2)
  | readOnlyString d => ((d.getValue io).1 |> .string, readOnlyString (d.getValue io).2)
  | readWriteInt d => ((d.getValue io).1 |> .int, readWriteInt (d.getValue io).2)
  | readWriteDouble d => (.double d.getValue, readWriteDouble d)
  | readWriteString d => ((d.getValue io).1 |> .string, readWriteString (d.getValue io).2)

/-- `setValue` of the read-write classes; the others have none. -/
def setValue (io : DriverIO) : Channel → Datum → Channel
  | readWriteInt d, .int value => readWriteInt (d.setValue io value)
  | readWriteDouble d, .double value => readWriteDouble (d.setValue io value)
  | readWriteString d, .string value => readWriteString (d.setValue io value)
  | c, _ => c

end Channel

/-! ## Polling a channel -/

/-- A channel and the value delivered last to each subscriber. -/
structure PolledChannel where
  channel : Channel
  delivered : ℕ → Option Datum

namespace PolledChannel

/-- `UntypedData::update` : the subscribers read the value, and the flag goes down. -/
def update (s : PolledChannel) : PolledChannel where
  channel := s.channel.mapBase fun d => { d with isChanged := false }
  delivered sub :=
    if sub ∈ s.channel.base.subscribers then some s.channel.value else s.delivered sub

/-- One iteration of `ObjectManager::execute` on the channel. -/
def execute (io : DriverIO) (s : PolledChannel) : PolledChannel :=
  let s := { s with channel := (s.channel.getValue io).2 }
  if s.channel.base.isChanged then s.update else s

/-- One call, with the values of the calls read as values of the channel's type. -/
def step {V : Type*} (io : DriverIO) (inj : V → Datum) (s : PolledChannel) :
    Access V → PolledChannel
  | .setValue v => { s with channel := s.channel.setValue io (inj v) }
  | .poll => s.execute io

/-- A list of calls. -/
def run {V : Type*} (io : DriverIO) (inj : V → Datum) (s : PolledChannel)
    (ops : List (Access V)) : PolledChannel :=
  ops.foldl (step io inj) s

/-- What each subscriber was delivered last is what `getValue` returns. -/
def UpToDate (io : DriverIO) (s : PolledChannel) : Prop :=
  ∀ sub ∈ s.channel.base.subscribers, s.delivered sub = some (s.channel.getValue io).1

/-- A channel no value of which has been delivered. -/
def start (channel : Channel) : PolledChannel where
  channel := channel
  delivered _ := none

/-! ## Driver-less read-write channels -/

/-- The channel is driver-less and subscribed, its values and its flag are those of the
watched value, and each subscriber was delivered what the watched value was. -/
def Mirrors {V : Type*} (inj : V → Datum) (cell : V → V → UntypedData → Channel → Prop)
    (s : PolledChannel) (w : Watched V) : Prop :=
  ∃ d : UntypedData, d.driver = false ∧ d.subscribers ≠ [] ∧ d.isChanged = w.isChanged ∧
    cell w.value w.oldValue d s.channel ∧
    ∀ sub ∈ d.subscribers, s.delivered sub = w.delivered.map inj

/-- The channel is the `ReadWriteInt` with these members. -/
def IntCell (value oldValue : ℤ) (base : UntypedData) (c : Channel) : Prop :=
  ∃ min max, c = .readWriteInt ⟨base, value, oldValue, min, max⟩

/-- The channel is the `ReadWriteString` with these members. -/
def StringCell (value oldValue : Str) (base : UntypedData) (c : Channel) : Prop :=
  c = .readWriteString ⟨base, value, oldValue⟩

variable {io : DriverIO} {s : PolledChannel}

theorem IntCell.setValue {value oldValue : ℤ} {d : UntypedData} {c : Channel}
    (hc : IntCell value oldValue d c) (hd : d.driver = false) (v : ℤ) :
    IntCell v value { d with isValid := true } (c.setValue io (.int v)) := by
  obtain ⟨min, max, rfl⟩ := hc
  exact ⟨min, max, by simp [Channel.setValue, ReadWriteInt.setValue, hd]⟩

theorem IntCell.getValue {value oldValue : ℤ} {d : UntypedData} {c : Channel}
    (hc : IntCell value oldValue d c) (hd : d.driver = false) :
    (c.getValue io).1 = .int value ∧ IntCell value value
      { d with isChanged := d.isChanged || oldValue ≠ value } (c.getValue io).2 := by
  obtain ⟨min, max, rfl⟩ := hc
  cases d
  subst hd
  by_cases h : oldValue = value
  · subst h
    refine ⟨?_, min, max, ?_⟩ <;> simp [Channel.getValue, ReadWriteInt.getValue]
  · refine ⟨?_, min, max, ?_⟩ <;> simp [Channel.getValue, ReadWriteInt.getValue, h]

theorem StringCell.setValue {value oldValue : Str} {d : UntypedData} {c : Channel}
    (hc : StringCell value oldValue d c) (hd : d.driver = false) (v : Str) :
    StringCell v value { d with isValid := true } (c.setValue io (.string v)) := by
  rw [StringCell] at hc ⊢
  simp [hc, Channel.setValue, ReadWriteString.setValue, hd]

theorem StringCell.getValue {value oldValue : Str} {d : UntypedData} {c : Channel}
    (hc : StringCell value oldValue d c) (hd : d.driver = false) :
    (c.getValue io).1 = .string value ∧ StringCell value value
      { d with isChanged := d.isChanged || oldValue ≠ value } (c.getValue io).2 := by
  rw [StringCell] at hc ⊢
  cases d
  subst hd
  by_cases h : oldValue = value
  · subst h
    constructor <;> simp [hc, Channel.getValue, ReadWriteString.getValue]
  · constructor <;> simp [hc, Channel.getValue, ReadWriteString.getValue, h]

/-- What the two classes have in common without a driver. -/
structure DriverlessCell {V : Type*} [DecidableEq V] (io : DriverIO) (inj : V → Datum)
    (cell : V → V → UntypedData → Channel → Prop) : Prop where
  injective : Function.Injective inj
  base : ∀ {value oldValue d c}, cell value oldValue d c → c.base = d ∧ c.value = inj value
  mapBase : ∀ {value oldValue d c}, cell value oldValue d c → ∀ f,
    cell value oldValue (f d) (c.mapBase f)
  setValue : ∀ {value oldValue d c}, cell value oldValue d c → d.driver = false → ∀ v,
    cell v value { d with isValid := true } (c.setValue io (inj v))
  getValue : ∀ {value oldValue d c}, cell value oldValue d c → d.driver = false →
    (c.getValue io).1 = inj value ∧ cell value value
      { d with isChanged := d.isChanged || oldValue ≠ value } (c.getValue io).2

theorem intCell (io : DriverIO) : DriverlessCell io .int IntCell where
  injective _ _ h := Datum.int.inj h
  base := by
    rintro value oldValue d c ⟨min, max, rfl⟩
    exact ⟨rfl, rfl⟩
  mapBase := by
    rintro value oldValue d c ⟨min, max, rfl⟩ f
    exact ⟨min, max, rfl⟩
  setValue hc hd v := hc.setValue hd v
  getValue hc hd := hc.getValue hd

theorem stringCell (io : DriverIO) : DriverlessCell io .string StringCell where
  injective _ _ h := Datum.string.inj h
  base := by
    rintro value oldValue d c rfl
    exact ⟨rfl, rfl⟩
  mapBase := by
    rintro value oldValue d c rfl f
    rfl
  setValue hc hd v := hc.setValue hd v
  getValue hc hd := hc.getValue hd

section Simulation

variable {V : Type*} [DecidableEq V] {inj : V → Datum}
  {cell : V → V → UntypedData → Channel → Prop} {w : Watched V}

theorem Mirrors.setValue (hcell : DriverlessCell io inj cell) (h : s.Mirrors inj cell w)
    (v : V) : (s.step io inj (.setValue v)).Mirrors inj cell (w.step (.setValue v)) := by
  obtain ⟨d, hd, hsubs, hchanged, hc, hdelivered⟩ := h
  exact ⟨{ d with isValid := true }, hd, hsubs, hchanged, hcell.setValue hc hd v, hdelivered⟩

theorem Mirrors.poll (hcell : DriverlessCell io inj cell) (h : s.Mirrors inj cell w) :
    (s.step io inj .poll).Mirrors inj cell (w.step .poll) := by
  obtain ⟨d, hd, hsubs, hchanged, hc, hdelivered⟩ := h
  obtain ⟨-, hget⟩ := hcell.getValue hc hd
  obtain ⟨hbase, hvalue⟩ := hcell.base hget
  rw [Watched.step_poll]
  simp only [step, execute, hbase, hchanged]
  by_cases hnew : w.isChanged = true ∨ w.oldValue ≠ w.value
  · rw [if_pos (by simpa using hnew), if_pos hnew]
    refine ⟨{ d with isChanged := false }, hd, hsubs, rfl,
      hcell.mapBase hget fun d => { d with isChanged := false }, ?_⟩
    intro sub hsub
    simp only [update, hbase, hvalue, Option.map_some]
    exact if_pos hsub
  · rw [if_neg (by simpa using hnew), if_neg hnew]
    refine ⟨{ d with isChanged := d.isChanged || w.oldValue ≠ w.value }, hd, hsubs, ?_, hget,
      hdelivered⟩
    simpa [hchanged] using hnew

theorem Mirrors.upToDate_iff (hcell : DriverlessCell io inj cell) (h : s.Mirrors inj cell w) :
    s.UpToDate io ↔ w.UpToDate := by
  obtain ⟨d, hd, hsubs, -, hc, hdelivered⟩ := h
  obtain ⟨hbase, -⟩ := hcell.base hc
  obtain ⟨hget, -⟩ := hcell.getValue hc hd
  obtain ⟨sub, hsub⟩ := List.exists_mem_of_ne_nil _ hsubs
  unfold UpToDate Watched.UpToDate
  rw [hbase, hget]
  constructor
  · intro hall
    have := hall sub hsub
    rw [hdelivered sub hsub, Option.map_eq_some_iff] at this
    obtain ⟨v, hv, hinj⟩ := this
    rw [hv, hcell.injective hinj]
  · intro hw sub hsub
    rw [hdelivered sub hsub, hw]
    rfl

theorem Mirrors.run (hcell : DriverlessCell io inj cell) (h : s.Mirrors inj cell w)
    (ops : List (Access V)) : (s.run io inj ops).Mirrors inj cell (w.run ops) := by
  induction ops generalizing s w with
  | nil => exact h
  | cons op ops ih =>
    cases op with
    | setValue v => exact ih (h.setValue hcell v)
    | poll => exact ih (h.poll hcell)

theorem Mirrors.atPolls_upToDate_iff (hcell : DriverlessCell io inj cell)
    (h : s.Mirrors inj cell w) (hchanged : w.isChanged = true) (ops : List (Access V)) :
    AtPolls (fun pre => (s.run io inj (pre ++ [.poll])).UpToDate io) ops ↔
      AtPolls (fun pre => ¬(Revision.of w.value pre).Swallowed) ops := by
  rw [← Watched.atPolls_upToDate_iff hchanged]
  exact forall₂_congr fun pre _ => imp_congr_right fun _ => imp_congr_right fun _ =>
    (h.run hcell _).upToDate_iff hcell

end Simulation

/-- Lost updates. Without a driver and with a subscriber, what a poll round leaves
delivered is what `getValue` returns, after every round of a sequence of calls, exactly
when no round comes after two equal writes of a value other than the one of the round
before. -/
theorem upToDate_iff_not_swallowed (io : DriverIO) :
    (∀ d : ReadWriteInt, d.driver = false → d.isChanged = true → d.subscribers ≠ [] →
      ∀ ops, AtPolls (fun pre =>
          ((start (.readWriteInt d)).run io .int (pre ++ [.poll])).UpToDate io) ops ↔
        AtPolls (fun pre => ¬(Revision.of d.value pre).Swallowed) ops) ∧
    (∀ d : ReadWriteString, d.driver = false → d.isChanged = true → d.subscribers ≠ [] →
      ∀ ops, AtPolls (fun pre =>
          ((start (.readWriteString d)).run io .string (pre ++ [.poll])).UpToDate io) ops ↔
        AtPolls (fun pre => ¬(Revision.of d.value pre).Swallowed) ops) := by
  constructor
  · intro d hd hchanged hsubs ops
    have h : (start (.readWriteInt d)).Mirrors .int IntCell
        ⟨d.value, d.oldValue, d.isChanged, none⟩ :=
      ⟨d.toUntypedData, hd, hsubs, rfl, ⟨d.minValue, d.maxValue, rfl⟩, fun _ _ => rfl⟩
    exact h.atPolls_upToDate_iff (intCell io) hchanged ops
  · intro d hd hchanged hsubs ops
    have h : (start (.readWriteString d)).Mirrors .string StringCell
        ⟨d.value, d.oldValue, d.isChanged, none⟩ :=
      ⟨d.toUntypedData, hd, hsubs, rfl, rfl, fun _ _ => rfl⟩
    exact h.atPolls_upToDate_iff (stringCell io) hchanged ops

/-- No driver answers. -/
def noDriver : DriverIO where
  readInt _ := none
  readDouble _ := none
  readString _ := none
  writeInt _ _ := false
  writeDouble _ _ := false
  writeString _ _ := false

/-- A new `ReadWriteInt` with one subscriber. -/
def subscribedInt : ReadWriteInt :=
  { ReadWriteInt.new (-2 ^ 31) (2 ^ 31 - 1) with toUntypedData := UntypedData.new.subscribe 0 }

/-- A new `ReadWriteString` with one subscriber. -/
def subscribedString : ReadWriteString :=
  { ReadWriteString.new [] with toUntypedData := UntypedData.new.subscribe 0 }

theorem upToDate_of_single_writes :
    AtPolls (fun pre => ((start (.readWriteInt subscribedInt)).run noDriver .int
      (pre ++ [.poll])).UpToDate noDriver) [.poll, .setValue 5, .poll] ∧
    AtPolls (fun pre => ((start (.readWriteString subscribedString)).run noDriver .string
      (pre ++ [.poll])).UpToDate noDriver) [.poll, .setValue ['a'], .poll] := by
  have hone : ∀ {V : Type} (v₀ v : V), AtPolls (fun pre => ¬(Revision.of v₀ pre).Swallowed)
      [.poll, .setValue v, .poll] := by
    intro V v₀ v
    change Throughout _ ([] ++ [_] ++ [_] ++ [_])
    rw [throughout_snoc, throughout_snoc, throughout_snoc]
    refine ⟨⟨⟨throughout_nil, ?_⟩, nofun⟩, ?_⟩
    · rintro - ⟨ws, v, u, -, hpolled, -⟩
      simp [Revision.of] at hpolled
    · rintro - ⟨ws, v, u, hpending, -, -⟩
      have := congrArg List.length hpending
      simp [Revision.of, Revision.step] at this
  obtain ⟨hint, hstring⟩ := upToDate_iff_not_swallowed noDriver
  exact ⟨(hint subscribedInt rfl rfl (by decide) _).2 (hone _ _),
    (hstring subscribedString rfl rfl (by decide) _).2 (hone _ _)⟩

/-- Zero is delivered, and then five is written twice before the next round. -/
theorem not_upToDate_of_rewritten : ¬∀ io ops,
    AtPolls (fun pre => ((start (.readWriteInt subscribedInt)).run io .int
      (pre ++ [.poll])).UpToDate io) ops := by
  intro h
  have hlast := h noDriver [.poll, .setValue 5, .setValue 5, .poll]
    [.poll, .setValue 5, .setValue 5] _ (List.prefix_refl _) rfl 0 (by decide)
  have hzero : some (Datum.int 0) = some (Datum.int 5) := hlast
  simp at hzero

end PolledChannel

end Ick
