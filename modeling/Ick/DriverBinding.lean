import Ick.DeadBand
import Ick.DriverPolling

/-!
# Bound read-write channels

`IDriver::registChannels` binds a driver's read function to every channel of its node, and its
write function to the read-write ones. The poll thread calls `getValue` of each channel, and each
class decides what to do about the driver.

`ReadWriteDouble` never reads it, so its value is near the reading of a round only if it was near
it before. `ReadWriteString` takes every reading, and does not raise `isChanged` for it, so a
reading is delivered only if a write has raised the flag : `Sightings` keeps what the calls so far
have written and read, and `Sightings.Misses` says which readings are not delivered.
`driverReadings_reach_iff` says so of the two channels.
-/

namespace Ick

/-! ## Binding -/

namespace UntypedData

/-- `registChannelRead`, with a function that is not `NULL`. -/
def registChannelRead (d : UntypedData) : UntypedData :=
  { d with pfnRead := true, driver := true }

/-- `registChannelWrite`, with a function that is not `NULL`. -/
def registChannelWrite (d : UntypedData) : UntypedData :=
  { d with pfnWrite := true, driver := true }

/-- The body of the loop of `registChannels`, by the data type and the access mode. -/
def registChannel (dataType : DataType) (accessMode : AccessMode) (d : UntypedData) :
    UntypedData :=
  match dataType, accessMode with
  | .INTDATA, .READONLY => d.registChannelRead
  | .DOUBLEDATA, .READONLY => d.registChannelRead
  | .STRINGDATA, .READONLY => d.registChannelRead
  | .INTDATA, .READWRITE => d.registChannelRead.registChannelWrite
  | .DOUBLEDATA, .READWRITE => d.registChannelRead.registChannelWrite
  | .STRINGDATA, .READWRITE => d.registChannelRead.registChannelWrite
  | _, _ => d

end UntypedData

/-- A channel with its `m_NodeNumber`. -/
structure NodeChannel where
  nodeNumber : ℤ
  channel : Channel

/-- `ObjectManager::getDatas` takes the channel into the node's. -/
def NodeChannel.IsOf (nodeNumber : ℤ) (data : NodeChannel) : Prop :=
  data.nodeNumber ≠ 0 ∧ data.channel.base.channelNumber ≠ 0 ∧ data.nodeNumber = nodeNumber

instance (nodeNumber : ℤ) (data : NodeChannel) : Decidable (data.IsOf nodeNumber) :=
  inferInstanceAs (Decidable (_ ∧ _ ∧ _))

/-- `IDriver::registChannels`, on all channel data. -/
def registChannels (nodeNumber : ℤ) (datas : List NodeChannel) : List NodeChannel :=
  datas.map fun data =>
    if data.IsOf nodeNumber then
      { data with channel :=
          data.channel.mapBase (.registChannel data.channel.dataType data.channel.accessMode) }
    else data

/-! ## Calls -/

/-- The calls on a bound channel : a write that the driver accepts or not, or a poll round with
what the driver reads. -/
inductive DriverCall (V : Type)
  | setValue (accepts : Bool) (v : V)
  | poll (reading : V)

/-- What holds at each poll round of `calls`, of the calls that come before it and its reading. -/
def AtDriverReadings {V : Type} (Q : List (DriverCall V) → V → Prop)
    (calls : List (DriverCall V)) : Prop :=
  Throughout (fun pre call => ∀ reading, call = .poll reading → Q pre reading) calls

/-! ## Doubles -/

namespace NotifiedDouble

/-- A call on a bound double, whose subscribers do not write. What the driver reads is not asked
for. -/
def ofDriverCall {F : Type} : DriverCall F → DoubleCall F
  | .setValue accepts v => .setValue accepts v
  | .poll _ => .poll fun _ => []

/-- A list of calls on a bound double. -/
def driverRun {F : Type} [Doubles F] (s : NotifiedDouble F) (calls : List (DriverCall F)) :
    NotifiedDouble F :=
  s.run (calls.map ofDriverCall)

/-- The value is within the accuracy of the reading, and each subscriber was delivered it. -/
def Reached (reading : ℚ) (s : NotifiedDouble ℚ) : Prop :=
  |s.datum.value - reading| < s.datum.accuracy ∧ s.Seen

variable {s : NotifiedDouble ℚ}

theorem driverRun_snoc (s : NotifiedDouble ℚ) (calls : List (DriverCall ℚ))
    (call : DriverCall ℚ) :
    s.driverRun (calls ++ [call]) = (s.driverRun calls).step (ofDriverCall call) := by
  rw [driverRun, List.map_append, List.map_singleton, run_snoc]
  rfl

/-- The value is near the reading after every round exactly when it was near it before. -/
theorem atDriverReadings_reached_iff (h : s.Pending) (calls : List (DriverCall ℚ)) :
    AtDriverReadings (fun pre reading => Reached reading (s.driverRun (pre ++ [.poll reading])))
        calls ↔
      AtDriverReadings (fun pre reading =>
        |(s.driverRun pre).datum.value - reading| < s.datum.accuracy) calls := by
  refine throughout_congr
    (I := fun calls => (s.driverRun calls).Pending ∧
      (s.driverRun calls).datum.accuracy = s.datum.accuracy) ⟨h, rfl⟩
    (fun calls call hcalls _ => ?_)
    (fun calls call hcalls => forall₂_congr fun reading _ => ?_) calls
  · obtain ⟨hpending, hacc⟩ := hcalls
    rw [driverRun_snoc]
    cases call with
    | setValue accepts v =>
      exact ⟨(Unforgotten.setValue ⟨rfl, hpending⟩ accepts v).pending,
        (ReadWriteDoubleOver.setValue_accuracy v).trans hacc⟩
    | poll reading =>
      obtain ⟨hdatum, hseen⟩ := poll_passive hpending
      refine ⟨Or.inr hseen, ?_⟩
      change ((s.driverRun calls).step (passive .poll)).datum.accuracy = s.datum.accuracy
      rw [hdatum]
      exact hacc
  · obtain ⟨hpending, hacc⟩ := hcalls
    obtain ⟨hdatum, hseen⟩ := poll_passive hpending
    dsimp only
    rw [driverRun_snoc, Reached]
    change |((s.driverRun calls).step (passive .poll)).datum.value - reading| <
      ((s.driverRun calls).step (passive .poll)).datum.accuracy ∧
        ((s.driverRun calls).step (passive .poll)).Seen ↔ _
    rw [hdatum, ← hacc]
    exact and_iff_left hseen

end NotifiedDouble

/-! ## Strings -/

/-- What the calls so far have written and read : the values accepted since the last poll round,
and what that round has read. -/
structure Sightings where
  written : List Str
  polled : Option Str

namespace Sightings

/-- One more call. -/
def step (e : Sightings) : DriverCall Str → Sightings
  | .setValue accepts v => if accepts then { e with written := e.written ++ [v] } else e
  | .poll reading => ⟨[], some reading⟩

/-- What a list of calls has written and read. -/
def of (calls : List (DriverCall Str)) : Sightings :=
  calls.foldl step ⟨[], none⟩

/-- The reading is new, and no value but `oldValue` has been written since the last round. -/
def Misses (oldValue : Str) (e : Sightings) (reading : Str) : Prop :=
  ∃ u, e.polled = some u ∧ u ≠ reading ∧ ∀ v ∈ e.written, v = oldValue

theorem of_snoc (calls : List (DriverCall Str)) (call : DriverCall Str) :
    of (calls ++ [call]) = (of calls).step call := by
  simp [of]

end Sightings

namespace PolledChannel

/-- One call, on a driver that answers it. -/
def stringStep (io : DriverIO) (s : PolledChannel) : DriverCall Str → PolledChannel
  | .setValue accepts v =>
    { s with channel :=
        s.channel.setValue { io with writeString := fun _ _ => accepts } (.string v) }
  | .poll reading => s.execute { io with readString := fun _ => some reading }

/-- A list of calls. -/
def stringRun (io : DriverIO) (s : PolledChannel) (calls : List (DriverCall Str)) :
    PolledChannel :=
  calls.foldl (stringStep io) s

/-- The value is the reading, and each subscriber was delivered it. -/
def Reached (reading : Str) (s : PolledChannel) : Prop :=
  s.channel.value = .string reading ∧ s.Current

variable {io : DriverIO} {s : PolledChannel} {e : Sightings} {oldValue : Str}

theorem stringRun_snoc (s : PolledChannel) (calls : List (DriverCall Str))
    (call : DriverCall Str) :
    s.stringRun io (calls ++ [call]) = (s.stringRun io calls).stringStep io call := by
  simp [stringRun]

/-- The invariant between a bound `ReadWriteString` and the calls, as long as every round so far
has delivered its reading. -/
def Sights (oldValue : Str) (s : PolledChannel) (e : Sightings) : Prop :=
  ∃ d : ReadWriteString, s.channel = .readWriteString d ∧
    (d.driver = true ∧ d.pfnRead = true ∧ d.pfnWrite = true ∧ d.subscribers ≠ []) ∧
    d.oldValue = oldValue ∧ (e.polled = none → d.isChanged = true) ∧
    ∀ u, e.polled = some u →
      (∀ sub ∈ d.subscribers, s.delivered sub = some (.string u)) ∧
        (d.isChanged = true ↔ ∃ v ∈ e.written, v ≠ oldValue)

theorem Sights.setValue (h : s.Sights oldValue e) (accepts : Bool) (v : Str) :
    (s.stringStep io (.setValue accepts v)).Sights oldValue (e.step (.setValue accepts v)) := by
  obtain ⟨d, hd, hbound, rfl, hfirst, hlast⟩ := h
  obtain ⟨hdriver, -, hwrite, -⟩ := id hbound
  cases accepts with
  | false =>
    refine ⟨d, ?_, hbound, rfl, hfirst, hlast⟩
    simp [stringStep, hd, Channel.setValue, ReadWriteString.setValue, hdriver, hwrite]
  | true =>
    refine ⟨{ d with
      isChanged := if v ≠ d.oldValue then true else d.isChanged, value := v, isValid := true },
      ?_, hbound, rfl, fun hnone => ?_, fun u hu => ?_⟩
    · simp [stringStep, hd, Channel.setValue, ReadWriteString.setValue, hdriver, hwrite]
    · simp [hfirst hnone]
    · obtain ⟨hdelivered, hchanged⟩ := hlast u hu
      refine ⟨hdelivered, ?_⟩
      simp only [Sightings.step, if_true, List.mem_append, List.mem_singleton, or_and_right,
        exists_or, exists_eq_left, ← hchanged]
      by_cases hv : v = d.oldValue <;> simp [hv]

/-- What a poll round leaves of a bound `ReadWriteString`. -/
theorem execute_readWriteString {d : ReadWriteString} (hd : s.channel = .readWriteString d)
    (hbound : d.driver = true ∧ d.pfnRead = true) (reading : Str) :
    s.stringStep io (.poll reading) =
      ⟨.readWriteString { d with value := reading, isChanged := false },
        fun sub => if d.isChanged = true ∧ sub ∈ d.subscribers then some (.string reading)
          else s.delivered sub⟩ := by
  obtain ⟨channel, delivered⟩ := s
  obtain rfl : channel = .readWriteString d := hd
  obtain ⟨⟨channelNumber, simulated, driver, pfnRead, pfnWrite, isChanged⟩, value, oldValue⟩ := d
  obtain ⟨rfl, rfl⟩ : driver = true ∧ pfnRead = true := hbound
  cases isChanged <;>
    simp [stringStep, execute, update, Channel.getValue, ReadWriteString.getValue, Channel.base,
      Channel.mapBase, Channel.value]

/-- A poll round delivers its reading unless it misses it. -/
theorem Sights.reached_iff (h : s.Sights oldValue e) (reading : Str) :
    (s.stringStep io (.poll reading)).Reached reading ↔ ¬e.Misses oldValue reading := by
  obtain ⟨d, hd, ⟨hdriver, hread, -, hsubs⟩, -, hfirst, hlast⟩ := h
  obtain ⟨sub, hsub⟩ := List.exists_mem_of_ne_nil _ hsubs
  rw [execute_readWriteString hd ⟨hdriver, hread⟩]
  unfold Reached Current
  simp only [Channel.value, Channel.base, true_and]
  cases hpolled : e.polled with
  | none =>
    refine iff_of_true (fun sub hsub => if_pos ⟨hfirst hpolled, hsub⟩) ?_
    rintro ⟨u, hu, -⟩
    exact Option.some_ne_none u (hu.symm.trans hpolled)
  | some u =>
    obtain ⟨hdelivered, hchanged⟩ := hlast u hpolled
    unfold Sightings.Misses
    simp only [hpolled, Option.some.injEq, exists_eq_left']
    by_cases hflag : d.isChanged = true
    · refine iff_of_true (fun sub hsub => if_pos ⟨hflag, hsub⟩) ?_
      rintro ⟨-, hwritten⟩
      obtain ⟨v, hv, hne⟩ := hchanged.1 hflag
      exact hne (hwritten v hv)
    · have hwritten : ∀ v ∈ e.written, v = oldValue := fun v hv => by
        by_contra hne
        exact hflag (hchanged.2 ⟨v, hv, hne⟩)
      simp only [hflag, Bool.false_eq_true, false_and, if_false]
      constructor
      · rintro hall ⟨hne, -⟩
        exact hne (Datum.string.inj (Option.some.inj ((hdelivered sub hsub).symm.trans
          (hall sub hsub))))
      · intro hmiss sub hsub
        rw [hdelivered sub hsub]
        by_contra hne
        exact hmiss ⟨fun heq => hne (by rw [heq]), hwritten⟩

theorem Sights.poll (h : s.Sights oldValue e) {reading : Str}
    (hreached : (s.stringStep io (.poll reading)).Reached reading) :
    (s.stringStep io (.poll reading)).Sights oldValue (e.step (.poll reading)) := by
  obtain ⟨d, hd, hbound, hold, -⟩ := h
  rw [execute_readWriteString hd ⟨hbound.1, hbound.2.1⟩] at hreached ⊢
  refine ⟨_, rfl, hbound, hold, nofun, ?_⟩
  rintro u ⟨⟩
  exact ⟨hreached.2, by simp [Sightings.step]⟩

theorem Sights.atDriverReadings_iff (h : s.Sights oldValue ⟨[], none⟩)
    (calls : List (DriverCall Str)) :
    AtDriverReadings (fun pre reading =>
        (s.stringRun io (pre ++ [.poll reading])).Reached reading) calls ↔
      AtDriverReadings (fun pre reading => ¬(Sightings.of pre).Misses oldValue reading) calls := by
  refine throughout_congr (I := fun calls => (s.stringRun io calls).Sights oldValue
    (Sightings.of calls)) h (fun calls call hcalls hcall => ?_)
    (fun calls call hcalls => forall₂_congr fun reading _ => ?_) calls
  · rw [stringRun_snoc, Sightings.of_snoc]
    cases call with
    | setValue accepts v => exact hcalls.setValue accepts v
    | poll reading =>
      have hreached : (s.stringRun io (calls ++ [.poll reading])).Reached reading :=
        hcall reading rfl
      rw [stringRun_snoc] at hreached
      exact hcalls.poll hreached
  · dsimp only
    rw [stringRun_snoc]
    exact hcalls.reached_iff reading

end PolledChannel

/-! ## The two channels -/

/-- A read-write channel of a data type that the driver is bound to, and then subscribed to. -/
def UntypedData.boundTo (dataType : DataType) (sub : ℕ) (d : UntypedData) : UntypedData :=
  (d.registChannel dataType .READWRITE).subscribe sub

theorem UntypedData.subscribe_spec (d : UntypedData) (sub : ℕ) :
    (d.subscribe sub).isChanged = true ∧ sub ∈ (d.subscribe sub).subscribers ∧
      (d.subscribe sub).driver = d.driver ∧ (d.subscribe sub).pfnRead = d.pfnRead ∧
      (d.subscribe sub).pfnWrite = d.pfnWrite := by
  unfold subscribe
  split_ifs with hmem
  · exact ⟨rfl, hmem, rfl, rfl, rfl⟩
  · exact ⟨rfl, List.mem_append_right _ (List.mem_singleton_self sub), rfl, rfl, rfl⟩

/-- A `ReadWriteDouble` bound to a driver, with a subscriber. -/
def boundDouble (d : ReadWriteDoubleOver ℚ) (sub : ℕ) (seen : ℕ → Option ℚ) :
    NotifiedDouble ℚ where
  datum := { d with toUntypedData := d.toUntypedData.boundTo .DOUBLEDATA sub }
  seen := seen

/-- A `ReadWriteString` bound to a driver, with a subscriber. -/
def boundString (d : ReadWriteString) (sub : ℕ) (delivered : ℕ → Option Datum) :
    PolledChannel where
  channel := .readWriteString { d with toUntypedData := d.toUntypedData.boundTo .STRINGDATA sub }
  delivered := delivered

theorem sights_boundString (d : ReadWriteString) (sub : ℕ) (delivered : ℕ → Option Datum) :
    (boundString d sub delivered).Sights d.oldValue ⟨[], none⟩ := by
  obtain ⟨hchanged, hsub, hdriver, hread, hwrite⟩ :=
    (d.toUntypedData.registChannel .STRINGDATA .READWRITE).subscribe_spec sub
  exact ⟨_, rfl, ⟨hdriver, hread, hwrite, List.ne_nil_of_mem hsub⟩, rfl, fun _ => hchanged, nofun⟩

/-- Driver readings. For every sequence of calls on a bound read-write channel with a subscriber,
the reading is the channel's value and is delivered after every poll round : for a double, in
exact arithmetic and up to the accuracy, exactly when the value is within the accuracy of the
reading before every round; for a string, exactly when no round misses its reading. -/
theorem driverReadings_reach_iff (io : DriverIO) :
    (∀ (d : ReadWriteDoubleOver ℚ) (sub : ℕ) (seen : ℕ → Option ℚ) (calls : List (DriverCall ℚ)),
      AtDriverReadings (fun pre reading => NotifiedDouble.Reached reading
          ((boundDouble d sub seen).driverRun (pre ++ [.poll reading]))) calls ↔
        AtDriverReadings (fun pre reading =>
          |((boundDouble d sub seen).driverRun pre).datum.value - reading| < d.accuracy) calls) ∧
    (∀ (d : ReadWriteString) (sub : ℕ) (delivered : ℕ → Option Datum)
        (calls : List (DriverCall Str)),
      AtDriverReadings (fun pre reading => PolledChannel.Reached reading
          ((boundString d sub delivered).stringRun io (pre ++ [.poll reading]))) calls ↔
        AtDriverReadings (fun pre reading =>
          ¬(Sightings.of pre).Misses d.oldValue reading) calls) := by
  refine ⟨fun d sub seen calls => ?_, fun d sub delivered calls =>
    (sights_boundString d sub delivered).atDriverReadings_iff calls⟩
  have hchanged : (boundDouble d sub seen).datum.isChanged = true :=
    ((d.toUntypedData.registChannel .DOUBLEDATA .READWRITE).subscribe_spec sub).1
  exact NotifiedDouble.atDriverReadings_reached_iff (Or.inl hchanged) calls

/-- A double of value zero whose driver reads five, and a string whose driver reads one text and
then another. -/
theorem not_driverReadings_reach :
    (¬∀ (d : ReadWriteDoubleOver ℚ) sub seen calls,
      AtDriverReadings (fun pre reading => NotifiedDouble.Reached reading
        ((boundDouble d sub seen).driverRun (pre ++ [.poll reading]))) calls) ∧
    (¬∀ io (d : ReadWriteString) sub delivered calls,
      AtDriverReadings (fun pre reading => PolledChannel.Reached reading
        ((boundString d sub delivered).stringRun io (pre ++ [.poll reading]))) calls) := by
  constructor
  · intro h
    have hreached := h ⟨.new, 0, 0, 1 / 100⟩ 0 (fun _ => none) [.poll 5] [] _ (List.prefix_refl _)
      _ rfl
    have hfive : |(0 : ℚ) - 5| < 1 / 100 := hreached.1
    norm_num at hfive
  · intro h
    have hreached := h PolledChannel.noDriver (.new []) 0 (fun _ => none)
      [.poll ['a'], .poll ['b']] [.poll ['a']] _ (List.prefix_refl _) _ rfl
    have hsent : some (Datum.string ['a']) = some (Datum.string ['b']) := hreached.2 0 (by decide)
    exact absurd (Datum.string.inj (Option.some.inj hsent)) (by decide)

end Ick
