import Ick.ChannelData

/-!
# Polled drivers

With a driver, `getValue` of `ReadWriteInt` takes the value that the driver reads and compares
it with `oldValue`, which is the value before the last reading that was found new. So a value
that comes back after one reading is not seen as a change : of the readings 0, 1, 0 the last
one is not delivered.

`Sampled` is such a value with what was delivered of it, and `Comparison` keeps what the calls
so far have read and written. `Comparison.Misses` is the reading that is lost : it is not what
the poll before has read, it equals the value that is compared with, and so do all values
written since that poll. `Sampled.atReadings_upToDate_iff` says that no other reading is lost,
and `PolledChannel.driverBacked_upToDate_iff` says so of the channel.
-/

namespace Ick

/-- The calls on a value that is read from a driver. A poll carries what the driver reads. -/
inductive DriverAccess (V : Type*)
  | setValue (v : V)
  | poll (reading : V)

/-- What holds at each poll of `ops`, of the calls that come before it and its reading. -/
def AtReadings {V : Type*} (Q : List (DriverAccess V) → V → Prop)
    (ops : List (DriverAccess V)) : Prop :=
  Throughout (fun pre op => ∀ reading, op = .poll reading → Q pre reading) ops

theorem atReadings_snoc {V : Type*} {Q : List (DriverAccess V) → V → Prop}
    {ops : List (DriverAccess V)} {op : DriverAccess V} :
    AtReadings Q (ops ++ [op]) ↔ AtReadings Q ops ∧ ∀ reading, op = .poll reading → Q ops reading :=
  throughout_snoc

/-- What the calls so far have read and written : the current value, the value before the
last reading that differed from the one before that, the values written since the last poll,
and what that poll has read. -/
structure Comparison (V : Type*) where
  current : V
  compared : V
  written : List V
  polled : Option V

namespace Comparison

variable {V : Type*} [DecidableEq V]

/-- One more call. -/
def step (c : Comparison V) : DriverAccess V → Comparison V
  | .setValue v => { c with current := v, written := c.written ++ [v] }
  | .poll reading =>
    { current := reading
      compared := if reading = c.compared then c.compared else c.current
      written := []
      polled := some reading }

/-- What a list of calls on a value with these two members has read and written. -/
def of (value oldValue : V) (ops : List (DriverAccess V)) : Comparison V :=
  ops.foldl step ⟨value, oldValue, [], none⟩

omit [DecidableEq V] in
/-- The reading is new, but it is the value compared with, and nothing else has been written
since the last poll. -/
def Misses (c : Comparison V) (reading : V) : Prop :=
  ∃ u, c.polled = some u ∧ u ≠ reading ∧ reading = c.compared ∧
    ∀ v ∈ c.written, v = c.compared

theorem of_snoc (value oldValue : V) (ops : List (DriverAccess V)) (op : DriverAccess V) :
    of value oldValue (ops ++ [op]) = (of value oldValue ops).step op := by
  simp [of]

end Comparison

/-- A value that is read from a driver, the value it is compared with, whether a change has
been noticed, and the value delivered last. -/
structure Sampled (V : Type*) where
  value : V
  oldValue : V
  isChanged : Bool
  delivered : Option V

namespace Sampled

variable {V : Type*} [DecidableEq V] {s : Sampled V} {c : Comparison V}

/-- A write that the driver accepts. -/
def setValue (s : Sampled V) (v : V) : Sampled V :=
  { s with isChanged := if v ≠ s.oldValue then true else s.isChanged, value := v }

/-- A reading. -/
def read (s : Sampled V) (reading : V) : Sampled V :=
  if reading ≠ s.oldValue then
    { s with isChanged := true, oldValue := s.value, value := reading }
  else { s with value := reading }

/-- The delivery of a noticed change. -/
def deliver (s : Sampled V) : Sampled V :=
  if s.isChanged then { s with delivered := some s.value, isChanged := false } else s

/-- One call. -/
def step (s : Sampled V) : DriverAccess V → Sampled V
  | .setValue v => s.setValue v
  | .poll reading => (s.read reading).deliver

/-- A list of calls. -/
def run (s : Sampled V) (ops : List (DriverAccess V)) : Sampled V :=
  ops.foldl step s

/-- The value delivered last is the current one. -/
def UpToDate (s : Sampled V) : Prop :=
  s.delivered = some s.value

theorem run_snoc (s : Sampled V) (ops : List (DriverAccess V)) (op : DriverAccess V) :
    s.run (ops ++ [op]) = (s.run ops).step op := by
  simp [run]

theorem step_poll (s : Sampled V) (reading : V) : s.step (.poll reading) =
    ⟨reading, if reading = s.oldValue then s.oldValue else s.value, false,
      if s.isChanged ∨ reading ≠ s.oldValue then some reading else s.delivered⟩ := by
  obtain ⟨value, oldValue, isChanged, delivered⟩ := s
  by_cases h : reading = oldValue
  · cases isChanged <;> simp [step, read, deliver, h]
  · simp [step, read, deliver, h]

/-- The invariant between a value and what has been read and written, as long as every poll
so far has left it up to date. -/
structure Follows (s : Sampled V) (c : Comparison V) : Prop where
  value : s.value = c.current
  oldValue : s.oldValue = c.compared
  first : c.polled = none → s.isChanged = true
  changed : ∀ u, c.polled = some u →
    s.delivered = some u ∧ (s.isChanged = true ↔ ∃ v ∈ c.written, v ≠ c.compared)

theorem Follows.setValue (h : s.Follows c) (v : V) :
    (s.step (.setValue v)).Follows (c.step (.setValue v)) := by
  refine ⟨rfl, h.oldValue, fun hnone => ?_, fun u hu => ?_⟩
  · simp [step, Sampled.setValue, h.first hnone]
  · obtain ⟨hdelivered, hchanged⟩ := h.changed u hu
    refine ⟨hdelivered, ?_⟩
    simp only [step, Sampled.setValue, Comparison.step, h.oldValue, List.mem_append,
      List.mem_singleton, or_and_right, exists_or, exists_eq_left, ← hchanged]
    by_cases hv : v = c.compared <;> simp [hv]

theorem Follows.poll (h : s.Follows c) {reading : V}
    (hup : (s.step (.poll reading)).UpToDate) :
    (s.step (.poll reading)).Follows (c.step (.poll reading)) := by
  rw [step_poll] at hup ⊢
  refine ⟨rfl, ?_, nofun, fun u hu => ?_⟩
  · simp only [Comparison.step, h.oldValue, h.value]
  · rw [← hu]
    exact ⟨hup, by simp [Comparison.step]⟩

/-- A poll leaves the value up to date unless it misses the reading. -/
theorem Follows.upToDate_iff (h : s.Follows c) (reading : V) :
    (s.step (.poll reading)).UpToDate ↔ ¬c.Misses reading := by
  rw [step_poll, UpToDate, Comparison.Misses]
  cases hpolled : c.polled with
  | none => simp [h.first hpolled]
  | some u =>
    obtain ⟨hdelivered, hchanged⟩ := h.changed u hpolled
    simp only [hchanged, h.oldValue, hdelivered, Option.some.injEq, exists_eq_left']
    split_ifs with hnew
    · refine iff_of_true rfl ?_
      rintro ⟨-, hreading, hwritten⟩
      rcases hnew with ⟨v, hv, hne⟩ | hne
      · exact hne (hwritten v hv)
      · exact hne hreading
    · simp only [not_or, not_exists, not_and, not_not] at hnew
      rw [Option.some.injEq]
      exact ⟨fun hu hmiss => hmiss.1 hu, fun hmiss =>
        not_not.1 fun hu => hmiss ⟨hu, hnew.2, hnew.1⟩⟩

/-- After every poll the value delivered last is the current one, exactly when no poll misses
its reading. -/
theorem atReadings_upToDate_iff (h : s.isChanged = true) (ops : List (DriverAccess V)) :
    AtReadings (fun pre reading => (s.run (pre ++ [.poll reading])).UpToDate) ops ↔
      AtReadings (fun pre reading =>
        ¬(Comparison.of s.value s.oldValue pre).Misses reading) ops := by
  refine throughout_congr
    (I := fun ops => (s.run ops).Follows (Comparison.of s.value s.oldValue ops))
    ⟨rfl, rfl, fun _ => h, nofun⟩ (fun ops op hops hop => ?_)
    (fun ops op hops => forall₂_congr fun reading _ => ?_) ops
  · rw [run_snoc, Comparison.of_snoc]
    cases op with
    | setValue v => exact hops.setValue v
    | poll reading =>
      have hup : (s.run (ops ++ [.poll reading])).UpToDate := hop reading rfl
      rw [run_snoc] at hup
      exact hops.poll hup
  · dsimp only
    rw [run_snoc]
    exact hops.upToDate_iff reading

end Sampled

/-! ## Channels with a driver -/

namespace PolledChannel

/-- A driver that reads this value, and accepts all writes. -/
def answering (io : DriverIO) (reading : ℤ) : DriverIO :=
  { io with readInt := fun _ => some reading, writeInt := fun _ _ => true }

/-- One call, on a driver that answers it. -/
def driverStep (io : DriverIO) (s : PolledChannel) : DriverAccess ℤ → PolledChannel
  | .setValue v => { s with channel := s.channel.setValue (answering io v) (.int v) }
  | .poll reading => s.execute (answering io reading)

/-- A list of calls. -/
def driverRun (io : DriverIO) (s : PolledChannel) (ops : List (DriverAccess ℤ)) :
    PolledChannel :=
  ops.foldl (driverStep io) s

/-- What each subscriber was delivered last is the channel's value. -/
def Current (s : PolledChannel) : Prop :=
  ∀ sub ∈ s.channel.base.subscribers, s.delivered sub = some s.channel.value

/-- The channel is a subscribed `ReadWriteInt` with a driver, its values and its flag are
those of the sampled value, and each subscriber was delivered what the sampled value was. -/
def Samples (s : PolledChannel) (w : Sampled ℤ) : Prop :=
  ∃ d : ReadWriteInt, s.channel = .readWriteInt d ∧
    (d.driver = true ∧ d.pfnRead = true ∧ d.pfnWrite = true ∧ d.subscribers ≠ []) ∧
    d.value = w.value ∧ d.oldValue = w.oldValue ∧ d.isChanged = w.isChanged ∧
    ∀ sub ∈ d.subscribers, s.delivered sub = w.delivered.map .int

variable {io : DriverIO} {s : PolledChannel} {w : Sampled ℤ}

theorem Samples.setValue (h : s.Samples w) (v : ℤ) :
    (s.driverStep io (.setValue v)).Samples (w.step (.setValue v)) := by
  obtain ⟨d, hd, hbound, hvalue, hold, hchanged, hdelivered⟩ := h
  obtain ⟨hdriver, hread, hwrite, hsubs⟩ := id hbound
  refine ⟨{ d with
    isChanged := if v ≠ d.oldValue then true else d.isChanged, value := v, isValid := true },
    ?_, hbound, rfl, hold, by rw [hold, hchanged]; rfl, hdelivered⟩
  simp [driverStep, hd, Channel.setValue, ReadWriteInt.setValue, answering, hdriver, hwrite]

/-- What a reading leaves of a channel. -/
theorem getValue_answering {d : ReadWriteInt} (hdriver : d.driver = true)
    (hread : d.pfnRead = true) (reading : ℤ) :
    (Channel.getValue (answering io reading) (.readWriteInt d)).2 = .readWriteInt { d with
      isChanged := d.isChanged || reading ≠ d.oldValue
      oldValue := if reading = d.oldValue then d.oldValue else d.value
      value := reading } := by
  obtain ⟨⟨channelNumber, simulated, driver, pfnRead⟩, value, oldValue⟩ := d
  obtain rfl : driver = true := hdriver
  obtain rfl : pfnRead = true := hread
  by_cases hreading : reading = oldValue <;>
    simp [Channel.getValue, ReadWriteInt.getValue, answering, hreading]

theorem Samples.poll (h : s.Samples w) (reading : ℤ) :
    (s.driverStep io (.poll reading)).Samples (w.step (.poll reading)) := by
  obtain ⟨d, hd, hbound, hvalue, hold, hchanged, hdelivered⟩ := h
  rw [Sampled.step_poll, driverStep, execute, hd, getValue_answering hbound.1 hbound.2.1,
    hold, hvalue, hchanged]
  by_cases hnew : w.isChanged = true ∨ reading ≠ w.oldValue
  · rw [if_pos (by simpa [Channel.base] using hnew), if_pos hnew]
    refine ⟨_, rfl, hbound, rfl, rfl, rfl, fun sub hsub => ?_⟩
    exact if_pos hsub
  · rw [if_neg (by simpa [Channel.base] using hnew), if_neg hnew]
    refine ⟨_, rfl, hbound, rfl, rfl, ?_, hdelivered⟩
    simpa using hnew

theorem Samples.current_iff (h : s.Samples w) : s.Current ↔ w.UpToDate := by
  obtain ⟨d, hd, ⟨-, -, -, hsubs⟩, hvalue, -, -, hdelivered⟩ := h
  obtain ⟨sub, hsub⟩ := List.exists_mem_of_ne_nil _ hsubs
  unfold Current Sampled.UpToDate
  simp only [hd, Channel.base, Channel.value, hvalue]
  constructor
  · intro hall
    have hlast := hall sub hsub
    rw [hdelivered sub hsub, Option.map_eq_some_iff] at hlast
    obtain ⟨v, hv, hinj⟩ := hlast
    rw [hv, Datum.int.inj hinj]
  · intro hw sub hsub
    rw [hdelivered sub hsub, hw]
    rfl

theorem Samples.run (h : s.Samples w) (ops : List (DriverAccess ℤ)) :
    (s.driverRun io ops).Samples (w.run ops) := by
  induction ops generalizing s w with
  | nil => exact h
  | cons op ops ih =>
    cases op with
    | setValue v => exact ih (h.setValue v)
    | poll reading => exact ih (h.poll reading)

/-- Lost readings. With a driver that answers every call, and with a subscriber, what a poll
round leaves delivered is the channel's value, after every round of a sequence of readings and
writes, exactly when no round misses its reading. -/
theorem driverBacked_upToDate_iff (io : DriverIO) (d : ReadWriteInt)
    (hbound : d.driver = true ∧ d.pfnRead = true ∧ d.pfnWrite = true)
    (hsubs : d.subscribers ≠ []) (hchanged : d.isChanged = true) (ops : List (DriverAccess ℤ)) :
    AtReadings (fun pre reading =>
        ((start (.readWriteInt d)).driverRun io (pre ++ [.poll reading])).Current) ops ↔
      AtReadings (fun pre reading =>
        ¬(Comparison.of d.value d.oldValue pre).Misses reading) ops := by
  obtain ⟨hdriver, hread, hwrite⟩ := hbound
  have h : (start (.readWriteInt d)).Samples ⟨d.value, d.oldValue, d.isChanged, none⟩ :=
    ⟨d, rfl, ⟨hdriver, hread, hwrite, hsubs⟩, rfl, rfl, rfl, fun _ _ => rfl⟩
  rw [← @Sampled.atReadings_upToDate_iff _ _ ⟨d.value, d.oldValue, d.isChanged, none⟩ hchanged]
  exact forall₂_congr fun pre _ => imp_congr_right fun _ => forall₂_congr fun reading _ =>
    (h.run _).current_iff

/-- A `ReadWriteInt` with one subscriber, bound to a driver. -/
def boundInt : ReadWriteInt :=
  { subscribedInt with driver := true, pfnRead := true, pfnWrite := true }

theorem current_of_growing :
    AtReadings (fun pre reading => ((start (.readWriteInt boundInt)).driverRun noDriver
      (pre ++ [.poll reading])).Current) [.poll 0, .poll 1, .poll 2] := by
  refine (driverBacked_upToDate_iff noDriver boundInt ⟨rfl, rfl, rfl⟩ (by decide) rfl _).2 ?_
  change AtReadings _ ([] ++ [_] ++ [_] ++ [_])
  rw [atReadings_snoc, atReadings_snoc, atReadings_snoc]
  refine ⟨⟨⟨throughout_nil, ?_⟩, ?_⟩, ?_⟩ <;> rintro reading ⟨⟩ ⟨u, hu, -, heq, -⟩
  · exact Option.some_ne_none u hu.symm
  · exact absurd heq (by decide)
  · exact absurd heq (by decide)

/-- The value comes back to zero after one reading. -/
theorem not_current_of_returning : ¬∀ io ops,
    AtReadings (fun pre reading => ((start (.readWriteInt boundInt)).driverRun io
      (pre ++ [.poll reading])).Current) ops := by
  intro h
  have hlast := h noDriver [.poll 0, .poll 1, .poll 0] [.poll 0, .poll 1] _
    (List.prefix_refl _) 0 rfl 0 (by decide)
  have hzero : some (Datum.int 1) = some (Datum.int 0) := hlast
  simp at hzero

end PolledChannel

end Ick
