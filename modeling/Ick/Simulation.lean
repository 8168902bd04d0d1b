import Ick.ChannelData

/-!
# Simulated channels

A read-only channel takes its value from a driver, or from `setSimulatedValue` while it is
simulated. `getValue` of `ReadOnlyInt` and `ReadOnlyString` raises `isChanged` in the one mode
if the reading differs from `value`, and in the other if `value` differs from `oldValue`. But
`oldValue` is the value before the last reading that was new, as long as no poll in simulation
has set it to `value`, and a value that is simulated and then taken for a reading is new to
nobody.

`Simulation` keeps what the calls so far have done, and `Simulation.Misses` says what a poll
round loses : the value is not the one of the round before, nobody has noticed that, and this
round does not either. `simulated_upToDate_iff` says that no other value is lost.
-/

namespace Ick

/-- The calls on a read-only value. A look at it carries what the driver reads then, `none` if
it fails. -/
inductive SimulatedAccess (V : Type*)
  | setSimulated (simulated : Bool)
  | setSimulatedValue (v : V)
  | getValue (reading : Option V)
  | poll (reading : Option V)

/-- What holds at each poll round of `ops`, of the calls that come before it and its reading. -/
def AtRounds {V : Type*} (Q : List (SimulatedAccess V) → Option V → Prop)
    (ops : List (SimulatedAccess V)) : Prop :=
  Throughout (fun pre op => ∀ reading, op = .poll reading → Q pre reading) ops

theorem atRounds_snoc {V : Type*} {Q : List (SimulatedAccess V) → Option V → Prop}
    {ops : List (SimulatedAccess V)} {op : SimulatedAccess V} :
    AtRounds Q (ops ++ [op]) ↔
      AtRounds Q ops ∧ ∀ reading, op = .poll reading → Q ops reading :=
  throughout_snoc

/-- What the calls so far have done to a value : the value itself, the value it is compared with
in simulation, the mode, whether a look since the last poll round has found the value new, and
the value of that round. The first round counts as if a look had. -/
structure Simulation (V : Type*) where
  current : V
  compared : V
  simulated : Bool
  noticed : Bool
  polled : Option V

namespace Simulation

variable {V : Type*} [DecidableEq V]

/-- One look. A driver is heard if it is bound and the value is not simulated. -/
def look (bound : Bool) (reading : Option V) (c : Simulation V) : Simulation V :=
  if c.simulated then
    if c.current = c.compared then c else { c with compared := c.current, noticed := true }
  else
    match reading with
    | none => c
    | some r =>
      if bound = false ∨ r = c.current then c
      else { c with current := r, compared := c.current, noticed := true }

/-- One more call. -/
def step (bound : Bool) (c : Simulation V) : SimulatedAccess V → Simulation V
  | .setSimulated simulated => { c with simulated := simulated }
  | .setSimulatedValue v => if c.simulated then { c with current := v } else c
  | .getValue reading => c.look bound reading
  | .poll reading =>
    { c.look bound reading with noticed := false, polled := some (c.look bound reading).current }

/-- What a list of calls on a value that starts so has done. -/
def of (bound : Bool) (value oldValue : V) (simulated : Bool) (ops : List (SimulatedAccess V)) :
    Simulation V :=
  ops.foldl (step bound) ⟨value, oldValue, simulated, true, none⟩

omit [DecidableEq V] in
/-- A poll round with this reading loses the value : it is not the value of the round before,
nobody has found that since, and in simulation it is the one that it is compared with, else the
driver is not heard or reads no other value. -/
def Misses (bound : Bool) (c : Simulation V) (reading : Option V) : Prop :=
  ∃ u, c.polled = some u ∧ u ≠ c.current ∧ c.noticed = false ∧
    if c.simulated then c.current = c.compared
    else ∀ r, reading = some r → bound = true → r = c.current

theorem of_snoc (bound : Bool) (value oldValue : V) (simulated : Bool)
    (ops : List (SimulatedAccess V)) (op : SimulatedAccess V) :
    of bound value oldValue simulated (ops ++ [op]) =
      (of bound value oldValue simulated ops).step bound op := by
  simp [of]

variable {bound : Bool} {reading : Option V} {c : Simulation V}

@[simp] theorem look_simulated : (c.look bound reading).simulated = c.simulated := by
  unfold look
  split_ifs
  · rfl
  · rfl
  · cases reading with
    | none => rfl
    | some r => dsimp only; split_ifs <;> rfl

@[simp] theorem look_polled : (c.look bound reading).polled = c.polled := by
  unfold look
  split_ifs
  · rfl
  · rfl
  · cases reading with
    | none => rfl
    | some r => dsimp only; split_ifs <;> rfl

/-- A second look at the same reading sees the same value. -/
theorem look_look_current :
    ((c.look bound reading).look bound reading).current = (c.look bound reading).current := by
  unfold look
  by_cases hs : c.simulated
  · by_cases hc : c.current = c.compared <;> simp [hs, hc]
  · cases reading with
    | none => simp [hs]
    | some r => by_cases hr : bound = false ∨ r = c.current <;> simp [hs, hr]

/-- What a look sees is a matter of the value, the value compared with, and the mode. -/
theorem look_current_congr {c' : Simulation V} (hcurrent : c.current = c'.current)
    (hcompared : c.compared = c'.compared) (hsimulated : c.simulated = c'.simulated) :
    (c.look bound reading).current = (c'.look bound reading).current := by
  obtain ⟨current, compared, simulated, noticed, polled⟩ := c
  obtain ⟨current', compared', simulated', noticed', polled'⟩ := c'
  obtain ⟨rfl, rfl, rfl⟩ : current = current' ∧ compared = compared' ∧ simulated = simulated' :=
    ⟨hcurrent, hcompared, hsimulated⟩
  unfold look
  cases reading <;> dsimp only <;> split_ifs <;> rfl

/-- A look that has noticed nothing has found what `Misses` says. -/
theorem look_noticed_eq_false : (c.look bound reading).noticed = false ↔
    c.noticed = false ∧ if c.simulated then c.current = c.compared
      else ∀ r, reading = some r → bound = true → r = c.current := by
  unfold look
  by_cases hs : c.simulated
  · by_cases hc : c.current = c.compared <;> simp [hs, hc]
  · cases reading with
    | none => simp [hs]
    | some r =>
      cases bound
      · simp [hs]
      · by_cases hr : r = c.current <;> simp [hs, hr]

theorem look_of_noticed_eq_false (h : (c.look bound reading).noticed = false) :
    (c.look bound reading).current = c.current := by
  obtain ⟨-, hfound⟩ := look_noticed_eq_false.1 h
  unfold look
  by_cases hs : c.simulated
  · by_cases hc : c.current = c.compared <;> simp [hs, hc]
  · cases reading with
    | none => simp [hs]
    | some r =>
      simp only [hs, Bool.false_eq_true, if_false] at hfound ⊢
      rw [if_pos]
      cases bound
      · exact Or.inl rfl
      · exact Or.inr (hfound r rfl rfl)

/-- Before the first poll round the value counts as new. -/
theorem noticed_of_polled_eq_none {value oldValue : V} {simulated : Bool} :
    ∀ {ops : List (SimulatedAccess V)}, (of bound value oldValue simulated ops).polled = none →
      (of bound value oldValue simulated ops).noticed = true := by
  intro ops
  induction ops using List.reverseRecOn with
  | nil => exact fun _ => rfl
  | append_singleton ops op ih =>
    rw [of_snoc]
    intro hnone
    cases op with
    | setSimulated b => exact ih hnone
    | setSimulatedValue v =>
      simp only [step] at hnone ⊢
      split_ifs at hnone ⊢ <;> exact ih hnone
    | getValue reading =>
      simp only [step, look_polled] at hnone ⊢
      by_contra hfalse
      rw [Bool.not_eq_true, look_noticed_eq_false, ih hnone] at hfalse
      exact Bool.false_ne_true hfalse.1.symm
    | poll reading => simp [step] at hnone

end Simulation

/-! ## Simulated channels -/

/-- `setSimulatedValue` of the read-only classes; `none` when it throws, or for a class or a type
of value that has none. -/
def Channel.setSimulatedValue : Channel → Datum → Option Channel
  | .readOnlyInt d, .int value => (d.setSimulatedValue value).map .readOnlyInt
  | .readOnlyDouble d, .double value => (d.setSimulatedValue value).map .readOnlyDouble
  | .readOnlyString d, .string value => (d.setSimulatedValue value).map .readOnlyString
  | _, _ => none

namespace DriverIO

/-- A driver with this reading of an integer. -/
def readsInt (io : DriverIO) (reading : Option ℤ) : DriverIO :=
  { io with readInt := fun _ => reading }

/-- A driver with this reading of a double. -/
def readsDouble (io : DriverIO) (reading : Option Float) : DriverIO :=
  { io with readDouble := fun _ => reading }

/-- A driver with this reading of a string. -/
def readsString (io : DriverIO) (reading : Option Str) : DriverIO :=
  { io with readString := fun _ => reading }

end DriverIO

namespace PolledChannel

section Calls

variable {V : Type*} (answer : Option V → DriverIO) (inj : V → Datum)

/-- One call, on a driver that answers it. -/
def simulatedStep (s : PolledChannel) : SimulatedAccess V → PolledChannel
  | .setSimulated simulated =>
    { s with channel := s.channel.mapBase fun d => { d with simulated := simulated } }
  | .setSimulatedValue v =>
    match s.channel.setSimulatedValue (inj v) with
    | some channel => { s with channel := channel }
    | none => s
  | .getValue reading => { s with channel := (s.channel.getValue (answer reading)).2 }
  | .poll reading => s.execute (answer reading)

/-- A list of calls. -/
def simulatedRun (s : PolledChannel) (ops : List (SimulatedAccess V)) : PolledChannel :=
  ops.foldl (simulatedStep answer inj) s

theorem simulatedRun_snoc (s : PolledChannel) (ops : List (SimulatedAccess V))
    (op : SimulatedAccess V) : s.simulatedRun answer inj (ops ++ [op]) =
      (s.simulatedRun answer inj ops).simulatedStep answer inj op := by
  simp [simulatedRun]

end Calls

/-- What a value and the members of its base class have done, if this was the last round. -/
def simulationOf {V : Type*} (d : UntypedData) (value oldValue : V) (polled : Option V) :
    Simulation V :=
  ⟨value, oldValue, d.simulated, d.isChanged, polled⟩

/-- The members that `getValue` of the two classes writes. -/
structure Looked (V : Type*) where
  value : V
  oldValue : V
  isChanged : Bool
  isValid : Bool
  valid : Bool

/-- What `getValue` of the two classes makes of its members. -/
def lookAt {V : Type*} [DecidableEq V] (d : UntypedData) (value oldValue : V) (valid : Bool)
    (reading : Option V) : Looked V :=
  if d.simulated then
    if value ≠ oldValue then ⟨value, value, true, d.isValid, true⟩
    else ⟨value, oldValue, d.isChanged, d.isValid, valid⟩
  else if d.driver ∧ d.pfnRead then
    match reading with
    | none => ⟨value, oldValue, d.isChanged, d.isValid, valid⟩
    | some r =>
      if r ≠ value then ⟨r, value, true, true, true⟩
      else ⟨value, oldValue, d.isChanged, true, valid⟩
  else ⟨value, oldValue, d.isChanged, d.isValid, valid⟩

theorem getValue_readOnlyInt (io : DriverIO) (d : ReadOnlyInt) (reading : Option ℤ) :
    d.getValue (io.readsInt reading) =
      let w := lookAt d.toUntypedData d.value d.oldValue d.valid reading
      (w.value, { d with
        value := w.value, oldValue := w.oldValue, isChanged := w.isChanged,
        isValid := w.isValid, valid := w.valid }) := by
  unfold ReadOnlyInt.getValue lookAt
  split_ifs
  · rfl
  · rfl
  · cases reading with
    | none => rfl
    | some r =>
      simp only [ne_eq, DriverIO.readsInt]
      by_cases hr : r = d.value
      · rw [if_neg (not_not.2 hr.symm), if_neg (not_not.2 hr)]
      · rw [if_pos (Ne.symm hr), if_pos hr]
  · rfl

theorem getValue_readOnlyString (io : DriverIO) (d : ReadOnlyString) (reading : Option Str) :
    d.getValue (io.readsString reading) =
      let w := lookAt d.toUntypedData d.value d.oldValue d.valid reading
      (w.value, { d with
        value := w.value, oldValue := w.oldValue, isChanged := w.isChanged,
        isValid := w.isValid, valid := w.valid }) := by
  unfold ReadOnlyString.getValue lookAt
  split_ifs
  · rfl
  · rfl
  · cases reading with
    | none => rfl
    | some r =>
      simp only [ne_eq, DriverIO.readsString]
      split_ifs <;> rfl
  · rfl

/-- `getValue` of the two classes is a look. -/
theorem lookAt_eq_look {V : Type*} [DecidableEq V] (d : UntypedData) (value oldValue : V)
    (valid : Bool) (polled reading : Option V) : ∃ isValid valid',
      lookAt d value oldValue valid reading =
        let w := (simulationOf d value oldValue polled).look (d.driver && d.pfnRead) reading
        ⟨w.current, w.compared, w.noticed, isValid, valid'⟩ := by
  unfold lookAt simulationOf Simulation.look
  by_cases hs : d.simulated = true
  · by_cases hold : value = oldValue
    · exact ⟨d.isValid, valid, by simp [hs, hold]⟩
    · exact ⟨d.isValid, true, by simp [hs, hold]⟩
  · by_cases hbound : d.driver = true ∧ d.pfnRead = true
    · cases reading with
      | none => exact ⟨d.isValid, valid, by simp [hs, hbound]⟩
      | some r =>
        by_cases hr : r = value
        · exact ⟨true, valid, by simp [hs, hbound, hr]⟩
        · exact ⟨true, true, by simp [hs, hbound, hr]⟩
    · have hfree : (d.driver && d.pfnRead) = false := by simpa using hbound
      cases reading with
      | none => exact ⟨d.isValid, valid, by simp [hs, hbound]⟩
      | some r => exact ⟨d.isValid, valid, by simp [hs, hbound, hfree]⟩

/-- What the two classes have in common : `mk` builds an object from the members of the base
class, `value`, `oldValue`, and `valid`, and a look does what `Simulation.look` does. -/
structure SimulableClass {V : Type*} [DecidableEq V] (answer : Option V → DriverIO)
    (inj : V → Datum) (mk : UntypedData → V → V → Bool → Channel) : Prop where
  injective : Function.Injective inj
  base : ∀ d v o b, (mk d v o b).base = d
  value : ∀ d v o b, (mk d v o b).value = inj v
  mapBase : ∀ f d v o b, (mk d v o b).mapBase f = mk (f d) v o b
  setSimulatedValue : ∀ d v o b x, (mk d v o b).setSimulatedValue (inj x) =
    if d.simulated then some (mk { d with isValid := true } x o b) else none
  getValue : ∀ d v o b polled reading, ∃ isValid valid,
    (mk d v o b).getValue (answer reading) =
      let w := (simulationOf d v o polled).look (d.driver && d.pfnRead) reading
      (inj w.current, mk { d with isChanged := w.noticed, isValid := isValid }
        w.current w.compared valid)

theorem readOnlyInt_simulable (io : DriverIO) : SimulableClass io.readsInt .int
    fun d value oldValue valid => .readOnlyInt ⟨d, value, oldValue, valid⟩ where
  injective _ _ h := Datum.int.inj h
  base _ _ _ _ := rfl
  value _ _ _ _ := rfl
  mapBase _ _ _ _ _ := rfl
  setSimulatedValue d v o b x := by
    simp only [Channel.setSimulatedValue, ReadOnlyInt.setSimulatedValue]
    split_ifs <;> rfl
  getValue d v o b polled reading := by
    obtain ⟨isValid, valid, h⟩ := lookAt_eq_look d v o b polled reading
    exact ⟨isValid, valid, by rw [Channel.getValue, getValue_readOnlyInt, h]⟩

theorem readOnlyString_simulable (io : DriverIO) : SimulableClass io.readsString .string
    fun d value oldValue valid => .readOnlyString ⟨d, value, oldValue, valid⟩ where
  injective _ _ h := Datum.string.inj h
  base _ _ _ _ := rfl
  value _ _ _ _ := rfl
  mapBase _ _ _ _ _ := rfl
  setSimulatedValue d v o b x := by
    simp only [Channel.setSimulatedValue, ReadOnlyString.setSimulatedValue]
    split_ifs <;> rfl
  getValue d v o b polled reading := by
    obtain ⟨isValid, valid, h⟩ := lookAt_eq_look d v o b polled reading
    exact ⟨isValid, valid, by rw [Channel.getValue, getValue_readOnlyString, h]⟩

section Class

variable {V : Type*} [DecidableEq V] {answer : Option V → DriverIO} {inj : V → Datum}
  {mk : UntypedData → V → V → Bool → Channel} {s : PolledChannel} {w : Simulation V} {bound : Bool}

/-- The channel is subscribed, and is as the calls recorded in `w` have left it; after a poll
round each subscriber was delivered the value of that round. -/
def Simulates (mk : UntypedData → V → V → Bool → Channel) (inj : V → Datum) (bound : Bool)
    (s : PolledChannel) (w : Simulation V) : Prop :=
  ∃ d valid, s.channel = mk d w.current w.compared valid ∧
    ((d.driver && d.pfnRead) = bound ∧ d.subscribers ≠ []) ∧
    d.simulated = w.simulated ∧ d.isChanged = w.noticed ∧
    ∀ u, w.polled = some u → ∀ sub ∈ d.subscribers, s.delivered sub = some (inj u)

/-- What a look leaves of a channel. -/
theorem Simulates.look (hclass : SimulableClass answer inj mk) (h : s.Simulates mk inj bound w)
    (reading : Option V) :
    (s.channel.getValue (answer reading)).1 = inj (w.look bound reading).current ∧
      Simulates mk inj bound { s with channel := (s.channel.getValue (answer reading)).2 }
        (w.look bound reading) := by
  obtain ⟨d, valid, hchannel, ⟨hbound, hsubs⟩, hsimulated, hchanged, hdelivered⟩ := h
  have hw : simulationOf d w.current w.compared w.polled = w := by
    unfold simulationOf
    rw [hsimulated, hchanged]
  obtain ⟨isValid, valid', hget⟩ :=
    hclass.getValue d w.current w.compared valid w.polled reading
  rw [hw, hbound] at hget
  rw [hchannel, hget]
  refine ⟨rfl, _, valid', rfl, ⟨hbound, hsubs⟩, ?_, rfl, ?_⟩
  · rw [Simulation.look_simulated, hsimulated]
  · rw [Simulation.look_polled]
    exact hdelivered

theorem Simulates.setSimulated (hclass : SimulableClass answer inj mk)
    (h : s.Simulates mk inj bound w) (simulated : Bool) :
    (s.simulatedStep answer inj (.setSimulated simulated)).Simulates mk inj bound
      (w.step bound (.setSimulated simulated)) := by
  obtain ⟨d, valid, hchannel, hbound, -, hchanged, hdelivered⟩ := h
  refine ⟨{ d with simulated := simulated }, valid, ?_, hbound, rfl, hchanged, hdelivered⟩
  rw [simulatedStep, hchannel, hclass.mapBase]
  rfl

theorem Simulates.setSimulatedValue (hclass : SimulableClass answer inj mk)
    (h : s.Simulates mk inj bound w) (v : V) :
    (s.simulatedStep answer inj (.setSimulatedValue v)).Simulates mk inj bound
      (w.step bound (.setSimulatedValue v)) := by
  obtain ⟨d, valid, hchannel, hbound, hsimulated, hchanged, hdelivered⟩ := id h
  rw [simulatedStep, Simulation.step, hchannel, hclass.setSimulatedValue, ← hsimulated]
  split_ifs with hs
  · exact ⟨{ d with isValid := true }, valid, rfl, hbound, rfl, hchanged, hdelivered⟩
  · exact h

/-- A poll round delivers the value if it counts as new, and leaves the rest as a look does. -/
theorem Simulates.execute (hclass : SimulableClass answer inj mk)
    (h : s.Simulates mk inj bound w) (reading : Option V) :
    (s.execute (answer reading)).Simulates mk inj bound
        { w.look bound reading with noticed := false, polled := none } ∧
      ∀ sub ∈ (s.execute (answer reading)).channel.base.subscribers,
        ((w.look bound reading).noticed = true → (s.execute (answer reading)).delivered sub =
          some (inj (w.look bound reading).current)) ∧
        ((w.look bound reading).noticed = false → ∀ u, w.polled = some u →
          (s.execute (answer reading)).delivered sub = some (inj u)) := by
  obtain ⟨-, d, valid, hchannel, hbound, hsimulated, hchanged, hdelivered⟩ :=
    h.look hclass reading
  rw [Simulation.look_polled] at hdelivered
  simp only at hchannel
  simp only [PolledChannel.execute, hchannel, hclass.base, hchanged]
  cases hnoticed : (w.look bound reading).noticed with
  | true =>
    simp only [if_true, update, hclass.mapBase, hclass.base, hclass.value]
    refine ⟨⟨{ d with isChanged := false }, valid, rfl, hbound, hsimulated, rfl, fun u hu => ?_⟩,
      fun sub hsub => ⟨fun _ => if_pos hsub, fun hfalse => ?_⟩⟩
    · cases hu
    · cases hfalse
  | false =>
    simp only [Bool.false_eq_true, if_false, hclass.base]
    refine ⟨⟨d, valid, rfl, hbound, hsimulated, hchanged.trans hnoticed, fun u hu => ?_⟩,
      fun sub hsub => ⟨fun htrue => ?_, fun _ u hu => hdelivered u hu sub hsub⟩⟩
    · cases hu
    · cases htrue

theorem Simulates.upToDate_execute (hclass : SimulableClass answer inj mk)
    (h : s.Simulates mk inj bound w) (reading : Option V) :
    (s.execute (answer reading)).UpToDate (answer reading) ↔
      ∀ sub ∈ (s.execute (answer reading)).channel.base.subscribers,
        (s.execute (answer reading)).delivered sub =
          some (inj (w.look bound reading).current) := by
  obtain ⟨hget, -⟩ := (h.execute hclass reading).1.look hclass reading
  have hagain : (Simulation.look bound reading { w.look bound reading with
      noticed := false, polled := none }).current = (w.look bound reading).current := by
    rw [← @Simulation.look_look_current _ _ bound reading w]
    exact Simulation.look_current_congr rfl rfl rfl
  rw [UpToDate, hget, hagain]

/-- A poll round leaves the channel up to date unless it misses the value. -/
theorem Simulates.upToDate_iff (hclass : SimulableClass answer inj mk)
    (h : s.Simulates mk inj bound w) (hfirst : w.polled = none → w.noticed = true)
    (reading : Option V) :
    (s.execute (answer reading)).UpToDate (answer reading) ↔ ¬w.Misses bound reading := by
  obtain ⟨⟨d, valid, hchannel, ⟨-, hsubs⟩, -⟩, hdelivered⟩ := h.execute hclass reading
  rw [h.upToDate_execute hclass, hchannel, hclass.base]
  rw [hchannel, hclass.base] at hdelivered
  cases hnoticed : (w.look bound reading).noticed with
  | true =>
    refine iff_of_true (fun sub hsub => (hdelivered sub hsub).1 hnoticed) ?_
    rintro ⟨u, -, -, hmiss⟩
    rw [Simulation.look_noticed_eq_false.2 hmiss] at hnoticed
    exact Bool.false_ne_true hnoticed
  | false =>
    have hfound := Simulation.look_noticed_eq_false.1 hnoticed
    rw [Simulation.look_of_noticed_eq_false hnoticed]
    cases hpolled : w.polled with
    | none => exact absurd (hfirst hpolled) (by simp [hfound.1])
    | some u =>
      have hlast : ∀ sub ∈ d.subscribers,
          (s.execute (answer reading)).delivered sub = some (inj u) :=
        fun sub hsub => (hdelivered sub hsub).2 hnoticed u hpolled
      constructor
      · rintro hall ⟨u', hu', hne, -⟩
        obtain rfl := Option.some.inj (hpolled.symm.trans hu')
        obtain ⟨sub, hsub⟩ := List.exists_mem_of_ne_nil _ hsubs
        exact hne (hclass.injective (Option.some.inj ((hlast sub hsub).symm.trans (hall sub hsub))))
      · intro hmiss sub hsub
        rw [hlast sub hsub]
        by_contra hne
        exact hmiss ⟨u, hpolled, fun heq => hne (congrArg _ (congrArg _ heq)), hfound⟩

theorem Simulates.poll (hclass : SimulableClass answer inj mk) (h : s.Simulates mk inj bound w)
    (reading : Option V) (hup : (s.execute (answer reading)).UpToDate (answer reading)) :
    (s.simulatedStep answer inj (.poll reading)).Simulates mk inj bound
      (w.step bound (.poll reading)) := by
  rw [h.upToDate_execute hclass] at hup
  obtain ⟨d, valid, hchannel, hbound, hsimulated, hchanged, -⟩ := (h.execute hclass reading).1
  rw [hchannel, hclass.base] at hup
  refine ⟨d, valid, hchannel, hbound, hsimulated, hchanged, fun u hu sub hsub => ?_⟩
  obtain rfl := Option.some.inj hu
  exact hup sub hsub

/-- After every poll round the channel is up to date, exactly when no round misses the value. -/
theorem Simulates.atRounds_upToDate_iff (hclass : SimulableClass answer inj mk) {v o : V}
    {simulated : Bool} (h : s.Simulates mk inj bound ⟨v, o, simulated, true, none⟩)
    (ops : List (SimulatedAccess V)) :
    AtRounds (fun pre reading =>
        (s.simulatedRun answer inj (pre ++ [.poll reading])).UpToDate (answer reading)) ops ↔
      AtRounds (fun pre reading =>
        ¬(Simulation.of bound v o simulated pre).Misses bound reading) ops := by
  refine throughout_congr (I := fun ops => (s.simulatedRun answer inj ops).Simulates mk inj bound
    (Simulation.of bound v o simulated ops)) h (fun ops op hops hop => ?_)
    (fun ops op hops => forall₂_congr fun reading _ => ?_) ops
  · rw [simulatedRun_snoc, Simulation.of_snoc]
    cases op with
    | setSimulated b => exact hops.setSimulated hclass b
    | setSimulatedValue x => exact hops.setSimulatedValue hclass x
    | getValue reading => exact (hops.look hclass reading).2
    | poll reading =>
      have hup : (s.simulatedRun answer inj (ops ++ [.poll reading])).UpToDate
        (answer reading) := hop reading rfl
      rw [simulatedRun_snoc] at hup
      exact hops.poll hclass reading hup
  · dsimp only
    rw [simulatedRun_snoc]
    exact hops.upToDate_iff hclass Simulation.noticed_of_polled_eq_none reading

end Class

/-- Lost simulated values. With a subscriber, what a poll round leaves delivered is what
`getValue` returns, after every round of a sequence of mode switches, simulated values, looks, and
rounds, exactly when no round misses the value. -/
theorem simulated_upToDate_iff (io : DriverIO) :
    (∀ d : ReadOnlyInt, d.isChanged = true → d.subscribers ≠ [] → ∀ ops,
      AtRounds (fun pre reading => ((start (.readOnlyInt d)).simulatedRun io.readsInt .int
          (pre ++ [.poll reading])).UpToDate (io.readsInt reading)) ops ↔
        AtRounds (fun pre reading => ¬(Simulation.of (d.driver && d.pfnRead) d.value d.oldValue
          d.simulated pre).Misses (d.driver && d.pfnRead) reading) ops) ∧
    (∀ d : ReadOnlyString, d.isChanged = true → d.subscribers ≠ [] → ∀ ops,
      AtRounds (fun pre reading => ((start (.readOnlyString d)).simulatedRun io.readsString .string
          (pre ++ [.poll reading])).UpToDate (io.readsString reading)) ops ↔
        AtRounds (fun pre reading => ¬(Simulation.of (d.driver && d.pfnRead) d.value d.oldValue
          d.simulated pre).Misses (d.driver && d.pfnRead) reading) ops) := by
  constructor
  · intro d hchanged hsubs ops
    refine Simulates.atRounds_upToDate_iff (readOnlyInt_simulable io) ?_ ops
    exact ⟨d.toUntypedData, d.valid, rfl, ⟨rfl, hsubs⟩, rfl, hchanged, nofun⟩
  · intro d hchanged hsubs ops
    refine Simulates.atRounds_upToDate_iff (readOnlyString_simulable io) ?_ ops
    exact ⟨d.toUntypedData, d.valid, rfl, ⟨rfl, hsubs⟩, rfl, hchanged, nofun⟩

/-- A `ReadOnlyInt` with one subscriber, bound to a driver. -/
def readInt : ReadOnlyInt :=
  { ReadOnlyInt.new 0 with
    toUntypedData := { UntypedData.new.subscribe 0 with driver := true, pfnRead := true } }

/-- A `ReadOnlyString` with one subscriber, bound to a driver. -/
def readString : ReadOnlyString :=
  { ReadOnlyString.new [] with
    toUntypedData := { UntypedData.new.subscribe 0 with driver := true, pfnRead := true } }

theorem upToDate_of_simulated_rounds :
    AtRounds (fun pre reading => ((start (.readOnlyInt readInt)).simulatedRun
      noDriver.readsInt .int (pre ++ [.poll reading])).UpToDate (noDriver.readsInt reading))
      [.poll none, .setSimulated true, .setSimulatedValue 5, .poll none] ∧
    AtRounds (fun pre reading => ((start (.readOnlyString readString)).simulatedRun
      noDriver.readsString .string (pre ++ [.poll reading])).UpToDate
        (noDriver.readsString reading))
      [.poll none, .setSimulated true, .setSimulatedValue ['a'], .poll none] := by
  have hone : ∀ {V : Type} [DecidableEq V] (v o x : V), x ≠ o →
      AtRounds (fun pre reading => ¬(Simulation.of true v o false pre).Misses true reading)
        [.poll none, .setSimulated true, .setSimulatedValue x, .poll none] := by
    intro V _ v o x hx
    change AtRounds _ ([] ++ [_] ++ [_] ++ [_] ++ [_])
    rw [atRounds_snoc, atRounds_snoc, atRounds_snoc, atRounds_snoc]
    refine ⟨⟨⟨⟨throughout_nil, ?_⟩, nofun⟩, nofun⟩, ?_⟩
    · rintro reading - ⟨u, hu, -⟩
      exact Option.some_ne_none u hu.symm
    · rintro reading - ⟨u, -, -, -, hcompared⟩
      exact hx hcompared
  obtain ⟨hint, hstring⟩ := simulated_upToDate_iff noDriver
  exact ⟨(hint readInt rfl (by decide) _).2 (hone _ _ _ (by decide)),
    (hstring readString rfl (by decide) _).2 (hone _ _ _ (by decide))⟩

/-- One is delivered after zero, and then zero is simulated, the value before the reading. -/
theorem not_upToDate_of_switched : ¬∀ (io : DriverIO) ops,
    AtRounds (fun pre reading => ((start (.readOnlyInt readInt)).simulatedRun
      io.readsInt .int (pre ++ [.poll reading])).UpToDate
        (io.readsInt reading)) ops := by
  intro h
  have hlast := h noDriver
    [.poll (some 0), .poll (some 1), .setSimulated true, .setSimulatedValue 0, .poll none]
    [.poll (some 0), .poll (some 1), .setSimulated true, .setSimulatedValue 0] _
    (List.prefix_refl _) none rfl 0 (by decide)
  have hzero : some (Datum.int 1) = some (Datum.int 0) := hlast
  simp at hzero

end PolledChannel

end Ick
