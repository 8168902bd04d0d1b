import Ick.DriverBinding
import Ick.Isolation
import Ick.Publish

/-!
# Uninitialised doubles

`XmlParser::LoadIO` creates a read-only double with `ReadOnlyDouble()`, which leaves `m_value` and
`m_oldValue` as the memory was. Nothing reads `m_oldValue`. Two objects that differ in `m_value`
return the same values and publish the same from then on if an accepted `setSimulatedValue` comes
before the first look, or if that look reads a value which replaces both contents. A reading
within the accuracy of a content does not replace it.

`outputs_eq_iff_settled` says that no other run hides the contents.
-/

namespace Ick

/-- The members that `ReadOnlyDouble()` leaves as the memory was. -/
structure Contents where
  value : Float
  oldValue : Float

/-- `ReadOnlyDouble()`, in memory with these contents. -/
def ReadOnlyDouble.created (contents : Contents) : ReadOnlyDouble where
  toUntypedData := .new
  value := contents.value
  oldValue := contents.oldValue
  accuracy := 0.01

/-- The calls on a read-only double. A look carries what the driver reads then, `none` if it
fails. -/
inductive ReadCall
  | registChannels
  | subscribe (object : ℕ)
  | unsubscribe (object : ℕ)
  | setSimulated (simulated : Bool)
  | setSimulatedValue (value : Float)
  | getValue (reading : Option Float)
  | execute (reading : Option Float)

/-- What a call lets out of the object : a value that `getValue` has returned, or what `update`
publishes to a subscriber. -/
inductive Output
  | returned (value : Float)
  | published (object : ℕ) (valueInfo : RemoteValueInfo)

namespace ReadOnlyDouble

/-- What `ObjectManager::execute` does after the look. -/
def notified (value : Float) (d : ReadOnlyDouble) : List Output × ReadOnlyDouble :=
  if d.isChanged then
    (.returned value :: d.subscribers.map (.published · (Channel.readOnlyDouble d).valueInfo),
      { d with isChanged := false })
  else ([.returned value], d)

/-- One call, with what it lets out. -/
def step (io : DriverIO) (d : ReadOnlyDouble) : ReadCall → List Output × ReadOnlyDouble
  | .registChannels =>
    ([], { d with toUntypedData := d.toUntypedData.registChannel .DOUBLEDATA .READONLY })
  | .subscribe object => ([], { d with toUntypedData := d.toUntypedData.subscribe object })
  | .unsubscribe object => ([], { d with toUntypedData := d.toUntypedData.unsubscribe object })
  | .setSimulated simulated => ([], { d with simulated := simulated })
  | .setSimulatedValue value => ([], (d.setSimulatedValue value).getD d)
  | .getValue reading =>
    ([.returned (d.getValue (io.readsDouble reading)).1], (d.getValue (io.readsDouble reading)).2)
  | .execute reading =>
    notified (d.getValue (io.readsDouble reading)).1 (d.getValue (io.readsDouble reading)).2

/-- What a list of calls lets out. -/
def outputs (io : DriverIO) (d : ReadOnlyDouble) : List ReadCall → List Output
  | [] => []
  | call :: calls => (d.step io call).1 ++ outputs io (d.step io call).2 calls

variable {io : DriverIO} {d d' : ReadOnlyDouble}

/-! ## What nobody reads -/

/-- The two objects agree, up to members that nothing reads. -/
def Alike (d d' : ReadOnlyDouble) : Prop :=
  ∃ oldValue isValid, d' = { d with oldValue := oldValue, isValid := isValid }

theorem Alike.getValue (h : Alike d d') (io : DriverIO) :
    (d.getValue io).1 = (d'.getValue io).1 ∧ Alike (d.getValue io).2 (d'.getValue io).2 := by
  obtain ⟨oldValue, isValid, rfl⟩ := h
  unfold ReadOnlyDouble.getValue
  dsimp only
  split_ifs
  · cases io.readDouble d.channelNumber with
    | none => exact ⟨rfl, oldValue, isValid, rfl⟩
    | some r =>
      dsimp only
      split_ifs
      · exact ⟨rfl, d.value, true, rfl⟩
      · exact ⟨rfl, oldValue, true, rfl⟩
  · exact ⟨rfl, oldValue, isValid, rfl⟩

theorem Alike.notified (h : Alike d d') (value : Float) :
    (notified value d).1 = (notified value d').1 ∧
      Alike (notified value d).2 (notified value d').2 := by
  obtain ⟨oldValue, isValid, rfl⟩ := h
  unfold ReadOnlyDouble.notified
  dsimp only
  split_ifs
  · exact ⟨rfl, oldValue, isValid, rfl⟩
  · exact ⟨rfl, oldValue, isValid, rfl⟩

theorem Alike.step (h : Alike d d') (io : DriverIO) (call : ReadCall) :
    (d.step io call).1 = (d'.step io call).1 ∧ Alike (d.step io call).2 (d'.step io call).2 := by
  obtain ⟨oldValue, isValid, rfl⟩ := id h
  cases call with
  | registChannels => exact ⟨rfl, oldValue, isValid, rfl⟩
  | subscribe object =>
    refine ⟨rfl, oldValue, isValid, ?_⟩
    simp only [ReadOnlyDouble.step, UntypedData.subscribe]
    split_ifs <;> rfl
  | unsubscribe object => exact ⟨rfl, oldValue, isValid, rfl⟩
  | setSimulated simulated => exact ⟨rfl, oldValue, isValid, rfl⟩
  | setSimulatedValue value =>
    refine ⟨rfl, ?_⟩
    simp only [ReadOnlyDouble.step, setSimulatedValue]
    split_ifs
    · exact ⟨oldValue, true, rfl⟩
    · exact ⟨oldValue, isValid, rfl⟩
  | getValue reading =>
    obtain ⟨hvalue, hafter⟩ := h.getValue (io.readsDouble reading)
    exact ⟨congrArg ([Output.returned ·]) hvalue, hafter⟩
  | execute reading =>
    obtain ⟨hvalue, hafter⟩ := h.getValue (io.readsDouble reading)
    simp only [ReadOnlyDouble.step, hvalue]
    exact hafter.notified _

/-- Objects that agree let out the same. -/
theorem Alike.outputs (h : Alike d d') (calls : List ReadCall) :
    d.outputs io calls = d'.outputs io calls := by
  induction calls generalizing d d' with
  | nil => rfl
  | cons call calls ih =>
    obtain ⟨hout, hafter⟩ := h.step io call
    rw [ReadOnlyDouble.outputs, ReadOnlyDouble.outputs, hout, ih hafter]

/-! ## The first look -/

/-- A look with this reading makes the reading of the value `x`. -/
def Replaces (d : UntypedData) (reading : Option Float) (x : Float) : Prop :=
  (d.driver = true ∧ d.pfnRead = true) ∧
    ∃ r, reading = some r ∧ ((x - r).abs ≥ 0.01 ∨ x = r)

/-- No call looks at the value, or an accepted simulated value comes before the first look, or
the first look replaces both contents. `d` is the base class before the calls. -/
def Settled (x y : Float) (d : UntypedData) : List ReadCall → Prop
  | [] => True
  | .registChannels :: calls => Settled x y (d.registChannel .DOUBLEDATA .READONLY) calls
  | .subscribe object :: calls => Settled x y (d.subscribe object) calls
  | .unsubscribe object :: calls => Settled x y (d.unsubscribe object) calls
  | .setSimulated simulated :: calls => Settled x y { d with simulated := simulated } calls
  | .setSimulatedValue _ :: calls => d.simulated = true ∨ Settled x y d calls
  | .getValue reading :: _ => Replaces d reading x ∧ Replaces d reading y
  | .execute reading :: _ => Replaces d reading x ∧ Replaces d reading y

/-- A look leaves two different values the same exactly when it replaces both. -/
theorem overrides_eq_iff (b : UntypedData) (simulated : Bool) {x y : Float} (hne : x ≠ y)
    (reading : Option Float) :
    PolledChannel.overrides (b.driver && b.pfnRead) 0.01 simulated x reading =
        PolledChannel.overrides (b.driver && b.pfnRead) 0.01 simulated y reading ↔
      Replaces b reading x ∧ Replaces b reading y := by
  unfold Replaces
  cases reading with
  | none => simp [PolledChannel.overrides, hne]
  | some r =>
    by_cases hbound : b.driver = true ∧ b.pfnRead = true
    · by_cases hx : (x - r).abs ≥ 0.01 <;> by_cases hy : (y - r).abs ≥ 0.01
      · simp [PolledChannel.overrides, hbound, hx, hy]
      · simp [PolledChannel.overrides, hbound, hx, hy, eq_comm]
      · simp [PolledChannel.overrides, hbound, hx, hy]
      · simp only [PolledChannel.overrides, hbound, hx, hy, and_false, if_false]
        refine iff_of_false hne ?_
        rintro ⟨⟨-, r', hr, hxr⟩, -, r'', hr', hyr⟩
        exact hne (by simp_all)
    · simp [PolledChannel.overrides, hbound, hne]

/-- The object with these contents. -/
def holding (b : UntypedData) (contents : Contents) : ReadOnlyDouble :=
  ⟨b, contents.value, contents.oldValue, 0.01⟩

/-- A look while the flag is up returns what `overrides` says, and leaves the flag up. -/
theorem getValue_holding (io : DriverIO) {b : UntypedData} (hchanged : b.isChanged = true)
    (x : Contents) (reading : Option Float) : ∃ oldValue isValid,
      (holding b x).getValue (io.readsDouble reading) =
        let v := PolledChannel.overrides (b.driver && b.pfnRead) 0.01 b.simulated x.value reading
        (v, holding { b with isValid := isValid } ⟨v, oldValue⟩) := by
  obtain ⟨oldValue, isChanged, isValid, hget⟩ :=
    PolledChannel.getValue_readOnlyDouble io (holding b x) reading
  have hkept : ((holding b x).getValue (io.readsDouble reading)).2.isChanged = true := by
    unfold ReadOnlyDouble.getValue
    split_ifs
    · cases (io.readsDouble reading).readDouble (holding b x).channelNumber with
      | none => exact hchanged
      | some r =>
        dsimp only
        split_ifs
        · rfl
        · exact hchanged
    · exact hchanged
  rw [hget] at hkept ⊢
  obtain rfl : isChanged = true := hkept
  obtain ⟨channelNumber, simulated, driver, pfnRead, pfnWrite, changed, valid, subscribers⟩ := b
  obtain rfl : changed = true := hchanged
  exact ⟨oldValue, isValid, rfl⟩

/-- A look lets out first what `getValue` returns. -/
theorem head?_outputs {reading : Option Float} {call : ReadCall}
    (hcall : call = .getValue reading ∨ call = .execute reading) (calls : List ReadCall) :
    (d.outputs io (call :: calls)).head? =
      some (.returned (d.getValue (io.readsDouble reading)).1) := by
  have hnotified : ∀ value d' (outs : List Output),
      ((notified value d').1 ++ outs).head? = some (.returned value) := fun value d' outs => by
    unfold notified
    split_ifs <;> rfl
  rcases hcall with rfl | rfl
  · rfl
  · exact hnotified _ _ _

/-- Two values that a look leaves the same are let out the same from then on. -/
theorem outputs_look_iff {b : UntypedData} (hchanged : b.isChanged = true) {x y : Contents}
    (hne : x.value ≠ y.value) {reading : Option Float} {call : ReadCall}
    (hcall : call = .getValue reading ∨ call = .execute reading) (calls : List ReadCall) :
    (holding b x).outputs io (call :: calls) = (holding b y).outputs io (call :: calls) ↔
      Replaces b reading x.value ∧ Replaces b reading y.value := by
  obtain ⟨ox, ix, hx⟩ := getValue_holding io hchanged x reading
  obtain ⟨oy, iy, hy⟩ := getValue_holding io hchanged y reading
  rw [← overrides_eq_iff b b.simulated hne]
  generalize PolledChannel.overrides (b.driver && b.pfnRead) 0.01 b.simulated x.value reading = v
    at hx ⊢
  generalize PolledChannel.overrides (b.driver && b.pfnRead) 0.01 b.simulated y.value reading = w
    at hy ⊢
  constructor
  · intro heq
    have hreturned := (head?_outputs hcall calls).symm.trans
      ((congrArg List.head? heq).trans (head?_outputs hcall calls))
    rw [hx, hy] at hreturned
    exact Output.returned.inj (Option.some.inj hreturned)
  · rintro rfl
    have hlook : Alike (holding { b with isValid := ix } ⟨v, ox⟩)
        (holding { b with isValid := iy } ⟨v, oy⟩) := ⟨oy, iy, rfl⟩
    have hstep : ((holding b x).step io call).1 = ((holding b y).step io call).1 ∧
        Alike ((holding b x).step io call).2 ((holding b y).step io call).2 := by
      rcases hcall with rfl | rfl
      · simp only [step, hx, hy]
        exact ⟨trivial, hlook⟩
      · simp only [step, hx, hy]
        exact hlook.notified v
    rw [outputs, outputs, hstep.1, hstep.2.outputs]

theorem outputs_holding_iff {b : UntypedData} (hchanged : b.isChanged = true) {x y : Contents}
    (hne : x.value ≠ y.value) (calls : List ReadCall) :
    (holding b x).outputs io calls = (holding b y).outputs io calls ↔
      Settled x.value y.value b calls := by
  induction calls generalizing b with
  | nil => exact iff_of_true rfl trivial
  | cons call calls ih =>
    cases call with
    | registChannels => exact ih hchanged
    | subscribe object => exact ih (b.subscribe_spec object).1
    | unsubscribe object => exact ih hchanged
    | setSimulated simulated => exact ih hchanged
    | setSimulatedValue value =>
      rw [Settled]
      cases hsimulated : b.simulated with
      | true =>
        refine iff_of_true (Alike.outputs ?_ calls) (Or.inl rfl)
        simp only [step, setSimulatedValue, holding, hsimulated, if_true]
        exact ⟨_, _, rfl⟩
      | false =>
        have hstep : ∀ z, (holding b z).step io (.setSimulatedValue value) = ([], holding b z) :=
          fun z => by simp [step, setSimulatedValue, holding, hsimulated]
        rw [outputs, outputs, hstep, hstep, ← ih hchanged]
        simp
    | getValue reading => exact outputs_look_iff hchanged hne (Or.inl rfl) calls
    | execute reading => exact outputs_look_iff hchanged hne (Or.inr rfl) calls

/-- Uninitialised memory. Two read-only doubles that `ReadOnlyDouble()` has built in different
memory let out the same for a list of calls, exactly when the contents of `m_value` are the same
or the calls settle them. -/
theorem outputs_eq_iff_settled (io : DriverIO) (x y : Contents) (calls : List ReadCall) :
    (created x).outputs io calls = (created y).outputs io calls ↔
      x.value = y.value ∨ Settled x.value y.value .new calls := by
  by_cases heq : x.value = y.value
  · refine iff_of_true (Alike.outputs ?_ calls) (Or.inl heq)
    unfold created
    rw [heq]
    exact ⟨_, _, rfl⟩
  · rw [or_iff_right heq]
    exact outputs_holding_iff rfl heq calls

/-- The first poll round of a double without a driver returns what the memory held. -/
theorem not_outputs_eq : ¬∀ io x y calls,
    (created x).outputs io calls = (created y).outputs io calls := by
  intro h
  have hout := h PolledChannel.noDriver ⟨0, 0⟩ ⟨5, 0⟩ [.subscribe 0, .execute none]
  have hzero : (0 : Float) = 5 :=
    Output.returned.inj (List.cons.inj (hout : Output.returned 0 :: _ = .returned 5 :: _)).1
  exact absurd hzero (by decide +kernel)

end ReadOnlyDouble

end Ick
