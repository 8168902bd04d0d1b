import Ick.Simulation

/-!
# Isolation from the driver

A channel that is simulated should not depend on its driver : after a simulated value was
accepted a look returns it, whatever the driver would read, and two runs that differ only in
what is read during simulation see the same values there.

A class of channels is told by what a look makes of the value (`Viewed`). `ReadOnlyInt` and
`ReadOnlyString` leave a simulated value alone. `ReadOnlyDouble` has no branch for simulation and
takes every reading that differs by `m_accuracy` or more (`ReadOnlyDouble.Overrides`).
`isolated_iff` says that a run is isolated exactly when no look in simulation does.
-/

namespace Ick

/-! ## Runs with a silent driver -/

namespace SimulatedAccess

variable {V : Type*}

/-- What the driver reads at a look. -/
def reading? : SimulatedAccess V → Option (Option V)
  | .setSimulated _ => none
  | .setSimulatedValue _ => none
  | .getValue reading => some reading
  | .poll reading => some reading

/-- The mode after a call. -/
def mode (simulated : Bool) : SimulatedAccess V → Bool
  | .setSimulated simulated => simulated
  | .setSimulatedValue _ => simulated
  | .getValue _ => simulated
  | .poll _ => simulated

/-- The call with a driver that is silent in simulation. -/
def silence (simulated : Bool) : SimulatedAccess V → SimulatedAccess V
  | .setSimulated simulated => .setSimulated simulated
  | .setSimulatedValue v => .setSimulatedValue v
  | .getValue reading => .getValue (if simulated then none else reading)
  | .poll reading => .poll (if simulated then none else reading)

/-- The calls with a driver that is silent in simulation. -/
def silenced : Bool → List (SimulatedAccess V) → List (SimulatedAccess V)
  | _, [] => []
  | simulated, op :: ops => op.silence simulated :: silenced (op.mode simulated) ops

variable {op : SimulatedAccess V} {reading : Option V}

theorem silence_of_reading?_eq_none (h : op.reading? = none) (simulated : Bool) :
    op.silence simulated = op := by
  cases op with
  | getValue reading => exact absurd h (Option.some_ne_none _)
  | poll reading => exact absurd h (Option.some_ne_none _)
  | _ => rfl

theorem reading?_silence (h : op.reading? = some reading) (simulated : Bool) :
    (op.silence simulated).reading? = some (if simulated then none else reading) := by
  cases op <;> simp_all [reading?, silence]

theorem mode_of_reading? (h : op.reading? = some reading) (simulated : Bool) :
    op.mode simulated = simulated := by
  cases op <;> simp_all [reading?, mode]

theorem silence_false (op : SimulatedAccess V) : op.silence false = op := by
  cases op <;> rfl

end SimulatedAccess

open SimulatedAccess

/-- What holds at each look of `ops`, of the calls that come before it and its reading. -/
def AtLooks {V : Type*} (Q : List (SimulatedAccess V) → Option V → Prop)
    (ops : List (SimulatedAccess V)) : Prop :=
  Throughout (fun pre op => ∀ reading, op.reading? = some reading → Q pre reading) ops

/-- The mode, and the last value accepted in the present period of simulation. -/
structure Acceptance (V : Type*) where
  simulated : Bool
  last : Option V

namespace Acceptance

variable {V : Type*}

/-- One more call. -/
def step (a : Acceptance V) : SimulatedAccess V → Acceptance V
  | .setSimulated simulated => ⟨simulated, if a.simulated && simulated then a.last else none⟩
  | .setSimulatedValue v => if a.simulated then { a with last := some v } else a
  | .getValue _ => a
  | .poll _ => a

/-- What a list of calls has accepted. -/
def of (simulated : Bool) (ops : List (SimulatedAccess V)) : Acceptance V :=
  ops.foldl step ⟨simulated, none⟩

theorem of_snoc (simulated : Bool) (ops : List (SimulatedAccess V)) (op : SimulatedAccess V) :
    of simulated (ops ++ [op]) = (of simulated ops).step op := by
  simp [of]

end Acceptance

/-! ## Values that are looked at -/

/-- A value, and whether it is simulated. -/
structure Viewed (V : Type*) where
  value : V
  simulated : Bool

namespace Viewed

variable {V : Type*} (sees : Bool → V → Option V → V)

/-- One call, where a look makes of a value in a mode what `sees` says. -/
def step (w : Viewed V) : SimulatedAccess V → Viewed V
  | .setSimulated simulated => { w with simulated := simulated }
  | .setSimulatedValue v => if w.simulated then { w with value := v } else w
  | .getValue reading => { w with value := sees w.simulated w.value reading }
  | .poll reading => { w with value := sees w.simulated w.value reading }

/-- A list of calls. -/
def run (w : Viewed V) (ops : List (SimulatedAccess V)) : Viewed V :=
  ops.foldl (step sees) w

/-- What the looks in simulation see. -/
def results : Viewed V → List (SimulatedAccess V) → List V
  | _, [] => []
  | w, op :: ops =>
    (match op.reading? with
      | some reading => if w.simulated then [sees true w.value reading] else []
      | none => []) ++ results (w.step sees op) ops

/-- No look in simulation changes the value. -/
def Unmoved (w : Viewed V) (ops : List (SimulatedAccess V)) : Prop :=
  AtLooks (fun pre reading => (w.run sees pre).simulated = true →
    sees true (w.run sees pre).value reading = (w.run sees pre).value) ops

variable {sees} {w : Viewed V}

theorem run_snoc (ops : List (SimulatedAccess V)) (op : SimulatedAccess V) :
    w.run sees (ops ++ [op]) = (w.run sees ops).step sees op := by
  simp [run]

theorem step_simulated (op : SimulatedAccess V) :
    (w.step sees op).simulated = op.mode w.simulated := by
  cases op with
  | setSimulatedValue v =>
    unfold step
    dsimp only
    split_ifs <;> rfl
  | _ => rfl

theorem step_of_reading? {op : SimulatedAccess V} {reading : Option V}
    (h : op.reading? = some reading) :
    w.step sees op = { w with value := sees w.simulated w.value reading } := by
  cases op <;> simp_all [reading?, step]

theorem unmoved_cons {op : SimulatedAccess V} {ops : List (SimulatedAccess V)} :
    w.Unmoved sees (op :: ops) ↔
      (∀ reading, op.reading? = some reading → w.simulated = true →
        sees true w.value reading = w.value) ∧ (w.step sees op).Unmoved sees ops :=
  throughout_cons

/-- A value accepted in the present period is the value, if no look in simulation has changed
it. -/
theorem Unmoved.value {ops : List (SimulatedAccess V)} (h : w.Unmoved sees ops) :
    (Acceptance.of w.simulated ops).simulated = (w.run sees ops).simulated ∧
      ∀ v, (Acceptance.of w.simulated ops).last = some v →
        (w.run sees ops).simulated = true ∧ (w.run sees ops).value = v := by
  refine h.invariant (I := fun ops =>
    (Acceptance.of w.simulated ops).simulated = (w.run sees ops).simulated ∧
      ∀ v, (Acceptance.of w.simulated ops).last = some v →
        (w.run sees ops).simulated = true ∧ (w.run sees ops).value = v)
    ⟨rfl, nofun⟩ fun ops op hops hop => ?_
  obtain ⟨hmode, hlast⟩ := hops
  rw [Acceptance.of_snoc, run_snoc]
  cases op with
  | setSimulated simulated =>
    refine ⟨rfl, fun v hv => ?_⟩
    simp only [Acceptance.step] at hv
    split_ifs at hv with hboth
    obtain ⟨-, rfl⟩ := Bool.and_eq_true_iff.1 hboth
    exact ⟨rfl, (hlast v hv).2⟩
  | setSimulatedValue v =>
    simp only [Acceptance.step, step, hmode]
    split_ifs with hs
    · exact ⟨rfl, fun v' hv' => ⟨hs, Option.some.inj hv'⟩⟩
    · exact ⟨hmode, hlast⟩
  | getValue reading =>
    refine ⟨hmode, fun v hv => ?_⟩
    obtain ⟨hs, hvalue⟩ := hlast v hv
    refine ⟨hs, ?_⟩
    simp only [step]
    rw [hs, hop reading rfl hs, hvalue]
  | poll reading =>
    refine ⟨hmode, fun v hv => ?_⟩
    obtain ⟨hs, hvalue⟩ := hlast v hv
    refine ⟨hs, ?_⟩
    simp only [step]
    rw [hs, hop reading rfl hs, hvalue]

/-- The looks in simulation see what they would with a silent driver, exactly when none of them
changes the value. -/
theorem results_silenced_iff (hsilent : ∀ v, sees true v none = v)
    (ops : List (SimulatedAccess V)) :
    w.results sees ops = w.results sees (silenced w.simulated ops) ↔ w.Unmoved sees ops := by
  induction ops generalizing w with
  | nil => exact iff_of_true rfl throughout_nil
  | cons op ops ih =>
    rw [unmoved_cons, ← ih, step_simulated]
    cases hreading : op.reading? with
    | none =>
      simp [results, silenced, silence_of_reading?_eq_none hreading, hreading]
    | some reading =>
      cases hs : w.simulated with
      | false =>
        simp [results, silenced, silence_false, hreading, hs]
      | true =>
        have hstep : w.step sees op = { w with value := sees true w.value reading } := by
          rw [step_of_reading? hreading, hs]
        have hquiet : w.step sees (op.silence true) = w := by
          have hsame : sees w.simulated w.value (if true then none else reading) = w.value := by
            rw [hs]
            exact hsilent w.value
          rw [step_of_reading? (reading?_silence hreading true), hsame]
        simp only [results, silenced, hs, hreading, reading?_silence hreading, hquiet, hsilent,
          mode_of_reading? hreading, if_true, List.singleton_append, List.cons.injEq,
          Option.some.injEq, forall_eq', forall_const]
        refine and_congr_right fun hsame => ?_
        rw [hstep, hsame]

end Viewed

/-! ## Channels that are looked at -/

namespace PolledChannel

section Class

variable {V : Type*} (answer : Option V → DriverIO) (inj : V → Datum)

/-- What the looks of the channel in simulation return. -/
def simulatedResults : PolledChannel → List (SimulatedAccess V) → List Datum
  | _, [] => []
  | s, op :: ops =>
    (match op.reading? with
      | some reading =>
        if s.channel.base.simulated then [(s.channel.getValue (answer reading)).1] else []
      | none => []) ++ simulatedResults (s.simulatedStep answer inj op) ops

/-- In simulation a look returns the last value accepted in the period, and all looks return
what they would with a silent driver. -/
structure Isolated (s : PolledChannel) (ops : List (SimulatedAccess V)) : Prop where
  held : AtLooks (fun pre reading => ∀ v,
    (Acceptance.of s.channel.base.simulated pre).last = some v →
      ((s.simulatedRun answer inj pre).channel.getValue (answer reading)).1 = inj v) ops
  silent : s.simulatedResults answer inj ops =
    s.simulatedResults answer inj (silenced s.channel.base.simulated ops)

variable {answer inj}

/-- Two isolated runs that differ only in what the driver reads in simulation return the same
there. -/
theorem Isolated.results_eq {s : PolledChannel} {ops ops' : List (SimulatedAccess V)}
    (h : s.Isolated answer inj ops) (h' : s.Isolated answer inj ops')
    (hops : silenced s.channel.base.simulated ops = silenced s.channel.base.simulated ops') :
    s.simulatedResults answer inj ops = s.simulatedResults answer inj ops' := by
  rw [h.silent, h'.silent, hops]

/-- A class whose looks make of the value what `sees` says : `HasView w` holds of the objects with
the value and the mode of `w`. -/
structure ViewedClass (answer : Option V → DriverIO) (inj : V → Datum)
    (sees : Bool → V → Option V → V) (HasView : Viewed V → Channel → Prop) : Prop where
  injective : Function.Injective inj
  base : ∀ {w c}, HasView w c → c.base.simulated = w.simulated
  setSimulated : ∀ {w c}, HasView w c → ∀ simulated,
    HasView { w with simulated := simulated } (c.mapBase fun d => { d with simulated := simulated })
  lowered : ∀ {w c}, HasView w c → HasView w (c.mapBase fun d => { d with isChanged := false })
  accepted : ∀ {w c}, HasView w c → w.simulated = true → ∀ v,
    ∃ c', c.setSimulatedValue (inj v) = some c' ∧ HasView { w with value := v } c'
  refused : ∀ {w c}, HasView w c → w.simulated = false → ∀ v, c.setSimulatedValue (inj v) = none
  getValue : ∀ {w c}, HasView w c → ∀ reading,
    (c.getValue (answer reading)).1 = inj (sees w.simulated w.value reading) ∧
      HasView { w with value := sees w.simulated w.value reading }
        (c.getValue (answer reading)).2

variable {sees : Bool → V → Option V → V} {HasView : Viewed V → Channel → Prop}
  {s : PolledChannel} {w : Viewed V}

theorem ViewedClass.step (hclass : ViewedClass answer inj sees HasView)
    (h : HasView w s.channel) (op : SimulatedAccess V) :
    HasView (w.step sees op) (s.simulatedStep answer inj op).channel := by
  cases op with
  | setSimulated simulated => exact hclass.setSimulated h simulated
  | setSimulatedValue v =>
    simp only [simulatedStep, Viewed.step]
    cases hs : w.simulated with
    | true =>
      obtain ⟨c', hc', hview⟩ := hclass.accepted h hs v
      rw [hc']
      rw [hs] at hview
      exact hview
    | false =>
      rw [hclass.refused h hs v]
      exact h
  | getValue reading => exact (hclass.getValue h reading).2
  | poll reading =>
    have hlook := (hclass.getValue h reading).2
    simp only [simulatedStep, execute]
    split_ifs
    · exact hclass.lowered hlook
    · exact hlook

theorem ViewedClass.run (hclass : ViewedClass answer inj sees HasView)
    (h : HasView w s.channel) (ops : List (SimulatedAccess V)) :
    HasView (w.run sees ops) (s.simulatedRun answer inj ops).channel := by
  induction ops using List.reverseRecOn with
  | nil => exact h
  | append_singleton ops op ih =>
    rw [Viewed.run_snoc, simulatedRun_snoc]
    exact hclass.step ih op

theorem ViewedClass.results (hclass : ViewedClass answer inj sees HasView)
    (h : HasView w s.channel) (ops : List (SimulatedAccess V)) :
    s.simulatedResults answer inj ops = (w.results sees ops).map inj := by
  induction ops generalizing s w with
  | nil => rfl
  | cons op ops ih =>
    rw [simulatedResults, Viewed.results, List.map_append, ih (hclass.step h op), hclass.base h]
    cases op.reading? with
    | none => rfl
    | some reading =>
      cases hs : w.simulated with
      | true => simp [(hclass.getValue h reading).1, hs]
      | false => simp

/-- A run is isolated exactly when no look in simulation changes the value. -/
theorem ViewedClass.isolated_iff_unmoved (hclass : ViewedClass answer inj sees HasView)
    (hsilent : ∀ v, sees true v none = v) (h : HasView w s.channel)
    (ops : List (SimulatedAccess V)) :
    s.Isolated answer inj ops ↔ w.Unmoved sees ops := by
  have hresults : s.simulatedResults answer inj ops =
      s.simulatedResults answer inj (silenced s.channel.base.simulated ops) ↔
        w.Unmoved sees ops := by
    rw [hclass.results h, hclass.results h, hclass.base h,
      (List.map_injective_iff.2 hclass.injective).eq_iff, Viewed.results_silenced_iff hsilent]
  refine ⟨fun hisolated => hresults.1 hisolated.silent, fun hunmoved => ⟨?_, hresults.2 hunmoved⟩⟩
  intro pre op hpre reading hreading v hv
  rw [hclass.base h] at hv
  have hbefore : w.Unmoved sees pre := fun pre' op' hpre' =>
    hunmoved pre' op' (hpre'.trans ((List.prefix_append _ _).trans hpre))
  obtain ⟨hs, rfl⟩ := hbefore.value.2 v hv
  rw [(hclass.getValue (hclass.run h pre) reading).1, hs, hunmoved pre op hpre reading hreading hs]

end Class

/-! ## The three classes -/

/-- A look that leaves a simulated value alone, and takes what a bound driver reads else. -/
def heeds {V : Type*} (bound : Bool) : Bool → V → Option V → V
  | true, v, _ => v
  | false, v, none => v
  | false, v, some r => if bound then r else v

/-- `ReadOnlyInt` and `ReadOnlyString` leave a simulated value alone. -/
theorem SimulableClass.viewed {V : Type*} [DecidableEq V] {answer : Option V → DriverIO}
    {inj : V → Datum} {mk : UntypedData → V → V → Bool → Channel}
    (hclass : SimulableClass answer inj mk) (bound : Bool) :
    ViewedClass answer inj (heeds bound) fun w c => ∃ d o b, c = mk d w.value o b ∧
      d.simulated = w.simulated ∧ (d.driver && d.pfnRead) = bound where
  injective := hclass.injective
  base := by
    rintro w c ⟨d, o, b, rfl, hs, -⟩
    rw [hclass.base, hs]
  setSimulated := by
    rintro w c ⟨d, o, b, rfl, -, hbound⟩ simulated
    exact ⟨_, o, b, hclass.mapBase _ _ _ _ _, rfl, hbound⟩
  lowered := by
    rintro w c ⟨d, o, b, rfl, hs, hbound⟩
    exact ⟨_, o, b, hclass.mapBase _ _ _ _ _, hs, hbound⟩
  accepted := by
    rintro w c ⟨d, o, b, rfl, hs, hbound⟩ hw v
    rw [hclass.setSimulatedValue, if_pos (hs.trans hw)]
    exact ⟨_, rfl, _, o, b, rfl, hs, hbound⟩
  refused := by
    rintro w c ⟨d, o, b, rfl, hs, -⟩ hw v
    rw [hclass.setSimulatedValue, hs, hw]
    rfl
  getValue := by
    rintro w c ⟨d, o, b, rfl, hs, hbound⟩ reading
    obtain ⟨isValid, valid, hget⟩ := hclass.getValue d w.value o b none reading
    have hlook : ((simulationOf d w.value o none).look (d.driver && d.pfnRead) reading).current =
        heeds bound w.simulated w.value reading := by
      rw [hbound, ← hs]
      unfold Simulation.look simulationOf
      cases d.simulated with
      | true =>
        rw [if_pos rfl]
        split_ifs <;> rfl
      | false =>
        cases reading with
        | none => rfl
        | some r =>
          cases bound <;> by_cases hr : r = w.value <;> simp [heeds, hr]
    rw [hget]
    exact ⟨congrArg inj hlook, _, _, valid, congrArg (mk _ · _ _) hlook, hs, hbound⟩

/-- A look that takes what a bound driver reads if it differs by the accuracy or more, in both
modes. -/
def overrides (bound : Bool) (accuracy : Float) : Bool → Float → Option Float → Float
  | _, v, none => v
  | _, v, some r => if bound ∧ (v - r).abs ≥ accuracy then r else v

theorem getValue_readOnlyDouble (io : DriverIO) (d : ReadOnlyDouble) (reading : Option Float) :
    ∃ oldValue isChanged isValid, d.getValue (io.readsDouble reading) =
      let v := overrides (d.driver && d.pfnRead) d.accuracy d.simulated d.value reading
      (v, { d with
        value := v, oldValue := oldValue, isChanged := isChanged, isValid := isValid }) := by
  by_cases hbound : d.driver = true ∧ d.pfnRead = true
  · cases reading with
    | none => exact ⟨_, _, _, if_pos hbound⟩
    | some r =>
      unfold ReadOnlyDouble.getValue
      rw [if_pos hbound]
      by_cases hfar : (d.value - r).abs ≥ d.accuracy
      · refine ⟨d.value, true, true, ?_⟩
        simp [overrides, DriverIO.readsDouble, hbound, hfar]
      · refine ⟨d.oldValue, d.isChanged, true, ?_⟩
        simp [overrides, DriverIO.readsDouble, hfar]
  · refine ⟨d.oldValue, d.isChanged, d.isValid, ?_⟩
    have hnot : (d.driver && d.pfnRead) = false := by simpa using hbound
    unfold ReadOnlyDouble.getValue
    rw [if_neg hbound, hnot]
    cases reading <;> simp [overrides]

/-- `ReadOnlyDouble` does not look at the mode. -/
theorem readOnlyDouble_viewed (io : DriverIO) (bound : Bool) (accuracy : Float) :
    ViewedClass io.readsDouble .double (overrides bound accuracy) fun w c =>
      ∃ d : ReadOnlyDouble, c = .readOnlyDouble d ∧ d.value = w.value ∧
        d.simulated = w.simulated ∧ (d.driver && d.pfnRead) = bound ∧ d.accuracy = accuracy where
  injective _ _ h := Datum.double.inj h
  base := by
    rintro w c ⟨d, rfl, -, hs, -⟩
    exact hs
  setSimulated := by
    rintro w c ⟨d, rfl, hv, -, hbound, hacc⟩ simulated
    exact ⟨_, rfl, hv, rfl, hbound, hacc⟩
  lowered := by
    rintro w c ⟨d, rfl, hv, hs, hbound, hacc⟩
    exact ⟨_, rfl, hv, hs, hbound, hacc⟩
  accepted := by
    rintro w c ⟨d, rfl, -, hs, hbound, hacc⟩ hw v
    refine ⟨.readOnlyDouble { d with value := v, isValid := true }, ?_, _, rfl, rfl, hs, hbound,
      hacc⟩
    simp [Channel.setSimulatedValue, ReadOnlyDouble.setSimulatedValue, hs, hw]
  refused := by
    rintro w c ⟨d, rfl, -, hs, -⟩ hw v
    simp [Channel.setSimulatedValue, ReadOnlyDouble.setSimulatedValue, hs, hw]
  getValue := by
    rintro w c ⟨d, rfl, hv, hs, hbound, hacc⟩ reading
    obtain ⟨oldValue, isChanged, isValid, hget⟩ := getValue_readOnlyDouble io d reading
    have hsees : overrides (d.driver && d.pfnRead) d.accuracy d.simulated d.value reading =
        overrides bound accuracy w.simulated w.value reading := by
      rw [hbound, hacc, hs, hv]
    rw [Channel.getValue, hget]
    exact ⟨congrArg Datum.double hsees, _, rfl, hsees, hs, hbound, hacc⟩

/-- A bound driver reads, while the value is simulated, another value that differs from it by the
accuracy or more. -/
def Overrides (d : ReadOnlyDouble) (reading : Option Float) : Prop :=
  d.simulated = true ∧ (d.driver = true ∧ d.pfnRead = true) ∧
    ∃ r, reading = some r ∧ (d.value - r).abs ≥ d.accuracy ∧ r ≠ d.value

theorem not_overrides_iff {d : ReadOnlyDouble} {reading : Option Float} :
    ¬Overrides d reading ↔ (d.simulated = true →
      overrides (d.driver && d.pfnRead) d.accuracy true d.value reading = d.value) := by
  unfold Overrides
  refine not_and.trans (imp_congr_right fun _ => ?_)
  cases reading with
  | none => simp [overrides]
  | some r =>
    by_cases hbound : d.driver = true ∧ d.pfnRead = true
    · by_cases hfar : (d.value - r).abs ≥ d.accuracy <;> simp [overrides, hbound, hfar]
    · simp [overrides, hbound]

/-- Isolation. In every run a simulated `ReadOnlyInt` or `ReadOnlyString` returns the last
accepted value, and what it would with a silent driver; a `ReadOnlyDouble` does so exactly when
no reading overrides a simulated value. Two such runs that differ only in what is read in
simulation return the same there. -/
theorem isolated_iff (io : DriverIO) :
    (∀ (d : ReadOnlyInt) ops, (start (.readOnlyInt d)).Isolated io.readsInt .int ops) ∧
    (∀ (d : ReadOnlyString) ops,
      (start (.readOnlyString d)).Isolated io.readsString .string ops) ∧
    (∀ (d : ReadOnlyDouble) ops, (start (.readOnlyDouble d)).Isolated io.readsDouble .double ops ↔
      AtLooks (fun pre reading => ∀ d', ((start (.readOnlyDouble d)).simulatedRun io.readsDouble
        .double pre).channel = .readOnlyDouble d' → ¬Overrides d' reading) ops) ∧
    (∀ {V : Type} (answer : Option V → DriverIO) (inj : V → Datum) (s : PolledChannel) ops ops',
      s.Isolated answer inj ops → s.Isolated answer inj ops' →
      silenced s.channel.base.simulated ops = silenced s.channel.base.simulated ops' →
      s.simulatedResults answer inj ops = s.simulatedResults answer inj ops') := by
  refine ⟨fun d ops => ?_, fun d ops => ?_, fun d ops => ?_,
    fun _ _ _ _ _ h h' hops => h.results_eq h' hops⟩
  · refine (((readOnlyInt_simulable io).viewed (d.driver && d.pfnRead)).isolated_iff_unmoved
      (w := ⟨d.value, d.simulated⟩) (fun _ => rfl) ?_ ops).2 fun _ _ _ _ _ _ => rfl
    exact ⟨d.toUntypedData, d.oldValue, d.valid, rfl, rfl, rfl⟩
  · refine (((readOnlyString_simulable io).viewed (d.driver && d.pfnRead)).isolated_iff_unmoved
      (w := ⟨d.value, d.simulated⟩) (fun _ => rfl) ?_ ops).2 fun _ _ _ _ _ _ => rfl
    exact ⟨d.toUntypedData, d.oldValue, d.valid, rfl, rfl, rfl⟩
  · have hclass := readOnlyDouble_viewed io (d.driver && d.pfnRead) d.accuracy
    have hview : ∃ d' : ReadOnlyDouble, (start (.readOnlyDouble d)).channel = .readOnlyDouble d' ∧
        d'.value = d.value ∧ d'.simulated = d.simulated ∧
        (d'.driver && d'.pfnRead) = (d.driver && d.pfnRead) ∧ d'.accuracy = d.accuracy :=
      ⟨d, rfl, rfl, rfl, rfl, rfl⟩
    refine (hclass.isolated_iff_unmoved (w := ⟨d.value, d.simulated⟩) (fun _ => rfl) hview
      ops).trans ?_
    refine forall₂_congr fun pre op => imp_congr_right fun _ => forall₂_congr fun reading _ => ?_
    obtain ⟨d', hd', hv, hs, hbound, hacc⟩ :=
      hclass.run (w := ⟨d.value, d.simulated⟩) hview pre
    dsimp only
    rw [hd', ← hv, ← hs, ← hbound, ← hacc]
    simp [not_overrides_iff]

theorem simulatedResults_readInt :
    (start (.readOnlyInt readInt)).simulatedResults noDriver.readsInt .int
        [.setSimulated true, .setSimulatedValue 5, .getValue (some 1)] =
      (start (.readOnlyInt readInt)).simulatedResults noDriver.readsInt .int
        [.setSimulated true, .setSimulatedValue 5, .getValue (some 2)] := by
  obtain ⟨hint, -, -, hsame⟩ := isolated_iff noDriver
  exact hsame _ _ _ _ _ (hint _ _) (hint _ _) rfl

/-- A `ReadOnlyDouble` bound to a driver. -/
def readDouble : ReadOnlyDouble :=
  { ReadOnlyDouble.new 0 0 with
    toUntypedData := { UntypedData.new.subscribe 0 with driver := true, pfnRead := true } }

/-- Five is simulated, and a look returns the zero that the driver reads. -/
theorem not_isolated_of_double : ¬∀ (io : DriverIO) ops,
    (start (.readOnlyDouble readDouble)).Isolated io.readsDouble .double ops := by
  intro h
  have hlook := (h noDriver [.setSimulated true, .setSimulatedValue 5, .getValue (some 0)]).held
    [.setSimulated true, .setSimulatedValue 5] (.getValue (some 0)) (List.prefix_refl _) _ rfl 5 rfl
  have hfive : (if ((5 : Float) - 0).abs ≥ 0.01 then (0 : Float) else 5) = 5 := by
    obtain ⟨_, _, _, hget⟩ := getValue_readOnlyDouble noDriver
      { readDouble with simulated := true, value := 5, isValid := true } (some 0)
    have hlook' : (ReadOnlyDouble.getValue (noDriver.readsDouble (some 0))
        { readDouble with simulated := true, value := 5, isValid := true }).1 = 5 :=
      Datum.double.inj hlook
    rw [hget] at hlook'
    simpa [overrides, readDouble, ReadOnlyDouble.new] using hlook'
  exact absurd hfive (by decide +kernel)

end PolledChannel

end Ick
