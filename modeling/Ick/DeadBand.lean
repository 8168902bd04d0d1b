import Ick.ChannelData
import Mathlib.Algebra.Order.Field.Rat

/-!
# Dead bands

`setValue` of `ReadWriteDouble` stores a value, and raises `isChanged`, if it differs from the
stored one by `m_accuracy` or more. The class is modelled over any arithmetic (`Doubles`) : with
`Float` it is the class itself (`setValue_ofDouble`), and with `ℚ` it computes exactly.

A poll round that finds `isChanged` up calls `update`, which notifies the subscribers one after
the other and then takes the flag down. A subscriber may call `setValue` when it is notified, and
`update` forgets that it did : each subscriber has seen the value exactly if no subscriber moves
it (`pending_iff_returns`). Where none writes back, the value is within the accuracy of the value
set last, and each round delivers it (`deadBand_bounded`).
-/

namespace Ick

/-- The arithmetic of the class : whether two values differ by the accuracy or more,
`fabs(x - y) >= accuracy`. -/
class Doubles (F : Type) where
  differ (accuracy x y : F) : Bool

instance : Doubles Float where
  differ accuracy x y := (x - y).abs ≥ accuracy

/-- Exact arithmetic. -/
instance : Doubles ℚ where
  differ accuracy x y := |x - y| ≥ accuracy

open Doubles

/-- What a dead band makes of a value when another is set. -/
def band {F : Type} [Doubles F] (accuracy x v : F) : F :=
  if differ accuracy x v then v else x

/-- `ReadWriteDouble` over an arithmetic. -/
structure ReadWriteDoubleOver (F : Type) extends UntypedData where
  value : F
  oldValue : F
  accuracy : F

namespace ReadWriteDoubleOver

variable {F : Type} [Doubles F]

/-- `setValue`, where the driver accepts the write or not. -/
def setValue (accepts : Bool) (d : ReadWriteDoubleOver F) (value : F) : ReadWriteDoubleOver F :=
  if d.driver ∧ d.pfnWrite then
    if accepts then
      if differ d.accuracy d.value value then
        { d with oldValue := d.value, value := value, isChanged := true, isValid := true }
      else { d with isValid := true }
    else d
  else if differ d.accuracy d.value value then
    { d with oldValue := d.value, value := value, isChanged := true, isValid := true }
  else { d with isValid := true }

/-- The class itself. -/
def ofDouble (d : ReadWriteDouble) : ReadWriteDoubleOver Float where
  toUntypedData := d.toUntypedData
  value := d.value
  oldValue := d.oldValue
  accuracy := d.accuracy

/-- Over `Float`, `setValue` is that of the class. -/
theorem setValue_ofDouble (io : DriverIO) (d : ReadWriteDouble) (v : Float) :
    ofDouble (d.setValue io v) =
      (ofDouble d).setValue (io.writeDouble d.channelNumber v) v := by
  have hdiffer : differ d.accuracy d.value v = true ↔ (d.value - v).abs ≥ d.accuracy :=
    decide_eq_true_iff
  simp only [ReadWriteDouble.setValue, setValue, ofDouble, hdiffer]
  split_ifs <;> rfl

/-- The driver is not asked, or accepts the write. -/
def Takes (accepts : Bool) (d : ReadWriteDoubleOver F) : Prop :=
  d.driver = true ∧ d.pfnWrite = true → accepts = true

variable {d : ReadWriteDoubleOver F} {accepts : Bool}

/-- What a write leaves : it goes through the dead band, or it is not accepted. -/
theorem setValue_eq (d : ReadWriteDoubleOver F) (accepts : Bool) (v : F) :
    (¬d.Takes accepts ∧ d.setValue accepts v = d) ∨
      (d.Takes accepts ∧ ∃ oldValue, d.setValue accepts v = { d with
        oldValue := oldValue, value := band d.accuracy d.value v,
        isChanged := d.isChanged || differ d.accuracy d.value v, isValid := true }) := by
  unfold Takes setValue band
  by_cases hasked : d.driver = true ∧ d.pfnWrite = true
  · cases accepts with
    | false => exact Or.inl ⟨by simp [hasked], by simp [hasked]⟩
    | true =>
      refine Or.inr ⟨fun _ => rfl, ?_⟩
      rw [if_pos hasked]
      cases hdiffer : differ d.accuracy d.value v
      · exact ⟨d.oldValue, by simp⟩
      · exact ⟨d.value, by simp⟩
  · refine Or.inr ⟨fun h => absurd h hasked, ?_⟩
    rw [if_neg hasked]
    cases hdiffer : differ d.accuracy d.value v
    · exact ⟨d.oldValue, by simp⟩
    · exact ⟨d.value, by simp⟩

@[simp] theorem setValue_subscribers (v : F) :
    (d.setValue accepts v).subscribers = d.subscribers := by
  obtain ⟨-, h⟩ | ⟨-, _, h⟩ := setValue_eq d accepts v <;> rw [h]

@[simp] theorem setValue_accuracy (v : F) : (d.setValue accepts v).accuracy = d.accuracy := by
  obtain ⟨-, h⟩ | ⟨-, _, h⟩ := setValue_eq d accepts v <;> rw [h]

theorem setValue_value (h : d.Takes accepts) (v : F) :
    (d.setValue accepts v).value = band d.accuracy d.value v := by
  obtain ⟨hnot, -⟩ | ⟨-, _, heq⟩ := setValue_eq d accepts v
  · exact absurd h hnot
  · rw [heq]

/-- A write that leaves the flag down leaves the value alone. -/
theorem setValue_value_of_not_changed {v : F} (h : (d.setValue accepts v).isChanged = false) :
    d.isChanged = false ∧ (d.setValue accepts v).value = d.value := by
  obtain ⟨-, heq⟩ | ⟨-, _, heq⟩ := setValue_eq d accepts v
  · rw [heq] at h ⊢
    exact ⟨h, rfl⟩
  · rw [heq] at h ⊢
    obtain ⟨hdown, hsame⟩ := Bool.or_eq_false_iff.1 h
    exact ⟨hdown, by simp [band, hsame]⟩

/-- The writes of one callback. -/
def setValues (d : ReadWriteDoubleOver F) (writes : List F) : ReadWriteDoubleOver F :=
  writes.foldl (setValue true) d

@[simp] theorem setValues_subscribers (d : ReadWriteDoubleOver F) (writes : List F) :
    (d.setValues writes).subscribers = d.subscribers := by
  induction writes generalizing d with
  | nil => rfl
  | cons v writes ih => exact (ih _).trans (setValue_subscribers v)

@[simp] theorem setValues_accuracy (d : ReadWriteDoubleOver F) (writes : List F) :
    (d.setValues writes).accuracy = d.accuracy := by
  induction writes generalizing d with
  | nil => rfl
  | cons v writes ih => exact (ih _).trans (setValue_accuracy v)

theorem setValues_value (d : ReadWriteDoubleOver F) (writes : List F) :
    (d.setValues writes).value = writes.foldl (band d.accuracy) d.value := by
  induction writes generalizing d with
  | nil => rfl
  | cons v writes ih =>
    rw [List.foldl_cons, ← setValue_value (fun _ => rfl) v]
    exact (ih _).trans (by rw [setValue_accuracy])

end ReadWriteDoubleOver

/-! ## Notification -/

/-- The calls on a double : a write that the driver accepts or not, or a poll round, with what
each subscriber writes when it is notified. -/
inductive DoubleCall (F : Type)
  | setValue (accepts : Bool) (v : F)
  | poll (writes : ℕ → List F)

/-- A double, and the value that each subscriber saw when it was notified last. -/
structure NotifiedDouble (F : Type) where
  datum : ReadWriteDoubleOver F
  seen : ℕ → Option F

namespace NotifiedDouble

variable {F : Type} [Doubles F]

/-- A subscriber is notified, and writes. -/
def callback (writes : ℕ → List F) (s : NotifiedDouble F) (sub : ℕ) : NotifiedDouble F where
  datum := s.datum.setValues (writes sub)
  seen := Function.update s.seen sub (some s.datum.value)

/-- `update` : the subscribers are notified, and the flag goes down. -/
def update (writes : ℕ → List F) (s : NotifiedDouble F) : NotifiedDouble F where
  datum := { (s.datum.subscribers.foldl (callback writes) s).datum with isChanged := false }
  seen := (s.datum.subscribers.foldl (callback writes) s).seen

/-- One iteration of `ObjectManager::execute` on the double, whose `getValue` does nothing. -/
def execute (writes : ℕ → List F) (s : NotifiedDouble F) : NotifiedDouble F :=
  if s.datum.isChanged then s.update writes else s

/-- One call. -/
def step (s : NotifiedDouble F) : DoubleCall F → NotifiedDouble F
  | .setValue accepts v => { s with datum := s.datum.setValue accepts v }
  | .poll writes => s.execute writes

/-- A list of calls. -/
def run (s : NotifiedDouble F) (calls : List (DoubleCall F)) : NotifiedDouble F :=
  calls.foldl step s

/-- Each subscriber saw the value when it was notified last. -/
def Seen (s : NotifiedDouble F) : Prop :=
  ∀ sub ∈ s.datum.subscribers, s.seen sub = some s.datum.value

/-- The change is still to be notified, or each subscriber has seen the value. -/
def Pending (s : NotifiedDouble F) : Prop :=
  s.datum.isChanged = true ∨ s.Seen

variable {s : NotifiedDouble F} {writes : ℕ → List F}

theorem run_snoc (s : NotifiedDouble F) (calls : List (DoubleCall F)) (call : DoubleCall F) :
    s.run (calls ++ [call]) = (s.run calls).step call := by
  simp [run]

/-- What the callbacks leave alone. -/
theorem callbacks_datum (subs : List ℕ) (s : NotifiedDouble F) :
    (subs.foldl (callback writes) s).datum.subscribers = s.datum.subscribers ∧
      (subs.foldl (callback writes) s).datum.accuracy = s.datum.accuracy := by
  induction subs generalizing s with
  | nil => exact ⟨rfl, rfl⟩
  | cons sub subs ih =>
    obtain ⟨hsubs, hacc⟩ := ih (s.callback writes sub)
    exact ⟨hsubs.trans (by simp [callback]), hacc.trans (by simp [callback])⟩

theorem callbacks_seen_of_notMem {subs : List ℕ} {sub : ℕ} (h : sub ∉ subs)
    (s : NotifiedDouble F) : (subs.foldl (callback writes) s).seen sub = s.seen sub := by
  induction subs generalizing s with
  | nil => rfl
  | cons sub' subs ih =>
    obtain ⟨hne, hnot⟩ := not_or.1 (List.mem_cons.not.1 h)
    exact (ih hnot _).trans (Function.update_of_ne hne _ _)

/-- The subscriber's writes leave a value where it is. -/
def Returns (writes : ℕ → List F) (accuracy x : F) (sub : ℕ) : Prop :=
  (writes sub).foldl (band accuracy) x = x

theorem callbacks_value {subs : List ℕ}
    (h : ∀ sub ∈ subs, Returns writes s.datum.accuracy s.datum.value sub) :
    (subs.foldl (callback writes) s).datum.value = s.datum.value := by
  induction subs generalizing s with
  | nil => rfl
  | cons sub subs ih =>
    obtain ⟨hsub, hsubs⟩ := List.forall_mem_cons.1 h
    have hvalue : (s.callback writes sub).datum.value = s.datum.value :=
      (ReadWriteDoubleOver.setValues_value _ _).trans hsub
    have hacc : (s.callback writes sub).datum.accuracy = s.datum.accuracy :=
      ReadWriteDoubleOver.setValues_accuracy _ _
    rw [List.foldl_cons, ih (by rwa [hvalue, hacc]), hvalue]

/-- After the callbacks each subscriber has seen the value, exactly when none has moved it. -/
theorem callbacks_seen_iff {subs : List ℕ} (hnodup : subs.Nodup) :
    (∀ sub ∈ subs, (subs.foldl (callback writes) s).seen sub =
        some (subs.foldl (callback writes) s).datum.value) ↔
      ∀ sub ∈ subs, Returns writes s.datum.accuracy s.datum.value sub := by
  induction subs generalizing s with
  | nil => simp
  | cons sub subs ih =>
    obtain ⟨hnot, hrest⟩ := List.nodup_cons.1 hnodup
    have hvalue : (s.callback writes sub).datum.value =
        (writes sub).foldl (band s.datum.accuracy) s.datum.value :=
      ReadWriteDoubleOver.setValues_value _ _
    have hacc : (s.callback writes sub).datum.accuracy = s.datum.accuracy :=
      ReadWriteDoubleOver.setValues_accuracy _ _
    have hfirst : (subs.foldl (callback writes) (s.callback writes sub)).seen sub =
        some s.datum.value :=
      (callbacks_seen_of_notMem hnot _).trans (Function.update_self _ _ _)
    have hvalues := @callbacks_value F _ (s.callback writes sub) writes subs
    rw [List.foldl_cons, List.forall_mem_cons, List.forall_mem_cons, ih hrest, hfirst,
      Option.some.injEq]
    rw [hacc] at hvalues ⊢
    constructor
    · rintro ⟨hsame, hsubs⟩
      rw [hvalues hsubs] at hsame
      rw [← hsame] at hsubs
      exact ⟨hvalue.symm.trans hsame.symm, hsubs⟩
    · rintro ⟨hsub, hsubs⟩
      have hsame : (s.callback writes sub).datum.value = s.datum.value := hvalue.trans hsub
      rw [hsame] at hvalues ⊢
      exact ⟨(hvalues hsubs).symm, hsubs⟩

/-- What holds at each poll round of `calls`, of the calls before it and what is written then. -/
def AtNotifications {F : Type} (Q : List (DoubleCall F) → (ℕ → List F) → Prop)
    (calls : List (DoubleCall F)) : Prop :=
  Throughout (fun pre call => ∀ writes, call = .poll writes → Q pre writes) calls

/-- The invariant : a change that nobody has noticed was not made. -/
structure Unforgotten (subs : List ℕ) (s : NotifiedDouble F) : Prop where
  subscribers : s.datum.subscribers = subs
  pending : s.Pending

theorem Unforgotten.setValue {subs : List ℕ} (h : s.Unforgotten subs) (accepts : Bool) (v : F) :
    (s.step (.setValue accepts v)).Unforgotten subs := by
  refine ⟨(ReadWriteDoubleOver.setValue_subscribers v).trans h.subscribers, ?_⟩
  cases hchanged : (s.datum.setValue accepts v).isChanged with
  | true => exact Or.inl hchanged
  | false =>
    obtain ⟨hdown, hvalue⟩ := ReadWriteDoubleOver.setValue_value_of_not_changed hchanged
    have hseen : s.Seen := h.pending.resolve_left (by rw [hdown]; exact Bool.false_ne_true)
    refine Or.inr fun sub hsub => ?_
    simp only [step, ReadWriteDoubleOver.setValue_subscribers] at hsub ⊢
    rw [hvalue]
    exact hseen sub hsub

/-- A poll round leaves the change pending or seen, exactly when no subscriber that it notifies
moves the value. -/
theorem Unforgotten.pending_iff {subs : List ℕ} (h : s.Unforgotten subs) (hnodup : subs.Nodup)
    (writes : ℕ → List F) : (s.step (.poll writes)).Pending ↔
      (s.datum.isChanged = true →
        ∀ sub ∈ subs, Returns writes s.datum.accuracy s.datum.value sub) := by
  obtain ⟨rfl, hpending⟩ := h
  simp only [step, execute]
  split_ifs with hchanged
  · have hseen : (s.update writes).Pending ↔ (s.update writes).Seen :=
      or_iff_right Bool.false_ne_true
    have hsubs : (s.update writes).datum.subscribers = s.datum.subscribers :=
      (callbacks_datum _ _).1
    rw [hseen, ← callbacks_seen_iff hnodup]
    simp only [hchanged, forall_const]
    unfold Seen
    rw [hsubs]
    rfl
  · exact iff_of_true hpending fun h => absurd h hchanged

/-- After every poll round the change is pending or seen, exactly when in no round that notifies
a subscriber moves the value. -/
theorem Unforgotten.atNotifications_iff {subs : List ℕ} (h : s.Unforgotten subs)
    (hnodup : subs.Nodup) (calls : List (DoubleCall F)) :
    AtNotifications (fun pre writes => (s.run (pre ++ [.poll writes])).Pending) calls ↔
      AtNotifications (fun pre writes => (s.run pre).datum.isChanged = true → ∀ sub ∈ subs,
        Returns writes (s.run pre).datum.accuracy (s.run pre).datum.value sub) calls := by
  refine throughout_congr (I := fun calls => (s.run calls).Unforgotten subs) h
    (fun calls call hcalls hcall => ?_)
    (fun calls call hcalls => forall₂_congr fun writes _ => ?_) calls
  · cases call with
    | setValue accepts v =>
      rw [run_snoc]
      exact hcalls.setValue accepts v
    | poll writes =>
      refine ⟨?_, hcall writes rfl⟩
      rw [run_snoc]
      simp only [step, execute]
      split_ifs
      · exact (callbacks_datum _ _).1.trans hcalls.subscribers
      · exact hcalls.subscribers
  · dsimp only
    rw [run_snoc]
    exact hcalls.pending_iff hnodup writes

/-- A double that no subscriber has seen. -/
def start (datum : ReadWriteDoubleOver F) : NotifiedDouble F where
  datum := datum
  seen _ := none

/-- Writes from inside a notification. For a `ReadWriteDouble` without a driver, or with one that
accepts what its subscribers write, the change is still flagged or each subscriber has seen the
value, after every poll round of a sequence of writes and rounds, exactly when in no round that
notifies a subscriber moves the value. -/
theorem pending_iff_returns (d : ReadWriteDouble) (hnodup : d.subscribers.Nodup)
    (hchanged : d.subscribers ≠ [] → d.isChanged = true) (calls : List (DoubleCall Float)) :
    AtNotifications (fun pre writes =>
        ((start (.ofDouble d)).run (pre ++ [.poll writes])).Pending) calls ↔
      AtNotifications (fun pre writes =>
        ((start (.ofDouble d)).run pre).datum.isChanged = true → ∀ sub ∈ d.subscribers,
          Returns writes ((start (.ofDouble d)).run pre).datum.accuracy
            ((start (.ofDouble d)).run pre).datum.value sub) calls := by
  refine Unforgotten.atNotifications_iff ⟨rfl, ?_⟩ hnodup calls
  by_cases hsubs : d.subscribers = []
  · refine Or.inr fun sub hsub => ?_
    change sub ∈ d.subscribers at hsub
    rw [hsubs] at hsub
    exact absurd hsub List.not_mem_nil
  · exact Or.inl (hchanged hsubs)

/-- A new `ReadWriteDouble` with two subscribers. -/
def subscribedDouble : ReadWriteDouble :=
  { ReadWriteDouble.new 0 with
    toUntypedData := ((ReadWriteDouble.new 0).subscribe 0).subscribe 1 }

theorem pending_of_quiet : AtNotifications (fun pre writes =>
    ((start (.ofDouble subscribedDouble)).run (pre ++ [.poll writes])).Pending)
      [.poll fun _ => [], .setValue true 5, .poll fun _ => []] := by
  refine (pending_iff_returns subscribedDouble (by decide) (fun _ => rfl) _).2 ?_
  change Throughout _ ([] ++ [_] ++ [_] ++ [_])
  rw [throughout_snoc, throughout_snoc, throughout_snoc]
  refine ⟨⟨⟨throughout_nil, ?_⟩, nofun⟩, ?_⟩
  · rintro writes ⟨⟩ - sub -
    rfl
  · rintro writes ⟨⟩ - sub -
    rfl

/-- The second of two subscribers writes five after the first has seen zero. -/
theorem not_pending_of_writing : ¬∀ (d : ReadWriteDouble), d.driver = false →
    d.subscribers.Nodup → (d.subscribers ≠ [] → d.isChanged = true) → ∀ calls,
    AtNotifications (fun pre writes =>
      ((start (.ofDouble d)).run (pre ++ [.poll writes])).Pending) calls := by
  intro h
  have hpending := h subscribedDouble rfl (by decide) (fun _ => rfl)
    [.poll fun sub => if sub = 1 then [5] else []] [] _ (List.prefix_refl _) _ rfl
  have hkept : (start (.ofDouble subscribedDouble)).Unforgotten [0, 1] := ⟨rfl, Or.inl rfl⟩
  have hreturns := (hkept.pending_iff (by decide) _).1 hpending rfl 1 (by decide)
  have hfive : (if ((0 : Float) - 5).abs ≥ 0.01 then (5 : Float) else 0) = 0 := by
    simpa [Returns, band, differ, start, ReadWriteDoubleOver.ofDouble, subscribedDouble,
      ReadWriteDouble.new] using hreturns
  exact absurd hfive (by decide +kernel)

/-! ## Exact arithmetic -/

/-- A dead band leaves a value within the accuracy of the one that is set. -/
theorem abs_band_sub_lt {accuracy : ℚ} (h : 0 < accuracy) (x v : ℚ) :
    |band accuracy x v - v| < accuracy := by
  have hdiffer : differ accuracy x v = true ↔ accuracy ≤ |x - v| := decide_eq_true_iff
  unfold band
  split_ifs with hfar
  · simpa using h
  · exact not_le.1 (mt hdiffer.2 hfar)

/-- A call on a double whose subscribers do not write, and whose driver, if there is one, accepts
all writes. -/
def passive {F : Type} : Access F → DoubleCall F
  | .setValue v => .setValue true v
  | .poll => .poll fun _ => []

/-- The value set last. -/
def lastSet {F : Type} (ops : List (Access F)) : Option F :=
  ops.foldl (fun last op =>
    match op with
    | .setValue v => some v
    | .poll => last) none

/-- The invariant : the value is within the accuracy of the value set last, and the change is
flagged or seen. -/
structure Close (subs : List ℕ) (accuracy : ℚ) (last : Option ℚ) (s : NotifiedDouble ℚ) : Prop
    extends s.Unforgotten subs where
  accuracy_eq : s.datum.accuracy = accuracy
  close : ∀ v, last = some v → |s.datum.value - v| < accuracy

variable {subs : List ℕ} {accuracy : ℚ} {last : Option ℚ} {s : NotifiedDouble ℚ}

theorem Close.setValue (h : s.Close subs accuracy last) (hacc : 0 < accuracy) (v : ℚ) :
    (s.step (passive (.setValue v))).Close subs accuracy (some v) where
  toUnforgotten := h.toUnforgotten.setValue true v
  accuracy_eq := (ReadWriteDoubleOver.setValue_accuracy v).trans h.accuracy_eq
  close := by
    rintro v' ⟨⟩
    change |(s.datum.setValue true v).value - v| < accuracy
    rw [ReadWriteDoubleOver.setValue_value (fun _ => rfl), h.accuracy_eq]
    exact abs_band_sub_lt hacc _ _

/-- Subscribers that do not write see the value, and leave the double alone. -/
theorem callbacks_passive (subs : List ℕ) (s : NotifiedDouble ℚ) :
    (subs.foldl (callback fun _ => []) s).datum = s.datum ∧
      ∀ sub ∈ subs, (subs.foldl (callback fun _ => []) s).seen sub = some s.datum.value := by
  induction subs generalizing s with
  | nil => exact ⟨rfl, nofun⟩
  | cons sub subs ih =>
    obtain ⟨hdatum, hseen⟩ := ih (s.callback (fun _ => []) sub)
    refine ⟨hdatum, fun sub' hsub' => ?_⟩
    by_cases hmem : sub' ∈ subs
    · exact hseen sub' hmem
    · obtain rfl := (List.mem_cons.1 hsub').resolve_right hmem
      exact (callbacks_seen_of_notMem hmem _).trans (Function.update_self _ _ _)

/-- A poll round whose subscribers do not write takes the flag down, and each of them has seen the
value then. -/
theorem poll_passive (h : s.Pending) :
    (s.step (passive .poll)).datum = { s.datum with isChanged := false } ∧
      (s.step (passive .poll)).Seen := by
  obtain ⟨hdatum, hseen⟩ := callbacks_passive s.datum.subscribers s
  simp only [passive, step, execute]
  split_ifs with hchanged
  · refine ⟨by rw [update, hdatum], fun sub hsub => ?_⟩
    simp only [update, hdatum] at hsub ⊢
    exact hseen sub hsub
  · refine ⟨?_, h.resolve_left hchanged⟩
    rw [← Bool.eq_false_of_not_eq_true hchanged]

theorem Close.poll (h : s.Close subs accuracy last) :
    (s.step (passive .poll)).Close subs accuracy last := by
  obtain ⟨hdatum, hseen⟩ := poll_passive h.pending
  refine ⟨⟨?_, Or.inr hseen⟩, ?_, ?_⟩
  · rw [hdatum]
    exact h.subscribers
  · rw [hdatum]
    exact h.accuracy_eq
  · rw [hdatum]
    exact h.close

theorem Close.run (h : s.Close subs accuracy none) (hacc : 0 < accuracy)
    (ops : List (Access ℚ)) : (s.run (ops.map passive)).Close subs accuracy (lastSet ops) := by
  induction ops using List.reverseRecOn with
  | nil => exact h
  | append_singleton ops op ih =>
    rw [List.map_append, List.map_singleton, run_snoc]
    unfold lastSet at ih ⊢
    rw [List.foldl_append]
    cases op with
    | setValue v => exact ih.setValue hacc v
    | poll => exact ih.poll

/-- The dead band is bounded. From the first delivery on, in exact arithmetic with a positive
accuracy and with subscribers that do not write, the value is within the accuracy of the value set
last after every sequence of writes and poll rounds, each round delivers the value, and as long as
the flag is down what was delivered is within the accuracy of the value set last. -/
theorem deadBand_bounded (s : NotifiedDouble ℚ) (hacc : 0 < s.datum.accuracy) (hseen : s.Seen)
    (ops : List (Access ℚ)) :
    (∀ v, lastSet ops = some v →
      |(s.run (ops.map passive)).datum.value - v| < s.datum.accuracy) ∧
    (∀ pre, ops = pre ++ [.poll] → (s.run (ops.map passive)).datum.isChanged = false ∧
      (s.run (ops.map passive)).Seen) ∧
    ((s.run (ops.map passive)).datum.isChanged = false → ∀ v, lastSet ops = some v →
      ∀ sub ∈ s.datum.subscribers, ∃ u, (s.run (ops.map passive)).seen sub = some u ∧
        |u - v| < s.datum.accuracy) := by
  have hstart : s.Close s.datum.subscribers s.datum.accuracy none :=
    ⟨⟨rfl, Or.inr hseen⟩, rfl, nofun⟩
  have hrun := hstart.run hacc ops
  have hflag : (s.run (ops.map passive)).datum.isChanged = false →
      (s.run (ops.map passive)).Seen := fun hfalse =>
    hrun.pending.resolve_left (by rw [hfalse]; exact Bool.false_ne_true)
  refine ⟨hrun.close, ?_, fun hfalse v hv sub hsub => ?_⟩
  · rintro pre rfl
    have hround : (s.run ((pre ++ [Access.poll]).map passive)).datum.isChanged = false := by
      rw [List.map_append, List.map_singleton, run_snoc,
        (poll_passive (hstart.run hacc pre).pending).1]
    exact ⟨hround, hflag hround⟩
  · refine ⟨_, hflag hfalse sub ?_, hrun.close v hv⟩
    rw [hrun.subscribers]
    exact hsub

/-- A double with one subscriber, which has seen it. -/
def deliveredDouble : NotifiedDouble ℚ where
  datum := ⟨{ UntypedData.new.subscribe 0 with isChanged := false }, 0, 0, 1 / 100⟩
  seen _ := some 0

theorem abs_sub_lt_of_drift : ∃ u,
    (deliveredDouble.run ([.setValue (1 / 200), .setValue (1 / 50), .poll].map passive)).seen 0 =
      some u ∧ |u - 1 / 50| < 1 / 100 := by
  have hbounded := deadBand_bounded deliveredDouble (by norm_num [deliveredDouble])
    (fun _ _ => rfl) [.setValue (1 / 200), .setValue (1 / 50), .poll]
  exact hbounded.2.2 (hbounded.2.1 [.setValue (1 / 200), .setValue (1 / 50)] rfl).1 _ rfl 0
    (by decide)

end NotifiedDouble

end Ick
