import Ick.DriverBinding
import Ick.LifeCycle
import Ick.NewSubscriber
import Ick.Simulation
import Ick.Sweep

/-!
# The poll thread

`ObjectManager::execute` goes over `m_datas` again and again, and sleeps after each pass. Of each
entry it calls `getValue`, tests `isChanged`, and if it is up, `update` notifies the subscribers
and takes it down, under the mutex of the channel. Meanwhile other threads register channels and
aliases, and call the channels. On Windows `subscribe` and `unsubscribe` wait for the mutex; on
Linux the mutex does nothing, and they change the list that `update` goes over (`overtake`). The
subscribers read the value and call nothing.

A pass visits each entry that was there when it began, once (`visits_of_pass`). An update tells
those who have subscribed the channel and not unsubscribed it since, and nobody else
(`tells_of_run`). And they know the value of a channel that nobody writes whenever `isChanged` is
down and no update is under way (`knows_of_run`). On Linux, this is so if nobody subscribes the
channel or takes back a subscription of it while it is updated (`Apart`).
-/

namespace Ick

/-! ## The thread -/

/-- What the thread does next at an entry : call `getValue`, test `isChanged`, call `update`, or
notify the subscribers that are left. -/
inductive PollStage
  | look
  | test
  | update
  | notifying (rest : List ℕ)

/-- Where the thread is : between two passes, or at an entry of `m_datas`. -/
inductive PollPlace
  | asleep
  | at (fullName : Str) (data : ℕ) (stage : PollStage)

/-- The place of the thread when its iterator has come to this entry, or to the end. -/
def PollPlace.of : Option (Str × ℕ) → PollPlace
  | some (fullName, data) => .at fullName data .look
  | none => .asleep

/-- What the thread has done. -/
inductive PollNote
  | began
  | looked (fullName : Str)
  | told (data subscriber : ℕ) (value : Datum)

/-- The registry with the channel objects, where the thread is, and what it has done. -/
structure PollThread where
  manager : ObjectManager
  channels : ℕ → Channel
  place : PollPlace
  log : List PollNote

/-- A call of a channel by another thread. -/
inductive ChannelCall
  | setValue (io : DriverIO) (value : Datum)
  | getValue (io : DriverIO)
  | setSimulated (simulated : Bool)
  | setSimulatedValue (value : Datum)
  | subscribe (object : ℕ)
  | unsubscribe (object : ℕ)
  | registChannel

namespace ChannelCall

/-- What the call makes of the channel. -/
def apply (c : Channel) : ChannelCall → Channel
  | setValue io value => c.setValue io value
  | getValue io => (c.getValue io).2
  | setSimulated simulated => c.mapBase fun d => { d with simulated := simulated }
  | setSimulatedValue value => (c.setSimulatedValue value).getD c
  | subscribe object => c.mapBase fun d => d.subscribe object
  | unsubscribe object => c.mapBase fun d => d.unsubscribe object
  | registChannel => c.mapBase (.registChannel c.dataType c.accessMode)

/-- The call takes the mutex of the channel. -/
def locks : ChannelCall → Bool
  | subscribe _ => true
  | unsubscribe _ => true
  | _ => false

/-- What the call makes of the subscribers that `update` has not come to, if it does not wait : a
new one is entered behind the others, but the end of the list stays the end. The iterator cannot
be used any more if its object is erased. -/
def overtake (c : Channel) (rest : List ℕ) : ChannelCall → Option (List ℕ)
  | subscribe object =>
    if object ∈ c.base.subscribers ∨ rest = [] then some rest else some (rest ++ [object])
  | unsubscribe object =>
    if rest.head? = some object then none else some (rest.filter (· ≠ object))
  | _ => some rest

end ChannelCall

/-- The steps of the thread, and those of others. -/
inductive PollThreadEvent
  | begin
  | look (io : DriverIO)
  | test
  | lock
  | notify
  | unlock
  | bind (call : BindCall)
  | call (data : ℕ) (call : ChannelCall)

/-- The flag taken down. -/
def UntypedData.settle (d : UntypedData) : UntypedData := { d with isChanged := false }

namespace PollThread

/-- A change of a channel object. -/
def modify (s : PollThread) (data : ℕ) (f : Channel → Channel) : PollThread :=
  { s with channels := Function.update s.channels data (f (s.channels data)) }

/-- `++it1`, from the entry of this name. -/
def after (s : PollThread) (fullName : Str) : PollPlace :=
  .of (Sweep.next s.manager.datas fullName)

/-- The channel that the thread is updating. -/
def updating (s : PollThread) : Option ℕ :=
  match s.place with
  | .at _ data (.notifying _) => some data
  | _ => none

/-- A call that takes the mutex of the channel that is updated. On Windows it waits. -/
def overtake (platform : Platform) (s : PollThread) (data : ℕ) (call : ChannelCall) :
    Option PollThread :=
  match platform, s.place with
  | .linux, .at fullName _ (.notifying rest) =>
    (call.overtake (s.channels data) rest).map fun rest =>
      { s.modify data fun c => call.apply c with place := .at fullName data (.notifying rest) }
  | _, _ => none

/-- One step; `none` where it is not the turn of the thread, where a call waits for the mutex, and
after undefined behaviour. -/
def step (platform : Platform) (classes : ClassList) (s : PollThread) :
    PollThreadEvent → Option PollThread
  | .begin =>
    match s.place with
    | .asleep =>
      some { s with place := .of (Sweep.first s.manager.datas), log := s.log ++ [.began] }
    | _ => none
  | .look io =>
    match s.place with
    | .at fullName data .look =>
      some { s.modify data fun c => (c.getValue io).2 with
        place := .at fullName data .test, log := s.log ++ [.looked fullName] }
    | _ => none
  | .test =>
    match s.place with
    | .at fullName data .test =>
      some { s with
        place := if (s.channels data).base.isChanged then .at fullName data .update
          else s.after fullName }
    | _ => none
  | .lock =>
    match s.place with
    | .at fullName data .update =>
      some { s with place := .at fullName data (.notifying (s.channels data).base.subscribers) }
    | _ => none
  | .notify =>
    match s.place with
    | .at fullName data (.notifying (subscriber :: rest)) =>
      some { s with
        place := .at fullName data (.notifying rest)
        log := s.log ++ [.told data subscriber (s.channels data).value] }
    | _ => none
  | .unlock =>
    match s.place with
    | .at fullName data (.notifying []) =>
      some { s.modify data (Channel.mapBase .settle) with place := s.after fullName }
    | _ => none
  | .bind call => (s.manager.bind classes call).map fun manager => { s with manager := manager }
  | .call data call =>
    if call.locks ∧ s.updating = some data then s.overtake platform data call
    else some (s.modify data fun c => call.apply c)

/-- What a step does, by the event and the place of the thread. -/
inductive Steps (platform : Platform) (classes : ClassList) (s : PollThread) :
    PollThreadEvent → PollThread → Prop
  | begin (hplace : s.place = .asleep) : Steps platform classes s .begin
    { s with place := .of (Sweep.first s.manager.datas), log := s.log ++ [.began] }
  | look (io : DriverIO) {fullName : Str} {data : ℕ} (hplace : s.place = .at fullName data .look) :
    Steps platform classes s (.look io) { s.modify data fun c => (c.getValue io).2 with
      place := .at fullName data .test, log := s.log ++ [.looked fullName] }
  | changed {fullName : Str} {data : ℕ} (hplace : s.place = .at fullName data .test)
    (hflag : (s.channels data).base.isChanged = true) :
    Steps platform classes s .test { s with place := .at fullName data .update }
  | unchanged {fullName : Str} {data : ℕ} (hplace : s.place = .at fullName data .test)
    (hflag : (s.channels data).base.isChanged = false) :
    Steps platform classes s .test { s with place := s.after fullName }
  | lock {fullName : Str} {data : ℕ} (hplace : s.place = .at fullName data .update) :
    Steps platform classes s .lock
      { s with place := .at fullName data (.notifying (s.channels data).base.subscribers) }
  | notify {fullName : Str} {data subscriber : ℕ} {rest : List ℕ}
    (hplace : s.place = .at fullName data (.notifying (subscriber :: rest))) :
    Steps platform classes s .notify { s with
      place := .at fullName data (.notifying rest)
      log := s.log ++ [.told data subscriber (s.channels data).value] }
  | unlock {fullName : Str} {data : ℕ} (hplace : s.place = .at fullName data (.notifying [])) :
    Steps platform classes s .unlock
      { s.modify data (Channel.mapBase .settle) with place := s.after fullName }
  | bind {call : BindCall} {manager : ObjectManager}
    (hbind : s.manager.bind classes call = some manager) :
    Steps platform classes s (.bind call) { s with manager := manager }
  | call (data : ℕ) {call : ChannelCall}
    (hfree : call.locks = true → s.updating ≠ some data) :
    Steps platform classes s (.call data call) (s.modify data fun c => call.apply c)
  | overtake {fullName : Str} {data : ℕ} {rest rest' : List ℕ} {call : ChannelCall}
    (hplatform : platform = .linux) (hlocks : call.locks = true)
    (hplace : s.place = .at fullName data (.notifying rest))
    (hrest : call.overtake (s.channels data) rest = some rest') :
    Steps platform classes s (.call data call)
      { s.modify data fun c => call.apply c with place := .at fullName data (.notifying rest') }

variable {platform : Platform} {classes : ClassList} {s s' : PollThread} {e : PollThreadEvent}

theorem step_spec (h : s.step platform classes e = some s') : s.Steps platform classes e s' := by
  cases e with
  | begin =>
    rw [step] at h
    split at h
    · next hplace => exact Option.some.inj h ▸ .begin hplace
    · cases h
  | look io =>
    rw [step] at h
    split at h
    · next hplace => exact Option.some.inj h ▸ .look io hplace
    · cases h
  | test =>
    rw [step] at h
    split at h
    · next fullName data hplace =>
      obtain rfl := Option.some.inj h
      cases hflag : (s.channels data).base.isChanged with
      | true =>
        rw [if_pos rfl]
        exact .changed hplace hflag
      | false =>
        rw [if_neg Bool.false_ne_true]
        exact .unchanged hplace hflag
    · cases h
  | lock =>
    rw [step] at h
    split at h
    · next hplace => exact Option.some.inj h ▸ .lock hplace
    · cases h
  | notify =>
    rw [step] at h
    split at h
    · next hplace => exact Option.some.inj h ▸ .notify hplace
    · cases h
  | unlock =>
    rw [step] at h
    split at h
    · next hplace => exact Option.some.inj h ▸ .unlock hplace
    · cases h
  | bind call =>
    obtain ⟨manager, hbind, rfl⟩ := Option.map_eq_some_iff.1 h
    exact .bind hbind
  | call data call =>
    rw [step] at h
    split_ifs at h with hlocks
    · unfold overtake at h
      split at h
      · next fullName data' rest hplace =>
        obtain ⟨rest', hrest, rfl⟩ := Option.map_eq_some_iff.1 h
        obtain ⟨hlock, hdata⟩ := hlocks
        rw [updating, hplace] at hdata
        obtain rfl := Option.some.inj hdata
        exact .overtake rfl hlock hplace hrest
      · cases h
    · exact Option.some.inj h ▸ .call data fun hlock hdata => hlocks ⟨hlock, hdata⟩

end PollThread

/-! ## What a pass goes over -/

/-- The names of the entries that were looked at. -/
def visits (log : List PollNote) : List Str :=
  log.filterMap fun
    | .looked fullName => some fullName
    | _ => none

/-- The place of the iterator. -/
def PollPlace.cursor : PollPlace → Cursor Str
  | .asleep => .ended
  | .at fullName _ .look => .before fullName
  | .at fullName _ _ => .after fullName

theorem PollPlace.cursor_of (entry : Option (Str × ℕ)) : (PollPlace.of entry).cursor =
    .at? entry := by
  cases entry <;> rfl

/-- The event is the begin of a pass. -/
def PollThreadEvent.isBegin : PollThreadEvent → Bool
  | begin => true
  | _ => false

namespace PollThread

variable {platform : Platform} {classes : ClassList} {s s' s₀ : PollThread} {e : PollThreadEvent}

/-- A registration keeps the entries. -/
theorem mem_datas_bind {m m' : ObjectManager} {call : BindCall}
    (h : m.bind classes call = some m') (fullName : Str) (hmem : fullName ∈ m.datas) :
    fullName ∈ m'.datas := by
  rcases ObjectManager.bind_cases h with ⟨-, hd⟩ | ⟨_, _, -, -, hd⟩ | ⟨_, _, -, -, hd⟩
  · rwa [hd]
  · rwa [hd]
  · rw [hd]
    exact Std.TreeMap.mem_insertIfNew.2 (Or.inr hmem)

/-- A pass that began in the map `old` when the log was `log`. -/
def Passing (old : Std.TreeMap Str ℕ) (log : List PollNote) (s : PollThread) : Prop :=
  ∃ notes, s.log = log ++ notes ∧ Swept old s.manager.datas (visits notes) s.place.cursor

theorem Passing.next {old : Std.TreeMap Str ℕ} {log : List PollNote} (h : s.Passing old log)
    (hbegin : e.isBegin = false) (hstep : s.step platform classes e = some s') :
    s'.Passing old log := by
  obtain ⟨notes, hlog, hswept⟩ := h
  cases step_spec hstep with
  | begin hplace => cases hbegin
  | look io hplace =>
    rw [hplace] at hswept
    refine ⟨notes ++ [.looked _], by rw [hlog, List.append_assoc], ?_⟩
    rw [visits, List.filterMap_append]
    exact hswept.handle
  | changed hplace hflag =>
    rw [hplace] at hswept
    exact ⟨notes, hlog, hswept⟩
  | unchanged hplace hflag =>
    rw [hplace] at hswept
    refine ⟨notes, hlog, ?_⟩
    rw [after, PollPlace.cursor_of]
    exact hswept.move
  | lock hplace =>
    rw [hplace] at hswept
    exact ⟨notes, hlog, hswept⟩
  | notify hplace =>
    rw [hplace] at hswept
    refine ⟨notes ++ [.told _ _ _], by rw [hlog, List.append_assoc], ?_⟩
    rw [visits, List.filterMap_append, List.filterMap_cons_none rfl, List.filterMap_nil,
      List.append_nil]
    exact hswept
  | unlock hplace =>
    rw [hplace] at hswept
    refine ⟨notes, hlog, ?_⟩
    rw [after, PollPlace.cursor_of]
    exact hswept.move
  | bind hbind => exact ⟨notes, hlog, hswept.insert (mem_datas_bind hbind)⟩
  | call data hfree => exact ⟨notes, hlog, hswept⟩
  | overtake hplatform hlocks hplace hrest =>
    rw [hplace] at hswept
    exact ⟨notes, hlog, hswept⟩

theorem Passing.run {old : Std.TreeMap Str ℕ} {log : List PollNote}
    {events : List PollThreadEvent} (h : s.Passing old log)
    (hbegin : ∀ e ∈ events, e.isBegin = false)
    (hrun : events.foldlM (step platform classes) s = some s') : s'.Passing old log := by
  induction events generalizing s with
  | nil => exact Option.some.inj hrun ▸ h
  | cons e events ih =>
    rw [List.foldlM_cons] at hrun
    obtain ⟨s₁, hstep, hrun⟩ := Option.bind_eq_some_iff.1 hrun
    exact ih (h.next (hbegin e List.mem_cons_self) hstep)
      (fun e he => hbegin e (List.mem_cons_of_mem _ he)) hrun

theorem passing_begin (s : PollThread) :
    ({ s with place := .of (Sweep.first s.manager.datas), log := s.log ++ [.began] } :
      PollThread).Passing s.manager.datas (s.log ++ [.began]) := by
  refine ⟨[], by rw [List.append_nil], ?_⟩
  rw [PollPlace.cursor_of]
  exact Swept.start

/-- What a pass goes over. In the order of the names it visits each entry that was there when the
pass began, once, and of those that are registered meanwhile it visits none twice; it visits no
others. -/
theorem visits_of_pass (platform : Platform) (classes : ClassList) (s s' : PollThread)
    (events : List PollThreadEvent)
    (hrun : (PollThreadEvent.begin :: events).foldlM (step platform classes) s = some s')
    (hbegin : ∀ e ∈ events, e.isBegin = false) (hends : s'.place = .asleep) :
    ∃ notes, s'.log = s.log ++ .began :: notes ∧
      (visits notes).Pairwise (fun a b => compare a b = .lt) ∧
      (∀ fullName ∈ s.manager.datas, fullName ∈ visits notes) ∧
      ∀ fullName ∈ visits notes, fullName ∈ s'.manager.datas := by
  rw [List.foldlM_cons] at hrun
  obtain ⟨s₁, hstep, hrun⟩ := Option.bind_eq_some_iff.1 hrun
  cases step_spec hstep with
  | begin =>
    obtain ⟨notes, hlog, hswept⟩ := Passing.run (passing_begin s) hbegin hrun
    rw [hends] at hswept
    refine ⟨notes, ?_, hswept.ordered, hswept.ended, hswept.present⟩
    rw [hlog, List.append_assoc]
    rfl

/-- A driver that reads 3. -/
def readsThree : DriverIO := PolledChannel.noDriver.readsInt (some 3)

/-- A program with one channel, which a driver reads. -/
def thread_a : PollThread where
  manager := { ObjectManager.new with datas := Std.TreeMap.insertIfNew ∅ ['/', 'a'] 0 }
  channels _ := .readOnlyInt { ReadOnlyInt.new 0 with driver := true, pfnRead := true }
  place := .asleep
  log := []

/-- A pass over the channel, while a second one is registered. -/
theorem visits_of_pass_a : ∃ (s' : PollThread) (notes : List PollNote),
    s'.log = thread_a.log ++ .began :: notes ∧ ['/', 'a'] ∈ visits notes ∧
      ['/', 'b'] ∈ s'.manager.datas ∧ visits s'.log = [['/', 'a'], ['/', 'b']] := by
  obtain ⟨notes, hlog, -, hall, -⟩ := visits_of_pass .linux [] thread_a _
    [.look readsThree, .bind (.register (.data (some 1) ['/', 'b'])), .test, .lock, .unlock,
      .look readsThree, .test, .lock, .unlock] rfl (by simp [PollThreadEvent.isBegin]) rfl
  exact ⟨_, notes, hlog, hall ['/', 'a'] (by decide), by decide, rfl⟩

end PollThread

/-! ## Whom an update tells -/

namespace Channel

theorem subscribers_getValue (io : DriverIO) (c : Channel) :
    (c.getValue io).2.base.subscribers = c.base.subscribers := by
  cases c with
  | readOnlyInt d => exact (readTo_readOnlyInt io d).subscribers
  | readOnlyDouble d => exact (readTo_readOnlyDouble io d).subscribers
  | readOnlyString d => exact (readTo_readOnlyString io d).subscribers
  | readWriteInt d =>
    change (d.getValue io).2.subscribers = d.subscribers
    unfold ReadWriteInt.getValue
    split_ifs
    · cases io.readInt d.channelNumber with
      | none => rfl
      | some value =>
        simp only
        split_ifs <;> rfl
    all_goals rfl
  | readWriteDouble d => rfl
  | readWriteString d =>
    change (d.getValue io).2.subscribers = d.subscribers
    unfold ReadWriteString.getValue
    split_ifs
    · cases io.readString d.channelNumber <;> rfl
    all_goals rfl

theorem subscribers_setValue (io : DriverIO) (c : Channel) (value : Datum) :
    (c.setValue io value).base.subscribers = c.base.subscribers := by
  cases c with
  | readWriteInt d =>
    cases value with
    | int v =>
      change (d.setValue io v).subscribers = d.subscribers
      unfold ReadWriteInt.setValue
      split_ifs <;> rfl
    | _ => rfl
  | readWriteDouble d =>
    cases value with
    | double v =>
      change (d.setValue io v).subscribers = d.subscribers
      unfold ReadWriteDouble.setValue
      split_ifs <;> rfl
    | _ => rfl
  | readWriteString d =>
    cases value with
    | string v =>
      change (d.setValue io v).subscribers = d.subscribers
      unfold ReadWriteString.setValue
      split_ifs <;> rfl
    | _ => rfl
  | _ => rfl

theorem subscribers_setSimulatedValue {c c' : Channel} {value : Datum}
    (h : c.setSimulatedValue value = some c') : c'.base.subscribers = c.base.subscribers := by
  cases c with
  | readOnlyInt d =>
    cases value with
    | int v =>
      obtain ⟨d', hd, rfl⟩ := Option.map_eq_some_iff.1 h
      unfold ReadOnlyInt.setSimulatedValue at hd
      split_ifs at hd
      exact Option.some.inj hd ▸ rfl
    | _ => cases h
  | readOnlyDouble d =>
    cases value with
    | double v =>
      obtain ⟨d', hd, rfl⟩ := Option.map_eq_some_iff.1 h
      unfold ReadOnlyDouble.setSimulatedValue at hd
      split_ifs at hd
      exact Option.some.inj hd ▸ rfl
    | _ => cases h
  | readOnlyString d =>
    cases value with
    | string v =>
      obtain ⟨d', hd, rfl⟩ := Option.map_eq_some_iff.1 h
      unfold ReadOnlyString.setSimulatedValue at hd
      split_ifs at hd
      exact Option.some.inj hd ▸ rfl
    | _ => cases h
  | _ => cases h

end Channel

theorem UntypedData.subscribers_registChannel (dataType : DataType) (accessMode : AccessMode)
    (d : UntypedData) : (d.registChannel dataType accessMode).subscribers = d.subscribers := by
  cases dataType <;> cases accessMode <;> rfl

/-- A call that takes no mutex keeps the subscribers. -/
theorem ChannelCall.subscribers_apply {call : ChannelCall} (h : call.locks = false) (c : Channel) :
    (call.apply c).base.subscribers = c.base.subscribers := by
  cases call with
  | setValue io value => exact c.subscribers_setValue io value
  | getValue io => exact c.subscribers_getValue io
  | setSimulated simulated => rw [apply, Channel.base_mapBase]
  | setSimulatedValue value =>
    rw [apply]
    cases hset : c.setSimulatedValue value with
    | none => rfl
    | some c' => exact Channel.subscribers_setSimulatedValue hset
  | subscribe object => cases h
  | unsubscribe object => cases h
  | registChannel =>
    rw [apply, Channel.base_mapBase]
    exact UntypedData.subscribers_registChannel _ _ _

namespace PollThread

variable {platform : Platform} {classes : ClassList} {s s' s₀ : PollThread}
  {e : PollThreadEvent} {data : ℕ} {events : List PollThreadEvent}

/-- The object has subscribed the channel, and not unsubscribed it since. -/
def Subscribed (data object : ℕ) (events : List PollThreadEvent) : Prop :=
  Since (fun _ e => e = .call data (.subscribe object))
    (fun _ e => e = .call data (.unsubscribe object)) events

/-- The event takes the mutex of the channel for a subscription. -/
def Subscribes (data : ℕ) (e : PollThreadEvent) : Prop :=
  ∃ call, e = .call data call ∧ call.locks = true

@[simp] theorem channels_modify_self (s : PollThread) (data : ℕ) (f : Channel → Channel) :
    (s.modify data f).channels data = f (s.channels data) :=
  Function.update_self ..

theorem channels_modify_of_ne (s : PollThread) {data data' : ℕ} (h : data' ≠ data)
    (f : Channel → Channel) : (s.modify data f).channels data' = s.channels data' :=
  Function.update_of_ne h ..

theorem subscribers_modify (s : PollThread) (data : ℕ) {f : Channel → Channel}
    (hf : ∀ c : Channel, (f c).base.subscribers = c.base.subscribers) (data' : ℕ) :
    ((s.modify data f).channels data').base.subscribers =
      (s.channels data').base.subscribers := by
  by_cases hdata : data' = data
  · subst hdata
    rw [channels_modify_self, hf]
  · rw [channels_modify_of_ne s hdata]

/-- On Linux, the event is no subscription of the channel while it is updated. -/
def Apart (platform : Platform) (data : ℕ) (s : PollThread) (e : PollThreadEvent) : Prop :=
  platform = .linux → s.updating = some data → ¬Subscribes data e

theorem updating_of_place {fullName : Str} {rest : List ℕ}
    (h : s.place = .at fullName data (.notifying rest)) : s.updating = some data := by
  rw [updating, h]

/-- A call does what it does with the channel, whether it waits or not. -/
theorem channels_call {call : ChannelCall}
    (h : s.step platform classes (.call data call) = some s') :
    s'.channels data = call.apply (s.channels data) := by
  cases step_spec h with
  | call data hfree => exact s.channels_modify_self data _
  | overtake hplatform hlocks hplace hrest =>
    exact s.channels_modify_self data fun c => call.apply c

/-- The subscribers of a channel are changed by subscriptions only. -/
theorem subscribers_step (h : s.step platform classes e = some s') (hnot : ¬Subscribes data e) :
    (s'.channels data).base.subscribers = (s.channels data).base.subscribers := by
  cases step_spec h with
  | look io hplace => exact s.subscribers_modify _ (Channel.subscribers_getValue io) data
  | unlock hplace =>
    exact s.subscribers_modify _ (fun c => by rw [Channel.base_mapBase]; rfl) data
  | @call data' call hfree =>
    by_cases hdata : data = data'
    · subst hdata
      rw [channels_modify_self]
      refine ChannelCall.subscribers_apply ?_ _
      by_contra hlocks
      exact hnot ⟨call, rfl, by simpa using hlocks⟩
    · rw [channels_modify_of_ne s hdata]
  | @overtake _ data' _ _ call hplatform hlocks hplace hrest =>
    have hdata : data ≠ data' := by
      rintro rfl
      exact hnot ⟨call, rfl, hlocks⟩
    exact congrArg (·.base.subscribers) (channels_modify_of_ne s hdata fun c => call.apply c)
  | _ => rfl

/-- The notes of an update. -/
def tellings (data : ℕ) (told : List (ℕ × Datum)) : List PollNote :=
  told.map fun p => .told data p.1 p.2

/-- The list of subscribers is that of the history, and the last notes are those of the update that
the thread is in. -/
structure Lists (data : ℕ) (events : List PollThreadEvent) (s : PollThread) : Prop where
  nodup : (s.channels data).base.subscribers.Nodup
  recorded : ∀ object,
    object ∈ (s.channels data).base.subscribers ↔ Subscribed data object events
  telling : ∀ fullName rest, s.place = .at fullName data (.notifying rest) →
    ∃ log told, s.log = log ++ tellings data told ∧
      told.map Prod.fst ++ rest = (s.channels data).base.subscribers

/-- A program that has just begun : the thread has not, and nobody has subscribed anything. -/
structure Starts (s : PollThread) : Prop where
  place : s.place = .asleep
  log : s.log = []
  subscribers : ∀ data, (s.channels data).base.subscribers = []

theorem subscribed_snoc {object : ℕ} : Subscribed data object (events ++ [e]) ↔
    e = .call data (.subscribe object) ∨
      (Subscribed data object events ∧ e ≠ .call data (.unsubscribe object)) :=
  since_snoc

theorem Lists.nodup_step (h : s.Lists data events) (hstep : s.step platform classes e = some s') :
    (s'.channels data).base.subscribers.Nodup := by
  by_cases hsub : Subscribes data e
  · obtain ⟨call, rfl, hlocks⟩ := hsub
    rw [channels_call hstep]
    cases call with
    | subscribe object =>
      rw [ChannelCall.apply, Channel.base_mapBase, UntypedData.subscribe]
      split_ifs with hmem
      · exact h.nodup
      · exact h.nodup.append (List.nodup_singleton _) (List.disjoint_singleton.2 hmem)
    | unsubscribe object =>
      rw [ChannelCall.apply, Channel.base_mapBase]
      exact h.nodup.filter _
    | _ => cases hlocks
  · rw [subscribers_step hstep hsub]
    exact h.nodup

theorem Lists.recorded_step (h : s.Lists data events) (hstep : s.step platform classes e = some s')
    (object : ℕ) : object ∈ (s'.channels data).base.subscribers ↔
      Subscribed data object (events ++ [e]) := by
  rw [subscribed_snoc, ← h.recorded]
  by_cases hsub : Subscribes data e
  · obtain ⟨call, rfl, hlocks⟩ := hsub
    rw [channels_call hstep]
    cases call with
    | subscribe object' =>
      rw [ChannelCall.apply, Channel.base_mapBase, UntypedData.subscribe]
      split_ifs with hmem
      · by_cases hobject : object' = object
        · subst hobject
          simp [hmem]
        · simp [hobject]
      · simp only [List.mem_append, List.mem_singleton]
        by_cases hobject : object' = object
        · simp [hobject]
        · simp [hobject, Ne.symm hobject]
    | unsubscribe object' =>
      rw [ChannelCall.apply, Channel.base_mapBase, UntypedData.unsubscribe]
      by_cases hobject : object' = object
      · simp [hobject]
      · simp [hobject, Ne.symm hobject]
    | _ => cases hlocks
  · rw [subscribers_step hstep hsub]
    have hsubscribe : e ≠ .call data (.subscribe object) :=
      fun heq => hsub ⟨_, heq, rfl⟩
    have hunsubscribe : e ≠ .call data (.unsubscribe object) :=
      fun heq => hsub ⟨_, heq, rfl⟩
    simp [hsubscribe, hunsubscribe]

theorem not_notifying_of {entry : Option (Str × ℕ)} {fullName : Str} {rest : List ℕ} :
    PollPlace.of entry ≠ .at fullName data (.notifying rest) := by
  intro h
  cases entry with
  | none => cases h
  | some entry => cases h

/-- Who is told, one after the other. -/
theorem Lists.telling_step (h : s.Lists data events) (hapart : Apart platform data s e)
    (hstep : s.step platform classes e = some s') {fullName : Str} {rest : List ℕ}
    (hplace' : s'.place = .at fullName data (.notifying rest)) :
    ∃ log told, s'.log = log ++ tellings data told ∧
      told.map Prod.fst ++ rest = (s'.channels data).base.subscribers := by
  cases step_spec hstep with
  | begin hplace => exact absurd hplace' not_notifying_of
  | look io hplace => cases hplace'
  | changed hplace hflag => cases hplace'
  | unchanged hplace hflag => exact absurd hplace' not_notifying_of
  | lock hplace =>
    cases hplace'
    exact ⟨s.log, [], by rw [tellings, List.map_nil, List.append_nil], rfl⟩
  | @notify _ _ subscriber _ hplace =>
    cases hplace'
    obtain ⟨log, told, hlog, htold⟩ := h.telling _ _ hplace
    refine ⟨log, told ++ [(subscriber, (s.channels data).value)], ?_, ?_⟩
    · rw [tellings, List.map_append, hlog, List.append_assoc]
      rfl
    · rw [← htold, List.map_append, List.append_assoc]
      rfl
  | unlock hplace => exact absurd hplace' not_notifying_of
  | bind hbind => exact h.telling _ _ hplace'
  | overtake hplatform hlocks hplace hrest =>
    cases hplace'
    exact absurd ⟨_, rfl, hlocks⟩ (hapart hplatform (updating_of_place hplace))
  | @call data' call hfree =>
    obtain ⟨log, told, hlog, htold⟩ := h.telling _ _ hplace'
    refine ⟨log, told, hlog, htold.trans (subscribers_step hstep ?_).symm⟩
    -- a subscription waits for the end of the update
    rintro ⟨call', heq, hlocks⟩
    obtain ⟨rfl, rfl⟩ := PollThreadEvent.call.inj heq
    refine hfree hlocks ?_
    have hplace : s.place = .at fullName data' (.notifying rest) := hplace'
    rw [updating, hplace]

theorem Lists.step (h : s.Lists data events) (hapart : Apart platform data s e)
    (hstep : s.step platform classes e = some s') : s'.Lists data (events ++ [e]) :=
  ⟨h.nodup_step hstep, h.recorded_step hstep, fun _ _ => h.telling_step hapart hstep⟩

theorem lists_of_run (hstart : s₀.Starts)
    (hapart : Throughout (fun pre e => ∀ s, pre.foldlM (step platform classes) s₀ = some s →
      Apart platform data s e) events)
    (hrun : events.foldlM (step platform classes) s₀ = some s) : s.Lists data events := by
  induction events using List.reverseRecOn generalizing s with
  | nil =>
    obtain rfl := Option.some.inj hrun
    refine ⟨?_, fun object => ?_, fun fullName rest hplace => ?_⟩
    · rw [hstart.subscribers]
      exact List.nodup_nil
    · rw [hstart.subscribers]
      exact iff_of_false List.not_mem_nil not_since_nil
    · rw [hstart.place] at hplace
      cases hplace
  | append_singleton events e ih =>
    obtain ⟨s₁, hrun, hstep⟩ := foldlM_snoc_eq_some.1 hrun
    obtain ⟨hevents, he⟩ := throughout_snoc.1 hapart
    exact (ih hevents hrun).step (he s₁ hrun) hstep

/-- Whom an update tells. Nobody is told of a channel but those who have subscribed it and not
unsubscribed it since; and an update that has come to its end has told each of them once. -/
theorem tells_of_run (platform : Platform) (classes : ClassList) (data : ℕ) (s₀ s : PollThread)
    (events : List PollThreadEvent) (hstart : s₀.Starts)
    (hapart : Throughout (fun pre e => ∀ s,
      pre.foldlM (PollThread.step platform classes) s₀ = some s → Apart platform data s e) events)
    (hrun : events.foldlM (PollThread.step platform classes) s₀ = some s) :
    (∀ fullName object rest, s.place = .at fullName data (.notifying (object :: rest)) →
      Subscribed data object events) ∧
    ∀ fullName, s.place = .at fullName data (.notifying []) →
      ∃ log told, s.log = log ++ tellings data told ∧ (told.map Prod.fst).Nodup ∧
        ∀ object, object ∈ told.map Prod.fst ↔ Subscribed data object events := by
  have hlists := lists_of_run hstart hapart hrun
  constructor
  · intro fullName object rest hplace
    obtain ⟨log, told, -, htold⟩ := hlists.telling _ _ hplace
    rw [← hlists.recorded, ← htold]
    exact List.mem_append_right _ List.mem_cons_self
  · intro fullName hplace
    obtain ⟨log, told, hlog, htold⟩ := hlists.telling _ _ hplace
    rw [List.append_nil] at htold
    refine ⟨log, told, hlog, ?_, fun object => ?_⟩
    · rw [htold]
      exact hlists.nodup
    · rw [htold]
      exact hlists.recorded object

/-- On Windows a subscription waits. -/
theorem apart_windows (data : ℕ) (s : PollThread) (e : PollThreadEvent) :
    Apart .windows data s e := nofun

/-- One has subscribed the channel, another one has and then has not, and the channel is updated. -/
def events_a : List PollThreadEvent :=
  [.call 0 (.subscribe 7), .call 0 (.subscribe 8), .call 0 (.unsubscribe 7), .begin,
    .look readsThree, .test, .lock, .notify]

theorem starts_a : thread_a.Starts :=
  ⟨rfl, rfl, fun _ => rfl⟩

/-- One of them is told. -/
theorem tells_of_run_a : ∃ s log told,
    events_a.foldlM (PollThread.step .windows []) thread_a = some s ∧
      s.log = log ++ tellings 0 told ∧
      ∀ object, object ∈ told.map Prod.fst ↔ Subscribed 0 object events_a := by
  obtain ⟨-, hends⟩ := tells_of_run .windows [] 0 thread_a _ events_a starts_a
    (fun _ _ _ _ _ => apart_windows _ _ _) rfl
  obtain ⟨log, told, hlog, -, htold⟩ := hends ['/', 'a'] rfl
  exact ⟨_, log, told, rfl, hlog, htold⟩

end PollThread

/-! ## What they have been told -/

namespace Channel

/-- `getValue` raises the flag if it changes the value. A driver's reading for a `ReadWriteInt` is
its value or differs from the old value, and one for a `ReadWriteString` is its value. -/
def Notices (io : DriverIO) : Channel → Prop
  | readWriteInt d => d.isChanged = false → d.pfnRead ∧ d.driver →
      ∀ value, io.readInt d.channelNumber = some value → value = d.value ∨ value ≠ d.oldValue
  | readWriteString d => d.isChanged = false → d.pfnRead ∧ d.driver →
      ∀ value, io.readString d.channelNumber = some value → value = d.value
  | _ => True

theorem Notices.readTo {io : DriverIO} {c : Channel} (h : c.Notices io) :
    c.ReadTo (c.getValue io).2 := by
  cases c with
  | readOnlyInt d => exact readTo_readOnlyInt io d
  | readOnlyDouble d => exact readTo_readOnlyDouble io d
  | readOnlyString d => exact readTo_readOnlyString io d
  | readWriteInt d => exact readTo_readWriteInt h
  | readWriteDouble d => exact .refl _
  | readWriteString d => exact readTo_readWriteString h

/-- Other members of the base class are set. -/
theorem readTo_mapBase {f : UntypedData → UntypedData}
    (hsubscribers : ∀ d, (f d).subscribers = d.subscribers)
    (hflag : ∀ d, (f d).isChanged = d.isChanged) (c : Channel) : c.ReadTo (c.mapBase f) := by
  refine ⟨?_, fun h => ?_, Or.inr (shows_mapBase f c)⟩
  · rw [base_mapBase, hsubscribers]
  · rw [base_mapBase, hflag]
    exact h

end Channel

theorem UntypedData.isChanged_registChannel (dataType : DataType) (accessMode : AccessMode)
    (d : UntypedData) : (d.registChannel dataType accessMode).isChanged = d.isChanged := by
  cases dataType <;> cases accessMode <;> rfl

/-- The value that the object was told last of the channel. -/
def lastTold (data object : ℕ) (log : List PollNote) : Option Datum :=
  (log.filterMap fun
    | .told data' object' value => if data' = data ∧ object' = object then some value else none
    | _ => none).getLast?

theorem lastTold_began (data object : ℕ) (log : List PollNote) :
    lastTold data object (log ++ [.began]) = lastTold data object log := by
  simp [lastTold]

theorem lastTold_looked (data object : ℕ) (log : List PollNote) (fullName : Str) :
    lastTold data object (log ++ [.looked fullName]) = lastTold data object log := by
  simp [lastTold]

theorem lastTold_told (data object : ℕ) (log : List PollNote) (value : Datum) :
    lastTold data object (log ++ [.told data object value]) = some value := by
  simp [lastTold]

theorem lastTold_other {data object data' object' : ℕ} (h : ¬(data' = data ∧ object' = object))
    (log : List PollNote) (value : Datum) :
    lastTold data object (log ++ [.told data' object' value]) = lastTold data object log := by
  simp [lastTold, h]

namespace PollThread

variable {platform : Platform} {classes : ClassList} {s s' s₀ : PollThread}
  {e : PollThreadEvent} {data : ℕ}

/-- The channel is not written, no other thread calls `getValue` while it is updated, and
`getValue` notices each change. -/
def Keeps (data : ℕ) (s : PollThread) : PollThreadEvent → Prop
  | .look io => ∀ fullName, s.place = .at fullName data .look → (s.channels data).Notices io
  | .call data' (.getValue io) =>
    data' = data → s.updating ≠ some data ∧ (s.channels data).Notices io
  | .call data' (.setValue _ _) => data' ≠ data
  | .call data' (.setSimulatedValue _) => data' ≠ data
  | _ => True

/-- The subscribers have been told the value. While they are being told, those that are not left
have been. -/
structure Knows (data : ℕ) (s : PollThread) : Prop where
  settled : s.updating ≠ some data → (s.channels data).base.isChanged = false →
    ∀ object ∈ (s.channels data).base.subscribers,
      lastTold data object s.log = some (s.channels data).value
  telling : ∀ fullName rest, s.place = .at fullName data (.notifying rest) →
    ∀ object ∈ (s.channels data).base.subscribers, object ∉ rest →
      lastTold data object s.log = some (s.channels data).value

theorem updating_of {entry : Option (Str × ℕ)} (h : s.place = .of entry) : s.updating = none := by
  rw [updating, h]
  cases entry <;> rfl

/-- The flag is up, or value and subscribers are the same. -/
theorem Knows.settled_of_readTo (h : s.Knows data) (hfree : s.updating ≠ some data)
    {c : Channel} (hread : (s.channels data).ReadTo c) (hflag : c.base.isChanged = false)
    (object : ℕ) (hobject : object ∈ c.base.subscribers) :
    lastTold data object s.log = some c.value := by
  have hshows := hread.shows.resolve_left (by rw [hflag]; exact Bool.false_ne_true)
  have hflag' : (s.channels data).base.isChanged = false := by
    by_contra hup
    have := hread.isChanged (by simpa using hup)
    rw [hflag] at this
    exact Bool.false_ne_true this
  rw [hshows.value]
  exact h.settled hfree hflag' object (hread.subscribers ▸ hobject)

/-- A call by another thread. -/
theorem Knows.call (h : s.Knows data) {call : ChannelCall} {data' : ℕ}
    (hguard : Keeps data s (.call data' call))
    (hfree : call.locks = true → s.updating ≠ some data') :
    (s.modify data' fun c => call.apply c).Knows data := by
  by_cases hdata : data = data'
  · subst hdata
    have hplace : (s.modify data fun c => call.apply c).place = s.place := rfl
    have hlog : (s.modify data fun c => call.apply c).log = s.log := rfl
    constructor
    · rw [channels_modify_self, hlog]
      intro hupdating hflag object hobject
      have hread : s.updating ≠ some data →
          (s.channels data).ReadTo (call.apply (s.channels data)) →
          lastTold data object s.log = some (call.apply (s.channels data)).value :=
        fun hfree hread => h.settled_of_readTo hfree hread hflag object hobject
      cases call with
      | setValue io value => exact absurd rfl hguard
      | getValue io =>
        obtain ⟨hfree, hnotices⟩ := hguard rfl
        exact hread hfree hnotices.readTo
      | setSimulated simulated =>
        exact hread hupdating (@Channel.readTo_mapBase
          (fun d => { d with simulated := simulated }) (fun _ => rfl) (fun _ => rfl) _)
      | setSimulatedValue value => exact absurd rfl hguard
      | subscribe object' =>
        -- the flag is up
        rw [ChannelCall.apply, Channel.base_mapBase, UntypedData.isChanged_subscribe] at hflag
        cases hflag
      | unsubscribe object' =>
        rw [ChannelCall.apply, Channel.base_mapBase] at hflag hobject
        rw [ChannelCall.apply, (Channel.shows_mapBase _ _).value]
        exact h.settled hupdating hflag object (List.mem_of_mem_filter hobject)
      | registChannel =>
        exact hread hupdating (Channel.readTo_mapBase
          (UntypedData.subscribers_registChannel _ _)
          (UntypedData.isChanged_registChannel _ _) _)
    · rw [hplace, channels_modify_self, hlog]
      intro fullName rest hnotifying object hobject hrest
      have hupdating := updating_of_place hnotifying
      have htold := h.telling fullName rest hnotifying object
      cases call with
      | setValue io value => exact absurd rfl hguard
      | getValue io => exact absurd hupdating (hguard rfl).1
      | setSimulated simulated =>
        rw [ChannelCall.apply, Channel.base_mapBase] at hobject
        rw [ChannelCall.apply, (Channel.shows_mapBase _ _).value]
        exact htold hobject hrest
      | setSimulatedValue value => exact absurd rfl hguard
      | subscribe object' => exact absurd hupdating (hfree rfl)
      | unsubscribe object' => exact absurd hupdating (hfree rfl)
      | registChannel =>
        rw [ChannelCall.apply, Channel.base_mapBase,
          UntypedData.subscribers_registChannel] at hobject
        rw [ChannelCall.apply, (Channel.shows_mapBase _ _).value]
        exact htold hobject hrest
  · have hsame := channels_modify_of_ne s hdata fun c => call.apply c
    constructor
    · rw [hsame]
      exact h.settled
    · rw [hsame]
      exact h.telling

/-- The channel and what was told of it are as they were. -/
theorem Knows.congr (h : s.Knows data) (hchannel : s'.channels data = s.channels data)
    (hlog : ∀ object, lastTold data object s'.log = lastTold data object s.log)
    (hfree : s.updating ≠ some data) (hfree' : s'.updating ≠ some data) : s'.Knows data := by
  constructor
  · intro _ hflag object hobject
    rw [hchannel] at hflag hobject ⊢
    rw [hlog]
    exact h.settled hfree hflag object hobject
  · intro fullName rest hplace
    exact absurd (updating_of_place hplace) hfree'

/-- A thread that has come to an entry, or to the end, updates nothing. -/
theorem updating_ne_of_next {entry : Option (Str × ℕ)} (hplace : s.place = .of entry) :
    s.updating ≠ some data := by
  rw [updating_of hplace]
  exact fun heq => by cases heq

/-- A thread at a channel updates no other one, and that one only while it notifies. -/
theorem updating_ne_of_at {fullName : Str} {data' : ℕ} {stage : PollStage}
    (hplace : s.place = .at fullName data' stage)
    (hne : ∀ rest, stage = .notifying rest → data' ≠ data) : s.updating ≠ some data := by
  rw [updating, hplace]
  cases stage with
  | notifying rest => exact fun heq => hne rest rfl (Option.some.inj heq)
  | _ => exact fun heq => by cases heq

/-- What a step keeps. -/
theorem Knows.step (h : s.Knows data) (hguard : s.Keeps data e) (hapart : Apart platform data s e)
    (hstep : s.step platform classes e = some s') : s'.Knows data := by
  cases step_spec hstep with
  | begin hplace =>
    refine h.congr rfl (fun object => lastTold_began data object s.log) ?_ (updating_ne_of_next rfl)
    rw [updating, hplace]
    exact fun heq => by cases heq
  | @look io fullName data' hplace =>
    have hfree : s.updating ≠ some data := updating_ne_of_at hplace fun _ heq => by cases heq
    by_cases hdata : data = data'
    · subst hdata
      constructor
      · intro _ hflag object hobject
        simp only [channels_modify_self] at hflag hobject ⊢
        rw [lastTold_looked]
        exact h.settled_of_readTo hfree (hguard fullName hplace).readTo hflag object hobject
      · intro fullName' rest hplace'
        cases hplace'
    · exact h.congr (channels_modify_of_ne s hdata fun c => (c.getValue io).2)
        (fun object => lastTold_looked data object s.log fullName) hfree
        (updating_ne_of_at rfl fun _ heq => by cases heq)
  | changed hplace hflag =>
    exact h.congr rfl (fun _ => rfl) (updating_ne_of_at hplace fun _ heq => by cases heq)
      (updating_ne_of_at rfl fun _ heq => by cases heq)
  | unchanged hplace hflag =>
    exact h.congr rfl (fun _ => rfl) (updating_ne_of_at hplace fun _ heq => by cases heq)
      (updating_ne_of_next rfl)
  | @lock fullName data' hplace =>
    by_cases hdata : data' = data
    · subst hdata
      constructor
      · intro hfree
        exact absurd (updating_of_place rfl) hfree
      · intro fullName' rest hplace' object hobject hrest
        cases hplace'
        exact absurd hobject hrest
    · exact h.congr rfl (fun _ => rfl) (updating_ne_of_at hplace fun _ heq => by cases heq)
        (updating_ne_of_at rfl fun _ _ => hdata)
  | @notify fullName data' subscriber rest hplace =>
    by_cases hdata : data' = data
    · subst hdata
      constructor
      · intro hfree
        exact absurd (updating_of_place rfl) hfree
      · intro fullName' rest' hplace' object hobject hrest
        cases hplace'
        by_cases hsubscriber : subscriber = object
        · subst hsubscriber
          exact lastTold_told _ _ _ _
        · rw [lastTold_other fun hboth => hsubscriber hboth.2]
          refine h.telling _ _ hplace object hobject fun hmem => ?_
          exact (List.mem_cons.1 hmem).elim (fun heq => hsubscriber heq.symm) hrest
    · refine h.congr rfl (fun object => lastTold_other (fun hboth => hdata hboth.1) _ _)
        (updating_ne_of_at hplace fun _ _ => hdata) (updating_ne_of_at rfl fun _ _ => hdata)
  | @unlock fullName data' hplace =>
    by_cases hdata : data = data'
    · subst hdata
      constructor
      · intro _ _ object hobject
        simp only [channels_modify_self, Channel.base_mapBase] at hobject ⊢
        rw [(Channel.shows_mapBase _ _).value]
        exact h.telling _ _ hplace object hobject List.not_mem_nil
      · intro fullName' rest hplace'
        exact absurd hplace' not_notifying_of
    · exact h.congr (channels_modify_of_ne s hdata _) (fun _ => rfl)
        (updating_ne_of_at hplace fun _ _ heq => hdata heq.symm) (updating_ne_of_next rfl)
  | bind hbind => exact ⟨h.settled, h.telling⟩
  | call data' hfree => exact h.call hguard hfree
  | @overtake fullName data' _ _ call hplatform hlocks hplace hrest =>
    have hdata : data' ≠ data := by
      rintro rfl
      exact hapart hplatform (updating_of_place hplace) ⟨call, rfl, hlocks⟩
    exact h.congr (channels_modify_of_ne s (Ne.symm hdata) fun c => call.apply c) (fun _ => rfl)
      (updating_ne_of_at hplace fun _ _ => hdata) (updating_ne_of_at rfl fun _ _ => hdata)

theorem knows_of_reach
    (h : Reach (step platform classes) Starts
      (fun s e => s.Keeps data e ∧ Apart platform data s e) s) : s.Knows data := by
  refine h.invariant (fun s hs => ⟨fun _ _ object hobject => ?_, fun _ rest hplace => ?_⟩)
    fun s e s' hs hguard hstep => hs.step hguard.1 hguard.2 hstep
  · rw [hs.subscribers] at hobject
    exact absurd hobject List.not_mem_nil
  · rw [hs.place] at hplace
    cases hplace

/-- What the subscribers know. Of a channel that is not written, and whose changes `getValue`
notices, each subscriber has been told the value whenever `isChanged` is down and no update is
under way. -/
theorem knows_of_run (platform : Platform) (classes : ClassList) (data : ℕ) (s : PollThread)
    (h : Reach (PollThread.step platform classes) Starts
      (fun s e => s.Keeps data e ∧ Apart platform data s e) s)
    (hfree : s.updating ≠ some data) (hflag : (s.channels data).base.isChanged = false)
    (object : ℕ) (hobject : object ∈ (s.channels data).base.subscribers) :
    lastTold data object s.log = some (s.channels data).value :=
  (knows_of_reach h).settled hfree hflag object hobject

/-- The one that has subscribed the channel knows its value after the update. -/
theorem knows_of_run_a : ∃ s : PollThread, 8 ∈ (s.channels 0).base.subscribers ∧
    lastTold 0 8 s.log = some (s.channels 0).value := by
  have hapart := fun (s : PollThread) e => apart_windows 0 s e
  have h₀ : Reach (PollThread.step .windows []) Starts
      (fun s e => s.Keeps 0 e ∧ Apart .windows 0 s e) thread_a := .start starts_a
  have h₁ := h₀.next (e := PollThreadEvent.call 0 (.subscribe 8)) ⟨trivial, hapart _ _⟩ rfl
  have h₂ := h₁.next (e := PollThreadEvent.begin) ⟨trivial, hapart _ _⟩ rfl
  have h₃ := h₂.next (e := PollThreadEvent.look readsThree)
    ⟨fun _ _ => trivial, hapart _ _⟩ rfl
  have h₄ := h₃.next (e := PollThreadEvent.test) ⟨trivial, hapart _ _⟩ rfl
  have h₅ := h₄.next (e := PollThreadEvent.lock) ⟨trivial, hapart _ _⟩ rfl
  have h₆ := h₅.next (e := PollThreadEvent.notify) ⟨trivial, hapart _ _⟩ rfl
  have h₇ := h₆.next (e := PollThreadEvent.unlock) ⟨trivial, hapart _ _⟩ rfl
  exact ⟨_, List.mem_singleton_self 8, knows_of_run .windows [] 0 _ h₇ (fun heq => by cases heq)
    rfl 8 (List.mem_singleton_self 8)⟩

/-- On Linux, one that subscribes the channel at the end of an update is not told its value, and the
flag is down. -/
example : ∃ s, [PollThreadEvent.begin, .look readsThree, .test, .lock, .call 0 (.subscribe 8),
      .unlock].foldlM (PollThread.step .linux []) thread_a = some s ∧
    (s.channels 0).base.subscribers = [8] ∧ (s.channels 0).base.isChanged = false ∧
      lastTold 0 8 s.log = none :=
  ⟨_, rfl, rfl, rfl, rfl⟩

end PollThread

end Ick
