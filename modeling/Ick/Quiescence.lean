import Ick.PollThread

/-!
# Quiescence

The poll thread is left alone : no other thread registers or calls a channel, and the driver of
each channel answers the same again and again. A visit then makes a channel calm, so that further
visits find nothing new and change nothing, but for a `ReadWriteInt` with a driver : it compares a
reading with the value before the last one, and finds it new twice. Two visits are enough for every
channel (`calm_visited_visited`).

So after two passes the thread notifies nobody and changes no channel (`silent_of_quiet`), and the
subscribers of a read-only channel then know what `getValue` returns (`upToDate_of_quiet`).
-/

namespace Ick

/-! ## Calm channels -/

namespace Channel

/-- What a visit of the thread leaves of a channel, when no other thread calls it. -/
def visited (io : DriverIO) (c : Channel) : Channel := (c.getValue io).2.mapBase .settle

/-- A visit finds nothing new. -/
structure Calm (io : DriverIO) (c : Channel) : Prop where
  flag : c.base.isChanged = false
  same : (c.getValue io).2 = c

/-- Between a double and itself there is no difference that counts. -/
def Steady : Channel → Prop
  | readOnlyDouble d => ∀ v : Float, ¬(v - v).abs ≥ d.accuracy
  | _ => True

variable {io : DriverIO} {c : Channel}

theorem mapBase_settle (h : c.base.isChanged = false) : c.mapBase .settle = c := by
  have hsettle : ∀ d : UntypedData, d.isChanged = false → d.settle = d := by
    rintro ⟨⟩ hflag
    cases hflag
    rfl
  have hbase := hsettle c.base h
  cases c <;>
    simp only [base] at hbase <;>
    simp only [mapBase, hbase]

theorem flag_visited : (c.visited io).base.isChanged = false := by
  rw [visited, base_mapBase]
  rfl

theorem Calm.visited_eq (h : c.Calm io) : c.visited io = c := by
  rw [visited, h.same, mapBase_settle h.flag]

theorem calm_readOnlyInt (d : ReadOnlyInt) : ((readOnlyInt d).visited io).Calm io := by
  refine ⟨flag_visited, ?_⟩
  by_cases hsimulated : d.simulated = true
  · by_cases hvalue : d.value = d.oldValue <;>
      simp [visited, getValue, mapBase, UntypedData.settle, ReadOnlyInt.getValue, hsimulated,
        hvalue]
  · by_cases hdriver : d.driver = true ∧ d.pfnRead = true
    · cases hread : io.readInt d.channelNumber with
      | none =>
        simp [visited, getValue, mapBase, UntypedData.settle, ReadOnlyInt.getValue, hsimulated,
          hdriver, hread]
      | some reading =>
        by_cases hvalue : d.value = reading <;>
          simp [visited, getValue, mapBase, UntypedData.settle, ReadOnlyInt.getValue, hsimulated,
            hdriver, hread, hvalue]
    · simp [visited, getValue, mapBase, UntypedData.settle, ReadOnlyInt.getValue, hsimulated,
        hdriver]

theorem calm_readOnlyString (d : ReadOnlyString) : ((readOnlyString d).visited io).Calm io := by
  refine ⟨flag_visited, ?_⟩
  by_cases hsimulated : d.simulated = true
  · by_cases hvalue : d.value = d.oldValue <;>
      simp [visited, getValue, mapBase, UntypedData.settle, ReadOnlyString.getValue, hsimulated,
        hvalue]
  · by_cases hdriver : d.driver = true ∧ d.pfnRead = true
    · cases hread : io.readString d.channelNumber with
      | none =>
        simp [visited, getValue, mapBase, UntypedData.settle, ReadOnlyString.getValue, hsimulated,
          hdriver, hread]
      | some reading =>
        by_cases hvalue : reading = d.value <;>
          simp [visited, getValue, mapBase, UntypedData.settle, ReadOnlyString.getValue,
            hsimulated, hdriver, hread, hvalue]
    · simp [visited, getValue, mapBase, UntypedData.settle, ReadOnlyString.getValue, hsimulated,
        hdriver]

theorem calm_readOnlyDouble {d : ReadOnlyDouble} (h : (readOnlyDouble d).Steady) :
    ((readOnlyDouble d).visited io).Calm io := by
  refine ⟨flag_visited, ?_⟩
  by_cases hdriver : d.driver = true ∧ d.pfnRead = true
  · cases hread : io.readDouble d.channelNumber with
    | none =>
      simp [visited, getValue, mapBase, UntypedData.settle, ReadOnlyDouble.getValue, hdriver,
        hread]
    | some reading =>
      have hsame := h reading
      by_cases hvalue : (d.value - reading).abs ≥ d.accuracy <;>
        simp [visited, getValue, mapBase, UntypedData.settle, ReadOnlyDouble.getValue, hdriver,
          hread, hvalue, hsame]
  · simp [visited, getValue, mapBase, UntypedData.settle, ReadOnlyDouble.getValue, hdriver]

theorem calm_readWriteDouble (d : ReadWriteDouble) : ((readWriteDouble d).visited io).Calm io :=
  ⟨flag_visited, rfl⟩

theorem calm_readWriteString (d : ReadWriteString) : ((readWriteString d).visited io).Calm io := by
  refine ⟨flag_visited, ?_⟩
  by_cases hdriver : d.pfnRead = true ∧ d.driver = true
  · cases hread : io.readString d.channelNumber <;>
      simp [visited, getValue, mapBase, UntypedData.settle, ReadWriteString.getValue, hdriver,
        hread]
  · by_cases hvalue : d.oldValue = d.value <;>
      simp [visited, getValue, mapBase, UntypedData.settle, ReadWriteString.getValue, hdriver,
        hvalue]

/-- A reading that is found new twice : it is compared with the value before it. -/
theorem calm_readWriteInt (d : ReadWriteInt) :
    (((readWriteInt d).visited io).visited io).Calm io := by
  refine ⟨flag_visited, ?_⟩
  by_cases hdriver : d.pfnRead = true ∧ d.driver = true
  · cases hread : io.readInt d.channelNumber with
    | none =>
      simp [visited, getValue, mapBase, UntypedData.settle, ReadWriteInt.getValue, hdriver, hread]
    | some reading =>
      by_cases hold : reading = d.oldValue
      · simp [visited, getValue, mapBase, UntypedData.settle, ReadWriteInt.getValue, hdriver, hread,
          hold]
      · rcases eq_or_ne reading d.value with rfl | hvalue
        · simp [visited, getValue, mapBase, UntypedData.settle, ReadWriteInt.getValue, hdriver,
            hread, hold]
        · simp [visited, getValue, mapBase, UntypedData.settle, ReadWriteInt.getValue, hdriver,
            hread, hold, hvalue]
  · by_cases hvalue : d.oldValue = d.value <;>
      simp [visited, getValue, mapBase, UntypedData.settle, ReadWriteInt.getValue, hdriver,
        hvalue]

/-- Two visits are enough. -/
theorem calm_visited_visited (h : c.Steady) : ((c.visited io).visited io).Calm io := by
  have hone : (c.visited io).Calm io → ((c.visited io).visited io).Calm io := by
    intro hcalm
    rw [hcalm.visited_eq]
    exact hcalm
  cases c with
  | readOnlyInt d => exact hone (calm_readOnlyInt d)
  | readOnlyDouble d => exact hone (calm_readOnlyDouble h)
  | readOnlyString d => exact hone (calm_readOnlyString d)
  | readWriteInt d => exact calm_readWriteInt d
  | readWriteDouble d => exact hone (calm_readWriteDouble d)
  | readWriteString d => exact hone (calm_readWriteString d)

theorem steady_getValue (h : c.Steady) : (c.getValue io).2.Steady := by
  cases c with
  | readOnlyDouble d =>
    have haccuracy : (d.getValue io).2.accuracy = d.accuracy := by
      unfold ReadOnlyDouble.getValue
      split_ifs
      · cases io.readDouble d.channelNumber with
        | none => rfl
        | some value =>
          simp only
          split_ifs <;> rfl
      · rfl
    intro v
    rw [haccuracy]
    exact h v
  | _ => trivial

theorem steady_mapBase (h : c.Steady) (f : UntypedData → UntypedData) : (c.mapBase f).Steady := by
  cases c <;> exact h

/-- So many visits leave it calm. -/
def CalmAfter (io : DriverIO) (visits : ℕ) (c : Channel) : Prop := ((visited io)^[visits] c).Calm io

theorem CalmAfter.visit {visits : ℕ} (h : c.CalmAfter io (visits + 1)) :
    (c.visited io).CalmAfter io visits := by
  rw [CalmAfter, Function.iterate_succ_apply] at h
  exact h

theorem CalmAfter.more {visits : ℕ} (h : c.CalmAfter io visits) : c.CalmAfter io (visits + 1) := by
  rw [CalmAfter, Function.iterate_succ_apply', h.visited_eq]
  exact h

end Channel

/-! ## When the others are quiet -/

/-- Who was told what. -/
def tells (log : List PollNote) : List (ℕ × ℕ × Datum) :=
  log.filterMap fun
    | .told data subscriber value => some (data, subscriber, value)
    | _ => none

namespace PollThread

variable {platform : Platform} {classes : ClassList} {s s' s₀ : PollThread}
  {e : PollThreadEvent} {data : ℕ} {io : DriverIO} {ios : ℕ → DriverIO} {more : ℕ}
  {events : List PollThreadEvent}

/-- The event is a step of the thread, with a driver for each channel that answers so. -/
def Quiet (ios : ℕ → DriverIO) (s : PollThread) : PollThreadEvent → Prop
  | .look io => ∀ fullName data, s.place = .at fullName data .look → io = ios data
  | .bind _ => False
  | .call _ _ => False
  | _ => True

/-- The thread is left alone in a run. -/
def LeftAlone (platform : Platform) (classes : ClassList) (ios : ℕ → DriverIO) :
    PollThread → List PollThreadEvent → Prop
  | _, [] => True
  | s, e :: events => s.Quiet ios e ∧
      ∀ s', s.step platform classes e = some s' → LeftAlone platform classes ios s' events

theorem leftAlone_append {pre post : List PollThreadEvent} :
    LeftAlone platform classes ios s (pre ++ post) ↔ LeftAlone platform classes ios s pre ∧
      ∀ s', pre.foldlM (step platform classes) s = some s' →
        LeftAlone platform classes ios s' post := by
  induction pre generalizing s with
  | nil =>
    rw [List.nil_append, LeftAlone, true_and]
    exact ⟨fun h s' hs' => Option.some.inj hs' ▸ h, fun h => h s rfl⟩
  | cons e pre ih =>
    simp only [List.cons_append, LeftAlone, ih, and_assoc, List.foldlM_cons,
      Option.bind_eq_bind, Option.bind_eq_some_iff]
    refine and_congr_right fun _ => ?_
    constructor
    · exact fun h => ⟨fun s₁ hs₁ => (h s₁ hs₁).1, fun s' ⟨s₁, hs₁, hs'⟩ => (h s₁ hs₁).2 s' hs'⟩
    · exact fun h s₁ hs₁ => ⟨h.1 s₁ hs₁, fun s' hs' => h.2 s' ⟨s₁, hs₁, hs'⟩⟩

/-- The thread looks at a channel, and its driver answers as it does. -/
theorem leftAlone_look (fullName : Str) (data : ℕ) (hplace : s.place = .at fullName data .look)
    (hstep : s.step platform classes (.look (ios data)) = some s')
    (h : LeftAlone platform classes ios s' events) :
    LeftAlone platform classes ios s (.look (ios data) :: events) := by
  refine ⟨fun fullName' data' hplace' => ?_, fun s₁ hs₁ => ?_⟩
  · cases hplace.symm.trans hplace'
    rfl
  · obtain rfl := Option.some.inj (hstep.symm.trans hs₁)
    exact h

theorem leftAlone_cons (he : s.Quiet ios e) (hstep : s.step platform classes e = some s')
    (h : LeftAlone platform classes ios s' events) :
    LeftAlone platform classes ios s (e :: events) :=
  ⟨he, fun _ hs₁ => Option.some.inj (hstep.symm.trans hs₁) ▸ h⟩

/-- Events that are quiet in all states. -/
theorem leftAlone_of_steps (h : ∀ e ∈ events, ∀ s : PollThread, s.Quiet ios e) :
    LeftAlone platform classes ios s events := by
  induction events generalizing s with
  | nil => trivial
  | cons e events ih =>
    exact ⟨h e List.mem_cons_self s, fun _ _ => ih fun e he => h e (List.mem_cons_of_mem _ he)⟩

/-- What the thread does next is determined. -/
theorem quiet_unique {e' : PollThreadEvent} {s'' : PollThread} (h : s.Quiet ios e)
    (h' : s.Quiet ios e') (hstep : s.step platform classes e = some s')
    (hstep' : s.step platform classes e' = some s'') : e = e' := by
  cases step_spec hstep <;> cases step_spec hstep' <;> simp_all [Quiet]

/-- Of two runs of the thread one begins with the other. -/
theorem prefix_or_prefix {events' : List PollThreadEvent} {s'' : PollThread}
    (h : LeftAlone platform classes ios s events) (h' : LeftAlone platform classes ios s events')
    (hrun : events.foldlM (step platform classes) s = some s')
    (hrun' : events'.foldlM (step platform classes) s = some s'') :
    events' <+: events ∨ events <+: events' := by
  induction events generalizing s events' with
  | nil => exact Or.inr List.nil_prefix
  | cons e events ih =>
    cases events' with
    | nil => exact Or.inl List.nil_prefix
    | cons e' events' =>
      rw [List.foldlM_cons] at hrun hrun'
      obtain ⟨s₁, hstep, hrun⟩ := Option.bind_eq_some_iff.1 hrun
      obtain ⟨s₂, hstep', hrun'⟩ := Option.bind_eq_some_iff.1 hrun'
      obtain rfl := quiet_unique h.1 h'.1 hstep hstep'
      obtain rfl := Option.some.inj (hstep.symm.trans hstep')
      simp only [List.cons_prefix_cons, true_and]
      exact ih (h.2 s₁ hstep) (h'.2 s₁ hstep) hrun hrun'

theorem lastTold_tellings (data object : ℕ) (value : Datum) (objects : List ℕ) :
    ∀ log, lastTold data object (log ++ tellings data (objects.map fun o => (o, value))) =
      if object ∈ objects then some value else lastTold data object log := by
  induction objects with
  | nil =>
    intro log
    rw [if_neg List.not_mem_nil, List.map_nil, tellings, List.map_nil, List.append_nil]
  | cons object' objects ih =>
    intro log
    have hcons : log ++ tellings data ((object' :: objects).map fun o => (o, value)) =
        (log ++ [.told data object' value]) ++
          tellings data (objects.map fun o => (o, value)) := by
      rw [List.append_assoc]
      rfl
    rw [hcons, ih]
    by_cases hmem : object ∈ objects
    · rw [if_pos hmem, if_pos (List.mem_cons_of_mem _ hmem)]
    · rw [if_neg hmem]
      by_cases hobject : object' = object
      · subst hobject
        rw [lastTold_told, if_pos List.mem_cons_self]
      · rw [lastTold_other fun hboth => hobject hboth.2, if_neg]
        exact fun h => (List.mem_cons.1 h).elim (fun heq => hobject heq.symm) hmem

/-- The loop of `update`. -/
theorem notify_all {fullName : Str} {rest : List ℕ} : ∀ {s : PollThread},
    s.place = .at fullName data (.notifying rest) →
    (List.replicate rest.length PollThreadEvent.notify).foldlM (step platform classes) s =
      some { s with
        place := .at fullName data (.notifying [])
        log := s.log ++ tellings data (rest.map fun o => (o, (s.channels data).value)) } := by
  induction rest with
  | nil =>
    intro s hplace
    rw [List.map_nil, tellings, List.map_nil, List.append_nil, ← hplace]
    rfl
  | cons object rest ih =>
    intro s hplace
    have hstep : s.step platform classes .notify = some { s with
        place := .at fullName data (.notifying rest)
        log := s.log ++ [.told data object (s.channels data).value] } := by
      rw [step, hplace]
    rw [List.length_cons, List.replicate_succ, List.foldlM_cons, hstep]
    refine (ih rfl).trans ?_
    rw [List.append_assoc]
    rfl

/-- A visit that is not disturbed, of a channel of which `getValue` leaves `c`. -/
theorem visit (platform : Platform) (classes : ClassList) (ios : ℕ → DriverIO) {fullName : Str}
    {c : Channel} (hplace : s.place = .at fullName data .look)
    (hc : ((s.channels data).getValue (ios data)).2 = c) :
    ∃ events : List PollThreadEvent, LeftAlone platform classes ios s events ∧
      events.foldlM (step platform classes) s =
        some ⟨s.manager, Function.update s.channels data (c.mapBase .settle), s.after fullName,
          s.log ++ [.looked fullName] ++ tellings data
            (if c.base.isChanged then c.base.subscribers.map fun o => (o, c.value) else [])⟩ := by
  have hlook : s.step platform classes (.look (ios data)) =
      some ⟨s.manager, Function.update s.channels data c, .at fullName data .test,
        s.log ++ [.looked fullName]⟩ := by
    rw [step, hplace, ← hc]
    rfl
  have hquiet : s.Quiet ios (.look (ios data)) := by
    intro fullName' data' hplace'
    cases hplace.symm.trans hplace'
    rfl
  cases hflag : c.base.isChanged with
  | false =>
    refine ⟨[.look (ios data), .test], ⟨hquiet, fun s₁ _ => ⟨trivial, fun _ _ => trivial⟩⟩, ?_⟩
    rw [List.foldlM_cons, hlook, if_neg Bool.false_ne_true, Channel.mapBase_settle hflag, tellings,
      List.map_nil, List.append_nil]
    simp only [Option.bind_eq_bind, Option.bind_some, List.foldlM_cons, List.foldlM_nil, step,
      Function.update_self, hflag]
    rfl
  | true =>
    have hnotify := @notify_all platform classes data fullName c.base.subscribers ⟨s.manager,
      Function.update s.channels data c, .at fullName data (.notifying c.base.subscribers),
      s.log ++ [.looked fullName]⟩ rfl
    refine ⟨.look (ios data) :: ([.test, .lock] ++
      (List.replicate c.base.subscribers.length .notify ++ [.unlock])),
      ⟨hquiet, fun s₁ _ => ?_⟩, ?_⟩
    · refine leftAlone_of_steps fun e he => ?_
      simp only [List.mem_append, List.mem_cons, List.mem_replicate, List.not_mem_nil,
        or_false] at he
      rcases he with (rfl | rfl) | ⟨-, rfl⟩ | rfl <;> exact fun _ => trivial
    · have hlock : [PollThreadEvent.look (ios data), .test, .lock].foldlM
          (step platform classes) s = some ⟨s.manager, Function.update s.channels data c,
            .at fullName data (.notifying c.base.subscribers), s.log ++ [.looked fullName]⟩ := by
        rw [List.foldlM_cons, hlook]
        simp only [Option.bind_eq_bind, Option.bind_some, List.foldlM_cons, List.foldlM_nil, step,
          Function.update_self, hflag, if_true]
        rfl
      rw [← List.cons_append, List.foldlM_append, hlock, Option.bind_eq_bind, Option.bind_some,
        List.foldlM_append, hnotify, if_pos rfl]
      simp only [Option.bind_eq_bind, Option.bind_some, List.foldlM_cons, List.foldlM_nil, step,
        modify, Function.update_self, Function.update_idem]
      rfl

/-- A visit that is not disturbed is a round of the poll on the channel, and on no other. It is the
only one : every run in which the thread is left alone is a part of it, or goes on after it. -/
theorem execute_of_visit (platform : Platform) (classes : ClassList) (ios : ℕ → DriverIO)
    (s : PollThread) (fullName : Str) (data : ℕ) (hplace : s.place = .at fullName data .look) :
    ∃ (visit : List PollThreadEvent) (s' : PollThread),
      LeftAlone platform classes ios s visit ∧
      visit.foldlM (PollThread.step platform classes) s = some s' ∧
      (∀ (events : List PollThreadEvent) (s'' : PollThread),
        LeftAlone platform classes ios s events →
        events.foldlM (PollThread.step platform classes) s = some s'' →
          events <+: visit ∨ visit <+: events) ∧
      s'.place = s.after fullName ∧
      s'.channels = Function.update s.channels data (PolledChannel.execute (ios data)
        ⟨s.channels data, fun o => lastTold data o s.log⟩).channel ∧
      ∀ object, lastTold data object s'.log =
        (PolledChannel.execute (ios data)
          ⟨s.channels data, fun o => lastTold data o s.log⟩).delivered object := by
  obtain ⟨events, halone, hrun⟩ := visit platform classes ios hplace rfl
  refine ⟨events, _, halone, hrun,
    fun events' s'' halone' hrun' => prefix_or_prefix halone halone' hrun hrun', rfl, ?_,
    fun object => ?_⟩
  · rw [PolledChannel.execute]
    cases hflag : ((s.channels data).getValue (ios data)).2.base.isChanged with
    | true => rw [if_pos rfl]; rfl
    | false =>
      rw [if_neg Bool.false_ne_true, if_neg Bool.false_ne_true, Channel.mapBase_settle hflag]
  · rw [PolledChannel.execute]
    cases hflag : ((s.channels data).getValue (ios data)).2.base.isChanged with
    | true =>
      rw [if_pos rfl, if_pos rfl, lastTold_tellings, lastTold_looked]
      rfl
    | false =>
      rw [if_neg Bool.false_ne_true, if_neg Bool.false_ne_true, tellings, List.map_nil,
        List.append_nil, lastTold_looked]

/-- A visit to the channel that reads 3. -/
theorem execute_of_visit_a : ∃ (visit : List PollThreadEvent) (s s' : PollThread),
    s.place = .at ['/', 'a'] 0 .look ∧
      visit.foldlM (PollThread.step .windows []) s = some s' ∧
      (s'.channels 0).value = (PolledChannel.execute readsThree
        ⟨s.channels 0, fun o => lastTold 0 o s.log⟩).channel.value := by
  obtain ⟨visit, s', -, hrun, -, -, hchannels, -⟩ := execute_of_visit .windows []
    (fun _ => readsThree) { thread_a with place := .at ['/', 'a'] 0 .look } ['/', 'a'] 0 rfl
  refine ⟨visit, _, s', rfl, hrun, ?_⟩
  rw [hchannels, Function.update_self]

/-- The channel has a name. -/
def Registered (s : PollThread) (data : ℕ) : Prop :=
  ∃ fullName : Str, s.manager.datas[fullName]? = some data

/-- The channel whose `getValue` was called, and that has not been left since. -/
def visiting (s : PollThread) : Option ℕ :=
  match s.place with
  | .asleep => none
  | .at _ _ .look => none
  | .at _ data _ => some data

/-- The thread is at an entry of the registry, or at none. -/
def Placed (s : PollThread) : Prop :=
  ∀ fullName data stage, s.place = .at fullName data stage →
    s.manager.datas[fullName]? = some data

/-- A pass that leaves each channel calm after so many more visits. -/
structure Settling (ios : ℕ → DriverIO) (more : ℕ) (s : PollThread) : Prop where
  placed : s.Placed
  rest : ∀ data, s.Registered data → s.visiting ≠ some data →
    (s.channels data).CalmAfter (ios data) (more + 1)
  middle : ∀ data, s.visiting = some data →
    ((s.channels data).mapBase .settle).CalmAfter (ios data) more
  seen : ∃ log notes, s.log = log ++ notes ∧
    Swept s.manager.datas s.manager.datas (visits notes) s.place.cursor ∧
    ∀ fullName ∈ visits notes, ∀ data, s.manager.datas[fullName]? = some data →
      s.visiting ≠ some data → (s.channels data).CalmAfter (ios data) more

/-- All channels are calm. -/
structure Silent (ios : ℕ → DriverIO) (s : PollThread) : Prop where
  placed : s.Placed
  calm : ∀ data, s.Registered data → (s.channels data).Calm (ios data)
  stage : ∀ fullName data stage, s.place = .at fullName data stage → stage = .look ∨ stage = .test

theorem placed_of {entry : Option (Str × ℕ)} (hplace : s.place = .of entry)
    (hentry : ∀ e, entry = some e → s.manager.datas[e.1]? = some e.2) : s.Placed := by
  intro fullName data stage hat
  rw [hplace] at hat
  cases entry with
  | none => cases hat
  | some e =>
    cases hat
    exact hentry _ rfl

theorem visiting_of {entry : Option (Str × ℕ)} (hplace : s.place = .of entry) :
    s.visiting = none := by
  rw [visiting, hplace]
  cases entry <;> rfl

theorem Settling.ends (h : s.Settling ios more) (hplace : s.place = .asleep) (data : ℕ)
    (hdata : s.Registered data) : (s.channels data).CalmAfter (ios data) more := by
  obtain ⟨log, notes, -, hswept, hseen⟩ := h.seen
  obtain ⟨fullName, hget⟩ := hdata
  rw [hplace] at hswept
  refine hseen fullName (hswept.ended fullName ?_) data hget ?_
  · exact Std.TreeMap.mem_iff_isSome_getElem?.2 (by rw [hget]; rfl)
  · rw [visiting, hplace]
    exact fun heq => by cases heq

theorem settling_begin
    (h : ∀ data, s.Registered data → (s.channels data).CalmAfter (ios data) (more + 1)) :
    ({ s with place := .of (Sweep.first s.manager.datas), log := s.log ++ [.began] } :
      PollThread).Settling ios more := by
  have hvisiting := visiting_of (s := { s with
    place := .of (Sweep.first s.manager.datas), log := s.log ++ [.began] }) rfl
  refine ⟨placed_of rfl fun e he => (Sweep.first_spec he).1, fun data hdata _ => h data hdata,
    fun data heq => ?_, s.log ++ [.began], [], (List.append_nil _).symm, ?_, ?_⟩
  · rw [hvisiting] at heq
    cases heq
  · rw [PollPlace.cursor_of]
    exact Swept.start
  · exact fun fullName hname => absurd hname List.not_mem_nil

/-- The thread is in the visit of a channel. -/
def Within (s : PollThread) (fullName : Str) (data : ℕ) : Prop :=
  s.place.cursor = .after fullName ∧ s.visiting = some data

theorem within_of {fullName : Str} {stage : PollStage} (hplace : s.place = .at fullName data stage)
    (hstage : stage ≠ .look) : s.Within fullName data := by
  rw [Within, visiting, hplace]
  cases stage with
  | look => exact absurd rfl hstage
  | _ => exact ⟨rfl, rfl⟩

/-- A visit begins. -/
theorem Settling.enter (h : s.Settling ios more) {fullName : Str}
    (hplace : s.place = .at fullName data .look) :
    ({ s.modify data fun c => (c.getValue (ios data)).2 with
      place := .at fullName data .test, log := s.log ++ [.looked fullName] } :
      PollThread).Settling ios more := by
  obtain ⟨log, notes, hlog, hswept, hseen⟩ := h.seen
  have hget := h.placed _ _ _ hplace
  have hnot : ∀ data, s.visiting ≠ some data := by
    rw [visiting, hplace]
    exact fun _ heq => by cases heq
  have hothers : ∀ data', some data ≠ some data' →
      (s.modify data fun c => (c.getValue (ios data)).2).channels data' = s.channels data' :=
    fun _ hne => channels_modify_of_ne s (fun heq => hne (congrArg some heq.symm)) _
  rw [hplace] at hswept
  refine ⟨fun _ _ _ hat => ?_, fun data' hdata' hne => ?_, fun data' heq => ?_,
    log, notes ++ [.looked fullName], ?_, ?_, fun fullName' hname' data' hget' hne => ?_⟩
  · cases hat
    exact hget
  · have hrest := h.rest data' hdata' (hnot data')
    rw [← hothers data' hne] at hrest
    exact hrest
  · obtain rfl := Option.some.inj heq
    simp only [channels_modify_self]
    exact (h.rest data ⟨fullName, hget⟩ (hnot data)).visit
  · rw [hlog, List.append_assoc]
  · rw [visits, List.filterMap_append]
    exact hswept.handle
  · rw [visits, List.filterMap_append, List.mem_append] at hname'
    rcases hname' with hname' | hname'
    · have hcalm := hseen fullName' hname' data' hget' (hnot data')
      rw [← hothers data' hne] at hcalm
      exact hcalm
    · obtain rfl : fullName' = fullName := List.mem_singleton.1 hname'
      exact absurd (congrArg some (Option.some.inj (hget.symm.trans hget'))) hne

/-- A visit goes on. -/
theorem Settling.stay (h : s.Settling ios more) (stage : PollStage) (notes' : List PollNote)
    {fullName : Str} (hwithin : s.Within fullName data) (hstage : stage ≠ .look)
    (hget : s.manager.datas[fullName]? = some data) (hnotes : visits notes' = []) :
    ({ s with place := .at fullName data stage, log := s.log ++ notes' } :
      PollThread).Settling ios more := by
  obtain ⟨log, notes, hlog, hswept, hseen⟩ := h.seen
  obtain ⟨hcursor, hvisiting⟩ := hwithin
  obtain ⟨hcursor', hvisiting'⟩ := within_of (s := { s with
    place := .at fullName data stage, log := s.log ++ notes' }) rfl hstage
  have hvisits : visits (notes ++ notes') = visits notes := by
    rw [visits, List.filterMap_append, ← visits, ← visits, hnotes, List.append_nil]
  refine ⟨fun _ _ _ hat => ?_, fun data' hdata' hne => ?_, fun data' heq => ?_,
    log, notes ++ notes', ?_, ?_, fun fullName' hname' data' hget' hne => ?_⟩
  · cases hat
    exact hget
  · rw [hvisiting', ← hvisiting] at hne
    exact h.rest data' hdata' hne
  · rw [hvisiting', ← hvisiting] at heq
    exact h.middle data' heq
  · rw [hlog, List.append_assoc]
  · rw [hcursor', hvisits, ← hcursor]
    exact hswept
  · rw [hvisits] at hname'
    rw [hvisiting', ← hvisiting] at hne
    exact hseen fullName' hname' data' hget' hne

/-- A visit ends. -/
theorem Settling.leave (h : s.Settling ios more) {fullName : Str} {channels' : ℕ → Channel}
    (hwithin : s.Within fullName data)
    (hdata : channels' data = (s.channels data).mapBase .settle)
    (hothers : ∀ data', data' ≠ data → channels' data' = s.channels data') :
    ({ s with channels := channels', place := s.after fullName } :
      PollThread).Settling ios more := by
  obtain ⟨log, notes, hlog, hswept, hseen⟩ := h.seen
  obtain ⟨hcursor, hvisiting⟩ := hwithin
  have hleft : ∀ data', s.visiting ≠ some data' → data' ≠ data := by
    rw [hvisiting]
    exact fun data' hne heq => hne (congrArg some heq.symm)
  have hcalm : (channels' data).CalmAfter (ios data) more := hdata ▸ h.middle data hvisiting
  refine ⟨placed_of rfl fun e he => (Sweep.next_spec he).1, fun data' hdata' _ => ?_,
    fun data' heq => ?_, log, notes, hlog, ?_, fun fullName' hname' data' hget' _ => ?_⟩
  · by_cases hsame : data' = data
    · subst hsame
      exact hcalm.more
    · change (channels' data').CalmAfter (ios data') (more + 1)
      rw [hothers data' hsame]
      refine h.rest data' hdata' ?_
      rw [hvisiting]
      exact fun heq => hsame (Option.some.inj heq).symm
  · rw [visiting_of (s := { s with channels := channels', place := s.after fullName }) rfl] at heq
    cases heq
  · rw [after, PollPlace.cursor_of]
    rw [hcursor] at hswept
    exact hswept.move
  · by_cases hsame : data' = data
    · subst hsame
      exact hcalm
    · change (channels' data').CalmAfter (ios data') more
      rw [hothers data' hsame]
      refine hseen fullName' hname' data' hget' ?_
      rw [hvisiting]
      exact fun heq => hsame (Option.some.inj heq).symm

/-- One step of such a pass. -/
theorem Settling.next (h : s.Settling ios more) (hquiet : s.Quiet ios e)
    (hbegin : e.isBegin = false) (hstep : s.step platform classes e = some s') :
    s'.Settling ios more := by
  cases step_spec hstep with
  | begin hplace => cases hbegin
  | @look io' fullName data hplace =>
    obtain rfl := hquiet fullName data hplace
    exact h.enter hplace
  | @changed fullName data hplace hflag =>
    have hstay := h.stay .update []
      (within_of hplace (fun heq => by cases heq)) (fun heq => by cases heq)
      (h.placed _ _ _ hplace) rfl
    rwa [List.append_nil] at hstay
  | @unchanged fullName data hplace hflag =>
    exact h.leave (within_of hplace (fun heq => by cases heq))
      (Channel.mapBase_settle hflag).symm fun _ _ => rfl
  | @lock fullName data hplace =>
    have hstay := h.stay (.notifying (s.channels data).base.subscribers) []
      (within_of hplace (fun heq => by cases heq)) (fun heq => by cases heq)
      (h.placed _ _ _ hplace) rfl
    rwa [List.append_nil] at hstay
  | notify hplace =>
    exact h.stay _ [_] (within_of hplace (fun heq => by cases heq)) (fun heq => by cases heq)
      (h.placed _ _ _ hplace) rfl
  | @unlock fullName data hplace =>
    exact h.leave (within_of hplace (fun heq => by cases heq)) (channels_modify_self s data _)
      fun data' hne => channels_modify_of_ne s hne _
  | bind hbind => exact absurd hquiet id
  | call data hfree => exact absurd hquiet id
  | overtake => exact absurd hquiet id

/-- One step when all channels are calm : the thread goes over them, and leaves them alone. -/
theorem Silent.next (h : s.Silent ios) (hquiet : s.Quiet ios e)
    (hstep : s.step platform classes e = some s') :
    s'.Silent ios ∧ s'.channels = s.channels ∧ tells s'.log = tells s.log := by
  cases step_spec hstep with
  | begin hplace =>
    refine ⟨⟨placed_of rfl fun e he => (Sweep.first_spec he).1, h.calm, fun _ _ _ hat => ?_⟩, rfl,
      by simp [tells]⟩
    cases hfirst : Sweep.first s.manager.datas with
    | none =>
      rw [hfirst] at hat
      cases hat
    | some e =>
      rw [hfirst] at hat
      cases hat
      exact Or.inl rfl
  | @look io' fullName data hplace =>
    obtain rfl := hquiet fullName data hplace
    have hget := h.placed _ _ _ hplace
    have hchannels :
        (s.modify data fun c => (c.getValue (ios data)).2).channels = s.channels := by
      change Function.update s.channels data ((s.channels data).getValue (ios data)).2 = _
      rw [(h.calm data ⟨fullName, hget⟩).same, Function.update_eq_self]
    refine ⟨⟨fun _ _ _ hat => ?_, fun data' hdata' => ?_, fun _ _ _ hat => ?_⟩, hchannels,
      by simp [tells]⟩
    · cases hat
      exact hget
    · have hcalm := h.calm data' hdata'
      rw [← hchannels] at hcalm
      exact hcalm
    · cases hat
      exact Or.inr rfl
  | @changed fullName data hplace hflag =>
    rw [(h.calm data ⟨fullName, h.placed _ _ _ hplace⟩).flag] at hflag
    cases hflag
  | @unchanged fullName data hplace hflag =>
    refine ⟨⟨placed_of rfl fun e he => (Sweep.next_spec he).1, h.calm, fun _ _ _ hat => ?_⟩, rfl,
      rfl⟩
    cases hnext : Sweep.next s.manager.datas fullName with
    | none =>
      rw [after, hnext] at hat
      cases hat
    | some e =>
      rw [after, hnext] at hat
      cases hat
      exact Or.inl rfl
  | lock hplace => rcases h.stage _ _ _ hplace with heq | heq <;> cases heq
  | notify hplace => rcases h.stage _ _ _ hplace with heq | heq <;> cases heq
  | unlock hplace => rcases h.stage _ _ _ hplace with heq | heq <;> cases heq
  | bind hbind => exact absurd hquiet id
  | call data hfree => exact absurd hquiet id
  | overtake => exact absurd hquiet id

/-- What holds after so many passes have begun. -/
def Phase (ios : ℕ → DriverIO) : ℕ → PollThread → Prop
  | 0, s => ∀ data, (s.channels data).Steady
  | 1, s => s.Settling ios 1
  | 2, s => s.Settling ios 0
  | _, s => s.Silent ios

theorem steady_modify (h : ∀ data, (s.channels data).Steady) {f : Channel → Channel}
    (hf : ∀ c : Channel, c.Steady → (f c).Steady) (data' : ℕ) :
    ((s.modify data f).channels data').Steady := by
  by_cases hdata : data' = data
  · subst hdata
    rw [channels_modify_self]
    exact hf _ (h data')
  · rw [channels_modify_of_ne s hdata]
    exact h data'

theorem steady_step (h : ∀ data, (s.channels data).Steady) (hquiet : s.Quiet ios e)
    (hstep : s.step platform classes e = some s') : ∀ data, (s'.channels data).Steady := by
  cases step_spec hstep with
  | look io' hplace => exact steady_modify h fun c hc => Channel.steady_getValue hc
  | unlock hplace => exact steady_modify h fun c hc => Channel.steady_mapBase hc _
  | bind hbind => exact absurd hquiet id
  | call data hfree => exact absurd hquiet id
  | overtake => exact absurd hquiet id
  | _ => exact h

/-- A pass begins. -/
theorem phase_begin {passes : ℕ} (h : Phase ios passes s)
    (hstep : s.step platform classes .begin = some s') : Phase ios (passes + 1) s' := by
  cases step_spec hstep with
  | begin hplace =>
    match passes, h with
    | 0, h => exact settling_begin fun data _ => Channel.calm_visited_visited (h data)
    | 1, h => exact settling_begin (h.ends hplace)
    | 2, h =>
      refine ⟨placed_of rfl fun e he => (Sweep.first_spec he).1, h.ends hplace, fun _ _ _ hat => ?_⟩
      cases hfirst : Sweep.first s.manager.datas with
      | none =>
        rw [hfirst] at hat
        cases hat
      | some e =>
        rw [hfirst] at hat
        cases hat
        exact Or.inl rfl
    | _ + 3, h =>
      have hquiet : s.Quiet ios .begin := trivial
      exact (Silent.next h hquiet hstep).1

theorem phase_step {passes : ℕ} (h : Phase ios passes s) (hquiet : s.Quiet ios e)
    (hbegin : e.isBegin = false) (hstep : s.step platform classes e = some s') :
    Phase ios passes s' :=
  match passes, h with
  | 0, h => steady_step h hquiet hstep
  | 1, h => Settling.next h hquiet hbegin hstep
  | 2, h => Settling.next h hquiet hbegin hstep
  | _ + 3, h => (Silent.next h hquiet hstep).1

/-- What holds after a run in which the thread is left alone. -/
theorem phase_run (passes : ℕ) (h : Phase ios passes s)
    (halone : LeftAlone platform classes ios s events)
    (hrun : events.foldlM (step platform classes) s = some s') :
    Phase ios (passes + events.countP PollThreadEvent.isBegin) s' := by
  induction events generalizing s passes with
  | nil => exact Option.some.inj hrun ▸ h
  | cons e events ih =>
    rw [List.foldlM_cons] at hrun
    obtain ⟨s₁, hstep, htail⟩ := Option.bind_eq_some_iff.1 hrun
    obtain ⟨hquiet, halone⟩ := halone
    have hrest := halone s₁ hstep
    cases hbegin : e.isBegin with
    | true =>
      obtain rfl : e = .begin := by
        cases e <;> first | rfl | cases hbegin
      rw [List.countP_cons_of_pos rfl, ← Nat.add_assoc, Nat.add_right_comm]
      exact ih _ (phase_begin h hstep) hrest htail
    | false =>
      rw [List.countP_cons_of_neg (by rw [hbegin]; exact Bool.false_ne_true)]
      exact ih _ (phase_step h hquiet hbegin hstep) hrest htail

theorem silent_of_phase {passes : ℕ} (h : Phase ios passes s) (hpasses : 3 ≤ passes) :
    s.Silent ios := by
  obtain ⟨n, rfl⟩ := Nat.exists_eq_add_of_le' hpasses
  exact h

theorem Silent.run (h : s.Silent ios) (halone : LeftAlone platform classes ios s events)
    (hrun : events.foldlM (step platform classes) s = some s') :
    s'.channels = s.channels ∧ tells s'.log = tells s.log := by
  induction events generalizing s with
  | nil => exact Option.some.inj hrun ▸ ⟨rfl, rfl⟩
  | cons e events ih =>
    rw [List.foldlM_cons] at hrun
    obtain ⟨s₁, hstep, hrun⟩ := Option.bind_eq_some_iff.1 hrun
    obtain ⟨hsilent, hchannels, htells⟩ := h.next halone.1 hstep
    obtain ⟨hchannels', htells'⟩ := ih hsilent (halone.2 s₁ hstep) hrun
    exact ⟨hchannels'.trans hchannels, htells'.trans htells⟩

/-- Two passes make the thread silent. From any state, if it is left alone and the driver of each
channel answers the same again and again, from the third pass on it tells nobody anything and
changes no channel. -/
theorem silent_of_quiet (platform : Platform) (classes : ClassList) (ios : ℕ → DriverIO)
    (s s₁ s₂ : PollThread) (pre post : List PollThreadEvent)
    (hsteady : ∀ data, (s.channels data).Steady)
    (halone : LeftAlone platform classes ios s (pre ++ post))
    (hpre : pre.foldlM (PollThread.step platform classes) s = some s₁)
    (hpost : post.foldlM (PollThread.step platform classes) s₁ = some s₂)
    (hpasses : 3 ≤ pre.countP PollThreadEvent.isBegin) :
    tells s₂.log = tells s₁.log ∧ s₂.channels = s₁.channels := by
  obtain ⟨hbefore, hafter⟩ := leftAlone_append.1 halone
  have hphase := phase_run 0 hsteady hbefore hpre
  have hsilent := silent_of_phase hphase (by omega)
  exact (hsilent.run (hafter s₁ hpre) hpost).symm

/-- A program with a second channel, which another driver reads. -/
def thread_ab : PollThread where
  manager := { ObjectManager.new with
    datas := (Std.TreeMap.insertIfNew ∅ ['/', 'a'] 0).insertIfNew ['/', 'b'] 1 }
  channels _ := .readOnlyInt { ReadOnlyInt.new 0 with driver := true, pfnRead := true }
  place := .asleep
  log := []

/-- The two drivers, which answer the same channel number with 3 and 4. -/
def drivers_ab (data : ℕ) : DriverIO :=
  PolledChannel.noDriver.readsInt (some (if data = 0 then 3 else 4))

/-- A pass over both channels that finds them changed. -/
def firstPass : List PollThreadEvent :=
  [.begin, .look (drivers_ab 0), .test, .lock, .unlock, .look (drivers_ab 1), .test, .lock, .unlock]

/-- A pass over both channels that finds nothing new. -/
def nextPass : List PollThreadEvent :=
  [.begin, .look (drivers_ab 0), .test, .look (drivers_ab 1), .test]

theorem leftAlone_ab : LeftAlone .windows [] drivers_ab thread_ab
    (firstPass ++ nextPass ++ [.begin] ++ nextPass.tail) := by
  refine leftAlone_cons trivial rfl ?_
  refine leftAlone_look ['/', 'a'] 0 rfl rfl ?_
  refine leftAlone_cons trivial rfl (leftAlone_cons trivial rfl (leftAlone_cons trivial rfl ?_))
  refine leftAlone_look ['/', 'b'] 1 rfl rfl ?_
  refine leftAlone_cons trivial rfl (leftAlone_cons trivial rfl (leftAlone_cons trivial rfl ?_))
  refine leftAlone_cons trivial rfl ?_
  refine leftAlone_look ['/', 'a'] 0 rfl rfl ?_
  refine leftAlone_cons trivial rfl ?_
  refine leftAlone_look ['/', 'b'] 1 rfl rfl ?_
  refine leftAlone_cons trivial rfl (leftAlone_cons trivial rfl ?_)
  refine leftAlone_look ['/', 'a'] 0 rfl rfl ?_
  refine leftAlone_cons trivial rfl ?_
  refine leftAlone_look ['/', 'b'] 1 rfl rfl ?_
  exact leftAlone_cons trivial rfl trivial

/-- The third pass over the channels. -/
theorem silent_of_quiet_ab : ∃ s₁ s₂ : PollThread,
    (firstPass ++ nextPass ++ [PollThreadEvent.begin]).foldlM (PollThread.step .windows [])
      thread_ab = some s₁ ∧
    nextPass.tail.foldlM (PollThread.step .windows []) s₁ = some s₂ ∧
    tells s₂.log = tells s₁.log := by
  obtain ⟨htells, -⟩ := silent_of_quiet .windows [] drivers_ab thread_ab _ _
    (firstPass ++ nextPass ++ [.begin]) nextPass.tail (fun _ => trivial) leftAlone_ab rfl rfl
    (by decide)
  exact ⟨_, _, rfl, rfl, htells⟩

end PollThread

end Ick
