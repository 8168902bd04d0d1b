import Ick.DriverPolling
import Ick.Publish
import Ick.Reach

/-!
# New subscribers

`addSubscribe` has two sections under two mutexes : it records the channel for the socket, under
the mutex of the server, and then it enters the server among the subscribers of the channel and
raises `isChanged`, under the mutex of the channel. Meanwhile the poll thread goes over the
channel : it calls `getValue`, tests `isChanged`, and if it is up, it notifies the subscribers
and takes it down, all under the mutex of the channel; each subscriber that is notified takes
its own mutex.

The order of the two sections is what makes a new subscriber get the value. A poll that is in the
middle of notifying may miss the socket, but it holds the mutex that the second section waits
for, so `isChanged` goes up after it has come down (`Pending`). The value is then delivered in
the next round, and later rounds deliver what `getValue` notices. But a driver's reading that
returns to the value before the last one is not noticed by `ReadWriteInt`, and none is by
`ReadWriteString`; where these do not occur, every new subscriber gets the value
(`newcomersInformed`).

A run ends where the behaviour of `update` is undefined : where `publish` writes behind the end of
one of its buffers, and on Linux after a send that fails.
-/

namespace Ick

/-- Where the poll thread is in its round over the channel : at the call of `getValue`, at the
test of `isChanged`, at the call of `update`, or in it, with the subscribers that are still to
be notified. -/
inductive PollPc
  | getValue
  | test
  | update
  | notifying (rest : List ℕ)
  deriving DecidableEq

/-- The server with the channels, and where the poll thread is. -/
structure PollState where
  server : Publisher
  pc : PollPc

/-- The steps : sections of the server's mutex, by other threads or by the poll thread on other
channels, the section of `UntypedData::subscribe`, and the steps of the poll thread on the
channel. All sockets have handles. -/
inductive PollEvent
  | call (call : PublishCall)
  | subscribe (object : ℕ)
  | getValue (io : DriverIO)
  | test
  | lock
  | notify (sends : ℕ → {e : SendEvent // e ≠ .noHandle}) (t : ℕ → ℤ)
  | unlock

namespace PollState

/-- A change of a channel object. -/
def modify (s : PollState) (c : ℕ) (f : Channel → Channel) : PollState :=
  { s with server := { s.server with
      channels := Function.update s.server.channels c (f (s.server.channels c)) } }

/-- The sections that are not of the poll thread on the channel. It is that thread that updates
other channels, and a dead socket stays dead. -/
def admits (c : ℕ) (pc : PollPc) : PublishCall → Bool
  | .update untypedData _ _ => untypedData ≠ c ∧ pc = .getValue
  | .setChannel untypedData _ => untypedData ≠ c
  | .setAlive _ isAlive => isAlive = false
  | _ => true

/-- One step, for the channel `c` and the server as a `subscriber`. -/
def step (clib : CLib) (c subscriber : ℕ) (s : PollState) : PollEvent → Option PollState
  | .call call =>
    if admits c s.pc call then (s.server.step clib call).map fun server => ⟨server, s.pc⟩
    else none
  | .subscribe object =>
    match s.pc with
    | .notifying _ => none
    | _ => some (s.modify c (Channel.mapBase fun d => d.subscribe object))
  | .getValue io =>
    match s.pc with
    | .getValue => some { s.modify c fun channel => (channel.getValue io).2 with pc := .test }
    | _ => none
  | .test =>
    match s.pc with
    | .test => some { s with
        pc := if (s.server.channels c).base.isChanged then .update else .getValue }
    | _ => none
  | .lock =>
    match s.pc with
    | .update => some { s with pc := .notifying (s.server.channels c).base.subscribers }
    | _ => none
  | .notify sends t =>
    match s.pc with
    | .notifying (object :: rest) =>
      if object = subscriber then
        (s.server.update clib c (fun socketParam => (sends socketParam).1) t).map
          fun server => ⟨server, .notifying rest⟩
      else some { s with pc := .notifying rest }
    | _ => none
  | .unlock =>
    match s.pc with
    | .notifying [] => some { s.modify c (Channel.mapBase fun d => { d with isChanged := false })
        with pc := .getValue }
    | _ => none

/-- A server without clients, before a round. -/
def Start (s : PollState) : Prop :=
  s.server.clients = ∅ ∧ s.pc = .getValue

/-- The socket is in the map after the step. -/
def Keeps (clib : CLib) (c subscriber socketParam : ℕ) (s : PollState) (e : PollEvent) : Prop :=
  ∀ s', s.step clib c subscriber e = some s' → socketParam ∈ s'.server.clients

/-- After the first `n` sends through the socket, there was one of an update with the value that
the channel has. -/
def Informed (clib : CLib) (c socketParam n : ℕ) (s : PollState) : Prop :=
  ∃ x ∈ (s.server.sentTo socketParam).drop n, ∃ t,
    x.data = updateFrame clib t (s.server.fullName c) (s.server.channels c)

/-- A run in which the socket stays in the map and all steps meet `C`. -/
def Runs (clib : CLib) (c subscriber socketParam : ℕ) (C : PollState → PollEvent → Prop)
    (s : PollState) : PollState → Prop :=
  Reach (step clib c subscriber) (· = s) fun s e =>
    Keeps clib c subscriber socketParam s e ∧ C s e

/-- Among the steps of other threads, `addSubscribe` for the channel has run from one state to
the other, and the socket has stayed in the map. -/
def AddsSubscribe (clib : CLib) (c subscriber socketParam : ℕ) (s₀ s₁ : PollState) : Prop :=
  ∃ t s s', s₀.step clib c subscriber (.call (.insertSubscribeChannel socketParam c t)) = some s ∧
    Runs clib c subscriber socketParam (fun _ _ => True) s s' ∧
    s'.step clib c subscriber (.subscribe subscriber) = some s₁

/-- A step that ends a round over the channel. -/
def Ends (c : ℕ) (s : PollState) (e : PollEvent) : Prop :=
  (e = .test ∧ (s.server.channels c).base.isChanged = false) ∨ e = .unlock

/-- Once `addSubscribe` has returned and a round has been begun and ended after that, the socket,
if it has stayed in the map and is alive, has been sent an update with the value of the channel
in that round. The steps after the return meet `C`. -/
def NewcomersInformed (clib : CLib) (c subscriber : ℕ) (C : PollState → PollEvent → Prop) :
    Prop :=
  ∀ socketParam s₀ s₁ s₂ io s₃ s e s',
    Reach (step clib c subscriber) Start (fun _ _ => True) s₀ →
    AddsSubscribe clib c subscriber socketParam s₀ s₁ →
    Runs clib c subscriber socketParam C s₁ s₂ →
    C s₂ (.getValue io) → s₂.step clib c subscriber (.getValue io) = some s₃ →
    Runs clib c subscriber socketParam C s₃ s →
    Ends c s e → s.step clib c subscriber e = some s' → s'.server.isAlive socketParam = true →
    Informed clib c socketParam (s₀.server.sentTo socketParam).length s'

/-- If `isChanged` is down, a driver's reading for a `ReadWriteInt` is the value or not the old
value, and one for a `ReadWriteString` is the value. -/
def Notices (c : ℕ) (s : PollState) (e : PollEvent) : Prop :=
  ∀ io, e = .getValue io → (s.server.channels c).base.isChanged = false →
    match s.server.channels c with
    | .readWriteInt d => d.pfnRead ∧ d.driver → ∀ value,
        io.readInt d.channelNumber = some value → value = d.value ∨ value ≠ d.oldValue
    | .readWriteString d => d.pfnRead ∧ d.driver → ∀ value,
        io.readString d.channelNumber = some value → value = d.value
    | _ => True

end PollState

/-! ## What a channel keeps -/

namespace UntypedData

variable {d : UntypedData} {object object' : ℕ}

theorem isChanged_subscribe : (d.subscribe object).isChanged = true := by
  unfold subscribe
  split_ifs <;> rfl

theorem mem_subscribers_subscribe (h : object' ∈ d.subscribers) :
    object' ∈ (d.subscribe object).subscribers := by
  unfold subscribe
  split_ifs
  · exact h
  · exact List.mem_append_left _ h

theorem self_mem_subscribers_subscribe : object ∈ (d.subscribe object).subscribers := by
  unfold subscribe
  split_ifs with h
  · exact h
  · exact List.mem_append_right _ (List.mem_singleton_self _)

end UntypedData

namespace Channel

variable {c c' : Channel} {io : DriverIO}

theorem base_mapBase (f : UntypedData → UntypedData) (c : Channel) :
    (c.mapBase f).base = f c.base := by
  cases c <;> rfl

/-- The frames for two channels of one class with one value. -/
structure Shows (c c' : Channel) : Prop where
  accessMode : c'.accessMode = c.accessMode
  dataType : c'.dataType = c.dataType
  value : c'.value = c.value

theorem Shows.updateFrame_eq (h : c.Shows c') (clib : CLib) (t : ℤ) (channelName : Str) :
    updateFrame clib t channelName c' = updateFrame clib t channelName c := by
  unfold updateFrame
  rw [h.accessMode, h.dataType, h.value]

theorem shows_mapBase (f : UntypedData → UntypedData) (c : Channel) : c.Shows (c.mapBase f) := by
  cases c <;> exact ⟨rfl, rfl, rfl⟩

/-- What `getValue` leaves : the same subscribers, the flag up if it was, and the same value
unless the flag is up. -/
structure ReadTo (c c' : Channel) : Prop where
  subscribers : c'.base.subscribers = c.base.subscribers
  isChanged : c.base.isChanged = true → c'.base.isChanged = true
  shows : c'.base.isChanged = true ∨ c.Shows c'

theorem ReadTo.refl (c : Channel) : c.ReadTo c :=
  ⟨rfl, id, Or.inr ⟨rfl, rfl, rfl⟩⟩

theorem readTo_readOnlyInt (io : DriverIO) (d : ReadOnlyInt) :
    (readOnlyInt d).ReadTo (readOnlyInt (d.getValue io).2) := by
  unfold ReadOnlyInt.getValue
  split_ifs
  · exact ⟨rfl, fun _ => rfl, Or.inl rfl⟩
  · exact .refl _
  · cases io.readInt d.channelNumber with
    | none => exact .refl _
    | some value =>
      simp only
      split_ifs
      · exact ⟨rfl, fun _ => rfl, Or.inl rfl⟩
      · exact ⟨rfl, id, Or.inr ⟨rfl, rfl, rfl⟩⟩
  · exact .refl _

theorem readTo_readOnlyDouble (io : DriverIO) (d : ReadOnlyDouble) :
    (readOnlyDouble d).ReadTo (readOnlyDouble (d.getValue io).2) := by
  unfold ReadOnlyDouble.getValue
  split_ifs
  · cases io.readDouble d.channelNumber with
    | none => exact .refl _
    | some value =>
      simp only
      split_ifs
      · exact ⟨rfl, fun _ => rfl, Or.inl rfl⟩
      · exact ⟨rfl, id, Or.inr ⟨rfl, rfl, rfl⟩⟩
  · exact .refl _

theorem readTo_readOnlyString (io : DriverIO) (d : ReadOnlyString) :
    (readOnlyString d).ReadTo (readOnlyString (d.getValue io).2) := by
  unfold ReadOnlyString.getValue
  split_ifs
  · exact ⟨rfl, fun _ => rfl, Or.inl rfl⟩
  · exact .refl _
  · cases io.readString d.channelNumber with
    | none => exact .refl _
    | some value =>
      simp only
      split_ifs
      · exact ⟨rfl, fun _ => rfl, Or.inl rfl⟩
      · exact ⟨rfl, id, Or.inr ⟨rfl, rfl, rfl⟩⟩
  · exact .refl _

/-- A reading that is the value or not the old value. -/
theorem readTo_readWriteInt {d : ReadWriteInt} (h : d.isChanged = false → d.pfnRead ∧ d.driver →
    ∀ value, io.readInt d.channelNumber = some value → value = d.value ∨ value ≠ d.oldValue) :
    (readWriteInt d).ReadTo (readWriteInt (d.getValue io).2) := by
  unfold ReadWriteInt.getValue
  split_ifs with hdriver hnew
  · cases hread : io.readInt d.channelNumber with
    | none => exact .refl _
    | some value =>
      simp only
      split_ifs with hold
      · exact ⟨rfl, fun _ => rfl, Or.inl rfl⟩
      · refine ⟨rfl, id, ?_⟩
        cases hflag : d.isChanged with
        | true => exact Or.inl hflag
        | false =>
          have hvalue := (h hflag hdriver value hread).resolve_right hold
          exact Or.inr ⟨rfl, rfl, congrArg Datum.int hvalue⟩
  · exact ⟨rfl, fun _ => rfl, Or.inl rfl⟩
  · exact .refl _

/-- A reading that is the value. -/
theorem readTo_readWriteString {d : ReadWriteString} (h : d.isChanged = false →
    d.pfnRead ∧ d.driver → ∀ value, io.readString d.channelNumber = some value → value = d.value) :
    (readWriteString d).ReadTo (readWriteString (d.getValue io).2) := by
  unfold ReadWriteString.getValue
  split_ifs with hdriver hnew
  · cases hread : io.readString d.channelNumber with
    | none => exact .refl _
    | some value =>
      refine ⟨rfl, id, ?_⟩
      cases hflag : d.isChanged with
      | true => exact Or.inl hflag
      | false => exact Or.inr ⟨rfl, rfl, congrArg Datum.string (h hflag hdriver value hread)⟩
  · exact ⟨rfl, fun _ => rfl, Or.inl rfl⟩
  · exact .refl _

end Channel

namespace PollState

variable {c : ℕ} {s : PollState} {io : DriverIO}

/-- Where a change is noticed, the value stays or the flag goes up. -/
theorem Notices.readTo (h : Notices c s (.getValue io)) :
    (s.server.channels c).ReadTo ((s.server.channels c).getValue io).2 := by
  have hnotices := h io rfl
  generalize s.server.channels c = channel at hnotices
  cases channel with
  | readOnlyInt d => exact Channel.readTo_readOnlyInt io d
  | readOnlyDouble d => exact Channel.readTo_readOnlyDouble io d
  | readOnlyString d => exact Channel.readTo_readOnlyString io d
  | readWriteInt d => exact Channel.readTo_readWriteInt hnotices
  | readWriteDouble d => exact .refl _
  | readWriteString d => exact Channel.readTo_readWriteString hnotices

end PollState

/-! ## What the steps keep -/

namespace PollState

variable {clib : CLib} {c subscriber socketParam n : ℕ} {s s' : PollState} {e : PollEvent}

theorem Informed.of_shows (h : s.Informed clib c socketParam n)
    (hsent : s.server.sentTo socketParam <+: s'.server.sentTo socketParam)
    (hname : s'.server.fullName c = s.server.fullName c)
    (hshows : (s.server.channels c).Shows (s'.server.channels c)) :
    s'.Informed clib c socketParam n := by
  obtain ⟨x, hx, t, hdata⟩ := h
  obtain ⟨l, hl⟩ := hsent
  refine ⟨x, ?_, t, ?_⟩
  · rw [← hl, List.drop_append]
    exact List.mem_append_left _ hx
  · rw [hdata, hname, hshows.updateFrame_eq]

/-- After the first section : the channel is recorded, and no more was sent before. -/
structure Inserted (c socketParam n : ℕ) (s : PollState) : Prop where
  records : s.server.clients.Records socketParam c
  sent : n ≤ (s.server.sentTo socketParam).length

/-- What a step does to the server : the names stay, what was sent stays, a socket that stays
in the map keeps its channels, and a dead one stays dead. -/
structure Advances (c socketParam : ℕ) (s s' : PollState) : Prop where
  fullName : s'.server.fullName = s.server.fullName
  sentTo : s.server.sentTo socketParam <+: s'.server.sentTo socketParam
  records : s.server.clients.Records socketParam c → socketParam ∈ s'.server.clients →
    s'.server.clients.Records socketParam c
  isAlive : s'.server.isAlive socketParam = true → s.server.isAlive socketParam = true

theorem advances_server {call : PublishCall}
    (h : s.server.step clib call = some s'.server)
    (hcall : ∀ socketParam, call ≠ .setAlive socketParam true) :
    Advances c socketParam s s' where
  fullName := by rw [Publisher.fullName_step h]
  sentTo := Publisher.sentTo_step h socketParam
  records hrecords hmem := (Publisher.records_step h).2
    (Or.inr ⟨hrecords, fun hremoves => Publisher.notMem_of_removes h hremoves hmem⟩)
  isAlive := Publisher.isAlive_step h hcall

/-- A step that leaves the server as it is, its channels apart. -/
theorem advances_of_eq (h : ∃ channels, s'.server = { s.server with channels := channels }) :
    Advances c socketParam s s' := by
  obtain ⟨channels, h⟩ := h
  refine ⟨by rw [h], ?_, fun hrecords _ => ?_, fun halive => ?_⟩
  · rw [h]
    exact List.prefix_refl _
  · rw [h]
    exact hrecords
  · rwa [h] at halive

theorem step_call {call : PublishCall} (h : s.step clib c subscriber (.call call) = some s') :
    admits c s.pc call = true ∧ s.server.step clib call = some s'.server ∧ s'.pc = s.pc := by
  rw [step] at h
  split_ifs at h with hadmits
  obtain ⟨server, hserver, rfl⟩ := Option.map_eq_some_iff.1 h
  exact ⟨hadmits, hserver, rfl⟩

theorem step_subscribe {object : ℕ}
    (h : s.step clib c subscriber (.subscribe object) = some s') :
    (∀ rest, s.pc ≠ .notifying rest) ∧
      s' = s.modify c (Channel.mapBase fun d => d.subscribe object) := by
  rw [step] at h
  split at h
  · cases h
  · next hpc => exact ⟨hpc, (Option.some.inj h).symm⟩

theorem step_getValue {io : DriverIO} (h : s.step clib c subscriber (.getValue io) = some s') :
    s.pc = .getValue ∧
      s' = { s.modify c fun channel => (channel.getValue io).2 with pc := .test } := by
  rw [step] at h
  split at h
  · next hpc => exact ⟨hpc, (Option.some.inj h).symm⟩
  · cases h

theorem step_test (h : s.step clib c subscriber .test = some s') : s.pc = .test ∧ s' = { s with
    pc := if (s.server.channels c).base.isChanged then .update else .getValue } := by
  rw [step] at h
  split at h
  · next hpc => exact ⟨hpc, (Option.some.inj h).symm⟩
  · cases h

theorem step_lock (h : s.step clib c subscriber .lock = some s') :
    s' = { s with pc := .notifying (s.server.channels c).base.subscribers } := by
  rw [step] at h
  split at h
  · exact (Option.some.inj h).symm
  · cases h

theorem step_notify {sends : ℕ → {e : SendEvent // e ≠ .noHandle}} {t : ℕ → ℤ}
    (h : s.step clib c subscriber (.notify sends t) = some s') :
    ∃ object rest, s.pc = .notifying (object :: rest) ∧ s'.pc = .notifying rest ∧
      (object = subscriber ∧ s.server.update clib c (fun socketParam => (sends socketParam).1) t =
        some s'.server ∨ object ≠ subscriber ∧ s'.server = s.server) := by
  rw [step] at h
  split at h
  · next object rest hpc =>
    split_ifs at h with hobject
    · obtain ⟨server, hserver, rfl⟩ := Option.map_eq_some_iff.1 h
      exact ⟨object, rest, hpc, rfl, Or.inl ⟨hobject, hserver⟩⟩
    · rw [← Option.some.inj h]
      exact ⟨object, rest, hpc, rfl, Or.inr ⟨hobject, rfl⟩⟩
  · cases h

theorem step_unlock (h : s.step clib c subscriber .unlock = some s') :
    s.pc = .notifying [] ∧ s' = { s.modify c (Channel.mapBase fun d =>
      { d with isChanged := false }) with pc := .getValue } := by
  rw [step] at h
  split at h
  · next hpc => exact ⟨hpc, (Option.some.inj h).symm⟩
  · cases h

theorem advances (h : s.step clib c subscriber e = some s') : Advances c socketParam s s' := by
  cases e with
  | call call =>
    obtain ⟨hadmits, hserver, -⟩ := step_call h
    refine advances_server hserver fun socketParam => ?_
    rintro rfl
    cases hadmits
  | subscribe object =>
    rw [(step_subscribe h).2]
    exact advances_of_eq ⟨_, rfl⟩
  | getValue io =>
    rw [(step_getValue h).2]
    exact advances_of_eq ⟨_, rfl⟩
  | test =>
    rw [(step_test h).2]
    exact advances_of_eq ⟨_, rfl⟩
  | lock =>
    rw [step_lock h]
    exact advances_of_eq ⟨_, rfl⟩
  | notify sends t =>
    obtain ⟨object, rest, -, -, ⟨-, hserver⟩ | ⟨-, heq⟩⟩ := step_notify h
    · exact @advances_server _ _ _ _ _ (.update c _ t) hserver fun socketParam => nofun
    · exact advances_of_eq ⟨_, heq⟩
  | unlock =>
    rw [(step_unlock h).2]
    exact advances_of_eq ⟨_, rfl⟩

theorem Inserted.advance (h : s.Inserted c socketParam n) (hadvances : Advances c socketParam s s')
    (hmem : socketParam ∈ s'.server.clients) : s'.Inserted c socketParam n :=
  ⟨hadvances.records h.records hmem, h.sent.trans hadvances.sentTo.length_le⟩

/-- The server is still to be notified of the channel. -/
def Awaits (c subscriber : ℕ) (s : PollState) : Prop :=
  match s.pc with
  | .notifying rest => subscriber ∈ rest
  | _ => (s.server.channels c).base.isChanged = true

/-- After the second section : the server is a subscriber of the channel, and the socket, if it is
alive, has been sent the value or is going to be. -/
structure Pending (clib : CLib) (c subscriber socketParam n : ℕ) (s : PollState) : Prop
    extends Inserted c socketParam n s where
  subscribed : subscriber ∈ (s.server.channels c).base.subscribers
  told : s.server.isAlive socketParam = true →
    s.Awaits c subscriber ∨ s.Informed clib c socketParam n

theorem channels_modify (s : PollState) (c : ℕ) (f : Channel → Channel) :
    (s.modify c f).server.channels c = f (s.server.channels c) :=
  Function.update_self _ _ _

theorem awaits_of_isChanged (hpc : ∀ rest, s.pc ≠ .notifying rest)
    (h : (s.server.channels c).base.isChanged = true) : s.Awaits c subscriber := by
  unfold Awaits
  split
  · next rest heq => exact absurd heq (hpc rest)
  · exact h

/-- A step after which the server is to be notified, or which takes back no notification that is
to come and leaves the value as it is. -/
theorem Pending.move (h : s.Pending clib c subscriber socketParam n)
    (hadvances : Advances c socketParam s s') (hmem : socketParam ∈ s'.server.clients)
    (hsubscribed : subscriber ∈ (s'.server.channels c).base.subscribers)
    (hnext : s'.Awaits c subscriber ∨ (s.Awaits c subscriber → s'.Awaits c subscriber) ∧
      (s.server.channels c).Shows (s'.server.channels c)) :
    s'.Pending clib c subscriber socketParam n := by
  refine ⟨h.toInserted.advance hadvances hmem, hsubscribed, fun halive => ?_⟩
  rcases hnext with hawaits | ⟨hawaits, hshows⟩
  · exact Or.inl hawaits
  · refine (h.told (hadvances.isAlive halive)).imp hawaits fun hinformed => ?_
    exact hinformed.of_shows hadvances.sentTo (by rw [hadvances.fullName]) hshows

/-- The server is notified of the channel. -/
theorem Pending.notified (h : s.Pending clib c subscriber socketParam n)
    (hadvances : Advances c socketParam s s') (hmem : socketParam ∈ s'.server.clients)
    {sends : ℕ → {e : SendEvent // e ≠ .noHandle}} {t : ℕ → ℤ}
    (hserver : s.server.update clib c (fun socketParam => (sends socketParam).1) t =
      some s'.server) : s'.Pending clib c subscriber socketParam n := by
  obtain ⟨hsame, hleaves⟩ := Publisher.update_spec hserver
  have hchannels : s'.server.channels = s.server.channels := by rw [hsame]
  refine ⟨h.toInserted.advance hadvances hmem, hchannels ▸ h.subscribed, fun halive => Or.inr ?_⟩
  have hsent := (hleaves socketParam).sent ⟨hadvances.isAlive halive, h.records⟩
  rw [Publisher.sendings, if_neg (sends socketParam).2] at hsent
  refine ⟨⟨socketParam, updateFrame clib (t socketParam) (s.server.fullName c)
    (s.server.channels c), (sends socketParam).1⟩, ?_, t socketParam, ?_⟩
  · rw [hsent, List.drop_append_of_le_length h.sent]
    exact List.mem_append_right _ (List.mem_singleton_self _)
  · rw [hadvances.fullName, hchannels]

theorem Pending.step (h : s.Pending clib c subscriber socketParam n)
    (hkeeps : Keeps clib c subscriber socketParam s e) (hnotices : Notices c s e)
    (hstep : s.step clib c subscriber e = some s') :
    s'.Pending clib c subscriber socketParam n := by
  have hadvances := @advances clib c subscriber socketParam s s' e hstep
  have hmem := hkeeps s' hstep
  have hsubscribed := h.subscribed
  cases e with
  | call call =>
    obtain ⟨hadmits, hserver, hpc⟩ := step_call hstep
    have hchannel : s'.server.channels c = s.server.channels c := by
      refine Publisher.channels_step hserver fun channel => ?_
      rintro rfl
      simp [admits] at hadmits
    refine h.move hadvances hmem (hchannel ▸ hsubscribed) (Or.inr ⟨fun hawaits => ?_, ?_⟩)
    · rwa [Awaits, hpc, hchannel]
    · rw [hchannel]
      exact ⟨rfl, rfl, rfl⟩
  | subscribe object =>
    obtain ⟨hpc, rfl⟩ := step_subscribe hstep
    have hbase : ((s.modify c (Channel.mapBase fun d => d.subscribe object)).server.channels
        c).base = (s.server.channels c).base.subscribe object := by
      rw [channels_modify, Channel.base_mapBase]
    refine h.move hadvances hmem ?_ (Or.inl ?_)
    · rw [hbase]
      exact UntypedData.mem_subscribers_subscribe hsubscribed
    · exact awaits_of_isChanged hpc (by rw [hbase, UntypedData.isChanged_subscribe])
  | getValue io =>
    have hreadTo := hnotices.readTo
    obtain ⟨hpc, rfl⟩ := step_getValue hstep
    rw [← channels_modify s c fun channel => (channel.getValue io).2] at hreadTo
    have hup := fun h => @awaits_of_isChanged c subscriber
      { s.modify c fun channel => (channel.getValue io).2 with pc := .test } (by simp) h
    refine h.move hadvances hmem (hreadTo.subscribers ▸ hsubscribed) ?_
    refine hreadTo.shows.imp hup fun hshows => ⟨fun hawaits => hup (hreadTo.isChanged ?_), hshows⟩
    rwa [Awaits, hpc] at hawaits
  | test =>
    obtain ⟨hpc, rfl⟩ := step_test hstep
    refine h.move hadvances hmem hsubscribed (Or.inr ⟨fun hawaits => ?_, ⟨rfl, rfl, rfl⟩⟩)
    rw [Awaits, hpc] at hawaits
    simp [Awaits, hawaits]
  | lock =>
    obtain rfl := step_lock hstep
    exact h.move hadvances hmem hsubscribed (Or.inl hsubscribed)
  | notify sends t =>
    obtain ⟨object, rest, hpc, hpc', ⟨-, hserver⟩ | ⟨hobject, heq⟩⟩ := step_notify hstep
    · exact h.notified hadvances hmem hserver
    · refine h.move hadvances hmem (heq ▸ hsubscribed) (Or.inr ⟨fun hawaits => ?_, ?_⟩)
      · rw [Awaits, hpc] at hawaits
        rw [Awaits, hpc']
        exact (List.mem_cons.1 hawaits).resolve_left (Ne.symm hobject)
      · rw [heq]
        exact ⟨rfl, rfl, rfl⟩
  | unlock =>
    obtain ⟨hpc, rfl⟩ := step_unlock hstep
    refine h.move hadvances hmem ?_ (Or.inr ⟨fun hawaits => ?_, ?_⟩)
    · simpa [channels_modify, Channel.base_mapBase] using hsubscribed
    · -- all subscribers have been notified
      rw [Awaits, hpc] at hawaits
      exact absurd hawaits List.not_mem_nil
    · simpa [channels_modify] using Channel.shows_mapBase _ _

/-- A round ends when the server has been notified, or need not be. -/
theorem Pending.ends (h : s.Pending clib c subscriber socketParam n) (hends : Ends c s e)
    (hstep : s.step clib c subscriber e = some s')
    (halive : s'.server.isAlive socketParam = true) : s'.Informed clib c socketParam n := by
  have hadvances := @advances clib c subscriber socketParam s s' e hstep
  have htold := h.told (hadvances.isAlive halive)
  have hinformed : s.Informed clib c socketParam n ∧
      (s.server.channels c).Shows (s'.server.channels c) := by
    rcases hends with ⟨rfl, hflag⟩ | rfl
    · obtain ⟨hpc, rfl⟩ := step_test hstep
      rw [Awaits, hpc] at htold
      exact ⟨htold.resolve_left (by simp [hflag]), ⟨rfl, rfl, rfl⟩⟩
    · obtain ⟨hpc, rfl⟩ := step_unlock hstep
      rw [Awaits, hpc] at htold
      refine ⟨htold.resolve_left List.not_mem_nil, ?_⟩
      simpa [channels_modify] using Channel.shows_mapBase _ _
  exact hinformed.1.of_shows hadvances.sentTo (by rw [hadvances.fullName]) hinformed.2

/-- When `addSubscribe` has returned, a notification is to come. -/
theorem pending_of_addsSubscribe {s₀ s₁ : PollState}
    (h : AddsSubscribe clib c subscriber socketParam s₀ s₁) :
    s₁.Pending clib c subscriber socketParam (s₀.server.sentTo socketParam).length := by
  obtain ⟨t, s, s', hinsert, hrun, hsubscribe⟩ := h
  obtain ⟨-, hserver, -⟩ := step_call hinsert
  -- the first section records the channel
  have hinserted : s.Inserted c socketParam (s₀.server.sentTo socketParam).length :=
    ⟨(Publisher.records_step hserver).2 (Or.inl ⟨t, rfl⟩),
      (Publisher.sentTo_step hserver socketParam).length_le⟩
  have hkept : s'.Inserted c socketParam (s₀.server.sentTo socketParam).length :=
    hrun.invariant (fun s₁ hs₁ => hs₁ ▸ hinserted)
      fun s e s' h hkeeps hstep => h.advance (advances hstep) (hkeeps.1 s' hstep)
  -- the second one raises the flag
  obtain ⟨hpc, rfl⟩ := step_subscribe hsubscribe
  have hbase : ((s'.modify c (Channel.mapBase fun d => d.subscribe subscriber)).server.channels
      c).base = (s'.server.channels c).base.subscribe subscriber := by
    rw [channels_modify, Channel.base_mapBase]
  refine ⟨⟨hkept.records, hkept.sent⟩, ?_, fun _ => Or.inl (awaits_of_isChanged hpc ?_)⟩
  · rw [hbase]
    exact UntypedData.self_mem_subscribers_subscribe
  · rw [hbase, UntypedData.isChanged_subscribe]

/-- New subscribers. In every run whose calls of `getValue` after the return notice the changes
of the value, a new subscriber is informed. -/
theorem newcomersInformed (clib : CLib) (c subscriber : ℕ) :
    NewcomersInformed clib c subscriber (Notices c) := by
  intro socketParam s₀ s₁ s₂ io s₃ s e s' _ hadds hrun hnotices hread hrun' hends hstep halive
  have hpending : ∀ {s s'}, s.Pending clib c subscriber socketParam
      (s₀.server.sentTo socketParam).length →
      Runs clib c subscriber socketParam (Notices c) s s' →
      s'.Pending clib c subscriber socketParam (s₀.server.sentTo socketParam).length :=
    fun h hrun => hrun.invariant (fun s₁ hs₁ => hs₁ ▸ h)
      fun s e s' h hC hstep => h.step hC.1 hC.2 hstep
  have h₂ := hpending (pending_of_addsSubscribe hadds) hrun
  have hkeeps : Keeps clib c subscriber socketParam s₂ (.getValue io) := by
    intro s hs
    obtain ⟨channels, hget, -⟩ := h₂.records
    rw [(step_getValue hs).2]
    exact Std.TreeMap.mem_iff_isSome_getElem?.2 (by rw [modify, hget, Option.isSome_some])
  exact (hpending (h₂.step hkeeps hnotices hread) hrun').ends hends hstep halive

/-- A server with a channel `/a` that a driver is bound to, before a round. -/
def state_a : PollState where
  server := .new .windows true (fun _ => "/a".toList)
    (fun _ => .readWriteInt PolledChannel.boundInt) fun _ => true
  pc := .getValue

/-- The driver reads this value. -/
def reads (value : ℤ) : PollEvent :=
  .getValue (PolledChannel.answering PolledChannel.noDriver value)

/-- A run in which the driver reads 1 before `addSubscribe` and 0 after it, and the round that is
under way delivers the 1. -/
def events_a : List PollEvent :=
  [reads 1, .test, .call (.insertSubscribeChannel 1 0 0), .subscribe 0, .lock,
    .notify (fun _ => ⟨.accepted 15, nofun⟩) fun _ => 0, .unlock, reads 0, .test]

/-- The state after the first steps of the run. -/
def after (n : ℕ) : PollState :=
  ((events_a.take n).foldlM (step Update.clib_zero 0 0) state_a).getD state_a

theorem Runs.next {C : PollState → PollEvent → Prop} {s'' : PollState}
    (h : Runs clib c subscriber socketParam C s s') (hC : C s' e)
    (hstep : s'.step clib c subscriber e = some s'') (hmem : socketParam ∈ s''.server.clients) :
    Runs clib c subscriber socketParam C s s'' := by
  refine Reach.next h ⟨fun t ht => ?_, hC⟩ hstep
  rwa [← Option.some.inj (hstep.symm.trans ht)]

theorem not_newcomersInformed_of_returning :
    ¬∀ clib c subscriber, NewcomersInformed clib c subscriber fun _ _ => True := by
  intro h
  have h₂ : Reach (step Update.clib_zero 0 0) Start (fun _ _ => True) (after 2) :=
    ((Reach.start ⟨rfl, rfl⟩ : Reach _ _ _ (after 0)).next (e := reads 1) trivial rfl).next
      (e := .test) trivial rfl
  have h₃ : AddsSubscribe Update.clib_zero 0 0 1 (after 2) (after 4) :=
    ⟨0, after 3, after 3, rfl, .start rfl, rfl⟩
  have h₄ : Runs Update.clib_zero 0 0 1 (fun _ _ => True) (after 4) (after 4) := .start rfl
  have h₅ : Runs Update.clib_zero 0 0 1 (fun _ _ => True) (after 4) (after 5) :=
    h₄.next (e := .lock) trivial rfl (by decide)
  have h₆ : Runs Update.clib_zero 0 0 1 (fun _ _ => True) (after 4) (after 6) :=
    h₅.next (e := .notify (fun _ => ⟨.accepted 15, nofun⟩) fun _ => 0) trivial rfl (by decide)
  have h₇ : Runs Update.clib_zero 0 0 1 (fun _ _ => True) (after 4) (after 7) :=
    h₆.next (e := .unlock) trivial rfl (by decide)
  obtain ⟨x, hx, t, hdata⟩ := h Update.clib_zero 0 0 1 _ _ _ _ (after 8) _ .test (after 9) h₂ h₃ h₇
    trivial (show (after 7).step Update.clib_zero 0 0 (reads 0) = some (after 8) from rfl)
    (.start rfl) (Or.inl ⟨rfl, rfl⟩) rfl rfl
  have hone : x.data = "Update:/a:W:I:1:0;".toList := by
    obtain rfl := List.mem_singleton.1 (show x ∈ [⟨1, "Update:/a:W:I:1:0;".toList, _⟩] from hx)
    rfl
  have hvalue : some '1' = some '0' := congrArg (·[14]?) (hone.symm.trans hdata)
  exact absurd hvalue (by decide)

end PollState

end Ick
