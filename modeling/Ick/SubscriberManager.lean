import Ick.Registry
import Ick.SubscriberClient

/-!
# The subscriber manager

`IckStormSubscriberManager` keeps what a client has subscribed : in `m_callbacks` the functions
and in `m_subscriberCallBack` the `Subscriber` objects of each name. Both maps are registries
whose keys are the names with dashes for their slashes (`channelPath`), so `/a-b` and `/a/b`
have one key.

`getSubscriberCallBackList` looks for the channel and, if nothing has its key, for its folder.
It returns the functions of the channel, or else of its folder, exactly as long as no other name
is taken for one of the two (`delivered_iff`). `getSubscriberList` does not look for the folder,
so a `Subscriber` of a folder is not notified where a function is called (`seesAlike_iff`).

The bytes of a name are copied with an `int` for the position, in `subscriber` and in both
functions that look a name up. The names of this file have less than `2 ^ 31` bytes, where the
`int` does not overflow.
-/

namespace Ick

/-- The members of `IckStormSubscriberManager` that `subscriber` reads or writes : the channels
that the socket asks for, `none` if it is `NULL`, and the two maps. -/
structure IckStormSubscriberManager where
  subscriberSocket : Option SubscribeChannels
  callbacks : Registry Str ℕ
  subscriberCallBack : Registry Str ℕ

/-- What is subscribed to a channel. -/
inductive Recipient
  | callback (f : ℕ)
  | subscriber (s : ℕ)
  deriving DecidableEq

namespace IckStormSubscriberManager

/-- The key of a name. It is read back from a C string, which ends at the first NUL. -/
def channelPath (channelName : Str) : Str :=
  (dashed channelName).takeWhile (· ≠ '\x00')

/-- `subscriber` for a function, with what it returns. It ends without a `return` unless the
socket is `NULL`. -/
def subscriber (m : IckStormSubscriberManager) (channelName : Str) (callback : Option ℕ) :
    Option Bool × IckStormSubscriberManager :=
  match m.subscriberSocket with
  | none => (some false, m)
  | some channels =>
    (none, { m with
      subscriberSocket := some (channels.subscribe channelName)
      callbacks := match callback with
        | some f => m.callbacks.enlist (channelPath channelName) f
        | none => m.callbacks })

/-- `subscriber` for a `Subscriber` object, with what it returns. -/
def subscriberObject (m : IckStormSubscriberManager) (channelName : Str)
    (subscriber : Option ℕ) : Bool × IckStormSubscriberManager :=
  match m.subscriberSocket with
  | none => (false, m)
  | some channels =>
    (true, { m with
      subscriberSocket := some (channels.subscribe channelName)
      subscriberCallBack := match subscriber with
        | some s => m.subscriberCallBack.enlist (channelPath channelName) s
        | none => m.subscriberCallBack })

/-- A manager with a socket, to which nothing is subscribed. -/
def connected (channels : SubscribeChannels) : IckStormSubscriberManager where
  subscriberSocket := some channels
  callbacks := ∅
  subscriberCallBack := ∅

/-- One call of `subscriber`. -/
def enroll (m : IckStormSubscriberManager) : Str × Recipient → IckStormSubscriberManager
  | (channelName, .callback f) => (m.subscriber channelName (some f)).2
  | (channelName, .subscriber s) => (m.subscriberObject channelName (some s)).2

/-- A list of calls of `subscriber`. -/
def enrollAll (m : IckStormSubscriberManager) (calls : List (Str × Recipient)) :
    IckStormSubscriberManager :=
  calls.foldl enroll m

/-- The client with this manager. -/
def world (m : IckStormSubscriberManager) (world : ClientWorld) : ClientWorld :=
  { world with callbacks := m.callbacks, subscriberCallBack := m.subscriberCallBack }

/-- The functions that the calls have subscribed, with their names. -/
def callbacksOf (calls : List (Str × Recipient)) : List (Str × ℕ) :=
  calls.filterMap fun
    | (channelName, .callback f) => some (channelName, f)
    | (_, .subscriber _) => none

/-- The `Subscriber` objects that the calls have subscribed, with their names. -/
def subscribersOf (calls : List (Str × Recipient)) : List (Str × ℕ) :=
  calls.filterMap fun
    | (_, .callback _) => none
    | (channelName, .subscriber s) => some (channelName, s)

variable {calls : List (Str × Recipient)} {channels : SubscribeChannels} {c n : Str} {f s : ℕ}

theorem mem_callbacksOf : (n, f) ∈ callbacksOf calls ↔ (n, .callback f) ∈ calls := by
  unfold callbacksOf
  rw [List.mem_filterMap]
  constructor
  · rintro ⟨⟨n', _ | _⟩, hmem, heq⟩ <;> simp_all
  · exact fun h => ⟨_, h, rfl⟩

theorem mem_subscribersOf : (n, s) ∈ subscribersOf calls ↔ (n, .subscriber s) ∈ calls := by
  unfold subscribersOf
  rw [List.mem_filterMap]
  constructor
  · rintro ⟨⟨n', _ | _⟩, hmem, heq⟩ <;> simp_all
  · exact fun h => ⟨_, h, rfl⟩

theorem enrollAll_snoc (m : IckStormSubscriberManager) (calls : List (Str × Recipient))
    (call : Str × Recipient) :
    m.enrollAll (calls ++ [call]) = (m.enrollAll calls).enroll call := by
  simp [enrollAll]

/-- The two maps are the registries of the two kinds of calls. -/
theorem enrollAll_connected (channels : SubscribeChannels) (calls : List (Str × Recipient)) :
    ∃ channels', (connected channels).enrollAll calls =
      ⟨some channels', .of channelPath (callbacksOf calls),
        .of channelPath (subscribersOf calls)⟩ := by
  induction calls using List.reverseRecOn with
  | nil => exact ⟨channels, rfl⟩
  | append_singleton calls call ih =>
    obtain ⟨channels', ih⟩ := ih
    obtain ⟨name, recipient⟩ := call
    refine ⟨channels'.subscribe name, ?_⟩
    rw [enrollAll_snoc, ih]
    cases recipient with
    | callback f =>
      simp [enroll, subscriber, callbacksOf, subscribersOf, Registry.of_snoc]
    | subscriber s =>
      simp [enroll, subscriberObject, callbacksOf, subscribersOf, Registry.of_snoc]

/-- The channel's name up to its last slash. -/
def nodeName (channelName : Str) : Str :=
  channelName.rdropWhile (· ≠ '/')

theorem getSubscriberCallBackList_eq (world : ClientWorld) (c : Str) :
    world.getSubscriberCallBackList c = world.callbacks[channelPath c]?.getD
      (world.callbacks.getD (dashed (nodeName c)) []) := by
  unfold ClientWorld.getSubscriberCallBackList channelPath nodeName
  split
  next h => rw [h]; rfl
  next h => rw [h]; rfl

/-- What `getSubscriberCallBackList` returns after a list of calls. -/
theorem getSubscriberCallBackList_enrollAll (world : ClientWorld) (c : Str) :
    (((connected channels).enrollAll calls).world world).getSubscriberCallBackList c =
      if listedFor (channelPath · = channelPath c) (callbacksOf calls) = [] then
        listedFor (channelPath · = dashed (nodeName c)) (callbacksOf calls)
      else listedFor (channelPath · = channelPath c) (callbacksOf calls) := by
  obtain ⟨channels', h⟩ := enrollAll_connected channels calls
  rw [h, ← Registry.getD_of channelPath _ (dashed (nodeName c))]
  have hget := Registry.getElem?_of channelPath (callbacksOf calls) (channelPath c)
  rw [getSubscriberCallBackList_eq]
  simp only [IckStormSubscriberManager.world, hget]
  split_ifs <;> rfl

/-- What `getSubscriberList` returns after a list of calls. -/
theorem getSubscriberList_enrollAll (world : ClientWorld) (c : Str) :
    (((connected channels).enrollAll calls).world world).getSubscriberList c =
      listedFor (channelPath · = channelPath c) (subscribersOf calls) := by
  obtain ⟨channels', h⟩ := enrollAll_connected channels calls
  rw [h]
  exact Registry.getD_of channelPath _ _

/-! ## Exact delivery -/

/-- The folder of a channel, if its name has a slash. -/
def folder (channelName : Str) : Option Str :=
  if '/' ∈ channelName then some (nodeName channelName) else none

/-- The functions registered under the channel's name if there are any, else those registered
under its folder. -/
def registeredFor (entries : List (Str × ℕ)) (c : Str) : List ℕ :=
  if listedFor (· = c) entries = [] then listedFor (folder c = some ·) entries
  else listedFor (· = c) entries

/-- No other name is taken for the channel, if the channel is registered, and else none for its
folder; or, where one is taken for the channel, its functions happen to be those of the
folder. -/
def Unmistaken (entries : List (Str × ℕ)) (c : Str) : Prop :=
  if ∃ e ∈ entries, e.1 = c then ∀ e ∈ entries, channelPath e.1 = channelPath c → e.1 = c
  else if ∃ e ∈ entries, channelPath e.1 = channelPath c then
    listedFor (channelPath · = channelPath c) entries = listedFor (folder c = some ·) entries
  else ∀ e ∈ entries, channelPath e.1 = dashed (nodeName c) ↔ folder c = some e.1

theorem nul_notMem_channelPath (n : Str) : '\x00' ∉ channelPath n := by
  intro h
  simpa using List.mem_takeWhile_imp h

theorem channelPath_of_notMem (h : '\x00' ∉ dashed n) : channelPath n = dashed n :=
  List.takeWhile_eq_self_iff.2 fun a ha => by
    simpa using fun heq : a = '\x00' => h (heq ▸ ha)

/-- A folder is found under its own name, unless its name has a NUL and nothing is found. -/
theorem folder_found (c : Str) :
    (∀ n, folder c = some n → channelPath n = dashed (nodeName c)) ∨
      ∀ n, channelPath n ≠ dashed (nodeName c) := by
  by_cases hnul : '\x00' ∈ dashed (nodeName c)
  · exact Or.inr fun n hn => nul_notMem_channelPath n (hn ▸ hnul)
  · refine Or.inl fun n hn => ?_
    unfold folder at hn
    split_ifs at hn
    obtain rfl := Option.some.inj hn
    exact channelPath_of_notMem hnul

theorem listedFor_folder_iff (entries : List (Str × ℕ)) (c : Str) :
    listedFor (channelPath · = dashed (nodeName c)) entries =
        listedFor (folder c = some ·) entries ↔
      ∀ e ∈ entries, channelPath e.1 = dashed (nodeName c) ↔ folder c = some e.1 := by
  rcases folder_found c with hfound | hnone
  · rw [listedFor_eq_iff hfound]
    exact forall₂_congr fun e _ => ⟨fun h => ⟨h, hfound _⟩, Iff.mp⟩
  · rw [listedFor_eq_nil.2 fun e _ => hnone e.1, eq_comm, listedFor_eq_nil]
    exact forall₂_congr fun e _ => (iff_false_left (hnone e.1)).symm

/-- Exact delivery. After any calls of `subscriber`, `getSubscriberCallBackList` returns for a
channel the functions registered under its name, or if there are none those registered under its
folder, exactly when no other name is mistaken for one of the two. -/
theorem delivered_iff (channels : SubscribeChannels) (calls : List (Str × Recipient))
    (world : ClientWorld) (c : Str) :
    (((connected channels).enrollAll calls).world world).getSubscriberCallBackList c =
        registeredFor (callbacksOf calls) c ↔
      Unmistaken (callbacksOf calls) c := by
  rw [getSubscriberCallBackList_enrollAll, registeredFor, Unmistaken]
  generalize callbacksOf calls = entries
  by_cases hown : ∃ e ∈ entries, e.1 = c
  · obtain ⟨e, he, heq⟩ := id hown
    rw [if_neg fun h => listedFor_eq_nil.1 h e he (congrArg channelPath heq),
      if_neg fun h => listedFor_eq_nil.1 h e he heq, if_pos hown]
    exact listedFor_eq_iff fun n hn => congrArg channelPath hn
  · have hnone : listedFor (· = c) entries = [] :=
      listedFor_eq_nil.2 fun e he heq => hown ⟨e, he, heq⟩
    rw [if_pos hnone, if_neg hown]
    by_cases hpath : ∃ e ∈ entries, channelPath e.1 = channelPath c
    · obtain ⟨e, he, heq⟩ := id hpath
      rw [if_neg fun h => listedFor_eq_nil.1 h e he heq, if_pos hpath]
    · rw [if_pos (listedFor_eq_nil.2 fun e he heq => hpath ⟨e, he, heq⟩), if_neg hpath]
      exact listedFor_folder_iff entries c

/-- A function that was registered under `/a-b` is called for `/a/b`. -/
theorem not_delivered_of_dashed : ¬∀ channels calls world c,
    (((connected channels).enrollAll calls).world world).getSubscriberCallBackList c =
      registeredFor (callbacksOf calls) c := by
  intro h
  have hlist := h ∅ [("/a-b".toList, .callback 0)] .quiet "/a/b".toList
  rw [getSubscriberCallBackList_enrollAll] at hlist
  exact absurd hlist (by decide)

end IckStormSubscriberManager

/-! ## Functions and objects -/

namespace SubscriberClient

variable {world : ClientWorld} {s s' : SubscriberClient} {c : Str} {v : IckStormValueInfo}

/-- The channel has an object, or the update creates one. -/
def HasObject (world : ClientWorld) (s : SubscriberClient) (c : Str) (v : IckStormValueInfo) :
    Prop :=
  if s.objects.isObjectRegisted c = false then world.create v ≠ none else s.getData c ≠ none

/-- What `notify` calls. -/
theorem notify_log {s₁ : SubscriberClient} (hlog : s₁.log = s.log) (untypedData : Option ℕ) :
    (s₁.notify world c v untypedData).log.drop s.log.length =
      (world.getSubscriberCallBackList c).map (ClientEvent.callBack · c v) ++
        match untypedData with
        | none => []
        | some object => (world.getSubscriberList c).map (ClientEvent.update · object) := by
  unfold notify logged
  rw [hlog]
  exact List.drop_left

/-- What an update that is handled has called. -/
theorem handleUpdate_log (h : handleUpdate world s c v = .next s') :
    ∃ untypedData : Option ℕ, (untypedData ≠ none ↔ HasObject world s c v) ∧
      s'.log.drop s.log.length =
        (world.getSubscriberCallBackList c).map (ClientEvent.callBack · c v) ++
          match untypedData with
          | none => []
          | some object => (world.getSubscriberList c).map (ClientEvent.update · object) := by
  unfold handleUpdate at h
  unfold HasObject
  by_cases hregisted : s.objects.isObjectRegisted c = false
  · rw [if_pos hregisted] at h ⊢
    cases hcreate : world.create v with
    | none =>
      simp only [hcreate, Flow.next.injEq] at h
      subst h
      exact ⟨none, by simp, notify_log rfl none⟩
    | some channel =>
      simp only [hcreate] at h
      split at h <;> simp only [Flow.next.injEq, reduceCtorEq] at h
      subst h
      exact ⟨some _, by simp, notify_log rfl (some _)⟩
  · rw [if_neg hregisted] at h ⊢
    cases hdata : s.getData c with
    | none =>
      simp only [hdata] at h
      split_ifs at h
      simp only [Flow.next.injEq] at h
      subst h
      exact ⟨none, by simp, notify_log rfl none⟩
    | some object =>
      simp only [hdata] at h
      split at h <;> simp only [Flow.next.injEq, reduceCtorEq] at h
      subst h
      exact ⟨some _, by simp, notify_log rfl (some _)⟩

/-- The function was called between the two states. -/
def CalledBack (f : ℕ) (s s' : SubscriberClient) : Prop :=
  ∃ c v, ClientEvent.callBack f c v ∈ s'.log.drop s.log.length

/-- The `Subscriber` was notified between the two states. -/
def Notified (subscriber : ℕ) (s s' : SubscriberClient) : Prop :=
  ∃ object, ClientEvent.update subscriber object ∈ s'.log.drop s.log.length

theorem calledBack_iff {f : ℕ} (h : handleUpdate world s c v = .next s') :
    CalledBack f s s' ↔ f ∈ world.getSubscriberCallBackList c := by
  obtain ⟨untypedData, -, hlog⟩ := handleUpdate_log h
  unfold CalledBack
  rw [hlog]
  cases untypedData <;> simp

theorem notified_iff {subscriber : ℕ} (h : handleUpdate world s c v = .next s') :
    Notified subscriber s s' ↔
      HasObject world s c v ∧ subscriber ∈ world.getSubscriberList c := by
  obtain ⟨untypedData, hobject, hlog⟩ := handleUpdate_log h
  unfold Notified
  rw [hlog, ← hobject]
  cases untypedData <;> simp

end SubscriberClient

namespace IckStormSubscriberManager

open SubscriberClient

/-- The function is registered under a name with this key. -/
def FiledUnder (calls : List (Str × Recipient)) (f : ℕ) (key : Str) : Prop :=
  ∃ n, channelPath n = key ∧ (n, .callback f) ∈ calls

/-- The channel has an object if the function is registered under the channel's key. If not,
another function is, or the function is not registered under the key of the folder. -/
def SeesAlike (calls : List (Str × Recipient)) (f : ℕ) (world : ClientWorld)
    (s : SubscriberClient) (c : Str) (v : IckStormValueInfo) : Prop :=
  (FiledUnder calls f (channelPath c) → HasObject world s c v) ∧
    (¬FiledUnder calls f (channelPath c) →
      (∃ g, FiledUnder calls g (channelPath c)) ∨ ¬FiledUnder calls f (dashed (nodeName c)))

variable {calls : List (Str × Recipient)} {channels : SubscribeChannels}

theorem mem_getSubscriberCallBackList (world : ClientWorld) (c : Str) (f : ℕ) :
    f ∈ (((connected channels).enrollAll calls).world world).getSubscriberCallBackList c ↔
      FiledUnder calls f (channelPath c) ∨
        (¬∃ g, FiledUnder calls g (channelPath c)) ∧ FiledUnder calls f (dashed (nodeName c)) := by
  have hfiled : ∀ g key, g ∈ listedFor (channelPath · = key) (callbacksOf calls) ↔
      FiledUnder calls g key := fun g key => by
    simp only [mem_listedFor, mem_callbacksOf, FiledUnder]
  rw [getSubscriberCallBackList_enrollAll]
  split_ifs with hnil
  · have hnone : ∀ g, ¬FiledUnder calls g (channelPath c) := fun g hg => by
      rw [← hfiled, hnil] at hg
      exact List.not_mem_nil hg
    simp [hfiled, hnone]
  · obtain ⟨g, hg⟩ := List.exists_mem_of_ne_nil _ hnil
    have hsome : ∃ g, FiledUnder calls g (channelPath c) := ⟨g, (hfiled g _).1 hg⟩
    simp [hfiled, hsome]

/-- The same channels. A function and a `Subscriber` object are registered under the same names.
Then an update of a channel calls the one if and only if it notifies the other, exactly when the
channel has an object if the two are registered under the channel's key, and when they are not,
they are not registered under the key of its folder unless a function is under the channel's. -/
theorem seesAlike_iff (channels : SubscribeChannels) (calls : List (Str × Recipient))
    (f subscriber : ℕ)
    (hsame : ∀ n, (n, Recipient.callback f) ∈ calls ↔ (n, .subscriber subscriber) ∈ calls)
    (world : ClientWorld) (s s' : SubscriberClient) (c : Str) (v : IckStormValueInfo)
    (h : handleUpdate (((connected channels).enrollAll calls).world world) s c v = .next s') :
    (CalledBack f s s' ↔ Notified subscriber s s') ↔ SeesAlike calls f world s c v := by
  have hfiled : subscriber ∈
      (((connected channels).enrollAll calls).world world).getSubscriberList c ↔
        FiledUnder calls f (channelPath c) := by
    simp only [getSubscriberList_enrollAll, mem_listedFor, mem_subscribersOf, FiledUnder, hsame]
  have hobject : HasObject (((connected channels).enrollAll calls).world world) s c v ↔
      HasObject world s c v := Iff.rfl
  rw [calledBack_iff h, notified_iff h, mem_getSubscriberCallBackList, hfiled, hobject, SeesAlike]
  by_cases hdirect : FiledUnder calls f (channelPath c)
  · simp [hdirect]
  · simp only [hdirect, false_or, and_false, iff_false, IsEmpty.forall_iff, not_false_eq_true,
      forall_const, true_and]
    tauto

/-- An update with an integer. -/
def intUpdate : IckStormValueInfo := ⟨.READONLY, .INTDATA, 0, 5, 0, []⟩

theorem handleUpdate_intUpdate (world : ClientWorld) :
    ∃ s', handleUpdate world .new "/a/b".toList intUpdate = .next s' := by
  obtain ⟨objects, -, hupdate⟩ := @handleUpdate_first world .new "/a/b".toList intUpdate
    ⟨rfl, by decide⟩ rfl _ rfl
  exact ⟨_, hupdate⟩

/-- The calls that subscribe a function and an object to one name. -/
def twofold (n : Str) : List (Str × Recipient) :=
  [(n, .callback 0), (n, .subscriber 0)]

theorem mem_twofold (n : Str) (n' : Str) :
    (n', Recipient.callback 0) ∈ twofold n ↔ (n', .subscriber 0) ∈ twofold n := by
  simp [twofold]

theorem calledBack_iff_notified_twofold :
    ∃ s', handleUpdate (((connected ∅).enrollAll (twofold "/a/b".toList)).world .quiet) .new
        "/a/b".toList intUpdate = .next s' ∧ (CalledBack 0 .new s' ↔ Notified 0 .new s') := by
  obtain ⟨s', hs'⟩ := handleUpdate_intUpdate _
  refine ⟨s', hs', (seesAlike_iff ∅ _ 0 0 (mem_twofold _) .quiet .new s' _ intUpdate hs').2 ?_⟩
  exact ⟨fun _ => Option.some_ne_none _, fun hfiled => absurd ⟨_, rfl, by decide⟩ hfiled⟩

/-- A function and an object are subscribed to the folder of the channel. -/
theorem not_alike_of_folder : ¬∀ channels calls f subscriber,
    (∀ n, (n, Recipient.callback f) ∈ calls ↔ (n, .subscriber subscriber) ∈ calls) →
    ∀ world s s' c v,
    handleUpdate (((connected channels).enrollAll calls).world world) s c v = .next s' →
    (CalledBack f s s' ↔ Notified subscriber s s') := by
  intro h
  obtain ⟨s', hs'⟩ := handleUpdate_intUpdate
    (((connected ∅).enrollAll (twofold "/a/".toList)).world .quiet)
  have hboth := h ∅ _ 0 0 (mem_twofold _) .quiet .new s' _ intUpdate hs'
  rw [calledBack_iff hs', notified_iff hs', getSubscriberCallBackList_enrollAll,
    getSubscriberList_enrollAll] at hboth
  exact absurd (hboth.1 (by decide)).2 (by decide)

end IckStormSubscriberManager

end Ick
