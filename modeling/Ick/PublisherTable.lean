import Ick.History
import Ick.Mutex
import Ick.ObjectManager
import Ick.SubscriberManager

/-!
# The publisher's table

`IckStormPublisher` keeps the clients of each channel in `m_subscribers`. Removing a client should
undo adding it, and a client of a channel that does not exist should not be kept.

The two calls do not agree. A client is added under the id of its channel as it is, and removed
under the id with dashes for its slashes. The search for a client goes on to the next channel
instead of the next client, so it finds only the first client of a channel, and runs past the end
of the map otherwise (`search_cons`). And the channel is looked up after the client was put into the
table, with the mutex held, so an exception leaves both behind.

`consistent_iff` says that the table is what was added and not removed (`pending`) throughout a run
exactly if no call of the run meets one of these cases.
-/

namespace Ick

open IckStormSubscriberManager (channelPath)

/-- `IckCore::SubscriberInfo` -/
structure SubscriberInfo where
  objectId : Str
  endPoint : Str
  deriving DecidableEq

/-- `IckStormPublisher`, and the channels that it has subscribed to. -/
structure IckStormPublisher (θ : Type*) where
  subscribers : Registry Str SubscriberInfo
  mutex : IMutex θ
  subscribed : List ℕ

/-- A call of a thread. The channels are those that are registered at the time. -/
inductive PublisherCall (θ : Type*)
  | addSubscriber (t : θ) (objects : ObjectManager) (info : SubscriberInfo)
  | removeSubscriber (t : θ) (info : SubscriberInfo)

namespace IckStormPublisher

variable {θ : Type*}

/-- `IckStormPublisher()` -/
def new : IckStormPublisher θ where
  subscribers := ∅
  mutex := .new
  subscribed := []

/-- The name of the channel with an id, which has slashes for its dashes. -/
def channelName (objectId : Str) : Str :=
  (objectId.map fun c => if c = '-' then '/' else c).takeWhile (· ≠ '\x00')

/-- The data of the channel with an id; `none` for `NULL`, also after the cast. -/
def channel (objects : ObjectManager) (objectId : Str) : Option ℕ :=
  match objects.getObject (channelName objectId) with
  | some (.data object) => some object
  | _ => none

/-- The text of the exception. -/
def failedMessage (objectId : Str) : Str :=
  "subscribe failed exception, for channel ".toList ++ channelName objectId

/-- The loop of `removeSubscriber`, at the first of `endpoints`, with the channels from `it` on. It
is `it` that is moved, so the first endpoint is looked at for each channel; `none` when `it` is past
the last one. -/
def searchLoop (endPoint : Str) (endpoint : SubscriberInfo) (endpoints : List SubscriberInfo) :
    List Str → Option (List SubscriberInfo)
  | [] => none
  | _ :: channels =>
    if endpoint.endPoint = endPoint then some endpoints
    else searchLoop endPoint endpoint endpoints channels

/-- What is left of the endpoints. -/
def search (endPoint : Str) (channels : List Str) :
    List SubscriberInfo → Option (List SubscriberInfo)
  | [] => some []
  | endpoint :: endpoints => searchLoop endPoint endpoint endpoints channels

variable [DecidableEq θ]

/-- `addSubscriber`; `none` while it waits. -/
def addSubscriber (platform : Platform) (t : θ) (objects : ObjectManager) (info : SubscriberInfo)
    (p : IckStormPublisher θ) : Option (Outcome (IckStormPublisher θ)) :=
  (p.mutex.lock platform t).map fun mutex =>
    let subscribers := p.subscribers.enlist info.objectId info
    match channel objects info.objectId with
    | some object => .ok ⟨subscribers, mutex.unlock platform t, p.subscribed ++ [object]⟩
    | none => .throws (failedMessage info.objectId) ⟨subscribers, mutex, p.subscribed⟩

/-- `removeSubscriber`; `none` while it waits. -/
def removeSubscriber (platform : Platform) (t : θ) (info : SubscriberInfo)
    (p : IckStormPublisher θ) : Option (Outcome (IckStormPublisher θ)) :=
  (p.mutex.lock platform t).map fun mutex =>
    let strName := channelPath info.objectId
    match p.subscribers[strName]? with
    | none => .ok { p with mutex := mutex.unlock platform t }
    | some endpoints =>
      match search info.endPoint (p.subscribers.keys.dropWhile (· ≠ strName)) endpoints with
      | none => .crash
      | some [] => .ok { p with
          subscribers := p.subscribers.erase strName, mutex := mutex.unlock platform t }
      | some endpoints => .ok { p with
          subscribers := p.subscribers.insert strName endpoints, mutex := mutex.unlock platform t }

/-- One call. -/
def step (platform : Platform) (p : IckStormPublisher θ) :
    PublisherCall θ → Option (Outcome (IckStormPublisher θ))
  | .addSubscriber t objects info => p.addSubscriber platform t objects info
  | .removeSubscriber t info => p.removeSubscriber platform t info

/-- A publisher after calls; `none` if one of them waits for ever, or goes outside its list. -/
def run (platform : Platform) (calls : List (PublisherCall θ)) : Option (IckStormPublisher θ) :=
  calls.foldl (fun p call => p.bind fun p => (p.step platform call).bind Outcome.state?) (some new)

/-- What is to be kept after one more call. -/
def pendingStep (entries : List SubscriberInfo) : PublisherCall θ → List SubscriberInfo
  | .addSubscriber _ objects info =>
    if (channel objects info.objectId).isSome then entries ++ [info] else entries
  | .removeSubscriber _ info => entries.erase info

/-- What was added to channels that exist and not removed, in order. -/
def pending (calls : List (PublisherCall θ)) : List SubscriberInfo := calls.foldl pendingStep []

/-- After a call the mutex is free, and the table has what is to be kept. -/
def Consistent (platform : Platform) (pre : List (PublisherCall θ)) (call : PublisherCall θ) :
    Prop :=
  ∃ p, run platform (pre ++ [call]) = some p ∧ p.mutex.owner = none ∧
    ∀ objectId, p.subscribers.getD objectId [] =
      (pending (pre ++ [call])).filter (·.objectId = objectId)

/-- A client is added to a channel that exists. A client is removed whose channel has one key in
both calls, and which is the first of its channel, if the channel has any; or else whose channel
has another key when it is removed, and then neither is there the client nor are there clients under
that key. -/
def Sound (pre : List (PublisherCall θ)) : PublisherCall θ → Prop
  | .addSubscriber _ objects info => (channel objects info.objectId).isSome
  | .removeSubscriber _ info =>
    if channelPath info.objectId = info.objectId then
      ∀ first ∈ ((pending pre).filter (·.objectId = info.objectId)).head?,
        first.endPoint = info.endPoint
    else info ∉ pending pre ∧ ∀ e ∈ pending pre, e.objectId ≠ channelPath info.objectId

/-! ## Calls -/

theorem run_snoc (platform : Platform) (pre : List (PublisherCall θ)) (call : PublisherCall θ) :
    run platform (pre ++ [call]) =
      (run platform pre).bind fun p => (p.step platform call).bind Outcome.state? := by
  simp [run]

omit [DecidableEq θ] in
theorem pending_snoc (pre : List (PublisherCall θ)) (call : PublisherCall θ) :
    pending (pre ++ [call]) = pendingStep (pending pre) call := by
  simp [pending]

/-- The search looks at the first endpoint only. -/
theorem search_cons {channels : List Str} (h : channels ≠ []) (endPoint : Str)
    (endpoint : SubscriberInfo) (endpoints : List SubscriberInfo) :
    search endPoint channels (endpoint :: endpoints) =
      if endpoint.endPoint = endPoint then some endpoints else none := by
  rw [search]
  induction channels with
  | nil => exact absurd rfl h
  | cons _ channels ih =>
    rw [searchLoop]
    split_ifs with hfirst
    · rfl
    · cases channels with
      | nil => rfl
      | cons channel channels => rw [ih (List.cons_ne_nil _ _), if_neg hfirst]

theorem lock_new (platform : Platform) (t : θ) : ∃ mutex, IMutex.new.lock platform t = some mutex ∧
    mutex.unlock platform t = .new := by
  cases platform with
  | windows => exact ⟨_, rfl, by simp [IMutex.unlock]⟩
  | linux => exact ⟨_, rfl, rfl⟩

/-- The mutex is free, and the table has these entries, and no empty list. -/
structure Lists (p : IckStormPublisher θ) (entries : List SubscriberInfo) : Prop where
  mutex : p.mutex = .new
  subscribers : ∀ objectId, p.subscribers[objectId]? =
    if entries.filter (·.objectId = objectId) = [] then none
    else some (entries.filter (·.objectId = objectId))

variable {platform : Platform} {p : IckStormPublisher θ} {entries : List SubscriberInfo}

omit [DecidableEq θ] in
theorem Lists.getD (h : p.Lists entries) (objectId : Str) :
    p.subscribers.getD objectId [] = entries.filter (·.objectId = objectId) := by
  rw [Std.TreeMap.getD_eq_getD_getElem?, h.subscribers]
  split_ifs with hnil
  · exact hnil.symm
  · rfl

/-- Adding to a channel that exists. -/
theorem Lists.add (h : p.Lists entries) (t : θ) {objects : ObjectManager} {info : SubscriberInfo}
    (hchannel : (channel objects info.objectId).isSome) :
    ∃ p', p.addSubscriber platform t objects info = some (.ok p') ∧
      p'.Lists (entries ++ [info]) := by
  obtain ⟨mutex, hlock, hunlock⟩ := lock_new platform t
  obtain ⟨object, hobject⟩ := Option.isSome_iff_exists.1 hchannel
  refine ⟨⟨p.subscribers.enlist info.objectId info, .new, p.subscribed ++ [object]⟩, ?_, rfl, ?_⟩
  · simp only [addSubscriber, h.mutex, hlock, Option.map_some, hobject, hunlock]
  · intro objectId
    rw [Registry.getElem?_enlist, h.getD, h.subscribers, List.filter_append]
    by_cases heq : info.objectId = objectId
    · subst heq
      simp
    · simp [heq]

/-- Adding to a channel that does not exist puts the client into the table. -/
theorem Lists.add_throws (h : p.Lists entries) (t : θ) {objects : ObjectManager}
    {info : SubscriberInfo} (hchannel : channel objects info.objectId = none) :
    ∃ message p', p.addSubscriber platform t objects info = some (.throws message p') ∧
      p'.subscribers.getD info.objectId [] =
        entries.filter (·.objectId = info.objectId) ++ [info] := by
  obtain ⟨mutex, hlock, -⟩ := lock_new platform t
  refine ⟨failedMessage info.objectId,
    ⟨p.subscribers.enlist info.objectId info, mutex, p.subscribed⟩, ?_, ?_⟩
  · simp only [addSubscriber, h.mutex, hlock, Option.map_some, hchannel]
  · rw [Std.TreeMap.getD_eq_getD_getElem?, Registry.getElem?_enlist, if_pos rfl, h.getD]
    rfl

/-- Removing when the key has no clients does nothing. -/
theorem Lists.remove_of_nil (h : p.Lists entries) (t : θ) {info : SubscriberInfo}
    (hnil : entries.filter (·.objectId = channelPath info.objectId) = []) :
    p.removeSubscriber platform t info = some (.ok p) := by
  obtain ⟨mutex, hlock, hunlock⟩ := lock_new platform t
  have hnone := h.subscribers (channelPath info.objectId)
  rw [if_pos hnil] at hnone
  simp only [removeSubscriber, h.mutex, hlock, Option.map_some, hnone, hunlock]
  rw [← h.mutex]

omit [DecidableEq θ] in
/-- The list of a key with clients, and the search in it. -/
theorem Lists.search_eq (h : p.Lists entries) {objectId : Str} {first : SubscriberInfo}
    {rest : List SubscriberInfo} (hcons : entries.filter (·.objectId = objectId) = first :: rest)
    (endPoint : Str) : p.subscribers[objectId]? = some (first :: rest) ∧
      search endPoint (p.subscribers.keys.dropWhile (· ≠ objectId)) (first :: rest) =
        if first.endPoint = endPoint then some rest else none := by
  have hsome := h.subscribers objectId
  rw [hcons, if_neg (List.cons_ne_nil _ _)] at hsome
  refine ⟨hsome, search_cons (fun hnil => ?_) _ _ _⟩
  have hmem : objectId ∈ p.subscribers.keys := Std.TreeMap.mem_keys.2
    (Std.TreeMap.mem_iff_isSome_getElem?.2 (Option.isSome_of_eq_some hsome))
  simpa using List.dropWhile_eq_nil_iff.1 hnil objectId hmem

/-- Removing when the first client of the key has another end point. -/
theorem Lists.remove_crash (h : p.Lists entries) (t : θ) {info first : SubscriberInfo}
    {rest : List SubscriberInfo}
    (hcons : entries.filter (·.objectId = channelPath info.objectId) = first :: rest)
    (hne : first.endPoint ≠ info.endPoint) :
    p.removeSubscriber platform t info = some .crash := by
  obtain ⟨mutex, hlock, -⟩ := lock_new platform t
  obtain ⟨hsome, hsearch⟩ := h.search_eq hcons info.endPoint
  rw [if_neg hne] at hsearch
  simp only [removeSubscriber, h.mutex, hlock, Option.map_some, hsome, hsearch]

/-- Removing when the first client of the key has the end point. -/
theorem Lists.remove_first (h : p.Lists entries) (t : θ) {info first : SubscriberInfo}
    {rest : List SubscriberInfo}
    (hcons : entries.filter (·.objectId = channelPath info.objectId) = first :: rest)
    (heq : first.endPoint = info.endPoint) :
    ∃ p', p.removeSubscriber platform t info = some (.ok p') ∧ p'.mutex = .new ∧
      ∀ objectId, p'.subscribers[objectId]? =
        if channelPath info.objectId = objectId then if rest = [] then none else some rest
        else p.subscribers[objectId]? := by
  obtain ⟨mutex, hlock, hunlock⟩ := lock_new platform t
  obtain ⟨hsome, hsearch⟩ := h.search_eq hcons info.endPoint
  rw [if_pos heq] at hsearch
  cases rest with
  | nil =>
    refine ⟨{ p with
      subscribers := p.subscribers.erase (channelPath info.objectId), mutex := .new }, ?_, rfl, ?_⟩
    · simp only [removeSubscriber, h.mutex, hlock, Option.map_some, hsome, hsearch, hunlock]
    · intro objectId
      simp only [Std.TreeMap.getElem?_erase, Std.compare_eq_iff_eq, if_true]
  | cons second rest =>
    refine ⟨{ p with
      subscribers := p.subscribers.insert (channelPath info.objectId) (second :: rest)
      mutex := .new }, ?_, rfl, ?_⟩
    · simp only [removeSubscriber, h.mutex, hlock, Option.map_some, hsome, hsearch, hunlock]
    · intro objectId
      simp only [Std.TreeMap.getElem?_insert, Std.compare_eq_iff_eq, reduceCtorEq, if_false]

/-- Removing the first client of a channel with one key. -/
theorem Lists.remove (h : p.Lists entries) (t : θ) {info first : SubscriberInfo}
    {rest : List SubscriberInfo} (hkey : channelPath info.objectId = info.objectId)
    (hcons : entries.filter (·.objectId = info.objectId) = first :: rest)
    (heq : first.endPoint = info.endPoint) :
    ∃ p', p.removeSubscriber platform t info = some (.ok p') ∧ p'.Lists (entries.erase info) := by
  obtain ⟨p', hremove, hmutex, hget⟩ :=
    @Lists.remove_first _ _ platform _ _ h t info first rest (hkey.symm ▸ hcons) heq
  refine ⟨p', hremove, hmutex, fun objectId => ?_⟩
  have hfirst : first = info := by
    have hmem : first ∈ entries.filter (·.objectId = info.objectId) :=
      hcons ▸ List.mem_cons_self
    have hobjectId := of_decide_eq_true (List.mem_filter.1 hmem).2
    cases first
    cases info
    simp_all
  rw [hget, hkey, ← List.erase_filter]
  by_cases hobjectId : info.objectId = objectId
  · subst hobjectId
    rw [if_pos rfl, hcons, hfirst, List.erase_cons_head]
  · rw [if_neg hobjectId, h.subscribers, List.erase_of_not_mem]
    intro hmem
    exact hobjectId (of_decide_eq_true (List.mem_filter.1 hmem).2)

/-! ## Runs -/

/-- The invariant of a run. -/
def Kept (platform : Platform) (calls : List (PublisherCall θ)) : Prop :=
  ∃ p, run platform calls = some p ∧ p.Lists (pending calls)

theorem kept_nil : Kept platform ([] : List (PublisherCall θ)) :=
  ⟨new, rfl, rfl, fun _ => Std.TreeMap.getElem?_emptyc⟩

variable {calls : List (PublisherCall θ)} {call : PublisherCall θ}

/-- A sound call keeps the table. -/
theorem kept_snoc (h : Kept platform calls) (hsound : Sound calls call) :
    Kept platform (calls ++ [call]) := by
  obtain ⟨p, hrun, hlists⟩ := h
  have hstep : ∃ p', p.step platform call = some (.ok p') ∧
      p'.Lists (pendingStep (pending calls) call) := by
    cases call with
    | addSubscriber t objects info =>
      rw [Sound] at hsound
      obtain ⟨p', hadd, hlists'⟩ := @Lists.add _ _ platform _ _ hlists t _ _ hsound
      exact ⟨p', hadd, by rwa [pendingStep, if_pos hsound]⟩
    | removeSubscriber t info =>
      rw [pendingStep]
      rw [Sound] at hsound
      split_ifs at hsound with hkey
      · cases hfilter : (pending calls).filter (·.objectId = info.objectId) with
        | nil =>
          have hnot : info ∉ pending calls := fun hmem =>
            List.filter_eq_nil_iff.1 hfilter info hmem (decide_eq_true rfl)
          rw [List.erase_of_not_mem hnot]
          exact ⟨p, hlists.remove_of_nil t (hkey.symm ▸ hfilter), hlists⟩
        | cons first rest =>
          rw [hfilter] at hsound
          exact hlists.remove t hkey hfilter (hsound first rfl)
      · rw [List.erase_of_not_mem hsound.1]
        refine ⟨p, hlists.remove_of_nil t ?_, hlists⟩
        exact List.filter_eq_nil_iff.2 fun e he => by simpa using hsound.2 e he
  obtain ⟨p', hstep, hlists'⟩ := hstep
  refine ⟨p', ?_, pending_snoc calls call ▸ hlists'⟩
  rw [run_snoc, hrun, Option.bind_some, hstep]
  rfl

theorem consistent_of_kept (h : Kept platform (calls ++ [call])) :
    Consistent platform calls call := by
  obtain ⟨p, hrun, hlists⟩ := h
  exact ⟨p, hrun, by rw [hlists.mutex]; rfl, hlists.getD⟩

/-- What a call must do to the lists, if it is to be consistent. -/
theorem getD_of_consistent (h : Consistent platform calls call)
    (hrun : run platform calls = some p) {end? : Option (Outcome (IckStormPublisher θ))}
    (hstep : p.step platform call = end?) : ∃ p', end?.bind Outcome.state? = some p' ∧
      ∀ objectId, p'.subscribers.getD objectId [] =
        (pendingStep (pending calls) call).filter (·.objectId = objectId) := by
  obtain ⟨p', hrun', -, hget⟩ := h
  rw [run_snoc, hrun, Option.bind_some, hstep] at hrun'
  exact ⟨p', hrun', pending_snoc calls call ▸ hget⟩

/-- A call that adds a client to no channel leaves the client in the table. -/
theorem channel_of_consistent (hlists : p.Lists (pending calls))
    (hrun : run platform calls = some p) {t : θ} {objects : ObjectManager} {info : SubscriberInfo}
    (h : Consistent platform calls (.addSubscriber t objects info)) :
    (channel objects info.objectId).isSome := by
  by_contra hnot
  have hchannel : channel objects info.objectId = none := by
    simpa [Option.isSome_iff_ne_none] using hnot
  obtain ⟨message, p₁, hadd, hget₁⟩ := @Lists.add_throws _ _ platform _ _ hlists t _ _ hchannel
  obtain ⟨p', heq, hget⟩ := getD_of_consistent h hrun hadd
  obtain rfl := Option.some.inj heq
  have hlength := congrArg List.length ((hget info.objectId).symm.trans hget₁)
  simp [pendingStep, hchannel] at hlength

/-- A call that removes another client than the first of the key does not return. -/
theorem first_of_consistent (hlists : p.Lists (pending calls)) (hrun : run platform calls = some p)
    {t : θ} {info first : SubscriberInfo} {rest : List SubscriberInfo}
    (h : Consistent platform calls (.removeSubscriber t info))
    (hcons : (pending calls).filter (·.objectId = channelPath info.objectId) = first :: rest) :
    first.endPoint = info.endPoint := by
  by_contra hne
  obtain ⟨p', heq, -⟩ := getD_of_consistent h hrun (hlists.remove_crash t hcons hne)
  cases heq

/-- A call under another key would remove a client of the channel with that key. -/
theorem filter_of_consistent (hlists : p.Lists (pending calls)) (hrun : run platform calls = some p)
    {t : θ} {info : SubscriberInfo} (h : Consistent platform calls (.removeSubscriber t info))
    (hkey : channelPath info.objectId ≠ info.objectId) :
    (pending calls).filter (·.objectId = channelPath info.objectId) = [] := by
  cases hcons : (pending calls).filter (·.objectId = channelPath info.objectId) with
  | nil => rfl
  | cons first rest =>
    have hnot : info ∉ first :: rest := by
      rw [← hcons]
      exact fun hmem => hkey (of_decide_eq_true (List.mem_filter.1 hmem).2).symm
    obtain ⟨p₁, hremove, -, hget₁⟩ := @Lists.remove_first _ _ platform _ _ hlists t _ _ _ hcons
      (first_of_consistent hlists hrun h hcons)
    obtain ⟨p', heq, hget⟩ := getD_of_consistent h hrun hremove
    obtain rfl := Option.some.inj heq
    have hrest := hget (channelPath info.objectId)
    rw [pendingStep, ← List.erase_filter, hcons, List.erase_of_not_mem hnot,
      Std.TreeMap.getD_eq_getD_getElem?, hget₁, if_pos rfl] at hrest
    have hlength := congrArg List.length hrest
    split_ifs at hlength with hempty <;> simp_all

/-- A call that finds no clients would leave its own client in the table. -/
theorem notMem_of_consistent (hlists : p.Lists (pending calls)) (hrun : run platform calls = some p)
    {t : θ} {info : SubscriberInfo} (h : Consistent platform calls (.removeSubscriber t info))
    (hnil : (pending calls).filter (·.objectId = channelPath info.objectId) = []) :
    info ∉ pending calls := by
  intro hmem
  obtain ⟨p', heq, hget⟩ := getD_of_consistent h hrun (hlists.remove_of_nil t hnil)
  obtain rfl := Option.some.inj heq
  have hmem' : info ∈ (pending calls).filter (·.objectId = info.objectId) :=
    List.mem_filter.2 ⟨hmem, decide_eq_true rfl⟩
  have hlength := congrArg List.length ((hlists.getD info.objectId).symm.trans
    (hget info.objectId))
  rw [pendingStep, ← List.erase_filter, List.length_erase_of_mem hmem'] at hlength
  have hpos := List.length_pos_of_mem hmem'
  omega

theorem sound_of_consistent (hkept : Kept platform calls) (h : Consistent platform calls call) :
    Sound calls call := by
  obtain ⟨p, hrun, hlists⟩ := hkept
  cases call with
  | addSubscriber t objects info => exact channel_of_consistent hlists hrun h
  | removeSubscriber t info =>
    rw [Sound]
    split_ifs with hkey
    · intro first hfirst
      rw [← hkey] at hfirst
      obtain ⟨rest, hcons⟩ := List.head?_eq_some_iff.1 hfirst
      exact first_of_consistent hlists hrun h hcons
    · have hnil := filter_of_consistent hlists hrun h hkey
      exact ⟨notMem_of_consistent hlists hrun h hnil, fun e he heq =>
        List.filter_eq_nil_iff.1 hnil e he (decide_eq_true heq)⟩

/-- The table is right throughout a run exactly if every call of the run is sound. -/
theorem consistent_iff (platform : Platform) (calls : List (PublisherCall θ)) :
    Throughout (Consistent platform) calls ↔ Throughout Sound calls := by
  refine (throughout_congr (I := Kept platform) kept_nil (fun calls call hkept hsound =>
    kept_snoc hkept hsound) (fun calls call hkept => ?_) calls).symm
  exact ⟨fun hsound => consistent_of_kept (kept_snoc hkept hsound), sound_of_consistent hkept⟩

/-- A registry with a channel `/a`. -/
def channels_a : ObjectManager :=
  { ObjectManager.new with datas := Std.TreeMap.insertIfNew ∅ "/a".toList 0 }

/-- The second of two clients of a channel is removed. -/
theorem not_consistent_second : ¬∀ (platform : Platform) (calls : List (PublisherCall Unit)),
    Throughout (Consistent platform) calls := by
  intro h
  let e₁ : SubscriberInfo := ⟨"-a".toList, "tcp -p 1".toList⟩
  let e₂ : SubscriberInfo := ⟨"-a".toList, "tcp -p 2".toList⟩
  obtain ⟨p, hrun, -⟩ := h .windows [.addSubscriber () channels_a e₁,
    .addSubscriber () channels_a e₂, .removeSubscriber () e₂]
    [.addSubscriber () channels_a e₁, .addSubscriber () channels_a e₂] (.removeSubscriber () e₂)
    (List.prefix_refl _)
  have hnone : run .windows ([.addSubscriber () channels_a e₁, .addSubscriber () channels_a e₂] ++
      [.removeSubscriber () e₂]) = none := by rfl
  rw [hnone] at hrun
  cases hrun

end IckStormPublisher

end Ick
