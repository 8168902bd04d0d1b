import Ick.ObjectManager
import Mathlib.Data.List.Count
import Mathlib.Data.List.Nodup

/-!
# Life-cycle phases

`startNamespace` goes through the map of control objects once for each of the phases `make`,
`verify`, `initialize`, and `startup`, and `shutdownNamespace` once to shut the objects down and
once more to delete them, and then through the map of channel data. All these loops are over
names. An object that is bound under two names, by `createAlias` or a second `registerObject`, is
started twice, and deleted twice (`lifeCycle_iff`).

The methods of the objects and the callbacks are events here, that is, they return and leave the
registry as it is.
-/

namespace Ick

/-! ## Aliases -/

namespace ObjectManager

/-- The text that `createAlias` prints if the alias is taken. -/
def existedMessage (fullName : Str) : Str :=
  "Create alias for object ".toList ++ fullName ++ " failure! ".toList ++ "alias: ".toList ++
    fullName ++ " has been existed! Error occured in ObjectManager::createAlias()! ".toList

/-- The text that `createAlias` prints if the object is not registered. -/
def notExistedMessage (fullName : Str) : Str :=
  "Create alias for object ".toList ++ fullName ++ " failure! ".toList ++ "object: ".toList ++
    fullName ++ " does not existed! Error occured in ObjectManager::createAlias()! ".toList

/-- The checks of `createAlias`, which only print. -/
def aliasMessage (objects : Std.TreeMap Str ℕ) (object : ℕ) (fullName aliasName : Str) :
    Option Str :=
  if aliasName ∈ objects then some (existedMessage fullName)
  else if objects.toList.any (·.2 = object) then none
  else some (notExistedMessage fullName)

/-- `createAlias(ControlObject*, std::string)`, with what it prints. -/
def createAlias (m : ObjectManager) (object : Option ℕ) (aliasName : Str) :
    Option Str × ObjectManager :=
  match object with
  | none => (none, m)
  | some object =>
    if aliasName = [] then (none, m)
    else
      (aliasMessage m.entites object (m.fullName (.control object)) aliasName,
        { m with entites := m.entites.insertIfNew aliasName object })

/-- `createAlias(UntypedData*, std::string)`, with what it prints. -/
def createDataAlias (m : ObjectManager) (object : Option ℕ) (aliasName : Str) :
    Option Str × ObjectManager :=
  match object with
  | none => (none, m)
  | some object =>
    if aliasName = [] then (none, m)
    else
      (aliasMessage m.datas object (m.fullName (.data object)) aliasName,
        { m with datas := m.datas.insertIfNew aliasName object })

end ObjectManager

/-- A call of `registerObject` or `createAlias`. -/
inductive BindCall
  | register (call : RegisterCall)
  | control (object : Option ℕ) (aliasName : Str)
  | data (object : Option ℕ) (aliasName : Str)

/-- The object that the call is to bind, and the name. -/
def BindCall.binds : BindCall → Option (ManagedObject × Str)
  | register call => call.binds
  | control object aliasName => object.map fun object => (.control object, aliasName)
  | data object aliasName => object.map fun object => (.data object, aliasName)

namespace ObjectManager

/-- One call; `none` when the program has ended, or after undefined behaviour. -/
def bind (classes : ClassList) (m : ObjectManager) : BindCall → Option ObjectManager
  | .register call => (m.step classes call).state?
  | .control object aliasName => some (m.createAlias object aliasName).2
  | .data object aliasName => some (m.createDataAlias object aliasName).2

/-- The registry after a list of calls on an empty one. -/
def bindAll (classes : ClassList) (calls : List BindCall) : Option ObjectManager :=
  calls.foldlM (bind classes) new

end ObjectManager

/-! ## Phases -/

/-- The phases of `startNamespace`, in order; `init` is that of the calls of `initialize`. -/
inductive StartPhase
  | make
  | verify
  | init
  | startup
  deriving DecidableEq

/-- The callbacks of a phase; `none` is `NULL`. -/
structure PhaseCallBacks where
  begin : List (Option ℕ)
  after : List (Option ℕ)

/-- What is called by `startNamespace` and `shutdownNamespace`. -/
inductive LifeEvent
  | registChannels (object : ℕ)
  | callBack (f : ℕ) (index size : ℕ) (fullName : Str)
  | phase (phase : StartPhase) (object : ℕ)
  | start
  | shutdown (object : ℕ)
  | delete (object : ManagedObject)
  deriving DecidableEq

/-- The phase that an event belongs to. -/
def LifeEvent.startPhase : LifeEvent → Option StartPhase
  | .phase p _ => some p
  | _ => none

namespace ObjectManager

/-- The control objects, in the order of their names. -/
def controls (m : ObjectManager) : List ℕ := m.entites.toList.map (·.2)

/-- The data objects, in the order of their names. -/
def channels (m : ObjectManager) : List ℕ := m.datas.toList.map (·.2)

/-- The loop of a phase. -/
def runPhase (m : ObjectManager) (callBacks : StartPhase → PhaseCallBacks) (phase : StartPhase) :
    ℕ → List ℕ → List LifeEvent
  | _, [] => []
  | index, object :: objects =>
    let call f := LifeEvent.callBack f index m.entites.size (m.fullName (.control object))
    ((callBacks phase).begin.filterMap fun f => f.map call) ++ [.phase phase object] ++
      ((callBacks phase).after.filterMap fun f => f.map call) ++
      runPhase m callBacks phase (index + 1) objects

/-- `startNamespace` -/
def startNamespace (m : ObjectManager) (isDriver : ℕ → Bool)
    (callBacks : StartPhase → PhaseCallBacks) : List LifeEvent :=
  (m.controls.filter isDriver).map .registChannels ++
    m.runPhase callBacks .make 0 m.controls ++
    m.runPhase callBacks .verify 0 m.controls ++
    m.runPhase callBacks .init 0 m.controls ++
    m.runPhase callBacks .startup 0 m.controls ++ [.start]

/-- The deletions of objects, when these are deleted already; `none` if one is used after its
deletion. -/
def deleteAll : List ManagedObject → List ManagedObject → Option (List LifeEvent)
  | _, [] => some []
  | deleted, object :: objects =>
    if object ∈ deleted then none
    else (deleteAll (object :: deleted) objects).map (.delete object :: ·)

/-- `shutdownNamespace` -/
def shutdownNamespace (m : ObjectManager) : Option (List LifeEvent) :=
  (deleteAll [] (m.controls.map .control ++ m.channels.map .data)).map
    (m.controls.map .shutdown ++ ·)

/-- An object is registered under a name. -/
def Manages (m : ObjectManager) : ManagedObject → Prop
  | .control object => ∃ fullName : Str, m.entites[fullName]? = some object
  | .data object => ∃ fullName : Str, m.datas[fullName]? = some object

/-- The phases run once for each object, one phase after the other, and each object is shut down
and deleted once, first the one and then the other. -/
structure LifeCycle (m : ObjectManager) (isDriver : ℕ → Bool)
    (callBacks : StartPhase → PhaseCallBacks) : Prop where
  once : ∀ phase object, m.Manages (.control object) →
    (m.startNamespace isDriver callBacks).count (.phase phase object) = 1
  only : ∀ phase object, .phase phase object ∈ m.startNamespace isDriver callBacks →
    m.Manages (.control object)
  inOrder : ((m.startNamespace isDriver callBacks).filterMap (·.startPhase)).Pairwise
    fun phase phase' => phase.ctorIdx ≤ phase'.ctorIdx
  shutdown : ∃ events, m.shutdownNamespace = some events ∧
    (∀ object, m.Manages (.control object) → events.count (.shutdown object) = 1) ∧
    (∀ object, m.Manages object → events.count (.delete object) = 1) ∧
    (∀ e ∈ events, ∃ object, m.Manages object ∧
      (e = .delete object ∨ ∃ control, object = .control control ∧ e = .shutdown control)) ∧
    events.Pairwise fun e e' => ∀ object object', e = .delete object → e' ≠ .shutdown object'

/-- No object is registered under two names. -/
structure OneName (m : ObjectManager) : Prop where
  control : ∀ (fullName aliasName : Str) (object : ℕ), m.entites[fullName]? = some object →
    m.entites[aliasName]? = some object → fullName = aliasName
  data : ∀ (fullName aliasName : Str) (object : ℕ), m.datas[fullName]? = some object →
    m.datas[aliasName]? = some object → fullName = aliasName

variable {m : ObjectManager} {isDriver : ℕ → Bool} {callBacks : StartPhase → PhaseCallBacks}

/-! ## Objects and names -/

/-- The values of a map are distinct if each is bound once. -/
theorem nodup_values_iff (t : Std.TreeMap Str ℕ) : (t.toList.map (·.2)).Nodup ↔
    ∀ (k k' : Str) (v : ℕ), t[k]? = some v → t[k']? = some v → k = k' := by
  rw [List.nodup_map_iff_inj_on]
  · constructor
    · intro hinj k k' v hk hk'
      exact congrArg Prod.fst (hinj _ (Std.TreeMap.mem_toList_iff_getElem?_eq_some.2 hk) _
        (Std.TreeMap.mem_toList_iff_getElem?_eq_some.2 hk') rfl)
    · rintro hinj ⟨k, v⟩ hk ⟨k', v'⟩ hk' rfl
      rw [hinj k k' v (Std.TreeMap.mem_toList_iff_getElem?_eq_some.1 hk)
        (Std.TreeMap.mem_toList_iff_getElem?_eq_some.1 hk')]
  · refine (Std.TreeMap.distinct_keys_toList (t := t)).imp ?_
    rintro a b hne rfl
    exact hne (by simp)

theorem oneName_iff : m.OneName ↔ m.controls.Nodup ∧ m.channels.Nodup := by
  rw [controls, channels, nodup_values_iff, nodup_values_iff]
  exact ⟨fun h => ⟨h.control, h.data⟩, fun h => ⟨h.1, h.2⟩⟩

theorem manages_iff {object : ManagedObject} :
    m.Manages object ↔ object ∈ m.controls.map .control ++ m.channels.map .data := by
  cases object with
  | control object => simp [Manages, controls, channels]
  | data object => simp [Manages, controls, channels]

theorem manages_control_iff {object : ℕ} :
    m.Manages (.control object) ↔ object ∈ m.controls := by
  simp [manages_iff]

theorem nodup_objects_iff :
    (m.controls.map ManagedObject.control ++ m.channels.map ManagedObject.data).Nodup ↔
      m.OneName := by
  rw [oneName_iff, List.nodup_append, List.nodup_map_iff fun _ _ => ManagedObject.control.inj,
    List.nodup_map_iff fun _ _ => ManagedObject.data.inj]
  simp

/-! ## Starting -/

/-- The callbacks belong to no phase. -/
theorem startPhase_of_mem_callBacks {index size : ℕ} {fullName : Str} {fs : List (Option ℕ)}
    {e : LifeEvent}
    (he : e ∈ fs.filterMap fun f => f.map fun f => LifeEvent.callBack f index size fullName) :
    e.startPhase = none := by
  obtain ⟨f, -, hf⟩ := List.mem_filterMap.1 he
  obtain ⟨f, rfl, rfl⟩ := Option.map_eq_some_iff.1 hf
  rfl

theorem count_runPhase (phase phase' : StartPhase) (object index : ℕ) (objects : List ℕ) :
    (m.runPhase callBacks phase index objects).count (.phase phase' object) =
      if phase = phase' then objects.count object else 0 := by
  induction objects generalizing index with
  | nil => simp [runPhase]
  | cons first objects ih =>
    have hcallBacks : ∀ fs : List (Option ℕ), (fs.filterMap fun f => f.map fun f =>
        LifeEvent.callBack f index m.entites.size (m.fullName (.control first))).count
          (.phase phase' object) = 0 := fun fs =>
      List.count_eq_zero.2 fun hmem => nomatch startPhase_of_mem_callBacks hmem
    rw [runPhase, List.count_append, List.count_append, List.count_append, hcallBacks, hcallBacks,
      ih, List.count_singleton, List.count_cons]
    split_ifs with hphase <;> simp_all [Nat.add_comm]

/-- A phase calls an object once for each of its names. -/
theorem count_startNamespace (phase : StartPhase) (object : ℕ) :
    (m.startNamespace isDriver callBacks).count (.phase phase object) =
      m.controls.count object := by
  have hchannels : ((m.controls.filter isDriver).map LifeEvent.registChannels).count
      (.phase phase object) = 0 := by
    rw [List.count_eq_zero, List.mem_map]
    rintro ⟨driver, -, hdriver⟩
    cases hdriver
  rw [startNamespace]
  simp only [List.count_append, hchannels, count_runPhase]
  cases phase <;> simp

theorem startPhase_runPhase (phase : StartPhase) (index : ℕ) (objects : List ℕ) :
    (m.runPhase callBacks phase index objects).filterMap (·.startPhase) =
      List.replicate objects.length phase := by
  induction objects generalizing index with
  | nil => rfl
  | cons first objects ih =>
    have hcallBacks : ∀ fs : List (Option ℕ), (fs.filterMap fun f => f.map fun f =>
        LifeEvent.callBack f index m.entites.size (m.fullName (.control first))).filterMap
          (·.startPhase) = [] := fun fs =>
      List.filterMap_eq_nil_iff.2 fun e he => startPhase_of_mem_callBacks he
    rw [runPhase, List.filterMap_append, List.filterMap_append, List.filterMap_append, hcallBacks,
      hcallBacks, ih]
    rfl

/-- The phases come one after the other. -/
theorem pairwise_startPhase :
    ((m.startNamespace isDriver callBacks).filterMap (·.startPhase)).Pairwise
      fun phase phase' => phase.ctorIdx ≤ phase'.ctorIdx := by
  have hchannels : ((m.controls.filter isDriver).map LifeEvent.registChannels).filterMap
      (·.startPhase) = [] := by
    rw [List.filterMap_eq_nil_iff]
    intro e he
    obtain ⟨object, -, rfl⟩ := List.mem_map.1 he
    rfl
  have hstart : [LifeEvent.start].filterMap (·.startPhase) = [] := rfl
  simp only [startNamespace, List.filterMap_append, hchannels, startPhase_runPhase, hstart,
    List.nil_append, List.append_nil, List.pairwise_append, List.pairwise_replicate,
    List.mem_append, List.mem_replicate]
  simp +contextual [or_imp, StartPhase.ctorIdx]

/-! ## Shutting down -/

theorem deleteAll_eq {deleted objects : List ManagedObject} (hnodup : objects.Nodup)
    (hnew : ∀ object ∈ objects, object ∉ deleted) :
    deleteAll deleted objects = some (objects.map .delete) := by
  induction objects generalizing deleted with
  | nil => rfl
  | cons first objects ih =>
    obtain ⟨hfirst, hobjects⟩ := List.nodup_cons.1 hnodup
    obtain ⟨hfirst', hobjects'⟩ := List.forall_mem_cons.1 hnew
    rw [deleteAll, if_neg hfirst', ih hobjects, List.map_cons, Option.map_some]
    intro object hobject hmem
    rcases List.mem_cons.1 hmem with rfl | hmem
    · exact hfirst hobject
    · exact hobjects' object hobject hmem

/-- No object is used after its deletion only if each is there once. -/
theorem nodup_of_deleteAll {deleted objects : List ManagedObject} {events : List LifeEvent}
    (h : deleteAll deleted objects = some events) :
    objects.Nodup ∧ ∀ object ∈ objects, object ∉ deleted := by
  induction objects generalizing deleted events with
  | nil => exact ⟨List.nodup_nil, nofun⟩
  | cons first objects ih =>
    rw [deleteAll] at h
    split_ifs at h with hfirst
    obtain ⟨events', h', -⟩ := Option.map_eq_some_iff.1 h
    obtain ⟨hnodup, hnew⟩ := ih h'
    refine ⟨List.nodup_cons.2 ⟨fun hmem => hnew first hmem List.mem_cons_self, hnodup⟩, ?_⟩
    intro object hobject
    rcases List.mem_cons.1 hobject with rfl | hobject
    · exact hfirst
    · exact fun hmem => hnew object hobject (List.mem_cons_of_mem _ hmem)

/-- Objects that are there once are shut down and deleted once, first the one and then the
other. -/
theorem shutdownNamespace_of_nodup
    (hnodup : (m.controls.map ManagedObject.control ++ m.channels.map ManagedObject.data).Nodup) :
    ∃ events, m.shutdownNamespace = some events ∧
      (∀ object, m.Manages (.control object) → events.count (.shutdown object) = 1) ∧
      (∀ object, m.Manages object → events.count (.delete object) = 1) ∧
      (∀ e ∈ events, ∃ object, m.Manages object ∧
        (e = .delete object ∨ ∃ control, object = .control control ∧ e = .shutdown control)) ∧
      events.Pairwise fun e e' =>
        ∀ object object', e = .delete object → e' ≠ .shutdown object' := by
  have hcontrols := (oneName_iff.1 (nodup_objects_iff.1 hnodup)).1
  have hshutdown : ∀ object (objects : List ManagedObject),
      (objects.map LifeEvent.delete).count (.shutdown object) = 0 := fun object objects => by
    simp [List.count_eq_zero]
  have hdelete : ∀ object, (m.controls.map LifeEvent.shutdown).count (.delete object) = 0 :=
    fun object => by simp [List.count_eq_zero]
  refine ⟨_, congrArg _ (deleteAll_eq hnodup fun _ _ => List.not_mem_nil), ?_, ?_, ?_, ?_⟩
  · intro object hobject
    rw [List.count_append, hshutdown, Nat.add_zero,
      List.count_map_of_injective _ _ fun _ _ => LifeEvent.shutdown.inj]
    exact List.nodup_iff_count_eq_one.1 hcontrols object (manages_control_iff.1 hobject)
  · intro object hobject
    rw [List.count_append, hdelete, Nat.zero_add,
      List.count_map_of_injective _ _ fun _ _ => LifeEvent.delete.inj]
    exact List.nodup_iff_count_eq_one.1 hnodup object (manages_iff.1 hobject)
  · intro e he
    rcases List.mem_append.1 he with he | he
    · obtain ⟨control, hcontrol, rfl⟩ := List.mem_map.1 he
      exact ⟨_, manages_control_iff.2 hcontrol, Or.inr ⟨control, rfl, rfl⟩⟩
    · obtain ⟨object, hobject, rfl⟩ := List.mem_map.1 he
      exact ⟨object, manages_iff.2 hobject, Or.inl rfl⟩
  · refine List.pairwise_append.2 ⟨?_, ?_, ?_⟩
    · rw [List.pairwise_map]
      exact List.pairwise_of_forall fun _ _ _ _ heq => nomatch heq
    · rw [List.pairwise_map]
      exact List.pairwise_of_forall fun _ _ _ _ _ heq => nomatch heq
    · intro e he e' _ object object' heq
      obtain ⟨control, -, rfl⟩ := List.mem_map.1 he
      cases heq

/-- A registry without aliases keeps the life cycle. -/
theorem OneName.lifeCycle (h : m.OneName) (isDriver : ℕ → Bool)
    (callBacks : StartPhase → PhaseCallBacks) : m.LifeCycle isDriver callBacks := by
  have hcontrols := (oneName_iff.1 h).1
  refine ⟨fun phase object hobject => ?_, fun phase object hmem => ?_, pairwise_startPhase,
    shutdownNamespace_of_nodup (nodup_objects_iff.2 h)⟩
  · rw [count_startNamespace]
    exact List.nodup_iff_count_eq_one.1 hcontrols object (manages_control_iff.1 hobject)
  · rw [manages_control_iff, ← List.count_pos_iff, ← count_startNamespace phase]
    exact List.count_pos_iff.2 hmem

/-- The life cycle is kept if and only if no object is registered under two names. -/
theorem lifeCycle_iff (m : ObjectManager) (isDriver : ℕ → Bool)
    (callBacks : StartPhase → PhaseCallBacks) :
    m.LifeCycle isDriver callBacks ↔ m.OneName := by
  refine ⟨fun h => nodup_objects_iff.1 ?_, fun h => h.lifeCycle isDriver callBacks⟩
  obtain ⟨events, hevents, -⟩ := h.shutdown
  obtain ⟨deletes, hdeletes, -⟩ := Option.map_eq_some_iff.1 hevents
  exact (nodup_of_deleteAll hdeletes).1

/-- An alias makes an object start twice. -/
theorem not_lifeCycle_alias :
    ∃ m, bindAll [] [.register (.control (some 0) "/a".toList), .control (some 0) "/b".toList] =
        some m ∧
      (m.startNamespace (fun _ => false) fun _ => ⟨[], []⟩).count (.phase .make 0) = 2 ∧
      m.shutdownNamespace = none ∧ ¬m.LifeCycle (fun _ => false) fun _ => ⟨[], []⟩ := by
  refine ⟨_, rfl, rfl, rfl, fun h => ?_⟩
  have honce := h.once .make 0 ⟨"/a".toList, rfl⟩
  exact absurd honce (by decide)

/-! ## Registries -/

variable {m' : ObjectManager} {classes : ClassList} {call : BindCall}

/-- A call leaves both maps as they are, or inserts one binding into one of them. -/
theorem bind_cases (h : m.bind classes call = some m') :
    (m'.entites = m.entites ∧ m'.datas = m.datas) ∨
      (∃ object fullName, call.binds = some (.control object, fullName) ∧
        m'.entites = m.entites.insertIfNew fullName object ∧ m'.datas = m.datas) ∨
      ∃ object fullName, call.binds = some (.data object, fullName) ∧
        m'.entites = m.entites ∧ m'.datas = m.datas.insertIfNew fullName object := by
  cases call with
  | register call =>
    rw [bind] at h
    cases hstep : m.step classes call with
    | ok m₁ =>
      rw [hstep] at h
      obtain rfl := Option.some.inj h
      rcases step_ok hstep with ⟨he, hd, -⟩ | ⟨object, fullName, hbinds, he, hd⟩ |
        ⟨object, fullName, rfl, -, he, hd⟩
      · exact Or.inl ⟨he, hd⟩
      · exact Or.inr (Or.inl ⟨object, fullName, hbinds, he, hd⟩)
      · exact Or.inr (Or.inr ⟨object, fullName, rfl, he, hd⟩)
    | throws message m₁ =>
      rw [hstep] at h
      obtain rfl := Option.some.inj h
      rw [step_throws hstep]
      exact Or.inl ⟨rfl, rfl⟩
    | exits message =>
      rw [hstep] at h
      cases h
    | crash =>
      rw [hstep] at h
      cases h
  | control object aliasName =>
    obtain rfl := Option.some.inj h
    cases object with
    | none => exact Or.inl ⟨rfl, rfl⟩
    | some object =>
      rw [createAlias]
      split_ifs
      · exact Or.inl ⟨rfl, rfl⟩
      · exact Or.inr (Or.inl ⟨object, aliasName, rfl, rfl, rfl⟩)
  | data object aliasName =>
    obtain rfl := Option.some.inj h
    cases object with
    | none => exact Or.inl ⟨rfl, rfl⟩
    | some object =>
      rw [createDataAlias]
      split_ifs
      · exact Or.inl ⟨rfl, rfl⟩
      · exact Or.inr (Or.inr ⟨object, aliasName, rfl, rfl, rfl⟩)

/-- A value that is not in a map yet is inserted under one name. -/
theorem insertIfNew_oneName {t : Std.TreeMap Str ℕ} {name : Str} {object : ℕ}
    (hnew : ∀ k : Str, t[k]? ≠ some object)
    (hone : ∀ (k k' : Str) (v : ℕ), t[k]? = some v → t[k']? = some v → k = k') (k k' : Str) (v : ℕ)
    (hk : (t.insertIfNew name object)[k]? = some v)
    (hk' : (t.insertIfNew name object)[k']? = some v) : k = k' := by
  rw [Std.TreeMap.getElem?_insertIfNew] at hk hk'
  simp only [Std.compare_eq_iff_eq] at hk hk'
  split_ifs at hk hk' with hname hname' hname'
  · exact hname.1.symm.trans hname'.1
  · exact absurd (hk'.trans hk.symm) (hnew k')
  · exact absurd (hk.trans hk'.symm) (hnew k)
  · exact hone k k' v hk hk'

/-- The object that the call is to bind is not registered. -/
def BindsNew (m : ObjectManager) (call : BindCall) : Prop :=
  ∀ object fullName, call.binds = some (object, fullName) → ¬m.Manages object

theorem OneName.bind (h : m.OneName) (hnew : m.BindsNew call)
    (hbind : m.bind classes call = some m') : m'.OneName := by
  rcases bind_cases hbind with ⟨he, hd⟩ | ⟨object, fullName, hbinds, he, hd⟩ |
    ⟨object, fullName, hbinds, he, hd⟩
  · exact ⟨he ▸ h.control, hd ▸ h.data⟩
  · refine ⟨?_, hd ▸ h.data⟩
    rw [he]
    exact insertIfNew_oneName (fun k hk => hnew _ _ hbinds ⟨k, hk⟩) h.control
  · refine ⟨he ▸ h.control, ?_⟩
    rw [hd]
    exact insertIfNew_oneName (fun k hk => hnew _ _ hbinds ⟨k, hk⟩) h.data

/-- If each call is to bind an object that is not registered yet, the life cycle is kept. -/
theorem lifeCycle_bindAll (calls : List BindCall) (hbind : bindAll classes calls = some m)
    (hnew : Throughout
      (fun pre call => ∀ m, bindAll classes pre = some m → m.BindsNew call) calls) :
    m.LifeCycle isDriver callBacks := by
  have hnil : new.OneName := by
    constructor
    · intro _ _ _ h
      simp [new] at h
    · intro _ _ _ h
      simp [new] at h
  exact (hnew.run hnil (fun _ _ _ h hcall hbind => h.bind hcall hbind) m hbind).lifeCycle
    isDriver callBacks

/-- The objects that calls are to bind. -/
def boundBy (calls : List BindCall) : List ManagedObject :=
  calls.filterMap fun call => call.binds.map Prod.fst

theorem eq_or_of_insertIfNew {t : Std.TreeMap Str ℕ} {name k : Str} {object v : ℕ}
    (h : (t.insertIfNew name object)[k]? = some v) : v = object ∨ t[k]? = some v := by
  rw [Std.TreeMap.getElem?_insertIfNew] at h
  split_ifs at h
  · exact Or.inl (Option.some.inj h).symm
  · exact Or.inr h

/-- An object that is registered after a call was before, or the call was to bind it. -/
theorem manages_bind (hbind : m.bind classes call = some m') {object : ManagedObject}
    (hobject : m'.Manages object) :
    m.Manages object ∨ ∃ fullName, call.binds = some (object, fullName) := by
  rcases bind_cases hbind with ⟨he, hd⟩ | ⟨o, fullName, hbinds, he, hd⟩ |
    ⟨o, fullName, hbinds, he, hd⟩
  · cases object with
    | control object => exact Or.inl (by rwa [Manages, he] at hobject)
    | data object => exact Or.inl (by rwa [Manages, hd] at hobject)
  · cases object with
    | control object =>
      obtain ⟨name, hname⟩ := hobject
      rw [he] at hname
      rcases eq_or_of_insertIfNew hname with rfl | hname
      · exact Or.inr ⟨fullName, hbinds⟩
      · exact Or.inl ⟨name, hname⟩
    | data object => exact Or.inl (by rwa [Manages, hd] at hobject)
  · cases object with
    | control object => exact Or.inl (by rwa [Manages, he] at hobject)
    | data object =>
      obtain ⟨name, hname⟩ := hobject
      rw [hd] at hname
      rcases eq_or_of_insertIfNew hname with rfl | hname
      · exact Or.inr ⟨fullName, hbinds⟩
      · exact Or.inl ⟨name, hname⟩

/-- An object that is registered is one that a call was to bind. -/
theorem mem_boundBy_of_manages {calls : List BindCall} (hbind : bindAll classes calls = some m)
    {object : ManagedObject} (hobject : m.Manages object) : object ∈ boundBy calls := by
  induction calls using List.reverseRecOn generalizing m with
  | nil =>
    obtain rfl := Option.some.inj hbind
    cases object <;> simp [Manages, new] at hobject
  | append_singleton calls call ih =>
    rw [bindAll, List.foldlM_append] at hbind
    obtain ⟨m₁, hcalls, hcall⟩ := Option.bind_eq_some_iff.1 hbind
    replace hcall : m₁.bind classes call = some m := by simpa using hcall
    rw [boundBy, List.filterMap_append, List.mem_append]
    rcases manages_bind hcall hobject with hobject | ⟨fullName, hbinds⟩
    · exact Or.inl (ih hcalls hobject)
    · exact Or.inr (by simp [hbinds])

/-- If the calls are to bind different objects, the life cycle is kept. -/
theorem lifeCycle_of_nodup {calls : List BindCall} (hbind : bindAll classes calls = some m)
    (hnodup : (boundBy calls).Nodup) : m.LifeCycle isDriver callBacks := by
  refine lifeCycle_bindAll calls hbind fun pre call hpre m₁ hm₁ object fullName hbinds hobject => ?_
  obtain ⟨post, rfl⟩ := hpre
  have hcall : object ∈ boundBy [call] := by simp [boundBy, hbinds]
  rw [boundBy, List.filterMap_append, List.filterMap_append] at hnodup
  exact (List.nodup_append'.1 hnodup.of_append_left).2.2 (mem_boundBy_of_manages hm₁ hobject) hcall

end ObjectManager

end Ick
