import Ick.ControlConfig
import Ick.NodeTree
import Ick.UnknownChannels

/-!
# Loading the configuration

`XmlParser::loadConfigFile` fills the registry of a program : `LoadIO` with the channels of
`io_config.xml`, and `LoadControlObject` after it with the control objects of
`control_config.xml`. What a file has for its document element is a parameter here, `none` for a
file that could not be parsed.

When both have been loaded, a path is bound to the object of the first instance with it, or else to
the channel with it (`getObject_loadConfigFile`), an object has got the methods of all instances
with its path (`calls_loadConfigFile`), the folders list what the channels are called
(`getChannelNodeList_loadConfigFile`), and the life cycle is kept (`lifeCycle_loadConfigFile`).
This is so exactly for the documents of `loadConfigFile_returns_iff`.
-/

namespace Ick

/-- The outcome, with the state in another one. -/
def Outcome.map {σ τ : Type*} (f : σ → τ) : Outcome σ → Outcome τ
  | ok s => ok (f s)
  | throws message s => throws message (f s)
  | crash => crash

theorem Outcome.map_eq_ok {σ τ : Type*} {f : σ → τ} {o : Outcome σ} {t : τ} :
    o.map f = .ok t ↔ ∃ s, o = .ok s ∧ f s = t := by
  cases o <;> simp [Outcome.map]

namespace XmlParser

/-- What `loadConfigFile` fills : the channels with the registry, and the control objects. -/
structure Config where
  loader : Loader
  next : ℕ
  msgMap : ℕ → MsgMap
  calls : List ControlCall

namespace Config

/-- A program that has not loaded anything. -/
def new : Config := ⟨⟨.new, 0, []⟩, 0, fun _ => [], []⟩

/-- The program when it has loaded its channels. -/
def afterIo (l : Loader) : Config := ⟨l, 0, fun _ => [], []⟩

/-- What `LoadControlObject` works on. -/
def control (c : Config) : ControlLoader := ⟨c.loader.manager, c.next, c.msgMap, c.calls⟩

/-- What `LoadControlObject` has made of it. -/
def setControl (c : Config) (l : ControlLoader) : Config :=
  ⟨{ c.loader with manager := l.manager }, l.next, l.msgMap, l.calls⟩

end Config

/-- The call of `LoadIO`. -/
def loadIoFile (clib : CLib) (io : Option DomElement) (c : Config) : Outcome Config :=
  match io with
  | none => .ok c
  | some root => (loadIo clib c.loader [document] root).map fun l => { c with loader := l }

/-- The call of `LoadControlObject`. -/
def loadControlFile (clib : CLib) (classes : ControlClasses) (control : Option DomElement)
    (c : Config) : Outcome Config :=
  match control with
  | none => .ok c
  | some root => (loadControlObject clib classes c.control [document] root).map c.setControl

/-- `loadConfigFile` -/
def loadConfigFile (clib : CLib) (classes : ControlClasses) (io control : Option DomElement)
    (c : Config) : Outcome Config :=
  (loadIoFile clib io c).bind (loadControlFile clib classes control)

/-! ## The channels of a document -/

/-- The path of an element that is visited. -/
def pathOf (v : Visit) : Str := v.2.path v.1

/-- The channels among these. -/
def channels (vs : List Visit) : List Visit := vs.filter fun v => IsChannel v.2.attributes

/-- The channels of a document, in document order. -/
def channelsOf (io : Option DomElement) : List Visit :=
  match io with
  | none => []
  | some root => channels (visits [document] root)

/-- The instances of a document. -/
def instancesOf (control : Option DomElement) : List Instance :=
  match control with
  | none => []
  | some root => root.instances

/-- What `LoadIO` makes of a channel, unless it ends there. -/
def DomElement.loaded (clib : CLib) (ele : DomElement) : Option LoadedData :=
  ele.dataClass.bind fun c =>
    match readAll clib (childElements ele.firstChild)
      ⟨0, 0, some ((LoadedData.new c).setAttributes ele.attributes)⟩ with
    | .ok ⟨n, m, some d⟩ =>
      if (n = 0 ∧ m = 0) ∧ (d.nodeNumber = 0 ∧ d.channelNumber = 0) then none
      else some (if ¬(n = 0 ∧ m = 0) then { d with nodeNumber := n, channelNumber := m } else d)
    | _ => none

/-- A channel of a class that is known, whose methods all return, and which has a number. -/
structure Complete (clib : CLib) (ele : DomElement) : Prop where
  known : ele.dataClass ≠ none
  dispatched : Dispatched clib (childElements ele.firstChild)
  numbered : ¬(((lastNumber .nodeNumber (childElements ele.firstChild)).getD 0 = 0 ∧
      (lastNumber .channelNumber (childElements ele.firstChild)).getD 0 = 0) ∧
    attributeNumber ele.attributes "Bd" = 0 ∧ attributeNumber ele.attributes "Ch" = 0)

/-- The channels can be loaded one after the other : each is complete, and the paths are distinct,
none is the root, and none is taken. -/
structure LoadableChannels (clib : CLib) (m : ObjectManager) (vs : List Visit) : Prop where
  complete : ∀ v ∈ vs, Complete clib v.2
  notRoot : ∀ v ∈ vs, pathOf v ≠ ['/']
  distinct : (vs.map pathOf).Nodup
  free : ∀ v ∈ vs, pathOf v ∉ m.datas

/-- The loader after the channels. -/
structure LoadedChannels (clib : CLib) (l : Loader) (vs : List Visit) (l' : Loader) : Prop where
  datas : ∀ path : Str, l'.manager.datas[path]? =
    l.manager.datas[path]?.or ((vs.findIdx? (pathOf · = path)).map (l.next + ·))
  entites : l'.manager.entites = l.manager.entites
  next : l'.next = l.next + vs.length
  calls : l'.calls = l.calls ++ vs.filterMap fun v => (v.2.loaded clib).map (·, pathOf v)

/-! ## One channel -/

variable {clib : CLib} {classes : ControlClasses} {l l' : Loader} {ele : DomElement}
  {parents : List (List UInt16)} {vs : List Visit}

/-- The object that is registered for a channel. -/
theorem loadElement_eq_loaded (hchannel : IsChannel ele.attributes) :
    loadElement clib l parents ele = .ok l' ↔
      ∃ d, ele.loaded clib = some d ∧ registerObject l d (ele.path parents) = .ok l' := by
  cases hclass : ele.dataClass with
  | none =>
    have hcrash := (@not_nullSafe_of_unknown clib l parents ele hchannel hclass).2
    simp [hcrash, DomElement.loaded, hclass]
  | some c =>
    rw [loadElement_eq hclass, DomElement.loaded, hclass, Option.bind_some]
    cases readAll clib (childElements ele.firstChild)
        ⟨0, 0, some ((LoadedData.new c).setAttributes ele.attributes)⟩ with
    | ok s =>
      obtain ⟨n, m, d⟩ := s
      cases d with
      | none => simp
      | some d =>
        dsimp only
        split_ifs <;> simp
    | throws message s => simp
    | crash => simp

/-- A channel that is complete is loaded. -/
theorem isSome_loaded_iff : (ele.loaded clib).isSome ↔ Complete clib ele := by
  cases hclass : ele.dataClass with
  | none => simpa [DomElement.loaded, hclass] using fun h : Complete clib ele => h.known hclass
  | some c =>
    rw [DomElement.loaded, hclass, Option.bind_some]
    by_cases hdispatched : Dispatched clib (childElements ele.firstChild)
    · obtain ⟨simulated, hread⟩ := readAll_ok hdispatched 0 0
        ((LoadedData.new c).setAttributes ele.attributes)
      obtain ⟨hnode, hchannel⟩ := setAttributes_numbers ele.attributes c
      rw [hread]
      dsimp only
      rw [hnode, hchannel]
      split_ifs with hnone hchildren
      · exact iff_of_false (by simp) fun h => h.numbered hnone
      · exact iff_of_true rfl ⟨by simp [hclass], hdispatched, hnone⟩
      · exact iff_of_true rfl ⟨by simp [hclass], hdispatched, hnone⟩
    · refine iff_of_false ?_ fun h => hdispatched h.dispatched
      cases hread : readAll clib (childElements ele.firstChild)
          ⟨0, 0, some ((LoadedData.new c).setAttributes ele.attributes)⟩ with
      | ok s => exact absurd hread (readAll_ne_ok hdispatched _ _)
      | throws message s => simp
      | crash => simp

/-- What a registration does to the loader. -/
theorem registerObject_spec {d : LoadedData} {path : Str} (hhead : path.head? = some '/')
    (h : registerObject l d path = .ok l') :
    l'.manager.datas = l.manager.datas.insertIfNew path l.next ∧
      l'.manager.entites = l.manager.entites ∧ l'.next = l.next + 1 ∧
      l'.calls = l.calls ++ [(d, path)] := by
  have hnil : path ≠ [] := by
    rintro rfl
    cases hhead
  obtain ⟨hslash, hfree⟩ := registrable_of_ok hhead h
  unfold registerObject ObjectManager.registerData at h
  simp only [if_neg hnil, hhead, ne_eq, not_true_eq_false, if_false, if_neg hslash,
    if_pos hfree] at h
  cases hsplit : Converter.split path '/' with
  | none => simp [hsplit] at h
  | some names =>
    rw [hsplit] at h
    obtain rfl := Outcome.ok.inj h
    exact ⟨rfl, rfl, rfl, rfl⟩

/-! ## All channels -/

theorem head?_pathOf (v : Visit) : (pathOf v).head? = some '/' := head?_path v.2 v.1

theorem loadAll_cons_of_channel {v : Visit} (hchannel : IsChannel v.2.attributes) :
    loadAll clib (v :: vs) l = .ok l' ↔ ∃ d l₁, v.2.loaded clib = some d ∧
      registerObject l d (pathOf v) = .ok l₁ ∧ loadAll clib vs l₁ = .ok l' := by
  rw [loadAll, Outcome.bind_eq_ok]
  simp only [loadElement_eq_loaded hchannel]
  constructor
  · rintro ⟨l₁, ⟨d, hd, hregister⟩, h⟩
    exact ⟨d, l₁, hd, hregister, h⟩
  · rintro ⟨d, l₁, hd, hregister, h⟩
    exact ⟨l₁, ⟨d, hd, hregister⟩, h⟩

theorem loadAll_cons_of_not_channel {v : Visit} (hchannel : ¬IsChannel v.2.attributes) :
    loadAll clib (v :: vs) l = loadAll clib vs l := by
  rw [loadAll, loadElement, if_neg (mt isChannel_iff.1 hchannel)]
  rfl

theorem channels_cons (v : Visit) (vs : List Visit) :
    channels (v :: vs) = if IsChannel v.2.attributes then v :: channels vs else channels vs := by
  by_cases hchannel : IsChannel v.2.attributes <;> simp [channels, hchannel]

/-- The first channel can be loaded, and the others can with its path taken. -/
theorem loadableChannels_cons {m m₁ : ObjectManager} {v : Visit} {n : ℕ}
    (hm : m₁.datas = m.datas.insertIfNew (pathOf v) n) :
    LoadableChannels clib m (v :: vs) ↔
      Complete clib v.2 ∧ (pathOf v ≠ ['/'] ∧ pathOf v ∉ m.datas) ∧
        LoadableChannels clib m₁ vs := by
  have hmem : ∀ path : Str, path ∈ m₁.datas ↔ pathOf v = path ∨ path ∈ m.datas := by
    intro path
    rw [hm, Std.TreeMap.mem_insertIfNew, Std.compare_eq_iff_eq]
  constructor
  · rintro ⟨hcomplete, hslash, hdistinct, hfree⟩
    rw [List.map_cons, List.nodup_cons] at hdistinct
    rw [List.forall_mem_cons] at hcomplete hslash hfree
    refine ⟨hcomplete.1, ⟨hslash.1, hfree.1⟩, hcomplete.2, hslash.2, hdistinct.2, ?_⟩
    intro w hw hmem'
    obtain heq | hmem' := (hmem _).1 hmem'
    · exact hdistinct.1 (heq ▸ List.mem_map_of_mem hw)
    · exact hfree.2 w hw hmem'
  · rintro ⟨hcomplete, ⟨hslash, hfree⟩, hrest⟩
    refine ⟨List.forall_mem_cons.2 ⟨hcomplete, hrest.complete⟩,
      List.forall_mem_cons.2 ⟨hslash, hrest.notRoot⟩, ?_, List.forall_mem_cons.2 ⟨hfree, ?_⟩⟩
    · rw [List.map_cons, List.nodup_cons, List.mem_map]
      refine ⟨?_, hrest.distinct⟩
      rintro ⟨w, hw, hpath⟩
      exact hrest.free w hw ((hmem _).2 (Or.inl hpath.symm))
    · exact fun w hw hmem' => hrest.free w hw ((hmem _).2 (Or.inr hmem'))

/-- The elements that are loaded to the end. -/
theorem loadAll_returns_iff :
    (∃ l', loadAll clib vs l = .ok l') ↔ LoadableChannels clib l.manager (channels vs) := by
  induction vs generalizing l with
  | nil => exact iff_of_true ⟨l, rfl⟩ ⟨by simp [channels], by simp [channels], List.nodup_nil,
      by simp [channels]⟩
  | cons v vs ih =>
    rw [channels_cons]
    split_ifs with hchannel
    · have hhead := head?_pathOf v
      simp only [loadAll_cons_of_channel hchannel]
      constructor
      · rintro ⟨l', d, l₁, hd, hregister, h⟩
        rw [loadableChannels_cons (registerObject_spec hhead hregister).1, ← ih]
        exact ⟨isSome_loaded_iff.1 (by rw [hd]; rfl), registrable_of_ok hhead hregister, l', h⟩
      · intro h
        have hcomplete := isSome_loaded_iff.2 (h.complete v List.mem_cons_self)
        obtain ⟨d, hd⟩ := Option.isSome_iff_exists.1 hcomplete
        obtain ⟨l₁, hregister⟩ := registerObject_ok (l := l) (d := d) hhead
          ⟨h.notRoot v List.mem_cons_self, h.free v List.mem_cons_self⟩
        rw [loadableChannels_cons (registerObject_spec hhead hregister).1, ← ih] at h
        obtain ⟨-, -, l', h⟩ := h
        exact ⟨l', d, l₁, hd, hregister, h⟩
    · rw [loadAll_cons_of_not_channel hchannel]
      exact ih

/-- What the elements have registered. -/
theorem loadedChannels_loadAll (h : loadAll clib vs l = .ok l') :
    LoadedChannels clib l (channels vs) l' := by
  induction vs generalizing l with
  | nil =>
    obtain rfl := Outcome.ok.inj h
    exact ⟨fun _ => by simp [channels], rfl, rfl, by simp [channels]⟩
  | cons v vs ih =>
    rw [channels_cons]
    split_ifs with hchannel
    · obtain ⟨d, l₁, hd, hregister, h⟩ := (loadAll_cons_of_channel hchannel).1 h
      obtain ⟨hdatas, hentites, hnext, hcalls⟩ := registerObject_spec (head?_pathOf v) hregister
      have hrest := ih h
      refine ⟨fun path => ?_, hrest.entites.trans hentites, ?_, ?_⟩
      · rw [hrest.datas, hdatas, Std.TreeMap.getElem?_insertIfNew, List.findIdx?_cons, hnext]
        by_cases hpath : pathOf v = path
        · subst hpath
          have hfree := (registrable_of_ok (head?_pathOf v) hregister).2
          simp [hfree]
        · simp [hpath, Nat.add_assoc, Nat.add_comm 1, Function.comp_def]
      · rw [hrest.next, hnext, List.length_cons]
        omega
      · rw [hrest.calls, hcalls, List.filterMap_cons, hd, List.append_assoc]
        rfl
    · rw [loadAll_cons_of_not_channel hchannel] at h
      exact ih h

/-! ## The whole configuration -/

variable {io control : Option DomElement} {c : Config}

/-- The registry, the channels and the calls of a new program that has loaded both documents. -/
structure LoadedConfig (clib : CLib) (classes : ControlClasses) (vs : List Visit)
    (is : List Instance) (c : Config) : Prop where
  datas : ∀ path : Str, c.loader.manager.datas[path]? = vs.findIdx? (pathOf · = path)
  entites : ∀ path : Str, c.loader.manager.entites[path]? = is.findIdx? (·.path = path)
  channels : c.loader.calls = vs.filterMap fun v => (v.2.loaded clib).map (·, pathOf v)
  calls : c.calls = is.flatMap (Config.new.control.callsFrom clib classes is)

/-- A loader that has not created any object. -/
structure ControlLoader.Empty (l : ControlLoader) : Prop where
  entites : ∀ path : Str, l.manager.entites[path]? = none
  next : l.next = 0
  msgMap : l.msgMap = fun _ => []
  calls : l.calls = []

namespace ControlLoader.Empty

variable {l l' : ControlLoader} {is : List Instance}

theorem bound (h : l.Empty) (is : List Instance) (path : Str) :
    l.bound is path = is.findIdx? (·.path = path) := by
  rw [ControlLoader.bound, h.entites, h.next]
  simp

theorem allocated (h : l.Empty) : l.Allocated := by
  intro path object hobject
  rw [h.entites] at hobject
  cases hobject

theorem tables (h : l.Empty) (h' : l'.Empty) : l.tables classes is = l'.tables classes is := by
  funext object
  rw [ControlLoader.tables, ControlLoader.tables, h.next, h'.next, h.msgMap, h'.msgMap]

theorem callsFrom (h : l.Empty) (h' : l'.Empty) :
    l.callsFrom clib classes is = l'.callsFrom clib classes is := by
  funext i
  rw [ControlLoader.callsFrom, ControlLoader.callsFrom, h.bound, h'.bound, h.tables h']

theorem loadable_iff (h : l.Empty) (h' : l'.Empty) {i : Instance} :
    Loadable clib classes l is i ↔ Loadable clib classes l' is i := by
  constructor
  · rintro ⟨hclass, hmethods⟩
    exact ⟨hclass, by simpa only [h.bound, h'.bound, h.tables h'] using hmethods⟩
  · rintro ⟨hclass, hmethods⟩
    exact ⟨hclass, by simpa only [h.bound, h'.bound, h.tables h'] using hmethods⟩

end ControlLoader.Empty

theorem empty_afterIo (hl : LoadedChannels clib Config.new.loader vs l) :
    (Config.afterIo l).control.Empty where
  entites path := by
    rw [Config.control, Config.afterIo, hl.entites]
    simp [Config.new, ObjectManager.new]
  next := rfl
  msgMap := rfl
  calls := rfl

theorem empty_new : Config.new.control.Empty :=
  ⟨fun _ => by simp [Config.control, Config.new, ObjectManager.new], rfl, rfl, rfl⟩

theorem loadIoFile_cases (h : loadIoFile clib io .new = .ok c) :
    ∃ l, LoadedChannels clib Config.new.loader (channelsOf io) l ∧ c = Config.afterIo l := by
  cases io with
  | none => exact ⟨_, ⟨fun _ => by simp [channelsOf], rfl, rfl, by simp [channelsOf]⟩,
      (Outcome.ok.inj h).symm⟩
  | some root =>
    rw [loadIoFile, loadIo_eq_loadAll] at h
    obtain ⟨l, hload, rfl⟩ := Outcome.map_eq_ok.1 h
    exact ⟨l, loadedChannels_loadAll hload, rfl⟩

theorem loadIoFile_returns_iff :
    (∃ c, loadIoFile clib io .new = .ok c) ↔ LoadableChannels clib .new (channelsOf io) := by
  cases io with
  | none => exact iff_of_true ⟨_, rfl⟩ ⟨by simp [channelsOf], by simp [channelsOf], List.nodup_nil,
      by simp [channelsOf]⟩
  | some root =>
    rw [loadIoFile, loadIo_eq_loadAll, channelsOf]
    refine Iff.trans ?_ (loadAll_returns_iff (l := Config.new.loader))
    cases loadAll clib (visits [document] root) Config.new.loader <;> simp [Outcome.map]

theorem loadControlFile_cases (hempty : c.control.Empty) {c' : Config}
    (h : loadControlFile clib classes control c = .ok c') :
    Loaded clib classes c.control (instancesOf control) c'.control ∧
      c'.loader.calls = c.loader.calls := by
  cases control with
  | none =>
    obtain rfl := Outcome.ok.inj h
    exact ⟨⟨fun _ => by simp [ControlLoader.bound, instancesOf], rfl, rfl, rfl,
      by simp [funext_iff, ControlLoader.tables, instancesOf], by simp [instancesOf]⟩, rfl⟩
  | some root =>
    rw [loadControlFile] at h
    obtain ⟨l, hload, rfl⟩ := Outcome.map_eq_ok.1 h
    exact ⟨loaded_loadControlObject hempty.allocated hload, rfl⟩

theorem loadControlFile_returns_iff (hempty : c.control.Empty) :
    (∃ c', loadControlFile clib classes control c = .ok c') ↔
      ∀ i ∈ instancesOf control, Loadable clib classes c.control (instancesOf control) i := by
  cases control with
  | none => simp [loadControlFile, instancesOf]
  | some root =>
    rw [loadControlFile, instancesOf, ← loadControlObject_returns_iff hempty.allocated]
    cases loadControlObject clib classes c.control [document] root <;> simp [Outcome.map]

theorem loaded_loadConfigFile (h : loadConfigFile clib classes io control .new = .ok c) :
    LoadedConfig clib classes (channelsOf io) (instancesOf control) c := by
  obtain ⟨c₁, hio, hcontrol⟩ := Outcome.bind_eq_ok.1 h
  obtain ⟨l, hl, rfl⟩ := loadIoFile_cases hio
  have hempty := empty_afterIo hl
  obtain ⟨hloaded, hcalls⟩ := loadControlFile_cases hempty hcontrol
  refine ⟨fun path => ?_, fun path => ?_, hcalls.trans hl.calls, ?_⟩
  · have hdatas : c.loader.manager.datas = l.manager.datas := hloaded.datas
    rw [hdatas, hl.datas]
    simp [Config.new, ObjectManager.new]
  · exact (hloaded.entites path).trans (hempty.bound _ _)
  · have hcalls : c.calls = (Config.afterIo l).control.calls ++
        (instancesOf control).flatMap _ := hloaded.calls
    rw [hcalls, hempty.callsFrom empty_new]
    rfl

/-- The documents that a new program loads to their ends. -/
theorem loadConfigFile_returns_iff (clib : CLib) (classes : ControlClasses)
    (io control : Option DomElement) :
    (∃ c, loadConfigFile clib classes io control .new = .ok c) ↔
      LoadableChannels clib .new (channelsOf io) ∧
        ∀ i ∈ instancesOf control,
          Loadable clib classes Config.new.control (instancesOf control) i := by
  rw [← loadIoFile_returns_iff]
  simp only [loadConfigFile, Outcome.bind_eq_ok]
  constructor
  · rintro ⟨c, c₁, hio, hcontrol⟩
    obtain ⟨l, hl, rfl⟩ := loadIoFile_cases hio
    have hempty := empty_afterIo hl
    exact ⟨⟨_, hio⟩, fun i hi => (hempty.loadable_iff empty_new).1
      ((loadControlFile_returns_iff hempty).1 ⟨c, hcontrol⟩ i hi)⟩
  · rintro ⟨⟨c₁, hio⟩, hloadable⟩
    obtain ⟨l, hl, rfl⟩ := loadIoFile_cases hio
    have hempty := empty_afterIo hl
    obtain ⟨c, hcontrol⟩ := (@loadControlFile_returns_iff clib _ _ _ hempty).2
      fun i hi => (hempty.loadable_iff empty_new).2 (hloadable i hi)
    exact ⟨c, _, hio, hcontrol⟩

/-! ## Objects and their paths -/

variable {n : ℕ} {i : Instance} {is : List Instance}

/-- An element is the first with one key only. -/
theorem key_of_findIdx? {α β : Type*} [DecidableEq β] {key : α → β} {xs : List α} {k : β} {x : α}
    (hx : xs[n]? = some x) (h : xs.findIdx? (key · = k) = some n) : key x = k := by
  obtain ⟨hn, hkey, -⟩ := List.findIdx?_eq_some_iff_getElem.1 h
  rw [List.getElem?_eq_getElem hn, Option.some.injEq] at hx
  rw [← hx]
  exact of_decide_eq_true hkey

theorem getElem?_of_findIdx? {α : Type*} {p : α → Bool} {xs : List α}
    (h : xs.findIdx? p = some n) : ∃ x, xs[n]? = some x := by
  obtain ⟨hn, -⟩ := List.findIdx?_eq_some_iff_getElem.1 h
  exact ⟨_, List.getElem?_eq_getElem hn⟩

theorem path_ne_nil_of_mem (hi : i ∈ instancesOf control) : i.path ≠ [] := by
  cases control with
  | none => cases hi
  | some root => exact path_ne_nil hi

theorem object_of_mem_callsOf {msgMap : MsgMap} {call : ControlCall}
    (hcall : call ∈ callsOf clib classes n msgMap i) : call.object = n := by
  obtain ⟨method, -, hmethod⟩ := List.mem_filterMap.1 hcall
  rw [Option.join_eq_some_iff, invocation] at hmethod
  split at hmethod
  · split_ifs at hmethod
    cases hmethod
    rfl
  · cases hmethod
  · cases hmethod
  · cases hmethod

/-- The calls that an instance makes on an object. -/
theorem filter_callsFrom (hi : is[n]? = some i) (j : Instance) :
    (Config.new.control.callsFrom clib classes is j).filter (·.object = n) =
      if is.findIdx? (·.path = j.path) = some n then
        callsOf clib classes n (classes.msgMap i.className) j
      else [] := by
  rw [ControlLoader.callsFrom, empty_new.bound]
  cases hbound : is.findIdx? (·.path = j.path) with
  | none => rfl
  | some object =>
    by_cases hobject : object = n
    · subst hobject
      have htables : Config.new.control.tables classes is object =
          classes.msgMap i.className := by
        rw [ControlLoader.tables, empty_new.next, if_pos (Nat.zero_le _), Nat.sub_zero, hi]
      rw [if_pos rfl, ← htables]
      exact List.filter_eq_self.2 fun call hcall => decide_eq_true (object_of_mem_callsOf hcall)
    · rw [if_neg (by simpa using hobject)]
      refine List.filter_eq_nil_iff.2 fun call hcall => ?_
      rw [object_of_mem_callsOf hcall]
      simpa using hobject

theorem flatMap_filter_path (path : Str) (f : Instance → List ControlCall) :
    is.flatMap (fun j => if j.path = path then f j else []) =
      (is.filter (·.path = path)).flatMap f := by
  induction is with
  | nil => rfl
  | cons j is ih =>
    rw [List.flatMap_cons, ih, List.filter_cons]
    by_cases hpath : j.path = path <;> simp [hpath]

/-- What is found in the registry : the object of the first instance with the path, and else the
channel with the path. -/
theorem getObject_loadConfigFile (clib : CLib) (classes : ControlClasses)
    (io control : Option DomElement) (c : Config)
    (h : loadConfigFile clib classes io control .new = .ok c)
    (path : Str) :
    c.loader.manager.getObject path =
      (((instancesOf control).findIdx? (·.path = path)).map .control).or
        (((channelsOf io).findIdx? (pathOf · = path)).map .data) := by
  have hloaded := loaded_loadConfigFile h
  rw [ObjectManager.getObject]
  split_ifs with hnil
  · have hinstances : (instancesOf control).findIdx? (·.path = path) = none :=
      List.findIdx?_eq_none_iff.2 fun i hi => by simpa [hnil] using path_ne_nil_of_mem hi
    have hchannels : (channelsOf io).findIdx? (pathOf · = path) = none := by
      refine List.findIdx?_eq_none_iff.2 fun v _ => ?_
      have hhead := head?_pathOf v
      rw [decide_eq_false_iff_not]
      rintro hpath
      rw [hpath, hnil] at hhead
      cases hhead
    rw [hinstances, hchannels]
    rfl
  · rw [hloaded.entites, hloaded.datas]
    cases (instancesOf control).findIdx? (·.path = path) <;> rfl

/-- The class `C`, with a method `m` of a text. -/
def classC : ControlClasses where
  classes := [("C".toList, true)]
  msgMap _ := [[⟨"m".toList, .METHOD_S, 7⟩, ⟨[], .METHOD_END, 0⟩]]
  throws _ _ _ := none

/-- An instance hides a channel with its path. -/
theorem getObject_loadConfigFile_hidden : ∃ c,
    loadConfigFile Update.clib_zero classC (some nested) (some instancesOfOnePath) .new = .ok c ∧
      c.loader.manager.getObject "/a/b".toList = some (.control 0) ∧
      c.loader.manager.getObject "/a/b/c".toList = some (.data 1) :=
  ⟨_, rfl, (getObject_loadConfigFile Update.clib_zero classC (some nested)
    (some instancesOfOnePath) _ rfl _).trans rfl,
    (getObject_loadConfigFile Update.clib_zero classC (some nested)
    (some instancesOfOnePath) _ rfl _).trans rfl⟩

/-- The calls of the methods of an object : those of all instances with its path, if its own is the
first of them, and else none. -/
theorem calls_loadConfigFile (clib : CLib) (classes : ControlClasses)
    (io control : Option DomElement) (c : Config)
    (h : loadConfigFile clib classes io control .new = .ok c) (n : ℕ)
    (i : Instance) (hi : (instancesOf control)[n]? = some i) :
    c.calls.filter (·.object = n) =
      if (instancesOf control).findIdx? (·.path = i.path) = some n then
        ((instancesOf control).filter (·.path = i.path)).flatMap
          (callsOf clib classes n (classes.msgMap i.className))
      else [] := by
  rw [(loaded_loadConfigFile h).calls, List.filter_flatMap]
  simp only [filter_callsFrom hi]
  by_cases hfirst : (instancesOf control).findIdx? (·.path = i.path) = some n
  · rw [if_pos hfirst, ← flatMap_filter_path]
    refine congrArg (List.flatMap · (instancesOf control)) (funext fun j => ?_)
    refine if_congr ⟨fun hj => ?_, fun hj => ?_⟩ rfl rfl
    · exact (key_of_findIdx? hi hj).symm
    · rw [hj, hfirst]
  · rw [if_neg hfirst, List.flatMap_eq_nil_iff]
    intro j _
    rw [if_neg]
    intro hj
    rw [← (key_of_findIdx? hi hj : i.path = j.path)] at hj
    exact hfirst hj

/-- The methods of both instances are called on the first object. -/
theorem calls_loadConfigFile_twice : ∃ c,
    loadConfigFile Update.clib_zero classC (some nested) (some instancesOfOnePath) .new = .ok c ∧
      c.calls.filter (·.object = 0) =
        [⟨0, 7, [.string "x".toList]⟩, ⟨0, 7, [.string "y".toList]⟩] ∧
      c.calls.filter (·.object = 1) = [] :=
  ⟨_, rfl, (calls_loadConfigFile Update.clib_zero classC (some nested)
    (some instancesOfOnePath) _ rfl 0 _ rfl).trans rfl,
    (calls_loadConfigFile Update.clib_zero classC (some nested)
    (some instancesOfOnePath) _ rfl 1 _ rfl).trans rfl⟩

/-- The registrations of channels, whose objects are numbered from here on. -/
def channelBinds : ℕ → List Visit → List BindCall
  | _, [] => []
  | n, v :: vs => .register (.data (some n) (pathOf v)) :: channelBinds (n + 1) vs

/-- The registrations of a configuration. -/
def bindsOf (io control : Option DomElement) : List BindCall :=
  channelBinds 0 (channelsOf io) ++ instanceBinds 0 (instancesOf control)

theorem boundBy_channelBinds (n : ℕ) (vs : List Visit) :
    ObjectManager.boundBy (channelBinds n vs) = (List.range' n vs.length).map .data := by
  induction vs generalizing n with
  | nil => rfl
  | cons v vs ih =>
    rw [List.length_cons, List.range'_succ, List.map_cons, ← ih]
    rfl

/-- What a registration does to the registry. -/
theorem bind_registerObject {d : LoadedData} {path : Str} (h : registerObject l d path = .ok l')
    (classList : ClassList) :
    l.manager.bind classList (.register (.data (some l.next) path)) = some l'.manager := by
  rw [registerObject] at h
  rw [ObjectManager.bind, ObjectManager.step]
  cases hregister : l.manager.registerData (some l.next) path with
  | ok manager =>
    rw [hregister] at h
    rw [← Outcome.ok.inj h]
    rfl
  | throws message manager => simp [hregister] at h
  | crash => simp [hregister] at h

/-- The registry of the channels is that of their registrations. -/
theorem bindAll_loadAll (h : loadAll clib vs l = .ok l') (classList : ClassList) :
    (channelBinds l.next (channels vs)).foldlM (ObjectManager.bind classList) l.manager =
      some l'.manager := by
  induction vs generalizing l with
  | nil =>
    obtain rfl := Outcome.ok.inj h
    rfl
  | cons v vs ih =>
    rw [channels_cons]
    split_ifs with hchannel
    · obtain ⟨d, l₁, hd, hregister, h⟩ := (loadAll_cons_of_channel hchannel).1 h
      obtain ⟨-, -, hnext, -⟩ := registerObject_spec (head?_pathOf v) hregister
      rw [channelBinds, List.foldlM_cons, bind_registerObject hregister, ← hnext]
      exact ih h
    · rw [loadAll_cons_of_not_channel hchannel] at h
      exact ih h

theorem bindAll_loadIoFile (h : loadIoFile clib io .new = .ok c) (classList : ClassList) :
    ObjectManager.bindAll classList (channelBinds 0 (channelsOf io)) = some c.loader.manager := by
  cases io with
  | none =>
    obtain rfl := Outcome.ok.inj h
    rfl
  | some root =>
    rw [loadIoFile, loadIo_eq_loadAll] at h
    obtain ⟨l, hload, rfl⟩ := Outcome.map_eq_ok.1 h
    exact bindAll_loadAll hload classList

theorem bindAll_loadControlFile (hempty : c.control.Empty) {c' : Config}
    (h : loadControlFile clib classes control c = .ok c') :
    (instanceBinds 0 (instancesOf control)).foldlM (ObjectManager.bind classes.classes)
      c.loader.manager = some c'.loader.manager := by
  cases control with
  | none =>
    obtain rfl := Outcome.ok.inj h
    rfl
  | some root =>
    rw [loadControlFile] at h
    obtain ⟨l, hload, rfl⟩ := Outcome.map_eq_ok.1 h
    rw [loadControlObject_eq] at hload
    rw [← hempty.next]
    exact bindAll_loadInstances hempty.allocated (fun _ => path_ne_nil) hload

/-- The registry of a program that has loaded its configuration is that of its registrations. -/
theorem bindAll_loadConfigFile (h : loadConfigFile clib classes io control .new = .ok c) :
    ObjectManager.bindAll classes.classes (bindsOf io control) = some c.loader.manager := by
  obtain ⟨c₁, hio, hcontrol⟩ := Outcome.bind_eq_ok.1 h
  obtain ⟨l, hl, rfl⟩ := loadIoFile_cases hio
  have hchannels := bindAll_loadIoFile hio classes.classes
  rw [ObjectManager.bindAll] at hchannels ⊢
  rw [bindsOf, List.foldlM_append, hchannels]
  exact bindAll_loadControlFile (empty_afterIo hl) hcontrol

theorem nodup_boundBy_bindsOf (io control : Option DomElement) :
    (ObjectManager.boundBy (bindsOf io control)).Nodup := by
  have happend : ObjectManager.boundBy (bindsOf io control) =
      (List.range' 0 (channelsOf io).length).map ManagedObject.data ++
        (List.range' 0 (instancesOf control).length).map ManagedObject.control := by
    rw [← boundBy_channelBinds, ← boundBy_instanceBinds]
    exact List.filterMap_append ..
  rw [happend, List.nodup_append']
  refine ⟨?_, ?_, fun object hdata hcontrol => ?_⟩
  · exact List.Nodup.map (fun _ _ => ManagedObject.data.inj) List.nodup_range'
  · exact List.Nodup.map (fun _ _ => ManagedObject.control.inj) List.nodup_range'
  · obtain ⟨n, -, rfl⟩ := List.mem_map.1 hdata
    obtain ⟨_, -, heq⟩ := List.mem_map.1 hcontrol
    cases heq

/-- Of distinct channels, each is the first with its path. -/
theorem findIdx?_pathOf {v : Visit} (hdistinct : (vs.map pathOf).Nodup) (hv : vs[n]? = some v) :
    vs.findIdx? (pathOf · = pathOf v) = some n := by
  obtain ⟨hn, rfl⟩ := List.getElem?_eq_some_iff.1 hv
  refine List.findIdx?_eq_some_iff_getElem.2 ⟨hn, decide_eq_true rfl, fun j hj hpath => ?_⟩
  have hj' := hj.trans hn
  have heq : vs[j] = vs[n] := List.inj_on_of_nodup_map hdistinct (List.getElem_mem hj')
    (List.getElem_mem hn) (of_decide_eq_true hpath)
  exact hj.ne ((hdistinct.of_map pathOf).getElem_inj_iff.1 heq)

/-- The life cycle of a program that has loaded its configuration : it is kept, and the objects in
it are those of the first instances with their paths, and all channels. -/
theorem lifeCycle_loadConfigFile (clib : CLib) (classes : ControlClasses)
    (io control : Option DomElement) (c : Config)
    (h : loadConfigFile clib classes io control .new = .ok c)
    (isDriver : ℕ → Bool) (callBacks : StartPhase → PhaseCallBacks) :
    c.loader.manager.LifeCycle isDriver callBacks ∧
      (∀ n, c.loader.manager.Manages (.control n) ↔
        ∃ i, (instancesOf control)[n]? = some i ∧
          (instancesOf control).findIdx? (·.path = i.path) = some n) ∧
      ∀ n, c.loader.manager.Manages (.data n) ↔ n < (channelsOf io).length := by
  have hloaded := loaded_loadConfigFile h
  have hdistinct : ((channelsOf io).map pathOf).Nodup := by
    obtain ⟨c₁, hio, -⟩ := Outcome.bind_eq_ok.1 h
    exact (loadIoFile_returns_iff.1 ⟨c₁, hio⟩).distinct
  have hlifeCycle : c.loader.manager.LifeCycle isDriver callBacks :=
    ObjectManager.lifeCycle_of_nodup (bindAll_loadConfigFile h) (nodup_boundBy_bindsOf io control)
  refine ⟨hlifeCycle, fun n => ?_, fun n => ?_⟩
  · simp only [ObjectManager.Manages, hloaded.entites]
    constructor
    · rintro ⟨path, hpath⟩
      obtain ⟨i, hi⟩ := getElem?_of_findIdx? hpath
      exact ⟨i, hi, by rwa [(key_of_findIdx? hi hpath : i.path = path)]⟩
    · rintro ⟨i, -, hi⟩
      exact ⟨i.path, hi⟩
  · simp only [ObjectManager.Manages, hloaded.datas]
    constructor
    · rintro ⟨path, hpath⟩
      obtain ⟨hn, -⟩ := List.findIdx?_eq_some_iff_getElem.1 hpath
      exact hn
    · intro hn
      exact ⟨_, findIdx?_pathOf hdistinct (List.getElem?_eq_getElem hn)⟩

/-- The second object is in no phase, and both channels are deleted. -/
theorem lifeCycle_loadConfigFile_first : ∃ c,
    loadConfigFile Update.clib_zero classC (some nested) (some instancesOfOnePath) .new = .ok c ∧
      c.loader.manager.Manages (.control 0) ∧ ¬c.loader.manager.Manages (.control 1) ∧
      c.loader.manager.Manages (.data 1) := by
  obtain ⟨-, hcontrols, hchannels⟩ := lifeCycle_loadConfigFile Update.clib_zero classC
    (some nested) (some instancesOfOnePath) _ rfl (fun _ => false) fun _ => ⟨[], []⟩
  refine ⟨_, rfl, (hcontrols 0).2 ⟨_, rfl, rfl⟩, fun h => ?_, (hchannels 1).2 ?_⟩
  · obtain ⟨i, hi, hfirst⟩ := (hcontrols 1).1 h
    obtain rfl := Option.some.inj hi
    cases hfirst
  · decide

/-! ## Folders -/

/-- The names of the elements and entities from the document element to this one. -/
def componentsOf (v : Visit) : List Str :=
  ((v.1.map localForm).takeWhile (· ≠ "#document".toList)).reverse ++ [localForm v.2.nodeName.1]

theorem parentPath_eq_pathName (parents : List (List UInt16)) (path : Str) :
    parentPath parents path =
      pathName (((parents.map localForm).takeWhile (· ≠ "#document".toList)).reverse) ++ path := by
  induction parents generalizing path with
  | nil => rfl
  | cons nodeName parents ih =>
    rw [parentPath, List.map_cons]
    split_ifs with hdocument
    · rw [List.takeWhile_cons_of_neg (by rw [decide_eq_true_iff]; exact not_not_intro hdocument)]
      rfl
    · rw [List.takeWhile_cons_of_pos (p := (· ≠ "#document".toList)) (decide_eq_true hdocument), ih,
        List.reverse_cons, pathName, pathName, List.flatMap_append, List.flatMap_singleton,
        List.append_assoc]

theorem pathOf_eq (v : Visit) : pathOf v = pathName (componentsOf v) := by
  rw [pathOf, DomElement.path, parentPath_eq_pathName, componentsOf, pathName, pathName,
    List.flatMap_append, List.flatMap_singleton]

/-- The loader files a channel like any registration. -/
theorem filed_registerObject {calls : List (Option ℕ × List Str)} {d : LoadedData} {cs : List Str}
    (hfiled : ObjectManager.Filed calls l.manager) (hpaths : ∀ call ∈ calls, IsPath call.2)
    (hcs : IsPath cs) (h : registerObject l d (pathName cs) = .ok l') :
    ObjectManager.Filed (calls ++ [(some l.next, cs)]) l'.manager := by
  obtain ⟨m, hm, hfiled'⟩ := @ObjectManager.Filed.step [] _ _ hfiled hpaths (some l.next) _ hcs
  unfold registerObject at h
  rw [ObjectManager.step] at hm
  cases hregister : l.manager.registerData (some l.next) (pathName cs) with
  | ok m' =>
    rw [hregister] at h hm
    obtain rfl := Option.some.inj hm
    obtain rfl := Outcome.ok.inj h
    exact hfiled'
  | throws message m' => simp [hregister] at h
  | crash => simp [hregister] at h

theorem filed_loadAll {calls : List (Option ℕ × List Str)}
    (hfiled : ObjectManager.Filed calls l.manager) (hpaths : ∀ call ∈ calls, IsPath call.2)
    (hvs : ∀ v ∈ channels vs, IsPath (componentsOf v)) (h : loadAll clib vs l = .ok l') :
    ∃ calls', ObjectManager.Filed (calls ++ calls') l'.manager ∧
      calls'.map (·.2) = (channels vs).map componentsOf ∧ ∀ call ∈ calls', call.1 ≠ none := by
  induction vs generalizing l calls with
  | nil =>
    obtain rfl := Outcome.ok.inj h
    exact ⟨[], by rwa [List.append_nil], rfl, by simp⟩
  | cons v vs ih =>
    rw [channels_cons] at hvs ⊢
    split_ifs at hvs ⊢ with hchannel
    · obtain ⟨d, l₁, -, hregister, h⟩ := (loadAll_cons_of_channel hchannel).1 h
      rw [List.forall_mem_cons] at hvs
      rw [pathOf_eq] at hregister
      obtain ⟨calls', hfiled', hcalls', hsome⟩ := ih
        (filed_registerObject hfiled hpaths hvs.1 hregister)
        (List.forall_mem_append.2 ⟨hpaths, List.forall_mem_singleton.2 hvs.1⟩) hvs.2 h
      refine ⟨(some l.next, componentsOf v) :: calls', ?_, ?_, ?_⟩
      · rwa [List.append_assoc] at hfiled'
      · rw [List.map_cons, List.map_cons, hcalls']
      · exact List.forall_mem_cons.2 ⟨Option.some_ne_none _, hsome⟩
    · rw [loadAll_cons_of_not_channel hchannel] at h
      exact ih hfiled hpaths hvs h

theorem filed_loadIoFile (hpaths : ∀ v ∈ channelsOf io, IsPath (componentsOf v))
    (h : loadIoFile clib io .new = .ok c) :
    ∃ calls, ObjectManager.Filed calls c.loader.manager ∧
      calls.map (·.2) = (channelsOf io).map componentsOf ∧ ∀ call ∈ calls, call.1 ≠ none := by
  cases io with
  | none =>
    obtain rfl := Outcome.ok.inj h
    exact ⟨[], ObjectManager.filed_new, rfl, by simp⟩
  | some root =>
    rw [loadIoFile, loadIo_eq_loadAll] at h
    obtain ⟨l, hload, rfl⟩ := Outcome.map_eq_ok.1 h
    exact @filed_loadAll _ _ _ _ [] ObjectManager.filed_new (by simp) hpaths hload

/-- The folders of a program that has loaded its configuration. Where the names of elements and
entities are components, a folder lists what follows it in the paths of the channels, in order and
each once. -/
theorem getChannelNodeList_loadConfigFile (clib : CLib) (classes : ControlClasses)
    (io control : Option DomElement) (c : Config)
    (h : loadConfigFile clib classes io control .new = .ok c)
    (hnames : ∀ v ∈ channelsOf io, ∀ name ∈ componentsOf v, IsComponent name) (ds : List Str)
    (hds : ∀ d ∈ ds, '/' ∉ d) :
    (c.loader.manager.getChannelNodeList (folderName ds)).Pairwise
        (fun a b => compare a b = .lt) ∧
      ∀ e, e ∈ c.loader.manager.getChannelNodeList (folderName ds) ↔
        ∃ v ∈ channelsOf io, ds ++ [e] <+: componentsOf v := by
  refine ⟨ObjectManager.pairwise_getChannelNodeList _ _, fun e => ?_⟩
  have hpaths : ∀ v ∈ channelsOf io, IsPath (componentsOf v) := fun v hv =>
    ⟨List.append_ne_nil_of_right_ne_nil _ (List.cons_ne_nil _ _), hnames v hv⟩
  obtain ⟨c₁, hio, hcontrol⟩ := Outcome.bind_eq_ok.1 h
  obtain ⟨calls, hfiled, hcalls, hsome⟩ := filed_loadIoFile hpaths hio
  obtain ⟨l, hl, rfl⟩ := loadIoFile_cases hio
  have hnodes : c.loader.manager.dataNodeNames = l.manager.dataNodeNames :=
    (loadControlFile_cases (empty_afterIo hl) hcontrol).1.dataNodeNames
  have hregistered : ∀ cs, ObjectManager.Registered calls cs ↔
      ∃ v ∈ channelsOf io, componentsOf v = cs := by
    intro cs
    rw [← List.mem_map, ← hcalls, List.mem_map]
    constructor
    · rintro ⟨object, hobject⟩
      exact ⟨_, hobject, rfl⟩
    · rintro ⟨⟨object, cs'⟩, hcall, rfl⟩
      obtain ⟨object', hobject⟩ := Option.ne_none_iff_exists'.1 (hsome _ hcall)
      exact ⟨object', hobject ▸ hcall⟩
  rw [ObjectManager.mem_getChannelNodeList, hnodes]
  refine (hfiled.nodes _ _).trans ?_
  simp only [hregistered]
  constructor
  · rintro ⟨pre, post, ⟨v, hv, hcomponents⟩, hpath⟩
    have hpre : ∀ name ∈ pre, '/' ∉ name := fun name hname =>
      (hnames v hv name (hcomponents ▸ List.mem_append_left _ hname)).noSlash
    obtain rfl := folderName_inj hds hpre hpath
    exact ⟨v, hv, post, by rw [hcomponents, List.append_assoc, List.singleton_append]⟩
  · rintro ⟨v, hv, post, hcomponents⟩
    exact ⟨ds, post, ⟨v, hv, by rw [← hcomponents, List.append_assoc, List.singleton_append]⟩, rfl⟩

/-- A channel in a channel is listed below it. -/
theorem getChannelNodeList_loadConfigFile_nested : ∃ c,
    loadConfigFile Update.clib_zero classC (some nested) none .new = .ok c ∧
      "c".toList ∈ c.loader.manager.getChannelNodeList
        (folderName ["a".toList, "b".toList]) := by
  have hcomponents : (channelsOf (some nested)).map componentsOf =
      [["a".toList, "b".toList], ["a".toList, "b".toList, "c".toList]] := rfl
  have hnames : ∀ v ∈ channelsOf (some nested), ∀ name ∈ componentsOf v, IsComponent name := by
    rw [← List.forall_mem_map (P := fun names => ∀ name ∈ names, IsComponent name), hcomponents]
    have hone : ∀ name ∈ ["a".toList, "b".toList, "c".toList], IsComponent name := by
      intro name hname
      simp only [List.mem_cons, List.not_mem_nil, or_false] at hname
      rcases hname with rfl | rfl | rfl <;> exact ⟨by decide, by decide, by decide, by decide⟩
    simp only [List.forall_mem_cons, List.not_mem_nil, false_implies, implies_true, and_true]
    exact ⟨⟨hone _ (by decide), hone _ (by decide)⟩, hone _ (by decide), hone _ (by decide),
      hone _ (by decide)⟩
  obtain ⟨-, hlist⟩ := getChannelNodeList_loadConfigFile Update.clib_zero classC (some nested)
    none _ rfl hnames ["a".toList, "b".toList] (by decide)
  refine ⟨_, rfl, (hlist _).2 ?_⟩
  obtain ⟨v, hv, hv'⟩ := List.mem_map.1 (hcomponents ▸ List.mem_cons_of_mem _
    (List.mem_singleton_self ["a".toList, "b".toList, "c".toList]))
  exact ⟨v, hv, hv' ▸ List.prefix_rfl⟩

end XmlParser

end Ick
