import Ick.Converter
import Ick.History
import Mathlib.Logic.Function.Basic
import Std.Data.TreeMap

/-!
# The object registry

`ObjectManager` binds full names to objects in two maps, `entites` for control objects and
`datas` for channel data, and `getObject` looks into `entites` first. Three overloads of
`registerObject` fill the maps, and each has checks of its own : the one for control
objects looks for the name in `entites` only, the one for channel data in `datas` only,
and the one that creates an object of a named class does not look at all, and its
`map::insert` leaves a name that is taken as it is.

So a name is stable as long as no call that passes its overload's checks uses a name that
is taken in either map, and no call uses the empty name (`stable_iff_unbound`).

A `std::map` is a `Std.TreeMap`, whose `insertIfNew` is `map::insert`. A call ends in an
`Outcome`, and a call that throws leaves the state it has reached behind. A control object under too
long a name ends the program (`RegisterOutcome`).
-/

namespace Ick

/-- How a call ends : it returns, it throws and leaves a state behind, or it goes on with
undefined behaviour. -/
inductive Outcome (σ : Type*)
  | ok (s : σ)
  | throws (message : Str) (s : σ)
  | crash

/-- The state that a call leaves behind. -/
def Outcome.state? {σ : Type*} : Outcome σ → Option σ
  | ok s => some s
  | throws _ s => some s
  | crash => none

/-- What comes after a call, if the call returns. -/
def Outcome.bind {σ : Type*} (f : σ → Outcome σ) : Outcome σ → Outcome σ
  | ok s => f s
  | throws message s => throws message s
  | crash => crash

theorem Outcome.bind_eq_ok {σ : Type*} {f : σ → Outcome σ} {o : Outcome σ} {s' : σ} :
    o.bind f = ok s' ↔ ∃ s, o = ok s ∧ f s = ok s' := by
  cases o <;> simp [Outcome.bind]

/-- A `ManagedObject*` that is not `NULL` : the address of a control object or of a
channel's data. -/
inductive ManagedObject
  | control (object : ℕ)
  | data (object : ℕ)
  deriving DecidableEq

/-- `NodeName::m_nodeList` -/
abbrev NodeName := Std.TreeMap Str Str

namespace NodeName

/-- `addNodeName` -/
def addNodeName (node : NodeName) (nodeName : Str) : NodeName :=
  node.insertIfNew nodeName nodeName

/-- `getNodeList` -/
def getNodeList (node : NodeName) : List Str := node.keys

end NodeName

/-- `CHANNEL_MAX_LENGTH` -/
def channelMaxLength : ℕ := 255

/-- The members of `ObjectManager` that registration and lookup use, and the full names
that it has set in the objects. -/
structure ObjectManager where
  entites : Std.TreeMap Str ℕ
  datas : Std.TreeMap Str ℕ
  dataNodeNames : Std.TreeMap Str NodeName
  fullName : ManagedObject → Str

/-- How a call of `registerObject` ends : as other calls do, or with the program, which
`Logger::Fatal` leaves with this text. -/
inductive RegisterOutcome
  | ok (m : ObjectManager)
  | throws (message : Str) (m : ObjectManager)
  | exits (message : Str)
  | crash

namespace RegisterOutcome

/-- The end of a call that does not call `Fatal`. -/
def ofOutcome : Outcome ObjectManager → RegisterOutcome
  | .ok m => ok m
  | .throws message m => throws message m
  | .crash => crash

/-- The registry that a call leaves behind. -/
def state? : RegisterOutcome → Option ObjectManager
  | ok m => some m
  | throws _ m => some m
  | exits _ => none
  | crash => none

variable {o : Outcome ObjectManager} {m : ObjectManager} {message : Str}

theorem ofOutcome_eq_ok : ofOutcome o = ok m ↔ o = .ok m := by
  cases o <;> simp [ofOutcome]

theorem ofOutcome_eq_throws : ofOutcome o = throws message m ↔ o = .throws message m := by
  cases o <;> simp [ofOutcome]

end RegisterOutcome

/-- `ClassList` : the name of each class, and whether its objects are control objects. -/
abbrev ClassList := List (Str × Bool)

namespace ObjectManager

/-- The registry of a program that has not registered anything. -/
def new : ObjectManager where
  entites := ∅
  datas := ∅
  dataNodeNames := ∅
  fullName _ := []

/-- `setFullName` of an object. -/
def setFullName (m : ObjectManager) (object : ManagedObject) (fullName : Str) :
    ObjectManager :=
  { m with fullName := Function.update m.fullName object fullName }

/-- The text that the program ends with for a name that is too long. -/
def lengthMessage (fullName : Str) : Str :=
  "Error occured in ObjectManager::registerObject: object \"".toList ++ fullName ++
    "\" register failed, max length must be shorter than ".toList ++
    Converter.convertToString channelMaxLength

/-- The text of the exception for a name that does not begin with a slash. -/
def beginMessage (fullName : Str) : Str :=
  "object \"".toList ++ fullName ++
    "\" register failed because the full name must begin with \"/\"!".toList

/-- The text of the exception for the name `"/"`. -/
def slashMessage (fullName : Str) : Str :=
  "object \"".toList ++ fullName ++
    "\" register failed because the full name must not same as \"/\"!".toList

/-- The text of the exception for a class that is not joined. -/
def classMessage (className fullName : Str) : Str :=
  "object \"".toList ++ fullName ++ "\" register failed because class \"".toList ++
    className ++ "\" can not be found!".toList

/-- The text of the exception for a name that is taken. -/
def registedMessage (fullName : Str) : Str :=
  "object \"".toList ++ fullName ++
    "\" register failed because the full name has been registed!".toList

/-- `registerObject(ControlObject*, std::string)` -/
def registerControl (m : ObjectManager) (object : Option ℕ) (fullName : Str) :
    RegisterOutcome :=
  match object with
  | none => .ok m
  | some object =>
    if fullName = [] then .ok m
    else if fullName.length > channelMaxLength then
      -- `Fatal` does not return, and the exception behind it is never thrown
      .exits (lengthMessage fullName)
    else if fullName ∉ m.entites then
      .ok { m.setFullName (.control object) fullName with
        entites := m.entites.insertIfNew fullName object }
    else .throws (registedMessage fullName) m

/-- The loop of `registerObject(UntypedData*, std::string)` over the parts of the name :
each is filed under the path before it. -/
def addNodeNames : List Str → Str → Std.TreeMap Str NodeName → Std.TreeMap Str NodeName
  | [], _, nodes => nodes
  | name :: names, nodeName, nodes =>
    if name = [] then addNodeNames names nodeName nodes
    else
      addNodeNames names (nodeName ++ name ++ ['/'])
        (match nodes[nodeName]? with
          | none => nodes.insertIfNew nodeName (NodeName.addNodeName ∅ name)
          | some node => nodes.insert nodeName (node.addNodeName name))

/-- `registerObject(UntypedData*, std::string)` -/
def registerData (m : ObjectManager) (object : Option ℕ) (fullName : Str) :
    Outcome ObjectManager :=
  match object with
  | none => .ok m
  | some object =>
    if fullName = [] then .ok m
    else if fullName.head? ≠ some '/' then
      .throws (beginMessage fullName) m
    else if fullName = ['/'] then
      .throws (slashMessage fullName) m
    else if fullName ∉ m.datas then
      match Converter.split fullName '/' with
      | none => .crash
      | some nodeNames =>
        .ok { m.setFullName (.data object) fullName with
          datas := m.datas.insertIfNew fullName object
          dataNodeNames := addNodeNames nodeNames ['/'] m.dataNodeNames }
    else .throws (registedMessage fullName) m

/-- `registerObject(std::string, std::string)`, which creates the object, at the address
`object`. The cast of an object that is no control object gives `NULL`, and `setFullName`
is called on it. -/
def registerClass (classes : ClassList) (m : ObjectManager) (className fullName : Str)
    (object : ℕ) : Outcome ObjectManager :=
  match classes.find? (·.1 = className) with
  | some (_, true) =>
    .ok { m.setFullName (.control object) fullName with
      entites := m.entites.insertIfNew fullName object }
  | some (_, false) => .crash
  | none => .throws (classMessage className fullName) m

/-- `isObjectRegisted` -/
def isObjectRegisted (m : ObjectManager) (fullName : Str) : Bool :=
  if fullName = [] then false
  else if fullName ∈ m.entites then true
  else fullName ∈ m.datas

/-- `getObject`, `none` for `NULL`. -/
def getObject (m : ObjectManager) (fullName : Str) : Option ManagedObject :=
  if fullName = [] then none
  else
    match m.entites[fullName]? with
    | some object => some (.control object)
    | none => m.datas[fullName]?.map .data

/-- `getChannelNodeList` -/
def getChannelNodeList (m : ObjectManager) (node : Str) : List Str :=
  match m.dataNodeNames[node]? with
  | some node => node.getNodeList
  | none => []

/-- `getServiceNodeList`. Nothing is ever filed in `m_serviceNodeNames`. -/
def getServiceNodeList (_ : ObjectManager) (_ : Str) : List Str := []

end ObjectManager

/-! ## Sequences of registrations -/

/-- A call of one of the three overloads. The last one carries the address of the object
that it creates. -/
inductive RegisterCall
  | control (object : Option ℕ) (fullName : Str)
  | data (object : Option ℕ) (fullName : Str)
  | className (className fullName : Str) (object : ℕ)

namespace RegisterCall

/-- The object that the call is to bind, and the name. -/
def binds : RegisterCall → Option (ManagedObject × Str)
  | control object fullName => object.map fun object => (.control object, fullName)
  | data object fullName => object.map fun object => (.data object, fullName)
  | className _ fullName object => some (.control object, fullName)

/-- The addresses of control objects that the call handles. -/
def controls : RegisterCall → List ℕ
  | control object _ => object.toList
  | data _ _ => []
  | className _ _ object => [object]

end RegisterCall

namespace ObjectManager

/-- One call. -/
def step (classes : ClassList) (m : ObjectManager) : RegisterCall → RegisterOutcome
  | .control object fullName => m.registerControl object fullName
  | .data object fullName => .ofOutcome (m.registerData object fullName)
  | .className className fullName object =>
    .ofOutcome (m.registerClass classes className fullName object)

/-- The registry after a list of calls on an empty one; `none` when the program has ended, or after
undefined behaviour. -/
def run (classes : ClassList) (calls : List RegisterCall) : Option ObjectManager :=
  calls.foldl (fun m call => m.bind fun m => (m.step classes call).state?) (some new)

/-- A binding that a call returned from stays, and a call that throws changes no
binding. -/
structure Stable (classes : ClassList) (calls : List RegisterCall) : Prop where
  returns : ∀ pre call m m', pre ++ [call] <+: calls → run classes pre = some m →
    m.step classes call = .ok m' → ∀ object fullName, call.binds = some (object, fullName) →
    ∀ post m'', pre ++ [call] ++ post <+: calls → run classes (pre ++ [call] ++ post) = some m'' →
      m''.getObject fullName = some object
  throws : ∀ pre call m message m', pre ++ [call] <+: calls → run classes pre = some m →
    m.step classes call = .throws message m' → m'.getObject = m.getObject

/-- The call passes the checks of its own overload, and the object it creates, if it
creates one, is a control object. -/
def Passes (classes : ClassList) (m : ObjectManager) : RegisterCall → Prop
  | .control _ fullName =>
    fullName = [] ∨ (fullName.length ≤ channelMaxLength ∧ fullName ∉ m.entites)
  | .data _ fullName =>
    fullName = [] ∨ (fullName.head? = some '/' ∧ fullName ≠ ['/'] ∧ fullName ∉ m.datas)
  | .className className _ _ => (classes.find? (·.1 = className)).map (·.2) = some true

/-- If the call is to bind an object and passes its checks, the name is not empty and not
registered. -/
def Unbound (classes : ClassList) (m : ObjectManager) (call : RegisterCall) : Prop :=
  ∀ object fullName, call.binds = some (object, fullName) → m.Passes classes call →
    fullName ≠ [] ∧ m.isObjectRegisted fullName = false

/-- An object that a call creates is none that an earlier call has handled. -/
def Fresh (calls : List RegisterCall) : Prop :=
  Throughout (fun pre call => ∀ className fullName object,
    call = .className className fullName object → ∀ c ∈ pre, object ∉ c.controls) calls

/-! ## What a call does to the maps -/

variable {classes : ClassList} {m m' : ObjectManager} {call : RegisterCall}

theorem run_snoc (classes : ClassList) (pre : List RegisterCall) (call : RegisterCall) :
    run classes (pre ++ [call]) =
      (run classes pre).bind fun m => (m.step classes call).state? := by
  simp [run]

theorem registedName_ne_none {fullName : Str} (h : fullName.head? = some '/') (p : Char) :
    Converter.split fullName p ≠ none :=
  Converter.split_ne_none ⟨'/', List.mem_of_mem_head? h, by decide⟩

theorem step_throws {message : Str} (h : m.step classes call = .throws message m') :
    m' = m := by
  cases call with
  | control object fullName =>
    cases object with
    | none => cases h
    | some object =>
      simp only [step, registerControl] at h
      split_ifs at h
      exact (RegisterOutcome.throws.inj h).2.symm
  | data object fullName =>
    cases object with
    | none => cases h
    | some object =>
      simp only [step, RegisterOutcome.ofOutcome_eq_throws, registerData] at h
      split_ifs at h <;> first | exact (Outcome.throws.inj h).2.symm | skip
      split at h <;> cases h
  | className className fullName object =>
    simp only [step, RegisterOutcome.ofOutcome_eq_throws, registerClass] at h
    split at h
    · cases h
    · cases h
    · exact (Outcome.throws.inj h).2.symm

/-- A call that returns leaves both maps as they are, or inserts one binding into one of
them. -/
theorem step_ok (h : m.step classes call = .ok m') :
    (m'.entites = m.entites ∧ m'.datas = m.datas ∧
        ∀ object fullName, call.binds = some (object, fullName) → fullName = []) ∨
      (∃ object fullName, call.binds = some (.control object, fullName) ∧
        m'.entites = m.entites.insertIfNew fullName object ∧ m'.datas = m.datas) ∨
      ∃ object fullName, call = .data (some object) fullName ∧ fullName ∉ m.datas ∧
        m'.entites = m.entites ∧ m'.datas = m.datas.insertIfNew fullName object := by
  cases call with
  | control object fullName =>
    cases object with
    | none =>
      cases h
      exact Or.inl ⟨rfl, rfl, by simp [RegisterCall.binds]⟩
    | some object =>
      simp only [step, registerControl] at h
      split_ifs at h with hnil hlen hmem <;> cases h
      · exact Or.inl ⟨rfl, rfl, by simp [RegisterCall.binds, hnil]⟩
      · exact Or.inr (Or.inl ⟨object, fullName, rfl, rfl, rfl⟩)
  | data object fullName =>
    cases object with
    | none =>
      cases h
      exact Or.inl ⟨rfl, rfl, by simp [RegisterCall.binds]⟩
    | some object =>
      simp only [step, RegisterOutcome.ofOutcome_eq_ok, registerData] at h
      split_ifs at h with hnil hhead hslash hmem
      · cases h
        exact Or.inl ⟨rfl, rfl, by simp [RegisterCall.binds, hnil]⟩
      · split at h <;> cases h
        exact Or.inr (Or.inr ⟨object, fullName, rfl, hmem, rfl, rfl⟩)
  | className className fullName object =>
    simp only [step, RegisterOutcome.ofOutcome_eq_ok, registerClass] at h
    split at h <;> cases h
    exact Or.inr (Or.inl ⟨object, fullName, rfl, rfl, rfl⟩)

/-- A call with an object returns exactly when it passes its checks. -/
theorem step_ok_iff_passes {object : ManagedObject} {fullName : Str}
    (hb : call.binds = some (object, fullName)) :
    (∃ m', m.step classes call = .ok m') ↔ m.Passes classes call := by
  cases call with
  | control object' fullName' =>
    cases object' with
    | none => simp [RegisterCall.binds] at hb
    | some object' =>
      simp only [step, registerControl, Passes]
      split_ifs with hnil hlen hmem
      · simp [hnil]
      · simp [hnil, Nat.not_le.2 hlen]
      · simp [hnil, hmem]
      · simp [hnil, hmem, Nat.not_lt.1 hlen]
  | data object' fullName' =>
    cases object' with
    | none => simp [RegisterCall.binds] at hb
    | some object' =>
      simp only [step, RegisterOutcome.ofOutcome_eq_ok, registerData, Passes]
      split_ifs with hnil hhead hslash hmem
      · simp [hnil]
      · simp [hnil, hhead]
      · simp [hslash]
      · simp [hnil, hmem]
      · rw [not_not] at hhead
        cases hsplit : Converter.split fullName' '/' with
        | none => exact absurd hsplit (registedName_ne_none hhead _)
        | some names => simp [hhead, hslash, hmem]
  | className className fullName' object' =>
    simp only [step, RegisterOutcome.ofOutcome_eq_ok, registerClass, Passes]
    cases hfind : classes.find? (·.1 = className) with
    | none => simp
    | some entry =>
      obtain ⟨name, isControl⟩ := entry
      cases isControl <;> simp

/-! ## Lookup -/

@[simp] theorem getObject_nil (m : ObjectManager) : m.getObject [] = none := rfl

theorem getElem?_insertIfNew {t : Std.TreeMap Str ℕ} {k : Str} (hk : k ∉ t) (v : ℕ) (a : Str) :
    (t.insertIfNew k v)[a]? = if a = k then some v else t[a]? := by
  simp only [Std.TreeMap.getElem?_insertIfNew, Std.compare_eq_iff_eq, @eq_comm _ k, hk,
    not_false_eq_true, and_true]

theorem isObjectRegisted_eq (m : ObjectManager) (fullName : Str) :
    m.isObjectRegisted fullName = (m.getObject fullName).isSome := by
  unfold isObjectRegisted getObject
  by_cases hnil : fullName = []
  · simp [hnil]
  · simp only [hnil, if_false]
    cases he : m.entites[fullName]? with
    | some object =>
      have hmem : fullName ∈ m.entites := Std.TreeMap.mem_iff_isSome_getElem?.2 (by simp [he])
      simp [hmem]
    | none =>
      have hmem : fullName ∉ m.entites := by
        rw [Std.TreeMap.mem_iff_isSome_getElem?, he]
        exact Bool.false_ne_true
      by_cases hd : fullName ∈ m.datas <;> simp [hmem, hd]

/-- A name under which nothing is registered is in neither map. -/
theorem notMem_of_not_registed {fullName : Str} (hne : fullName ≠ [])
    (h : m.isObjectRegisted fullName = false) :
    fullName ∉ m.entites ∧ fullName ∉ m.datas := by
  unfold isObjectRegisted at h
  rw [if_neg hne] at h
  split_ifs at h with he
  exact ⟨he, by simpa using h⟩

theorem getObject_congr (he : m'.entites = m.entites) (hd : m'.datas = m.datas) :
    m'.getObject = m.getObject := by
  funext fullName
  simp only [getObject, he, hd]

/-- A call that returns binds its object under its name, if the name is not empty and not
registered, and leaves every other name as it is. -/
theorem getObject_of_step (h : m.step classes call = .ok m') {object : ManagedObject}
    {fullName : Str} (hb : call.binds = some (object, fullName)) (hne : fullName ≠ [])
    (hfree : m.isObjectRegisted fullName = false) :
    m'.getObject = Function.update m.getObject fullName (some object) := by
  obtain ⟨hentites, hdatas⟩ := notMem_of_not_registed hne hfree
  funext name
  by_cases hname : name = []
  · rw [hname, getObject_nil, Function.update_of_ne hne.symm, getObject_nil]
  rcases step_ok h with ⟨-, -, hnone⟩ | ⟨o, f, hb', he, hd⟩ | ⟨o, f, rfl, -, he, hd⟩
  · exact absurd (hnone _ _ hb) hne
  · obtain ⟨rfl, rfl⟩ : object = .control o ∧ fullName = f := by simpa using hb.symm.trans hb'
    simp only [getObject, hname, if_false, he, hd, getElem?_insertIfNew hentites,
      Function.update_apply]
    split_ifs <;> rfl
  · obtain ⟨rfl, rfl⟩ : object = .data o ∧ fullName = f := by
      simpa [RegisterCall.binds, eq_comm] using hb
    simp only [getObject, hname, if_false, he, hd, getElem?_insertIfNew hdatas,
      Function.update_apply]
    split_ifs with heq
    · subst heq
      have hnone : m.entites[name]? = none := Std.TreeMap.getElem?_eq_none hentites
      simp [hnone]
    · rfl

/-- A call that leaves a registry behind has thrown and left it as it was, or has returned. -/
theorem step_state {m₁ : ObjectManager} (h : (m.step classes call).state? = some m₁) :
    m₁ = m ∨ m.step classes call = .ok m₁ := by
  cases hs : m.step classes call with
  | crash => simp [hs, RegisterOutcome.state?] at h
  | exits message => simp [hs, RegisterOutcome.state?] at h
  | throws message m₂ =>
    obtain rfl : m₂ = m₁ := by simpa [hs, RegisterOutcome.state?] using h
    exact Or.inl (step_throws hs)
  | ok m₂ =>
    obtain rfl : m₂ = m₁ := by simpa [hs, RegisterOutcome.state?] using h
    exact Or.inr rfl

/-- A call that keeps to unregistered names keeps every binding. -/
theorem getObject_step_of_unbound {m₁ : ObjectManager} (hu : m.Unbound classes call)
    (h : (m.step classes call).state? = some m₁) {fullName : Str} {object : ManagedObject}
    (hget : m.getObject fullName = some object) : m₁.getObject fullName = some object := by
  rcases step_state h with rfl | hs
  · exact hget
  · cases hb : call.binds with
    | none =>
      rcases step_ok hs with ⟨he, hd, -⟩ | ⟨o, f, hb', -, -⟩ | ⟨o, f, rfl, -, -, -⟩
      · rw [getObject_congr he hd, hget]
      · simp [hb] at hb'
      · simp [RegisterCall.binds] at hb
    | some bound =>
      obtain ⟨o, f⟩ := bound
      obtain ⟨hne, hfree⟩ := hu o f hb ((step_ok_iff_passes hb).1 ⟨_, hs⟩)
      rw [getObject_of_step hs hb hne hfree, Function.update_of_ne, hget]
      rintro rfl
      simp [isObjectRegisted_eq, hget] at hfree

/-! ## Where the bindings come from -/

/-- What holds after a run and not of the new registry has come about in a call that returned. -/
theorem exists_step_of_run {P : ObjectManager → Prop} (hnew : ¬P new) {pre : List RegisterCall} :
    ∀ {m : ObjectManager}, run classes pre = some m → P m → ∃ pre₀ call post m₀ m₁,
      pre = pre₀ ++ [call] ++ post ∧ run classes pre₀ = some m₀ ∧
        m₀.step classes call = .ok m₁ ∧ ¬P m₀ ∧ P m₁ := by
  induction pre using List.reverseRecOn with
  | nil =>
    intro m h hm
    obtain rfl : new = m := by simpa [run] using h
    exact absurd hm hnew
  | append_singleton pre call ih =>
    intro m h hm
    rw [run_snoc] at h
    obtain ⟨m₀, hrun, hstep⟩ := Option.bind_eq_some_iff.1 h
    by_cases hbefore : P m₀
    · obtain ⟨pre₀, call', post, m₁, m₂, rfl, hrest⟩ := ih hrun hbefore
      exact ⟨pre₀, call', post ++ [call], m₁, m₂, by simp, hrest⟩
    · rcases step_state hstep with rfl | hs
      · exact absurd hm hbefore
      · exact ⟨pre, call, [], m₀, m, by simp, hrun, hs, hbefore, hm⟩

theorem datas_of_run {pre : List RegisterCall} {m : ObjectManager}
    (h : run classes pre = some m) {fullName : Str} {object : ℕ}
    (hget : m.datas[fullName]? = some object) : ∃ pre₀ m₀ m₁ post,
      pre = pre₀ ++ [.data (some object) fullName] ++ post ∧ run classes pre₀ = some m₀ ∧
        m₀.step classes (.data (some object) fullName) = .ok m₁ := by
  obtain ⟨pre₀, call, post, m₀, m₁, rfl, hrun, hs, hbefore, hafter⟩ :=
    @exists_step_of_run classes (fun m => m.datas[fullName]? = some object) (by simp [new]) _ _ h
      hget
  rcases step_ok hs with ⟨-, hd, -⟩ | ⟨o, f, -, -, hd⟩ | ⟨o, f, rfl, hf, -, hd⟩
  · exact absurd (hd ▸ hafter) hbefore
  · exact absurd (hd ▸ hafter) hbefore
  · rw [hd, getElem?_insertIfNew hf] at hafter
    split_ifs at hafter with heq
    · obtain rfl : o = object := by simpa using hafter
      exact ⟨pre₀, m₀, m₁, post, by rw [heq], hrun, by rw [heq]; exact hs⟩
    · exact absurd hafter hbefore

theorem entites_of_run {pre : List RegisterCall} {m : ObjectManager}
    (h : run classes pre = some m) {fullName : Str} {object : ℕ}
    (hget : m.entites[fullName]? = some object) : ∃ call ∈ pre, object ∈ call.controls := by
  obtain ⟨pre₀, call, post, m₀, m₁, rfl, -, hs, hbefore, hafter⟩ :=
    @exists_step_of_run classes (fun m => m.entites[fullName]? = some object) (by simp [new]) _ _ h
      hget
  rcases step_ok hs with ⟨he, -, -⟩ | ⟨o, f, hb, he, -⟩ | ⟨o, f, rfl, -, he, -⟩
  · exact absurd (he ▸ hafter) hbefore
  · rw [he, Std.TreeMap.getElem?_insertIfNew] at hafter
    split_ifs at hafter
    · obtain rfl : o = object := by simpa using hafter
      refine ⟨call, by simp, ?_⟩
      cases call with
      | control object' _ =>
        cases object' <;> simp_all [RegisterCall.binds, RegisterCall.controls]
      | data object' _ => cases object' <;> simp [RegisterCall.binds] at hb
      | className _ _ _ => simp_all [RegisterCall.binds, RegisterCall.controls]
    · exact absurd hafter hbefore
  · exact absurd (he ▸ hafter) hbefore

/-! ## Stable names -/

/-- From an unregistered name on, a binding stays through calls that keep to unregistered
names. -/
theorem getObject_run {calls pre : List RegisterCall}
    (hu : Throughout (fun pre call => ∀ m, run classes pre = some m → m.Unbound classes call)
      calls) {fullName : Str} {object : ManagedObject}
    (hrun : run classes pre = some m) (hget : m.getObject fullName = some object)
    (post : List RegisterCall) : ∀ {m'}, pre ++ post <+: calls →
      run classes (pre ++ post) = some m' → m'.getObject fullName = some object := by
  induction post using List.reverseRecOn with
  | nil =>
    intro m' _ hrun'
    obtain rfl : m = m' := by simpa [hrun] using hrun'
    exact hget
  | append_singleton post call ih =>
    intro m' hpre hrun'
    rw [← List.append_assoc] at hpre hrun'
    rw [run_snoc] at hrun'
    obtain ⟨m₁, hrun₁, hstep⟩ := Option.bind_eq_some_iff.1 hrun'
    have hget₁ := ih ((List.prefix_append _ _).trans hpre) hrun₁
    exact getObject_step_of_unbound (hu _ _ hpre _ hrun₁) hstep hget₁

/-- In a stable registry a control object is not registered under the name of a data object, as the
binding of that one would be lost. -/
theorem Stable.notMem_datas {calls pre : List RegisterCall} (hs : Stable classes calls)
    (hpre : pre ++ [call] <+: calls) (hrun : run classes pre = some m)
    (hstep : m.step classes call = .ok m') {object : ℕ} {fullName : Str}
    (hget : m'.getObject fullName = some (.control object)) : fullName ∉ m.datas := by
  intro hmem
  obtain ⟨d, hd⟩ := Option.isSome_iff_exists.1 (Std.TreeMap.mem_iff_isSome_getElem?.1 hmem)
  obtain ⟨pre₀, m₀, m₁, post, rfl, hrun₀, hstep₀⟩ := datas_of_run hrun hd
  have hpre' := hpre
  rw [List.append_assoc (pre₀ ++ [_])] at hpre'
  have hrun' : run classes (pre₀ ++ [.data (some d) fullName] ++ (post ++ [call])) = some m' := by
    rw [← List.append_assoc, run_snoc, hrun]
    simp [hstep, RegisterOutcome.state?]
  have hlost := hs.returns pre₀ _ _ _
    ((List.prefix_append _ _).trans hpre') hrun₀ hstep₀ _ _ rfl _ _ hpre' hrun'
  rw [hget] at hlost
  cases hlost

/-- In a stable registry the name of a call that passes its checks is unregistered. -/
theorem Stable.not_registed {calls pre : List RegisterCall} (hs : Stable classes calls)
    (hfresh : Fresh calls) (hpre : pre ++ [call] <+: calls) (hrun : run classes pre = some m)
    (hstep : m.step classes call = .ok m') {object : ManagedObject} {fullName : Str}
    (hb : call.binds = some (object, fullName))
    (hget : m'.getObject fullName = some object) (hne : fullName ≠ []) :
    m.isObjectRegisted fullName = false := by
  by_contra htaken
  rw [Bool.not_eq_false, isObjectRegisted_eq] at htaken
  rcases step_ok hstep with ⟨-, -, hnil⟩ | ⟨o, f, hb', he, -⟩ | ⟨o, f, rfl, hf, he, -⟩
  · exact hne (hnil _ _ hb)
  · obtain ⟨rfl, rfl⟩ : object = .control o ∧ fullName = f := by simpa using hb.symm.trans hb'
    have hnd := hs.notMem_datas hpre hrun hstep hget
    -- only the overload that creates its object finds the name taken in `entites`
    cases hent : m.entites[fullName]? with
    | none => simp [getObject, hent, Std.TreeMap.getElem?_eq_none hnd] at htaken
    | some c =>
      have hmem : fullName ∈ m.entites :=
        Std.TreeMap.mem_iff_isSome_getElem?.2 (by simp [hent])
      have hold : m'.getObject fullName = some (.control c) := by
        have hent' : m'.entites[fullName]? = some c := by
          rw [he, Std.TreeMap.getElem?_insertIfNew, if_neg fun h => h.2 hmem, hent]
        simp only [getObject, hne, if_false, hent']
      obtain rfl : c = o := by simpa using hold.symm.trans hget
      have hpasses := (step_ok_iff_passes hb).1 ⟨m', hstep⟩
      obtain ⟨c', hc', hctl⟩ := entites_of_run hrun hent
      cases call with
      | control object' f' =>
        cases object' with
        | none => simp [RegisterCall.binds] at hb
        | some object' =>
          obtain ⟨-, rfl⟩ : object' = c ∧ f' = fullName := by simpa [RegisterCall.binds] using hb
          exact (hpasses.resolve_left hne).2 hmem
      | data object' f' => cases object' <;> simp [RegisterCall.binds] at hb
      | className className f' object' =>
        obtain ⟨rfl, -⟩ : object' = c ∧ f' = fullName := by simpa [RegisterCall.binds] using hb
        exact hfresh _ _ hpre _ _ _ rfl c' hc' hctl
  · obtain ⟨rfl, rfl⟩ : .data o = object ∧ f = fullName := by simpa [RegisterCall.binds] using hb
    cases hent : m.entites[f]? with
    | none => simp [getObject, hent, Std.TreeMap.getElem?_eq_none hf] at htaken
    | some c =>
      have : m'.getObject f = some (.control c) := by simp [getObject, hne, he, hent]
      rw [hget] at this
      cases this

/-- Stable names. In a sequence of calls that create their objects at new addresses, every
binding stays and every call that throws changes none, exactly when each call that is to
bind an object and passes its checks has a name that is not empty and not registered. -/
theorem stable_iff_unbound (classes : ClassList) (calls : List RegisterCall)
    (hfresh : Fresh calls) : Stable classes calls ↔
      Throughout (fun pre call => ∀ m, run classes pre = some m → m.Unbound classes call)
        calls := by
  constructor
  · intro hs pre call hpre m hrun object fullName hb hpasses
    obtain ⟨m', hstep⟩ := (step_ok_iff_passes hb).2 hpasses
    have hrun' : run classes (pre ++ [call] ++ []) = some m' := by
      rw [List.append_nil, run_snoc, hrun]
      simp [hstep, RegisterOutcome.state?]
    have hget := hs.returns pre call m m' hpre hrun hstep object fullName hb []
      m' (by simpa using hpre) hrun'
    have hne : fullName ≠ [] := by
      rintro rfl
      simp at hget
    exact ⟨hne, hs.not_registed hfresh hpre hrun hstep hb hget hne⟩
  · intro hu
    refine ⟨?_, ?_⟩
    · intro pre call m m' hpre hrun hstep object fullName hb post m'' hpost hrun''
      obtain ⟨hne, hfree⟩ :=
        hu pre call hpre m hrun object fullName hb ((step_ok_iff_passes hb).1 ⟨m', hstep⟩)
      have hget : m'.getObject fullName = some object := by
        rw [getObject_of_step hstep hb hne hfree, Function.update_self]
      have hrun' : run classes (pre ++ [call]) = some m' := by
        rw [run_snoc, hrun]
        simp [hstep, RegisterOutcome.state?]
      exact getObject_run hu hrun' hget post hpost hrun''
    · intro pre call m message m' _ _ hstep
      rw [step_throws hstep]

theorem stable_ownNames : Stable [(['C'], true)]
    [.control (some 0) ['c'], .data (some 0) ['/', 'a'], .className ['C'] ['d'] 1] := by
  refine (stable_iff_unbound _ _ ?_).2 ?_
  · change Throughout _ ([] ++ [_] ++ [_] ++ [_])
    rw [throughout_snoc, throughout_snoc, throughout_snoc]
    refine ⟨⟨⟨throughout_nil, nofun⟩, nofun⟩, ?_⟩
    rintro _ _ _ ⟨⟩
    decide
  · change Throughout _ ([] ++ [_] ++ [_] ++ [_])
    rw [throughout_snoc, throughout_snoc, throughout_snoc]
    refine ⟨⟨⟨throughout_nil, ?_⟩, ?_⟩, ?_⟩ <;>
    · rintro _ ⟨⟩ _ _ ⟨⟩ -
      decide

/-- A channel and then a control object are registered under one name, and the channel is
no longer found. -/
theorem not_stable_of_sharedName : ¬∀ classes calls, Fresh calls → Stable classes calls := by
  intro h
  have hfresh : Fresh [.data (some 0) ['/', 'a'], .control (some 0) ['/', 'a']] := by
    change Throughout _ ([] ++ [_] ++ [_])
    rw [throughout_snoc, throughout_snoc]
    exact ⟨⟨throughout_nil, nofun⟩, nofun⟩
  have hlost := (h [] _ hfresh).returns [] _ _ _ ⟨[_], rfl⟩ rfl rfl _ _ rfl
    [.control (some 0) ['/', 'a']] _ (List.prefix_refl _) rfl
  revert hlost
  decide

end ObjectManager

end Ick
