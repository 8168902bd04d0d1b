import Ick.LifeCycle
import Ick.XmlParser

/-!
# Loading the control objects

`XmlParser::LoadControlObject` goes through the elements of `control_config.xml`, all of them. An
element whose attribute `type` begins like `instance` creates an object of the class that its
attribute `class` names, which is registered under the path of the element; then each child
element whose `type` begins like `method` calls the method with its name on the object that the
registry has under the path.

An element with the path of an earlier one creates an object that is not registered, and its
methods are called on the object of the earlier one. So the objects that can be found are those of
the first elements with their paths, and each gets the calls of all of them, in document order
(`loaded_loadControlObject`). The document is loaded to its end exactly if all classes are joined
and all methods can be called on the objects that they come to (`loadControlObject_returns_iff`).
-/

namespace Ick

namespace XmlParser

/-- The classes that are joined, the tables of each, and the exceptions that their methods
throw. -/
structure ControlClasses where
  classes : ClassList
  msgMap : Str → MsgMap
  throws : ℕ → ℕ → List Param → Option Str

/-- A call of a method. -/
structure ControlCall where
  object : ℕ
  pfn : ℕ
  params : List Param

/-- The registry, the address of the next new object, the tables of the objects, and the calls of
their methods. -/
structure ControlLoader where
  manager : ObjectManager
  next : ℕ
  msgMap : ℕ → MsgMap
  calls : List ControlCall

variable (clib : CLib) (classes : ControlClasses)

/-- The loop over the child elements of an instance. The type is compared by its first
character. -/
def loadMethods (object : Option ℕ) : Dom → ControlLoader → Outcome ControlLoader
  | .null, l => .ok l
  | .text _ next, l => loadMethods object next l
  | .entityReference _ child next, l =>
    (loadMethods object child l).bind (loadMethods object next)
  | .element nodeName attributes child next, l =>
    if first (getAttribute attributes "type") = first (xerceForm "method") then
      match object with
      | none => .crash
      | some o =>
        match CmdTarget.dispatchMsg clib (l.manager.fullName (.control o)) (localForm nodeName.1)
          (localForm child.textContent) (l.msgMap o) with
        | .call pfn params =>
          let l := { l with calls := l.calls ++ [⟨o, pfn, params⟩] }
          match classes.throws o pfn params with
          | some message => .throws message l
          | none => loadMethods object next l
        | .returns => loadMethods object next l
        | .throws message => .throws message l
        | .crash => .crash
    else loadMethods object next l

/-- `dynamic_cast<ControlObject*>` -/
def controlOf : Option ManagedObject → Option ℕ
  | some (.control object) => some object
  | _ => none

/-- What `LoadControlObject` does with the element itself. -/
def loadInstance (l : ControlLoader) (parents : List (List UInt16)) (ele : DomElement) :
    Outcome ControlLoader :=
  if first (getAttribute ele.attributes "type") ≠ 0 ∧
      first (getAttribute ele.attributes "type") = first (xerceForm "instance") then
    let path := parentPath parents ('/' :: localForm ele.nodeName.1)
    let className := localForm (getAttribute ele.attributes "class")
    match l.manager.registerClass classes.classes className path l.next with
    | .ok manager =>
      loadMethods clib classes (controlOf (manager.getObject path)) ele.firstChild
        { l with
          manager := manager
          next := l.next + 1
          msgMap := Function.update l.msgMap l.next (classes.msgMap className) }
    | .throws message manager => .throws message { l with manager := manager }
    | .crash => .crash
  else .ok l

/-- The loop of `LoadControlObject` over the child elements. -/
def loadControlChildren (parents : List (List UInt16)) :
    Dom → ControlLoader → Outcome ControlLoader
  | .null, l => .ok l
  | .text _ next, l => loadControlChildren parents next l
  | .entityReference nodeName child next, l =>
    (loadControlChildren (nodeName.1 :: parents) child l).bind (loadControlChildren parents next)
  | .element nodeName attributes child next, l =>
    ((loadInstance clib classes l parents ⟨nodeName, attributes, child⟩).bind
      (loadControlChildren (nodeName.1 :: parents) child)).bind (loadControlChildren parents next)

/-- `LoadControlObject`, for an element with these parents. -/
def loadControlObject (l : ControlLoader) (parents : List (List UInt16)) (ele : DomElement) :
    Outcome ControlLoader :=
  (loadInstance clib classes l parents ele).bind
    (loadControlChildren clib classes (ele.nodeName.1 :: parents) ele.firstChild)

/-! ## The instances of a document -/

/-- An element that creates an object : its path, the class, and the names and texts of the
methods. -/
structure Instance where
  path : Str
  className : Str
  methods : List (Str × Str)

/-- The methods among the child elements. -/
def methodsOf : Dom → List (Str × Str)
  | .null => []
  | .text _ next => methodsOf next
  | .entityReference _ child next => methodsOf child ++ methodsOf next
  | .element nodeName attributes child next =>
    if first (getAttribute attributes "type") = first (xerceForm "method") then
      (localForm nodeName.1, localForm child.textContent) :: methodsOf next
    else methodsOf next

/-- The type of an element that creates an object. -/
def IsInstance (attributes : Attributes) : Prop :=
  first (getAttribute attributes "type") = first (xerceForm "instance")

instance (attributes : Attributes) : Decidable (IsInstance attributes) :=
  inferInstanceAs (Decidable (_ = _))

/-- What is created for an element, with the names of the nodes from the document element to it. -/
def instanceOf (names : List ElementName) (attributes : Attributes) (child : Dom) : Instance where
  path := nameOf names
  className := localForm (getAttribute attributes "class")
  methods := methodsOf child

/-- The instances, in document order, under elements and entities with these names. -/
def instances : List ElementName → Dom → List Instance
  | _, .null => []
  | names, .text _ next => instances names next
  | names, .entityReference nodeName child next =>
    instances (names ++ [nodeName]) child ++ instances names next
  | names, .element nodeName attributes child next =>
    (if IsInstance attributes then [instanceOf (names ++ [nodeName]) attributes child] else []) ++
      instances (names ++ [nodeName]) child ++ instances names next

/-- The instances of a document. -/
def DomElement.instances (root : DomElement) : List Instance :=
  XmlParser.instances [] (.element root.nodeName root.attributes root.firstChild .null)

/-- The object that is found under a path, when instances have been loaded : the one there was, or
that of the first instance with the path. -/
def ControlLoader.bound (l : ControlLoader) (is : List Instance) (path : Str) : Option ℕ :=
  l.manager.entites[path]?.or ((is.findIdx? (·.path = path)).map (l.next + ·))

/-- The tables of the objects, when instances have been loaded. -/
def ControlLoader.tables (l : ControlLoader) (is : List Instance) (object : ℕ) : MsgMap :=
  match if l.next ≤ object then is[object - l.next]? else none with
  | some i => classes.msgMap i.className
  | none => l.msgMap object

/-- What comes of a method, for an object with these tables : a call, or none, unless an exception
is thrown or a text read outside. -/
def invocation (object : ℕ) (msgMap : MsgMap) (method : Str × Str) :
    Option (Option ControlCall) :=
  match CmdTarget.dispatchMsg clib [] method.1 method.2 msgMap with
  | .call pfn params =>
    if (classes.throws object pfn params).isNone then some (some ⟨object, pfn, params⟩) else none
  | .returns => some none
  | .throws _ => none
  | .crash => none

/-- The calls that come of the methods of an instance, on an object with these tables. -/
def callsOf (object : ℕ) (msgMap : MsgMap) (i : Instance) : List ControlCall :=
  i.methods.filterMap fun method => (invocation clib classes object msgMap method).join

/-- The calls that an instance makes, among these. -/
def ControlLoader.callsFrom (l : ControlLoader) (is : List Instance) (i : Instance) :
    List ControlCall :=
  match l.bound is i.path with
  | some object => callsOf clib classes object (l.tables classes is object) i
  | none => []

/-- The objects that are registered are below the next address. -/
def ControlLoader.Allocated (l : ControlLoader) : Prop :=
  ∀ (path : Str) (object : ℕ), l.manager.entites[path]? = some object → object < l.next

/-- The class is joined and is one of control objects, and all methods can be called on the object
that the path is bound to. -/
structure Loadable (l : ControlLoader) (is : List Instance) (i : Instance) : Prop where
  className : (classes.classes.find? (·.1 = i.className)).map (·.2) = some true
  methods : ∀ method ∈ i.methods, ∀ object, l.bound is i.path = some object →
    (invocation clib classes object (l.tables classes is object) method).isSome

/-- The loader after the instances : what it has registered, and the calls that it has made. -/
structure Loaded (l : ControlLoader) (is : List Instance) (l' : ControlLoader) : Prop where
  entites : ∀ path : Str, l'.manager.entites[path]? = l.bound is path
  datas : l'.manager.datas = l.manager.datas
  dataNodeNames : l'.manager.dataNodeNames = l.manager.dataNodeNames
  next : l'.next = l.next + is.length
  msgMap : l'.msgMap = l.tables classes is
  calls : l'.calls = l.calls ++ is.flatMap (l.callsFrom clib classes is)

/-! ## The elements as a list -/

variable {clib : CLib} {classes : ControlClasses} {l l' : ControlLoader} {is : List Instance}

/-- The calls of methods on an object. -/
def callMethods (clib : CLib) (classes : ControlClasses) (object : Option ℕ) :
    List (Str × Str) → ControlLoader → Outcome ControlLoader
  | [], l => .ok l
  | (name, text) :: methods, l =>
    match object with
    | none => .crash
    | some o =>
      match CmdTarget.dispatchMsg clib (l.manager.fullName (.control o)) name text (l.msgMap o) with
      | .call pfn params =>
        let l := { l with calls := l.calls ++ [⟨o, pfn, params⟩] }
        match classes.throws o pfn params with
        | some message => .throws message l
        | none => callMethods clib classes object methods l
      | .returns => callMethods clib classes object methods l
      | .throws message => .throws message l
      | .crash => .crash

/-- One instance. -/
def loadOne (clib : CLib) (classes : ControlClasses) (i : Instance) (l : ControlLoader) :
    Outcome ControlLoader :=
  match l.manager.registerClass classes.classes i.className i.path l.next with
  | .ok manager =>
    callMethods clib classes (controlOf (manager.getObject i.path)) i.methods
      { l with
        manager := manager
        next := l.next + 1
        msgMap := Function.update l.msgMap l.next (classes.msgMap i.className) }
  | .throws message manager => .throws message { l with manager := manager }
  | .crash => .crash

/-- Instances, one after the other. -/
def loadInstances (clib : CLib) (classes : ControlClasses) :
    List Instance → ControlLoader → Outcome ControlLoader
  | [], l => .ok l
  | i :: is, l => (loadOne clib classes i l).bind (loadInstances clib classes is)

theorem callMethods_append (object : Option ℕ) (methods methods' : List (Str × Str))
    (l : ControlLoader) : callMethods clib classes object (methods ++ methods') l =
      (callMethods clib classes object methods l).bind
        (callMethods clib classes object methods') := by
  induction methods generalizing l with
  | nil => rfl
  | cons method methods ih =>
    obtain ⟨name, text⟩ := method
    cases object with
    | none => rfl
    | some o =>
      rw [List.cons_append, callMethods, callMethods]
      dsimp only
      cases CmdTarget.dispatchMsg clib (l.manager.fullName (.control o)) name text (l.msgMap o) with
      | call pfn params =>
        dsimp only
        cases classes.throws o pfn params with
        | none => exact ih _
        | some message => rfl
      | returns => exact ih l
      | throws message => rfl
      | crash => rfl

theorem loadMethods_eq (object : Option ℕ) (d : Dom) (l : ControlLoader) :
    loadMethods clib classes object d l = callMethods clib classes object (methodsOf d) l := by
  induction d generalizing l with
  | null => rfl
  | text _ _ ih => exact ih l
  | entityReference _ child next ihChild ihNext =>
    rw [loadMethods, methodsOf, callMethods_append, ihChild, funext ihNext]
  | element nodeName attributes child next _ ih =>
    unfold loadMethods methodsOf
    split_ifs
    · unfold callMethods
      simp only [ih]
    · exact ih l

theorem loadInstance_eq (names : List ElementName) (ele : DomElement) :
    loadInstance clib classes l (names.reverse.map (·.1.1) ++ [document]) ele =
      if IsInstance ele.attributes then
        loadOne clib classes (instanceOf (names ++ [ele.nodeName]) ele.attributes ele.firstChild) l
      else .ok l := by
  have htype : (first (getAttribute ele.attributes "type") ≠ 0 ∧
      first (getAttribute ele.attributes "type") = first (xerceForm "instance")) ↔
      IsInstance ele.attributes :=
    ⟨fun h => h.2, fun h => ⟨fun hzero => absurd (h.symm.trans hzero) (by decide), h⟩⟩
  by_cases h : IsInstance ele.attributes
  · rw [loadInstance, if_pos (htype.2 h), if_pos h, path_eq]
    simp only [loadOne, instanceOf, loadMethods_eq]
  · rw [loadInstance, if_neg (mt htype.1 h), if_neg h]

theorem bind_assoc {σ : Type*} (o : Outcome σ) (f g : σ → Outcome σ) :
    (o.bind f).bind g = o.bind fun s => (f s).bind g := by
  cases o <;> rfl

theorem loadInstances_append (is js : List Instance) (l : ControlLoader) :
    loadInstances clib classes (is ++ js) l =
      (loadInstances clib classes is l).bind (loadInstances clib classes js) := by
  induction is generalizing l with
  | nil => rfl
  | cons i is ih =>
    rw [List.cons_append, loadInstances, loadInstances, bind_assoc]
    exact congrArg (Outcome.bind · (loadOne clib classes i l)) (funext ih)

theorem parents_concat (names : List ElementName) (nodeName : ElementName) :
    nodeName.1.1 :: (names.reverse.map (·.1.1) ++ [document]) =
      (names ++ [nodeName]).reverse.map (·.1.1) ++ [document] := by
  simp

theorem loadControlChildren_eq (names : List ElementName) (d : Dom) (l : ControlLoader) :
    loadControlChildren clib classes (names.reverse.map (·.1.1) ++ [document]) d l =
      loadInstances clib classes (instances names d) l := by
  induction d generalizing names l with
  | null => rfl
  | text _ _ ih => exact ih names l
  | entityReference nodeName child next ihChild ihNext =>
    rw [loadControlChildren, instances, loadInstances_append, parents_concat, ihChild,
      funext (ihNext names)]
  | element nodeName attributes child next ihChild ihNext =>
    rw [loadControlChildren, instances, loadInstances_append, loadInstances_append, parents_concat,
      loadInstance_eq, funext (ihChild _), funext (ihNext names)]
    split_ifs
    · rw [loadInstances]
      cases loadOne clib classes (instanceOf (names ++ [nodeName]) attributes child) l <;> rfl
    · rfl

/-- The document is loaded instance by instance. -/
theorem loadControlObject_eq (root : DomElement) (l : ControlLoader) :
    loadControlObject clib classes l [document] root =
      loadInstances clib classes root.instances l := by
  have hnil : ∀ o : Outcome ControlLoader, o.bind (loadControlChildren clib classes
      [document] .null) = o := by
    intro o
    cases o <;> rfl
  have h := @loadControlChildren_eq clib classes []
    (.element root.nodeName root.attributes root.firstChild .null) l
  rw [← DomElement.instances, List.reverse_nil, List.map_nil, List.nil_append,
    loadControlChildren, hnil] at h
  exact h

/-! ## One instance -/

/-- The full name of an object is in the texts of exceptions only. -/
theorem dispatchMsg_fullName (fullName name text : Str) (msgMap : MsgMap) :
    CmdTarget.dispatchMsg clib fullName name text msgMap =
        CmdTarget.dispatchMsg clib [] name text msgMap ∨
      ∃ message message', CmdTarget.dispatchMsg clib fullName name text msgMap = .throws message ∧
        CmdTarget.dispatchMsg clib [] name text msgMap = .throws message' := by
  induction msgMap with
  | nil => exact Or.inr ⟨_, _, rfl, rfl⟩
  | cons table msgMap ih =>
    rw [CmdTarget.dispatchMsg, CmdTarget.dispatchMsg]
    cases CmdTarget.findEntity name table with
    | none => exact ih
    | some e => exact Or.inl rfl

/-- The methods are called if they can all be, one after the other. -/
theorem callMethods_eq_ok {object : ℕ} {methods : List (Str × Str)} :
    callMethods clib classes (some object) methods l = .ok l' ↔
      (∀ method ∈ methods, (invocation clib classes object (l.msgMap object) method).isSome) ∧
        l' = { l with calls := l.calls ++ methods.filterMap fun method =>
          (invocation clib classes object (l.msgMap object) method).join } := by
  induction methods generalizing l with
  | nil =>
    rw [callMethods, Outcome.ok.injEq, eq_comm]
    simp
  | cons method methods ih =>
    obtain ⟨name, text⟩ := method
    rw [callMethods, List.forall_mem_cons, List.filterMap_cons]
    dsimp only
    rcases @dispatchMsg_fullName clib (l.manager.fullName (.control object)) name text
      (l.msgMap object) with h | ⟨message, message', h, h'⟩
    · rw [h, invocation]
      cases CmdTarget.dispatchMsg clib [] name text (l.msgMap object) with
      | call pfn params =>
        dsimp only
        cases classes.throws object pfn params with
        | none =>
          dsimp only
          rw [ih]
          simp
        | some message => simp
      | returns =>
        dsimp only
        rw [ih]
        simp
      | throws message => simp
      | crash => simp
    · rw [h, invocation, h']
      simp

/-- The loader when the object of an instance is created, and these calls have been made. -/
def ControlLoader.create (l : ControlLoader) (classes : ControlClasses) (i : Instance)
    (calls : List ControlCall) : ControlLoader where
  manager :=
    { l.manager.setFullName (.control l.next) i.path with
      entites := l.manager.entites.insertIfNew i.path l.next }
  next := l.next + 1
  msgMap := Function.update l.msgMap l.next (classes.msgMap i.className)
  calls := calls

variable {i : Instance} {path : Str} {calls : List ControlCall}

theorem entites_create : (l.create classes i calls).manager.entites[path]? =
    l.manager.entites[path]?.or (if i.path = path then some l.next else none) := by
  rw [ControlLoader.create, Std.TreeMap.getElem?_insertIfNew]
  by_cases hpath : i.path = path
  · subst hpath
    cases hbound : l.manager.entites[i.path]? <;>
      simp [Std.TreeMap.mem_iff_isSome_getElem?, hbound]
  · simp [hpath]

/-- The first instance with a path is the one that is found. -/
theorem bound_create : (l.create classes i calls).bound is path = l.bound (i :: is) path := by
  unfold ControlLoader.bound
  rw [entites_create, List.findIdx?_cons, Option.or_assoc]
  by_cases hpath : i.path = path
  · simp [hpath]
  · simp [hpath, ControlLoader.create, Nat.add_assoc, Nat.add_comm 1, Function.comp_def]

theorem tables_create :
    (l.create classes i calls).tables classes is = l.tables classes (i :: is) := by
  funext object
  unfold ControlLoader.tables
  rcases lt_trichotomy object l.next with h | rfl | h
  · have hcreate : ¬l.next + 1 ≤ object := by omega
    have hlater : ¬l.next ≤ object := by omega
    simp [ControlLoader.create, hcreate, hlater, Function.update_of_ne h.ne]
  · simp [ControlLoader.create]
  · obtain ⟨n, rfl⟩ := Nat.exists_eq_add_of_lt h
    have hsub : l.next + n + 1 - l.next = n + 1 := by omega
    have hsub' : l.next + n + 1 - (l.next + 1) = n := by omega
    have hle : l.next + 1 ≤ l.next + n + 1 := by omega
    simp [ControlLoader.create, hsub, hsub', hle, h.le, Function.update_of_ne h.ne']

theorem allocated_create (hl : l.Allocated) : (l.create classes i calls).Allocated := by
  intro path object h
  rw [entites_create, Option.or_eq_some_iff] at h
  obtain h | ⟨-, h⟩ := h
  · exact (hl path object h).trans (Nat.lt_succ_self _)
  · split_ifs at h
    cases h
    exact Nat.lt_succ_self _

theorem loadable_create {j : Instance} :
    Loadable clib classes (l.create classes i calls) is j ↔
      Loadable clib classes l (i :: is) j := by
  constructor
  all_goals
    rintro ⟨hclass, hmethods⟩
    refine ⟨hclass, ?_⟩
    simpa only [bound_create, tables_create] using hmethods

/-- The object that the path of the next instance is bound to, and its tables. -/
theorem bound_cons (hl : l.Allocated) : ∃ object, l.bound (i :: is) i.path = some object ∧
    (l.create classes i calls).manager.entites[i.path]? = some object ∧
    (l.create classes i calls).msgMap object = l.tables classes (i :: is) object := by
  have hbound : l.bound (i :: is) i.path = (l.create classes i calls).manager.entites[i.path]? := by
    simp [entites_create, ControlLoader.bound, List.findIdx?_cons]
  obtain ⟨object, hobject⟩ : ∃ object,
      (l.create classes i calls).manager.entites[i.path]? = some object := by
    rw [entites_create, if_pos rfl]
    cases l.manager.entites[i.path]? <;> exact ⟨_, rfl⟩
  refine ⟨object, hbound.trans hobject, hobject, ?_⟩
  have hlt := allocated_create hl _ _ hobject
  rw [← tables_create, ControlLoader.tables, if_neg (Nat.not_le.2 hlt)]

/-- An instance is loaded if it can be, and then its calls are made on the object that its path is
bound to. -/
theorem loadOne_eq_ok (hl : l.Allocated) (hpath : i.path ≠ []) :
    loadOne clib classes i l = .ok l' ↔ Loadable clib classes l (i :: is) i ∧
      l' = l.create classes i (l.calls ++ l.callsFrom clib classes (i :: is) i) := by
  obtain ⟨object, hbound, hentites, htables⟩ :=
    @bound_cons classes _ is i l.calls hl
  have hloadable : Loadable clib classes l (i :: is) i ↔
      (classes.classes.find? (·.1 = i.className)).map (·.2) = some true ∧
        ∀ method ∈ i.methods,
          (invocation clib classes object (l.tables classes (i :: is) object) method).isSome := by
    constructor
    · rintro ⟨hclass, hmethods⟩
      exact ⟨hclass, fun method hmethod => hmethods method hmethod object hbound⟩
    · rintro ⟨hclass, hmethods⟩
      refine ⟨hclass, fun method hmethod object' hobject' => ?_⟩
      cases hbound.symm.trans hobject'
      exact hmethods method hmethod
  rw [hloadable, ControlLoader.callsFrom, hbound, loadOne, ObjectManager.registerClass]
  obtain hclass | ⟨⟨className, control⟩, hclass⟩ :=
    Option.eq_none_or_eq_some (classes.classes.find? (·.1 = i.className))
  · simp [hclass]
  · rw [hclass]
    cases control with
    | false => simp
    | true =>
      have hobject :
          controlOf ((l.create classes i l.calls).manager.getObject i.path) = some object := by
        rw [ObjectManager.getObject, if_neg hpath, hentites]
        rfl
      have hcall := @callMethods_eq_ok clib classes (l.create classes i l.calls) l' object i.methods
      rw [htables, ← hobject] at hcall
      rw [Option.map_some, eq_self, true_and]
      exact hcall

/-! ## The whole document -/

theorem loaded_create
    (h : Loaded clib classes
      (l.create classes i (l.calls ++ l.callsFrom clib classes (i :: is) i)) is l') :
    Loaded clib classes l (i :: is) l' where
  entites path := (h.entites path).trans bound_create
  datas := h.datas
  dataNodeNames := h.dataNodeNames
  next := by
    rw [h.next, ControlLoader.create, List.length_cons, Nat.add_assoc, Nat.add_comm 1]
  msgMap := h.msgMap.trans tables_create
  calls := by
    have hcalls : ∀ calls, (l.create classes i calls).callsFrom clib classes is =
        l.callsFrom clib classes (i :: is) := by
      intro calls
      funext j
      rw [ControlLoader.callsFrom, ControlLoader.callsFrom, bound_create, tables_create]
    rw [h.calls, hcalls, List.flatMap_cons, ← List.append_assoc]
    rfl

theorem loaded_loadInstances (hl : l.Allocated) (hpaths : ∀ i ∈ is, i.path ≠ [])
    (h : loadInstances clib classes is l = .ok l') : Loaded clib classes l is l' := by
  induction is generalizing l with
  | nil =>
    obtain rfl := Outcome.ok.inj h
    exact ⟨fun _ => by simp [ControlLoader.bound], rfl, rfl, rfl,
      by simp [funext_iff, ControlLoader.tables], by simp⟩
  | cons i is ih =>
    rw [List.forall_mem_cons] at hpaths
    rw [loadInstances, Outcome.bind_eq_ok] at h
    obtain ⟨l₁, hone, h⟩ := h
    obtain ⟨-, rfl⟩ := (@loadOne_eq_ok _ _ _ _ is _ hl hpaths.1).1 hone
    exact loaded_create (ih (allocated_create hl) hpaths.2 h)

theorem loadInstances_returns_iff (hl : l.Allocated) (hpaths : ∀ i ∈ is, i.path ≠ []) :
    (∃ l', loadInstances clib classes is l = .ok l') ↔
      ∀ i ∈ is, Loadable clib classes l is i := by
  induction is generalizing l with
  | nil => simp [loadInstances]
  | cons i is ih =>
    rw [List.forall_mem_cons] at hpaths
    rw [List.forall_mem_cons, loadInstances]
    simp only [Outcome.bind_eq_ok, @loadOne_eq_ok _ _ _ _ is _ hl hpaths.1]
    have hrest : ∀ calls,
        (∃ l', loadInstances clib classes is (l.create classes i calls) = .ok l') ↔
        ∀ j ∈ is, Loadable clib classes l (i :: is) j := by
      intro calls
      rw [ih (allocated_create hl) hpaths.2]
      exact forall₂_congr fun j _ => loadable_create
    constructor
    · rintro ⟨l', l₁, ⟨hfirst, rfl⟩, h⟩
      exact ⟨hfirst, (hrest _).1 ⟨l', h⟩⟩
    · rintro ⟨hfirst, h⟩
      obtain ⟨l', hl'⟩ := (hrest _).2 h
      exact ⟨l', _, ⟨hfirst, rfl⟩, hl'⟩

theorem path_ne_nil {names : List ElementName} {d : Dom} (hi : i ∈ instances names d) :
    i.path ≠ [] := by
  induction d generalizing names with
  | null => cases hi
  | text _ _ ih => exact ih hi
  | entityReference _ _ _ ihChild ihNext =>
    exact (List.mem_append.1 hi).elim (fun hi => ihChild hi) fun hi => ihNext hi
  | element nodeName attributes child next ihChild ihNext =>
    rw [instances, List.mem_append, List.mem_append] at hi
    obtain (hi | hi) | hi := hi
    · split_ifs at hi
      · rw [List.mem_singleton] at hi
        rw [hi]
        exact List.cons_ne_nil _ _
      · cases hi
    · exact ihChild hi
    · exact ihNext hi

/-- The registrations of instances, whose objects are numbered from here on. -/
def instanceBinds : ℕ → List Instance → List BindCall
  | _, [] => []
  | n, i :: is => .register (.className i.className i.path n) :: instanceBinds (n + 1) is

theorem boundBy_instanceBinds (n : ℕ) (is : List Instance) :
    ObjectManager.boundBy (instanceBinds n is) = (List.range' n is.length).map .control := by
  induction is generalizing n with
  | nil => rfl
  | cons i is ih =>
    rw [List.length_cons, List.range'_succ, List.map_cons, ← ih]
    rfl

/-- What the creation of an object registers. -/
theorem bind_create (h : (classes.classes.find? (·.1 = i.className)).map (·.2) = some true) :
    l.manager.bind classes.classes (.register (.className i.className i.path l.next)) =
      some (l.create classes i calls).manager := by
  obtain ⟨⟨className, control⟩, hclass, rfl⟩ := Option.map_eq_some_iff.1 h
  rw [ObjectManager.bind, ObjectManager.step, ObjectManager.registerClass, hclass]
  rfl

/-- The registry of the control objects is that of their registrations. -/
theorem bindAll_loadInstances (hl : l.Allocated) (hpaths : ∀ i ∈ is, i.path ≠ [])
    (h : loadInstances clib classes is l = .ok l') :
    (instanceBinds l.next is).foldlM (ObjectManager.bind classes.classes) l.manager =
      some l'.manager := by
  induction is generalizing l with
  | nil =>
    obtain rfl := Outcome.ok.inj h
    rfl
  | cons i is ih =>
    rw [List.forall_mem_cons] at hpaths
    rw [loadInstances, Outcome.bind_eq_ok] at h
    obtain ⟨l₁, hone, h⟩ := h
    obtain ⟨hloadable, rfl⟩ := (@loadOne_eq_ok _ _ _ _ is _ hl hpaths.1).1 hone
    rw [instanceBinds, List.foldlM_cons, bind_create hloadable.className]
    exact ih (allocated_create hl) hpaths.2 h

/-- What a document has registered, and the calls that it has made. -/
theorem loaded_loadControlObject (hl : l.Allocated) {root : DomElement}
    (h : loadControlObject clib classes l [document] root = .ok l') :
    Loaded clib classes l root.instances l' :=
  loaded_loadInstances hl (fun _ => path_ne_nil) ((loadControlObject_eq root l).symm.trans h)

/-- The documents that are loaded to their ends. -/
theorem loadControlObject_returns_iff (hl : l.Allocated) (root : DomElement) :
    (∃ l', loadControlObject clib classes l [document] root = .ok l') ↔
      ∀ i ∈ root.instances, Loadable clib classes l root.instances i := by
  rw [loadControlObject_eq]
  exact loadInstances_returns_iff hl fun _ => path_ne_nil

end XmlParser

end Ick
