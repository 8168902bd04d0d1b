import Ick.ChannelElements
import Ick.History

/-!
# Channels of an unknown type

`LoadIO` creates no object for a channel whose `dataType` and `accessMode` it does not know, and
goes on with `NULL`. The members are set from the attributes, and the object is registered, only if
the pointer is not `NULL`; the methods of the child elements, and those for the numbers after them,
are called without a test. `MethodCall` is a call of a method on the object of an element.

`LoadIO` is a loop over the elements that it is called for (`loadIo_eq_loadAll`), so that
`handlesUnknown_iff` can say when no method is called on `NULL` : if the run comes to no channel of
an unknown type.
-/

namespace Ick

namespace XmlParser

/-! ## The elements of a document -/

/-- An element that `LoadIO` is called for, with the names of its parents, entities among them. -/
abbrev Visit := List (List UInt16) × DomElement

/-- What `LoadIO` is called for under these parents, in order. -/
def childVisits : List (List UInt16) → Dom → List Visit
  | _, .null => []
  | parents, .text _ next => childVisits parents next
  | parents, .entityReference nodeName child next =>
    childVisits (nodeName.1 :: parents) child ++ childVisits parents next
  | parents, .element nodeName attributes child next =>
    (if child.elementCount > 0 ∨ attributes.length > 0 then
      (parents, ⟨nodeName, attributes, child⟩) :: childVisits (nodeName.1 :: parents) child
    else []) ++ childVisits parents next

/-- What `LoadIO` is called for, if it is called for this element. -/
def visits (parents : List (List UInt16)) (ele : DomElement) : List Visit :=
  (parents, ele) :: childVisits (ele.nodeName.1 :: parents) ele.firstChild

variable (clib : CLib)

/-- What is done with the elements themselves. -/
def loadAll : List Visit → Loader → Outcome Loader
  | [], l => .ok l
  | v :: vs, l => (loadElement clib l v.1 v.2).bind (loadAll vs)

variable {clib} {l l' : Loader} {parents : List (List UInt16)} {ele : DomElement}

theorem loadAll_append (vs ws : List Visit) (l : Loader) :
    loadAll clib (vs ++ ws) l = (loadAll clib vs l).bind (loadAll clib ws) := by
  induction vs generalizing l with
  | nil => rfl
  | cons v vs ih =>
    rw [List.cons_append, loadAll, loadAll]
    cases loadElement clib l v.1 v.2 with
    | ok l₁ => exact ih l₁
    | throws message l₁ => rfl
    | crash => rfl

theorem loadChildren_eq_loadAll (parents : List (List UInt16)) (d : Dom) :
    loadChildren clib parents d = loadAll clib (childVisits parents d) := by
  induction d generalizing parents with
  | null => rfl
  | text _ _ ih => exact ih parents
  | entityReference nodeName child next ihChild ihNext =>
    funext l
    rw [loadChildren, childVisits, ihChild, ihNext, loadAll_append]
  | element nodeName attributes child next ihChild ihNext =>
    funext l
    rw [loadChildren, childVisits, ihChild, ihNext, loadAll_append]
    split_ifs
    · rfl
    · rfl

/-- `LoadIO` deals with one element after the other. -/
theorem loadIo_eq_loadAll (l : Loader) (parents : List (List UInt16)) (ele : DomElement) :
    loadIo clib l parents ele = loadAll clib (visits parents ele) l := by
  rw [loadIo, loadChildren_eq_loadAll]
  rfl

/-! ## Calls of methods -/

/-- The methods of a channel's data that `LoadIO` calls. -/
inductive Method
  | setNodeNumber
  | setChannelNumber
  | setFirstParamValue
  | setSecondParamValue
  | setDescription
  | dispatchMsg
  | getNodeNumber
  | getChannelNumber
  deriving DecidableEq

/-- A call of a method, with the class of the object, and none if the pointer is `NULL`. -/
structure MethodCall where
  receiver : Option DataClass
  method : Method
  deriving DecidableEq

/-- The class of the object. -/
def Loading.receiver (l : Loading) : Option DataClass := l.untypedData.map (·.dataClass)

/-- The calls for the attributes, each made only if the pointer is not `NULL`. -/
def attributeCalls (attributes : Attributes) (receiver : Option DataClass) : List MethodCall :=
  [("Bd", Method.setNodeNumber), ("Ch", .setChannelNumber), ("lparam", .setFirstParamValue),
    ("wparam", .setSecondParamValue), ("description", .setDescription)].filterMap fun setter =>
    if first (getAttribute attributes setter.1) ≠ 0 ∧ receiver ≠ none then
      some ⟨receiver, setter.2⟩
    else none

/-- The calls for the child elements. -/
def childCalls (clib : CLib) : List ChildElement → Loading → List MethodCall
  | [], _ => []
  | c :: cs, l =>
    (if c.treatment = .method then [⟨l.receiver, .dispatchMsg⟩] else []) ++
      match c.read clib l with
      | .ok l' => childCalls clib cs l'
      | .throws _ _ => []
      | .crash => []

/-- The calls for the numbers. The channel number is not asked for if there is a node number. -/
def numberCalls (l : Loading) : List MethodCall :=
  if l.nodeNumber = 0 ∧ l.channelNumber = 0 then
    ⟨l.receiver, .getNodeNumber⟩ ::
      match l.untypedData with
      | none => []
      | some d => if d.nodeNumber = 0 then [⟨l.receiver, .getChannelNumber⟩] else []
  else [⟨l.receiver, .setNodeNumber⟩, ⟨l.receiver, .setChannelNumber⟩]

/-- What `LoadIO` has after the attributes of an element. -/
def DomElement.loading (ele : DomElement) : Loading where
  nodeNumber := 0
  channelNumber := 0
  untypedData := ele.dataClass.map fun c => (LoadedData.new c).setAttributes ele.attributes

/-- The calls for an element. -/
def methodCalls (clib : CLib) (ele : DomElement) : List MethodCall :=
  if first (getAttribute ele.attributes "dataType") ≠ 0 ∧
      first (getAttribute ele.attributes "accessMode") ≠ 0 then
    attributeCalls ele.attributes ele.dataClass ++
      childCalls clib (childElements ele.firstChild) ele.loading ++
      match readAll clib (childElements ele.firstChild) ele.loading with
      | .ok l => numberCalls l
      | .throws _ _ => []
      | .crash => []
  else []

/-- No method is called on `NULL`. -/
def NullSafe (calls : List MethodCall) : Prop := ∀ call ∈ calls, call.receiver ≠ none

/-- No method is called on `NULL` for the element, and if its type is unknown, it is skipped or
reported. -/
structure HandlesUnknown (clib : CLib) (l : Loader) (parents : List (List UInt16))
    (ele : DomElement) : Prop where
  nullSafe : NullSafe (methodCalls clib ele)
  unknown : ele.dataClass = none → loadElement clib l parents ele = .ok l ∨
    ∃ message l', loadElement clib l parents ele = .throws message l'

/-- A channel whose type is known, or no channel at all. -/
def Known (ele : DomElement) : Prop := IsChannel ele.attributes → ele.dataClass ≠ none

theorem nullSafe_nil : NullSafe [] := fun _ hcall => absurd hcall List.not_mem_nil

theorem nullSafe_append {calls calls' : List MethodCall} :
    NullSafe (calls ++ calls') ↔ NullSafe calls ∧ NullSafe calls' :=
  List.forall_mem_append

theorem receiver_loading (ele : DomElement) : ele.loading.receiver = ele.dataClass := by
  rw [Loading.receiver, DomElement.loading, Option.map_map]
  cases ele.dataClass with
  | none => rfl
  | some c => exact congrArg some (dataClass_setAttributes ele.attributes (.new c))

theorem nullSafe_attributeCalls (attributes : Attributes) (receiver : Option DataClass) :
    NullSafe (attributeCalls attributes receiver) := by
  intro call hcall
  obtain ⟨setter, -, hsetter⟩ := List.mem_filterMap.1 hcall
  split_ifs at hsetter with h
  obtain rfl := Option.some.inj hsetter
  exact h.2

/-- Without an object, a round returns unless it calls a method. -/
theorem read_null {c : ChildElement} {s : Loading} (h : s.untypedData = none) :
    (c.treatment = .method ∧ c.read clib s = .crash) ∨
      (c.treatment ≠ .method ∧ ∃ s', c.read clib s = .ok s' ∧ s'.untypedData = none) := by
  unfold ChildElement.read
  cases c.treatment with
  | nodeNumber => exact Or.inr ⟨nofun, _, rfl, h⟩
  | channelNumber => exact Or.inr ⟨nofun, _, rfl, h⟩
  | method => exact Or.inl ⟨rfl, by simp [h]⟩
  | nothing => exact Or.inr ⟨nofun, s, rfl, h⟩

/-- A round of the loop keeps the object. -/
theorem receiver_read {c : ChildElement} {s s' : Loading} (h : c.read clib s = .ok s') :
    s'.receiver = s.receiver := by
  obtain ⟨nodeNumber, channelNumber, untypedData⟩ := s
  cases untypedData with
  | none =>
    rcases @read_null clib c ⟨nodeNumber, channelNumber, none⟩ rfl with
      ⟨-, hcrash⟩ | ⟨-, s₁, hread, hs₁⟩
    · rw [hcrash] at h
      cases h
    · obtain rfl := Outcome.ok.inj (hread.symm.trans h)
      rw [Loading.receiver, hs₁]
      rfl
  | some d =>
    obtain ⟨simulated, hread⟩ := c.read_ok (c.returns_of_read h) nodeNumber channelNumber d
    obtain rfl := Outcome.ok.inj (hread.symm.trans h)
    rfl

theorem receiver_readAll {cs : List ChildElement} {s s' : Loading}
    (h : readAll clib cs s = .ok s') : s'.receiver = s.receiver := by
  induction cs generalizing s with
  | nil => rw [Outcome.ok.inj h]
  | cons c cs ih =>
    obtain ⟨s₁, hread, hrest⟩ := Outcome.bind_eq_ok.1 h
    rw [ih hrest, receiver_read hread]

/-- The methods of the child elements are called on the object. -/
theorem nullSafe_childCalls {cs : List ChildElement} {s : Loading} (h : s.receiver ≠ none) :
    NullSafe (childCalls clib cs s) := by
  induction cs generalizing s with
  | nil => exact nullSafe_nil
  | cons c cs ih =>
    rw [childCalls, nullSafe_append]
    constructor
    · split_ifs
      · exact List.forall_mem_singleton.2 h
      · exact nullSafe_nil
    · cases hread : c.read clib s with
      | ok s' => exact ih ((receiver_read hread).trans_ne h)
      | throws message s' => exact nullSafe_nil
      | crash => exact nullSafe_nil

/-- The numbers are read or set by methods of the object. -/
theorem nullSafe_numberCalls_iff {s : Loading} :
    NullSafe (numberCalls s) ↔ s.receiver ≠ none := by
  unfold numberCalls
  constructor
  · intro h
    split_ifs at h
    · exact h _ List.mem_cons_self
    · exact h _ List.mem_cons_self
  · intro h call hcall
    split_ifs at hcall
    · rcases List.mem_cons.1 hcall with rfl | hcall
      · exact h
      · cases hd : s.untypedData with
        | none => simp [hd] at hcall
        | some d =>
          simp only [hd] at hcall
          split_ifs at hcall
          · rw [List.mem_singleton.1 hcall]
            exact h
          · exact absurd hcall List.not_mem_nil
    · simp only [List.mem_cons, List.not_mem_nil, or_false] at hcall
      rcases hcall with rfl | rfl
      · exact h
      · exact h

/-- On `NULL`, the loop ends with the first method, or returns. -/
theorem readAll_null {cs : List ChildElement} {s : Loading} (h : s.untypedData = none) :
    (¬NullSafe (childCalls clib cs s) ∧ readAll clib cs s = .crash) ∨
      ∃ s', readAll clib cs s = .ok s' := by
  induction cs generalizing s with
  | nil => exact Or.inr ⟨s, rfl⟩
  | cons c cs ih =>
    have hreceiver : s.receiver = none := by rw [Loading.receiver, h, Option.map_none]
    rcases @read_null clib c s h with ⟨hmethod, hread⟩ | ⟨hmethod, s', hread, hs'⟩
    · refine Or.inl ⟨fun hsafe => ?_, by rw [readAll, hread, Outcome.bind]⟩
      rw [childCalls, if_pos hmethod] at hsafe
      exact hsafe _ (List.mem_append_left _ (List.mem_singleton_self _)) hreceiver
    · rw [childCalls, if_neg hmethod, List.nil_append, readAll, hread]
      exact ih hs'

/-- A method is called on `NULL` for a channel of an unknown type, whatever its attributes and child
elements are. -/
theorem not_nullSafe_of_unknown (hchannel : IsChannel ele.attributes)
    (h : ele.dataClass = none) :
    ¬NullSafe (methodCalls clib ele) ∧ loadElement clib l parents ele = .crash := by
  have hloading : ele.loading = ⟨0, 0, none⟩ := by rw [DomElement.loading, h, Option.map_none]
  have hnull : ele.loading.untypedData = none := by rw [hloading]
  have hclass := h
  rw [DomElement.dataClass] at hclass
  simp only [loadElement, methodCalls, if_pos (isChannel_iff.2 hchannel), hclass, Option.map_none,
    readChildren_eq, ← hloading, nullSafe_append]
  rcases @readAll_null clib (childElements ele.firstChild) _ hnull with
    ⟨hcalls, hcrash⟩ | ⟨s, hread⟩
  · rw [hcrash]
    exact ⟨fun hsafe => hcalls hsafe.1.2, rfl⟩
  · have hreceiver : s.receiver = none := by rw [receiver_readAll hread, receiver_loading, h]
    obtain ⟨nodeNumber, channelNumber, _ | d⟩ := s
    · rw [hread]
      exact ⟨fun hsafe => nullSafe_numberCalls_iff.1 hsafe.2 hreceiver, rfl⟩
    · cases hreceiver

/-- For an element, all depends on the type. -/
theorem handlesUnknown_iff_known (l : Loader) (parents : List (List UInt16)) (ele : DomElement) :
    HandlesUnknown clib l parents ele ↔ Known ele := by
  constructor
  · exact fun h hchannel hnone =>
      (@not_nullSafe_of_unknown clib l parents ele hchannel hnone).1 h.nullSafe
  · intro h
    by_cases hchannel : IsChannel ele.attributes
    · refine ⟨?_, fun hnone => absurd hnone (h hchannel)⟩
      have hreceiver : ele.loading.receiver ≠ none := (receiver_loading ele).trans_ne (h hchannel)
      rw [methodCalls, if_pos (isChannel_iff.2 hchannel), nullSafe_append, nullSafe_append]
      refine ⟨⟨nullSafe_attributeCalls _ _, nullSafe_childCalls hreceiver⟩, ?_⟩
      cases hread : readAll clib (childElements ele.firstChild) ele.loading with
      | ok s => exact nullSafe_numberCalls_iff.2 ((receiver_readAll hread).trans_ne hreceiver)
      | throws message s => exact nullSafe_nil
      | crash => exact nullSafe_nil
    · constructor
      · rw [methodCalls, if_neg (mt isChannel_iff.1 hchannel)]
        exact nullSafe_nil
      · intro
        rw [loadElement, if_neg (mt isChannel_iff.1 hchannel)]
        exact Or.inl rfl

/-- `LoadIO` deals with one element after the other, and calls no method on `NULL` exactly if it
comes to no channel of an unknown type. -/
theorem handlesUnknown_iff (clib : CLib) (l : Loader) (root : DomElement) :
    loadIo clib l [document] root = loadAll clib (visits [document] root) l ∧
    (Throughout (fun pre v => ∀ l', loadAll clib pre l = .ok l' → HandlesUnknown clib l' v.1 v.2)
        (visits [document] root) ↔
      Throughout (fun pre v => ∀ l', loadAll clib pre l = .ok l' → Known v.2)
        (visits [document] root)) := by
  refine ⟨loadIo_eq_loadAll l [document] root, ?_⟩
  exact forall₃_congr fun pre v _ => forall₂_congr fun l' _ => handlesUnknown_iff_known l' v.1 v.2

theorem not_handlesUnknown_x : ¬Throughout
    (fun pre v => ∀ l', loadAll Update.clib_zero pre ⟨.new, 0, []⟩ = .ok l' →
      HandlesUnknown Update.clib_zero l' v.1 v.2) (visits [document] unknownChannel) := by
  intro h
  have hsafe := (h [] ([document], unknownChannel) ⟨[], rfl⟩ _ rfl).nullSafe
  exact hsafe ⟨none, .getNodeNumber⟩ (by decide) rfl

end XmlParser

end Ick
