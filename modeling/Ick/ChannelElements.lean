import Ick.XmlParser

/-!
# The elements of a channel

The numbers of a channel are given by attributes, or by child elements that are named `Bd` and `Ch`;
a child element of the type `method` is the call of a method. `LoadIO` compares the names and the
type by their first characters (`treatment`), and takes both numbers from the child elements as soon
as one of them is not 0.

`readsNumbers_iff` says for which elements the names decide, and the numbers are those of the last
child elements with the names, or else of the attributes.
-/

namespace Ick

namespace XmlParser

/-! ## Child elements -/

/-- What `LoadIO` does with a child element. -/
inductive Treatment
  | nodeNumber
  | channelNumber
  | method
  | nothing
  deriving DecidableEq

/-- A child element, without its own child elements. -/
structure ChildElement where
  nodeName : ElementName
  attributes : Attributes
  textContent : List UInt16

/-- The child elements of the node that these are the children of, those in entities among
them. -/
def childElements : Dom → List ChildElement
  | .null => []
  | .text _ next => childElements next
  | .entityReference _ child next => childElements child ++ childElements next
  | .element nodeName attributes child next =>
    ⟨nodeName, attributes, child.textContent⟩ :: childElements next

namespace ChildElement

/-- What the comparisons of first characters make of an element. -/
def treatment (c : ChildElement) : Treatment :=
  if first c.nodeName.1 = first (xerceForm "Bd") then .nodeNumber
  else if first c.nodeName.1 = first (xerceForm "Ch") then .channelNumber
  else if first (getAttribute c.attributes "type") = first (xerceForm "method") then .method
  else .nothing

/-- What the whole names would make of an element. -/
def treatmentByName (c : ChildElement) : Treatment :=
  if c.nodeName.1.1 = xerceForm "Bd" then .nodeNumber
  else if c.nodeName.1.1 = xerceForm "Ch" then .channelNumber
  else if getAttribute c.attributes "type" = xerceForm "method" then .method
  else .nothing

/-- A name that begins like one of the two is that one, and so for the type, if the name begins
otherwise. -/
structure Plain (c : ChildElement) : Prop where
  node : first c.nodeName.1 = first (xerceForm "Bd") → c.nodeName.1.1 = xerceForm "Bd"
  channel : first c.nodeName.1 = first (xerceForm "Ch") → c.nodeName.1.1 = xerceForm "Ch"
  method : first c.nodeName.1 ≠ first (xerceForm "Bd") →
    first c.nodeName.1 ≠ first (xerceForm "Ch") →
    first (getAttribute c.attributes "type") = first (xerceForm "method") →
      getAttribute c.attributes "type" = xerceForm "method"

/-- The text as a number. -/
def number (c : ChildElement) : ℤ := Converter.atoi (localForm c.textContent)

/-- The call of the method with the name, with the text as its parameters. -/
def dispatch (clib : CLib) (c : ChildElement) : Dispatch :=
  CmdTarget.dispatchMsg clib [] (localForm c.nodeName.1) (localForm c.textContent) cmdTargetMap

/-- The call returns. -/
def returns (clib : CLib) (c : ChildElement) : Bool :=
  match c.dispatch clib with
  | .call _ _ => true
  | .returns => true
  | .throws _ => false
  | .crash => false

/-- A round of the loop over the child elements. -/
def read (clib : CLib) (c : ChildElement) (l : Loading) : Outcome Loading :=
  match c.treatment with
  | .nodeNumber => .ok { l with nodeNumber := c.number }
  | .channelNumber => .ok { l with channelNumber := c.number }
  | .method =>
    match l.untypedData with
    | none => .crash
    | some d =>
      match c.dispatch clib with
      | .call _ params => .ok { l with untypedData := some (d.call params) }
      | .returns => .ok l
      | .throws message => .throws message l
      | .crash => .crash
  | .nothing => .ok l

/-- The comparisons of first characters are right for plain names only. -/
theorem treatment_eq_iff (c : ChildElement) : c.treatment = c.treatmentByName ↔ c.Plain := by
  have hname : ∀ s, c.nodeName.1.1 = s → first c.nodeName.1 = first s := fun s h => by rw [← h]
  have htype : ∀ s, getAttribute c.attributes "type" = s →
      first (getAttribute c.attributes "type") = first s := fun s h => by rw [← h]
  have hne : first (xerceForm "Bd") ≠ first (xerceForm "Ch") := by decide
  unfold treatment treatmentByName
  constructor
  · intro h
    refine ⟨fun hnode => ?_, fun hchannel => ?_, fun hnode hchannel hmethod => ?_⟩
    · rw [if_pos hnode] at h
      split_ifs at h with hbd
      exact hbd
    · have hnode : first c.nodeName.1 ≠ first (xerceForm "Bd") := fun hnode =>
        hne (hnode.symm.trans hchannel)
      rw [if_neg hnode, if_pos hchannel, if_neg (mt (hname _) hnode)] at h
      split_ifs at h with hch
      exact hch
    · rw [if_neg hnode, if_neg hchannel, if_pos hmethod, if_neg (mt (hname _) hnode),
        if_neg (mt (hname _) hchannel)] at h
      split_ifs at h with hwhole
      exact hwhole
  · intro h
    by_cases hnode : first c.nodeName.1 = first (xerceForm "Bd")
    · rw [if_pos hnode, if_pos (h.node hnode)]
    · rw [if_neg hnode, if_neg (mt (hname _) hnode)]
      by_cases hchannel : first c.nodeName.1 = first (xerceForm "Ch")
      · rw [if_pos hchannel, if_pos (h.channel hchannel)]
      · rw [if_neg hchannel, if_neg (mt (hname _) hchannel)]
        by_cases hmethod : first (getAttribute c.attributes "type") = first (xerceForm "method")
        · rw [if_pos hmethod, if_pos (h.method hnode hchannel hmethod)]
        · rw [if_neg hmethod, if_neg (mt (htype _) hmethod)]

end ChildElement

variable (clib : CLib)

/-- The loop over the child elements. -/
def readAll : List ChildElement → Loading → Outcome Loading
  | [], l => .ok l
  | c :: cs, l => (c.read clib l).bind (readAll cs)

/-- The child elements that the loop comes to : it ends at a method whose call does not return. -/
def handled : List ChildElement → List ChildElement
  | [] => []
  | c :: cs => c :: if c.treatment = .method ∧ c.returns clib = false then [] else handled cs

/-- All calls of methods return. -/
def Dispatched (cs : List ChildElement) : Prop :=
  ∀ c ∈ cs, c.treatment = .method → c.returns clib = true

/-- The number of the last child element with a treatment. -/
def lastNumber (t : Treatment) (cs : List ChildElement) : Option ℤ :=
  (cs.filter (·.treatment = t)).getLast?.map (·.number)

variable {clib}

theorem readAll_append (cs cs' : List ChildElement) (l : Loading) :
    readAll clib (cs ++ cs') l = (readAll clib cs l).bind (readAll clib cs') := by
  induction cs generalizing l with
  | nil => rfl
  | cons c cs ih =>
    rw [List.cons_append, readAll, readAll]
    cases c.read clib l with
    | ok l' => exact ih l'
    | throws message l' => rfl
    | crash => rfl

/-- `LoadIO` goes over the child elements. -/
theorem readChildren_eq (d : Dom) (l : Loading) :
    readChildren clib d l = readAll clib (childElements d) l := by
  induction d generalizing l with
  | null => rfl
  | text _ _ ih => exact ih l
  | entityReference _ child next ihChild ihNext =>
    rw [readChildren, childElements, readAll_append, ihChild, funext ihNext]
  | element nodeName attributes child next _ ih =>
    rw [readChildren, childElements, readAll, ChildElement.read, ChildElement.treatment]
    split_ifs
    · exact ih _
    · exact ih _
    · cases l.untypedData with
      | none => rfl
      | some d =>
        dsimp only [ChildElement.dispatch]
        cases CmdTarget.dispatchMsg clib [] (localForm nodeName.1) (localForm child.textContent)
          cmdTargetMap with
        | call _ params => exact ih _
        | returns => exact ih _
        | throws message => rfl
        | crash => rfl
    · exact ih _

theorem handled_of_dispatched {cs : List ChildElement} (h : Dispatched clib cs) :
    handled clib cs = cs := by
  induction cs with
  | nil => rfl
  | cons c cs ih =>
    obtain ⟨hc, hcs⟩ := List.forall_mem_cons.1 h
    rw [handled, if_neg, ih hcs]
    rintro ⟨hmethod, hreturns⟩
    exact absurd ((hc hmethod).symm.trans hreturns) nofun

theorem lastNumber_cons (t : Treatment) (c : ChildElement) (cs : List ChildElement) (n : ℤ) :
    (lastNumber t (c :: cs)).getD n =
      (lastNumber t cs).getD (if c.treatment = t then c.number else n) := by
  unfold lastNumber
  rw [List.filter_cons]
  by_cases h : c.treatment = t
  · rw [if_pos (decide_eq_true h), if_pos h, List.getLast?_cons]
    cases (cs.filter (·.treatment = t)).getLast? <;> rfl
  · rw [if_neg (by simpa using h), if_neg h]

theorem call_eq (d : LoadedData) (params : List Param) :
    ∃ simulated, d.call params = { d with simulated := simulated } := by
  unfold LoadedData.call
  split
  · exact ⟨_, rfl⟩
  · exact ⟨d.simulated, rfl⟩

/-- A round returns if it does not call a method, or the call returns. -/
theorem ChildElement.read_ok (c : ChildElement) (h : c.treatment = .method → c.returns clib = true)
    (n m : ℤ) (d : LoadedData) : ∃ simulated, c.read clib ⟨n, m, some d⟩ =
      .ok ⟨if c.treatment = .nodeNumber then c.number else n,
        if c.treatment = .channelNumber then c.number else m,
        some { d with simulated := simulated }⟩ := by
  rw [ChildElement.read]
  cases ht : c.treatment with
  | nodeNumber => exact ⟨d.simulated, rfl⟩
  | channelNumber => exact ⟨d.simulated, rfl⟩
  | nothing => exact ⟨d.simulated, rfl⟩
  | method =>
    have hreturns := h ht
    rw [ChildElement.returns] at hreturns
    cases hcall : c.dispatch clib with
    | call _ params =>
      obtain ⟨simulated, hset⟩ := call_eq d params
      exact ⟨simulated, congrArg (fun d => Outcome.ok (Loading.mk n m (some d))) hset⟩
    | returns => exact ⟨d.simulated, rfl⟩
    | throws message => simp [hcall] at hreturns
    | crash => simp [hcall] at hreturns

/-- A round that returns has called a method that returns, if it has called one. -/
theorem ChildElement.returns_of_read (c : ChildElement) {l l' : Loading}
    (h : c.read clib l = .ok l') (hmethod : c.treatment = .method) : c.returns clib = true := by
  rw [ChildElement.read, hmethod] at h
  cases hd : l.untypedData with
  | none => simp [hd] at h
  | some d =>
    rw [ChildElement.returns]
    cases hcall : c.dispatch clib with
    | call _ params => rfl
    | returns => rfl
    | throws message => simp [hd, hcall] at h
    | crash => simp [hd, hcall] at h

/-- The loop returns if all calls of methods return, with the last numbers. -/
theorem readAll_ok {cs : List ChildElement} (h : Dispatched clib cs) (n m : ℤ) (d : LoadedData) :
    ∃ simulated, readAll clib cs ⟨n, m, some d⟩ =
      .ok ⟨(lastNumber .nodeNumber cs).getD n, (lastNumber .channelNumber cs).getD m,
        some { d with simulated := simulated }⟩ := by
  induction cs generalizing n m d with
  | nil => exact ⟨d.simulated, rfl⟩
  | cons c cs ih =>
    obtain ⟨hc, hcs⟩ := List.forall_mem_cons.1 h
    obtain ⟨simulated, hread⟩ := c.read_ok hc n m d
    obtain ⟨simulated', hrest⟩ := ih hcs (if c.treatment = .nodeNumber then c.number else n)
      (if c.treatment = .channelNumber then c.number else m) { d with simulated := simulated }
    refine ⟨simulated', ?_⟩
    rw [readAll, hread, lastNumber_cons, lastNumber_cons]
    exact hrest

/-- The loop does not return if the call of a method does not. -/
theorem readAll_ne_ok {cs : List ChildElement} (h : ¬Dispatched clib cs) (l l' : Loading) :
    readAll clib cs l ≠ .ok l' := by
  induction cs generalizing l with
  | nil => exact absurd (fun _ hmem => absurd hmem List.not_mem_nil) h
  | cons c cs ih =>
    intro hok
    obtain ⟨l₁, hread, hrest⟩ := Outcome.bind_eq_ok.1 hok
    exact ih (fun hcs => h (List.forall_mem_cons.2 ⟨c.returns_of_read hread, hcs⟩)) l₁ hrest

/-! ## Numbers -/

/-- The number of an attribute, and 0 if it is empty. -/
def attributeNumber (attributes : Attributes) (name : String) : ℤ :=
  if getAttribute attributes name = [] then 0
  else Converter.atoi (localForm (getAttribute attributes name))

/-- The number of the last child element with a name. -/
def childNumber (name : String) (cs : List ChildElement) : Option ℤ :=
  (cs.filter (·.nodeName.1.1 = xerceForm name)).getLast?.map (·.number)

/-- The number that a channel should have : that of the last child element with the name if there is
one, and else that of the attribute. -/
def DomElement.number (ele : DomElement) (name : String) : ℤ :=
  (childNumber name (childElements ele.firstChild)).getD (attributeNumber ele.attributes name)

/-- The path of an element below these parents. -/
def DomElement.path (ele : DomElement) (parents : List (List UInt16)) : Str :=
  parentPath parents ('/' :: localForm ele.nodeName.1)

/-- The class of the object of an element. -/
def DomElement.dataClass (ele : DomElement) : Option DataClass :=
  XmlParser.dataClass (localForm (getAttribute ele.attributes "dataType"))
    (localForm (getAttribute ele.attributes "accessMode"))

/-- The child elements that the loop comes to are treated by their names, and the object that is
registered has its numbers. -/
structure ReadsNumbers (clib : CLib) (l : Loader) (parents : List (List UInt16))
    (ele : DomElement) : Prop where
  treated : ∀ c ∈ handled clib (childElements ele.firstChild), c.treatment = c.treatmentByName
  registered : ∀ l', loadElement clib l parents ele = .ok l' → ∃ d,
    l'.calls = l.calls ++ [(d, ele.path parents)] ∧
      d.nodeNumber = ele.number "Bd" ∧ d.channelNumber = ele.number "Ch"

/-- Where the child elements give a number that is not 0, a number that they do not give is not
given by an attribute either; and where they do not, a number that they give is not given by an
attribute. Attributes that give 0 do not count. -/
def NumbersAgree (ele : DomElement) : Prop :=
  if (childNumber "Bd" (childElements ele.firstChild)).getD 0 = 0 ∧
      (childNumber "Ch" (childElements ele.firstChild)).getD 0 = 0 then
    (childNumber "Bd" (childElements ele.firstChild) ≠ none →
      attributeNumber ele.attributes "Bd" = 0) ∧
    (childNumber "Ch" (childElements ele.firstChild) ≠ none →
      attributeNumber ele.attributes "Ch" = 0)
  else
    (childNumber "Bd" (childElements ele.firstChild) = none →
      attributeNumber ele.attributes "Bd" = 0) ∧
    (childNumber "Ch" (childElements ele.firstChild) = none →
      attributeNumber ele.attributes "Ch" = 0)

/-- An object can be registered under the path. -/
def Registrable (l : Loader) (path : Str) : Prop := path ≠ ['/'] ∧ path ∉ l.manager.datas

variable {l l' : Loader} {parents : List (List UInt16)} {ele : DomElement}

theorem lastNumber_eq {cs : List ChildElement} (h : ∀ c ∈ cs, c.treatment = c.treatmentByName) :
    lastNumber .nodeNumber cs = childNumber "Bd" cs ∧
      lastNumber .channelNumber cs = childNumber "Ch" cs := by
  have hne : xerceForm "Bd" ≠ xerceForm "Ch" := by decide
  constructor
  · rw [lastNumber, childNumber, List.filter_congr fun c hc => ?_]
    rw [h c hc, ChildElement.treatmentByName, decide_eq_decide]
    split_ifs <;> simp_all
  · rw [lastNumber, childNumber, List.filter_congr fun c hc => ?_]
    rw [h c hc, ChildElement.treatmentByName, decide_eq_decide]
    split_ifs <;> simp_all

theorem setAttributes_numbers (attributes : Attributes) (c : DataClass) :
    ((LoadedData.new c).setAttributes attributes).nodeNumber = attributeNumber attributes "Bd" ∧
    ((LoadedData.new c).setAttributes attributes).channelNumber =
      attributeNumber attributes "Ch" := by
  simp only [LoadedData.setAttributes, LoadedData.setAttribute, first_getAttribute_ne_zero,
    attributeNumber]
  split_ifs <;> simp_all [LoadedData.new]

theorem head?_parentPath (parents : List (List UInt16)) (path : Str) :
    path.head? = some '/' → (parentPath parents path).head? = some '/' := by
  induction parents generalizing path with
  | nil => exact id
  | cons nodeName parents ih =>
    intro h
    rw [parentPath]
    split_ifs
    · exact h
    · exact ih _ rfl

theorem registerObject_ok {d : LoadedData} {path : Str} (hhead : path.head? = some '/')
    (h : Registrable l path) :
    ∃ l', registerObject l d path = .ok l' := by
  obtain ⟨names, hsplit⟩ := Option.ne_none_iff_exists'.1
    (ObjectManager.registedName_ne_none hhead '/')
  have hnil : path ≠ [] := by
    rintro rfl
    cases hhead
  simp only [registerObject, ObjectManager.registerData, if_neg hnil, hhead, ne_eq,
    not_true_eq_false, if_false, if_neg h.1, if_pos h.2, hsplit]
  exact ⟨_, rfl⟩

theorem calls_registerObject {d : LoadedData} {path : Str}
    (h : registerObject l d path = .ok l') : l'.calls = l.calls ++ [(d, path)] := by
  unfold registerObject at h
  split at h
  · rw [← Outcome.ok.inj h]
  · cases h
  · cases h

theorem registrable_of_ok {d : LoadedData} {path : Str} (hhead : path.head? = some '/')
    (h : registerObject l d path = .ok l') : Registrable l path := by
  have hnil : path ≠ [] := by
    rintro rfl
    cases hhead
  unfold registerObject ObjectManager.registerData at h
  simp only [if_neg hnil, hhead, ne_eq, not_true_eq_false, if_false] at h
  refine ⟨?_, ?_⟩
  · rintro rfl
    simp at h
  · intro hmem
    split_ifs at h

theorem head?_path (ele : DomElement) (parents : List (List UInt16)) :
    (ele.path parents).head? = some '/' := head?_parentPath _ _ rfl

/-- A channel with a class. -/
theorem isChannel_of_dataClass {c : DataClass} (h : ele.dataClass = some c) :
    IsChannel ele.attributes := by
  constructor
  · intro hnil
    rw [DomElement.dataClass, hnil] at h
    cases h
  · intro hnil
    rw [DomElement.dataClass, hnil, XmlParser.dataClass] at h
    split_ifs at h <;> simp_all [localForm, Converter.encodeUnits]

/-- What `LoadIO` does with a channel that has a class. -/
theorem loadElement_eq {c : DataClass} (hclass : ele.dataClass = some c) :
    loadElement clib l parents ele =
      match readAll clib (childElements ele.firstChild)
        ⟨0, 0, some ((LoadedData.new c).setAttributes ele.attributes)⟩ with
      | .crash => .crash
      | .throws message _ => .throws message l
      | .ok ⟨_, _, none⟩ => .crash
      | .ok ⟨n, m, some d⟩ =>
        if (n = 0 ∧ m = 0) ∧ (d.nodeNumber = 0 ∧ d.channelNumber = 0) then
          .throws (numberMessage (ele.path parents)) l
        else registerObject l
          (if ¬(n = 0 ∧ m = 0) then { d with nodeNumber := n, channelNumber := m } else d)
          (ele.path parents) := by
  have hchannel := isChannel_iff.2 (isChannel_of_dataClass hclass)
  rw [DomElement.dataClass] at hclass
  simp only [loadElement, if_pos hchannel, hclass, Option.map_some, readChildren_eq]
  rfl

/-- Where all methods return, an object is registered with the numbers of the child elements if one
of them is not 0, and else with those of the attributes, unless there is no number at all. -/
theorem loadElement_of_dispatched {c : DataClass} (hclass : ele.dataClass = some c)
    (hdispatched : Dispatched clib (childElements ele.firstChild)) {n m : ℤ}
    (hn : (lastNumber .nodeNumber (childElements ele.firstChild)).getD 0 = n)
    (hm : (lastNumber .channelNumber (childElements ele.firstChild)).getD 0 = m) :
    ∃ d : LoadedData, d.nodeNumber = attributeNumber ele.attributes "Bd" ∧
      d.channelNumber = attributeNumber ele.attributes "Ch" ∧
      loadElement clib l parents ele =
        if (n = 0 ∧ m = 0) ∧ (d.nodeNumber = 0 ∧ d.channelNumber = 0) then
          .throws (numberMessage (ele.path parents)) l
        else registerObject l
          (if ¬(n = 0 ∧ m = 0) then { d with nodeNumber := n, channelNumber := m } else d)
          (ele.path parents) := by
  obtain ⟨simulated, hread⟩ := readAll_ok hdispatched 0 0
    ((LoadedData.new c).setAttributes ele.attributes)
  obtain ⟨hnode, hchannel⟩ := setAttributes_numbers ele.attributes c
  refine ⟨{ (LoadedData.new c).setAttributes ele.attributes with simulated := simulated }, hnode,
    hchannel, ?_⟩
  rw [loadElement_eq hclass, hread, hn, hm]

/-- An element whose methods do not all return is not registered. -/
theorem dispatched_of_ok {c : DataClass} (hclass : ele.dataClass = some c)
    (h : loadElement clib l parents ele = .ok l') :
    Dispatched clib (childElements ele.firstChild) := by
  by_contra hnot
  rw [loadElement_eq hclass] at h
  cases hread : readAll clib (childElements ele.firstChild)
      ⟨0, 0, some ((LoadedData.new c).setAttributes ele.attributes)⟩ with
  | ok s => exact readAll_ne_ok hnot _ _ hread
  | throws message s => simp [hread] at h
  | crash => simp [hread] at h

/-- The numbers that are registered are those that the channel should have. -/
theorem numbersAgree_iff {n m : ℤ}
    (hn : (childNumber "Bd" (childElements ele.firstChild)).getD 0 = n)
    (hm : (childNumber "Ch" (childElements ele.firstChild)).getD 0 = m) {d : LoadedData}
    (hnode : d.nodeNumber = attributeNumber ele.attributes "Bd")
    (hchannel : d.channelNumber = attributeNumber ele.attributes "Ch") :
    NumbersAgree ele ↔
      (if ¬(n = 0 ∧ m = 0) then { d with nodeNumber := n, channelNumber := m } else d).nodeNumber =
          ele.number "Bd" ∧
        (if ¬(n = 0 ∧ m = 0) then { d with nodeNumber := n, channelNumber := m }
          else d).channelNumber = ele.number "Ch" := by
  have hzero : ∀ {child : Option ℤ} {fromAttribute : ℤ}, child.getD 0 = 0 →
      (fromAttribute = child.getD fromAttribute ↔ (child ≠ none → fromAttribute = 0)) := by
    intro child fromAttribute h
    cases child with
    | none => simp
    | some number =>
      obtain rfl : number = 0 := h
      simp
  have hnonzero : ∀ {child : Option ℤ} {fromAttribute : ℤ},
      (child.getD 0 = child.getD fromAttribute ↔ (child = none → fromAttribute = 0)) := by
    intro child fromAttribute
    cases child with
    | none => simp [eq_comm]
    | some number => simp
  rw [NumbersAgree, DomElement.number, DomElement.number, hn, hm]
  by_cases h : n = 0 ∧ m = 0
  · rw [if_pos h, if_neg (not_not.2 h), hnode, hchannel, hzero (hn.trans h.1), hzero (hm.trans h.2)]
  · rw [if_neg h, if_pos h, ← hnonzero, ← hnonzero, hn, hm]

/-- Where the methods return and the child elements are treated by their names, an element without a
number is refused, and another one gives the object that `NumbersAgree` is about. -/
theorem loadElement_of_treated {c : DataClass} (hclass : ele.dataClass = some c)
    (hdispatched : Dispatched clib (childElements ele.firstChild))
    (htreated : ∀ c ∈ handled clib (childElements ele.firstChild),
      c.treatment = c.treatmentByName) :
    (NumbersAgree ele ∧
      loadElement clib l parents ele = .throws (numberMessage (ele.path parents)) l) ∨
    ∃ d : LoadedData,
      (NumbersAgree ele ↔ d.nodeNumber = ele.number "Bd" ∧ d.channelNumber = ele.number "Ch") ∧
      loadElement clib l parents ele = registerObject l d (ele.path parents) := by
  obtain ⟨hnode, hchannel⟩ := lastNumber_eq (handled_of_dispatched hdispatched ▸ htreated)
  obtain ⟨d, hd, hd', heq⟩ :=
    @loadElement_of_dispatched clib l parents _ _ hclass hdispatched _ _ rfl rfl
  rw [hnode, hchannel] at heq
  by_cases hnone : ((childNumber "Bd" (childElements ele.firstChild)).getD 0 = 0 ∧
      (childNumber "Ch" (childElements ele.firstChild)).getD 0 = 0) ∧
      (d.nodeNumber = 0 ∧ d.channelNumber = 0)
  · rw [if_pos hnone] at heq
    refine Or.inl ⟨?_, heq⟩
    rw [NumbersAgree, if_pos hnone.1, ← hd, ← hd']
    exact ⟨fun _ => hnone.2.1, fun _ => hnone.2.2⟩
  · rw [if_neg hnone] at heq
    exact Or.inr ⟨_, numbersAgree_iff rfl rfl hd hd', heq⟩

/-- A channel with a class has its child elements treated by their names, and is registered with its
numbers, exactly if the names are plain, and the numbers agree if it is registered. -/
theorem readsNumbers_iff {clib : CLib} {l : Loader} {parents : List (List UInt16)}
    {ele : DomElement} (hclass : ele.dataClass ≠ none) : ReadsNumbers clib l parents ele ↔
      (∀ c ∈ handled clib (childElements ele.firstChild), c.Plain) ∧
      (Dispatched clib (childElements ele.firstChild) → Registrable l (ele.path parents) →
        NumbersAgree ele) := by
  obtain ⟨c, hclass⟩ := Option.ne_none_iff_exists'.1 hclass
  constructor
  · intro h
    refine ⟨fun c hc => c.treatment_eq_iff.1 (h.treated c hc), fun hdispatched hpath => ?_⟩
    rcases @loadElement_of_treated clib l parents _ _ hclass hdispatched h.treated with
      ⟨hagree, -⟩ | ⟨d, hagree, heq⟩
    · exact hagree
    · obtain ⟨l', hok⟩ := @registerObject_ok l d _ (head?_path ele parents) hpath
      obtain ⟨d', hcalls, hnumbers⟩ := h.registered l' (heq.trans hok)
      have hsame := List.append_cancel_left ((calls_registerObject hok).symm.trans hcalls)
      rw [hagree, (Prod.mk.inj (List.cons.inj hsame).1).1]
      exact hnumbers
  · rintro ⟨hplain, hagree⟩
    have htreated : ∀ c ∈ handled clib (childElements ele.firstChild),
        c.treatment = c.treatmentByName := fun c hc => c.treatment_eq_iff.2 (hplain c hc)
    refine ⟨htreated, fun l' hok => ?_⟩
    have hdispatched := dispatched_of_ok hclass hok
    rcases @loadElement_of_treated clib l parents _ _ hclass hdispatched htreated with
      ⟨-, heq⟩ | ⟨d, hnumbers, heq⟩
    · cases heq.symm.trans hok
    · have hregister := heq.symm.trans hok
      have hpath := registrable_of_ok (head?_path ele parents) hregister
      exact ⟨d, calls_registerObject hregister, hnumbers.1 (hagree hdispatched hpath)⟩

theorem readsNumbers_attribute : ReadsNumbers Update.clib_zero ⟨.new, 0, []⟩ [document]
    (readOnlyInt .null) :=
  (readsNumbers_iff (by decide)).2 ⟨nofun, fun _ _ => ⟨nofun, nofun⟩⟩

/-- The node number 3 of a child element takes away the channel number 5 of the attribute. -/
theorem not_readsNumbers_node : ¬ReadsNumbers Update.clib_zero ⟨.new, 0, []⟩ [document]
    (readOnlyInt (.element ⟨⟨xerceForm "Bd", by decide⟩, by decide⟩ []
      (.text ⟨xerceForm "3", by decide⟩ .null) .null)) := by
  intro h
  obtain ⟨d, hcalls, -, hchannel⟩ := h.registered _ rfl
  obtain rfl := (Prod.mk.inj (List.cons.inj hcalls).1).1
  exact absurd hchannel (by decide)

end XmlParser

end Ick
