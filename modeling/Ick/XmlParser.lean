import Ick.CmdTarget
import Ick.ObjectManager
import Ick.Unicode

/-!
# Loading the channels

`XmlParser::LoadIO` goes through the elements of `io_config.xml`. An element with the attributes
`dataType` and `accessMode` is a channel : its object gets the numbers and texts of the
attributes and of the child elements, and is registered under the path of the element, which a
walk up to the document node puts together. A child without attributes and child elements is not
visited.

The parser keeps a reference to an entity as a node, with the replacement of the entity below it.
The loops over child elements look through these nodes; the walk comes to them, so that the name of
the entity gets into the path.

The objects registered are those of the channels, in document order, under the names of the nodes
above them (`registered_loadIo`). These are the names of the elements exactly if no channel is in
an entity (`calls_loadIo_iff`).
-/

namespace Ick

namespace XmlParser

/-! ## The document -/

/-- A string of the DOM, the list of its UTF-16 units. -/
abbrev XmlString := { s : List UInt16 // 0 ∉ s }

/-- `localForm`, of a text with fewer than 2^31 units. -/
def localForm (s : List UInt16) : Str :=
  (Converter.encodeUnits s).map fun byte => Char.ofNat byte.toNat

/-- `xerceForm`, of an ASCII text. -/
def xerceForm (s : String) : List UInt16 := s.toList.map fun c => UInt16.ofNat c.toNat

/-- The name of an element or an entity, which does not begin with `#` like those of other
nodes. -/
abbrev ElementName := { s : XmlString // s.1.head? ≠ some 35 }

/-- The attributes of an element. -/
abbrev Attributes := List (XmlString × XmlString)

/-- A node with its next siblings, or `NULL`. -/
inductive Dom
  | null
  | text (data : XmlString) (nextSibling : Dom)
  | entityReference (nodeName : ElementName) (firstChild nextSibling : Dom)
  | element (nodeName : ElementName) (attributes : Attributes) (firstChild nextSibling : Dom)

/-- `DOMElement`, without its siblings and parents. -/
structure DomElement where
  nodeName : ElementName
  attributes : Attributes
  firstChild : Dom

/-- `*s` -/
def first (s : List UInt16) : UInt16 := s.headD 0

/-- `getAttribute` -/
def getAttribute (attributes : Attributes) (name : String) : List UInt16 :=
  ((attributes.find? (·.1.1 = xerceForm name)).map (·.2.1)).getD []

namespace Dom

/-- `getTextContent`, of the node that these are the children of. -/
def textContent : Dom → List UInt16
  | null => []
  | text data next => data.1 ++ next.textContent
  | entityReference _ child next => child.textContent ++ next.textContent
  | element _ _ child next => child.textContent ++ next.textContent

/-- `getChildElementCount`, of the node that these are the children of. The elements in an entity
count. -/
def elementCount : Dom → ℕ
  | null => 0
  | text _ next => next.elementCount
  | entityReference _ child next => child.elementCount + next.elementCount
  | element _ _ _ next => next.elementCount + 1

end Dom

/-! ## Channels -/

/-- The classes of channel data that are created. -/
inductive DataClass
  | ReadWriteInt
  | ReadWriteDouble
  | ReadWriteString
  | ReadOnlyInt
  | ReadOnlyDouble
  | ReadOnlyString
  deriving DecidableEq

/-- The class for a pair of attributes. -/
def dataClass (dataType accessMode : Str) : Option DataClass :=
  if dataType = "I".toList ∧ accessMode = "RW".toList then some .ReadWriteInt
  else if dataType = "D".toList ∧ accessMode = "RW".toList then some .ReadWriteDouble
  else if dataType = "S".toList ∧ accessMode = "RW".toList then some .ReadWriteString
  else if dataType = "I".toList ∧ accessMode = "R".toList then some .ReadOnlyInt
  else if dataType = "D".toList ∧ accessMode = "R".toList then some .ReadOnlyDouble
  else if dataType = "S".toList ∧ accessMode = "R".toList then some .ReadOnlyString
  else none

/-- The members of an object that `LoadIO` sets. -/
structure LoadedData where
  dataClass : DataClass
  nodeNumber : ℤ
  channelNumber : ℤ
  firstParam : Str
  secondParam : Str
  description : Str
  simulated : Bool

namespace LoadedData

/-- A new object. -/
def new (dataClass : DataClass) : LoadedData where
  dataClass := dataClass
  nodeNumber := 0
  channelNumber := 0
  firstParam := []
  secondParam := []
  description := []
  simulated := false

/-- What is set if an attribute is not empty. -/
def setAttribute (attributes : Attributes) (name : String) (set : Str → LoadedData → LoadedData)
    (d : LoadedData) : LoadedData :=
  if first (getAttribute attributes name) ≠ 0 then set (localForm (getAttribute attributes name)) d
  else d

/-- What is set of the attributes. -/
def setAttributes (attributes : Attributes) (d : LoadedData) : LoadedData :=
  (((((d.setAttribute attributes "Bd" fun value d =>
    { d with nodeNumber := Converter.atoi value }).setAttribute attributes "Ch" fun value d =>
    { d with channelNumber := Converter.atoi value }).setAttribute attributes "lparam"
      fun value d =>
    { d with firstParam := value }).setAttribute attributes "wparam" fun value d =>
    { d with secondParam := value }).setAttribute attributes "description" fun value d =>
    { d with description := value })

/-- The call of a method, of which there is only one, `setSimulated`. -/
def call (d : LoadedData) : List Param → LoadedData
  | [.bool simulated] => { d with simulated := simulated }
  | _ => d

end LoadedData

/-- The tables of the classes of channel data : they all have that of `CmdTarget`. -/
def cmdTargetMap : MsgMap := [[⟨"setSimulated".toList, .METHOD_B, 0⟩, ⟨[], .METHOD_END, 0⟩]]

/-- The local variables of `LoadIO` for an element. -/
structure Loading where
  nodeNumber : ℤ
  channelNumber : ℤ
  untypedData : Option LoadedData

/-- The registry, the address of the next new object, and the calls of `registerObject`. -/
structure Loader where
  manager : ObjectManager
  next : ℕ
  calls : List (LoadedData × Str)

variable (clib : CLib)

/-- The loop over the child elements of a channel. The names and the type are compared by their
first characters. -/
def readChildren : Dom → Loading → Outcome Loading
  | .null, l => .ok l
  | .text _ next, l => readChildren next l
  | .entityReference _ child next, l => (readChildren child l).bind (readChildren next)
  | .element nodeName attributes child next, l =>
    if first nodeName.1 = first (xerceForm "Bd") then
      readChildren next { l with nodeNumber := Converter.atoi (localForm child.textContent) }
    else if first nodeName.1 = first (xerceForm "Ch") then
      readChildren next { l with channelNumber := Converter.atoi (localForm child.textContent) }
    else if first (getAttribute attributes "type") = first (xerceForm "method") then
      match l.untypedData with
      | none => .crash
      | some d =>
        match CmdTarget.dispatchMsg clib [] (localForm nodeName.1) (localForm child.textContent)
          cmdTargetMap with
        | .call _ params => readChildren next { l with untypedData := some (d.call params) }
        | .returns => readChildren next l
        | .throws message => .throws message l
        | .crash => .crash
    else readChildren next l

/-- The walk to the document node, from the names of the parents. -/
def parentPath : List (List UInt16) → Str → Str
  | [], path => path
  | nodeName :: parents, path =>
    if localForm nodeName = "#document".toList then path
    else parentPath parents ('/' :: localForm nodeName ++ path)

/-- The text of the exception for a channel without numbers. -/
def numberMessage (path : Str) : Str :=
  "object \"".toList ++ path ++
    "\" register failed because node number must not be set to 0!".toList

/-- The call of `registerObject`. -/
def registerObject (l : Loader) (untypedData : LoadedData) (path : Str) : Outcome Loader :=
  let calls := l.calls ++ [(untypedData, path)]
  match l.manager.registerData (some l.next) path with
  | .ok manager => .ok ⟨manager, l.next + 1, calls⟩
  | .throws message manager => .throws message ⟨manager, l.next + 1, calls⟩
  | .crash => .crash

/-- What `LoadIO` does with the element itself. -/
def loadElement (l : Loader) (parents : List (List UInt16)) (ele : DomElement) : Outcome Loader :=
  if first (getAttribute ele.attributes "dataType") ≠ 0 ∧
      first (getAttribute ele.attributes "accessMode") ≠ 0 then
    let dataType := localForm (getAttribute ele.attributes "dataType")
    let accessMode := localForm (getAttribute ele.attributes "accessMode")
    let path := parentPath parents ('/' :: localForm ele.nodeName.1)
    let untypedData := (dataClass dataType accessMode).map fun c =>
      (LoadedData.new c).setAttributes ele.attributes
    match readChildren clib ele.firstChild ⟨0, 0, untypedData⟩ with
    | .crash => .crash
    | .throws message _ => .throws message l
    -- either its numbers are read, or numbers are set
    | .ok ⟨_, _, none⟩ => .crash
    | .ok ⟨nodeNumber, channelNumber, some d⟩ =>
      if (nodeNumber = 0 ∧ channelNumber = 0) ∧ (d.nodeNumber = 0 ∧ d.channelNumber = 0) then
        .throws (numberMessage path) l
      else
        registerObject l
          (if ¬(nodeNumber = 0 ∧ channelNumber = 0) then
            { d with nodeNumber := nodeNumber, channelNumber := channelNumber }
          else d) path
  else .ok l

/-- The loop of `LoadIO` over the child elements, and `LoadIO` for those that it is called for. -/
def loadChildren (parents : List (List UInt16)) : Dom → Loader → Outcome Loader
  | .null, l => .ok l
  | .text _ next, l => loadChildren parents next l
  | .entityReference nodeName child next, l =>
    (loadChildren (nodeName.1 :: parents) child l).bind (loadChildren parents next)
  | .element nodeName attributes child next, l =>
    (if child.elementCount > 0 ∨ attributes.length > 0 then
      (loadElement clib l parents ⟨nodeName, attributes, child⟩).bind
        (loadChildren (nodeName.1 :: parents) child)
    else .ok l).bind (loadChildren parents next)

/-- `LoadIO`, for an element with these parents. -/
def loadIo (l : Loader) (parents : List (List UInt16)) (ele : DomElement) : Outcome Loader :=
  (loadElement clib l parents ele).bind
    (loadChildren clib (ele.nodeName.1 :: parents) ele.firstChild)

/-! ## The channels of a document -/

/-- A node above an element, or the element. -/
inductive PathNode
  | element (nodeName : ElementName)
  | entityReference (nodeName : ElementName)

namespace PathNode

/-- `getNodeName` -/
def nodeName : PathNode → ElementName
  | element nodeName => nodeName
  | entityReference nodeName => nodeName

/-- The node is an element. -/
def isElement : PathNode → Bool
  | element _ => true
  | entityReference _ => false

end PathNode

/-- The elements, in document order, each with the nodes from the document element to it, under one
with these nodes. -/
def elements : List PathNode → Dom → List (List PathNode × Attributes)
  | _, .null => []
  | nodes, .text _ next => elements nodes next
  | nodes, .entityReference nodeName child next =>
    elements (nodes ++ [.entityReference nodeName]) child ++ elements nodes next
  | nodes, .element nodeName attributes child next =>
    (nodes ++ [.element nodeName], attributes) ::
      (elements (nodes ++ [.element nodeName]) child ++ elements nodes next)

/-- The elements of a document. -/
def DomElement.elements (root : DomElement) : List (List PathNode × Attributes) :=
  XmlParser.elements [] (.element root.nodeName root.attributes root.firstChild .null)

/-- Both attributes of a channel are there, and not empty. -/
def IsChannel (attributes : Attributes) : Prop :=
  getAttribute attributes "dataType" ≠ [] ∧ getAttribute attributes "accessMode" ≠ []

instance (attributes : Attributes) : Decidable (IsChannel attributes) :=
  inferInstanceAs (Decidable (_ ∧ _))

/-- The name of an element : a slash before each name. -/
def nameOf (names : List ElementName) : Str :=
  '/' :: ['/'].intercalate (names.map fun name => localForm name.1)

/-- The class of the object of a channel. -/
def classOf (attributes : Attributes) : Option DataClass :=
  dataClass (localForm (getAttribute attributes "dataType"))
    (localForm (getAttribute attributes "accessMode"))

/-- The class and the name of a channel, from the names of the elements. -/
def declaration (e : List PathNode × Attributes) : Option DataClass × Str :=
  (classOf e.2, nameOf ((e.1.filter (·.isElement)).map (·.nodeName)))

/-- The class and the name of a channel, from the names of all nodes. -/
def registration (e : List PathNode × Attributes) : Option DataClass × Str :=
  (classOf e.2, nameOf (e.1.map (·.nodeName)))

/-- The channels among the elements. -/
def channelElements (es : List (List PathNode × Attributes)) : List (List PathNode × Attributes) :=
  es.filter fun e => IsChannel e.2

/-- The registrations of all channels, in document order. -/
def registrations (nodes : List PathNode) (d : Dom) : List (Option DataClass × Str) :=
  (channelElements (elements nodes d)).map registration

/-- The classes and names of the calls of `registerObject`. -/
def Loader.registered (l : Loader) : List (Option DataClass × Str) :=
  l.calls.map fun c => (some c.1.dataClass, c.2)

/-- The name of the document node. -/
def document : List UInt16 := xerceForm "#document"

/-! ## Attributes and names -/

theorem zero_notMem_getAttribute (attributes : Attributes) (name : String) :
    0 ∉ getAttribute attributes name := by
  unfold getAttribute
  cases attributes.find? (·.1.1 = xerceForm name) with
  | none => exact List.not_mem_nil
  | some pair => exact pair.2.2

/-- The first character of a value tells whether it is empty. -/
theorem first_getAttribute_ne_zero {attributes : Attributes} {name : String} :
    first (getAttribute attributes name) ≠ 0 ↔ getAttribute attributes name ≠ [] := by
  have hzero := zero_notMem_getAttribute attributes name
  cases hvalue : getAttribute attributes name with
  | nil => simp [first]
  | cons u value =>
    rw [hvalue, List.mem_cons, not_or] at hzero
    simpa [first] using Ne.symm hzero.1

theorem isChannel_iff {attributes : Attributes} :
    (first (getAttribute attributes "dataType") ≠ 0 ∧
      first (getAttribute attributes "accessMode") ≠ 0) ↔ IsChannel attributes :=
  and_congr first_getAttribute_ne_zero first_getAttribute_ne_zero

theorem not_isChannel_nil : ¬IsChannel [] := fun h => h.1 rfl

theorem toNat_ofNat {n : ℕ} (h : n < 256) : (Char.ofNat n).toNat = n := by
  rw [Char.ofNat, dif_pos (Or.inl (by omega))]
  rfl

/-- Only `#` is written as a text that begins with `#`. -/
theorem head?_encodeUnit {u : UInt16} (h : ((Converter.encodeUnit u).map fun byte =>
    Char.ofNat byte.toNat).head? = some '#') : u = 35 := by
  rw [Converter.encodeUnit_eq, Converter.encode] at h
  have hbyte : ∀ {n : ℕ}, n < 256 → Char.ofNat (UInt8.ofNat n).toNat = '#' → n = 35 := by
    intro n hn heq
    rw [UInt8.toNat_ofNat_of_lt' hn] at heq
    exact (toNat_ofNat hn).symm.trans (congrArg Char.toNat heq)
  split_ifs at h <;> simp only [List.map_cons, List.head?_cons, Option.some.injEq] at h
  · have := hbyte (by omega) h
    exact UInt16.toNat_inj.1 this
  all_goals
    have := hbyte (by omega) h
    omega

theorem localForm_ne_document (name : ElementName) : localForm name.1 ≠ "#document".toList := by
  obtain ⟨⟨units, hzero⟩, hhash⟩ := name
  intro h
  cases units with
  | nil => cases h
  | cons u units =>
    rw [List.mem_cons, not_or] at hzero
    have hhead := congrArg List.head? h
    rw [localForm, Converter.encodeUnits, if_neg (Ne.symm hzero.1), List.map_append,
      List.head?_append] at hhead
    refine hhash (congrArg some (head?_encodeUnit ?_))
    cases hbytes : ((Converter.encodeUnit u).map fun byte => Char.ofNat byte.toNat).head? with
    | none =>
      have hne : Converter.encodeUnit u ≠ [] := by
        rw [Converter.encodeUnit_eq, Converter.encode]
        split_ifs <;> exact List.cons_ne_nil _ _
      simp [hne] at hbytes
    | some c =>
      rw [hbytes] at hhead
      exact hhead

/-- The walk ends at the document node. -/
theorem parentPath_eq (names : List ElementName) (path : Str) :
    parentPath (names.reverse.map (·.1.1) ++ [document]) path =
      (names.flatMap fun name => '/' :: localForm name.1) ++ path := by
  induction names using List.reverseRecOn generalizing path with
  | nil => rfl
  | append_singleton names name ih =>
    rw [List.reverse_concat, List.map_cons, List.cons_append, parentPath,
      if_neg (localForm_ne_document name), ih]
    simp

theorem flatMap_slash {texts : List Str} (h : texts ≠ []) :
    texts.flatMap ('/' :: ·) = '/' :: ['/'].intercalate texts := by
  induction texts with
  | nil => exact absurd rfl h
  | cons text texts ih =>
    cases texts with
    | nil => simp
    | cons text' texts =>
      rw [List.flatMap_cons, ih (List.cons_ne_nil _ _)]
      simp [List.intercalate]

/-- The path of an element. -/
theorem path_eq (names : List ElementName) (nodeName : ElementName) :
    parentPath (names.reverse.map (·.1.1) ++ [document]) ('/' :: localForm nodeName.1) =
      nameOf (names ++ [nodeName]) := by
  rw [parentPath_eq, nameOf, ← flatMap_slash (by simp), List.flatMap_map, List.flatMap_append,
    List.flatMap_singleton]

theorem nameOf_eq {names : List ElementName} (h : names ≠ []) :
    nameOf names = names.flatMap fun name => '/' :: localForm name.1 := by
  rw [nameOf, ← flatMap_slash (mt List.map_eq_nil_iff.1 h), List.flatMap_map]

theorem length_flatMap_filter (nodes : List PathNode) :
    (nodes.flatMap fun node => '/' :: localForm node.nodeName.1).length =
      ((nodes.filter (·.isElement)).flatMap fun node => '/' :: localForm node.nodeName.1).length +
        ((nodes.filter (!·.isElement)).flatMap fun node =>
          '/' :: localForm node.nodeName.1).length := by
  induction nodes with
  | nil => rfl
  | cons node nodes ih =>
    cases hnode : node.isElement <;> simp [hnode] at ih ⊢ <;> omega

/-- A name says whether an entity is among the nodes : each name makes it longer. -/
theorem nameOf_filter_eq_iff {nodes : List PathNode} {nodeName : ElementName}
    (hlast : PathNode.element nodeName ∈ nodes) :
    nameOf (nodes.map (·.nodeName)) = nameOf ((nodes.filter (·.isElement)).map (·.nodeName)) ↔
      ∀ node ∈ nodes, node.isElement := by
  have hfiltered : PathNode.element nodeName ∈ nodes.filter (·.isElement) :=
    List.mem_filter.2 ⟨hlast, rfl⟩
  constructor
  · intro h
    rw [nameOf_eq (by simpa using List.ne_nil_of_mem hlast),
      nameOf_eq (by simpa using List.ne_nil_of_mem hfiltered), List.flatMap_map,
      List.flatMap_map] at h
    have hnone : ((nodes.filter (!·.isElement)).flatMap fun node =>
        '/' :: localForm node.nodeName.1) = [] := by
      rw [← List.length_eq_zero_iff]
      have hlength := congrArg List.length h
      have hsplit := length_flatMap_filter nodes
      omega
    intro node hnode
    by_contra hentity
    have hmem : node ∈ nodes.filter (!·.isElement) :=
      List.mem_filter.2 ⟨hnode, by simpa using hentity⟩
    exact List.cons_ne_nil _ _ (List.flatMap_eq_nil_iff.1 hnone node hmem)
  · intro h
    rw [List.filter_eq_self.2 h]

/-! ## What is registered -/

variable {clib : CLib} {l l' : Loader} {nodes : List PathNode}

/-- The names of the parents, from the nearest one to the document node. -/
def parentsOf (nodes : List PathNode) : List (List UInt16) :=
  (nodes.map (·.nodeName)).reverse.map (·.1.1) ++ [document]

theorem parentsOf_element (nodes : List PathNode) (nodeName : ElementName) :
    parentsOf (nodes ++ [.element nodeName]) = nodeName.1.1 :: parentsOf nodes := by
  simp [parentsOf, PathNode.nodeName]

theorem parentsOf_entityReference (nodes : List PathNode) (nodeName : ElementName) :
    parentsOf (nodes ++ [.entityReference nodeName]) = nodeName.1.1 :: parentsOf nodes := by
  simp [parentsOf, PathNode.nodeName]

/-- The child elements do not change the class. -/
theorem dataClass_readChildren {d : Dom} {s s' : Loading} (h : readChildren clib d s = .ok s') :
    s'.untypedData.map (·.dataClass) = s.untypedData.map (·.dataClass) := by
  induction d generalizing s s' with
  | null =>
    obtain rfl := Outcome.ok.inj h
    rfl
  | text _ _ ih => exact ih h
  | entityReference _ _ _ ihChild ihNext =>
    obtain ⟨s₁, hchild, hnext⟩ := Outcome.bind_eq_ok.1 h
    rw [ihNext hnext, ihChild hchild]
  | element nodeName attributes child next _ ih =>
    rw [readChildren] at h
    split_ifs at h
    · rw [ih h]
    · rw [ih h]
    · cases hd : s.untypedData with
      | none => simp [hd] at h
      | some d =>
        have hcall : ∀ params, (d.call params).dataClass = d.dataClass := by
          intro params
          unfold LoadedData.call
          split <;> rfl
        rw [hd] at h
        dsimp only at h
        split at h
        · rw [ih h, Option.map_some, Option.map_some, hcall]
        · rw [ih h, hd]
        · cases h
        · cases h
    · exact ih h

theorem dataClass_setAttributes (attributes : Attributes) (d : LoadedData) :
    (d.setAttributes attributes).dataClass = d.dataClass := by
  have hset : ∀ name (set : Str → LoadedData → LoadedData),
      (∀ value d, (set value d).dataClass = d.dataClass) → ∀ d : LoadedData,
        (d.setAttribute attributes name set).dataClass = d.dataClass := by
    intro name set hset d
    unfold LoadedData.setAttribute
    split_ifs
    · exact hset _ d
    · rfl
  rw [LoadedData.setAttributes, hset, hset, hset, hset, hset]
  all_goals
    intros
    rfl

theorem registered_registerObject {d : LoadedData} {path : Str}
    (h : registerObject l d path = .ok l') :
    l'.registered = l.registered ++ [(some d.dataClass, path)] := by
  unfold registerObject at h
  split at h
  · obtain rfl := Outcome.ok.inj h
    simp [Loader.registered]
  · cases h
  · cases h

/-- An element registers itself if it is a channel. -/
theorem registered_loadElement {ele : DomElement}
    (h : loadElement clib l (parentsOf nodes) ele = .ok l') :
    l'.registered = l.registered ++
      if IsChannel ele.attributes then
        [registration (nodes ++ [.element ele.nodeName], ele.attributes)]
      else [] := by
  have hname : nodes.map (·.nodeName) ++ [ele.nodeName] =
      (nodes ++ [PathNode.element ele.nodeName]).map (·.nodeName) := by simp [PathNode.nodeName]
  by_cases hchannel : IsChannel ele.attributes
  · rw [loadElement, if_pos (isChannel_iff.2 hchannel), parentsOf, path_eq, hname] at h
    rw [if_pos hchannel]
    dsimp only at h
    split at h
    · cases h
    · cases h
    · cases h
    · rename_i nodeNumber channelNumber d hread
      have hclass : dataClass (localForm (getAttribute ele.attributes "dataType"))
          (localForm (getAttribute ele.attributes "accessMode")) = some d.dataClass := by
        have hkeeps := dataClass_readChildren hread
        simpa [Function.comp_def, dataClass_setAttributes, LoadedData.new] using hkeeps.symm
      split_ifs at h
      · rw [registered_registerObject h, registration, classOf, hclass]
      · rw [registered_registerObject h, registration, classOf, hclass]
  · rw [loadElement, if_neg (mt isChannel_iff.1 hchannel)] at h
    rw [if_neg hchannel, List.append_nil, Outcome.ok.inj h]

theorem registrations_entityReference (nodes : List PathNode) (nodeName : ElementName)
    (child next : Dom) : registrations nodes (.entityReference nodeName child next) =
      registrations (nodes ++ [.entityReference nodeName]) child ++ registrations nodes next := by
  simp [registrations, channelElements, elements]

theorem registrations_element (nodes : List PathNode) (nodeName : ElementName)
    (attributes : Attributes) (child next : Dom) :
    registrations nodes (.element nodeName attributes child next) =
      (if IsChannel attributes then
        [registration (nodes ++ [.element nodeName], attributes)] else []) ++
        registrations (nodes ++ [.element nodeName]) child ++ registrations nodes next := by
  by_cases hchannel : IsChannel attributes <;>
    simp [registrations, channelElements, elements, hchannel]

/-- Among no elements there is no channel. -/
theorem registrations_of_elementCount {d : Dom} (h : d.elementCount = 0)
    (nodes : List PathNode) : registrations nodes d = [] := by
  induction d generalizing nodes with
  | null => rfl
  | text _ _ ih => exact ih h nodes
  | entityReference _ _ _ ihChild ihNext =>
    obtain ⟨hchild, hnext⟩ := Nat.add_eq_zero_iff.1 h
    rw [registrations_entityReference, ihChild hchild, ihNext hnext, List.append_nil]
  | element => exact absurd h (Nat.succ_ne_zero _)

/-- What is registered for the siblings, and under them. An element that is not visited is no
channel, and has none under it. -/
theorem registered_loadChildren {d : Dom}
    (h : loadChildren clib (parentsOf nodes) d l = .ok l') :
    l'.registered = l.registered ++ registrations nodes d := by
  induction d generalizing nodes l l' with
  | null =>
    obtain rfl := Outcome.ok.inj h
    exact (List.append_nil _).symm
  | text _ _ ih => exact ih h
  | entityReference nodeName child next ihChild ihNext =>
    obtain ⟨l₁, hchild, hnext⟩ := Outcome.bind_eq_ok.1 h
    rw [← parentsOf_entityReference] at hchild
    rw [ihNext hnext, ihChild hchild, registrations_entityReference, List.append_assoc]
  | element nodeName attributes child next ihChild ihNext =>
    obtain ⟨l₁, hvisit, hnext⟩ := Outcome.bind_eq_ok.1 h
    rw [ihNext hnext, registrations_element, ← List.append_assoc]
    congr 1
    split_ifs at hvisit with hcount
    · obtain ⟨l₂, hself, hchild⟩ := Outcome.bind_eq_ok.1 hvisit
      rw [← parentsOf_element] at hchild
      rw [ihChild hchild, registered_loadElement hself, List.append_assoc]
    · rw [not_or, Nat.not_lt, Nat.not_lt, Nat.le_zero, Nat.le_zero] at hcount
      obtain rfl := List.length_eq_zero_iff.1 hcount.2
      rw [registrations_of_elementCount hcount.1, if_neg not_isChannel_nil, ← Outcome.ok.inj hvisit,
        List.append_nil, List.append_nil]

/-- Every channel of a document is registered once, in document order. -/
theorem registered_loadIo {root : DomElement} (h : loadIo clib l [document] root = .ok l') :
    l'.registered = l.registered ++ (channelElements root.elements).map registration := by
  obtain ⟨l₁, hself, hchild⟩ := Outcome.bind_eq_ok.1 h
  have hchild' : l'.registered = l₁.registered ++
      registrations [.element root.nodeName] root.firstChild := registered_loadChildren hchild
  have hself' := @registered_loadElement _ _ _ [] _ hself
  change _ = _ ++ registrations [] (.element _ _ _ .null)
  rw [hchild', hself', registrations_element, List.append_assoc]
  exact congrArg _ (List.append_nil _).symm

/-- An element is the last of its nodes. -/
theorem element_mem {d : Dom} {e : List PathNode × Attributes} (h : e ∈ elements nodes d) :
    ∃ nodeName, PathNode.element nodeName ∈ e.1 := by
  induction d generalizing nodes with
  | null => cases h
  | text _ _ ih => exact ih h
  | entityReference _ _ _ ihChild ihNext =>
    exact (List.mem_append.1 h).elim (fun h => ihChild h) fun h => ihNext h
  | element nodeName _ _ _ ihChild ihNext =>
    rcases List.mem_cons.1 h with rfl | h
    · exact ⟨nodeName, List.mem_append_right _ (List.mem_singleton_self _)⟩
    · exact (List.mem_append.1 h).elim (fun h => ihChild h) fun h => ihNext h

/-- The channels of a document are registered under the names of their elements, each once and in
document order, exactly if none of them is in an entity. -/
theorem calls_loadIo_iff (clib : CLib) (l l' : Loader) (root : DomElement)
    (h : loadIo clib l [document] root = .ok l') :
    l'.registered = l.registered ++ (channelElements root.elements).map declaration ↔
      ∀ e ∈ channelElements root.elements, ∀ node ∈ e.1, node.isElement := by
  rw [registered_loadIo h, List.append_cancel_left_eq, List.map_inj_left]
  refine forall₂_congr fun e he => ?_
  obtain ⟨nodeName, hlast⟩ := element_mem (List.mem_filter.1 he).1
  rw [← nameOf_filter_eq_iff hlast, registration, declaration, Prod.mk.injEq,
    and_iff_right rfl]

/-- A channel with a channel in it. -/
def nested : DomElement where
  nodeName := ⟨⟨xerceForm "a", by decide⟩, by decide⟩
  attributes := []
  firstChild :=
    .element ⟨⟨xerceForm "b", by decide⟩, by decide⟩
      [(⟨xerceForm "dataType", by decide⟩, ⟨xerceForm "I", by decide⟩),
        (⟨xerceForm "accessMode", by decide⟩, ⟨xerceForm "RW", by decide⟩),
        (⟨xerceForm "Bd", by decide⟩, ⟨xerceForm "1", by decide⟩)]
      (.element ⟨⟨xerceForm "c", by decide⟩, by decide⟩
        [(⟨xerceForm "dataType", by decide⟩, ⟨xerceForm "S", by decide⟩),
          (⟨xerceForm "accessMode", by decide⟩, ⟨xerceForm "R", by decide⟩),
          (⟨xerceForm "Ch", by decide⟩, ⟨xerceForm "2", by decide⟩)] .null .null) .null

theorem calls_loadIo_nested : ∃ l',
    loadIo Update.clib_zero ⟨.new, 0, []⟩ [document] nested = .ok l' ∧
      l'.registered =
        [(some .ReadWriteInt, "/a/b".toList), (some .ReadOnlyString, "/a/b/c".toList)] ∧
      (l'.registered = (channelElements nested.elements).map declaration ↔
        ∀ e ∈ channelElements nested.elements, ∀ node ∈ e.1, node.isElement) :=
  ⟨_, rfl, rfl, calls_loadIo_iff Update.clib_zero ⟨.new, 0, []⟩ _ nested rfl⟩

/-- A channel in an entity. -/
def inEntity : DomElement where
  nodeName := ⟨⟨xerceForm "a", by decide⟩, by decide⟩
  attributes := []
  firstChild :=
    .entityReference ⟨⟨xerceForm "e", by decide⟩, by decide⟩
      (.element ⟨⟨xerceForm "b", by decide⟩, by decide⟩
        [(⟨xerceForm "dataType", by decide⟩, ⟨xerceForm "I", by decide⟩),
          (⟨xerceForm "accessMode", by decide⟩, ⟨xerceForm "R", by decide⟩),
          (⟨xerceForm "Ch", by decide⟩, ⟨xerceForm "5", by decide⟩)] .null .null) .null

/-- The channel `/a/b` is registered as `/a/e/b`. -/
theorem not_declared_inEntity : ¬∀ (clib : CLib) (l l' : Loader) (root : DomElement),
    loadIo clib l [document] root = .ok l' →
      l'.registered = l.registered ++ (channelElements root.elements).map declaration :=
  fun h => absurd (h Update.clib_zero ⟨.new, 0, []⟩ _ inEntity rfl) (by decide)

/-! ## Single channels -/

/-- A channel of the type `I` that is read only, with these child elements. -/
def readOnlyInt (firstChild : Dom) : DomElement where
  nodeName := ⟨⟨xerceForm "a", by decide⟩, by decide⟩
  attributes := [(⟨xerceForm "dataType", by decide⟩, ⟨xerceForm "I", by decide⟩),
    (⟨xerceForm "accessMode", by decide⟩, ⟨xerceForm "R", by decide⟩),
    (⟨xerceForm "Ch", by decide⟩, ⟨xerceForm "5", by decide⟩)]
  firstChild := firstChild

/-- A channel of the type `X`. -/
def unknownChannel : DomElement where
  nodeName := ⟨⟨xerceForm "a", by decide⟩, by decide⟩
  attributes := [(⟨xerceForm "dataType", by decide⟩, ⟨xerceForm "X", by decide⟩),
    (⟨xerceForm "accessMode", by decide⟩, ⟨xerceForm "R", by decide⟩)]
  firstChild := .null

/-- A channel of the type `I` that is read only, of the node 3. -/
def channelOfNode (channelNumber : XmlString) : DomElement where
  nodeName := ⟨⟨xerceForm "a", by decide⟩, by decide⟩
  attributes := [(⟨xerceForm "dataType", by decide⟩, ⟨xerceForm "I", by decide⟩),
    (⟨xerceForm "accessMode", by decide⟩, ⟨xerceForm "R", by decide⟩),
    (⟨xerceForm "Bd", by decide⟩, ⟨xerceForm "3", by decide⟩),
    (⟨xerceForm "Ch", by decide⟩, channelNumber)]
  firstChild := .null

/-- Two instances of the class `C` with one path, each with a call of the method `m`. -/
def instancesOfOnePath : DomElement where
  nodeName := ⟨⟨xerceForm "a", by decide⟩, by decide⟩
  attributes := []
  firstChild :=
    .element ⟨⟨xerceForm "b", by decide⟩, by decide⟩
      [(⟨xerceForm "type", by decide⟩, ⟨xerceForm "instance", by decide⟩),
        (⟨xerceForm "class", by decide⟩, ⟨xerceForm "C", by decide⟩)]
      (.element ⟨⟨xerceForm "m", by decide⟩, by decide⟩
        [(⟨xerceForm "type", by decide⟩, ⟨xerceForm "method", by decide⟩)]
        (.text ⟨xerceForm "x", by decide⟩ .null) .null)
      (.element ⟨⟨xerceForm "b", by decide⟩, by decide⟩
        [(⟨xerceForm "type", by decide⟩, ⟨xerceForm "instance", by decide⟩),
          (⟨xerceForm "class", by decide⟩, ⟨xerceForm "C", by decide⟩)]
        (.element ⟨⟨xerceForm "m", by decide⟩, by decide⟩
          [(⟨xerceForm "type", by decide⟩, ⟨xerceForm "method", by decide⟩)]
          (.text ⟨xerceForm "y", by decide⟩ .null) .null) .null)

end XmlParser

end Ick
