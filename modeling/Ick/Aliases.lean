import Ick.History
import Ick.LifeCycle

/-!
# Aliases

`createAlias` should bind a name to a registered object if the name is free, and otherwise report a
failure and leave the registry as it is. Both overloads look at one of the two maps only, for the
name and for the object, and insert after the checks, whatever these have found.

What a call does to the lookup is `getObject_createAlias` and `getObject_createDataAlias`.
`aliased_iff` says which calls keep the law : for a control object the checks must pass in both
maps, or the name is taken in its own map; a name that is taken by a control object hides the alias
of channel data, so that call changes nothing.
-/

namespace Ick

namespace ObjectManager

/-- The overload for an object, with what it prints. -/
def createAliasFor (m : ObjectManager) (object : ManagedObject) (aliasName : Str) :
    Option Str × ObjectManager :=
  match object with
  | .control object => m.createAlias (some object) aliasName
  | .data object => m.createDataAlias (some object) aliasName

/-- If the object is registered, and nothing is registered under the name, then the name is that of
the object. In every other case a failure is reported, and all names are as they were. -/
structure Aliases (m : ObjectManager) (object : ManagedObject) (aliasName : Str) : Prop where
  created : m.Manages object → m.getObject aliasName = none →
    (m.createAliasFor object aliasName).2.getObject aliasName = some object
  refused : ¬(m.Manages object ∧ m.getObject aliasName = none) →
    (m.createAliasFor object aliasName).1.isSome ∧
      ∀ name, (m.createAliasFor object aliasName).2.getObject name = m.getObject name

/-- The name is taken in the object's own map. Or, for a control object, the object is registered
and the name is not taken in the other map; and for channel data, the object is registered if and
only if the name is not taken in the other map. -/
def Aliasable (m : ObjectManager) (aliasName : Str) : ManagedObject → Prop
  | .control object => aliasName ∈ m.entites ∨
      (m.Manages (.control object) ∧ aliasName ∉ m.datas)
  | .data object => aliasName ∈ m.datas ∨
      (m.Manages (.data object) ↔ aliasName ∉ m.entites)

variable {m : ObjectManager} {aliasName : Str}

/-! ## What is reported -/

theorem any_toList_iff {objects : Std.TreeMap Str ℕ} {object : ℕ} :
    objects.toList.any (·.2 = object) = true ↔
      ∃ fullName : Str, objects[fullName]? = some object := by
  rw [List.any_eq_true]
  constructor
  · rintro ⟨⟨fullName, v⟩, hmem, hv⟩
    obtain rfl := of_decide_eq_true hv
    exact ⟨fullName, Std.TreeMap.mem_toList_iff_getElem?_eq_some.1 hmem⟩
  · rintro ⟨fullName, hget⟩
    exact ⟨(fullName, object), Std.TreeMap.mem_toList_iff_getElem?_eq_some.2 hget,
      decide_eq_true rfl⟩

theorem aliasMessage_isSome {objects : Std.TreeMap Str ℕ} {object : ℕ} {fullName : Str} :
    (aliasMessage objects object fullName aliasName).isSome ↔
      aliasName ∈ objects ∨ ¬∃ name : Str, objects[name]? = some object := by
  rw [← any_toList_iff, aliasMessage]
  split_ifs with hmem hany
  · exact iff_of_true rfl (Or.inl hmem)
  · exact iff_of_false nofun (not_or.2 ⟨hmem, not_not.2 hany⟩)
  · exact iff_of_true rfl (Or.inr hany)

/-- A failure is reported when the checks of the overload do not pass. -/
theorem createAliasFor_isSome (hne : aliasName ≠ []) (object : ManagedObject) :
    (m.createAliasFor object aliasName).1.isSome ↔
      ¬m.Manages object ∨ match object with
        | .control _ => aliasName ∈ m.entites
        | .data _ => aliasName ∈ m.datas := by
  rw [or_comm]
  cases object <;>
  · simp only [createAliasFor, createAlias, createDataAlias, if_neg hne]
    exact aliasMessage_isSome

/-! ## What is looked up -/

theorem getObject_eq_none_iff (hne : aliasName ≠ []) :
    m.getObject aliasName = none ↔ aliasName ∉ m.entites ∧ aliasName ∉ m.datas := by
  have hregisted := isObjectRegisted_eq m aliasName
  constructor
  · intro hnone
    rw [hnone] at hregisted
    exact notMem_of_not_registed hne hregisted
  · rintro ⟨hentites, hdatas⟩
    simp only [getObject, if_neg hne, Std.TreeMap.getElem?_eq_none hentites,
      Std.TreeMap.getElem?_eq_none hdatas, Option.map_none]

theorem insertIfNew_of_mem {t : Std.TreeMap Str ℕ} {k : Str} (hk : k ∈ t) (v : ℕ) (a : Str) :
    (t.insertIfNew k v)[a]? = t[a]? := by
  rw [Std.TreeMap.getElem?_insertIfNew, if_neg fun h => h.2 hk]

/-- A control object is found under the alias if its name is not taken in its own map. -/
theorem getObject_createAlias (hne : aliasName ≠ []) (object : ℕ) (name : Str) :
    (m.createAlias (some object) aliasName).2.getObject name =
      if name = aliasName ∧ aliasName ∉ m.entites then some (.control object)
      else m.getObject name := by
  by_cases hname : name = []
  · rw [if_neg fun h => hne (h.1.symm.trans hname), hname]
    rfl
  simp only [createAlias, if_neg hne, getObject, if_neg hname]
  by_cases hmem : aliasName ∈ m.entites
  · rw [insertIfNew_of_mem hmem, if_neg fun h => h.2 hmem]
  · rw [getElem?_insertIfNew hmem]
    by_cases heq : name = aliasName
    · rw [if_pos heq, if_pos ⟨heq, hmem⟩]
    · rw [if_neg heq, if_neg fun h => heq h.1]

/-- Channel data is found under the alias if its name is not taken in either map. -/
theorem getObject_createDataAlias (hne : aliasName ≠ []) (object : ℕ) (name : Str) :
    (m.createDataAlias (some object) aliasName).2.getObject name =
      if name = aliasName ∧ aliasName ∉ m.entites ∧ aliasName ∉ m.datas then some (.data object)
      else m.getObject name := by
  by_cases hname : name = []
  · rw [if_neg fun h => hne (h.1.symm.trans hname), hname]
    rfl
  simp only [createDataAlias, if_neg hne, getObject, if_neg hname]
  by_cases hmem : aliasName ∈ m.datas
  · rw [insertIfNew_of_mem hmem, if_neg fun h => h.2.2 hmem]
  · rw [getElem?_insertIfNew hmem]
    by_cases heq : name = aliasName
    · subst heq
      by_cases hentites : name ∈ m.entites
      · obtain ⟨control, hcontrol⟩ := Option.isSome_iff_exists.1
          (Std.TreeMap.mem_iff_isSome_getElem?.1 hentites)
        have hnot : ¬(name = name ∧ name ∉ m.entites ∧ name ∉ m.datas) := fun h => h.2.1 hentites
        rw [if_neg hnot, hcontrol]
      · rw [if_pos rfl, if_pos ⟨rfl, hentites, hmem⟩, Std.TreeMap.getElem?_eq_none hentites]
        rfl
    · rw [if_neg heq, if_neg fun h => heq h.1]

/-! ## The law -/

/-- Which calls for a control object keep the law. -/
theorem aliases_control_iff (hne : aliasName ≠ []) (object : ℕ) :
    m.Aliases (.control object) aliasName ↔ m.Aliasable aliasName (.control object) := by
  have hget := @getObject_createAlias m aliasName hne object
  have hreport := @createAliasFor_isSome m aliasName hne (.control object)
  have hfree := @getObject_eq_none_iff m aliasName hne
  rw [Aliasable]
  by_cases hentites : aliasName ∈ m.entites
  · refine iff_of_true ⟨fun _ hnone => absurd hentites (hfree.1 hnone).1, fun _ => ?_⟩
      (Or.inl hentites)
    refine ⟨hreport.2 (Or.inr hentites), fun name => ?_⟩
    rw [createAliasFor, hget, if_neg fun h => h.2 hentites]
  · -- the name is bound to the object, so it has to be free
    have hbound : (m.createAlias (some object) aliasName).2.getObject aliasName =
        some (.control object) := by rw [hget, if_pos ⟨rfl, hentites⟩]
    rw [or_iff_right hentites]
    constructor
    · intro hlaw
      by_contra hnot
      have hrefused := hlaw.refused fun h => hnot ⟨h.1, (hfree.1 h.2).2⟩
      have hsame := hrefused.2 aliasName
      rw [createAliasFor, hbound, getObject, if_neg hne,
        Std.TreeMap.getElem?_eq_none hentites] at hsame
      cases hdata : m.datas[aliasName]? <;> simp [hdata] at hsame
    · rintro ⟨hmanages, hdatas⟩
      exact ⟨fun _ _ => hbound, fun hnot => absurd ⟨hmanages, hfree.2 ⟨hentites, hdatas⟩⟩ hnot⟩

/-- Which calls for channel data keep the law. -/
theorem aliases_data_iff (hne : aliasName ≠ []) (object : ℕ) :
    m.Aliases (.data object) aliasName ↔ m.Aliasable aliasName (.data object) := by
  have hget := @getObject_createDataAlias m aliasName hne object
  have hreport := @createAliasFor_isSome m aliasName hne (.data object)
  have hfree := @getObject_eq_none_iff m aliasName hne
  rw [Aliasable]
  by_cases hdatas : aliasName ∈ m.datas
  · refine iff_of_true ⟨fun _ hnone => absurd hdatas (hfree.1 hnone).2, fun _ => ?_⟩
      (Or.inl hdatas)
    refine ⟨hreport.2 (Or.inr hdatas), fun name => ?_⟩
    rw [createAliasFor, hget, if_neg fun h => h.2.2 hdatas]
  · rw [or_iff_right hdatas]
    have hreport' : (m.createAliasFor (.data object) aliasName).1.isSome ↔
        ¬m.Manages (.data object) := hreport.trans (or_iff_left hdatas)
    by_cases hentites : aliasName ∈ m.entites
    · -- the alias is hidden, so a failure has to be reported
      have hsame : ∀ name, (m.createAliasFor (.data object) aliasName).2.getObject name =
          m.getObject name := fun name => by
        rw [createAliasFor, hget, if_neg fun h => h.2.1 hentites]
      rw [iff_false_right (not_not.2 hentites), ← hreport']
      constructor
      · exact fun hlaw => (hlaw.refused fun h => (hfree.1 h.2).1 hentites).1
      · exact fun hsome => ⟨fun _ hnone => absurd hentites (hfree.1 hnone).1,
          fun _ => ⟨hsome, hsame⟩⟩
    · have hbound : (m.createDataAlias (some object) aliasName).2.getObject aliasName =
          some (.data object) := by rw [hget, if_pos ⟨rfl, hentites, hdatas⟩]
      rw [iff_true_right hentites]
      constructor
      · intro hlaw
        by_contra hnot
        have hsame := (hlaw.refused fun h => hnot h.1).2 aliasName
        rw [createAliasFor, hbound, hfree.2 ⟨hentites, hdatas⟩] at hsame
        cases hsame
      · exact fun hmanages => ⟨fun _ _ => hbound,
          fun hnot => absurd ⟨hmanages, hfree.2 ⟨hentites, hdatas⟩⟩ hnot⟩

/-- Which calls keep the law. -/
theorem aliases_iff_aliasable (hne : aliasName ≠ []) (object : ManagedObject) :
    m.Aliases object aliasName ↔ m.Aliasable aliasName object := by
  cases object with
  | control object => exact aliases_control_iff hne object
  | data object => exact aliases_data_iff hne object

end ObjectManager

/-- The object and the name of a call of `createAlias`. -/
def BindCall.aliasOf : BindCall → Option (ManagedObject × Str)
  | register _ => none
  | control object aliasName => object.map fun object => (.control object, aliasName)
  | data object aliasName => object.map fun object => (.data object, aliasName)

namespace ObjectManager

/-- The calls of `createAlias` in a run of registrations and aliases all keep the law exactly if the
names and the objects are as the overloads assume. -/
theorem aliased_iff (classes : ClassList) (calls : List BindCall) :
    Throughout (fun pre call => ∀ m object aliasName, bindAll classes pre = some m →
      call.aliasOf = some (object, aliasName) → aliasName ≠ [] → m.Aliases object aliasName) calls ↔
    Throughout (fun pre call => ∀ m object aliasName, bindAll classes pre = some m →
      call.aliasOf = some (object, aliasName) → aliasName ≠ [] →
        m.Aliasable aliasName object) calls := by
  unfold Throughout
  refine forall₃_congr fun pre call _ => ?_
  exact forall₃_congr fun m object aliasName => imp_congr_right fun _ => imp_congr_right fun _ =>
    forall_congr' fun hne => aliases_iff_aliasable hne object

/-- An alias of an object that is not registered. -/
theorem not_aliased_unregistered : ¬∀ (classes : ClassList) (calls : List BindCall),
    Throughout (fun pre call => ∀ m object aliasName, bindAll classes pre = some m →
      call.aliasOf = some (object, aliasName) → aliasName ≠ [] →
        m.Aliases object aliasName) calls := by
  intro h
  have hlaw := h [] [.control (some 0) "/a".toList] [] (.control (some 0) "/a".toList)
    (List.prefix_refl _) new (.control 0) "/a".toList rfl rfl (by decide)
  have hsame := (hlaw.refused fun hboth => ?_).2 "/a".toList
  · revert hsame
    decide
  · obtain ⟨fullName, hget⟩ := hboth.1
    cases hget

end ObjectManager

end Ick
