import Ick.Linked
import Ick.ObjectManager

/-!
# The list of classes

Each class has a `ClassList`, and `ClassJoint` puts it in front of the list that begins with
`m_headerList`. It looks into a map whether a class of that name was joined before, but only to
decide whether to put it into the map : the list is changed in either case.

So the list has an end exactly if no `ClassList` is joined twice (`ends_iff`). Of one that is, the
link to the next class is overwritten, and the list goes round. As long as it has an end, the loop
of `ObjectManager::registerObject` finds what a search in a list of classes finds
(`registerObject_eq`).
-/

namespace Ick

/-- What a `ClassList` has of its class : the name, and whether the objects that it creates are
control objects. -/
structure ClassInfo where
  className : Str
  control : Bool

/-- The members `m_nextList` of the `ClassList`s, `m_headerList`, and the map of `ClassJoint`. -/
structure JointList where
  nextList : ℕ → Option ℕ
  headerList : Option ℕ
  classMap : Std.TreeMap Str ℕ

namespace JointList

/-- Before any class is joined. -/
def new : JointList where
  nextList _ := none
  headerList := none
  classMap := ∅

section Classes

variable (info : ℕ → ClassInfo)

/-- `ClassJoint` -/
def classJoint (l : JointList) (newClass : ℕ) : JointList where
  classMap :=
    if (info newClass).className ∉ l.classMap then
      l.classMap.insertIfNew (info newClass).className newClass
    else l.classMap
  nextList := Function.update l.nextList newClass l.headerList
  headerList := some newClass

/-- The list after the classes were joined. -/
def joined (classes : List ℕ) : JointList := classes.foldl (classJoint info) new

/-- `registerObject(std::string, std::string)` with its loop over the list, which is to end within
the turns. -/
def registerObject (l : JointList) (turns : ℕ) (m : ObjectManager) (className fullName : Str)
    (object : ℕ) : Option (Outcome ObjectManager) :=
  (search l.nextList (fun c => (info c).className = className) turns l.headerList).map fun
    | some c =>
      if (info c).control then
        .ok { m.setFullName (.control object) fullName with
          entites := m.entites.insertIfNew fullName object }
      else .crash
    | none => .throws (ObjectManager.classMessage className fullName) m

/-- From the header on each class that was joined is visited once, and then the list ends; the
search for a class ends, whatever its name. -/
structure Ends (classes : List ℕ) (l : JointList) : Prop where
  visits : ∃ visited : List ℕ,
    (∃ n, ∀ turns, n ≤ turns → follow l.nextList turns l.headerList = some visited) ∧
      visited.Nodup ∧ ∀ c, c ∈ visited ↔ c ∈ classes
  searches : ∀ m className fullName object, ∃ n outcome, ∀ turns, n ≤ turns →
    registerObject info l turns m className fullName object = some outcome

end Classes

variable {info : ℕ → ClassInfo} {classes : List ℕ}

theorem joined_snoc (c : ℕ) :
    joined info (classes ++ [c]) = classJoint info (joined info classes) c := by
  rw [joined, List.foldl_append]
  rfl

/-- The list has the classes, the last one first, or no end if a class was joined twice. -/
theorem joined_cases (classes : List ℕ) :
    (classes.Nodup ∧
        Linked (joined info classes).nextList (joined info classes).headerList classes.reverse) ∨
      (¬classes.Nodup ∧
        Endless (joined info classes).nextList (joined info classes).headerList) := by
  induction classes using List.reverseRecOn with
  | nil => exact Or.inl ⟨List.nodup_nil, .nil⟩
  | append_singleton classes c ih =>
    have hconcat : (classes ++ [c]).Nodup ↔ classes.Nodup ∧ c ∉ classes := by
      rw [← List.concat_eq_append, List.nodup_concat, and_comm]
    rw [joined_snoc, hconcat, List.reverse_concat]
    rcases ih with ⟨hnodup, hlinked⟩ | ⟨hnodup, hendless⟩
    · by_cases hc : c ∈ classes
      · exact Or.inr ⟨fun h => h.2 hc, hlinked.endless_insert (List.mem_reverse.2 hc)⟩
      · exact Or.inl ⟨⟨hnodup, hc⟩, hlinked.insert (mt List.mem_reverse.1 hc)⟩
    · exact Or.inr ⟨fun h => hnodup h.1, hendless.insert c⟩

/-- On a list with an end the loop is a search in the list of the classes. -/
theorem registerObject_eq {l : JointList} {visited : List ℕ}
    (h : Linked l.nextList l.headerList visited) {turns : ℕ} (hturns : visited.length ≤ turns)
    (m : ObjectManager) (className fullName : Str) (object : ℕ) :
    registerObject info l turns m className fullName object =
      some (m.registerClass (visited.map fun c => ((info c).className, (info c).control))
        className fullName object) := by
  have hfind : (visited.map fun c => ((info c).className, (info c).control)).find?
      (·.1 = className) = (visited.find? fun c => (info c).className = className).map
        fun c => ((info c).className, (info c).control) := by
    rw [List.find?_map]
    rfl
  rw [registerObject, h.search_eq _ hturns, ObjectManager.registerClass, hfind, Option.map_some]
  cases visited.find? fun c => (info c).className = className with
  | none => rfl
  | some c => cases hc : (info c).control <;> simp [hc]

/-- The list of classes. It has an end, with each class in it once, exactly if no class is joined
twice. -/
theorem ends_iff (info : ℕ → ClassInfo) (classes : List ℕ) :
    Ends info classes (joined info classes) ↔ classes.Nodup := by
  rcases @joined_cases info classes with ⟨hnodup, hlinked⟩ | ⟨hnodup, hendless⟩
  · refine iff_of_true ⟨⟨classes.reverse, ⟨_, fun turns => hlinked.follow_eq⟩,
      List.nodup_reverse.2 hnodup, fun c => List.mem_reverse⟩, ?_⟩ hnodup
    exact fun m className fullName object =>
      ⟨_, _, fun turns hturns => registerObject_eq hlinked hturns m className fullName object⟩
  · refine iff_of_false (fun h => ?_) hnodup
    obtain ⟨visited, ⟨n, hn⟩, -⟩ := h.visits
    exact absurd (hn n le_rfl) (by rw [hendless.follow_eq_none]; nofun)

/-- Classes of one name, of control objects. -/
def oneName (_ : ℕ) : ClassInfo := ⟨"A".toList, true⟩

/-- A class that is joined twice goes round, and the search for another name does not end. -/
theorem not_ends_joinedTwice : ¬Ends oneName [0, 0] (joined oneName [0, 0]) := by
  intro h
  obtain ⟨n, outcome, hn⟩ := h.searches .new "B".toList "/b".toList 0
  have hendless : Endless (joined oneName [0, 0]).nextList (joined oneName [0, 0]).headerList :=
    ⟨{0}, ⟨0, rfl, rfl⟩, by rintro _ rfl; exact ⟨0, rfl, rfl⟩⟩
  have hname : ∀ c, decide ((oneName c).className = "B".toList) = false := fun _ => rfl
  have hsearch := hn n le_rfl
  rw [registerObject, hendless.search_eq_none hname, Option.map_none] at hsearch
  cases hsearch

end JointList

end Ick
