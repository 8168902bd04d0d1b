import Mathlib.Init
import Std.Data.TreeMap

/-!
# Sweeps

An iterator goes over an ordered map into which entries are inserted meanwhile. An insertion
leaves the iterator at its entry, and the next entry is the one that comes after it in the map as
it is then (`next`).

`Swept old t seen c` is the invariant of such a sweep : `old` is the map in which it began, `t` the
map now, `seen` the keys that were handled, in order, and `c` the place of the iterator. At the end
the keys of `old` are all among those handled, each of which was handled once (`Swept.ended`).
-/

namespace Ick

open Std (TreeMap TransCmp LawfulEqCmp)

variable {α β : Type*} {cmp : α → α → Ordering}

/-- Where an iterator is : at a key that is not handled yet, at one that is handled, or at the
end. -/
inductive Cursor (α : Type*)
  | before (k : α)
  | after (k : α)
  | ended

namespace Cursor

/-- The iterator has passed the key. -/
def Passed (cmp : α → α → Ordering) (a : α) : Cursor α → Prop
  | before k => cmp a k = .lt
  | after k => cmp a k ≠ .gt
  | ended => True

/-- The place of an iterator that has come to this entry, or to the end. -/
def at? : Option (α × β) → Cursor α
  | some (k, _) => before k
  | none => ended

end Cursor

namespace Sweep

/-- The first entry of a map. -/
def first (t : TreeMap α β cmp) : Option (α × β) := t.toList.head?

/-- The entry after a key. -/
def next (t : TreeMap α β cmp) (k : α) : Option (α × β) :=
  t.toList.find? fun e => cmp k e.1 = .lt

variable {old t t' : TreeMap α β cmp} {seen : List α} {k : α} {c : Cursor α} {e : α × β}
  [TransCmp cmp] [LawfulEqCmp cmp]

theorem mem_iff_toList : k ∈ t ↔ ∃ e ∈ t.toList, e.1 = k := by
  rw [← Std.TreeMap.mem_keys, ← Std.TreeMap.map_fst_toList_eq_keys, List.mem_map]

/-- The entries before an entry are less than it, those after it are greater. -/
theorem not_lt_of_append {l r : List (α × β)} (h : t.toList = l ++ e :: r) {e' : α × β}
    (he' : e' ∈ e :: r) : cmp e'.1 e.1 ≠ .lt := by
  have hordered := (Std.TreeMap.ordered_keys_toList (t := t))
  rw [h] at hordered
  obtain ⟨-, htail, -⟩ := List.pairwise_append.1 hordered
  obtain ⟨hhead, -⟩ := List.pairwise_cons.1 htail
  intro hlt
  rcases List.mem_cons.1 he' with rfl | he'
  · have hself : cmp e'.1 e'.1 = .eq := Std.ReflCmp.compare_self
    rw [hself] at hlt
    cases hlt
  · have hgt := Std.OrientedCmp.gt_of_lt hlt
    rw [hhead e' he'] at hgt
    cases hgt

theorem first_spec (h : first t = some e) : t[e.1]? = some e.2 ∧ ∀ a ∈ t, cmp a e.1 ≠ .lt := by
  obtain ⟨r, hr⟩ := List.head?_eq_some_iff.1 h
  refine ⟨Std.TreeMap.mem_toList_iff_getElem?_eq_some.1 (hr ▸ List.mem_cons_self), ?_⟩
  intro a ha
  obtain ⟨e', he', rfl⟩ := mem_iff_toList.1 ha
  exact not_lt_of_append (l := []) hr (hr ▸ he')

theorem first_none (h : first t = none) (a : α) : a ∉ t := by
  intro ha
  obtain ⟨e', he', -⟩ := mem_iff_toList.1 ha
  rw [List.head?_eq_none_iff.1 h] at he'
  cases he'

theorem next_spec (h : next t k = some e) : t[e.1]? = some e.2 ∧ cmp k e.1 = .lt ∧
    ∀ a ∈ t, cmp k a = .lt → cmp a e.1 ≠ .lt := by
  obtain ⟨hlt, l, r, hl, hbefore⟩ := List.find?_eq_some_iff_append.1 h
  refine ⟨Std.TreeMap.mem_toList_iff_getElem?_eq_some.1 (by rw [hl]; simp), by simpa using hlt, ?_⟩
  intro a ha hka
  obtain ⟨e', he', rfl⟩ := mem_iff_toList.1 ha
  rw [hl] at he'
  rcases List.mem_append.1 he' with he' | he'
  · exact absurd hka (by simpa using hbefore e' he')
  · exact not_lt_of_append hl he'

theorem next_none (h : next t k = none) (a : α) (ha : a ∈ t) : cmp k a ≠ .lt := by
  obtain ⟨e', he', rfl⟩ := mem_iff_toList.1 ha
  simpa using List.find?_eq_none.1 h e' he'

end Sweep

open Sweep

/-- The keys `seen` were handled in order, they are those of `old` that the iterator has passed,
and maybe some that were inserted since. -/
structure Swept (old t : TreeMap α β cmp) (seen : List α) (c : Cursor α) : Prop where
  ordered : seen.Pairwise fun a b => cmp a b = .lt
  present : ∀ a ∈ seen, a ∈ t
  grown : ∀ a ∈ old, a ∈ t
  behind : ∀ a ∈ seen, c.Passed cmp a
  covered : ∀ a ∈ old, c.Passed cmp a → a ∈ seen
  standing : ∀ k, c = .before k → k ∈ t

namespace Swept

variable {old t t' : TreeMap α β cmp} {seen : List α} {k : α} {c : Cursor α}

/-- Entries are inserted. -/
theorem insert (h : Swept old t seen c) (hgrown : ∀ a ∈ t, a ∈ t') : Swept old t' seen c :=
  ⟨h.ordered, fun a ha => hgrown a (h.present a ha), fun a ha => hgrown a (h.grown a ha),
    h.behind, h.covered, fun k hk => hgrown k (h.standing k hk)⟩

/-- A sweep that has come to the end. -/
theorem ended (h : Swept old t seen .ended) (a : α) (ha : a ∈ old) : a ∈ seen :=
  h.covered a ha trivial

variable [LawfulEqCmp cmp]

/-- The entry of the iterator is handled. -/
theorem handle (h : Swept old t seen (.before k)) : Swept old t (seen ++ [k]) (.after k) := by
  refine ⟨?_, fun a ha => ?_, h.grown, fun a ha => ?_, fun a ha hpassed => ?_,
    fun _ hk => by cases hk⟩
  · rw [List.pairwise_append]
    refine ⟨h.ordered, List.pairwise_singleton _ _, fun a ha b hb => ?_⟩
    rw [List.mem_singleton.1 hb]
    exact h.behind a ha
  · rcases List.mem_append.1 ha with ha | ha
    · exact h.present a ha
    · rw [List.mem_singleton.1 ha]
      exact h.standing k rfl
  · rcases List.mem_append.1 ha with ha | ha
    · have hlt : cmp a k = .lt := h.behind a ha
      exact fun hgt => by rw [hlt] at hgt; cases hgt
    · rw [List.mem_singleton.1 ha]
      have hself : cmp k k = .eq := Std.ReflCmp.compare_self
      exact fun hgt => by rw [hself] at hgt; cases hgt
  · have hnot : cmp a k ≠ .gt := hpassed
    cases hcmp : cmp a k with
    | lt => exact List.mem_append_left _ (h.covered a ha hcmp)
    | eq =>
      rw [Std.LawfulEqCmp.eq_of_compare hcmp]
      exact List.mem_append_right _ (List.mem_singleton_self k)
    | gt => exact absurd hcmp hnot

variable [TransCmp cmp]

theorem start : Swept t t [] (.at? (first t)) := by
  refine ⟨.nil, fun _ ha => absurd ha List.not_mem_nil, fun _ h => h,
    fun _ ha => absurd ha List.not_mem_nil, fun a ha hpassed => ?_, fun k hk => ?_⟩
  · cases hfirst : first t with
    | none => exact absurd ha (first_none hfirst a)
    | some e =>
      rw [hfirst] at hpassed
      exact absurd hpassed ((first_spec hfirst).2 a ha)
  · cases hfirst : first t with
    | none =>
      rw [hfirst] at hk
      cases hk
    | some e =>
      rw [hfirst] at hk
      cases hk
      exact Std.TreeMap.mem_iff_isSome_getElem?.2 (by rw [(first_spec hfirst).1]; rfl)

/-- The iterator moves on. -/
theorem move (h : Swept old t seen (.after k)) : Swept old t seen (.at? (next t k)) := by
  cases hnext : next t k with
  | none =>
    refine ⟨h.ordered, h.present, h.grown, fun _ _ => trivial, fun a ha _ => ?_,
      fun _ hk => by cases hk⟩
    exact h.covered a ha fun hgt =>
      next_none hnext a (h.grown a ha) (Std.OrientedCmp.lt_of_gt hgt)
  | some e =>
    obtain ⟨hget, hlt, hleast⟩ := next_spec hnext
    refine ⟨h.ordered, h.present, h.grown, fun a ha => ?_, fun a ha hpassed => ?_, ?_⟩
    · have hle : cmp a k ≠ .gt := h.behind a ha
      exact Std.TransCmp.lt_of_isLE_of_lt (by cases hcmp : cmp a k <;> simp_all) hlt
    · refine h.covered a ha fun hgt => ?_
      exact hleast a (h.grown a ha) (Std.OrientedCmp.lt_of_gt hgt) hpassed
    · intro k' hk'
      cases hk'
      exact Std.TreeMap.mem_iff_isSome_getElem?.2 (by rw [hget]; rfl)

end Swept

end Ick
