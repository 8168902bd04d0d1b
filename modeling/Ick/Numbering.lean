import Mathlib.Data.Finset.Card
import Mathlib.Data.List.Induction
import Mathlib.Data.List.Nodup
import Mathlib.Tactic.SplitIfs
import Std.Data.TreeMap.Lemmas

/-!
# Numbered entries

The entries of a map carry numbers, and an entry that is put into the map gets the size of the map
before as its number. While every key is new the numbers are those below the size, each once
(`Dense`). An entry that is put in place of another one still gets the size, so the number of the
old one is missing, and it stays so, as later numbers are not smaller (`Gap`). Hence a map is
numbered densely exactly when no key was put in twice (`dense_fill_iff`).
-/

namespace Ick

namespace Numbering

variable {κ β : Type*} [Ord κ]

/-- The numbers of the entries. -/
def numbers (number : β → ℕ) (m : Std.TreeMap κ β) : List ℕ := m.toList.map (number ·.2)

/-- The numbers are those below the size, each once. -/
def Dense (number : β → ℕ) (m : Std.TreeMap κ β) : Prop :=
  (numbers number m).Perm (List.range m.size)

/-- A number below the size is missing. -/
def Gap (number : β → ℕ) (m : Std.TreeMap κ β) : Prop := ∃ i < m.size, i ∉ numbers number m

/-- The map after entries were put into it, each made with the size before. -/
def fill (entries : List (κ × (ℕ → β))) : Std.TreeMap κ β :=
  entries.foldl (fun m e => m.insert e.1 (e.2 m.size)) ∅

variable {number : β → ℕ} {m : Std.TreeMap κ β} {k : κ} {v : β}

theorem not_dense_of_gap (h : Gap number m) : ¬Dense number m := by
  obtain ⟨i, hi, hnot⟩ := h
  exact fun hdense => hnot (hdense.mem_iff.2 (List.mem_range.2 hi))

theorem fill_snoc (entries : List (κ × (ℕ → β))) (e : κ × (ℕ → β)) :
    fill (entries ++ [e]) = (fill entries).insert e.1 (e.2 (fill entries).size) := by
  simp [fill]

variable [Std.TransOrd κ] [Std.LawfulEqOrd κ]

theorem mem_numbers {i : ℕ} : i ∈ numbers number m ↔
    ∃ (k : κ) (v : β), m[k]? = some v ∧ number v = i := by
  simp only [numbers, List.mem_map, Prod.exists, Std.TreeMap.mem_toList_iff_getElem?_eq_some]

/-- The entries with one number are one entry. -/
theorem Dense.unique (h : Dense number m) {k k' : κ} {v v' : β} (hv : m[k]? = some v)
    (hv' : m[k']? = some v') (heq : number v = number v') : k = k' := by
  have hnodup : (m.toList.map (number ·.2)).Nodup := h.nodup_iff.2 List.nodup_range
  have hpair := List.inj_on_of_nodup_map hnodup (Std.TreeMap.mem_toList_iff_getElem?_eq_some.2 hv)
    (Std.TreeMap.mem_toList_iff_getElem?_eq_some.2 hv') heq
  exact (Prod.mk.inj hpair).1

theorem Dense.exists_of_lt (h : Dense number m) {i : ℕ} (hi : i < m.size) :
    ∃ (k : κ) (v : β), m[k]? = some v ∧ number v = i :=
  mem_numbers.1 (h.mem_iff.2 (List.mem_range.2 hi))

theorem Dense.lt_size (h : Dense number m) (hv : m[k]? = some v) : number v < m.size :=
  List.mem_range.1 (h.mem_iff.1 (mem_numbers.2 ⟨k, v, hv, rfl⟩))


/-- A new entry gets the next number. -/
theorem dense_insert [DecidableEq κ] (h : Dense number m) (hk : k ∉ m) (hv : number v = m.size) :
    Dense number (m.insert k v) := by
  have hfilter : m.toList.filter (fun e => ¬(k == e.1)) = m.toList := by
    refine List.filter_eq_self.2 fun e he => ?_
    have hmem := Std.TreeMap.mem_iff_isSome_getElem?.2
      (Option.isSome_of_eq_some (Std.TreeMap.mem_toList_iff_getElem?_eq_some.1 he))
    have hne : k ≠ e.1 := fun heq => hk (heq ▸ hmem)
    simpa using hne
  have hperm := (@Std.TreeMap.toList_insert_perm _ _ _ m _ _ _ k v).map (number ·.2)
  rw [hfilter, List.map_cons, hv] at hperm
  have hsize : (m.insert k v).size = m.size + 1 := by
    rw [Std.TreeMap.size_insert, if_neg (by simpa using hk)]
  rw [Dense, hsize, List.range_succ]
  exact hperm.trans ((h.cons _).trans (List.perm_append_singleton _ _).symm)

/-- What is missing stays so. -/
theorem gap_insert (h : Gap number m) (hv : number v = m.size) : Gap number (m.insert k v) := by
  obtain ⟨i, hi, hnot⟩ := h
  refine ⟨i, hi.trans_le Std.TreeMap.size_le_size_insert, fun hmem => ?_⟩
  obtain ⟨k', v', hv', rfl⟩ := mem_numbers.1 hmem
  rw [Std.TreeMap.getElem?_insert] at hv'
  split_ifs at hv' with heq
  · obtain rfl := Option.some.inj hv'
    omega
  · exact hnot (mem_numbers.2 ⟨k', v', hv', rfl⟩)

/-- An entry put in place of another one leaves that one's number missing. -/
theorem gap_insert_of_mem (h : Dense number m) (hk : k ∈ m) (hv : number v = m.size) :
    Gap number (m.insert k v) := by
  obtain ⟨old, hold⟩ := Option.isSome_iff_exists.1 (Std.TreeMap.mem_iff_isSome_getElem?.1 hk)
  have hlt := h.lt_size hold
  refine ⟨number old, hlt.trans_le Std.TreeMap.size_le_size_insert, fun hmem => ?_⟩
  obtain ⟨k', v', hv', hnumber⟩ := mem_numbers.1 hmem
  rw [Std.TreeMap.getElem?_insert] at hv'
  split_ifs at hv' with heq
  · obtain rfl := Option.some.inj hv'
    omega
  · exact heq (Std.compare_eq_iff_eq.2 (h.unique hold hv' hnumber.symm))

theorem mem_fill {entries : List (κ × (ℕ → β))} : k ∈ fill entries ↔ k ∈ entries.map Prod.fst := by
  induction entries using List.reverseRecOn with
  | nil => simp [fill]
  | append_singleton entries e ih =>
    rw [fill_snoc, Std.TreeMap.mem_insert, Std.compare_eq_iff_eq, ih]
    simp [or_comm, eq_comm]

variable [DecidableEq κ]

/-- There are as many entries as keys. -/
theorem size_fill (entries : List (κ × (ℕ → β))) :
    (fill entries).size = (entries.map Prod.fst).toFinset.card := by
  induction entries using List.reverseRecOn with
  | nil => rfl
  | append_singleton entries e ih =>
    have hkeys : ((entries ++ [e]).map Prod.fst).toFinset =
        insert e.1 (entries.map Prod.fst).toFinset := by
      ext k
      simp
    rw [fill_snoc, Std.TreeMap.size_insert, hkeys, ih]
    by_cases hmem : e.1 ∈ entries.map Prod.fst
    · rw [if_pos (Std.TreeMap.mem_iff_contains.1 (mem_fill.2 hmem)),
        Finset.insert_eq_self.2 (List.mem_toFinset.2 hmem)]
    · rw [if_neg (mt Std.TreeMap.mem_iff_contains.2 (mt mem_fill.1 hmem)),
        Finset.card_insert_of_notMem (mt List.mem_toFinset.1 hmem)]

/-- The numbers are dense, or one is missing, as the keys have it. -/
theorem dense_or_gap_fill {entries : List (κ × (ℕ → β))}
    (hnumber : ∀ e ∈ entries, ∀ n, number (e.2 n) = n) :
    ((entries.map Prod.fst).Nodup → Dense number (fill entries)) ∧
    (¬(entries.map Prod.fst).Nodup → Gap number (fill entries)) := by
  induction entries using List.reverseRecOn with
  | nil => exact ⟨fun _ => List.Perm.refl _, fun h => absurd List.nodup_nil h⟩
  | append_singleton entries e ih =>
    obtain ⟨hdense, hgap⟩ := ih fun e' he' => hnumber e' (List.mem_append_left _ he')
    have hlast := hnumber e (by simp) (fill entries).size
    have hnodup : ((entries ++ [e]).map Prod.fst).Nodup ↔
        (entries.map Prod.fst).Nodup ∧ e.1 ∉ fill entries := by
      rw [mem_fill, List.map_append, List.map_singleton, List.nodup_append_comm,
        List.singleton_append, List.nodup_cons, and_comm]
    rw [fill_snoc, hnodup]
    constructor
    · rintro ⟨hkeys, hnew⟩
      exact dense_insert (hdense hkeys) hnew hlast
    · intro h
      by_cases hkeys : (entries.map Prod.fst).Nodup
      · exact gap_insert_of_mem (hdense hkeys) (not_not.1 fun hnew => h ⟨hkeys, hnew⟩) hlast
      · exact gap_insert (hgap hkeys) hlast

/-- The numbers are dense exactly when no key is put in twice. -/
theorem dense_fill_iff {entries : List (κ × (ℕ → β))}
    (hnumber : ∀ e ∈ entries, ∀ n, number (e.2 n) = n) :
    Dense number (fill entries) ↔ (entries.map Prod.fst).Nodup := by
  obtain ⟨hdense, hgap⟩ := dense_or_gap_fill hnumber
  exact ⟨fun h => not_not.1 fun hkeys => not_dense_of_gap (hgap hkeys) h, hdense⟩

end Numbering

end Ick
