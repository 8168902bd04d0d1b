import Mathlib.Data.List.Induction
import Mathlib.Tactic.SplitIfs
import Std.Data.TreeMap.Lemmas

/-!
# Registries

A registry lists values under keys. Values are registered with names, and each name is filed
under a key that is computed from it, so names with one key share a list.

What a registry lists under a key are the values of all names with that key, in the order of
their registration (`Registry.getElem?_of`). These are the values of one of the names exactly
when no other name with that key was registered (`listedFor_eq_iff`).
-/

namespace Ick

/-- The values of the names of a kind, in order. -/
def listedFor {ν β : Type*} (P : ν → Prop) [DecidablePred P] (entries : List (ν × β)) : List β :=
  (entries.filter fun e => P e.1).map Prod.snd

section ListedFor

variable {ν β : Type*} {P Q : ν → Prop} [DecidablePred P] [DecidablePred Q]
  {entries : List (ν × β)}

theorem listedFor_snoc (entries : List (ν × β)) (e : ν × β) :
    listedFor P (entries ++ [e]) = listedFor P entries ++ if P e.1 then [e.2] else [] := by
  unfold listedFor
  rw [List.filter_append, List.map_append]
  by_cases h : P e.1 <;> simp [h]

theorem mem_listedFor {b : β} : b ∈ listedFor P entries ↔ ∃ n, P n ∧ (n, b) ∈ entries := by
  unfold listedFor
  simp [and_comm]

theorem listedFor_eq_nil : listedFor P entries = [] ↔ ∀ e ∈ entries, ¬P e.1 := by
  simp [listedFor, List.filter_eq_nil_iff]

/-- A narrower kind has the same values exactly when no entry tells the two apart. -/
theorem listedFor_eq_iff (h : ∀ n, Q n → P n) :
    listedFor P entries = listedFor Q entries ↔ ∀ e ∈ entries, P e.1 → Q e.1 := by
  induction entries using List.reverseRecOn with
  | nil => simp [listedFor]
  | append_singleton entries e ih =>
    rw [listedFor_snoc, listedFor_snoc, List.forall_mem_append, List.forall_mem_singleton, ← ih]
    have hlength : (listedFor Q entries).length ≤ (listedFor P entries).length := by
      simp only [listedFor, List.length_map]
      rw [← List.countP_eq_length_filter, ← List.countP_eq_length_filter]
      exact List.countP_mono_left fun e _ he => by simpa using h e.1 (by simpa using he)
    by_cases hQ : Q e.1
    · simp [hQ, h _ hQ]
    · by_cases hP : P e.1
      · simp only [hP, hQ, if_true, if_false, List.append_nil, imp_false, not_true_eq_false,
          and_false, iff_false]
        intro heq
        have := congrArg List.length heq
        rw [List.length_append, List.length_singleton] at this
        omega
      · simp [hP, hQ]

end ListedFor

/-- Lists of values by keys. -/
abbrev Registry (κ β : Type*) [Ord κ] := Std.TreeMap κ (List β)

namespace Registry

variable {ν κ β : Type*} [Ord κ]

/-- One more value under a key, in a new list if the key has none. -/
def enlist (registry : Registry κ β) (k : κ) (b : β) : Registry κ β :=
  match registry[k]? with
  | some values => registry.insert k (values ++ [b])
  | none => registry.insert k [b]

/-- The registry of a list of entries. -/
def of (key : ν → κ) (entries : List (ν × β)) : Registry κ β :=
  entries.foldl (fun registry e => registry.enlist (key e.1) e.2) ∅

theorem of_snoc (key : ν → κ) (entries : List (ν × β)) (e : ν × β) :
    of key (entries ++ [e]) = (of key entries).enlist (key e.1) e.2 := by
  simp [of]

variable [Std.TransOrd κ] [Std.LawfulEqOrd κ] [DecidableEq κ]

theorem getElem?_enlist (registry : Registry κ β) (k k' : κ) (b : β) :
    (registry.enlist k b)[k']? =
      if k = k' then some (registry.getD k [] ++ [b]) else registry[k']? := by
  unfold enlist
  rw [Std.TreeMap.getD_eq_getD_getElem?]
  cases registry[k]? <;>
    simp only [Std.TreeMap.getElem?_insert, Std.compare_eq_iff_eq] <;> rfl

/-- A registry lists under a key the values of the names with that key, if there are any. -/
theorem getElem?_of (key : ν → κ) (entries : List (ν × β)) (k : κ) :
    (of key entries)[k]? =
      if listedFor (key · = k) entries = [] then none
      else some (listedFor (key · = k) entries) := by
  induction entries using List.reverseRecOn with
  | nil => exact Std.TreeMap.getElem?_emptyc
  | append_singleton entries e ih =>
    rw [of_snoc, getElem?_enlist, listedFor_snoc, Std.TreeMap.getD_eq_getD_getElem?]
    by_cases h : key e.1 = k
    · subst h
      rw [ih]
      split_ifs with hnil <;> simp_all
    · simpa [h] using ih

theorem getD_of (key : ν → κ) (entries : List (ν × β)) (k : κ) :
    (of key entries).getD k [] = listedFor (key · = k) entries := by
  rw [Std.TreeMap.getD_eq_getD_getElem?, getElem?_of]
  split_ifs with hnil
  · exact hnil.symm
  · rfl

end Registry

end Ick
