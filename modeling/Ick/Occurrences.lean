import Mathlib.Data.List.Infix

/-!
# Occurrences in a text

`find` looks for the first place where one list occurs in another. From left to right the
occurrences that do not overlap cut a list into pieces : `Cuts` are the pieces that are
between them, of which each ends where the next occurrence begins, and the last one contains
none. Every list has exactly one such cut (`exists_cuts`, `Cuts.unique`), and with the
occurrences put back between its pieces it is the list again (`Cuts.intercalate`).
-/

set_option linter.unusedSectionVars false

namespace Ick.Occurrences

variable {α : Type*} [DecidableEq α]

/-- Where `src` occurs first. -/
def find (src : List α) : List α → Option ℕ
  | [] => if src = [] then some 0 else none
  | x :: s => if src <+: x :: s then some 0 else (find src s).map (· + 1)

variable {src : List α}

/-- Behind `a` the list `src` occurs for the first time. -/
def First (src a b : List α) : Prop :=
  ∀ n < a.length, ¬src <+: (a ++ (src ++ b)).drop n

theorem First.tail {x : α} {a b : List α} (h : First src (x :: a) b) : First src a b :=
  fun n hn => h (n + 1) (Nat.succ_lt_succ hn)

theorem find_of_prefix {s : List α} (h : src <+: s) : find src s = some 0 := by
  cases s with
  | nil => rw [find, if_pos (List.prefix_nil.1 h)]
  | cons x s => rw [find, if_pos h]

theorem find_eq_none {s : List α} (h : ¬src <:+: s) : find src s = none := by
  induction s with
  | nil =>
    rw [find, if_neg]
    rintro rfl
    exact h (List.nil_infix)
  | cons x s ih =>
    have hfront : ¬src <+: x :: s := fun hp => h hp.isInfix
    have htail : ¬src <:+: s := fun hs => h (hs.trans (List.suffix_cons x s).isInfix)
    rw [find, if_neg hfront, ih htail, Option.map_none]

theorem find_first {a b : List α} (h : First src a b) :
    find src (a ++ (src ++ b)) = some a.length := by
  induction a with
  | nil => exact find_of_prefix (List.prefix_append _ _)
  | cons x a ih =>
    have hhead : ¬src <+: x :: (a ++ (src ++ b)) := h 0 (Nat.succ_pos _)
    rw [List.cons_append, find, if_neg hhead, ih h.tail]
    rfl

/-- A list that occurs occurs first somewhere. -/
theorem exists_first {s : List α} (h : src <:+: s) :
    ∃ a b, s = a ++ (src ++ b) ∧ First src a b := by
  induction s with
  | nil =>
    obtain rfl := List.infix_nil.1 h
    exact ⟨[], [], rfl, fun n hn => absurd hn (Nat.not_lt_zero n)⟩
  | cons x s ih =>
    by_cases hfront : src <+: x :: s
    · obtain ⟨b, hb⟩ := hfront
      exact ⟨[], b, hb.symm, fun n hn => absurd hn (Nat.not_lt_zero n)⟩
    · obtain ⟨a, b, rfl, hfirst⟩ := ih ((List.infix_cons_iff.1 h).resolve_left hfront)
      refine ⟨x :: a, b, rfl, fun n hn => ?_⟩
      cases n with
      | zero => exact hfront
      | succ n => exact hfirst n (Nat.lt_of_succ_lt_succ hn)

/-- The pieces of a list between the occurrences of `src`. -/
inductive Cuts (src : List α) : List α → List (List α) → Prop
  | last {s : List α} (h : ¬src <:+: s) : Cuts src s [s]
  | cut {a b : List α} {pieces : List (List α)} (h : First src a b) (hb : Cuts src b pieces) :
    Cuts src (a ++ (src ++ b)) (a :: pieces)

theorem Cuts.ne_nil {s : List α} {pieces : List (List α)} (h : Cuts src s pieces) :
    pieces ≠ [] := by
  cases h <;> exact List.cons_ne_nil _ _

theorem Cuts.intercalate {s : List α} {pieces : List (List α)} (h : Cuts src s pieces) :
    src.intercalate pieces = s := by
  induction h with
  | last _ => exact List.intercalate_singleton
  | cut _ hb ih =>
    rw [List.intercalate_cons_of_ne_nil hb.ne_nil, ih, List.append_assoc]

/-- Every list is cut, by induction on its length : behind an occurrence less is left. -/
theorem exists_cuts (hsrc : src ≠ []) {n : ℕ} : ∀ {s : List α}, s.length ≤ n →
    ∃ pieces, Cuts src s pieces := by
  have hpos := List.length_pos_iff.2 hsrc
  induction n with
  | zero =>
    intro s hs
    refine ⟨[s], .last fun h => ?_⟩
    have := h.length_le
    omega
  | succ n ih =>
    intro s hs
    by_cases h : src <:+: s
    · obtain ⟨a, b, rfl, hfirst⟩ := exists_first h
      simp only [List.length_append] at hs
      obtain ⟨pieces, hb⟩ := ih (show b.length ≤ n by omega)
      exact ⟨a :: pieces, .cut hfirst hb⟩
    · exact ⟨[s], .last h⟩

theorem Cuts.unique {s : List α} {pieces pieces' : List (List α)} (h : Cuts src s pieces)
    (h' : Cuts src s pieces') : pieces = pieces' := by
  induction h generalizing pieces' with
  | last hs =>
    cases h' with
    | last _ => rfl
    | cut _ _ => exact absurd ⟨_, _, List.append_assoc _ _ _⟩ hs
  | @cut a b pieces hfirst hb ih =>
    generalize hs : a ++ (src ++ b) = s at h'
    cases h' with
    | last hnone => exact absurd ⟨_, _, (List.append_assoc _ _ _).trans hs⟩ hnone
    | @cut a' b' pieces' hfirst' hb' =>
      have hlen : a.length = a'.length := by
        have hfind := find_first hfirst
        rw [hs, find_first hfirst', Option.some.injEq] at hfind
        exact hfind.symm
      obtain ⟨rfl, hrest⟩ := List.append_inj hs hlen
      rw [List.append_cancel_left hrest] at ih
      rw [ih hb']

end Ick.Occurrences
