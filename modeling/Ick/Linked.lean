import Mathlib.Data.List.Nodup
import Mathlib.Data.Set.Insert

/-!
# Singly linked lists

A linked list is a function `next`, the node behind each node or `none`, and a first node, `none`
if there is none. `Linked next start nodes` says that the nodes from `start` on are `nodes`, and
`Endless next start` that there is always another one. `follow` goes through a list in a number of
turns, and `search` stops at the first node with a property; `none` is that the turns do not
suffice.

A node that is put in front of a list makes a longer list if it is not in it (`Linked.insert`), and
a list without an end if it is (`Linked.endless_insert`). A list without an end stays so
(`Endless.insert`).
-/

set_option linter.unusedSectionVars false

namespace Ick

variable {α : Type*}

/-- The nodes from `start` on. -/
inductive Linked (next : α → Option α) : Option α → List α → Prop
  | nil : Linked next none []
  | cons {a : α} {nodes : List α} (h : Linked next (next a) nodes) :
    Linked next (some a) (a :: nodes)

/-- From `start` on there is always another node. -/
def Endless (next : α → Option α) (start : Option α) : Prop :=
  ∃ nodes : Set α, (∃ a ∈ nodes, start = some a) ∧ ∀ a ∈ nodes, ∃ b ∈ nodes, next a = some b

/-- The nodes from `start` on, if there are not more of them than turns. -/
def follow (next : α → Option α) : ℕ → Option α → Option (List α)
  | _, none => some []
  | 0, some _ => none
  | turns + 1, some a => (follow next turns (next a)).map (a :: ·)

/-- The first node from `start` on with a property, if the turns suffice to know. -/
def search (next : α → Option α) (p : α → Bool) : ℕ → Option α → Option (Option α)
  | _, none => some none
  | 0, some _ => none
  | turns + 1, some a => if p a then some (some a) else search next p turns (next a)

variable {next : α → Option α} {start : Option α} {nodes : List α} {turns : ℕ}

/-! ## Lists with an end -/

namespace Linked

theorem follow_eq (h : Linked next start nodes) (hturns : nodes.length ≤ turns) :
    follow next turns start = some nodes := by
  induction h generalizing turns with
  | nil => cases turns <;> rfl
  | cons _ ih =>
    obtain ⟨turns, rfl⟩ := Nat.exists_eq_add_of_le' (Nat.le_trans (Nat.le_add_left 1 _) hturns)
    rw [follow, ih (Nat.le_of_succ_le_succ hturns), Option.map_some]

theorem search_eq (h : Linked next start nodes) (p : α → Bool) (hturns : nodes.length ≤ turns) :
    search next p turns start = some (nodes.find? p) := by
  induction h generalizing turns with
  | nil => cases turns <;> rfl
  | @cons a nodes _ ih =>
    obtain ⟨turns, rfl⟩ := Nat.exists_eq_add_of_le' (Nat.le_trans (Nat.le_add_left 1 _) hturns)
    rw [search, ih (Nat.le_of_succ_le_succ hturns), List.find?_cons]
    cases p a <;> rfl

/-- A node before `a` is followed by one before `a`, or by `a`. -/
theorem next_mem {pre post : List α} {a : α} (h : Linked next start (pre ++ a :: post)) :
    (∃ b ∈ pre ++ [a], start = some b) ∧ ∀ b ∈ pre, ∃ c ∈ pre ++ [a], next b = some c := by
  induction pre generalizing start with
  | nil =>
    cases h with
    | cons _ => exact ⟨⟨a, List.mem_singleton_self a, rfl⟩, nofun⟩
  | cons x pre ih =>
    cases h with
    | cons h =>
      obtain ⟨⟨y, hy, hnext⟩, hpre⟩ := ih h
      refine ⟨⟨x, List.mem_cons_self, rfl⟩, List.forall_mem_cons.2 ⟨?_, fun b hb => ?_⟩⟩
      · exact ⟨y, List.mem_cons_of_mem _ hy, hnext⟩
      · obtain ⟨c, hc, hb⟩ := hpre b hb
        exact ⟨c, List.mem_cons_of_mem _ hc, hb⟩

variable [DecidableEq α] {a : α}

/-- The link of a node that is not in the list does not matter. -/
theorem update (h : Linked next start nodes) (ha : a ∉ nodes) (b : Option α) :
    Linked (Function.update next a b) start nodes := by
  induction h with
  | nil => exact .nil
  | @cons x nodes _ ih =>
    rw [List.mem_cons, not_or] at ha
    refine .cons ?_
    rw [Function.update_of_ne (Ne.symm ha.1)]
    exact ih ha.2

/-- A new node in front of a list. -/
theorem insert (h : Linked next start nodes) (ha : a ∉ nodes) :
    Linked (Function.update next a start) (some a) (a :: nodes) := by
  refine .cons ?_
  rw [Function.update_self]
  exact h.update ha start

/-- A node of the list in front of it : the nodes up to that one go round. -/
theorem endless_insert (h : Linked next start nodes) (ha : a ∈ nodes) :
    Endless (Function.update next a start) (some a) := by
  obtain ⟨pre, post, rfl, hpre⟩ := List.eq_append_cons_of_mem ha
  obtain ⟨⟨b, hb, hstart⟩, hnext⟩ := h.next_mem
  refine ⟨{x | x ∈ pre ++ [a]}, ⟨a, List.mem_concat_self, rfl⟩, fun x hx => ?_⟩
  rcases List.mem_append.1 hx with hx | hx
  · have hne : x ≠ a := fun heq => hpre (heq ▸ hx)
    rw [Function.update_of_ne hne]
    exact hnext x hx
  · rw [List.mem_singleton.1 hx, Function.update_self]
    exact ⟨b, hb, hstart⟩

end Linked

/-! ## Lists without an end -/

namespace Endless

theorem follow_eq_none (h : Endless next start) (turns : ℕ) : follow next turns start = none := by
  obtain ⟨nodes, hstart, hnext⟩ := h
  induction turns generalizing start with
  | zero =>
    obtain ⟨a, -, rfl⟩ := hstart
    rfl
  | succ turns ih =>
    obtain ⟨a, ha, rfl⟩ := hstart
    rw [follow, ih (hnext a ha), Option.map_none]

/-- A search for what no node is does not end. -/
theorem search_eq_none (h : Endless next start) {p : α → Bool} (hp : ∀ a, p a = false)
    (turns : ℕ) : search next p turns start = none := by
  obtain ⟨nodes, hstart, hnext⟩ := h
  induction turns generalizing start with
  | zero =>
    obtain ⟨a, -, rfl⟩ := hstart
    rfl
  | succ turns ih =>
    obtain ⟨a, ha, rfl⟩ := hstart
    rw [search, hp, if_neg Bool.false_ne_true, ih (hnext a ha)]

/-- A node in front. -/
theorem insert [DecidableEq α] (h : Endless next start) (a : α) :
    Endless (Function.update next a start) (some a) := by
  obtain ⟨nodes, ⟨b, hb, hstart⟩, hnext⟩ := h
  refine ⟨Insert.insert a nodes, ⟨a, Set.mem_insert a nodes, rfl⟩, fun x hx => ?_⟩
  by_cases hxa : x = a
  · rw [hxa, Function.update_self]
    exact ⟨b, Set.mem_insert_of_mem a hb, hstart⟩
  · obtain ⟨c, hc, hxc⟩ := hnext x (Set.mem_of_mem_insert_of_ne hx hxa)
    rw [Function.update_of_ne hxa]
    exact ⟨c, Set.mem_insert_of_mem a hc, hxc⟩

end Endless

end Ick
