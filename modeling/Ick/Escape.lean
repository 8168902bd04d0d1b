import Mathlib.Data.List.Basic
import Mathlib.Data.List.Infix
import Mathlib.Tactic.Cases
import Mathlib.Tactic.SplitIfs

/-!
# Escapes

Some elements of a text have a meaning to its reader. An escape writes such an element as
three others, a mark and a code of two. Encoding replaces the elements by their escapes, and
decoding replaces every escape that it finds, whether the encoder has written it or not. So
decoding undoes encoding on the texts that contain no escape, and on no others
(`decode_encode_iff`).
-/

namespace Ick

/-- A set of escapes : the mark, and the codes of the elements that have one. -/
structure Escapes (α : Type*) where
  mark : α
  code : α → Option (α × α)
  /-- The element with a code. -/
  elem : α → α → Option α
  elem_eq_some : ∀ {x y c}, elem x y = some c ↔ code c = some (x, y)
  code_mark : code mark = none
  /-- Neither half of a code is the mark or has a code. -/
  plain_fst : ∀ {x y c}, code c = some (x, y) → x ≠ mark ∧ code x = none
  plain_snd : ∀ {x y c}, code c = some (x, y) → y ≠ mark ∧ code y = none

namespace Escapes

variable {α : Type*} [DecidableEq α] (E : Escapes α)

/-- An element, or its escape. -/
def encodeElem (c : α) : List α :=
  match E.code c with
  | some (x, y) => [E.mark, x, y]
  | none => [c]

/-- Every element with a code is replaced by its escape. -/
def encode (v : List α) : List α := v.flatMap E.encodeElem

/-- Every escape is replaced by its element, from the front. -/
def decode : List α → List α
  | c :: x :: y :: rest =>
    match if c = E.mark then E.elem x y else none with
    | some d => d :: decode rest
    | none => c :: decode (x :: y :: rest)
  | c :: rest => c :: decode rest
  | [] => []

/-- The text contains an escape. -/
def Contains (v : List α) : Prop :=
  ∃ x y c, E.code c = some (x, y) ∧ [E.mark, x, y] <:+: v

variable {E} {v w : List α} {c d x y : α}

omit [DecidableEq α] in
theorem encode_cons : E.encode (c :: v) = E.encodeElem c ++ E.encode v := rfl

theorem decode_escape (h : E.code c = some (x, y)) (rest : List α) :
    E.decode (E.mark :: x :: y :: rest) = c :: E.decode rest := by
  rw [decode, if_pos rfl, E.elem_eq_some.2 h]

/-- An element that begins no escape is left as it is. -/
theorem decode_cons (h : ∀ x y d, E.code d = some (x, y) → ¬[E.mark, x, y] <+: c :: v) :
    E.decode (c :: v) = c :: E.decode v := by
  match v with
  | [] => rfl
  | [x] => rfl
  | x :: y :: rest =>
    have hnone : (if c = E.mark then E.elem x y else none) = none := by
      rw [ite_eq_right_iff]
      rintro rfl
      cases hd : E.elem x y with
      | none => rfl
      | some d => exact absurd ⟨rest, rfl⟩ (h x y d (E.elem_eq_some.1 hd))
    rw [decode, hnone]

/-- A text begins with an escape, or its first element is left as it is. -/
theorem decode_cases (c : α) (v : List α) :
    (∃ x y d rest, E.code d = some (x, y) ∧ c :: v = E.mark :: x :: y :: rest ∧
      E.decode (c :: v) = d :: E.decode rest) ∨
    ((∀ x y d, E.code d = some (x, y) → ¬[E.mark, x, y] <+: c :: v) ∧
      E.decode (c :: v) = c :: E.decode v) := by
  by_cases h : ∃ x y d, E.code d = some (x, y) ∧ [E.mark, x, y] <+: c :: v
  · obtain ⟨x, y, d, hd, rest, hrest⟩ := h
    exact Or.inl ⟨x, y, d, rest, hd, hrest.symm, by rw [← hrest]; exact decode_escape hd rest⟩
  · simp only [not_exists, not_and] at h
    exact Or.inr ⟨h, decode_cons h⟩

/-- Induction along the decoding of a text. -/
@[elab_as_elim]
theorem decode_rec {P : List α → Prop} (nil : P [])
    (escape : ∀ x y d rest, E.code d = some (x, y) → P rest → P (E.mark :: x :: y :: rest))
    (plain : ∀ c v, E.decode (c :: v) = c :: E.decode v →
      (∀ x y d, E.code d = some (x, y) → ¬[E.mark, x, y] <+: c :: v) → P v → P (c :: v))
    (v : List α) : P v := by
  induction hn : v.length using Nat.strong_induction_on generalizing v with
  | _ n ih =>
    subst hn
    cases v with
    | nil => exact nil
    | cons c v =>
      rcases decode_cases (E := E) c v with ⟨x, y, d, rest, hd, hrest, -⟩ | ⟨hnone, heq⟩
      · rw [hrest]
        refine escape x y d rest hd (ih rest.length ?_ rest rfl)
        rw [hrest]
        simp only [List.length_cons]
        omega
      · exact plain c v heq hnone (ih v.length (by simp) v rfl)

omit [DecidableEq α] in
/-- A plain element at the front of an encoding is one of the text. -/
theorem exists_of_encode_eq_cons {r : List α} (hx : x ≠ E.mark) (h : E.encode v = x :: r) :
    ∃ v', v = x :: v' ∧ E.encode v' = r := by
  cases v with
  | nil => cases h
  | cons c v =>
    rw [encode_cons, encodeElem] at h
    cases hc : E.code c with
    | some code =>
      rw [hc] at h
      exact absurd (List.cons.inj h).1.symm hx
    | none =>
      rw [hc] at h
      obtain ⟨rfl, hr⟩ := List.cons.inj h
      exact ⟨v, rfl, hr⟩

/-- Decoding undoes encoding on a text that contains no escape. -/
theorem decode_encode (h : ¬E.Contains v) : E.decode (E.encode v) = v := by
  induction v with
  | nil => rfl
  | cons c v ih =>
    have hv : ¬E.Contains v := fun ⟨x, y, d, hd, hin⟩ =>
      h ⟨x, y, d, hd, hin.trans (List.suffix_cons _ _).isInfix⟩
    rw [encode_cons, encodeElem]
    cases hc : E.code c with
    | some code =>
      obtain ⟨x, y⟩ := code
      exact (decode_escape hc _).trans (congrArg (c :: ·) (ih hv))
    | none =>
      refine (decode_cons fun x y d hd hpre => ?_).trans (congrArg (c :: ·) (ih hv))
      -- an escape at the front would be one of the text
      obtain ⟨rest, hrest⟩ := hpre
      obtain ⟨rfl, htail⟩ := List.cons.inj hrest
      obtain ⟨v₁, rfl, hv₁⟩ := exists_of_encode_eq_cons (E.plain_fst hd).1 htail.symm
      obtain ⟨v₂, rfl, -⟩ := exists_of_encode_eq_cons (E.plain_snd hd).1 hv₁
      exact h ⟨x, y, d, hd, [], v₂, rfl⟩

/-- A plain element at the front of a decoding is one of the text. -/
theorem exists_of_decode_eq_cons {r : List α} (hx : E.code x = none) (h : E.decode v = x :: r) :
    ∃ v', v = x :: v' ∧ E.decode v' = r := by
  cases v with
  | nil => cases h
  | cons c v =>
    rcases decode_cases (E := E) c v with ⟨x', y', d, rest, hd, -, heq⟩ | ⟨-, heq⟩
    · rw [heq] at h
      rw [← (List.cons.inj h).1, hd] at hx
      cases hx
    · rw [heq] at h
      obtain ⟨rfl, hr⟩ := List.cons.inj h
      exact ⟨v, rfl, hr⟩

/-- A decoding contains no escape. -/
theorem not_contains_decode (v : List α) : ¬E.Contains (E.decode v) := by
  rintro ⟨x, y, c, hc, hin⟩
  induction v using E.decode_rec with
  | nil => simp [decode] at hin
  | escape x' y' d rest hd ih =>
    rw [decode_escape hd, List.infix_cons_iff] at hin
    rcases hin with ⟨r, hr⟩ | hin
    · rw [← (List.cons.inj hr).1, E.code_mark] at hd
      cases hd
    · exact ih hin
  | plain a v heq hnone ih =>
    rw [heq, List.infix_cons_iff] at hin
    rcases hin with ⟨r, hr⟩ | hin
    · obtain ⟨rfl, htail⟩ := List.cons.inj hr
      obtain ⟨v₁, rfl, hv₁⟩ := exists_of_decode_eq_cons (E.plain_fst hc).2 htail.symm
      obtain ⟨v₂, rfl, -⟩ := exists_of_decode_eq_cons (E.plain_snd hc).2 hv₁
      exact hnone x y c hc ⟨v₂, rfl⟩
    · exact ih hin

/-- Decoding undoes encoding exactly on the texts that contain no escape. -/
theorem decode_encode_iff : E.decode (E.encode v) = v ↔ ¬E.Contains v := by
  refine ⟨fun h => ?_, decode_encode⟩
  rw [← h]
  exact not_contains_decode _

/-! ## Elements and ends -/

/-- An element of a decoding has a code or is one of the text. -/
theorem mem_of_mem_decode (h : x ∈ E.decode v) : E.code x ≠ none ∨ x ∈ v := by
  induction v using E.decode_rec with
  | nil => exact absurd h List.not_mem_nil
  | escape x' y' d rest hd ih =>
    rw [decode_escape hd] at h
    rcases List.mem_cons.1 h with rfl | h
    · exact Or.inl (by simp [hd])
    · exact (ih h).imp_right fun h => by simp [h]
  | plain a v heq _ ih =>
    rw [heq] at h
    rcases List.mem_cons.1 h with rfl | h
    · exact Or.inr List.mem_cons_self
    · exact (ih h).imp_right (List.mem_cons_of_mem _)

theorem decode_eq_nil : E.decode v = [] ↔ v = [] := by
  cases v with
  | nil => exact iff_of_true rfl rfl
  | cons c v =>
    refine iff_of_false (fun h => ?_) (List.cons_ne_nil _ _)
    rcases decode_cases (E := E) c v with ⟨x, y, d, rest, -, -, heq⟩ | ⟨-, heq⟩ <;>
      · rw [heq] at h
        cases h

/-- The first element of a decoding has a code or is that of the text. -/
theorem head?_decode (h : (E.decode v).head? = some x) (hx : E.code x = none) :
    v.head? = some x := by
  obtain ⟨r, hr⟩ := List.head?_eq_some_iff.1 h
  obtain ⟨v', rfl, -⟩ := exists_of_decode_eq_cons hx hr
  rfl

/-- The last element of a decoding has a code or is that of the text. -/
theorem getLast?_decode (h : (E.decode v).getLast? = some x) (hx : E.code x = none) :
    v.getLast? = some x := by
  induction v using E.decode_rec with
  | nil => exact h
  | escape x' y' d rest hd ih =>
    rw [decode_escape hd] at h
    by_cases hrest : E.decode rest = []
    · rw [hrest, List.getLast?_singleton] at h
      rw [← Option.some.inj h, hd] at hx
      cases hx
    · rw [List.getLast?_cons_of_ne_nil hrest] at h
      have hne : rest ≠ [] := fun hnil => hrest (decode_eq_nil.2 hnil)
      rw [List.getLast?_cons_of_ne_nil (List.cons_ne_nil _ _),
        List.getLast?_cons_of_ne_nil (List.cons_ne_nil _ _), List.getLast?_cons_of_ne_nil hne]
      exact ih h
  | plain a v heq _ ih =>
    rw [heq] at h
    by_cases hv : v = []
    · rw [hv] at h ⊢
      exact h
    · rw [List.getLast?_cons_of_ne_nil (mt decode_eq_nil.1 hv)] at h
      rw [List.getLast?_cons_of_ne_nil hv]
      exact ih h

omit [DecidableEq α] in
theorem encode_append (v w : List α) : E.encode (v ++ w) = E.encode v ++ E.encode w :=
  List.flatMap_append

omit [DecidableEq α] in
theorem encodeElem_of_none (h : E.code c = none) : E.encodeElem c = [c] := by
  rw [encodeElem, h]

omit [DecidableEq α] in
/-- An element of an encoding is a mark or half of a code, or a plain one of the text. -/
theorem mem_of_mem_encode (h : x ∈ E.encode v) :
    (∃ c a b, E.code c = some (a, b) ∧ x ∈ [E.mark, a, b]) ∨ (x ∈ v ∧ E.code x = none) := by
  obtain ⟨c, hc, hx⟩ := List.mem_flatMap.1 h
  rw [encodeElem] at hx
  cases hcode : E.code c with
  | some code =>
    rw [hcode] at hx
    exact Or.inl ⟨c, code.1, code.2, hcode, hx⟩
  | none =>
    rw [hcode] at hx
    obtain rfl := List.mem_singleton.1 hx
    exact Or.inr ⟨hc, hcode⟩

omit [DecidableEq α] in
/-- A plain element that is no half of a code ends an encoding exactly if it ends the text. -/
theorem getLast?_encode (hx : E.code x = none) (hcode : ∀ c a, E.code c ≠ some (a, x)) :
    (E.encode v).getLast? = some x ↔ v.getLast? = some x := by
  rcases List.eq_nil_or_concat v with rfl | ⟨v, c, rfl⟩
  · exact Iff.rfl
  · rw [List.concat_eq_append, encode_append, List.getLast?_concat]
    have hsingle : E.encode [c] = E.encodeElem c := List.append_nil _
    rw [hsingle, encodeElem]
    cases hc : E.code c with
    | some code =>
      obtain ⟨a, b⟩ := code
      rw [List.getLast?_append_of_ne_nil _ (List.cons_ne_nil _ _)]
      refine iff_of_false (fun h => ?_) (fun h => ?_)
      · obtain rfl := Option.some.inj h
        exact hcode c a hc
      · rw [Option.some.inj h, hx] at hc
        cases hc
    | none => rw [List.getLast?_concat]

omit [DecidableEq α] in
/-- A plain element begins an encoding exactly if it begins the text. -/
theorem head?_encode (hx : E.code x = none) (hmark : x ≠ E.mark) :
    (E.encode v).head? = some x ↔ v.head? = some x := by
  constructor
  · intro h
    obtain ⟨r, hr⟩ := List.head?_eq_some_iff.1 h
    obtain ⟨v', rfl, -⟩ := exists_of_encode_eq_cons hmark hr
    rfl
  · intro h
    obtain ⟨r, rfl⟩ := List.head?_eq_some_iff.1 h
    rw [encode_cons, encodeElem_of_none hx]
    rfl

omit [DecidableEq α] in
theorem encode_eq_nil : E.encode v = [] ↔ v = [] := by
  cases v with
  | nil => exact iff_of_true rfl rfl
  | cons c v =>
    refine iff_of_false (fun h => ?_) (List.cons_ne_nil _ _)
    rw [encode_cons, encodeElem] at h
    cases hc : E.code c <;> rw [hc] at h <;> cases h

omit [DecidableEq α] in
/-- The encoding of no other text is a lone mark. -/
theorem encode_eq_mark : E.encode v = [E.mark] ↔ v = [E.mark] := by
  constructor
  · intro h
    cases v with
    | nil => cases h
    | cons c v =>
      rw [encode_cons, encodeElem] at h
      cases hc : E.code c with
      | some code =>
        rw [hc] at h
        cases (List.cons.inj h).2
      | none =>
        rw [hc] at h
        obtain ⟨rfl, hv⟩ := List.cons.inj h
        rw [encode_eq_nil.1 hv]
  · rintro rfl
    rw [encode_cons, encodeElem_of_none E.code_mark]
    rfl

/-- The decoding of no other text is a lone mark. -/
theorem decode_eq_mark : E.decode v = [E.mark] ↔ v = [E.mark] := by
  constructor
  · intro h
    obtain ⟨v', rfl, hv'⟩ := exists_of_decode_eq_cons E.code_mark h
    rw [decode_eq_nil.1 hv']
  · rintro rfl
    rfl

/-- A text without marks is its own decoding. -/
theorem decode_of_notMem (h : E.mark ∉ v) : E.decode v = v := by
  induction v with
  | nil => rfl
  | cons c v ih =>
    rw [decode_cons, ih fun hv => h (List.mem_cons_of_mem _ hv)]
    rintro x y d - ⟨r, hr⟩
    exact h ((List.cons.inj hr).1 ▸ List.mem_cons_self)

end Escapes

end Ick
