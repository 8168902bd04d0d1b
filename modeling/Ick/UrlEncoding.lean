import Ick.Unicode
import Mathlib.Data.Set.Function
import Mathlib.Tactic.SplitIfs

/-!
# URL encoding

`Converter::encodeUrl` writes a blank as `+` and a byte from 0x80 on, a negative `char`, as
`%` and its two hexadecimal digits. All other bytes stay as they are, also `+` and `%`, so
that what the encoder puts in can stand in the text as well. The index is an `int`, which overflows
at the end of a text of `2 ^ 31` bytes or more.

`Respelled` are the texts that differ only in this : a blank for a `+`, and a high byte for
the three bytes of its escape. These are exactly the texts with the same encoding
(`encodeBytes_eq_iff`), so that two texts are told apart exactly if they are not, and the index does
not overflow (`separates_iff`). Among texts without `+` and `%` no two have the same encoding
(`encodeBytes_injOn`).
-/

namespace Ick.UrlEncoding

open Converter (intMax)

/-- `' '` -/
def blank : UInt8 := 32

/-- `'+'` -/
def plus : UInt8 := 43

/-- `'%'` -/
def percent : UInt8 := 37

/-- The `char` of a hexadecimal digit. -/
def hexDigit (data : ℕ) : UInt8 :=
  UInt8.ofNat (if data > 9 then data - 10 + 'A'.toNat else data + '0'.toNat)

/-- The escape of a byte. -/
def escape (data : UInt8) : List UInt8 :=
  [percent, hexDigit (data.toNat / 16), hexDigit (data.toNat % 16)]

/-- A turn of the loop of `encodeUrl`. A `char` is signed : `data >= 0` are the first 128. -/
def encodeByte (data : UInt8) : List UInt8 :=
  if data = blank then [plus]
  else if data < 128 then [data]
  else escape data

/-- The loop of `encodeUrl`, with the index and the bytes from there on. There is no result where
the index overflows. -/
def encodeFrom : ℕ → List UInt8 → Option (List UInt8)
  | _, [] => some []
  | i, data :: str =>
    if intMax < i + 1 then none else (encodeFrom (i + 1) str).map (encodeByte data ++ ·)

/-- `encodeUrl` -/
def encodeUrl (str : List UInt8) : Option (List UInt8) := encodeFrom 0 str

/-- What `encodeUrl` writes where the index does not overflow. -/
def encodeBytes (str : List UInt8) : List UInt8 := str.flatMap encodeByte

/-- Texts that differ only in that one has a blank where the other has a `+`, and one a high
byte where the other has its escape. -/
inductive Respelled : List UInt8 → List UInt8 → Prop
  | nil : Respelled [] []
  | cons (c : UInt8) {s t : List UInt8} (h : Respelled s t) : Respelled (c :: s) (c :: t)
  | blankPlus {s t : List UInt8} (h : Respelled s t) : Respelled (blank :: s) (plus :: t)
  | plusBlank {s t : List UInt8} (h : Respelled s t) : Respelled (plus :: s) (blank :: t)
  | byteEscape {c : UInt8} (hc : 128 ≤ c) {s t : List UInt8} (h : Respelled s t) :
    Respelled (c :: s) (escape c ++ t)
  | escapeByte {c : UInt8} (hc : 128 ≤ c) {s t : List UInt8} (h : Respelled s t) :
    Respelled (escape c ++ s) (c :: t)

theorem Respelled.symm {s t : List UInt8} (h : Respelled s t) : Respelled t s := by
  induction h with
  | nil => exact .nil
  | cons c _ ih => exact .cons c ih
  | blankPlus _ ih => exact .plusBlank ih
  | plusBlank _ ih => exact .blankPlus ih
  | byteEscape hc _ ih => exact .escapeByte hc ih
  | escapeByte hc _ ih => exact .byteEscape hc ih

/-! ## One byte -/

theorem hexDigit_plain : ∀ d < 16, hexDigit d ≠ blank ∧ hexDigit d ≠ plus ∧
    hexDigit d ≠ percent ∧ hexDigit d < 128 := by
  decide

theorem hexDigit_inj : ∀ d < 16, ∀ e < 16, hexDigit d = hexDigit e → d = e := by
  decide

theorem escape_inj {c d : UInt8} (h : escape c = escape d) : c = d := by
  have hc := c.toNat_lt
  have hd := d.toNat_lt
  simp only [escape, List.cons.injEq, and_true, true_and] at h
  have hhigh := hexDigit_inj _ (by omega) _ (by omega) h.1
  have hlow := hexDigit_inj _ (by omega) _ (by omega) h.2
  exact UInt8.toNat_inj.1 (by omega)

theorem encodeByte_blank : encodeByte blank = [plus] := rfl

theorem encodeByte_of_lt {c : UInt8} (hne : c ≠ blank) (hlt : c < 128) : encodeByte c = [c] := by
  rw [encodeByte, if_neg hne, if_pos hlt]

theorem encodeByte_of_le {c : UInt8} (hc : 128 ≤ c) : encodeByte c = escape c := by
  have hne : c ≠ blank := by
    rintro rfl
    exact absurd hc (by decide)
  rw [encodeByte, if_neg hne, if_neg (UInt8.not_lt.2 hc)]

/-- A byte is a blank, stands for itself, or is escaped. -/
theorem encodeByte_cases (c : UInt8) :
    (c = blank ∧ encodeByte c = [plus]) ∨ (c ≠ blank ∧ c < 128 ∧ encodeByte c = [c]) ∨
      (128 ≤ c ∧ encodeByte c = escape c) := by
  by_cases hlt : c < 128
  · by_cases hc : c = blank
    · exact Or.inl ⟨hc, by rw [hc, encodeByte_blank]⟩
    · exact Or.inr (Or.inl ⟨hc, hlt, encodeByte_of_lt hc hlt⟩)
  · have hge := UInt8.not_lt.1 hlt
    exact Or.inr (Or.inr ⟨hge, encodeByte_of_le hge⟩)

/-! ## Texts -/

@[simp] theorem encodeBytes_nil : encodeBytes [] = [] := rfl

@[simp] theorem encodeBytes_cons (c : UInt8) (s : List UInt8) :
    encodeBytes (c :: s) = encodeByte c ++ encodeBytes s := rfl

theorem encodeBytes_append (s t : List UInt8) :
    encodeBytes (s ++ t) = encodeBytes s ++ encodeBytes t := List.flatMap_append

/-- An escape that stands in a text stays as it is. -/
theorem encodeBytes_escape (c : UInt8) : encodeBytes (escape c) = escape c := by
  have hc := c.toNat_lt
  obtain ⟨hblank, -, -, hlt⟩ := hexDigit_plain (c.toNat / 16) (by omega)
  obtain ⟨hblank', -, -, hlt'⟩ := hexDigit_plain (c.toNat % 16) (by omega)
  simp only [escape, encodeBytes_cons, encodeBytes_nil, encodeByte_of_lt hblank hlt,
    encodeByte_of_lt hblank' hlt', encodeByte_of_lt (c := percent) (by decide) (by decide),
    List.cons_append, List.nil_append]

theorem encodeBytes_eq_nil {s : List UInt8} (h : encodeBytes s = []) : s = [] := by
  cases s with
  | nil => rfl
  | cons c s =>
    rcases encodeByte_cases c with ⟨-, hc⟩ | ⟨-, -, hc⟩ | ⟨-, hc⟩ <;>
      rw [encodeBytes_cons, hc] at h <;> exact absurd h (List.cons_ne_nil _ _)

/-- Only `+` and `%` can stand for another byte than themselves. -/
theorem eq_cons_of_encodeBytes {s w : List UInt8} {x : UInt8} (hplus : x ≠ plus)
    (hpercent : x ≠ percent) (h : encodeBytes s = x :: w) :
    ∃ s', s = x :: s' ∧ encodeBytes s' = w := by
  cases s with
  | nil => cases h
  | cons c s =>
    rcases encodeByte_cases c with ⟨-, hc⟩ | ⟨-, -, hc⟩ | ⟨-, hc⟩ <;>
      rw [encodeBytes_cons, hc] at h
    · exact absurd (List.cons.inj h).1.symm hplus
    · obtain ⟨rfl, hw⟩ := List.cons.inj h
      exact ⟨s, rfl, hw⟩
    · exact absurd (List.cons.inj h).1.symm hpercent

theorem encodeBytes_eq_of_respelled {s t : List UInt8} (h : Respelled s t) :
    encodeBytes s = encodeBytes t := by
  induction h with
  | nil => rfl
  | cons c _ ih => rw [encodeBytes_cons, encodeBytes_cons, ih]
  | blankPlus _ ih => rw [encodeBytes_cons, encodeBytes_cons, ih]; rfl
  | plusBlank _ ih => rw [encodeBytes_cons, encodeBytes_cons, ih]; rfl
  | byteEscape hc _ ih =>
    rw [encodeBytes_cons, encodeBytes_append, encodeBytes_escape, encodeByte_of_le hc, ih]
  | escapeByte hc _ ih =>
    rw [encodeBytes_cons, encodeBytes_append, encodeBytes_escape, encodeByte_of_le hc, ih]

/-- What has the encoding of a text that begins with a high byte begins with that byte or
with its escape. -/
theorem cases_of_escape {c : UInt8} {s t : List UInt8}
    (h : encodeBytes t = escape c ++ encodeBytes s) :
    (∃ t', t = c :: t' ∧ encodeBytes s = encodeBytes t') ∨
      ∃ t', t = escape c ++ t' ∧ encodeBytes s = encodeBytes t' := by
  have hc := c.toNat_lt
  cases t with
  | nil => cases h
  | cons d t =>
    rcases encodeByte_cases d with ⟨-, hd⟩ | ⟨-, -, hd⟩ | ⟨-, hd⟩ <;>
      rw [encodeBytes_cons, hd] at h
    · exact absurd (List.cons.inj h).1 (by decide)
    · -- a `%` of the text, so the digits are of the text as well
      obtain ⟨hpct, hdigits⟩ := List.cons.inj h
      obtain ⟨-, hplus, hpercent, -⟩ := hexDigit_plain (c.toNat / 16) (by omega)
      obtain ⟨t₁, rfl, hlow⟩ := eq_cons_of_encodeBytes hplus hpercent hdigits
      obtain ⟨-, hplus, hpercent, -⟩ := hexDigit_plain (c.toNat % 16) (by omega)
      obtain ⟨t₂, rfl, hrest⟩ := eq_cons_of_encodeBytes hplus hpercent hlow
      exact Or.inr ⟨t₂, by rw [hpct]; rfl, hrest.symm⟩
    · obtain ⟨hescape, hrest⟩ := List.append_inj h rfl
      exact Or.inl ⟨t, by rw [escape_inj hescape], hrest.symm⟩

/-- Two first bytes that are not escaped, and what is behind them. -/
theorem respelled_cons_of_lt {c d : UInt8} {s t : List UInt8} (hc : c < 128) (hd : d < 128)
    (h : encodeBytes (c :: s) = encodeBytes (d :: t)) :
    encodeBytes s = encodeBytes t ∧ (Respelled s t → Respelled (c :: s) (d :: t)) := by
  rw [encodeBytes_cons, encodeBytes_cons] at h
  rcases encodeByte_cases c with ⟨rfl, hcode⟩ | ⟨-, -, hcode⟩ | ⟨hge, -⟩
  · rcases encodeByte_cases d with ⟨rfl, hcode'⟩ | ⟨-, -, hcode'⟩ | ⟨hge, -⟩
    · rw [hcode] at h
      exact ⟨(List.cons.inj h).2, .cons _⟩
    · rw [hcode, hcode'] at h
      obtain ⟨rfl, hrest⟩ := List.cons.inj h
      exact ⟨hrest, .blankPlus⟩
    · exact absurd hd (UInt8.not_lt.2 hge)
  · rcases encodeByte_cases d with ⟨rfl, hcode'⟩ | ⟨-, -, hcode'⟩ | ⟨hge, -⟩
    · rw [hcode, hcode'] at h
      obtain ⟨rfl, hrest⟩ := List.cons.inj h
      exact ⟨hrest, .plusBlank⟩
    · rw [hcode, hcode'] at h
      obtain ⟨rfl, hrest⟩ := List.cons.inj h
      exact ⟨hrest, .cons _⟩
    · exact absurd hd (UInt8.not_lt.2 hge)
  · exact absurd hc (UInt8.not_lt.2 hge)

/-- Texts with the same encoding, by induction on their lengths : one begins with a high byte,
or both with bytes that are not escaped. -/
theorem respelled_of_encodeBytes_eq {n : ℕ} : ∀ {s t : List UInt8}, s.length + t.length ≤ n →
    encodeBytes s = encodeBytes t → Respelled s t := by
  induction n with
  | zero =>
    intro s t hn _
    obtain rfl : s = [] := List.length_eq_zero_iff.1 (by omega)
    obtain rfl : t = [] := List.length_eq_zero_iff.1 (by omega)
    exact .nil
  | succ n ih =>
    intro s t hn h
    -- a high byte at the start of the first text
    have hhigh : ∀ {c : UInt8} {s t : List UInt8}, (c :: s).length + t.length ≤ n + 1 →
        128 ≤ c → encodeBytes (c :: s) = encodeBytes t → Respelled (c :: s) t := by
      intro c s t hn hc h
      rw [encodeBytes_cons, encodeByte_of_le hc] at h
      rw [List.length_cons] at hn
      rcases cases_of_escape h.symm with ⟨t, rfl, hrest⟩ | ⟨t, rfl, hrest⟩
      · exact .cons c (ih (by rw [List.length_cons] at hn; omega) hrest)
      · exact .byteEscape hc (ih (by rw [List.length_append] at hn; omega) hrest)
    cases s with
    | nil =>
      obtain rfl := encodeBytes_eq_nil h.symm
      exact .nil
    | cons c s =>
      cases t with
      | nil => exact absurd (encodeBytes_eq_nil h) (List.cons_ne_nil _ _)
      | cons d t =>
        by_cases hc : 128 ≤ c
        · exact hhigh hn hc h
        by_cases hd : 128 ≤ d
        · exact (hhigh (Nat.add_comm _ _ ▸ hn) hd h.symm).symm
        obtain ⟨hrest, hcons⟩ := respelled_cons_of_lt (UInt8.not_le.1 hc) (UInt8.not_le.1 hd) h
        simp only [List.length_cons] at hn
        exact hcons (ih (by omega) hrest)

theorem encodeBytes_eq_iff {s t : List UInt8} : encodeBytes s = encodeBytes t ↔ Respelled s t :=
  ⟨respelled_of_encodeBytes_eq le_rfl, encodeBytes_eq_of_respelled⟩

/-! ## The index -/

theorem encodeFrom_eq {str : List UInt8} {i : ℕ} (hi : i ≤ intMax) :
    encodeFrom i str = if i + str.length ≤ intMax then some (encodeBytes str) else none := by
  induction str generalizing i with
  | nil => exact (if_pos hi).symm
  | cons c str ih =>
    rw [encodeFrom, encodeBytes_cons, List.length_cons]
    by_cases hnext : i + 1 ≤ intMax
    · rw [if_neg (Nat.not_lt.2 hnext), ih hnext, Nat.add_right_comm, Nat.add_assoc]
      split_ifs <;> rfl
    · rw [if_pos (Nat.lt_of_not_le hnext), if_neg (by omega)]

theorem encodeUrl_eq (str : List UInt8) :
    encodeUrl str = if str.length ≤ intMax then some (encodeBytes str) else none := by
  rw [encodeUrl, encodeFrom_eq (Nat.zero_le _), Nat.zero_add]

/-- Both calls of `encodeUrl` return, with different texts. -/
def Separates (s t : List UInt8) : Prop :=
  ∃ u v, encodeUrl s = some u ∧ encodeUrl t = some v ∧ u ≠ v

/-- URL encoding. Two texts are told apart by their encodings exactly if they are not two
spellings that differ only in blanks for `+` and in bytes for their escapes, and an `int` can count
the bytes of both. -/
theorem separates_iff (s t : List UInt8) : (s ≠ t → Separates s t) ↔
    (s ≠ t → ¬Respelled s t ∧ s.length ≤ intMax ∧ t.length ≤ intMax) := by
  refine imp_congr_right fun _ => ?_
  rw [← encodeBytes_eq_iff, Separates, encodeUrl_eq, encodeUrl_eq]
  constructor
  · rintro ⟨u, v, hu, hv, hne⟩
    split_ifs at hu hv with hs ht
    rw [Option.some.inj hu, Option.some.inj hv]
    exact ⟨hne, hs, ht⟩
  · rintro ⟨hne, hs, ht⟩
    exact ⟨_, _, if_pos hs, if_pos ht, hne⟩

/-- A blank and a `+`. -/
theorem blank_encoded_as_plus : ¬∀ s t, s ≠ t → Separates s t := by
  intro h
  obtain ⟨u, v, hu, hv, hne⟩ := h [blank] [plus] (by decide)
  obtain rfl : u = [plus] := (Option.some.inj hu).symm
  obtain rfl : v = [plus] := (Option.some.inj hv).symm
  exact hne rfl

/-- Without `+` and `%` a text has one spelling. -/
theorem encodeBytes_injOn : Set.InjOn encodeBytes {s | plus ∉ s ∧ percent ∉ s} := by
  intro s hs t ht h
  have hspell := encodeBytes_eq_iff.1 h
  clear h
  simp only [Set.mem_ofPred_eq] at hs ht
  induction hspell with
  | nil => rfl
  | cons c _ ih =>
    rw [List.mem_cons, List.mem_cons, not_or, not_or] at hs ht
    rw [ih ⟨hs.1.2, hs.2.2⟩ ⟨ht.1.2, ht.2.2⟩]
  | blankPlus _ _ => exact absurd List.mem_cons_self ht.1
  | plusBlank _ _ => exact absurd List.mem_cons_self hs.1
  | byteEscape _ _ _ => exact absurd List.mem_cons_self ht.2
  | escapeByte _ _ _ => exact absurd List.mem_cons_self hs.2

end Ick.UrlEncoding
