import Mathlib.Data.List.Basic
import Mathlib.Tactic.Cases
import Mathlib.Tactic.SplitIfs

/-!
# UTF-8 and UTF-16

`convertUtf16ToUtf8` writes each unit of a text as if it were a code point, in one to three
bytes; the branches for longer sequences are never taken, since a unit has 16 bits.
`convertUtf8ToUtf16` reads sequences of one to six bytes and keeps 16 bits of each code point.
It reads five bytes ahead of each position, so beyond the end of the text too : the memory
behind the text is an argument, `behind`, on which nothing may depend.

`convertUtf16ToUtf8` counts the units with an `int`, and is undefined where that overflows. The loop
of `convertUtf8ToUtf16` is here without its index (`unitsOf`).

`encode` is UTF-8 as RFC 3629 has it, for all code points of up to 21 bits. Both conversions are
compared with it : the first one writes it (`encodeUnit_eq`), and the second one reads it back
(`decodeUnit_encode`), modulo `2 ^ 16`.
-/

namespace Ick.Converter

/-! ## UTF-8 -/

/-- UTF-8 of a code point of at most 21 bits. -/
def encode (v : ℕ) : List UInt8 :=
  if v ≤ 0x7F then [.ofNat v]
  else if v ≤ 0x7FF then [.ofNat (v / 64 % 32 + 0xC0), .ofNat (v % 64 + 0x80)]
  else if v ≤ 0xFFFF then
    [.ofNat (v / 4096 % 16 + 0xE0), .ofNat (v / 64 % 64 + 0x80), .ofNat (v % 64 + 0x80)]
  else
    [.ofNat (v / 262144 % 8 + 0xF0), .ofNat (v / 4096 % 64 + 0x80),
      .ofNat (v / 64 % 64 + 0x80), .ofNat (v % 64 + 0x80)]

/-- The number of its bytes. -/
def encodeLength (v : ℕ) : ℕ :=
  if v ≤ 0x7F then 1 else if v ≤ 0x7FF then 2 else if v ≤ 0xFFFF then 3 else 4

/-- The number of bytes of code points in UTF-8. -/
def utf8Length : List ℕ → ℕ
  | [] => 0
  | v :: vs => encodeLength v + utf8Length vs

theorem length_encode (v : ℕ) : (encode v).length = encodeLength v := by
  unfold encode encodeLength
  split_ifs <;> rfl

theorem encodeLength_bounds (v : ℕ) : 0 < encodeLength v ∧ encodeLength v ≤ 4 := by
  unfold encodeLength
  split_ifs <;> decide

theorem length_flatMap_encode (vs : List ℕ) : (vs.flatMap encode).length = utf8Length vs := by
  induction vs with
  | nil => rfl
  | cons v vs ih => rw [List.flatMap_cons, List.length_append, length_encode, ih, utf8Length]

/-! ## The conversions -/

/-- The bytes that `convertUtf16ToUtf8` writes for a unit. -/
def encodeUnit (data : UInt16) : List UInt8 :=
  let d := data.toNat
  if d ≤ 0x7F then [.ofNat (d &&& 0x7F)]
  else if d ≤ 0x7FF then
    [.ofNat (0xC0 ||| ((d >>> 6) &&& 0x1F)), .ofNat (0x80 ||| (d &&& 0x3F))]
  else if d ≤ 0xFFFF then
    [.ofNat (0xE0 ||| ((d >>> 12) &&& 0x0F)), .ofNat (0x80 ||| ((d >>> 6) &&& 0x3F)),
      .ofNat (0x80 ||| (d &&& 0x3F))]
  else if d ≤ 0x1FFFFF then
    [.ofNat (0xF0 ||| ((d >>> 18) &&& 0x07)), .ofNat (0x80 ||| ((d >>> 12) &&& 0x3F)),
      .ofNat (0x80 ||| ((d >>> 6) &&& 0x3F)), .ofNat (0x80 ||| (d &&& 0x3F))]
  else if d ≤ 0x3FFFFFF then
    [.ofNat (0xF8 ||| ((d >>> 24) &&& 0x03)), .ofNat (0x80 ||| ((d >>> 18) &&& 0x3F)),
      .ofNat (0x80 ||| ((d >>> 12) &&& 0x3F)), .ofNat (0x80 ||| ((d >>> 6) &&& 0x3F)),
      .ofNat (0x80 ||| (d &&& 0x3F))]
  else
    [.ofNat (0xFC ||| ((d >>> 30) &&& 0x01)), .ofNat (0x80 ||| ((d >>> 24) &&& 0x3F)),
      .ofNat (0x80 ||| ((d >>> 18) &&& 0x3F)), .ofNat (0x80 ||| ((d >>> 12) &&& 0x3F)),
      .ofNat (0x80 ||| ((d >>> 6) &&& 0x3F)), .ofNat (0x80 ||| (d &&& 0x3F))]

/-- The largest `int`. -/
def intMax : ℕ := 0x7FFFFFFF

/-- The loop of `convertUtf16ToUtf8`, with the index and the units from there on. There is no result
where the index overflows. -/
def encodeFrom : ℕ → List UInt16 → Option (List UInt8)
  | _, [] => some []
  | i, d :: data =>
    if d = 0 then some []
    else if intMax < i + 1 then none
    else (encodeFrom (i + 1) data).map (encodeUnit d ++ ·)

/-- `convertUtf16ToUtf8`, for the units before a terminating zero. -/
def convertUtf16ToUtf8 (data : List UInt16) : Option (List UInt8) := encodeFrom 0 data

/-- What `convertUtf16ToUtf8` writes where the index does not overflow. -/
def encodeUnits : List UInt16 → List UInt8
  | [] => []
  | d :: data => if d = 0 then [] else encodeUnit d ++ encodeUnits data

/-- The byte at `i` of a text in memory : a zero stands at its end, and then what is behind. -/
def byteAt (behind : ℕ → UInt8) (str : List UInt8) (i : ℕ) : ℕ :=
  match str[i]? with
  | some byte => byte.toNat
  | none => if i = str.length then 0 else (behind (i - str.length - 1)).toNat

/-- The value of the sequence that the bytes `ch` begin with, before it is cut to 16 bits, and
its length; `none` if there is a format error. -/
def decodeUnit (ch : ℕ → ℕ) : Option (ℕ × ℕ) :=
  if ch 0 >>> 7 = 0 then some (ch 0 &&& 0x7F, 1)
  else if ch 0 >>> 5 = 6 ∧ ch 1 >>> 6 = 2 then
    some (((ch 0 &&& 0x1F) <<< 6) + (ch 1 &&& 0x3F), 2)
  else if ch 0 >>> 4 = 14 ∧ ch 1 >>> 6 = 2 ∧ ch 2 >>> 6 = 2 then
    some (((ch 0 &&& 0x0F) <<< 12) + ((ch 1 &&& 0x3F) <<< 6) + (ch 2 &&& 0x3F), 3)
  else if ch 0 >>> 3 = 0x1E ∧ ch 1 >>> 6 = 2 ∧ ch 2 >>> 6 = 2 ∧ ch 3 >>> 6 = 2 then
    some (((ch 0 &&& 0x07) <<< 18) + ((ch 1 &&& 0x3F) <<< 12) + ((ch 2 &&& 0x3F) <<< 6) +
      (ch 3 &&& 0x3F), 4)
  else if ch 0 >>> 2 = 0x3E ∧ ch 1 >>> 6 = 2 ∧ ch 2 >>> 6 = 2 ∧ ch 3 >>> 6 = 2 ∧
      ch 4 >>> 6 = 2 then
    some (((ch 0 &&& 0x03) <<< 24) + ((ch 1 &&& 0x3F) <<< 18) + ((ch 2 &&& 0x3F) <<< 12) +
      ((ch 3 &&& 0x3F) <<< 6) + (ch 4 &&& 0x3F), 5)
  else if ch 0 >>> 2 = 0x7E ∧ ch 1 >>> 6 = 2 ∧ ch 2 >>> 6 = 2 ∧ ch 3 >>> 6 = 2 ∧
      ch 4 >>> 6 = 2 ∧ ch 5 >>> 6 = 2 then
    some (((ch 0 &&& 0x01) <<< 30) + ((ch 1 &&& 0x3F) <<< 24) + ((ch 2 &&& 0x3F) <<< 18) +
      ((ch 3 &&& 0x3F) <<< 12) + ((ch 4 &&& 0x3F) <<< 6) + (ch 5 &&& 0x3F), 6)
  else none

/-- The loop of `convertUtf8ToUtf16` without its index, at most `n` rounds of it, on what is left of
the text. -/
def decodeLoop (behind : ℕ → UInt8) : ℕ → List UInt8 → List UInt16 × Bool
  | 0, _ => ([], false)
  | _ + 1, [] => ([], false)
  | n + 1, str =>
    match decodeUnit (byteAt behind str) with
    | none => ([], true)
    | some (s, len) =>
      let (res, err) := decodeLoop behind n (str.drop len)
      (.ofNat s :: res, err)

/-- What `convertUtf8ToUtf16` does where its index does not overflow : the units that are appended,
and whether a format error is reported. -/
def unitsOf (behind : ℕ → UInt8) (str : List UInt8) : List UInt16 × Bool :=
  decodeLoop behind str.length str

/-! ## A sequence written and read -/

section Bits

variable {x : ℕ}

theorem and_0x07 : x &&& 0x07 = x % 8 := Nat.and_two_pow_sub_one_eq_mod x 3
theorem and_0x0F : x &&& 0x0F = x % 16 := Nat.and_two_pow_sub_one_eq_mod x 4
theorem and_0x1F : x &&& 0x1F = x % 32 := Nat.and_two_pow_sub_one_eq_mod x 5
theorem and_0x3F : x &&& 0x3F = x % 64 := Nat.and_two_pow_sub_one_eq_mod x 6
theorem and_0x7F : x &&& 0x7F = x % 128 := Nat.and_two_pow_sub_one_eq_mod x 7

theorem or_0x80 (h : x < 64) : 0x80 ||| x = 0x80 + x :=
  (@Nat.two_pow_add_eq_or_of_lt 6 x h 2).symm

theorem or_0xC0 (h : x < 64) : 0xC0 ||| x = 0xC0 + x :=
  (@Nat.two_pow_add_eq_or_of_lt 6 x h 3).symm

theorem or_0xE0 (h : x < 32) : 0xE0 ||| x = 0xE0 + x :=
  (@Nat.two_pow_add_eq_or_of_lt 5 x h 7).symm

end Bits

/-- A unit is written as the code point of its value. -/
theorem encodeUnit_eq (d : UInt16) : encodeUnit d = encode d.toNat := by
  have hd := d.toNat_lt
  unfold encodeUnit encode
  simp only [Nat.shiftRight_eq_div_pow, and_0x7F, and_0x3F, and_0x1F, and_0x0F]
  split_ifs with h₁ h₂ h₃
  · rw [Nat.mod_eq_of_lt (by omega)]
  · rw [or_0xC0 (by omega), or_0x80 (by omega), Nat.add_comm, Nat.add_comm 0x80]
  · rw [or_0xE0 (by omega), or_0x80 (by omega), or_0x80 (by omega), Nat.add_comm,
      Nat.add_comm 0x80, Nat.add_comm 0x80]
  all_goals omega

section Sequences

variable {ch : ℕ → ℕ} {x y z w : ℕ}

theorem decodeUnit_one (h0 : ch 0 = x) (hx : x < 128) : decodeUnit ch = some (x, 1) := by
  rw [decodeUnit, h0, Nat.shiftRight_eq_div_pow, if_pos (by omega), and_0x7F,
    Nat.mod_eq_of_lt hx]

theorem decodeUnit_two (h0 : ch 0 = x + 0xC0) (hx : x < 32) (h1 : ch 1 = y + 0x80)
    (hy : y < 64) : decodeUnit ch = some (x * 64 + y, 2) := by
  simp only [decodeUnit, h0, h1, Nat.shiftRight_eq_div_pow, Nat.shiftLeft_eq, and_0x1F, and_0x3F]
  rw [if_neg (by omega), if_pos (by omega)]
  simp only [Option.some.injEq, Prod.mk.injEq, and_true]
  omega

theorem decodeUnit_three (h0 : ch 0 = x + 0xE0) (hx : x < 16) (h1 : ch 1 = y + 0x80)
    (hy : y < 64) (h2 : ch 2 = z + 0x80) (hz : z < 64) :
    decodeUnit ch = some (x * 4096 + y * 64 + z, 3) := by
  simp only [decodeUnit, h0, h1, h2, Nat.shiftRight_eq_div_pow, Nat.shiftLeft_eq, and_0x0F,
    and_0x3F]
  rw [if_neg (by omega), if_neg (by omega), if_pos (by omega)]
  simp only [Option.some.injEq, Prod.mk.injEq, and_true]
  omega

theorem decodeUnit_four (h0 : ch 0 = x + 0xF0) (hx : x < 8) (h1 : ch 1 = y + 0x80)
    (hy : y < 64) (h2 : ch 2 = z + 0x80) (hz : z < 64) (h3 : ch 3 = w + 0x80) (hw : w < 64) :
    decodeUnit ch = some (x * 262144 + y * 4096 + z * 64 + w, 4) := by
  simp only [decodeUnit, h0, h1, h2, h3, Nat.shiftRight_eq_div_pow, Nat.shiftLeft_eq, and_0x07,
    and_0x3F]
  rw [if_neg (by omega), if_neg (by omega), if_neg (by omega), if_pos (by omega)]
  simp only [Option.some.injEq, Prod.mk.injEq, and_true]
  omega

end Sequences

section Read

variable {behind : ℕ → UInt8} {rest : List UInt8}

/-- A sequence is read back, whatever stands behind it. -/
theorem decodeUnit_encode {v : ℕ} (h : v < 0x200000) :
    decodeUnit (byteAt behind (encode v ++ rest)) = some (v, (encode v).length) := by
  have hbyte : ∀ x < 256, (UInt8.ofNat x).toNat = x := fun x hx => Nat.mod_eq_of_lt hx
  unfold encode
  split_ifs with h₁ h₂ h₃
  · exact decodeUnit_one (hbyte v (by omega)) (by omega)
  · rw [decodeUnit_two (hbyte _ (by omega)) (Nat.mod_lt _ (by omega)) (hbyte _ (by omega))
      (Nat.mod_lt _ (by omega))]
    have hv : v / 64 % 32 * 64 + v % 64 = v := by omega
    rw [hv]
    rfl
  · rw [decodeUnit_three (hbyte _ (by omega)) (Nat.mod_lt _ (by omega)) (hbyte _ (by omega))
      (Nat.mod_lt _ (by omega)) (hbyte _ (by omega)) (Nat.mod_lt _ (by omega))]
    have hv : v / 4096 % 16 * 4096 + v / 64 % 64 * 64 + v % 64 = v := by omega
    rw [hv]
    rfl
  · rw [decodeUnit_four (hbyte _ (by omega)) (Nat.mod_lt _ (by omega)) (hbyte _ (by omega))
      (Nat.mod_lt _ (by omega)) (hbyte _ (by omega)) (Nat.mod_lt _ (by omega))
      (hbyte _ (by omega)) (Nat.mod_lt _ (by omega))]
    have hv : v / 262144 % 8 * 262144 + v / 4096 % 64 * 4096 + v / 64 % 64 * 64 + v % 64 = v := by
      omega
    rw [hv]
    rfl

theorem encode_ne_nil (v : ℕ) : encode v ≠ [] := by
  unfold encode
  split_ifs <;> exact List.cons_ne_nil _ _

/-- A text of sequences is read one by one, each cut to 16 bits. -/
theorem decodeLoop_flatMap {vs : List ℕ} (h : ∀ v ∈ vs, v < 0x200000) {n : ℕ}
    (hn : (vs.flatMap encode).length ≤ n) :
    decodeLoop behind n (vs.flatMap encode) = (vs.map UInt16.ofNat, false) := by
  induction vs generalizing n with
  | nil =>
    cases n <;> rfl
  | cons v vs ih =>
    rw [List.forall_mem_cons] at h
    rw [List.flatMap_cons] at hn ⊢
    obtain ⟨b, bs, hb⟩ := List.exists_cons_of_ne_nil (encode_ne_nil v)
    have hdecode := @decodeUnit_encode behind (vs.flatMap encode) v h.1
    have hdrop : (encode v ++ vs.flatMap encode).drop (encode v).length = vs.flatMap encode :=
      List.drop_left
    rw [hb] at hn hdecode hdrop ⊢
    cases n with
    | zero => simp at hn
    | succ n =>
      simp only [List.length_append, List.length_cons] at hn
      simp only [List.cons_append] at hdecode hdrop ⊢
      simp only [decodeLoop, hdecode, hdrop]
      rw [ih h.2 (by omega)]
      rfl

/-- The units of a text in UTF-8. -/
theorem unitsOf_flatMap (behind : ℕ → UInt8) {vs : List ℕ} (h : ∀ v ∈ vs, v < 0x200000) :
    unitsOf behind (vs.flatMap encode) = (vs.map UInt16.ofNat, false) :=
  decodeLoop_flatMap h (Nat.le_refl _)

end Read

theorem encodeUnits_eq {data : List UInt16} (h : 0 ∉ data) :
    encodeUnits data = (data.map UInt16.toNat).flatMap encode := by
  induction data with
  | nil => rfl
  | cons d data ih =>
    rw [List.mem_cons, not_or] at h
    rw [encodeUnits, if_neg (Ne.symm h.1), ih h.2, encodeUnit_eq]
    rfl

theorem encodeFrom_eq {data : List UInt16} (h : 0 ∉ data) {i : ℕ} (hi : i ≤ intMax) :
    encodeFrom i data = if i + data.length ≤ intMax then some (encodeUnits data) else none := by
  induction data generalizing i with
  | nil => exact (if_pos hi).symm
  | cons d data ih =>
    rw [List.mem_cons, not_or] at h
    rw [encodeFrom, encodeUnits, if_neg (Ne.symm h.1), if_neg (Ne.symm h.1), List.length_cons]
    by_cases hnext : i + 1 ≤ intMax
    · rw [if_neg (Nat.not_lt.2 hnext), ih h.2 hnext, Nat.add_right_comm, Nat.add_assoc]
      split_ifs <;> rfl
    · rw [if_pos (Nat.lt_of_not_le hnext), if_neg (by omega)]

/-- The units are written as code points, as long as an `int` can count them. -/
theorem convertUtf16ToUtf8_eq {data : List UInt16} (h : 0 ∉ data) :
    convertUtf16ToUtf8 data =
      if data.length ≤ intMax then some ((data.map UInt16.toNat).flatMap encode) else none := by
  rw [convertUtf16ToUtf8, encodeFrom_eq h (Nat.zero_le _), encodeUnits_eq h, Nat.zero_add]

end Ick.Converter
