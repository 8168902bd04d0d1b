import Ick.CmdTarget

/-!
# Frames as texts

`IProtocol::toString` writes each byte of a frame as two hexadecimal digits, with a blank between
two bytes. `toBytes` splits such a text at the blanks, and reads the pieces with `atoi`, so as
decimal numbers (`atoi_hexByte`). A byte comes back if its first digit is 0 and its second one is
decimal (`bytesRoundTrip_iff`).
-/

namespace Ick

namespace IProtocol

/-! ## Writing -/

/-- The character of a hexadecimal digit. -/
def hexDigit (d : ℕ) : Char :=
  if d < 10 then Char.ofNat (d + '0'.toNat) else Char.ofNat (d - 10 + 'A'.toNat)

/-- The two digits of a byte. -/
def hexByte (byte : UInt8) : Str := [hexDigit (byte.toNat / 16), hexDigit (byte.toNat % 16)]

/-- `toString`, of a buffer with its length. -/
def toString : List UInt8 → Str
  | [] => []
  | byte :: buff => hexByte byte ++ if buff ≠ [] then ' ' :: toString buff else []

/-! ## Reading -/

/-- `toBytes`, with what it returns and leaves in the buffer. -/
def toBytes (strProtocol : Str) (buffer : List UInt8) : Option (ℕ × List UInt8) :=
  (CmdTarget.split strProtocol ' ').map fun charList =>
    let num := min charList.length buffer.length
    (num, ((charList.take num).map fun piece => UInt8.ofInt (Converter.atoi piece)) ++
      List.replicate (buffer.length - num) 0)

/-- A text read back into a buffer of the same length is the frame. -/
def RoundTrips (buff : List UInt8) : Prop :=
  ∀ buffer : List UInt8, buffer.length = buff.length →
    toBytes (toString buff) buffer = some (buff.length, buff)

/-! ## Splitting -/

theorem hexDigit_ne_blank : ∀ d < 16, hexDigit d ≠ ' ' := by decide

theorem blank_notMem_hexByte (byte : UInt8) : ' ' ∉ hexByte byte := by
  have hbyte := byte.toNat_lt
  rw [hexByte, List.mem_cons, List.mem_singleton, not_or]
  exact ⟨(hexDigit_ne_blank _ (by omega)).symm, (hexDigit_ne_blank _ (by omega)).symm⟩

theorem head?_toString (buff : List UInt8) : (toString buff).head? ≠ some ' ' := by
  cases buff with
  | nil => nofun
  | cons byte buff =>
    have hbyte := byte.toNat_lt
    exact fun h => hexDigit_ne_blank _ (by omega) (Option.some.inj h)

theorem getLast?_toString (buff : List UInt8) : (toString buff).getLast? ≠ some ' ' := by
  induction buff with
  | nil => nofun
  | cons byte buff ih =>
    rw [toString]
    split_ifs with hbuff
    · cases htext : toString buff with
      | nil =>
        obtain ⟨byte', buff', rfl⟩ := List.exists_cons_of_ne_nil hbuff
        cases htext
      | cons c text =>
        rw [List.getLast?_append_of_ne_nil _ (List.cons_ne_nil _ _), List.getLast?_cons_cons,
          ← htext]
        exact ih
    · rw [List.append_nil]
      intro h
      exact blank_notMem_hexByte byte (List.mem_of_getLast? h)

/-- Without blanks around it a text stays as it is. -/
theorem trim_toString (buff : List UInt8) :
    CmdTarget.trim (toString buff) = some (toString buff) := by
  rw [CmdTarget.trim_of_getLast? (getLast?_toString buff),
    CmdTarget.dropBlanks_of_head? (head?_toString buff)]

theorem length_le_toString (buff : List UInt8) : buff.length ≤ (toString buff).length := by
  induction buff with
  | nil => exact le_rfl
  | cons byte buff ih =>
    rw [toString, List.length_cons, List.length_append]
    split_ifs with hbuff
    · rw [List.length_cons]
      omega
    · rw [not_not.1 hbuff]
      exact Nat.le_add_left 1 _

/-- The pieces of a text are the bytes. -/
theorem splitLoop_toString {byte : UInt8} {buff : List UInt8} {fuel : ℕ}
    (hfuel : buff.length ≤ fuel) :
    CmdTarget.splitLoop ' ' fuel (toString (byte :: buff)) = some ((byte :: buff).map hexByte) := by
  induction buff generalizing byte fuel with
  | nil =>
    rw [toString, if_neg (by simp), List.append_nil]
    cases fuel with
    | zero => rfl
    | succ fuel =>
      rw [CmdTarget.splitLoop, if_neg (blank_notMem_hexByte byte)]
      rfl
  | cons byte' buff ih =>
    obtain ⟨fuel, rfl⟩ := Nat.exists_eq_succ_of_ne_zero (Nat.ne_of_gt (Nat.lt_of_lt_of_le
      (Nat.succ_pos _) hfuel))
    rw [toString, if_pos (List.cons_ne_nil _ _), CmdTarget.splitLoop, if_pos (by simp),
      Converter.dropWhile_append_cons (blank_notMem_hexByte byte),
      Converter.takeWhile_append_cons (blank_notMem_hexByte byte), List.drop_one, List.tail_cons,
      trim_toString]
    dsimp only
    rw [ih (Nat.le_of_succ_le_succ hfuel)]
    rfl

theorem split_toString (buff : List UInt8) :
    CmdTarget.split (toString buff) ' ' = some (buff.map hexByte) := by
  cases buff with
  | nil => rfl
  | cons byte buff =>
    rw [CmdTarget.split, trim_toString]
    dsimp only
    rw [if_neg (by simp [toString, hexByte])]
    exact splitLoop_toString (Nat.le_of_succ_le (length_le_toString (byte :: buff)))

/-! ## Numbers -/

/-- Two hexadecimal digits read as a decimal number. -/
theorem atoi_hexDigits : ∀ high < 16, ∀ low < 16,
    Converter.atoi [hexDigit high, hexDigit low] =
      (if high < 10 then if low < 10 then 10 * high + low else high else 0 : ℕ) := by
  decide

theorem toNat_ofInt {n : ℕ} (h : n < 256) : (UInt8.ofInt n).toNat = n := by
  rw [UInt8.ofInt, UInt8.toNat_ofNat']
  omega

/-- A byte comes back if it is one decimal digit. -/
theorem atoi_hexByte (byte : UInt8) :
    UInt8.ofInt (Converter.atoi (hexByte byte)) = byte ↔ byte < 10 := by
  have hbyte := byte.toNat_lt
  have hten : (10 : UInt8).toNat = 10 := rfl
  rw [hexByte, atoi_hexDigits _ (by omega) _ (by omega), UInt8.lt_iff_toNat_lt, hten,
    ← UInt8.toNat_inj]
  split_ifs with hhigh hlow
  · rw [toNat_ofInt (by omega)]
    omega
  · rw [toNat_ofInt (by omega)]
    omega
  · rw [toNat_ofInt (by omega)]
    omega

/-- The pieces fill a buffer of the length of the frame. -/
theorem toBytes_toString {buff buffer : List UInt8} (h : buffer.length = buff.length) :
    toBytes (toString buff) buffer =
      some (buff.length, buff.map fun byte => UInt8.ofInt (Converter.atoi (hexByte byte))) := by
  rw [toBytes, split_toString, Option.map_some, List.length_map, h, Nat.min_self]
  dsimp only
  rw [Nat.sub_self, List.replicate_zero, List.append_nil, List.take_of_length_le (by simp),
    List.map_map]
  rfl

/-- A frame comes back exactly if each of its bytes is less than 10. -/
theorem bytesRoundTrip_iff (buff : List UInt8) : RoundTrips buff ↔ ∀ byte ∈ buff, byte < 10 := by
  have hsame : (buff.map fun byte => UInt8.ofInt (Converter.atoi (hexByte byte))) = buff ↔
      ∀ byte ∈ buff, byte < 10 := by
    conv_lhs => rw [← List.map_id buff, List.map_map, List.map_inj_left]
    exact forall₂_congr fun byte _ => atoi_hexByte byte
  rw [← hsame]
  constructor
  · intro h
    have hback := (toBytes_toString rfl).symm.trans (h buff rfl)
    exact (Prod.mk.inj (Option.some.inj hback)).2
  · intro h buffer hlength
    rw [toBytes_toString hlength, h]

/-- The byte 0x68 comes back as 68. -/
theorem not_bytesRoundTrip_68 : ¬RoundTrips [0x68] := by
  intro h
  exact absurd (h [0] rfl) (by decide)

end IProtocol

end Ick
