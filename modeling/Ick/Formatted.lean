import Ick.Converter

/-!
# Formatted numbers

`sprintf` and `sscanf` of the C library, for formats of plain bytes and decimal `int`
conversions. `sprintf` fills a number up to the width of its conversion, with blanks or with
zeros behind the sign. `sscanf` skips white space before a number and for a white byte of
the format, needs every other byte of the format as it is, and stops at the first piece
that does not fit; what it has read until then is stored.

`sscanf_sprintf` : a text is read back with the format that it was written with, unless a
number is directly followed by a digit or another number. `sscanf_decimal_append` is the
step for one number, which also says where the reader stands when the next piece of its
format does not fit.
-/

namespace Ick.Formatted

open Converter

/-- A piece of the format of `sprintf`, a conversion with its argument. -/
inductive Printed
  | char (c : Char)
  | decimal (width : ℕ) (zero : Bool) (value : ℤ)

/-- A piece of the format of `sscanf`, `%d` or a byte. -/
inductive Scanned
  | char (c : Char)
  | decimal

/-- The text of an argument, filled up to the width. -/
def conversion (width : ℕ) (zero : Bool) (value : ℤ) : Str :=
  let sign : Str := if value < 0 then ['-'] else []
  let digits := Nat.toDigits 10 value.natAbs
  let fill := width - (sign.length + digits.length)
  if zero then sign ++ List.replicate fill '0' ++ digits
  else List.replicate fill ' ' ++ sign ++ digits

/-- `sprintf` -/
def sprintf : List Printed → Str
  | [] => []
  | .char c :: format => c :: sprintf format
  | .decimal width zero value :: format => conversion width zero value ++ sprintf format

/-- The digits at the start of a text, if there are any, as an `int`, and what follows. -/
def scanDigits (negative : Bool) (s : Str) : Option (ℤ × Str) :=
  if s.takeWhile Char.isDigit = [] then none
  else
    let value : ℤ := if negative then -(leadingNat s : ℤ) else leadingNat s
    some ((clampLong value).bmod (2 ^ 32), s.dropWhile Char.isDigit)

/-- `%d` behind the white space. -/
def scanInt : Str → Option (ℤ × Str)
  | '-' :: s => scanDigits true s
  | '+' :: s => scanDigits false s
  | s => scanDigits false s

/-- `sscanf`; the numbers that it stores. -/
def sscanf : List Scanned → Str → List ℤ
  | [], _ => []
  | .char c :: format, s =>
    if isSpace c then sscanf format (s.dropWhile isSpace)
    else
      match s with
      | [] => []
      | x :: s => if x = c then sscanf format s else []
  | .decimal :: format, s =>
    match scanInt (s.dropWhile isSpace) with
    | none => []
    | some (value, s) => value :: sscanf format s

/-! ## One number -/

theorem dropWhile_digits_append {digits : Str} (hne : digits ≠ [])
    (hall : ∀ c ∈ digits, c.isDigit = true) (s : Str) :
    (digits ++ s).dropWhile isSpace = digits ++ s := by
  obtain ⟨c, cs, rfl⟩ := List.exists_cons_of_ne_nil hne
  rw [List.cons_append, List.dropWhile_cons_of_neg]
  simp [not_isSpace_of_isDigit (hall c List.mem_cons_self)]

/-- Behind its blanks the text of a number that is not negative is digits. -/
theorem dropWhile_conversion (width : ℕ) (zero : Bool) {value : ℤ} (h : 0 ≤ value) (s : Str) :
    ∃ digits, (conversion width zero value ++ s).dropWhile isSpace = digits ++ s ∧
      digits ≠ [] ∧ (∀ c ∈ digits, c.isDigit = true) ∧
      Nat.ofDigitChars 10 digits 0 = value.natAbs := by
  have hdigit : ∀ c ∈ Nat.toDigits 10 value.natAbs, c.isDigit = true := fun c hc =>
    Nat.isDigit_of_mem_toDigits (by decide) le_rfl hc
  unfold conversion
  simp only [if_neg (not_lt.2 h), List.length_nil, Nat.zero_add, List.nil_append,
    List.append_nil]
  cases zero with
  | false =>
    refine ⟨Nat.toDigits 10 value.natAbs, ?_, Nat.toDigits_ne_nil, hdigit,
      Nat.ofDigitChars_ten_toDigits⟩
    rw [if_neg Bool.false_ne_true, List.append_assoc, List.dropWhile_append_of_pos]
    · exact dropWhile_digits_append Nat.toDigits_ne_nil hdigit s
    · intro c hc
      rw [List.eq_of_mem_replicate hc]
      decide
  | true =>
    rw [if_pos rfl]
    have hne : ∀ n, List.replicate n '0' ++ Nat.toDigits 10 value.natAbs ≠ [] := fun n hnil =>
      Nat.toDigits_ne_nil (List.append_eq_nil_iff.1 hnil).2
    have hall : ∀ n, ∀ c ∈ List.replicate n '0' ++ Nat.toDigits 10 value.natAbs,
        c.isDigit = true := by
      intro n c hc
      rcases List.mem_append.1 hc with hc | hc
      · rw [List.eq_of_mem_replicate hc]
        decide
      · exact hdigit c hc
    refine ⟨_, dropWhile_digits_append (hne _) (hall _) s, hne _, hall _, ?_⟩
    rw [Nat.ofDigitChars_append, Nat.ofDigitChars_replicate_zero, Nat.mul_zero,
      Nat.ofDigitChars_ten_toDigits]

theorem scanDigits_append {digits s : Str} (hne : digits ≠ [])
    (hall : ∀ c ∈ digits, c.isDigit = true) (hs : ∀ c ∈ s.head?, c.isDigit = false) :
    scanDigits false (digits ++ s) =
      some ((clampLong (Nat.ofDigitChars 10 digits 0)).bmod (2 ^ 32), s) := by
  have htake : (digits ++ s).takeWhile Char.isDigit = digits := by
    rw [List.takeWhile_append_of_pos hall]
    cases s with
    | nil => simp
    | cons c s => simp [hs c rfl]
  have hdrop : (digits ++ s).dropWhile Char.isDigit = s := by
    rw [List.dropWhile_append_of_pos hall]
    cases s with
    | nil => rfl
    | cons c s => simp [hs c rfl]
  rw [scanDigits, leadingNat, htake, hdrop, if_neg hne, if_neg Bool.false_ne_true]

/-- Digits have no sign in front of them. -/
theorem scanInt_append {digits s : Str} (hne : digits ≠ [])
    (hall : ∀ c ∈ digits, c.isDigit = true) (hs : ∀ c ∈ s.head?, c.isDigit = false) :
    scanInt (digits ++ s) =
      some ((clampLong (Nat.ofDigitChars 10 digits 0)).bmod (2 ^ 32), s) := by
  have hscan := scanDigits_append hne hall hs
  obtain ⟨c, cs, rfl⟩ := List.exists_cons_of_ne_nil hne
  have hc := hall c List.mem_cons_self
  rw [List.cons_append, scanInt, ← List.cons_append, hscan]
  · intro _ hsign
    exact absurd (List.cons.inj hsign).1 (by rintro rfl; exact absurd hc (by decide))
  · intro _ hsign
    exact absurd (List.cons.inj hsign).1 (by rintro rfl; exact absurd hc (by decide))

/-- A number that is written is read, and the reader stands behind it. -/
theorem sscanf_decimal_append (format : List Scanned) (width : ℕ) (zero : Bool) {value : ℤ}
    (hlo : 0 ≤ value) (hhi : value < 2 ^ 31) {s : Str} (hs : ∀ c ∈ s.head?, c.isDigit = false) :
    sscanf (.decimal :: format) (conversion width zero value ++ s) =
      value :: sscanf format s := by
  obtain ⟨digits, hdrop, hne, hall, hvalue⟩ := dropWhile_conversion width zero hlo s
  have hint : (clampLong (value.natAbs : ℤ)).bmod (2 ^ 32) = value := by
    rw [Int.natAbs_of_nonneg hlo, clampLong, min_eq_left (by omega), max_eq_right (by omega)]
    exact Int.bmod_eq_of_le (by omega) (by omega)
  rw [sscanf, hdrop, scanInt_append hne hall hs, hvalue, hint]

theorem sscanf_white {c : Char} (hc : isSpace c = true) (format : List Scanned) (s : Str) :
    sscanf (.char c :: format) s = sscanf format (s.dropWhile isSpace) := by
  rw [sscanf.eq_def]
  simp only [if_pos hc]

theorem sscanf_char_cons {c : Char} (hc : isSpace c = false) (format : List Scanned) (x : Char)
    (s : Str) : sscanf (.char c :: format) (x :: s) = if x = c then sscanf format s else [] := by
  rw [sscanf.eq_def]
  simp only [hc, if_neg Bool.false_ne_true]

/-! ## The whole text -/

/-- The format that reads what a piece writes. -/
def Printed.scanned : Printed → Scanned
  | .char c => .char c
  | .decimal _ _ _ => .decimal

/-- The arguments. -/
def values : List Printed → List ℤ
  | [] => []
  | .char _ :: format => values format
  | .decimal _ _ value :: format => value :: values format

/-- The arguments are `int`s that are not negative, and behind each stands a byte other than
a digit, or nothing. -/
def Readable : List Printed → Prop
  | [] => True
  | .char _ :: format => Readable format
  | .decimal _ _ value :: format =>
    0 ≤ value ∧ value < 2 ^ 31 ∧ (∀ p ∈ format.head?, ∃ c, p = .char c ∧ c.isDigit = false) ∧
      Readable format

/-- The reader does not see white space before what it reads. -/
theorem sscanf_dropWhile (format : List Printed) :
    sscanf (format.map Printed.scanned) ((sprintf format).dropWhile isSpace) =
      sscanf (format.map Printed.scanned) (sprintf format) := by
  cases format with
  | nil => rfl
  | cons p format =>
    cases p with
    | char c =>
      by_cases hc : isSpace c = true
      · rw [List.map_cons, Printed.scanned, sscanf_white hc, sscanf_white hc,
          List.dropWhile_idempotent]
      · rw [sprintf, List.dropWhile_cons_of_neg hc]
    | decimal width zero value =>
      simp only [List.map_cons, Printed.scanned, sscanf, List.dropWhile_idempotent]

/-- A text that is written is read back. -/
theorem sscanf_sprintf {format : List Printed} (h : Readable format) :
    sscanf (format.map Printed.scanned) (sprintf format) = values format := by
  induction format with
  | nil => rfl
  | cons p format ih =>
    cases p with
    | char c =>
      by_cases hc : isSpace c = true
      · have hskip := sscanf_dropWhile format
        rw [List.map_cons, Printed.scanned, sscanf_white hc, sprintf,
          List.dropWhile_cons_of_pos hc, hskip, ih h, values]
      · rw [List.map_cons, Printed.scanned, sprintf,
          sscanf_char_cons (Bool.eq_false_of_not_eq_true hc), if_pos rfl, ih h, values]
    | decimal width zero value =>
      obtain ⟨hlo, hhi, hnext, hformat⟩ := h
      have hhead : ∀ c ∈ (sprintf format).head?, c.isDigit = false := by
        cases format with
        | nil => simp [sprintf]
        | cons q format =>
          obtain ⟨c, rfl, hc⟩ := hnext q rfl
          simpa [sprintf] using hc
      rw [List.map_cons, Printed.scanned, sprintf,
        sscanf_decimal_append _ width zero hlo hhi hhead, ih hformat, values]

end Ick.Formatted
