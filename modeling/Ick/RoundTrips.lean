import Ick.Utf8Reader

/-!
# Round trips through UTF-8

Both conversions between UTF-8 and UTF-16 count with an `int`. A text of code points is read to its
end exactly if the index of the last byte that is taken at the last sequence is an `int`
(`readsAs_flatMap_iff`), and then an `int` can count the units as well.

So units come back from UTF-8, surrogates included, exactly if all but the last of them take at most
`2 ^ 31 - 6` bytes (`comesBack_iff`); and text in UTF-8 becomes UTF-16, and comes back from it,
exactly if it has no code point above `0xFFFF` and is no longer than that (`survives_iff`).
-/

namespace Ick.Converter

/-! ## Texts of code points -/

variable {vs : List ℕ} {v : ℕ} {pre : List UInt8} {d : Decoding}

theorem isSequence_encode (h : v < 0x200000) : IsSequence (encode v) := by
  have hbyte : ∀ x < 256, (UInt8.ofNat x).toNat = x := fun x hx => Nat.mod_eq_of_lt hx
  have hcontinuation : ∀ x, Continuation (UInt8.ofNat (x % 64 + 0x80)).toNat := by
    intro x
    rw [hbyte _ (by omega), Continuation]
    omega
  unfold encode
  split_ifs with h₁ h₂ h₃
  · refine ⟨?_, nofun⟩
    rw [hbyte v (by omega), sequenceLength, if_pos (by omega)]
    rfl
  · refine ⟨?_, List.forall_mem_singleton.2 (hcontinuation _)⟩
    rw [hbyte _ (by omega), sequenceLength, if_neg (by omega), if_neg (by omega), if_pos (by omega)]
    rfl
  · refine ⟨?_, List.forall_mem_cons.2 ⟨hcontinuation _,
      List.forall_mem_singleton.2 (hcontinuation _)⟩⟩
    rw [hbyte _ (by omega), sequenceLength, if_neg (by omega), if_neg (by omega), if_neg (by omega),
      if_pos (by omega)]
    rfl
  · refine ⟨?_, List.forall_mem_cons.2 ⟨hcontinuation _, List.forall_mem_cons.2
      ⟨hcontinuation _, List.forall_mem_singleton.2 (hcontinuation _)⟩⟩⟩
    rw [hbyte _ (by omega), sequenceLength, if_neg (by omega), if_neg (by omega), if_neg (by omega),
      if_neg (by omega), if_pos (by omega)]
    rfl

/-- Each code point takes a byte. -/
theorem length_le_utf8Length (vs : List ℕ) : vs.length ≤ utf8Length vs := by
  induction vs with
  | nil => exact Nat.zero_le _
  | cons v vs ih =>
    have hpos := (encodeLength_bounds v).1
    rw [List.length_cons, utf8Length]
    omega

/-- The index at each code point, and six bytes from there on, are counted if they are at the
last. -/
theorem exists_reads_flatMap (h : ∀ v ∈ vs, v < 0x200000)
    (hint : pre.length + utf8Length vs.dropLast + 5 ≤ intMax) :
    ∃ d, Reads pre (vs.flatMap encode) d := by
  induction vs generalizing pre with
  | nil =>
    refine ⟨⟨[], false, [pre.length]⟩, reads_last fun behind turns => ?_⟩
    rw [List.flatMap_nil, List.append_nil]
    exact decodeFrom_end
  | cons v vs ih =>
    rw [List.forall_mem_cons] at h
    have hlength := (encodeLength_bounds v).2
    have hrest : ∃ d, Reads (pre ++ encode v) (vs.flatMap encode) d := by
      cases vs with
      | nil =>
        refine ⟨⟨[], false, [(pre ++ encode v).length]⟩, reads_last fun behind turns => ?_⟩
        rw [List.flatMap_nil, List.append_nil]
        exact decodeFrom_end
      | cons w vs =>
        refine ih h.2 ?_
        rw [List.dropLast_cons_cons, utf8Length] at hint
        rw [List.length_append, length_encode]
        omega
    obtain ⟨d, hd⟩ := hrest
    exact hd.sequence (isSequence_encode h.1) (by omega)

/-- In a text of code points the index fits if six bytes from the last one on can be counted. -/
theorem indexable_flatMap_iff (h : ∀ v ∈ vs, v < 0x200000) :
    Indexable (vs.flatMap encode) ↔ utf8Length vs.dropLast + 5 ≤ intMax := by
  constructor
  · intro hindexable
    obtain rfl | ⟨ws, v, rfl⟩ := List.eq_nil_or_concat' vs
    · decide
    · rw [List.forall_mem_append] at h
      have hws : AreSequences (ws.flatMap encode) := by
        refine ⟨ws.map encode, List.flatMap_def, List.forall_mem_map.2 fun w hw => ?_⟩
        exact isSequence_encode (h.1 w hw)
      have hindex := hindexable (ws.flatMap encode) (encode v)
        (by rw [List.flatMap_append, List.flatMap_singleton]) hws
      rw [List.dropLast_concat, ← length_flatMap_encode]
      exact hindex.2 (encode_ne_nil v)
  · intro hint
    obtain ⟨d, hd⟩ := @exists_reads_flatMap vs [] h (by simpa using hint)
    exact hd.call.indexable

/-- A call of `convertUtf8ToUtf16` with this text ends, with these units, and without a format
error, whatever stands behind the text. -/
def ReadsAs (str : List UInt8) (units : List UInt16) : Prop :=
  ∃ d : Decoding, (∀ behind, ∃ n, ∀ turns ≥ n, convertUtf8ToUtf16 behind turns str = some d) ∧
    d.units = units ∧ d.error = false

/-- A text of code points is read as these, each cut to 16 bits. -/
theorem readsAs_flatMap_iff (h : ∀ v ∈ vs, v < 0x200000) {units : List UInt16} :
    ReadsAs (vs.flatMap encode) units ↔
      units = vs.map UInt16.ofNat ∧ utf8Length vs.dropLast + 5 ≤ intMax := by
  rw [← indexable_flatMap_iff h]
  have hunits : ∀ {turns d}, convertUtf8ToUtf16 (fun _ => 0) turns (vs.flatMap encode) = some d →
      d.units = vs.map UInt16.ofNat ∧ d.error = false := by
    intro turns d hd
    have heq := convertUtf8ToUtf16_eq hd
    rw [unitsOf_flatMap _ h] at heq
    exact ⟨(Prod.mk.inj heq).1.symm, (Prod.mk.inj heq).2.symm⟩
  constructor
  · rintro ⟨d, hd, rfl, -⟩
    obtain ⟨n, hn⟩ := hd fun _ => 0
    have hcall := hn n (Nat.le_refl n)
    exact ⟨(hunits hcall).1, indexable_of_call hcall⟩
  · rintro ⟨rfl, hindexable⟩
    obtain ⟨d, hd, -, -⟩ := hindexable.decodes
    obtain ⟨n, hn⟩ := hd fun _ => 0
    exact ⟨d, hd, hunits (hn n (Nat.le_refl n))⟩

/-! ## Units to UTF-8 and back -/

/-- The units are written in UTF-8, and read back from it. -/
def ComesBack (data : List UInt16) : Prop :=
  ∃ str, convertUtf16ToUtf8 data = some str ∧ ReadsAs str data

theorem toNat_lt_of_mem_map {data : List UInt16} (hv : v ∈ data.map UInt16.toNat) :
    v < 0x200000 := by
  obtain ⟨d, -, rfl⟩ := List.mem_map.1 hv
  exact Nat.lt_trans d.toNat_lt (by decide)

/-- An `int` can count the code points, if it can count the bytes before the last. -/
theorem length_le_of_utf8Length (h : utf8Length vs.dropLast + 5 ≤ intMax) :
    vs.length ≤ intMax := by
  have hlength := length_le_utf8Length vs.dropLast
  rw [List.length_dropLast] at hlength
  omega

/-- Units to UTF-8 and back. Every list of units that are not zero comes back unchanged, without
a format error, if all but the last take at most `2 ^ 31 - 6` bytes in UTF-8, and no other does. -/
theorem comesBack_iff {data : List UInt16} (h : 0 ∉ data) :
    ComesBack data ↔ utf8Length (data.map UInt16.toNat).dropLast + 5 ≤ intMax := by
  have hid : (data.map UInt16.toNat).map UInt16.ofNat = data := by
    have hcomp : UInt16.ofNat ∘ UInt16.toNat = id := funext fun d => UInt16.ofNat_toNat
    rw [List.map_map, hcomp, List.map_id]
  have hreads := @readsAs_flatMap_iff (data.map UInt16.toNat) (fun _ => toNat_lt_of_mem_map) data
  rw [hid, eq_self, true_and] at hreads
  rw [ComesBack, convertUtf16ToUtf8_eq h]
  constructor
  · rintro ⟨str, hstr, hread⟩
    split_ifs at hstr
    obtain rfl := Option.some.inj hstr
    exact hreads.1 hread
  · intro hint
    have hlength := length_le_of_utf8Length hint
    rw [List.length_map] at hlength
    exact ⟨_, if_pos hlength, hreads.2 hint⟩

/-- The last unit before the surrogates, a pair of them, and the last unit of all. -/
theorem comesBack_pair : ComesBack [0xD7FF, 0xD83D, 0xDE00, 0xFFFF] :=
  (comesBack_iff (by decide)).2 (by decide)

/-- A text of 2 GiB. The index passes the largest `int`. -/
theorem not_comesBack_long : ¬∀ data : List UInt16, 0 ∉ data → ComesBack data := by
  intro h
  have hzero : (0 : UInt16) ∉ List.replicate (2 ^ 31) 0x61 := by
    rw [List.mem_replicate]
    exact fun h => absurd h.2 (by decide)
  obtain ⟨str, hstr, -⟩ := h _ hzero
  rw [convertUtf16ToUtf8_eq hzero, List.length_replicate, if_neg (by decide)] at hstr
  cases hstr

/-! ## Text -/

/-- UTF-16 of a character. -/
def utf16 (c : Char) : List UInt16 :=
  if c.toNat ≤ 0xFFFF then [.ofNat c.toNat]
  else
    [.ofNat (0xD800 + (c.toNat - 0x10000) / 0x400), .ofNat (0xDC00 + (c.toNat - 0x10000) % 0x400)]

/-- The text in UTF-8 becomes the text in UTF-16, and comes back from it. -/
def Survives (text : List Char) : Prop :=
  ReadsAs (text.flatMap String.utf8EncodeChar) (text.flatMap utf16) ∧
    convertUtf16ToUtf8 (text.flatMap utf16) = some (text.flatMap String.utf8EncodeChar)

theorem toNat_lt_of_mem_text {text : List Char} (hv : v ∈ text.map Char.toNat) : v < 0x200000 := by
  obtain ⟨c, -, rfl⟩ := List.mem_map.1 hv
  rcases c.valid with h | ⟨-, h⟩
  · exact Nat.lt_trans h (by decide)
  · exact Nat.lt_trans h (by decide)

theorem flatMap_utf8EncodeChar (text : List Char) :
    text.flatMap String.utf8EncodeChar = (text.map Char.toNat).flatMap encode := by
  rw [List.flatMap_map]
  rfl

theorem length_flatMap_utf16 (text : List Char) :
    (text.flatMap utf16).length = text.length + text.countP (0xFFFF < ·.toNat) := by
  induction text with
  | nil => rfl
  | cons c text ih =>
    rw [List.flatMap_cons, List.length_append, ih, List.countP_cons, List.length_cons, utf16]
    by_cases hc : c.toNat ≤ 0xFFFF
    · simp [hc, Nat.not_lt.2 hc]
      omega
    · simp [hc, Nat.lt_of_not_le hc]
      omega

/-- The units that a text is read as are its UTF-16 if it has no code point above `0xFFFF`. -/
theorem flatMap_utf16_eq_iff (text : List Char) :
    text.flatMap utf16 = (text.map Char.toNat).map UInt16.ofNat ↔ ∀ c ∈ text, c.toNat ≤ 0xFFFF := by
  constructor
  · intro hunits c hc
    have hlength := congrArg List.length hunits
    simp only [length_flatMap_utf16, List.length_map] at hlength
    have hcount : text.countP (0xFFFF < ·.toNat) = 0 := by omega
    simpa using List.countP_eq_zero.1 hcount c hc
  · intro hsmall
    rw [List.map_map, List.map_eq_flatMap]
    exact List.flatMap_congr fun c hc => if_pos (hsmall c hc)

/-- Text in the XML layer. A text without zeros survives the conversions exactly if it has no
code point above `0xFFFF`, and all but the last take at most `2 ^ 31 - 6` bytes. -/
theorem survives_iff {text : List Char} (h : '\x00' ∉ text) :
    Survives text ↔ (∀ c ∈ text, c.toNat ≤ 0xFFFF) ∧
      utf8Length (text.map Char.toNat).dropLast + 5 ≤ intMax := by
  have hreads := @readsAs_flatMap_iff (text.map Char.toNat) (fun _ => toNat_lt_of_mem_text)
    (text.flatMap utf16)
  rw [← flatMap_utf8EncodeChar, flatMap_utf16_eq_iff] at hreads
  rw [Survives, hreads]
  refine and_iff_left_of_imp fun ⟨hsmall, hint⟩ => ?_
  have hvalue : ∀ c ∈ text, (UInt16.ofNat c.toNat).toNat = c.toNat := fun c hc =>
    Nat.mod_eq_of_lt (Nat.lt_succ_of_le (hsmall c hc))
  have hzero : 0 ∉ (text.map Char.toNat).map UInt16.ofNat := by
    intro hmem
    rw [List.map_map] at hmem
    obtain ⟨c, hc, heq⟩ := List.mem_map.1 hmem
    have hnat := hvalue c hc
    rw [Function.comp_apply] at heq
    rw [heq] at hnat
    refine h ?_
    have hchar : c = '\x00' := Char.toNat_inj.1 hnat.symm
    exact hchar ▸ hc
  have hlength := length_le_of_utf8Length hint
  rw [List.length_map] at hlength
  rw [(flatMap_utf16_eq_iff text).2 hsmall, convertUtf16ToUtf8_eq hzero, List.length_map,
    List.length_map, if_pos hlength, flatMap_utf8EncodeChar, List.map_map, List.map_map]
  congr 2
  exact List.map_congr_left hvalue

/-- Text of one, two, and three bytes a character. -/
theorem survives_short : Survives ['a', '\u00e9', '\u4e2d', '\uffff'] := by
  refine (survives_iff (by decide)).2 ⟨fun c hc => ?_, by decide⟩
  simp only [List.mem_cons, List.not_mem_nil, or_false] at hc
  rcases hc with rfl | rfl | rfl | rfl <;> decide

/-- A character with a code point above `0xFFFF` is cut to 16 bits. -/
theorem not_survives_long : ¬∀ text, '\x00' ∉ text → Survives text := by
  intro h
  obtain ⟨⟨d, hd, hunits, -⟩, -⟩ := h [Char.ofNat 0x1F600] (by decide)
  obtain ⟨n, hn⟩ := hd fun _ => 0
  have heq := (Prod.mk.inj (convertUtf8ToUtf16_eq (hn n (Nat.le_refl n)))).1
  rw [hunits] at heq
  exact absurd heq (by decide)

end Ick.Converter
