import Ick.Unicode
import Mathlib.Algebra.Group.Nat.Defs

/-!
# The index of the UTF-8 reader

`convertUtf8ToUtf16` counts the bytes it has read with an `int`, and at the head of each turn it
takes six bytes from there on, whether the sequence is that long or not. `decodeFrom` is its loop
with the index : undefined where the index, or the index of the last of the six bytes, is no `int`.

What stands behind the text is never used (`decodeUnit_part`, `decodeUnit_eq_none`) : a byte is
asked for only if the ones before it belong to the sequence, and the zero at the end of the text is
no continuation byte. So a call does what it should exactly if the index fits wherever the
sequences of the text take it (`decodes_iff`), as it does in every text of at most `2 ^ 31 - 5`
bytes (`indexable_of_length`).
-/

namespace Ick.Converter

/-! ## Sequences -/

/-- The length of a sequence, by its first byte. There are none of six bytes : the branch for
them compares a byte shifted by two, not by one, with `0x7E`. -/
def sequenceLength (lead : ℕ) : Option ℕ :=
  if lead < 0x80 then some 1
  else if lead < 0xC0 then none
  else if lead < 0xE0 then some 2
  else if lead < 0xF0 then some 3
  else if lead < 0xF8 then some 4
  else if lead < 0xFC then some 5
  else none

/-- A byte that is not the first of its sequence. -/
def Continuation (byte : ℕ) : Prop := 0x80 ≤ byte ∧ byte < 0xC0

/-- The bytes `ch` begin with a sequence of `len` bytes. -/
def Begins (ch : ℕ → ℕ) (len : ℕ) : Prop :=
  sequenceLength (ch 0) = some len ∧ ∀ k, 0 < k → k < len → Continuation (ch k)

/-- A whole sequence. -/
def IsSequence : List UInt8 → Prop
  | [] => False
  | lead :: tail =>
    sequenceLength lead.toNat = some (tail.length + 1) ∧ ∀ byte ∈ tail, Continuation byte.toNat

/-- Whole sequences, one after the other. -/
def AreSequences (bytes : List UInt8) : Prop :=
  ∃ parts : List (List UInt8), bytes = parts.flatten ∧ ∀ part ∈ parts, IsSequence part

/-! ## The loop -/

/-- What a call has done : the units that were appended, whether a format error was reported, and
the index at the head of each turn. -/
structure Decoding where
  units : List UInt16
  error : Bool
  indexes : List ℕ

/-- The loop of `convertUtf8ToUtf16` from index `i`, if it ends within so many turns. There is
none where an `int` overflows. -/
def decodeFrom (behind : ℕ → UInt8) (str : List UInt8) : ℕ → ℕ → Option Decoding
  | 0, _ => none
  | turns + 1, i =>
    if i < str.length then
      if intMax < i + 5 then none
      else
        match decodeUnit fun k => byteAt behind str (i + k) with
        | none => some { units := [], error := true, indexes := [i] }
        | some (s, len) =>
          if intMax < i + len then none
          else
            (decodeFrom behind str turns (i + len)).map fun d =>
              { d with units := .ofNat s :: d.units, indexes := i :: d.indexes }
    else some { units := [], error := false, indexes := [i] }

/-- `convertUtf8ToUtf16`, with a vector for the units, if it ends within so many turns. -/
def convertUtf8ToUtf16 (behind : ℕ → UInt8) (turns : ℕ) (str : List UInt8) : Option Decoding :=
  if str = [] then some { units := [], error := false, indexes := [] }
  else decodeFrom behind str turns 0

/-- A call with this text ends, does the same whatever stands behind the text, and its index
increases and stays within the text. -/
def Decodes (str : List UInt8) : Prop :=
  ∃ d : Decoding, (∀ behind, ∃ n, ∀ turns ≥ n, convertUtf8ToUtf16 behind turns str = some d) ∧
    d.indexes.Pairwise (· < ·) ∧ ∀ i ∈ d.indexes, i ≤ str.length

/-- Wherever whole sequences lead, the index is an `int`, and so is that of the last byte which is
taken there if the text goes on. -/
def Indexable (str : List UInt8) : Prop :=
  ∀ pre rest, str = pre ++ rest → AreSequences pre →
    pre.length ≤ intMax ∧ (rest ≠ [] → pre.length + 5 ≤ intMax)

/-! ## The bytes of a sequence -/

section Begin

variable {ch ch' : ℕ → ℕ} {len s : ℕ}

theorem sequenceLength_bounds {lead : ℕ} (h : sequenceLength lead = some len) :
    0 < len ∧ len ≤ 5 := by
  unfold sequenceLength at h
  split_ifs at h
  all_goals
    obtain rfl := Option.some.inj h
    decide

theorem Begins.congr (h : Begins ch len) (heq : ∀ k < len, ch k = ch' k) : Begins ch' len := by
  have hpos := (sequenceLength_bounds h.1).1
  exact ⟨heq 0 hpos ▸ h.1, fun k hk hlen => heq k hlen ▸ h.2 k hk hlen⟩

/-- What is decoded is the sequence at the head. -/
theorem begins_of_decodeUnit (hbyte : ch 0 < 256) (h : decodeUnit ch = some (s, len)) :
    Begins ch len := by
  simp only [decodeUnit, Nat.shiftRight_eq_div_pow] at h
  split_ifs at h
  all_goals
    obtain ⟨-, rfl⟩ := Prod.mk.inj (Option.some.inj h)
    refine ⟨?_, fun k hk hlen => ?_⟩
    · unfold sequenceLength
      split_ifs <;> first | rfl | omega
    · unfold Continuation
      have hk' : k = 1 ∨ k = 2 ∨ k = 3 ∨ k = 4 ∨ k = 5 := by omega
      rcases hk' with rfl | rfl | rfl | rfl | rfl <;> omega

/-- What the sequence at the head is decoded to depends on nothing behind it. -/
theorem decodeUnit_of_begins (h : Begins ch len) :
    ∃ s, ∀ ch' : ℕ → ℕ, (∀ k < len, ch k = ch' k) → decodeUnit ch' = some (s, len) := by
  obtain ⟨hlead, htail⟩ := h
  unfold Continuation at htail
  unfold sequenceLength at hlead
  simp only [decodeUnit, Nat.shiftRight_eq_div_pow]
  split_ifs at hlead
  all_goals
    obtain rfl := Option.some.inj hlead
    have h₁ := htail 1
    have h₂ := htail 2
    have h₃ := htail 3
    have h₄ := htail 4
    apply Exists.intro
    intro ch' heq
  · rw [← heq 0 (by decide), if_pos (by omega)]
  · rw [← heq 0 (by decide), ← heq 1 (by decide), if_neg (by omega), if_pos (by omega)]
  · rw [← heq 0 (by decide), ← heq 1 (by decide), ← heq 2 (by decide), if_neg (by omega),
      if_neg (by omega), if_pos (by omega)]
  · rw [← heq 0 (by decide), ← heq 1 (by decide), ← heq 2 (by decide), ← heq 3 (by decide),
      if_neg (by omega), if_neg (by omega), if_neg (by omega), if_pos (by omega)]
  · rw [← heq 0 (by decide), ← heq 1 (by decide), ← heq 2 (by decide), ← heq 3 (by decide),
      ← heq 4 (by decide), if_neg (by omega), if_neg (by omega), if_neg (by omega),
      if_neg (by omega), if_pos (by omega)]

end Begin

/-! ## A sequence in the text -/

section Text

variable {behind : ℕ → UInt8} {pre part rest : List UInt8} {len s : ℕ}

theorem byteAt_lt (behind : ℕ → UInt8) (str : List UInt8) (i : ℕ) : byteAt behind str i < 256 := by
  unfold byteAt
  split
  · exact UInt8.toNat_lt _
  · split_ifs
    · decide
    · exact UInt8.toNat_lt _

theorem byteAt_append_length (k : ℕ) :
    byteAt behind (pre ++ rest) (pre.length + k) = byteAt behind rest k := by
  have hget : (pre ++ rest)[pre.length + k]? = rest[k]? := by
    rw [List.getElem?_append_right (Nat.le_add_right _ _), Nat.add_sub_cancel_left]
  rw [byteAt, byteAt, hget, List.length_append, Nat.add_sub_add_left]
  simp only [Nat.add_left_cancel_iff]

theorem byteAt_append_of_lt {k : ℕ} (hk : k < part.length) :
    byteAt behind (part ++ rest) k = part[k].toNat := by
  rw [byteAt, List.getElem?_append_left hk, List.getElem?_eq_getElem hk]

theorem byteAt_length : byteAt behind rest rest.length = 0 := by
  simp [byteAt]

theorem begins_iff_isSequence (hpart : part ≠ []) :
    Begins (byteAt behind (part ++ rest)) part.length ↔ IsSequence part := by
  obtain ⟨lead, tail, rfl⟩ := List.exists_cons_of_ne_nil hpart
  refine and_congr Iff.rfl ?_
  rw [List.forall_mem_iff_getElem]
  constructor
  · intro h k hk
    have := h (k + 1) (Nat.succ_pos k) (Nat.succ_lt_succ hk)
    rwa [byteAt_append_of_lt (Nat.succ_lt_succ hk), List.getElem_cons_succ] at this
  · intro h k hpos hk
    obtain ⟨k, rfl⟩ := Nat.exists_eq_add_one.2 hpos
    rw [byteAt_append_of_lt hk, List.getElem_cons_succ]
    exact h k (Nat.lt_of_succ_lt_succ hk)

/-- The zero at the end of the text belongs to no sequence, unless it is the first byte. -/
theorem Begins.le_length (h : Begins (byteAt behind rest) len) (hrest : rest ≠ []) :
    len ≤ rest.length := by
  by_contra hlen
  have hzero := h.2 rest.length (List.length_pos_iff.2 hrest) (by omega)
  rw [byteAt_length] at hzero
  exact absurd hzero.1 (by decide)

/-- A sequence that is decoded is a part of the text. -/
theorem exists_part (hrest : rest ≠ []) (h : decodeUnit (byteAt behind rest) = some (s, len)) :
    ∃ part rest', rest = part ++ rest' ∧ part.length = len ∧ IsSequence part := by
  have hbegins := begins_of_decodeUnit (byteAt_lt behind rest 0) h
  have hlen : (rest.take len).length = len :=
    List.length_take_of_le (hbegins.le_length hrest)
  have hpos := (sequenceLength_bounds hbegins.1).1
  have hne : rest.take len ≠ [] := List.ne_nil_of_length_pos (by omega)
  refine ⟨rest.take len, rest.drop len, (List.take_append_drop len rest).symm, hlen, ?_⟩
  rwa [← begins_iff_isSequence hne, List.take_append_drop, hlen]

/-- A sequence at the head of the rest of the text is decoded, to what does not depend on the
bytes behind it. -/
theorem decodeUnit_part (hpart : IsSequence part) :
    ∃ s, ∀ behind rest, decodeUnit (byteAt behind (part ++ rest)) = some (s, part.length) := by
  have hne : part ≠ [] := by
    rintro rfl
    exact hpart
  obtain ⟨s, hs⟩ :=
    decodeUnit_of_begins ((@begins_iff_isSequence (fun _ => 0) part [] hne).2 hpart)
  refine ⟨s, fun behind rest => hs _ fun k hk => ?_⟩
  rw [byteAt_append_of_lt hk, byteAt_append_of_lt hk]

/-- A format error does not depend on what stands behind the text either. -/
theorem decodeUnit_eq_none (hrest : rest ≠ []) (h : decodeUnit (byteAt behind rest) = none)
    (behind' : ℕ → UInt8) : decodeUnit (byteAt behind' rest) = none := by
  by_contra hsome
  obtain ⟨⟨s, len⟩, hs⟩ := Option.ne_none_iff_exists'.1 hsome
  obtain ⟨part, rest', rfl, -, hpart⟩ := exists_part hrest hs
  obtain ⟨s', hs'⟩ := decodeUnit_part hpart
  exact absurd (h.symm.trans (hs' behind rest')) nofun

end Text

/-! ## A turn, and a call -/

section Loop

variable {behind : ℕ → UInt8} {pre part rest : List UInt8} {turns : ℕ} {d : Decoding}

theorem AreSequences.append (hpre : AreSequences pre) (hpart : IsSequence part) :
    AreSequences (pre ++ part) := by
  obtain ⟨parts, rfl, hparts⟩ := hpre
  refine ⟨parts ++ [part], by simp, fun x hx => ?_⟩
  rcases List.mem_append.1 hx with hx | hx
  · exact hparts x hx
  · exact List.mem_singleton.1 hx ▸ hpart

theorem IsSequence.length_bounds (hpart : IsSequence part) :
    0 < part.length ∧ part.length ≤ 5 := by
  cases part with
  | nil => exact hpart.elim
  | cons lead tail => exact sequenceLength_bounds hpart.1

theorem decodeFrom_end : decodeFrom behind pre (turns + 1) pre.length =
    some { units := [], error := false, indexes := [pre.length] } := by
  rw [decodeFrom, if_neg (Nat.lt_irrefl _)]

/-- A turn with text left. -/
theorem decodeFrom_turn (hrest : rest ≠ []) :
    decodeFrom behind (pre ++ rest) (turns + 1) pre.length =
      if intMax < pre.length + 5 then none
      else
        match decodeUnit (byteAt behind rest) with
        | none => some { units := [], error := true, indexes := [pre.length] }
        | some (s, len) =>
          (decodeFrom behind (pre ++ rest) turns (pre.length + len)).map fun d =>
            { d with units := .ofNat s :: d.units, indexes := pre.length :: d.indexes } := by
  have hlt : pre.length < (pre ++ rest).length := by
    have := List.length_pos_iff.2 hrest
    rw [List.length_append]
    omega
  have hread : (fun k => byteAt behind (pre ++ rest) (pre.length + k)) = byteAt behind rest :=
    funext byteAt_append_length
  rw [decodeFrom, if_pos hlt, hread]
  by_cases hint : intMax < pre.length + 5
  · rw [if_pos hint, if_pos hint]
  rw [if_neg hint, if_neg hint]
  cases hunit : decodeUnit (byteAt behind rest) with
  | none => rfl
  | some r =>
    have hlen := (sequenceLength_bounds (begins_of_decodeUnit (byteAt_lt behind rest 0) hunit).1).2
    have hint' : ¬intMax < pre.length + r.2 := by omega
    exact if_neg hint'

/-- A turn that reads a sequence. -/
theorem decodeFrom_part (hpart : IsSequence part) (hint : pre.length + 5 ≤ intMax) :
    ∃ s, ∀ behind rest turns,
      decodeFrom behind (pre ++ (part ++ rest)) (turns + 1) pre.length =
        (decodeFrom behind ((pre ++ part) ++ rest) turns (pre ++ part).length).map fun d =>
          { d with units := .ofNat s :: d.units, indexes := pre.length :: d.indexes } := by
  have hpos := hpart.length_bounds.1
  obtain ⟨s, hs⟩ := decodeUnit_part hpart
  refine ⟨s, fun behind rest turns => ?_⟩
  have hne : part ++ rest ≠ [] :=
    List.append_ne_nil_of_left_ne_nil (List.ne_nil_of_length_pos hpos) _
  rw [decodeFrom_turn hne, if_neg (Nat.not_lt.2 hint), hs, List.append_assoc, List.length_append]

/-- The rest of a text is read in the same way whatever stands behind it, in at most as many turns
as it has bytes, and one more. -/
structure Reads (pre rest : List UInt8) (d : Decoding) : Prop where
  decodes : ∀ behind, ∀ turns > rest.length,
    decodeFrom behind (pre ++ rest) turns pre.length = some d
  increasing : d.indexes.Pairwise (· < ·)
  within : ∀ i ∈ d.indexes, pre.length ≤ i ∧ i ≤ pre.length + rest.length

/-- The turn that ends the loop. -/
theorem reads_last {error : Bool} (h : ∀ behind turns,
      decodeFrom behind (pre ++ rest) (turns + 1) pre.length = some ⟨[], error, [pre.length]⟩) :
    Reads pre rest ⟨[], error, [pre.length]⟩ := by
  refine ⟨fun behind turns hturns => ?_, List.pairwise_singleton _ _, ?_⟩
  · obtain ⟨turns, rfl⟩ := Nat.exists_eq_add_one.2 (Nat.zero_lt_of_lt hturns)
    exact h behind turns
  · exact List.forall_mem_singleton.2 ⟨Nat.le_refl _, Nat.le_add_right _ _⟩

/-- A turn that reads a sequence, and those after it. -/
theorem Reads.sequence (hpart : IsSequence part) (hint : pre.length + 5 ≤ intMax)
    (h : Reads (pre ++ part) rest d) : ∃ d, Reads pre (part ++ rest) d := by
  have hpos := hpart.length_bounds.1
  have hwithin := h.within
  obtain ⟨s, hturn⟩ := decodeFrom_part hpart hint
  rw [List.length_append] at hwithin
  refine ⟨⟨.ofNat s :: d.units, d.error, pre.length :: d.indexes⟩, fun behind turns hturns => ?_,
    List.pairwise_cons.2 ⟨fun i hi => ?_, h.increasing⟩,
    List.forall_mem_cons.2 ⟨by omega, fun i hi => ?_⟩⟩
  · obtain ⟨turns, rfl⟩ := Nat.exists_eq_add_one.2 (Nat.zero_lt_of_lt hturns)
    rw [List.length_append] at hturns
    rw [hturn, h.decodes behind turns (by omega)]
    rfl
  · have := hwithin i hi
    omega
  · have := hwithin i hi
    rw [List.length_append]
    omega

/-- Where the index fits, what is left of a text can be read. -/
theorem exists_reads (hpre : AreSequences pre) (h : Indexable (pre ++ rest)) :
    ∃ d, Reads pre rest d := by
  induction hn : rest.length using Nat.strongRecOn generalizing pre rest with
  | _ n ih =>
    subst hn
    obtain rfl | hrest := eq_or_ne rest []
    · refine ⟨⟨[], false, [pre.length]⟩, reads_last fun behind turns => ?_⟩
      rw [List.append_nil]
      exact decodeFrom_end
    have hint := (h pre rest rfl hpre).2 hrest
    cases hunit : decodeUnit (byteAt (fun _ => 0) rest) with
    | none =>
      refine ⟨⟨[], true, [pre.length]⟩, reads_last fun behind turns => ?_⟩
      rw [decodeFrom_turn hrest, if_neg (Nat.not_lt.2 hint),
        decodeUnit_eq_none hrest hunit behind]
    | some r =>
      obtain ⟨part, rest', rfl, -, hpart⟩ := exists_part hrest hunit
      have hpos := hpart.length_bounds.1
      rw [List.length_append] at ih
      rw [← List.append_assoc] at h
      obtain ⟨d, hd⟩ := ih rest'.length (by omega) (hpre.append hpart) h rfl
      exact hd.sequence hpart hint

theorem index_of_turn (hrest : rest ≠ [])
    (h : decodeFrom behind (pre ++ rest) turns pre.length = some d) :
    pre.length + 5 ≤ intMax ∧ ∃ n, turns = n + 1 := by
  cases turns with
  | zero => cases h
  | succ turns =>
    refine ⟨?_, turns, rfl⟩
    rw [decodeFrom_turn hrest] at h
    by_contra hint
    rw [if_pos (Nat.lt_of_not_le hint)] at h
    cases h

/-- In a call that ends, the index fits wherever whole sequences lead. -/
theorem index_of_decodeFrom {parts : List (List UInt8)} (hparts : ∀ part ∈ parts, IsSequence part)
    (hpre : pre.length ≤ intMax)
    (h : decodeFrom behind (pre ++ (parts.flatten ++ rest)) turns pre.length = some d) :
    pre.length + parts.flatten.length ≤ intMax ∧
      (rest ≠ [] → pre.length + parts.flatten.length + 5 ≤ intMax) := by
  induction parts generalizing pre turns d with
  | nil => exact ⟨hpre, fun hrest => (index_of_turn hrest h).1⟩
  | cons part parts ih =>
    rw [List.forall_mem_cons] at hparts
    have hpart := hparts.1.length_bounds
    have hne : part ++ (parts.flatten ++ rest) ≠ [] :=
      List.append_ne_nil_of_left_ne_nil (List.ne_nil_of_length_pos hpart.1) _
    rw [List.flatten_cons, List.append_assoc] at h
    obtain ⟨hint, turns, rfl⟩ := index_of_turn hne h
    obtain ⟨s, hturn⟩ := decodeFrom_part hparts.1 hint
    rw [hturn, Option.map_eq_some_iff] at h
    obtain ⟨d', hd', -⟩ := h
    have hrest := ih hparts.2 (by rw [List.length_append]; omega) hd'
    rw [List.length_append] at hrest
    rw [List.flatten_cons, List.length_append, ← Nat.add_assoc]
    exact hrest

/-- A loop that ends does what it does without the index. -/
theorem decodeLoop_eq {n : ℕ} (hn : rest.length ≤ n)
    (h : decodeFrom behind (pre ++ rest) turns pre.length = some d) :
    decodeLoop behind n rest = (d.units, d.error) := by
  induction turns generalizing pre rest n d with
  | zero => cases h
  | succ turns ih =>
    cases rest with
    | nil =>
      rw [List.append_nil, decodeFrom_end] at h
      obtain rfl := Option.some.inj h
      cases n <;> rfl
    | cons byte rest =>
      obtain ⟨n, rfl⟩ := Nat.exists_eq_add_one.2 (Nat.zero_lt_of_lt hn)
      have hint := (index_of_turn (List.cons_ne_nil _ _) h).1
      rw [decodeFrom_turn (List.cons_ne_nil _ _), if_neg (Nat.not_lt.2 hint)] at h
      cases hunit : decodeUnit (byteAt behind (byte :: rest)) with
      | none =>
        rw [hunit] at h
        obtain rfl := Option.some.inj h
        simp only [decodeLoop, hunit]
      | some r =>
        obtain ⟨part, rest', hpart, hlen, hsequence⟩ := exists_part (List.cons_ne_nil _ _) hunit
        have hpos := hsequence.length_bounds.1
        have hdrop : (byte :: rest).drop r.2 = rest' := by
          rw [hpart, ← hlen, List.drop_left]
        rw [hunit, hpart, Option.map_eq_some_iff] at h
        obtain ⟨d', hd', rfl⟩ := h
        rw [← hlen, ← List.append_assoc, ← List.length_append] at hd'
        rw [hpart, List.length_append] at hn
        have hrest := ih (n := n) (by omega) hd'
        simp only [decodeLoop, hunit, hdrop, hrest]

end Loop

/-! ## All texts -/

section Texts

variable {str : List UInt8}

/-- In a text with which a call ends, the index fits. -/
theorem indexable_of_call {behind : ℕ → UInt8} {turns : ℕ} {d : Decoding}
    (h : convertUtf8ToUtf16 behind turns str = some d) : Indexable str := by
  rintro pre rest rfl ⟨parts, rfl, hparts⟩
  obtain hstr | hstr := eq_or_ne (parts.flatten ++ rest) []
  · obtain ⟨hpre, hrest⟩ := List.append_eq_nil_iff.1 hstr
    rw [hpre]
    exact ⟨Nat.zero_le _, fun hne => absurd hrest hne⟩
  rw [convertUtf8ToUtf16, if_neg hstr] at h
  simpa using @index_of_decodeFrom _ [] rest turns d parts hparts (Nat.zero_le _) h

theorem Decodes.indexable (h : Decodes str) : Indexable str := by
  obtain ⟨d, hd, -, -⟩ := h
  obtain ⟨n, hn⟩ := hd fun _ => 0
  exact indexable_of_call (hn n (Nat.le_refl n))

/-- A call with a text that can be read from its start. -/
theorem Reads.call {d : Decoding} (hd : Reads [] str d) : Decodes str := by
  obtain rfl | hstr := eq_or_ne str []
  · exact ⟨⟨[], false, []⟩, fun behind => ⟨0, fun _ _ => if_pos rfl⟩, .nil, nofun⟩
  refine ⟨d, fun behind => ⟨str.length + 1, fun turns hturns => ?_⟩, hd.increasing,
    fun i hi => ?_⟩
  · rw [convertUtf8ToUtf16, if_neg hstr]
    exact hd.decodes behind turns hturns
  · simpa using (hd.within i hi).2

theorem Indexable.decodes (h : Indexable str) : Decodes str := by
  obtain ⟨d, hd⟩ := @exists_reads [] str ⟨[], rfl, nofun⟩ h
  exact hd.call

/-- What a call that ends has done. -/
theorem convertUtf8ToUtf16_eq {behind : ℕ → UInt8} {turns : ℕ} {d : Decoding}
    (h : convertUtf8ToUtf16 behind turns str = some d) :
    unitsOf behind str = (d.units, d.error) := by
  unfold convertUtf8ToUtf16 at h
  split_ifs at h with hstr
  · obtain rfl := Option.some.inj h
    rw [hstr]
    rfl
  · exact @decodeLoop_eq _ [] str turns d str.length (Nat.le_refl _) h

/-- The reader. It does the same whatever stands behind the text, with an index that increases and
stays within the text, exactly if the index is an `int` wherever sequences lead. -/
theorem decodes_iff (str : List UInt8) : Decodes str ↔ Indexable str :=
  ⟨Decodes.indexable, Indexable.decodes⟩

/-- The last sequence lacks a byte, and the memory behind the text has one. -/
example : convertUtf8ToUtf16 (fun _ => 0xBF) 3 [0x61, 0xE4, 0xBD] =
    some { units := [0x61], error := true, indexes := [0, 1] } := rfl

/-- A text of 2 GiB. The index passes the largest `int`. -/
theorem not_decodes_long : ¬Decodes (List.replicate (2 ^ 31) 0x61) := by
  intro h
  have hsequences : AreSequences (List.replicate (2 ^ 31) 0x61) := by
    refine ⟨List.replicate (2 ^ 31) [0x61], List.flatten_replicate_singleton.symm, ?_⟩
    intro part hpart
    rw [List.eq_of_mem_replicate hpart]
    exact ⟨rfl, nofun⟩
  have hlength := (h.indexable _ [] (List.append_nil _).symm hsequences).1
  rw [List.length_replicate] at hlength
  exact absurd hlength (by decide)

theorem indexable_of_length (h : str.length + 5 ≤ 2 ^ 31) : Indexable str := by
  rintro pre rest rfl -
  rw [List.length_append] at h
  unfold intMax
  refine ⟨by omega, fun hrest => ?_⟩
  have := List.length_pos_iff.2 hrest
  omega

end Texts

end Ick.Converter
