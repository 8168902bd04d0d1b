import Mathlib.Data.List.Basic
import Mathlib.Tactic.SplitIfs
import Mathlib.Tactic.Linarith

/-!
# The blocks of the encoder

`LameHelper::Encode` passes the audio data to the encoder in blocks of `PCM_SIZE` frames, and
flushes the encoder in the turn in which nothing is left to read. For the turn that reaches
the end of the data it computes `read` from the length minus the position behind the block,
which is not what is left but what is missing, as a negative number (`nextRead_eq`).

So the loop goes backwards there, unless the data end with a block : then nothing is missing,
and the turn flushes the encoder instead of encoding the last block. No data are encoded as
they should be (`not_encodesOnce`), and if the data do not consist of whole frames the loop
never ends (`loop_eq_none`).
-/

namespace Ick.LameHelper

/-- A `std::string` of audio data, with the bound of its size. -/
structure PcmData where
  bytes : List UInt8
  length_lt : bytes.length < 2 ^ 63

/-- `PCM_SIZE` -/
def pcmSize : ℤ := 4096

/-- The bytes of a frame, `2 * sizeof(short int)`. -/
def frame : ℤ := 4

/-- `read` of a turn. The position and the length are of 64 bits and unsigned, and what is
computed from them is narrowed to an `int`. -/
def nextRead (length : ℕ) (cumulative_read : ℤ) : ℤ :=
  let behind : ℤ := (cumulative_read + frame * pcmSize) % 2 ^ 64
  if behind ≥ length then ((length - behind) % 2 ^ 64 / frame).bmod (2 ^ 32)
  else pcmSize

/-- A turn of the loop : where `audio_data` points, and what is read from there. The turn
flushes the encoder if that is nothing, and else passes it a block. -/
structure Turn where
  audio_data : ℤ
  read : ℤ
  deriving DecidableEq

/-- The `do`-`while` loop; `none` if it does not end within the turns. -/
def loop (length : ℕ) : ℕ → ℤ → Option (List Turn)
  | 0, _ => none
  | turns + 1, cumulative_read =>
    let read := nextRead length cumulative_read
    if read = 0 then some [⟨cumulative_read, read⟩]
    else
      (loop length turns ((cumulative_read + read * frame).bmod (2 ^ 64))).map
        (⟨cumulative_read, read⟩ :: ·)

/-- What a turn copies to `pcm_buffer`. -/
def block (bytes : List UInt8) (t : Turn) : List UInt8 :=
  (bytes.drop t.audio_data.toNat).take (t.read * frame).toNat

/-- The range that is copied is in the data. -/
def Inside (bytes : List UInt8) (t : Turn) : Prop :=
  0 < t.read → 0 ≤ t.audio_data ∧ t.audio_data + t.read * frame ≤ bytes.length

/-- The loop ends, reads forwards and inside the data, passes on each whole frame once and in
order, and flushes the encoder at its end and not before. -/
def EncodesOnce (pcm_data : PcmData) : Prop :=
  ∃ n blocks flush, loop pcm_data.bytes.length n 0 = some (blocks ++ [flush]) ∧
    (∀ t ∈ blocks ++ [flush], 0 ≤ t.read ∧ Inside pcm_data.bytes t) ∧
    (∀ t ∈ blocks, t.read ≠ 0) ∧ flush.read = 0 ∧
    blocks.flatMap (block pcm_data.bytes) =
      pcm_data.bytes.take (4 * (pcm_data.bytes.length / 4))

/-! ## One turn -/

/-- At the end of the data `read` is what is missing of a block, as a negative number. -/
theorem nextRead_eq {length : ℕ} (hlength : length < 2 ^ 63) {cumulative_read : ℤ}
    (hlo : -16384 ≤ cumulative_read) (hhi : cumulative_read ≤ length) :
    nextRead length cumulative_read =
      if cumulative_read + 16384 < length then 4096
      else -((cumulative_read + 16384 - length + 3) / 4) := by
  have hbehind : (cumulative_read + frame * pcmSize) % 2 ^ 64 = cumulative_read + 16384 := by
    rw [frame, pcmSize]
    omega
  unfold nextRead
  simp only [hbehind]
  by_cases hlt : cumulative_read + 16384 < length
  · rw [if_neg (not_le.2 hlt), if_pos hlt, pcmSize]
  · rw [if_pos (not_lt.1 hlt), if_neg hlt, frame, Int.bmod_def]
    split_ifs <;> omega

/-- The next position. -/
theorem loop_succ {length turns : ℕ} (hlength : length < 2 ^ 63) {cumulative_read : ℤ}
    (hlo : -16384 ≤ cumulative_read) (hhi : cumulative_read ≤ length) {read : ℤ}
    (hread : nextRead length cumulative_read = read) (hne : read ≠ 0) :
    loop length (turns + 1) cumulative_read =
      (loop length turns (cumulative_read + 4 * read)).map (⟨cumulative_read, read⟩ :: ·) := by
  have hnext : (cumulative_read + read * frame).bmod (2 ^ 64) = cumulative_read + 4 * read := by
    rw [nextRead_eq hlength hlo hhi] at hread
    have hsmall : -2 ^ 63 ≤ cumulative_read + 4 * read ∧ cumulative_read + 4 * read < 2 ^ 63 := by
      split_ifs at hread <;> omega
    rw [frame, mul_comm read 4]
    exact Int.bmod_eq_of_le (by omega) (by omega)
  rw [loop]
  simp only [hread, if_neg hne, hnext]

theorem length_block_le (bytes : List UInt8) (t : Turn) :
    (block bytes t).length ≤ 4 * t.read.toNat := by
  rw [block, List.length_take, frame]
  omega

/-! ## All turns -/

/-- A loop that never goes backwards stops one block before the end of the data. -/
theorem loop_forward {length : ℕ} (hlength : length < 2 ^ 63) {n : ℕ} :
    ∀ {cumulative_read : ℕ} {turns : List Turn}, cumulative_read ≤ length →
      loop length n cumulative_read = some turns → (∀ t ∈ turns, 0 ≤ t.read) →
      cumulative_read + 4 * (turns.map fun t => t.read.toNat).sum + 16384 = length := by
  induction n with
  | zero => exact fun _ h _ => nomatch h
  | succ n ih =>
    intro cumulative_read turns hle h hforward
    have hread := @nextRead_eq length hlength cumulative_read (by omega) (by omega)
    by_cases hlt : (cumulative_read : ℤ) + 16384 < length
    · rw [if_pos hlt] at hread
      rw [loop_succ hlength (by omega) (by omega) hread (by decide)] at h
      obtain ⟨rest, hrest, rfl⟩ := Option.map_eq_some_iff.1 h
      have hih := @ih (cumulative_read + 16384) rest (by omega) (by exact_mod_cast hrest)
        fun t ht => hforward t (List.mem_cons_of_mem _ ht)
      rw [List.map_cons, List.sum_cons]
      have : (4096 : ℤ).toNat = 4096 := rfl
      simp only [this]
      omega
    · rw [if_neg hlt] at hread
      by_cases hzero : nextRead length cumulative_read = 0
      · rw [loop] at h
        simp only [hzero, if_true, Option.some.injEq] at h
        subst h
        simp
        omega
      · rw [loop_succ hlength (by omega) (by omega) rfl hzero] at h
        obtain ⟨rest, hrest, rfl⟩ := Option.map_eq_some_iff.1 h
        have := hforward _ List.mem_cons_self
        simp only at this
        omega

/-- The blocks of the encoder. There are no data that are encoded once and flushed. -/
theorem not_encodesOnce (pcm_data : PcmData) : ¬EncodesOnce pcm_data := by
  rintro ⟨n, blocks, flush, hloop, hturns, -, hflush, hblocks⟩
  have hsum := @loop_forward _ pcm_data.length_lt n 0 _ (Nat.zero_le _) hloop
    fun t ht => (hturns t ht).1
  have hlen : ∀ ts : List Turn, (ts.flatMap (block pcm_data.bytes)).length ≤
      4 * (ts.map fun t => t.read.toNat).sum := by
    intro ts
    induction ts with
    | nil => exact le_rfl
    | cons t ts ih =>
      have := length_block_le pcm_data.bytes t
      rw [List.flatMap_cons, List.length_append, List.map_cons, List.sum_cons]
      omega
  have hle := hlen blocks
  rw [hblocks, List.length_take] at hle
  rw [List.map_append, List.sum_append] at hsum
  omega

/-- One frame : the first turn reads backwards. -/
theorem not_encodesOnce_frame : ¬EncodesOnce ⟨[1, 2, 3, 4], by decide⟩ := by
  rintro ⟨n, blocks, flush, hloop, hturns, -⟩
  cases n with
  | zero => cases hloop
  | succ n =>
    have hread : nextRead 4 0 = -4095 := by decide
    rw [loop] at hloop
    simp only [List.length_cons, List.length_nil, Nat.zero_add, Nat.reduceAdd, hread] at hloop
    obtain ⟨rest, -, hrest⟩ := Option.map_eq_some_iff.1 hloop
    have := (hturns ⟨0, -4095⟩ (hrest ▸ List.mem_cons_self)).1
    revert this
    decide

/-- Data that are not whole frames are never done with : the position is a whole number of
frames, so that the block behind it never ends with the data. -/
theorem loop_eq_none {length : ℕ} (hlength : length < 2 ^ 63) (hframe : length % 4 ≠ 0) (n : ℕ) :
    ∀ {cumulative_read : ℤ}, -16384 ≤ cumulative_read → cumulative_read ≤ length →
      cumulative_read % 4 = 0 → loop length n cumulative_read = none := by
  induction n with
  | zero => exact fun _ _ _ => rfl
  | succ n ih =>
    intro cumulative_read hlo hhi hmod
    have hread := nextRead_eq hlength hlo hhi
    have hne : nextRead length cumulative_read ≠ 0 := by
      rw [hread]
      split_ifs <;> omega
    rw [loop_succ hlength hlo hhi rfl hne, ih _ _ _, Option.map_none]
    all_goals
      rw [hread]
      split_ifs <;> omega

end Ick.LameHelper
