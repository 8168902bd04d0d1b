import Ick.CmdTarget

/-!
# The reads of trim

`trim` of `Converter`, and that of `CmdTarget` with the same body, cut one blank after the other
off both ends of a text. A loop looks at `str[0]`, which is the zero behind an empty text, and then
one at `str[str.size() - 1]`, which is no character of an empty text : `size() - 1` is then the
largest `size_t`.

`Converter.trimReads` is the function with what it reads. It is safe exactly on the texts on which
`Converter.trim` has a result (`trimReads_of_trim`, `outside_of_trim`), and these are the empty text
and the ones that do not consist of blanks alone (`trimsSafely_iff`).
-/

namespace Ick

/-! ## Reading a text -/

/-- A character that was read, and the length of the text at that time. -/
structure CharRead where
  index : ℕ
  length : ℕ

/-- The terminating zero may be read as well. -/
def CharRead.Inside (r : CharRead) : Prop := r.index ≤ r.length

/-- `str[index]`, where something else may stand outside the text. -/
def charAt (outside : ℕ → Char) (str : Str) (index : ℕ) : Char :=
  if index = str.length then '\x00' else str.getD index (outside index)

/-- `size - 1` of a `size_t`. -/
def sizeMinusOne (size : ℕ) : ℕ := if size = 0 then 2 ^ 64 - 1 else size - 1

/-- `substr`, of a position within the text. -/
def substr (str : Str) (pos len : ℕ) : Str := (str.drop pos).take len

/-- `while (str[index] == ' ')` with `rest` as what is left of `str`, if it ends within so many
turns : the text at the end, and what was read. -/
def whileBlank (outside : ℕ → Char) (index : Str → ℕ) (rest : Str → Str) :
    ℕ → Str → Option (Str × List CharRead)
  | 0, _ => none
  | turns + 1, str =>
    let read : CharRead := { index := index str, length := str.length }
    if charAt outside str (index str) = ' ' then
      (whileBlank outside index rest turns (rest str)).map fun r => (r.1, read :: r.2)
    else some (str, [read])

/-- `Converter::trim`, if its loops end within so many turns, with what it reads. -/
def Converter.trimReads (outside : ℕ → Char) (turns : ℕ) (s : Str) : Option (Str × List CharRead) :=
  if s = [] then some ([], [])
  else do
    let (str, front) ← whileBlank outside (fun _ => 0)
      (fun str => substr str 1 (sizeMinusOne str.length)) turns s
    let (str, back) ← whileBlank outside (fun str => sizeMinusOne str.length)
      (fun str => substr str 0 (sizeMinusOne str.length)) turns str
    return (str, front ++ back)

/-- `CmdTarget::trim` -/
def CmdTarget.trimReads (outside : ℕ → Char) (turns : ℕ) (s : Str) : Option (Str × List CharRead) :=
  Converter.trimReads outside turns s

/-- On this text the function ends, reads nothing outside, and returns the text without the blanks
at its ends. -/
def TrimsSafely (trimReads : (ℕ → Char) → ℕ → Str → Option (Str × List CharRead))
    (s : Str) : Prop :=
  ∀ outside, ∃ n reads, (∀ turns ≥ n, trimReads outside turns s =
      some ((s.dropWhile (· = ' ')).rdropWhile (· = ' '), reads)) ∧
    ∀ r ∈ reads, r.Inside

/-! ## The loops -/

section Loops

variable {outside : ℕ → Char} {s t : Str} {turns : ℕ}

theorem charAt_cons_zero (c : Char) (s : Str) : charAt outside (c :: s) 0 = c := by
  simp [charAt]

theorem charAt_concat (c : Char) (s : Str) : charAt outside (s ++ [c]) s.length = c := by
  simp [charAt, List.getD_eq_getElem?_getD]

/-- The first loop reads nothing outside, whatever the text is. -/
theorem whileBlank_front (s : Str) : ∃ reads : List CharRead,
    (∀ outside, ∀ turns > s.length, whileBlank outside (fun _ => 0)
      (fun str => substr str 1 (sizeMinusOne str.length)) turns s =
        some (s.dropWhile (· = ' '), reads)) ∧
      ∀ r ∈ reads, r.Inside := by
  induction s with
  | nil =>
    refine ⟨[⟨0, 0⟩], fun outside turns hturns => ?_, by simp [CharRead.Inside]⟩
    obtain ⟨turns, rfl⟩ := Nat.exists_eq_add_one.2 hturns
    rfl
  | cons c s ih =>
    obtain ⟨reads, hreads, hinside⟩ := ih
    by_cases hc : c = ' '
    · refine ⟨⟨0, s.length + 1⟩ :: reads, fun outside turns hturns => ?_,
        List.forall_mem_cons.2 ⟨Nat.zero_le _, hinside⟩⟩
      obtain ⟨turns, rfl⟩ := Nat.exists_eq_add_one.2 (Nat.zero_lt_of_lt hturns)
      have hrest : substr (c :: s) 1 (sizeMinusOne (c :: s).length) = s :=
        List.take_of_length_le (by simp [sizeMinusOne])
      rw [whileBlank, charAt_cons_zero, if_pos hc, hrest,
        hreads outside turns (Nat.lt_of_succ_lt_succ hturns)]
      simp [hc]
    · refine ⟨[⟨0, s.length + 1⟩], fun outside turns hturns => ?_, by simp [CharRead.Inside]⟩
      obtain ⟨turns, rfl⟩ := Nat.exists_eq_add_one.2 (Nat.zero_lt_of_lt hturns)
      rw [whileBlank, charAt_cons_zero, if_neg hc]
      simp [hc]

/-- The second loop reads nothing outside if it comes to a character that is not blank. -/
theorem whileBlank_back (h : ∃ c ∈ s, c ≠ ' ') : ∃ reads : List CharRead,
    (∀ outside, ∀ turns > s.length, whileBlank outside (fun str => sizeMinusOne str.length)
      (fun str => substr str 0 (sizeMinusOne str.length)) turns s =
        some (s.rdropWhile (· = ' '), reads)) ∧
      ∀ r ∈ reads, r.Inside := by
  induction s using List.reverseRecOn with
  | nil => simp at h
  | append_singleton s c ih =>
    have hindex : sizeMinusOne (s ++ [c]).length = s.length := by simp [sizeMinusOne]
    have hread : (⟨s.length, (s ++ [c]).length⟩ : CharRead).Inside := by simp [CharRead.Inside]
    by_cases hc : c = ' '
    · obtain ⟨reads, hreads, hinside⟩ := ih (by simpa [hc] using h)
      refine ⟨⟨s.length, (s ++ [c]).length⟩ :: reads, fun outside turns hturns => ?_,
        List.forall_mem_cons.2 ⟨hread, hinside⟩⟩
      obtain ⟨turns, rfl⟩ := Nat.exists_eq_add_one.2 (Nat.zero_lt_of_lt hturns)
      have hrest : substr (s ++ [c]) 0 s.length = s := List.take_left
      rw [List.length_append] at hturns
      rw [whileBlank, hindex, charAt_concat, if_pos hc, hrest,
        hreads outside turns (Nat.lt_of_succ_lt_succ hturns),
        List.rdropWhile_concat_pos _ _ _ (by simpa using hc)]
      rfl
    · refine ⟨[⟨s.length, (s ++ [c]).length⟩], fun outside turns hturns => ?_,
        List.forall_mem_singleton.2 hread⟩
      obtain ⟨turns, rfl⟩ := Nat.exists_eq_add_one.2 (Nat.zero_lt_of_lt hturns)
      rw [whileBlank, hindex, charAt_concat, if_neg hc,
        List.rdropWhile_concat_neg _ _ _ (by simpa using hc)]

/-- A loop looks at its text at least once. -/
theorem mem_reads_of_whileBlank {index : Str → ℕ} {rest : Str → Str} {reads : List CharRead}
    (h : whileBlank outside index rest turns s = some (t, reads)) :
    (⟨index s, s.length⟩ : CharRead) ∈ reads := by
  cases turns with
  | zero => cases h
  | succ turns =>
    rw [whileBlank] at h
    split_ifs at h
    · obtain ⟨r, -, hr⟩ := Option.map_eq_some_iff.1 h
      rw [← (Prod.mk.inj hr).2]
      exact List.mem_cons_self
    · rw [← (Prod.mk.inj (Option.some.inj h)).2]
      exact List.mem_cons_self

/-! ## All texts -/

/-- Where `trim` has a result, it is read off the text without a read outside. -/
theorem trimReads_of_trim (h : Converter.trim s = some t) : ∃ reads : List CharRead,
    (∀ outside, ∀ turns > s.length, Converter.trimReads outside turns s = some (t, reads)) ∧
      ∀ r ∈ reads, r.Inside := by
  unfold Converter.trim at h
  split_ifs at h with hs hdrop
  · obtain rfl := Option.some.inj h
    exact ⟨[], fun outside turns _ => if_pos hs, nofun⟩
  · obtain rfl := Option.some.inj h
    obtain ⟨front, hfront, hinside⟩ := whileBlank_front s
    have hblank : ∃ c ∈ s.dropWhile (· = ' '), c ≠ ' ' := by
      have hhead := List.head?_dropWhile_not (fun c => decide (c = ' ')) s
      obtain ⟨c, rest, hrest⟩ := List.exists_cons_of_ne_nil hdrop
      rw [hrest] at hhead ⊢
      exact ⟨c, List.mem_cons_self, by simpa using hhead⟩
    obtain ⟨back, hback, hinside'⟩ := whileBlank_back hblank
    have hle := (List.dropWhile_suffix (l := s) fun c => decide (c = ' ')).length_le
    refine ⟨front ++ back, fun outside turns hturns => ?_, fun r hr => ?_⟩
    · rw [Converter.trimReads, if_neg hs, hfront outside turns hturns]
      simp only [Option.bind_eq_bind, Option.bind_some]
      rw [hback outside turns (by omega)]
      rfl
    · exact (List.mem_append.1 hr).elim (hinside r) (hinside' r)

/-- Where `trim` has none, the emptied text is read before its beginning. -/
theorem outside_of_trim (h : Converter.trim s = none) (hturns : s.length < turns)
    {r : Str × List CharRead} (hr : Converter.trimReads outside turns s = some r) :
    ⟨2 ^ 64 - 1, 0⟩ ∈ r.2 := by
  obtain ⟨hs, hblank⟩ := Converter.trim_eq_none h
  have hdrop : s.dropWhile (· = ' ') = [] := by
    rw [List.dropWhile_eq_nil_iff]
    simpa using hblank
  obtain ⟨front, hfront, -⟩ := whileBlank_front s
  rw [Converter.trimReads, if_neg hs, hfront outside turns hturns, hdrop] at hr
  simp only [Option.bind_eq_bind, Option.bind_some] at hr
  obtain ⟨⟨str, back⟩, hback, hr⟩ := Option.bind_eq_some_iff.1 hr
  rw [← Option.some.inj hr]
  exact List.mem_append_right _ (mem_reads_of_whileBlank hback)

theorem trim_eq_some (h : Converter.trim s = some t) :
    t = (s.dropWhile (· = ' ')).rdropWhile (· = ' ') ∧ (s = [] ∨ ∃ c ∈ s, c ≠ ' ') := by
  unfold Converter.trim at h
  split_ifs at h with hs hdrop
  · obtain rfl := Option.some.inj h
    rw [hs]
    exact ⟨rfl, Or.inl rfl⟩
  · refine ⟨(Option.some.inj h).symm, Or.inr ?_⟩
    simpa [List.dropWhile_eq_nil_iff] using hdrop

theorem trimsSafely_trimReads_iff (s : Str) :
    TrimsSafely Converter.trimReads s ↔ s = [] ∨ ∃ c ∈ s, c ≠ ' ' := by
  cases htrim : Converter.trim s with
  | none =>
    obtain ⟨hs, hblank⟩ := Converter.trim_eq_none htrim
    refine iff_of_false (fun hsafe => ?_) ?_
    · obtain ⟨n, reads, hreads, hinside⟩ := hsafe fun _ => '\x00'
      have hrun := hreads (n + s.length + 1) (by omega)
      have hread := hinside _ (outside_of_trim htrim (by omega) hrun)
      exact absurd hread (Nat.not_le.2 (by decide))
    · rintro (rfl | ⟨c, hc, hne⟩)
      · exact hs rfl
      · exact hne (hblank c hc)
  | some t =>
    obtain ⟨rfl, hs⟩ := trim_eq_some htrim
    obtain ⟨reads, hreads, hinside⟩ := trimReads_of_trim htrim
    exact iff_of_true (fun outside => ⟨s.length + 1, reads, hreads outside, hinside⟩) hs

/-- Both functions are safe on a text exactly if it is empty or does not consist of blanks. -/
theorem trimsSafely_iff (s : Str) :
    (TrimsSafely Converter.trimReads s ∧ TrimsSafely CmdTarget.trimReads s) ↔
      s = [] ∨ ∃ c ∈ s, c ≠ ' ' := by
  rw [← trimsSafely_trimReads_iff]
  exact and_self_iff

/-- A single blank. What is left of it is read at the largest `size_t`. -/
theorem not_trimsSafely_blank :
    ¬TrimsSafely Converter.trimReads [' '] ∧ ¬TrimsSafely CmdTarget.trimReads [' '] := by
  have hnot : ¬TrimsSafely Converter.trimReads [' '] := by
    rw [trimsSafely_trimReads_iff]
    simp
  exact ⟨hnot, hnot⟩

end Loops

end Ick
