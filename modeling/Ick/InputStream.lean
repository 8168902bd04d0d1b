import Mathlib.Data.List.Basic
import Mathlib.Tactic.SplitIfs

/-!
# Streams read by lines

A stream has the elements that have not been read, and two bits that say how reading went.
`getline` reads up to a delimiter into a buffer of a fixed size. It fails if the line does not fit,
and it fails, without reading anything, once a bit is set.

A loop that calls `getline` until the end of the stream was met goes over the lines exactly when
every line fits (`forEachLine_eq_foldl`, `exists_forEachLine_iff`) : after a line that does not fit
the end is never met.

`getText` reads a line of any length. A loop that runs as long as it does not fail goes over the
lines but for an empty last one (`whileLine_eq_foldl`), so it does not see whether the text ends
with a delimiter.
-/

namespace Ick

/-- The elements left, and `eofbit` and `failbit`. -/
structure InputStream (α : Type*) where
  rest : List α
  eof : Bool
  fail : Bool

namespace InputStream

/-- What has ended a line : the end of the stream, the delimiter, or the end of the buffer. -/
inductive Stop
  | eof
  | delim
  | full

variable {α β : Type*} [DecidableEq α]

/-- The loop of `getline` with room for so many elements more : the line, what has ended it, and
the elements left. -/
def getlineLoop (delim : α) : ℕ → List α → List α × Stop × List α
  | _, [] => ([], .eof, [])
  | room, c :: rest =>
    if c = delim then ([], .delim, rest)
    else if room = 0 then ([], .full, c :: rest)
    else (c :: (getlineLoop delim (room - 1) rest).1, (getlineLoop delim (room - 1) rest).2)

/-- `getline` with a buffer of `n` elements, of which one is for the end of the line. -/
def getline (delim : α) (n : ℕ) (s : InputStream α) : List α × InputStream α :=
  if s.eof || s.fail then ([], { s with fail := true })
  else
    match getlineLoop delim (n - 1) s.rest with
    | (line, .eof, rest) => (line, ⟨rest, true, line.isEmpty⟩)
    | (line, .delim, rest) => (line, ⟨rest, false, false⟩)
    | (line, .full, rest) => (line, ⟨rest, false, true⟩)

/-- `while (!stream.eof())`, with a line read in each round; `none` if the rounds do not suffice. -/
def forEachLine (delim : α) (n : ℕ) (body : β → List α → β) :
    ℕ → InputStream α → β → Option β
  | 0, _, _ => none
  | fuel + 1, s, b =>
    if s.eof then some b
    else forEachLine delim n body fuel (s.getline delim n).2 (body b (s.getline delim n).1)

variable {delim : α} {n : ℕ} {body : β → List α → β}

/-! ## One line -/

theorem getlineLoop_delim {line : List α} (h : delim ∉ line) (rest : List α) :
    ∀ {room : ℕ}, line.length ≤ room →
      getlineLoop delim room (line ++ delim :: rest) = (line, .delim, rest) := by
  induction line with
  | nil => exact fun _ => if_pos rfl
  | cons c line ih =>
    rw [List.mem_cons, not_or] at h
    intro room hroom
    rw [List.length_cons] at hroom
    rw [List.cons_append, getlineLoop, if_neg (Ne.symm h.1), if_neg (by omega), ih h.2 (by omega)]

theorem getlineLoop_eof {line : List α} (h : delim ∉ line) :
    ∀ {room : ℕ}, line.length ≤ room → getlineLoop delim room line = (line, .eof, []) := by
  induction line with
  | nil => exact fun _ => rfl
  | cons c line ih =>
    rw [List.mem_cons, not_or] at h
    intro room hroom
    rw [List.length_cons] at hroom
    rw [getlineLoop, if_neg (Ne.symm h.1), if_neg (by omega), ih h.2 (by omega)]

theorem getlineLoop_full {line : List α} (h : delim ∉ line) (rest : List α) :
    ∀ {room : ℕ}, room < line.length →
      getlineLoop delim room (line ++ rest) =
        (line.take room, .full, line.drop room ++ rest) := by
  induction line with
  | nil => exact fun hroom => absurd hroom (Nat.not_lt_zero _)
  | cons c line ih =>
    rw [List.mem_cons, not_or] at h
    intro room hroom
    rw [List.cons_append, getlineLoop, if_neg (Ne.symm h.1)]
    cases room with
    | zero => rfl
    | succ room =>
      rw [if_neg (Nat.succ_ne_zero _), Nat.add_sub_cancel, ih h.2 (Nat.lt_of_succ_lt_succ hroom)]
      rfl

/-- A line that fits, with more behind it. -/
theorem getline_delim {line : List α} (h : delim ∉ line) (hfits : line.length < n)
    (rest : List α) :
    getline delim n ⟨line ++ delim :: rest, false, false⟩ = (line, ⟨rest, false, false⟩) := by
  simp only [getline, getlineLoop_delim h rest (Nat.le_sub_one_of_lt hfits), Bool.or_self,
    Bool.false_eq_true, if_false]

/-- The last line, if it fits. -/
theorem getline_eof {line : List α} (h : delim ∉ line) (hfits : line.length < n) :
    getline delim n ⟨line, false, false⟩ = (line, ⟨[], true, line.isEmpty⟩) := by
  simp only [getline, getlineLoop_eof h (Nat.le_sub_one_of_lt hfits), Bool.or_self,
    Bool.false_eq_true, if_false]

/-- A line that does not fit. -/
theorem getline_full (hn : 0 < n) {line : List α} (h : delim ∉ line) (hlong : n ≤ line.length)
    (rest : List α) : (getline delim n ⟨line ++ rest, false, false⟩).2 =
      ⟨line.drop (n - 1) ++ rest, false, true⟩ := by
  simp only [getline, getlineLoop_full h rest (Nat.sub_one_lt_of_le hn hlong), Bool.or_self,
    Bool.false_eq_true, if_false]

/-! ## All lines -/

/-- After a failure the end is not met. -/
theorem forEachLine_fail (rest : List α) (fuel : ℕ) (b : β) :
    forEachLine delim n body fuel ⟨rest, false, true⟩ b = none := by
  induction fuel generalizing b with
  | zero => rfl
  | succ fuel ih => exact ih _

/-- A text is one line, or a line with more lines behind it. -/
theorem lines_cases (delim : α) (text : List α) :
    (delim ∉ text ∧ text.splitOn delim = [text]) ∨
    ∃ line rest, delim ∉ line ∧ text = line ++ delim :: rest ∧
      text.splitOn delim = line :: rest.splitOn delim := by
  by_cases h : delim ∈ text
  · obtain ⟨line, rest, rfl, hline⟩ := List.eq_append_cons_of_mem h
    exact Or.inr ⟨line, rest, hline, rfl, List.splitOn_append_cons_self_of_not_mem hline rest⟩
  · exact Or.inl ⟨h, List.splitOn_eq_singleton h⟩

/-- A loop that has ended needs no more rounds. -/
theorem forEachLine_add {fuel : ℕ} {s : InputStream α} {b r : β}
    (h : forEachLine delim n body fuel s b = some r) (more : ℕ) :
    forEachLine delim n body (fuel + more) s b = some r := by
  induction fuel generalizing s b with
  | zero => cases h
  | succ fuel ih =>
    rw [Nat.succ_add]
    rw [forEachLine] at h ⊢
    split_ifs at h ⊢
    · exact h
    · exact ih h

/-- The loop goes over the lines if they all fit. -/
theorem exists_forEachLine {text : List α} (hfits : ∀ line ∈ text.splitOn delim, line.length < n)
    (b : β) : ∃ fuel, forEachLine delim n body fuel ⟨text, false, false⟩ b =
      some ((text.splitOn delim).foldl body b) := by
  induction hlength : text.length using Nat.strongRecOn generalizing text b with
  | _ length ih =>
    rcases lines_cases delim text with ⟨hnot, hlines⟩ | ⟨line, rest, hnot, rfl, hlines⟩
    · refine ⟨2, ?_⟩
      rw [hlines, List.forall_mem_singleton] at hfits
      rw [forEachLine, if_neg Bool.false_ne_true, getline_eof hnot hfits, hlines]
      rfl
    · rw [hlines, List.forall_mem_cons] at hfits
      have hlt : rest.length < length := by
        rw [← hlength, List.length_append, List.length_cons]
        omega
      obtain ⟨fuel, hrest⟩ := ih rest.length hlt hfits.2 (body b line) rfl
      refine ⟨fuel + 1, ?_⟩
      rw [forEachLine, if_neg Bool.false_ne_true, getline_delim hnot hfits.1, hlines, hrest]
      rfl

/-- What the loop ends with, if all lines fit. -/
theorem forEachLine_eq_foldl {text : List α}
    (hfits : ∀ line ∈ text.splitOn delim, line.length < n) {fuel : ℕ} {b r : β}
    (h : forEachLine delim n body fuel ⟨text, false, false⟩ b = some r) :
    r = (text.splitOn delim).foldl body b := by
  obtain ⟨fuel', h'⟩ := @exists_forEachLine _ _ _ _ _ body _ hfits b
  have hr := forEachLine_add h fuel'
  rw [Nat.add_comm, forEachLine_add h' fuel] at hr
  exact (Option.some.inj hr).symm

/-- The loop does not end if a line does not fit. -/
theorem forEachLine_eq_none (hn : 0 < n) {text : List α}
    (hlong : ∃ line ∈ text.splitOn delim, n ≤ line.length) (fuel : ℕ) (b : β) :
    forEachLine delim n body fuel ⟨text, false, false⟩ b = none := by
  induction fuel generalizing text b with
  | zero => rfl
  | succ fuel ih =>
    rw [forEachLine, if_neg Bool.false_ne_true]
    rcases lines_cases delim text with ⟨hnot, hlines⟩ | ⟨line, rest, hnot, rfl, hlines⟩
    · obtain ⟨line, hline, hlength⟩ := hlong
      rw [hlines, List.mem_singleton] at hline
      subst hline
      have hfull := getline_full hn hnot hlength []
      rw [List.append_nil] at hfull
      rw [hfull, forEachLine_fail]
    · by_cases hfits : line.length < n
      · rw [getline_delim hnot hfits]
        refine ih ?_ _
        obtain ⟨long, hmem, hlength⟩ := hlong
        rw [hlines, List.mem_cons] at hmem
        refine ⟨long, hmem.resolve_left ?_, hlength⟩
        rintro rfl
        omega
      · rw [getline_full hn hnot (Nat.le_of_not_lt hfits), forEachLine_fail]

/-- The loop ends exactly if every line fits. -/
theorem exists_forEachLine_iff (hn : 0 < n) {text : List α} {b : β} :
    (∃ fuel r, forEachLine delim n body fuel ⟨text, false, false⟩ b = some r) ↔
      ∀ line ∈ text.splitOn delim, line.length < n := by
  constructor
  · rintro ⟨fuel, r, hrun⟩ line hline
    by_contra hlong
    rw [forEachLine_eq_none hn ⟨line, hline, Nat.le_of_not_lt hlong⟩] at hrun
    cases hrun
  · intro hfits
    obtain ⟨fuel, hrun⟩ := @exists_forEachLine _ _ _ _ _ body _ hfits b
    exact ⟨fuel, _, hrun⟩

/-! ## Lines of any length -/

/-- `getline` into a string. -/
def getText (delim : α) (s : InputStream α) : List α × InputStream α :=
  if s.eof || s.fail then ([], { s with fail := true })
  else if delim ∈ s.rest then
    (s.rest.takeWhile (· ≠ delim), ⟨(s.rest.dropWhile (· ≠ delim)).drop 1, false, false⟩)
  else (s.rest, ⟨[], true, s.rest.isEmpty⟩)

/-- `while (getline(stream, line))`; `none` if the rounds do not suffice. -/
def whileLine (delim : α) (body : β → List α → β) : ℕ → InputStream α → β → Option β
  | 0, _, _ => none
  | fuel + 1, s, b =>
    if (s.getText delim).2.fail then some b
    else whileLine delim body fuel (s.getText delim).2 (body b (s.getText delim).1)

theorem getText_delim {line : List α} (h : delim ∉ line) (rest : List α) :
    getText delim ⟨line ++ delim :: rest, false, false⟩ = (line, ⟨rest, false, false⟩) := by
  have hall : ∀ c ∈ line, decide (c ≠ delim) = true := fun c hc => by
    simpa using fun heq : c = delim => h (heq ▸ hc)
  simp only [getText, Bool.or_self, Bool.false_eq_true, if_false, List.mem_append,
    List.mem_cons_self, or_true, if_true, List.takeWhile_append_of_pos hall,
    List.dropWhile_append_of_pos hall]
  simp

theorem getText_eof {line : List α} (h : delim ∉ line) :
    getText delim ⟨line, false, false⟩ = (line, ⟨[], true, line.isEmpty⟩) := by
  simp only [getText, Bool.or_self, Bool.false_eq_true, if_false, if_neg h]

/-- The loop goes over the lines, but not over an empty last one. -/
theorem whileLine_eq_foldl {lines : List (List α)} (hlines : ∀ line ∈ lines, delim ∉ line)
    {last : List α} (hlast : delim ∉ last) :
    ∀ {fuel : ℕ} (b : β), lines.length + 2 ≤ fuel →
      whileLine delim body fuel ⟨lines.flatMap (· ++ [delim]) ++ last, false, false⟩ b =
        some ((if last = [] then lines else lines ++ [last]).foldl body b) := by
  induction lines with
  | nil =>
    intro fuel b hfuel
    obtain ⟨fuel, rfl⟩ := Nat.exists_eq_add_of_le' hfuel
    rw [List.flatMap_nil, List.nil_append, List.length_nil, Nat.zero_add, whileLine,
      getText_eof hlast]
    by_cases hnil : last = []
    · rw [if_pos hnil, if_pos (by rw [hnil]; rfl)]
      rfl
    · rw [if_neg hnil, if_neg (by simpa using hnil)]
      rfl
  | cons line lines ih =>
    intro fuel b hfuel
    rw [List.length_cons] at hfuel
    obtain ⟨fuel, rfl⟩ := Nat.exists_eq_add_of_le' (show 1 ≤ fuel by omega)
    have htext : (line :: lines).flatMap (· ++ [delim]) ++ last =
        line ++ delim :: (lines.flatMap (· ++ [delim]) ++ last) := by simp
    rw [htext, whileLine, getText_delim (hlines line List.mem_cons_self), if_neg Bool.false_ne_true,
      ih (fun l hl => hlines l (List.mem_cons_of_mem _ hl)) _ (by omega)]
    by_cases hnil : last = []
    · rw [if_pos hnil, if_pos hnil, List.foldl_cons]
    · rw [if_neg hnil, if_neg hnil, List.cons_append, List.foldl_cons]

end InputStream

end Ick
