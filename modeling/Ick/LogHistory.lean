import Ick.LogFiles
import Mathlib.Data.List.DropRight

/-!
# Reading the log back

`Logger::getHistoryLog` adds up the lines of all log files, makes of the number of lines wanted
the index of the first of them, and goes through the files : one whose lines all stand before
that index is passed over, another is read from the index on.

The index is relative to `total_line_index`, which is to be the number of lines before the file.
But a file that was read from its middle on counts with the lines that were read. If these are
fewer than the lines left out, then the next file loses lines too
(`data_getHistoryLog_iff`).
-/

namespace Ick

/-! ## Files -/

/-- The lines that `getline` reads. A newline ends a line, and so does the end of the text, if
there is something behind the last newline. -/
def getlines : Str → List Str
  | [] => []
  | c :: s =>
    if c = '\n' then [] :: getlines s
    else
      match getlines s with
      | [] => [[c]]
      | line :: lines => (c :: line) :: lines

/-- The loop of `File::readFile`, at line `line`. -/
def readLines (startLine : ℤ) : ℤ → List Str → List Str
  | _, [] => []
  | line, s :: lines =>
    if line < startLine then readLines startLine (line + 1) lines
    else s :: readLines startLine (line + 1) lines

/-- `File::readFile`, with the lines that it puts into the list. -/
def readFile (files : Files) (path : Str) (startLine : ℤ) : Option (List Str) :=
  if path = [] then none
  else (files path).map fun text => readLines startLine 0 (getlines text)

theorem readLines_eq (startLine line : ℤ) (lines : List Str) :
    readLines startLine line lines = lines.drop (startLine - line).toNat := by
  induction lines generalizing line with
  | nil => rw [readLines, List.drop_nil]
  | cons s lines ih =>
    rw [readLines]
    split_ifs with hline
    · rw [ih, show (startLine - line).toNat = (startLine - (line + 1)).toNat + 1 by omega,
        List.drop_succ_cons]
    · rw [ih, show (startLine - line).toNat = 0 by omega,
        show (startLine - (line + 1)).toNat = 0 by omega]
      rfl

namespace Logger

/-! ## The function -/

/-- The local variables of `getHistoryLog`, and what it logs itself. -/
structure Reading where
  data : List Str
  totalLineIndex : ℤ
  logged : List LogCall

/-- The number of lines of all files; `none` if it does not fit into an `int`. -/
def totalLineCount (its : List HistoryLoggerInfo) : Option ℤ :=
  its.foldlM (fun total it => if total + it.lineCount < 2 ^ 31 then some (total + it.lineCount)
    else none) 0

/-- `start_line_index` -/
def startLineIndex (totalLineCount count : ℤ) : ℤ :=
  if count > 0 ∧ count < totalLineCount then totalLineCount - count else 0

/-- One file. -/
def readEntry (files : Files) (startLineIndex : ℤ) (r : Reading) (it : HistoryLoggerInfo) :
    Reading :=
  if it.fileName = [] then r
  else if r.totalLineIndex + it.lineCount < startLineIndex then
    { r with totalLineIndex := r.totalLineIndex + it.lineCount }
  else
    match readFile files it.fileName (startLineIndex - r.totalLineIndex) with
    | some [] =>
      { r with
        logged := r.logged ++
          [.Error "get history log error: unknown error".toList .RecordAndPrint] }
    | some lst =>
      { r with data := r.data ++ lst, totalLineIndex := r.totalLineIndex + lst.length }
    | none =>
      { r with
        logged := r.logged ++
          [.Warn ("get history log error: ".toList ++ it.fileName) .RecordAndPrint] }

/-- What `getHistoryLog` does under the mutex. -/
def readHistory (l : Logger) (data : List Str) (startLineIndex : ℤ) (subscriber : Option ℕ) :
    Reading × Logger :=
  (l.loggerHistoryList.foldl (readEntry l.files startLineIndex) ⟨data, 0, []⟩,
    { l with loggerSubscriberList := l.loggerSubscriberList ++ subscriber.toList })

/-- `getHistoryLog` -/
def getHistoryLog (l : Logger) (data : List Str) (count : ℤ) (subscriber : Option ℕ) :
    Option (Reading × Logger) :=
  (totalLineCount l.loggerHistoryList).map fun total =>
    if total ≤ 0 then
      (⟨data, 0, [.Error ("get history log error: total line count: ".toList ++
        Converter.convertToString total) .RecordAndPrint]⟩, l)
    else l.readHistory data (startLineIndex total count) subscriber

/-! ## Counted files -/

/-- The lines of a file. -/
def linesOf (files : Files) (it : HistoryLoggerInfo) : List Str :=
  getlines ((files it.fileName).getD [])

/-- The file of an entry exists, and has as many lines as the entry says. -/
structure Counted (files : Files) (it : HistoryLoggerInfo) : Prop where
  named : it.fileName ≠ []
  file : (files it.fileName).isSome
  length_linesOf : (linesOf files it).length = it.lineCount

/-- The lines of all entries. -/
def lineSum (its : List HistoryLoggerInfo) : ℕ := (its.map (·.lineCount)).sum

@[simp] theorem lineSum_nil : lineSum [] = 0 := rfl

@[simp] theorem lineSum_cons (it : HistoryLoggerInfo) (its : List HistoryLoggerInfo) :
    lineSum (it :: its) = it.lineCount + lineSum its := List.sum_cons

/-- The lines of all files. -/
def allLines (files : Files) (its : List HistoryLoggerInfo) : List Str :=
  its.flatMap (linesOf files)

/-- The last `count` lines if there are more, or else all. -/
def lastLines (files : Files) (its : List HistoryLoggerInfo) (count : ℤ) : List Str :=
  if 0 < count ∧ count < lineSum its then (allLines files its).rtake count.toNat
  else allLines files its

/-- The file that the `s`-th line is in has at most half of its lines among the first `s`, or there
is no line in the files after it. -/
def CutWell (s : ℤ) (its : List HistoryLoggerInfo) : Prop :=
  ∀ pre it post, its = pre ++ it :: post → lineSum pre < s → s ≤ lineSum pre + it.lineCount →
    2 * (s - lineSum pre) ≤ it.lineCount ∨ lineSum post = 0

variable {files : Files} {it : HistoryLoggerInfo} {its : List HistoryLoggerInfo} {l : Logger}

theorem length_allLines (hcounted : ∀ it ∈ its, Counted files it) :
    (allLines files its).length = lineSum its := by
  rw [allLines, List.length_flatMap, lineSum]
  exact congrArg List.sum (List.map_congr_left fun it hit => (hcounted it hit).length_linesOf)

theorem totalLineCount_eq (its : List HistoryLoggerInfo) :
    totalLineCount its = if lineSum its < 2 ^ 31 then some (lineSum its : ℤ) else none := by
  have hfrom : ∀ n : ℕ, n < 2 ^ 31 → its.foldlM (fun (total : ℤ) it =>
      if total + it.lineCount < 2 ^ 31 then some (total + it.lineCount) else none) (n : ℤ) =
      if n + lineSum its < 2 ^ 31 then some ((n + lineSum its : ℕ) : ℤ) else none := by
    induction its with
    | nil =>
      intro n hn
      rw [lineSum_nil, Nat.add_zero, if_pos hn]
      rfl
    | cons it its ih =>
      intro n hn
      rw [List.foldlM_cons, lineSum_cons, ← Nat.add_assoc]
      by_cases hit : n + it.lineCount < 2 ^ 31
      · rw [if_pos (by exact_mod_cast hit), ← Nat.cast_add]
        exact ih _ hit
      · rw [if_neg (by exact_mod_cast hit), if_neg (by omega)]
        rfl
  simpa [totalLineCount] using hfrom 0 (by decide)

/-! ## What is read -/

/-- What is read of the files when `e` lines more are to be left out, as they are counted. -/
def remaining (files : Files) : ℤ → List HistoryLoggerInfo → List Str
  | _, [] => []
  | e, it :: its =>
    if it.lineCount < e then remaining files (e - it.lineCount) its
    else (linesOf files it).drop e.toNat ++
      remaining files (e - (it.lineCount - e.toNat)) its

theorem readEntry_of_lt {s : ℤ} {r : Reading} (hcounted : Counted files it)
    (hlt : it.lineCount < s - r.totalLineIndex) :
    readEntry files s r it = { r with totalLineIndex := r.totalLineIndex + it.lineCount } := by
  rw [readEntry, if_neg hcounted.named, if_pos (by omega)]

theorem readEntry_of_le {s : ℤ} {r : Reading} (hcounted : Counted files it)
    (hle : s - r.totalLineIndex ≤ it.lineCount) :
    (readEntry files s r it).data =
      r.data ++ (linesOf files it).drop (s - r.totalLineIndex).toNat ∧
    (readEntry files s r it).totalLineIndex =
      r.totalLineIndex + (it.lineCount - (s - r.totalLineIndex).toNat) := by
  have hread : readFile files it.fileName (s - r.totalLineIndex) =
      some ((linesOf files it).drop (s - r.totalLineIndex).toNat) := by
    obtain ⟨text, htext⟩ := Option.isSome_iff_exists.1 hcounted.file
    rw [readFile, if_neg hcounted.named, linesOf, htext, Option.map_some, readLines_eq, sub_zero,
      Option.getD_some]
  have hlength : ((linesOf files it).drop (s - r.totalLineIndex).toNat).length =
      (it.lineCount - (s - r.totalLineIndex).toNat : ℤ) := by
    rw [List.length_drop, hcounted.length_linesOf]
    omega
  rw [readEntry, if_neg hcounted.named, if_neg (by omega), hread]
  cases hlines : (linesOf files it).drop (s - r.totalLineIndex).toNat with
  | nil =>
    rw [hlines] at hlength
    refine ⟨(List.append_nil _).symm, ?_⟩
    rw [← hlength]
    simp
  | cons line lines =>
    refine ⟨rfl, ?_⟩
    rw [← hlength, hlines]

theorem data_foldl_readEntry (hcounted : ∀ it ∈ its, Counted files it) (s : ℤ) (r : Reading) :
    (its.foldl (readEntry files s) r).data =
      r.data ++ remaining files (s - r.totalLineIndex) its := by
  induction its generalizing r with
  | nil => exact (List.append_nil _).symm
  | cons it its ih =>
    obtain ⟨hit, hits⟩ := List.forall_mem_cons.1 hcounted
    rw [List.foldl_cons, ih hits, remaining]
    split_ifs with hlt
    · rw [readEntry_of_lt hit hlt]
      exact congrArg (r.data ++ remaining files · its) (sub_sub ..).symm
    · obtain ⟨hdata, htotal⟩ := readEntry_of_le hit (not_lt.1 hlt)
      rw [hdata, htotal, List.append_assoc, ← sub_sub]

/-- When nothing is to be left out, all is read. -/
theorem remaining_of_nonpos {e : ℤ} (he : e ≤ 0) : remaining files e its = allLines files its := by
  induction its generalizing e with
  | nil => rfl
  | cons it its ih =>
    rw [remaining, if_neg (by omega), Int.toNat_of_nonpos he, ih (by omega)]
    rfl

theorem length_remaining_le (hcounted : ∀ it ∈ its, Counted files it) (e : ℤ) :
    (remaining files e its).length ≤ lineSum its := by
  induction its generalizing e with
  | nil => exact Nat.le_refl _
  | cons it its ih =>
    obtain ⟨hit, hits⟩ := List.forall_mem_cons.1 hcounted
    rw [remaining, lineSum_cons]
    split_ifs
    · exact (ih hits _).trans (Nat.le_add_left _ _)
    · rw [List.length_append, List.length_drop, hit.length_linesOf]
      exact Nat.add_le_add (Nat.sub_le _ _) (ih hits _)

/-- When something is to be left out, not all is read. -/
theorem length_remaining_lt (hcounted : ∀ it ∈ its, Counted files it) {e : ℤ} (he : 0 < e)
    (hlines : 0 < lineSum its) : (remaining files e its).length < lineSum its := by
  induction its generalizing e with
  | nil => exact absurd hlines (Nat.lt_irrefl 0)
  | cons it its ih =>
    obtain ⟨hit, hits⟩ := List.forall_mem_cons.1 hcounted
    rw [remaining]
    rw [lineSum_cons] at hlines ⊢
    split_ifs with hlt
    · rcases Nat.eq_zero_or_pos it.lineCount with hzero | hpos
      · rw [hzero, Nat.zero_add] at hlines ⊢
        exact ih hits (by simpa using he) hlines
      · have := length_remaining_le hits (e - it.lineCount)
        omega
    · have := length_remaining_le hits (e - (it.lineCount - e.toNat))
      rw [List.length_append, List.length_drop, hit.length_linesOf]
      omega

/-! ## The cut -/

theorem cutWell_cons_of_lt {s : ℤ} (hlt : it.lineCount < s) :
    CutWell s (it :: its) ↔ CutWell (s - it.lineCount) its := by
  constructor
  · rintro h pre it' post rfl hlo hhi
    have := h (it :: pre) it' post rfl
    rw [lineSum_cons, Nat.cast_add, ← sub_sub] at this
    exact this (by omega) (by omega)
  · rintro h pre it' post heq hlo hhi
    cases pre with
    | nil =>
      obtain ⟨rfl, rfl⟩ := List.cons.inj heq
      rw [lineSum_nil] at hhi
      omega
    | cons first pre =>
      obtain ⟨rfl, rfl⟩ := List.cons.inj heq
      rw [lineSum_cons] at hlo hhi ⊢
      rw [Nat.cast_add, ← sub_sub]
      exact h pre it' post rfl (by omega) (by omega)

theorem cutWell_cons_of_le {s : ℤ} (hpos : 0 < s) (hle : s ≤ it.lineCount) :
    CutWell s (it :: its) ↔ 2 * s ≤ it.lineCount ∨ lineSum its = 0 := by
  constructor
  · intro h
    simpa [hpos, hle] using h [] it its rfl
  · rintro h pre it' post heq hlo hhi
    cases pre with
    | nil =>
      obtain ⟨rfl, rfl⟩ := List.cons.inj heq
      simpa using h
    | cons first pre =>
      obtain ⟨rfl, rfl⟩ := List.cons.inj heq
      rw [lineSum_cons] at hlo
      omega

/-- What is read is what is behind the first `s` lines, if and only if these are cut well. -/
theorem remaining_eq_drop_iff (hcounted : ∀ it ∈ its, Counted files it) {s : ℤ} (hs : 0 < s) :
    remaining files s its = (allLines files its).drop s.toNat ↔ CutWell s its := by
  induction its generalizing s with
  | nil =>
    refine iff_of_true (List.drop_nil).symm fun pre it post heq => ?_
    simp at heq
  | cons it its ih =>
    obtain ⟨hit, hits⟩ := List.forall_mem_cons.1 hcounted
    have hlength := hit.length_linesOf
    have hall : allLines files (it :: its) = linesOf files it ++ allLines files its := rfl
    rw [remaining, hall, List.drop_append]
    split_ifs with hlt
    · rw [List.drop_eq_nil_of_le (by omega), List.nil_append, cutWell_cons_of_lt hlt, ← ih hits
        (by omega), hlength, show s.toNat - it.lineCount = (s - it.lineCount).toNat by omega]
    · rw [show s.toNat - (linesOf files it).length = 0 by omega, List.drop_zero,
        List.append_cancel_left_eq, cutWell_cons_of_le hs (not_lt.1 hlt)]
      -- the lines read of this file make up for those left out, or there are no more
      constructor
      · intro heq
        by_contra! hcut
        have hshort := length_remaining_lt hits (e := s - (it.lineCount - s.toNat)) (by omega)
          (by omega)
        rw [heq, length_allLines hits] at hshort
        exact Nat.lt_irrefl _ hshort
      · rintro (hcut | hnone)
        · exact remaining_of_nonpos (by omega)
        · have hle := length_remaining_le hits (s - (it.lineCount - s.toNat))
          rw [hnone] at hle
          have hnil := length_allLines hits
          rw [hnone] at hnil
          rw [List.length_eq_zero_iff.1 hnil, List.length_eq_zero_iff.1 (Nat.le_zero.1 hle)]

/-- `getHistoryLog` returns the last lines if and only if their number fits into an `int`, and the
lines left out are cut well. -/
theorem data_getHistoryLog_iff (l : Logger)
    (hcounted : ∀ it ∈ l.loggerHistoryList, Counted l.files it)
    (hlines : 1 ≤ lineSum l.loggerHistoryList) (count : ℤ) (subscriber : Option ℕ) :
    (∃ r l', l.getHistoryLog [] count subscriber = some (r, l') ∧
      r.data = lastLines l.files l.loggerHistoryList count) ↔
    lineSum l.loggerHistoryList < 2 ^ 31 ∧
      (0 < count → count < lineSum l.loggerHistoryList →
        CutWell (lineSum l.loggerHistoryList - count) l.loggerHistoryList) := by
  rw [getHistoryLog, totalLineCount_eq]
  split_ifs with hfits
  · have hread : ∀ s, (l.readHistory [] s subscriber).1.data =
        remaining l.files s l.loggerHistoryList := fun s => by
      rw [readHistory, data_foldl_readEntry hcounted, sub_zero]
      rfl
    rw [Option.map_some, if_neg (by omega)]
    have hsome : (∃ r l', some (l.readHistory [] (startLineIndex (lineSum l.loggerHistoryList)
          count) subscriber) = some (r, l') ∧
          r.data = lastLines l.files l.loggerHistoryList count) ↔
        remaining l.files (startLineIndex (lineSum l.loggerHistoryList) count)
          l.loggerHistoryList = lastLines l.files l.loggerHistoryList count := by
      rw [← hread]
      constructor
      · rintro ⟨r, l', heq, hdata⟩
        rw [Option.some.inj heq]
        exact hdata
      · exact fun hdata => ⟨_, _, rfl, hdata⟩
    rw [hsome, startLineIndex, lastLines]
    split_ifs with hcount
    · rw [List.rtake, length_allLines hcounted,
        show lineSum l.loggerHistoryList - count.toNat =
          (lineSum l.loggerHistoryList - count : ℤ).toNat by omega,
        remaining_eq_drop_iff hcounted (by omega)]
      exact ⟨fun hcut => ⟨hfits, fun _ _ => hcut⟩, fun h => h.2 hcount.1 hcount.2⟩
    · refine iff_of_true (remaining_of_nonpos le_rfl) ⟨hfits, fun hpos hlt => ?_⟩
      exact absurd ⟨hpos, hlt⟩ hcount
  · refine iff_of_false ?_ fun h => hfits h.1
    rintro ⟨r, l', heq, -⟩
    cases heq

/-- A log of two files with three lines each. -/
def sixLines : Logger :=
  { new [] fun name =>
      if name = "a".toList then some "1\n2\n3\n".toList
      else if name = "b".toList then some "4\n5\n6\n".toList
      else none with
    loggerHistoryList := [⟨"a".toList, 3⟩, ⟨"b".toList, 3⟩] }

theorem counted_sixLines : ∀ it ∈ sixLines.loggerHistoryList, Counted sixLines.files it := by
  intro it hit
  obtain rfl | rfl : it = ⟨"a".toList, 3⟩ ∨ it = ⟨"b".toList, 3⟩ := List.mem_pair.1 hit
  · exact ⟨by decide, rfl, by decide⟩
  · exact ⟨by decide, rfl, by decide⟩

theorem data_getHistoryLog_sixLines :
    (∀ it ∈ sixLines.loggerHistoryList, Counted sixLines.files it) ∧
    1 ≤ lineSum sixLines.loggerHistoryList ∧
    ((∃ r l', sixLines.getHistoryLog [] 5 none = some (r, l') ∧
        r.data = lastLines sixLines.files sixLines.loggerHistoryList 5) ↔
      lineSum sixLines.loggerHistoryList < 2 ^ 31 ∧
        (0 < (5 : ℤ) → (5 : ℤ) < lineSum sixLines.loggerHistoryList →
          CutWell (lineSum sixLines.loggerHistoryList - 5) sixLines.loggerHistoryList)) :=
  ⟨counted_sixLines, by decide, data_getHistoryLog_iff sixLines counted_sixLines (by decide) 5 none⟩

/-- Of the last four lines, the fourth is missing. -/
theorem data_getHistoryLog_ne :
    (∀ it ∈ sixLines.loggerHistoryList, Counted sixLines.files it) ∧
    1 ≤ lineSum sixLines.loggerHistoryList ∧
    (sixLines.getHistoryLog [] 4 none).map (·.1.data) = some (["3", "5", "6"].map (·.toList)) ∧
    lastLines sixLines.files sixLines.loggerHistoryList 4 = ["3", "4", "5", "6"].map (·.toList) ∧
    ¬∃ r l', sixLines.getHistoryLog [] 4 none = some (r, l') ∧
      r.data = lastLines sixLines.files sixLines.loggerHistoryList 4 := by
  have hread : (sixLines.getHistoryLog [] 4 none).map (·.1.data) =
      some (["3", "5", "6"].map (·.toList)) := by decide
  have hlast : lastLines sixLines.files sixLines.loggerHistoryList 4 =
      ["3", "4", "5", "6"].map (·.toList) := by decide
  refine ⟨counted_sixLines, by decide, hread, hlast, ?_⟩
  rintro ⟨r, l', heq, hdata⟩
  rw [heq, Option.map_some, hdata, hlast] at hread
  exact absurd hread (by decide)

end Logger

end Ick
