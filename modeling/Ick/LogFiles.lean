import Ick.History
import Ick.LogQueue
import Mathlib.Data.List.Nodup
import Mathlib.Logic.Function.Basic

/-!
# Log files

Each iteration of `Logger::execute` takes a batch of messages and appends their texts to a file.
When the file has got large, the name of the current file is emptied, and the next iteration
opens a new one. Meanwhile the batch is still counted in the last entry of
`logger_history_list_`, which is the one of the file that it went to.

`Filed` is the invariant that ties the name, the list and the files together, also between the
opening of a file and the first batch in it. The files of the list, in order, are a journal
of the messages written (`journal_of_run`).
-/

namespace Ick

/-- The files, by their names. -/
abbrev Files := Str → Option Str

/-- `HistoryLoggerInfo`, without the size, which nothing reads. -/
structure HistoryLoggerInfo where
  fileName : Str
  lineCount : ℕ
  deriving DecidableEq

/-- The members of `Logger` that `execute` and `getHistoryLog` use, apart from the queue, and the
files; and the batches written so far, with the names of their files. -/
structure Logger where
  filePath : Str
  fileName : Str
  fileIndex : ℕ
  loggerHistoryList : List HistoryLoggerInfo
  loggerSubscriberList : List ℕ
  files : Files
  written : List (Str × List LoggerMessage)

/-- The size from which on a file is not continued. -/
def maxFileSize : ℕ := 1048576

/-- What is counted in the last entry of the list; `none` if there is none. -/
def countLines (n : ℕ) : List HistoryLoggerInfo → Option (List HistoryLoggerInfo)
  | [] => none
  | [it] => some [{ it with lineCount := it.lineCount + n }]
  | it :: its => (countLines n its).map (it :: ·)

theorem countLines_concat (n : ℕ) (its : List HistoryLoggerInfo) (it : HistoryLoggerInfo) :
    countLines n (its ++ [it]) = some (its ++ [{ it with lineCount := it.lineCount + n }]) := by
  induction its with
  | nil => rfl
  | cons first its ih =>
    cases its with
    | nil => rfl
    | cons second its =>
      rw [List.cons_append, List.cons_append, countLines, ← List.cons_append, ih]
      · rfl
      · simp

/-- The text of a batch in a file. -/
def textOf (messages : List LoggerMessage) : Str :=
  messages.flatMap (·.toString true)

namespace Logger

/-- A logger that has not written anything, where these files exist. -/
def new (filePath : Str) (files : Files) : Logger where
  filePath := filePath
  fileName := []
  fileIndex := 0
  loggerHistoryList := []
  loggerSubscriberList := []
  files := files
  written := []

/-- The pattern of the name of a new file. -/
def namePattern (l : Logger) : Str :=
  l.filePath ++ "log%Y%m%dT%H%M%E9S".toList ++
    (if l.fileIndex > 0 then '_' :: Converter.convertToString l.fileIndex else []) ++
    ".txt".toList

/-- The first part of an iteration : if there is no current file, a new one gets a name, which
`formatTime` makes of the pattern, and an entry. -/
def openFile (formatTime : Str → Str) (l : Logger) : Logger :=
  if l.fileName = [] then
    { l with
      fileName := formatTime l.namePattern
      loggerHistoryList := l.loggerHistoryList ++ [⟨formatTime l.namePattern, 0⟩] }
  else l

/-- The second part of an iteration, up to the calls of the subscribers : the batch is appended to
the file. -/
def writeBatch (batch : List LoggerMessage) (l : Logger) : Option Logger :=
  let content := (l.files l.fileName).getD [] ++ textOf batch
  let large := decide (content.length ≥ maxFileSize)
  (countLines batch.length l.loggerHistoryList).map fun loggerHistoryList =>
    { l with
      fileName := if large then [] else l.fileName
      fileIndex := if large then l.fileIndex + 1 else l.fileIndex
      loggerHistoryList := loggerHistoryList
      files := Function.update l.files l.fileName (some content)
      written := l.written ++ [(l.fileName, batch)] }

/-- What an iteration finds in the queue, and what `absl::FormatTime` makes of a pattern then. -/
structure Iteration where
  formatTime : Str → Str
  batch : List LoggerMessage

/-- An iteration of `execute`. -/
def iterate (l : Logger) (it : Iteration) : Option Logger :=
  if it.batch = [] then some l else writeBatch it.batch (l.openFile it.formatTime)

/-- The logger after a list of iterations. -/
def run (l : Logger) (its : List Iteration) : Option Logger :=
  its.foldlM iterate l

/-- If the iteration gives a name to a new file, the name is not empty, and no file has it. -/
def NewName (l : Logger) (it : Iteration) : Prop :=
  l.fileName = [] → it.formatTime l.namePattern ≠ [] ∧
    l.files (it.formatTime l.namePattern) = none

/-- The messages written, in order. -/
def messages (l : Logger) : List LoggerMessage := l.written.flatMap (·.2)

/-- The messages written to a file. -/
def messagesIn (l : Logger) (fileName : Str) : List LoggerMessage :=
  (l.written.filter (·.1 = fileName)).flatMap (·.2)

/-- The files of the list are a journal of the messages written. -/
structure Journal (l : Logger) : Prop where
  contents : (l.loggerHistoryList.map fun it => l.files it.fileName) =
    l.loggerHistoryList.map fun it => some (textOf (l.messagesIn it.fileName))
  text : (l.loggerHistoryList.flatMap fun it => (l.files it.fileName).getD []) =
    textOf l.messages
  lineCount : ∀ it ∈ l.loggerHistoryList, it.lineCount = (l.messagesIn it.fileName).length
  total : (l.loggerHistoryList.map (·.lineCount)).sum = l.messages.length
  full : ∀ it ∈ l.loggerHistoryList.dropLast,
    maxFileSize ≤ ((l.files it.fileName).getD []).length
  fileName : l.fileName = [] ∨
    l.loggerHistoryList.getLast?.map (·.fileName) = some l.fileName

/-! ## The invariant -/

/-- The name, the list, and the files belong together. A file that no message was written to does
not exist. -/
structure Filed (l : Logger) : Prop where
  nodup : (l.loggerHistoryList.map (·.fileName)).Nodup
  named : ∀ it ∈ l.loggerHistoryList, it.fileName ≠ []
  current : l.fileName = [] ∨
    l.loggerHistoryList.getLast?.map (·.fileName) = some l.fileName
  listed : ∀ w ∈ l.written, ∃ it ∈ l.loggerHistoryList, it.fileName = w.1
  file : ∀ it ∈ l.loggerHistoryList, l.files it.fileName =
    if l.messagesIn it.fileName = [] then none else some (textOf (l.messagesIn it.fileName))
  lineCount : ∀ it ∈ l.loggerHistoryList, it.lineCount = (l.messagesIn it.fileName).length
  inOrder : (l.loggerHistoryList.flatMap fun it => l.messagesIn it.fileName) = l.messages
  full : ∀ it ∈ l.loggerHistoryList, it.fileName ≠ l.fileName →
    maxFileSize ≤ (textOf (l.messagesIn it.fileName)).length

variable {l l' : Logger} {filePath : Str} {files : Files}

theorem filed_new : (new filePath files).Filed where
  nodup := List.nodup_nil
  named := nofun
  current := Or.inl rfl
  listed := nofun
  file := nofun
  lineCount := nofun
  inOrder := rfl
  full := nofun

/-- A file that is not the current one exists. -/
theorem Filed.exists_of_ne (h : l.Filed) {it : HistoryLoggerInfo} (hit : it ∈ l.loggerHistoryList)
    (hne : it.fileName ≠ l.fileName) :
    l.files it.fileName = some (textOf (l.messagesIn it.fileName)) := by
  have hfull := h.full it hit hne
  have hmessages : l.messagesIn it.fileName ≠ [] := by
    intro hnil
    rw [hnil] at hfull
    exact absurd hfull (by decide)
  rw [h.file it hit, if_neg hmessages]

/-- What a file of the list holds. -/
theorem Filed.getD_file (h : l.Filed) {it : HistoryLoggerInfo} (hit : it ∈ l.loggerHistoryList) :
    (l.files it.fileName).getD [] = textOf (l.messagesIn it.fileName) := by
  rw [h.file it hit]
  split_ifs with hnil
  · rw [hnil]
    rfl
  · rfl

/-- Opening a file under a new name. -/
theorem Filed.openFile (h : l.Filed) {it : Iteration} (hnew : l.NewName it) :
    (l.openFile it.formatTime).Filed := by
  unfold Logger.openFile
  split_ifs with hempty
  · obtain ⟨hname, hnone⟩ := hnew hempty
    -- all files of the list exist, so none has the new name
    have hother : ∀ it' ∈ l.loggerHistoryList, it'.fileName ≠ it.formatTime l.namePattern := by
      intro it' hit' heq
      have hexists := h.exists_of_ne hit' (by rw [hempty]; exact h.named it' hit')
      rw [heq, hnone] at hexists
      cases hexists
    have hnothing : l.messagesIn (it.formatTime l.namePattern) = [] := by
      rw [messagesIn, List.filter_eq_nil_iff.2, List.flatMap_nil]
      intro w hw
      obtain ⟨it', hit', hw'⟩ := h.listed w hw
      simpa [← hw'] using hother it' hit'
    have hlast : ∀ it' ∈ l.loggerHistoryList ++ [⟨it.formatTime l.namePattern, 0⟩],
        it' ∈ l.loggerHistoryList ∨ it' = ⟨it.formatTime l.namePattern, 0⟩ := by simp
    refine ⟨?_, fun it' hit' => ?_, Or.inr (by simp), fun w hw => ?_, fun it' hit' => ?_,
      fun it' hit' => ?_, ?_, fun it' hit' hne => ?_⟩
    · simp only [List.map_append, List.map_cons, List.map_nil]
      refine List.nodup_append.2 ⟨h.nodup, List.nodup_singleton _, ?_⟩
      rintro x hx y hy rfl
      obtain ⟨it', hit', rfl⟩ := List.mem_map.1 hx
      exact hother it' hit' (by simpa using hy)
    · rcases hlast it' hit' with hit' | rfl
      · exact h.named it' hit'
      · exact hname
    · obtain ⟨it', hit', hw'⟩ := h.listed w hw
      exact ⟨it', List.mem_append_left _ hit', hw'⟩
    · rcases hlast it' hit' with hit' | rfl
      · exact h.file it' hit'
      · exact hnone.trans (if_pos hnothing).symm
    · rcases hlast it' hit' with hit' | rfl
      · exact h.lineCount it' hit'
      · exact (congrArg List.length hnothing).symm
    · rw [List.flatMap_append]
      refine (congrArg₂ (· ++ ·) h.inOrder ?_).trans (List.append_nil _)
      exact (List.append_nil _).trans hnothing
    · rcases hlast it' hit' with hit' | rfl
      · exact h.full it' hit' (by rw [hempty]; exact h.named it' hit')
      · exact absurd rfl hne
  · exact h

/-- The current file is that of the last entry. -/
theorem Filed.exists_last (h : l.Filed) (hname : l.fileName ≠ []) :
    ∃ init last, l.loggerHistoryList = init ++ [last] ∧ last.fileName = l.fileName ∧
      ∀ it ∈ init, it.fileName ≠ l.fileName := by
  obtain ⟨last, hlast, heq⟩ := Option.map_eq_some_iff.1 (h.current.resolve_left hname)
  obtain ⟨init, hinit⟩ := List.getLast?_eq_some_iff.1 hlast
  refine ⟨init, last, hinit, heq, fun it hit hsame => ?_⟩
  have hnodup := h.nodup
  rw [hinit, List.map_append] at hnodup
  refine (List.nodup_append.1 hnodup).2.2 it.fileName (List.mem_map_of_mem hit) last.fileName ?_ ?_
  · simp
  · rw [hsame, heq]

/-- A batch has been written to the file of the last entry. -/
structure Wrote (l l' : Logger) (batch : List LoggerMessage) (init : List HistoryLoggerInfo)
    (last : HistoryLoggerInfo) : Prop where
  before : l.loggerHistoryList = init ++ [last]
  after : l'.loggerHistoryList =
    init ++ [{ last with lineCount := last.lineCount + batch.length }]
  current : last.fileName = l.fileName
  others : ∀ it ∈ init, it.fileName ≠ l.fileName
  files : l'.files = Function.update l.files l.fileName
    (some ((l.files l.fileName).getD [] ++ textOf batch))
  written : l'.written = l.written ++ [(l.fileName, batch)]
  fileName : l'.fileName =
    if maxFileSize ≤ ((l.files l.fileName).getD [] ++ textOf batch).length then [] else l.fileName

theorem Filed.exists_wrote (h : l.Filed) (hname : l.fileName ≠ []) (batch : List LoggerMessage) :
    ∃ l' init last, l.writeBatch batch = some l' ∧ Wrote l l' batch init last ∧
      l'.loggerSubscriberList = l.loggerSubscriberList := by
  obtain ⟨init, last, hlist, hlast, hinit⟩ := h.exists_last hname
  rw [writeBatch, hlist, countLines_concat]
  exact ⟨_, init, last, rfl, ⟨hlist, rfl, hlast, hinit, rfl, rfl, by simp⟩, rfl⟩

theorem messagesIn_concat {batch : List LoggerMessage} {fileName : Str}
    (hwritten : l'.written = l.written ++ [(fileName, batch)]) (name : Str) :
    l'.messagesIn name = l.messagesIn name ++ if fileName = name then batch else [] := by
  rw [messagesIn, hwritten, List.filter_append, List.flatMap_append, ← messagesIn]
  by_cases hname : fileName = name <;> simp [hname]

theorem textOf_append (messages messages' : List LoggerMessage) :
    textOf (messages ++ messages') = textOf messages ++ textOf messages' :=
  List.flatMap_append

namespace Wrote

variable {batch : List LoggerMessage} {init : List HistoryLoggerInfo} {last : HistoryLoggerInfo}

theorem mem_of_init (w : Wrote l l' batch init last) {it : HistoryLoggerInfo} (hit : it ∈ init) :
    it ∈ l.loggerHistoryList :=
  w.before ▸ List.mem_append_left _ hit

theorem mem_last (w : Wrote l l' batch init last) : last ∈ l.loggerHistoryList :=
  w.before ▸ List.mem_append_right _ (List.mem_singleton_self _)

theorem mem_cases (w : Wrote l l' batch init last) {it : HistoryLoggerInfo}
    (hit : it ∈ l'.loggerHistoryList) :
    it ∈ init ∨ it = { last with lineCount := last.lineCount + batch.length } := by
  rw [w.after] at hit
  simpa using hit

/-- The names of the files stay as they are. -/
theorem names (w : Wrote l l' batch init last) :
    l'.loggerHistoryList.map (·.fileName) = l.loggerHistoryList.map (·.fileName) := by
  rw [w.before, w.after, List.map_append, List.map_append]
  rfl

/-- Nothing changes in the other files. -/
theorem keeps (w : Wrote l l' batch init last) {it : HistoryLoggerInfo} (hit : it ∈ init) :
    l'.messagesIn it.fileName = l.messagesIn it.fileName ∧
      l'.files it.fileName = l.files it.fileName := by
  constructor
  · rw [messagesIn_concat w.written, if_neg (w.others it hit).symm, List.append_nil]
  · rw [w.files, Function.update_of_ne (w.others it hit)]

/-- The batch is in the last file. -/
theorem adds (w : Wrote l l' batch init last) :
    l'.messagesIn last.fileName = l.messagesIn last.fileName ++ batch := by
  rw [messagesIn_concat w.written, if_pos w.current.symm]

/-- What is written to the last file. -/
theorem content (w : Wrote l l' batch init last) (h : l.Filed) :
    (l.files l.fileName).getD [] ++ textOf batch = textOf (l'.messagesIn last.fileName) := by
  rw [w.adds, textOf_append, ← h.getD_file w.mem_last, w.current]

/-- There are messages in every file. -/
theorem messagesIn_ne_nil (w : Wrote l l' batch init last) (h : l.Filed) (hbatch : batch ≠ []) :
    ∀ it ∈ l'.loggerHistoryList, l'.messagesIn it.fileName ≠ [] := by
  intro it hit
  rcases w.mem_cases hit with hit | rfl
  · rw [(w.keeps hit).1]
    intro hnil
    have hfull := h.full it (w.mem_of_init hit) (w.others it hit)
    rw [hnil] at hfull
    exact absurd hfull (by decide)
  · simp [w.adds, hbatch]

theorem file (w : Wrote l l' batch init last) (h : l.Filed) {it : HistoryLoggerInfo}
    (hit : it ∈ l'.loggerHistoryList) :
    l'.files it.fileName = some (textOf (l'.messagesIn it.fileName)) := by
  rcases w.mem_cases hit with hit | rfl
  · rw [(w.keeps hit).1, (w.keeps hit).2]
    exact h.exists_of_ne (w.mem_of_init hit) (w.others it hit)
  · rw [← w.content h, w.files]
    simp [w.current]

theorem lineCount (w : Wrote l l' batch init last) (h : l.Filed) {it : HistoryLoggerInfo}
    (hit : it ∈ l'.loggerHistoryList) : it.lineCount = (l'.messagesIn it.fileName).length := by
  rcases w.mem_cases hit with hit | rfl
  · rw [(w.keeps hit).1]
    exact h.lineCount it (w.mem_of_init hit)
  · simp [w.adds, h.lineCount last w.mem_last]

theorem inOrder (w : Wrote l l' batch init last) (h : l.Filed) :
    (l'.loggerHistoryList.flatMap fun it => l'.messagesIn it.fileName) = l'.messages := by
  have hold := h.inOrder
  rw [w.before, List.flatMap_append, List.flatMap_singleton] at hold
  rw [w.after, List.flatMap_append, List.flatMap_singleton,
    List.flatMap_congr fun it hit => (w.keeps hit).1, w.adds, ← List.append_assoc, hold, messages,
    messages, w.written, List.flatMap_append, List.flatMap_singleton]

/-- The current file is left because it is large. -/
theorem full (w : Wrote l l' batch init last) (h : l.Filed) {it : HistoryLoggerInfo}
    (hit : it ∈ l'.loggerHistoryList) (hne : it.fileName ≠ l'.fileName) :
    maxFileSize ≤ (textOf (l'.messagesIn it.fileName)).length := by
  rcases w.mem_cases hit with hit | rfl
  · rw [(w.keeps hit).1]
    exact h.full it (w.mem_of_init hit) (w.others it hit)
  · rw [← w.content h]
    by_contra hsmall
    rw [w.fileName, if_neg hsmall] at hne
    exact hne w.current

/-- The files stay in order. -/
theorem filed (w : Wrote l l' batch init last) (h : l.Filed) (hbatch : batch ≠ []) :
    l'.Filed where
  nodup := w.names ▸ h.nodup
  named it hit := by
    obtain ⟨it', hit', heq⟩ := List.mem_map.1 (w.names ▸ List.mem_map_of_mem hit)
    exact heq ▸ h.named it' hit'
  current := by
    rw [w.fileName]
    split_ifs
    · exact Or.inl rfl
    · exact Or.inr (by simp [w.after, w.current])
  listed entry hentry := by
    have hlisted : ∃ it ∈ l.loggerHistoryList, it.fileName = entry.1 := by
      rw [w.written] at hentry
      rcases List.mem_append.1 hentry with hentry | hentry
      · exact h.listed entry hentry
      · exact ⟨last, w.mem_last, by rw [List.mem_singleton.1 hentry, w.current]⟩
    obtain ⟨it, hit, heq⟩ := hlisted
    obtain ⟨it', hit', heq'⟩ := List.mem_map.1 (w.names ▸ List.mem_map_of_mem hit)
    exact ⟨it', hit', heq'.trans heq⟩
  file it hit := by rw [if_neg (w.messagesIn_ne_nil h hbatch it hit), w.file h hit]
  lineCount it hit := w.lineCount h hit
  inOrder := w.inOrder h
  full it hit hne := w.full h hit hne

end Wrote

/-- Writing a batch to the current file. -/
theorem Filed.writeBatch (h : l.Filed) (hname : l.fileName ≠ []) {batch : List LoggerMessage}
    (hbatch : batch ≠ []) : ∃ l', l.writeBatch batch = some l' ∧ l'.Filed ∧
      l'.written = l.written ++ [(l.fileName, batch)] ∧
      l'.loggerSubscriberList = l.loggerSubscriberList ∧
      ∀ it ∈ l'.loggerHistoryList, l'.messagesIn it.fileName ≠ [] := by
  obtain ⟨l', init, last, heq, w, hsubscribers⟩ := h.exists_wrote hname batch
  exact ⟨l', heq, w.filed h hbatch, w.written, hsubscribers, w.messagesIn_ne_nil h hbatch⟩

/-! ## Runs -/

/-- Between iterations, there are messages in every file of the list. -/
structure Settled (l : Logger) : Prop where
  filed : l.Filed
  wrote : ∀ it ∈ l.loggerHistoryList, l.messagesIn it.fileName ≠ []

theorem settled_new : (new filePath files).Settled where
  filed := filed_new
  wrote := nofun

/-- After opening, there is a current file. -/
theorem openFile_ne {it : Iteration} (hnew : l.NewName it) :
    (l.openFile it.formatTime).fileName ≠ [] := by
  unfold Logger.openFile
  split_ifs with hempty
  · exact (hnew hempty).1
  · exact hempty

theorem openFile_written (formatTime : Str → Str) :
    (l.openFile formatTime).written = l.written := by
  unfold Logger.openFile
  split_ifs <;> rfl

/-- An iteration. -/
theorem Settled.iterate (h : l.Settled) {it : Iteration} (hnew : l.NewName it) :
    ∃ l', l.iterate it = some l' ∧ l'.Settled ∧
      l'.written.map (·.2) = l.written.map (·.2) ++ [it.batch].filter (· ≠ []) := by
  by_cases hbatch : it.batch = []
  · exact ⟨l, if_pos hbatch, h, by simp [hbatch]⟩
  · obtain ⟨l', heq, hfiled, hwritten, -, hwrote⟩ :=
      (h.filed.openFile hnew).writeBatch (openFile_ne hnew) hbatch
    refine ⟨l', (if_neg hbatch).trans heq, ⟨hfiled, hwrote⟩, ?_⟩
    rw [hwritten, openFile_written]
    simp [hbatch]

/-- What the invariant says about the files of the list. -/
theorem Settled.journal (h : l.Settled) : l.Journal := by
  have hcontents : ∀ it ∈ l.loggerHistoryList,
      l.files it.fileName = some (textOf (l.messagesIn it.fileName)) := fun it hit => by
    rw [h.filed.file it hit, if_neg (h.wrote it hit)]
  constructor
  · exact List.map_congr_left hcontents
  · rw [← h.filed.inOrder, textOf, List.flatMap_assoc]
    exact List.flatMap_congr fun it hit => h.filed.getD_file hit
  · exact h.filed.lineCount
  · rw [← h.filed.inOrder, List.length_flatMap]
    exact congrArg List.sum (List.map_congr_left h.filed.lineCount)
  · intro it hit
    have hmem := List.dropLast_subset _ hit
    rw [hcontents it hmem, Option.getD_some]
    refine h.filed.full it hmem fun hcurrent => ?_
    -- the current file is the last one, so it is not among the others
    obtain ⟨init, last, hlist, -, hinit⟩ :=
      h.filed.exists_last (hcurrent ▸ h.filed.named it hmem)
    rw [hlist, List.dropLast_concat] at hit
    exact hinit it hit hcurrent
  · exact h.filed.current

theorem run_concat (its : List Iteration) (it : Iteration) :
    l.run (its ++ [it]) = (l.run its).bind (·.iterate it) := by
  rw [run, List.foldlM_append]
  exact congrArg _ (funext fun l' => bind_pure (l'.iterate it))

/-- If each name given to a new file is new, then after any iterations the files of the list are
a journal of the batches taken. -/
theorem journal_of_run (filePath : Str) (files : Files) (its : List Iteration)
    (hnew : Throughout (fun pre it => ∀ l, (new filePath files).run pre = some l → l.NewName it)
      its) :
    ∃ l, (new filePath files).run its = some l ∧
      l.written.map (·.2) = (its.map (·.batch)).filter (· ≠ []) ∧ l.Journal := by
  suffices hrun : ∃ l, (new filePath files).run its = some l ∧
      l.written.map (·.2) = (its.map (·.batch)).filter (· ≠ []) ∧ l.Settled by
    obtain ⟨l, heq, hwritten, hsettled⟩ := hrun
    exact ⟨l, heq, hwritten, hsettled.journal⟩
  refine hnew.invariant (I := fun its => ∃ l, (new filePath files).run its = some l ∧
    l.written.map (·.2) = (its.map (·.batch)).filter (· ≠ []) ∧ l.Settled)
    ⟨_, rfl, rfl, settled_new⟩ fun its it hits hit => ?_
  obtain ⟨l, heq, hwritten, hsettled⟩ := hits
  obtain ⟨l', heq', hsettled', hwritten'⟩ := hsettled.iterate (hit l heq)
  refine ⟨l', ?_, ?_, hsettled'⟩
  · rw [run_concat, heq]
    exact heq'
  · rw [hwritten', hwritten, List.map_append, List.filter_append]
    rfl

/-- A message that fills a file. -/
def largeMessage : LoggerMessage :=
  ⟨"t".toList, List.replicate maxFileSize 'a', .INFO, .Record⟩

/-- A message that does not. -/
def smallMessage : LoggerMessage := ⟨"t".toList, "b".toList, .INFO, .Record⟩

theorem le_length_largeMessage : maxFileSize ≤ (textOf [largeMessage]).length := by
  have htext : textOf [largeMessage] =
      "t    INFO    ".toList ++ List.replicate maxFileSize 'a' ++ ['\n'] := by
    rw [textOf, List.flatMap_singleton]
    rfl
  rw [htext, List.length_append, List.length_append, List.length_replicate]
  omega

/-- The logger when it has filled its first file. -/
def filledOne : Logger where
  filePath := []
  fileName := []
  fileIndex := 1
  loggerHistoryList := [⟨(new [] fun _ => none).namePattern, 1⟩]
  loggerSubscriberList := []
  files := Function.update (fun _ => none) (new [] fun _ => none).namePattern
    (some (textOf [largeMessage]))
  written := [((new [] fun _ => none).namePattern, [largeMessage])]

theorem run_largeMessage :
    (new [] fun _ => none).run [⟨id, [largeMessage]⟩] = some filledOne := by
  have hwrite : writeBatch [largeMessage] ((new [] fun _ => none).openFile id) =
      some filledOne := by
    simp [writeBatch, openFile, new, countLines, filledOne, namePattern, le_length_largeMessage]
  rw [run, List.foldlM_cons, iterate, if_neg (List.cons_ne_nil _ _), hwrite]
  rfl

/-- The first message fills a file, and the second one goes to another. -/
theorem journal_of_run_log :
    Throughout (fun pre it => ∀ l, (new [] fun _ => none).run pre = some l → l.NewName it)
      [⟨id, [largeMessage]⟩, ⟨id, [smallMessage]⟩] ∧
    ∃ l, (new [] fun _ => none).run [⟨id, [largeMessage]⟩, ⟨id, [smallMessage]⟩] = some l ∧
      l.written.map (·.2) = [[largeMessage], [smallMessage]] ∧
      l.loggerHistoryList.map (·.lineCount) = [1, 1] ∧ l.Journal := by
  have hnew : Throughout
      (fun pre it => ∀ l, (new [] fun _ => none).run pre = some l → l.NewName it)
      [⟨id, [largeMessage]⟩, ⟨id, [smallMessage]⟩] := by
    refine (@throughout_snoc _ _ [_] _).2 ⟨(@throughout_snoc _ _ [] _).2
      ⟨throughout_nil, fun l hl _ => ?_⟩, fun l hl _ => ?_⟩
    · obtain rfl := Option.some.inj hl
      exact ⟨by decide, rfl⟩
    · obtain rfl := Option.some.inj (run_largeMessage.symm.trans hl)
      have hname : filledOne.namePattern ≠ (new [] fun _ => none).namePattern := by decide
      exact ⟨by decide, Function.update_of_ne hname (some (textOf [largeMessage])) fun _ => none⟩
  obtain ⟨l, hrun, hwritten, hjournal⟩ := journal_of_run [] (fun _ => none) _ hnew
  refine ⟨hnew, l, hrun, ?_, ?_, hjournal⟩
  · rw [hwritten]
    rfl
  · rw [← List.singleton_append, run_concat, run_largeMessage, Option.bind_some, iterate,
      if_neg (List.cons_ne_nil _ _), writeBatch] at hrun
    obtain ⟨its, hcount, rfl⟩ := Option.map_eq_some_iff.1 hrun
    obtain rfl := Option.some.inj hcount
    rfl

end Logger

end Ick
