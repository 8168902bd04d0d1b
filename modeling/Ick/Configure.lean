import Ick.Delimited
import Ick.History
import Ick.InputStream
import Ick.LogFiles

/-!
# Configuration files

`Configure::loadConfigFile` reads a file line by line into a buffer of 512 bytes. A line is a
comment, the name of a section in brackets, or a key and a value with `=` between them, which is
kept under the last section that has been named. `getValueByKey` looks the value up.

The loop ends exactly if all lines are shorter than the buffer (`returns_iff`). Then what is looked
up is the value that was assigned last (`getValueByKey_of_load`) : `LastAssigned` says so of the
lines alone, and `Holds` is the invariant.
-/

namespace Ick

/-- `Configure` -/
structure Configure where
  configures : Std.TreeMap Str (Std.TreeMap Str Str)

namespace Configure

/-- `Configure()` -/
def new : Configure := ⟨∅⟩

/-- The loop that takes the points out of a key. -/
def removeDots : ℕ → Str → Str
  | 0, keyName => keyName
  | fuel + 1, keyName =>
    if '.' ∈ keyName then
      removeDots fuel (keyName.takeWhile (· ≠ '.') ++ (keyName.dropWhile (· ≠ '.')).drop 1)
    else keyName

/-- A section that is new is added. -/
def addSection (c : Configure) (sectionName : Str) : Configure :=
  if sectionName ≠ [] ∧ sectionName ∉ c.configures then ⟨c.configures.insert sectionName ∅⟩ else c

/-- The last part of a round : the section is added, and the value is kept in it, if there is a
key. -/
def store (c : Configure) (sectionName key value : Str) : Configure :=
  if key = [] then c.addSection sectionName
  else
    match (c.addSection sectionName).configures[sectionName]? with
    | none => c.addSection sectionName
    | some values => ⟨(c.addSection sectionName).configures.insert sectionName
        (values.insert (removeDots key.length key) value)⟩

/-- A round of the loop, with the section so far. The text of the buffer ends at a zero byte. -/
def loadLine (st : Configure × Str) (buff : Str) : Configure × Str :=
  let s := buff.takeWhile (· ≠ '\x00')
  if s.head? = some '#' ∨ s = [] then st
  else if s.head? = some '[' ∧ s.getLast? = some ']' then
    (st.1.store ((s.drop 1).take (s.length - 2)) [] [], (s.drop 1).take (s.length - 2))
  else if '=' ∈ s then
    (st.1.store st.2 (s.takeWhile (· ≠ '=')) ((s.dropWhile (· ≠ '=')).drop 1), st.2)
  else st

/-- `loadConfigFile`; `none` if the rounds do not suffice. -/
def loadConfigFile (fuel : ℕ) (files : Files) (fileName : Str) (c : Configure) :
    Option (Bool × Configure) :=
  if fileName = [] then some (true, c)
  else
    match files fileName with
    | none => some (false, c)
    | some text =>
      (InputStream.forEachLine '\n' 512 loadLine fuel ⟨text, false, false⟩ (c, [])).map
        fun st => (true, st.1)

/-- `getValueByKey` -/
def getValueByKey (c : Configure) (sectionName key : Str) : Str :=
  match c.configures[sectionName]? with
  | none => []
  | some values => values.getD key []

/-! ## The loop ends -/

/-- `loadConfigFile` returns. -/
def Returns (files : Files) (fileName : Str) (c : Configure) : Prop :=
  ∃ fuel r, loadConfigFile fuel files fileName c = some r

/-- Loading ends exactly if the file is not read, or all its lines are shorter than the buffer. -/
theorem returns_iff (files : Files) (fileName : Str) (c : Configure) :
    Returns files fileName c ↔ ∀ text, fileName ≠ [] → files fileName = some text →
      ∀ line ∈ text.splitOn '\n', line.length < 512 := by
  by_cases hname : fileName = []
  · exact iff_of_true ⟨0, (true, c), if_pos hname⟩ fun _ hne => absurd hname hne
  · cases hfile : files fileName with
    | none =>
      refine iff_of_true ⟨0, (false, c), ?_⟩ fun _ _ hsome => absurd hsome nofun
      simp only [loadConfigFile, if_neg hname, hfile]
    | some text =>
      have hloop := @InputStream.exists_forEachLine_iff _ _ _ '\n' 512 loadLine (by decide) text
        (c, [])
      simp only [Returns, loadConfigFile, if_neg hname, hfile, Option.map_eq_some_iff]
      constructor
      · rintro ⟨fuel, r, st, hst, -⟩ text' - htext'
        obtain rfl := Option.some.inj htext'
        exact hloop.1 ⟨fuel, st, hst⟩
      · intro h
        obtain ⟨fuel, st, hst⟩ := hloop.2 (h text hname rfl)
        exact ⟨fuel, _, st, hst, rfl⟩

/-- A file with a line of 512 bytes. -/
theorem not_returns_long : ¬∀ (files : Files) (fileName : Str) (c : Configure),
    Returns files fileName c := by
  intro h
  obtain ⟨fuel, r, hrun⟩ := h (fun _ => some (List.replicate 512 'a')) "a".toList new
  have hlong : ∃ line ∈ (List.replicate 512 'a').splitOn '\n', 512 ≤ line.length := by
    have hnot : '\n' ∉ List.replicate 512 'a' := fun hmem =>
      absurd (List.eq_of_mem_replicate hmem) (by decide)
    exact ⟨_, by rw [List.splitOn_eq_singleton hnot]; exact List.mem_singleton_self _,
      List.length_replicate.ge⟩
  have hnone := @InputStream.forEachLine_eq_none _ _ _ '\n' 512 loadLine (by decide) _ hlong fuel
    (new, [])
  simp only [loadConfigFile, if_neg (by decide : "a".toList ≠ []), hnone, Option.map_none] at hrun
  cases hrun

/-! ## What is assigned -/

/-- The line that names a section. -/
def sectionLine (sectionName : Str) : Str := '[' :: (sectionName ++ [']'])

/-- A line that assigns a value to a key. -/
structure IsAssignment (line key value : Str) : Prop where
  noComment : line.head? ≠ some '#'
  noSection : ∀ sectionName, line ≠ sectionLine sectionName
  text : ∃ name, line = name ++ '=' :: value ∧ '=' ∉ name ∧ name.filter (· ≠ '.') = key

/-- The nearest line that names a section names this one. -/
def Nearest (sectionName : Str) (lines : List Str) : Prop :=
  Since (fun _ line => line = sectionLine sectionName)
    (fun _ line => ∃ name, line = sectionLine name) lines

/-- A line assigns a value to a key in a section. -/
def AssignedAt (sectionName key value : Str) (before : List Str) (line : Str) : Prop :=
  IsAssignment line key value ∧ Nearest sectionName before

/-- The value is that of the last line that assigns one to the key in the section, or empty if
there is no such line. -/
def LastAssigned (sectionName key value : Str) (lines : List Str) : Prop :=
  Since (AssignedAt sectionName key value)
    (fun before line => ∃ later, AssignedAt sectionName key later before line) lines ∨
  (Throughout (fun before line => ∀ any, ¬AssignedAt sectionName key any before line) lines ∧
    value = [])

theorem nearest_snoc {sectionName line : Str} {lines : List Str} :
    Nearest sectionName (lines ++ [line]) ↔ line = sectionLine sectionName ∨
      (Nearest sectionName lines ∧ ¬∃ name, line = sectionLine name) :=
  since_snoc

/-- One more line. -/
theorem lastAssigned_snoc {sectionName key value line : Str} {lines : List Str} :
    LastAssigned sectionName key value (lines ++ [line]) ↔
      AssignedAt sectionName key value lines line ∨
        ((∀ any, ¬AssignedAt sectionName key any lines line) ∧
          LastAssigned sectionName key value lines) := by
  unfold LastAssigned
  rw [since_snoc, throughout_snoc, ← not_exists]
  tauto

/-! ## One line -/

theorem removeDots_eq {fuel : ℕ} : ∀ {keyName : Str}, keyName.length ≤ fuel →
    removeDots fuel keyName = keyName.filter (· ≠ '.') := by
  induction fuel with
  | zero =>
    intro keyName h
    obtain rfl := List.length_eq_zero_iff.1 (Nat.le_zero.1 h)
    rfl
  | succ fuel ih =>
    intro keyName h
    rw [removeDots]
    split_ifs with hdot
    · obtain ⟨a, r, rfl, ha⟩ := List.eq_append_cons_of_mem hdot
      rw [Converter.takeWhile_append_cons ha, Converter.dropWhile_append_cons ha, List.drop_one,
        List.tail_cons, ih]
      · simp
      · rw [List.length_append, List.length_cons] at h
        rw [List.length_append]
        omega
    · refine (List.filter_eq_self.2 fun c hc => ?_).symm
      exact decide_eq_true fun heq : c = '.' => hdot (heq ▸ hc)

theorem getValueByKey_eq (c : Configure) (sectionName key : Str) : c.getValueByKey sectionName key =
    (c.configures[sectionName]?.bind fun values => values[key]?).getD [] := by
  unfold getValueByKey
  cases c.configures[sectionName]? with
  | none => rfl
  | some values => exact Std.TreeMap.getD_eq_getD_getElem?

theorem mem_addSection {c : Configure} {sectionName name : Str} :
    name ∈ (c.addSection sectionName).configures ↔
      name ∈ c.configures ∨ (name = sectionName ∧ sectionName ≠ []) := by
  unfold addSection
  split_ifs with hnew
  · rw [Std.TreeMap.mem_insert, Std.compare_eq_iff_eq]
    simp [hnew.1, or_comm, eq_comm]
  · refine ⟨Or.inl, ?_⟩
    rintro (hmem | ⟨rfl, hne⟩)
    · exact hmem
    · exact not_not.1 fun hnot => hnew ⟨hne, hnot⟩

theorem getValueByKey_addSection (c : Configure) (sectionName name key : Str) :
    (c.addSection sectionName).getValueByKey name key = c.getValueByKey name key := by
  unfold addSection
  split_ifs with hnew
  · rw [getValueByKey_eq, getValueByKey_eq, Std.TreeMap.getElem?_insert]
    split_ifs with heq
    · obtain rfl := Std.compare_eq_iff_eq.1 heq
      rw [Std.TreeMap.getElem?_eq_none hnew.2]
      simp
    · rfl
  · rfl

/-- What storing does : the key has the value, in its section, and nothing else changes. -/
theorem getValueByKey_store {c : Configure} (hempty : [] ∉ c.configures)
    (sectionName key value name k : Str) : (c.store sectionName key value).getValueByKey name k =
      if (sectionName = name ∧ sectionName ≠ []) ∧ key ≠ [] ∧ key.filter (· ≠ '.') = k then value
      else c.getValueByKey name k := by
  rw [← getValueByKey_addSection c sectionName]
  unfold store
  by_cases hkey : key = []
  · rw [if_pos hkey, if_neg fun h => h.2.1 hkey]
  · rw [if_neg hkey]
    cases hvalues : (c.addSection sectionName).configures[sectionName]? with
    | none =>
      have hnot : sectionName = [] := by
        by_contra hne
        have hsome := Std.TreeMap.mem_iff_isSome_getElem?.1
          (mem_addSection (c := c).2 (Or.inr ⟨rfl, hne⟩))
        rw [hvalues] at hsome
        cases hsome
      exact (if_neg fun h => h.1.2 hnot).symm
    | some values =>
      have hne : sectionName ≠ [] := by
        rintro rfl
        have hmem := Std.TreeMap.mem_iff_isSome_getElem?.2 (Option.isSome_of_eq_some hvalues)
        rcases mem_addSection.1 hmem with hmem | ⟨-, hne⟩
        · exact hempty hmem
        · exact hne rfl
      rw [getValueByKey_eq, getValueByKey_eq, Std.TreeMap.getElem?_insert]
      by_cases hname : sectionName = name
      · subst hname
        rw [if_pos Std.ReflCmp.compare_self, hvalues, Option.bind_some, Option.bind_some,
          Std.TreeMap.getElem?_insert, removeDots_eq le_rfl]
        by_cases hk : key.filter (· ≠ '.') = k
        · rw [if_pos (Std.compare_eq_iff_eq.2 hk), if_pos ⟨⟨rfl, hne⟩, hkey, hk⟩]
          rfl
        · rw [if_neg (mt Std.compare_eq_iff_eq.1 hk), if_neg fun h => hk h.2.2]
      · rw [if_neg (mt Std.compare_eq_iff_eq.1 hname), if_neg fun h => hname h.1.1]

theorem nil_notMem_store {c : Configure} (hempty : [] ∉ c.configures)
    (sectionName key value : Str) : [] ∉ (c.store sectionName key value).configures := by
  have hadded : [] ∉ (c.addSection sectionName).configures := by
    rw [mem_addSection]
    rintro (hmem | ⟨rfl, hne⟩)
    · exact hempty hmem
    · exact hne rfl
  unfold store
  split_ifs
  · exact hadded
  · split
    · exact hadded
    · next hvalues =>
      rw [Std.TreeMap.mem_insert, Std.compare_eq_iff_eq]
      rintro (rfl | hmem)
      · rw [Std.TreeMap.getElem?_eq_none hadded] at hvalues
        cases hvalues
      · exact hadded hmem

variable {line : Str} {st : Configure × Str}

theorem takeWhile_of_noZero (h : '\x00' ∉ line) : line.takeWhile (· ≠ '\x00') = line :=
  List.takeWhile_eq_self_iff.2 fun c hc => decide_eq_true fun heq : c = '\x00' => h (heq ▸ hc)

/-- The test for the brackets. -/
theorem exists_sectionLine_iff :
    (∃ name, line = sectionLine name) ↔ line.head? = some '[' ∧ line.getLast? = some ']' := by
  constructor
  · rintro ⟨name, rfl⟩
    refine ⟨rfl, ?_⟩
    rw [sectionLine, ← List.cons_append, List.getLast?_concat]
  · rintro ⟨hhead, hlast⟩
    cases line with
    | nil => cases hhead
    | cons c rest =>
      obtain rfl := Option.some.inj hhead
      rcases List.eq_nil_or_concat rest with rfl | ⟨name, d, rfl⟩
      · cases hlast
      · rw [List.concat_eq_append, ← List.cons_append, List.getLast?_concat] at hlast
        obtain rfl := Option.some.inj hlast
        exact ⟨name, by rw [List.concat_eq_append, sectionLine]⟩

theorem loadLine_section {name : Str} (hzero : '\x00' ∉ sectionLine name) :
    loadLine st (sectionLine name) = (st.1.store name [] [], name) := by
  have hname : ((sectionLine name).drop 1).take ((sectionLine name).length - 2) = name := by
    simp [sectionLine]
  rw [loadLine, takeWhile_of_noZero hzero]
  rw [if_neg (by simp [sectionLine]), if_pos (exists_sectionLine_iff.1 ⟨name, rfl⟩), hname]

/-- A comment, or a line without `=`. -/
theorem loadLine_other (hzero : '\x00' ∉ line) (h : line.head? = some '#' ∨
    ((¬∃ name, line = sectionLine name) ∧ '=' ∉ line)) : loadLine st line = st := by
  rw [loadLine, takeWhile_of_noZero hzero]
  split_ifs with hskip hbrackets hequals
  · rfl
  · rcases h with h | h
    · exact absurd (Or.inl h) hskip
    · exact absurd (exists_sectionLine_iff.2 hbrackets) h.1
  · rcases h with h | h
    · exact absurd (Or.inl h) hskip
    · exact absurd hequals h.2
  · rfl

theorem loadLine_assignment {name value : Str} (hzero : '\x00' ∉ name ++ '=' :: value)
    (hcomment : (name ++ '=' :: value).head? ≠ some '#')
    (hsection : ¬∃ sectionName, name ++ '=' :: value = sectionLine sectionName)
    (hname : '=' ∉ name) :
    loadLine st (name ++ '=' :: value) = (st.1.store st.2 name value, st.2) := by
  have hskip : ¬((name ++ '=' :: value).head? = some '#' ∨ name ++ '=' :: value = []) := by
    rw [not_or]
    exact ⟨hcomment, by simp⟩
  rw [loadLine, takeWhile_of_noZero hzero]
  rw [if_neg hskip, if_neg (mt exists_sectionLine_iff.2 hsection), if_pos (by simp),
    Converter.takeWhile_append_cons hname, Converter.dropWhile_append_cons hname, List.drop_one,
    List.tail_cons]

/-- What a line assigns, if it has the form of an assignment. -/
theorem isAssignment_iff {name value key v : Str}
    (hcomment : (name ++ '=' :: value).head? ≠ some '#')
    (hsection : ¬∃ sectionName, name ++ '=' :: value = sectionLine sectionName)
    (hname : '=' ∉ name) :
    IsAssignment (name ++ '=' :: value) key v ↔ name.filter (· ≠ '.') = key ∧ value = v := by
  constructor
  · rintro ⟨-, -, name', heq, hname', hkey⟩
    have htake := congrArg (List.takeWhile (· ≠ '=')) heq
    rw [Converter.takeWhile_append_cons hname, Converter.takeWhile_append_cons hname'] at htake
    subst htake
    exact ⟨hkey, (List.cons.inj (List.append_cancel_left heq)).2⟩
  · rintro ⟨rfl, rfl⟩
    exact ⟨hcomment, fun sectionName heq => hsection ⟨sectionName, heq⟩, name, rfl, hname, rfl⟩

/-- A line that has not the form of an assignment. -/
theorem not_isAssignment
    (h : line.head? = some '#' ∨ (∃ name, line = sectionLine name) ∨ '=' ∉ line)
    (key value : Str) : ¬IsAssignment line key value := by
  rintro ⟨hcomment, hsection, name, heq, -⟩
  rcases h with h | ⟨name, h⟩ | h
  · exact hcomment h
  · exact hsection name h
  · exact h (by simp [heq])

/-! ## All lines -/

/-- What the loop holds after lines : the section that is the nearest one, and the values that were
assigned last. -/
structure Holds (st : Configure × Str) (lines : List Str) : Prop where
  nearest : ∀ sectionName, sectionName ≠ [] → (Nearest sectionName lines ↔ st.2 = sectionName)
  noEmpty : [] ∉ st.1.configures
  value : ∀ sectionName key, sectionName ≠ [] → key ≠ [] →
    LastAssigned sectionName key (st.1.getValueByKey sectionName key) lines

theorem holds_new : Holds (new, []) [] := by
  refine ⟨fun sectionName hne => ?_, Std.TreeMap.not_mem_emptyc, fun sectionName key _ _ => ?_⟩
  · exact iff_of_false not_since_nil (Ne.symm hne)
  · exact Or.inr ⟨throughout_nil, rfl⟩

/-- A line that assigns nothing leaves the values. -/
theorem lastAssigned_of_other {sectionName key value : Str} {lines : List Str}
    (h : LastAssigned sectionName key value lines)
    (hline : ∀ any, ¬IsAssignment line key any) :
    LastAssigned sectionName key value (lines ++ [line]) :=
  lastAssigned_snoc.2 (Or.inr ⟨fun any hat => hline any hat.1, h⟩)

/-- A line of a section begins it, and assigns nothing. -/
theorem Holds.loadLine_section {lines : List Str} (h : Holds st lines) {name : Str}
    (hzero : '\x00' ∉ sectionLine name) :
    Holds (loadLine st (sectionLine name)) (lines ++ [sectionLine name]) := by
  rw [Configure.loadLine_section hzero]
  refine ⟨fun sectionName _ => ?_, nil_notMem_store h.noEmpty _ _ _,
    fun sectionName key hne hkey => ?_⟩
  · have hinj : sectionLine name = sectionLine sectionName ↔ name = sectionName := by
      simp [sectionLine]
    rw [nearest_snoc, hinj, or_iff_left fun hold => hold.2 ⟨name, rfl⟩]
  · rw [getValueByKey_store h.noEmpty, if_neg fun heq => heq.2.1 rfl]
    exact lastAssigned_of_other (h.value _ _ hne hkey)
      (not_isAssignment (Or.inr (Or.inl ⟨name, rfl⟩)) key)

/-- Any other line leaves the section. -/
theorem Holds.nearest_snoc {lines : List Str} (h : Holds st lines)
    (hsection : ¬∃ name, line = sectionLine name) {sectionName : Str} (hne : sectionName ≠ []) :
    Nearest sectionName (lines ++ [line]) ↔ st.2 = sectionName := by
  rw [Configure.nearest_snoc, or_iff_right fun heq => hsection ⟨sectionName, heq⟩,
    and_iff_left hsection, h.nearest sectionName hne]

/-- An assignment is the last one of its key in the section. -/
theorem Holds.loadLine_assignment {lines : List Str} {name value : Str} (h : Holds st lines)
    (hzero : '\x00' ∉ name ++ '=' :: value) (hcomment : (name ++ '=' :: value).head? ≠ some '#')
    (hsection : ¬∃ n, name ++ '=' :: value = sectionLine n) (hname : '=' ∉ name) :
    Holds (loadLine st (name ++ '=' :: value)) (lines ++ [name ++ '=' :: value]) := by
  rw [Configure.loadLine_assignment hzero hcomment hsection hname]
  refine ⟨fun _ => h.nearest_snoc hsection, nil_notMem_store h.noEmpty _ _ _,
    fun sectionName key hne hkey => ?_⟩
  have hat : ∀ any, AssignedAt sectionName key any lines (name ++ '=' :: value) ↔
      (name.filter (· ≠ '.') = key ∧ value = any) ∧ st.2 = sectionName := by
    intro any
    rw [AssignedAt, isAssignment_iff hcomment hsection hname, h.nearest sectionName hne]
  rw [getValueByKey_store h.noEmpty, lastAssigned_snoc]
  split_ifs with hstored
  · exact Or.inl ((hat value).2 ⟨⟨hstored.2.2, rfl⟩, hstored.1.1⟩)
  · refine Or.inr ⟨fun any hany => hstored ?_, h.value _ _ hne hkey⟩
    obtain ⟨⟨hfilter, -⟩, hsectionName⟩ := (hat any).1 hany
    refine ⟨⟨hsectionName, hsectionName ▸ hne⟩, ?_, hfilter⟩
    rintro rfl
    exact hkey hfilter.symm

theorem holds_loadLine {lines : List Str} (h : Holds st lines) (hzero : '\x00' ∉ line) :
    Holds (loadLine st line) (lines ++ [line]) := by
  by_cases hsection : ∃ name, line = sectionLine name
  · obtain ⟨name, rfl⟩ := hsection
    exact h.loadLine_section hzero
  · by_cases hother : line.head? = some '#' ∨ '=' ∉ line
    · rw [loadLine_other hzero (hother.imp_right fun hnot => ⟨hsection, hnot⟩)]
      refine ⟨fun _ => h.nearest_snoc hsection, h.noEmpty, fun sectionName key hne hkey => ?_⟩
      exact lastAssigned_of_other (h.value _ _ hne hkey)
        (not_isAssignment (hother.imp_right Or.inr) key)
    · rw [not_or, not_not] at hother
      obtain ⟨hcomment, hequals⟩ := hother
      obtain ⟨name, value, rfl, hname⟩ := List.eq_append_cons_of_mem hequals
      exact h.loadLine_assignment hzero hcomment hsection hname

theorem holds_foldl {lines : List Str} (hzero : ∀ line ∈ lines, '\x00' ∉ line) :
    Holds (lines.foldl loadLine (new, [])) lines := by
  induction lines using List.reverseRecOn with
  | nil => exact holds_new
  | append_singleton lines line ih =>
    rw [List.foldl_append]
    exact holds_loadLine (ih fun line hline => hzero line (List.mem_append_left _ hline))
      (hzero line (by simp))

/-- Loading a text without zero bytes, whose lines are shorter than the buffer, ends, and then what
is looked up is what was assigned last. -/
theorem getValueByKey_of_load {files : Files} {fileName text : Str} (hname : fileName ≠ [])
    (hfile : files fileName = some text) (hzero : '\x00' ∉ text)
    (hshort : ∀ line ∈ text.splitOn '\n', line.length < 512) :
    (∃ fuel c, loadConfigFile fuel files fileName new = some (true, c)) ∧
    ∀ fuel opened c, loadConfigFile fuel files fileName new = some (opened, c) →
      opened = true ∧ ∀ sectionName key, sectionName ≠ [] → key ≠ [] →
        LastAssigned sectionName key (c.getValueByKey sectionName key) (text.splitOn '\n') := by
  simp only [loadConfigFile, if_neg hname, hfile]
  constructor
  · obtain ⟨fuel, hrun⟩ := @InputStream.exists_forEachLine _ _ _ _ _ loadLine _ hshort (new, [])
    exact ⟨fuel, _, by rw [hrun]; rfl⟩
  · intro fuel opened c hrun
    obtain ⟨st, hst, heq⟩ := Option.map_eq_some_iff.1 hrun
    obtain ⟨rfl, rfl⟩ := Prod.mk.inj heq
    rw [InputStream.forEachLine_eq_foldl hshort hst]
    refine ⟨rfl, fun sectionName key hsection hkey => ?_⟩
    refine (holds_foldl fun line hline hmem => hzero ?_).value sectionName key hsection hkey
    exact Delimited.mem_of_mem_field hline hmem

/-- Two sections with one key, which is written with a point in the second one. -/
theorem getValueByKey_of_load_ab : ∃ c : Configure, ∃ fuel,
    loadConfigFile fuel (fun _ => some "[a]\nk=1\n[b]\nk.=2\nk=3=\n".toList) "f".toList new =
      some (true, c) ∧
    LastAssigned "b".toList "k".toList (c.getValueByKey "b".toList "k".toList)
      ("[a]\nk=1\n[b]\nk.=2\nk=3=\n".toList.splitOn '\n') := by
  obtain ⟨⟨fuel, c, hrun⟩, hvalue⟩ := @getValueByKey_of_load
    (fun _ => some "[a]\nk=1\n[b]\nk.=2\nk=3=\n".toList) "f".toList _ (by decide) rfl (by decide)
    (by decide)
  exact ⟨c, fuel, hrun, (hvalue fuel true c hrun).2 _ _ (by decide) (by decide)⟩

end Configure

end Ick
