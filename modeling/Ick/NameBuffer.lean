import Ick.LifeCycle
import Ick.UpdateFrame

/-!
# The buffer of publish

`publish` copies the name of the channel, with `-` for each slash, into the array `name` of
`CHANNEL_MAX_LENGTH` zeros, and makes a `std::string` of it. It checks no length : the name has to
be shorter than the array (`nameWithin_iff`), and nobody but the registry could see to that.

The overload of `registerObject` for control objects refuses long names, although only those of
channel data are published, and the one for channel data accepts a name of any length. So all
channels of a registry can be published within the buffer as long as no channel is registered
under a name of `CHANNEL_MAX_LENGTH` bytes or more (`throughout_within_iff`).
-/

namespace Ick

/-! ## The loop -/

/-- `char name[CHANNEL_MAX_LENGTH] = { 0 }` -/
def nameBuffer : Str := List.replicate channelMaxLength '\x00'

/-- The loop of `publish` from index `i`, with what is left of the name of the channel : the
indexes that are written, and the array, if no index was outside. -/
def writeName : ℕ → Str → Str → List ℕ × Option Str
  | _, [], name => ([], some name)
  | i, c :: channelName, name =>
    if i < name.length then
      let r := writeName (i + 1) channelName (name.set i (if c = '/' then '-' else c))
      (i :: r.1, r.2)
    else ([i], none)

/-- No index is greater than `CHANNEL_MAX_LENGTH - 2`, and the array still ends in a zero. -/
structure NameWithin (channelName : Str) : Prop where
  written : ∀ index ∈ (writeName 0 channelName nameBuffer).1, index ≤ channelMaxLength - 2
  terminated : ∃ name, (writeName 0 channelName nameBuffer).2 = some name ∧
    name.length = channelMaxLength ∧ name.getLast? = some '\x00'

/-- In the part of the array behind `pre`, a name that fits in is written. -/
theorem writeName_of_le {channelName tail : Str} (h : channelName.length ≤ tail.length)
    (pre : Str) : writeName pre.length channelName (pre ++ tail) =
      (List.range' pre.length channelName.length,
        some (pre ++ (channelName.map fun c => if c = '/' then '-' else c) ++
          tail.drop channelName.length)) := by
  induction channelName generalizing pre tail with
  | nil => simp [writeName]
  | cons c channelName ih =>
    cases tail with
    | nil => simp at h
    | cons old tail =>
      have hset : (pre ++ old :: tail).set pre.length (if c = '/' then '-' else c) =
          (pre ++ [if c = '/' then '-' else c]) ++ tail := by simp
      have hrest := ih (Nat.le_of_succ_le_succ h) (pre ++ [if c = '/' then '-' else c])
      rw [List.length_append, List.length_singleton] at hrest
      rw [writeName, if_pos (by simp), hset, hrest]
      simp [List.range'_succ]

/-- A name that does not fit in is written up to the first index outside. -/
theorem writeName_of_lt {channelName tail : Str} (h : tail.length < channelName.length)
    (pre : Str) : writeName pre.length channelName (pre ++ tail) =
      (List.range' pre.length (tail.length + 1), none) := by
  induction channelName generalizing pre tail with
  | nil => simp at h
  | cons c channelName ih =>
    cases tail with
    | nil => simp [writeName]
    | cons old tail =>
      have hset : (pre ++ old :: tail).set pre.length (if c = '/' then '-' else c) =
          (pre ++ [if c = '/' then '-' else c]) ++ tail := by simp
      have hrest := ih (Nat.lt_of_succ_lt_succ h) (pre ++ [if c = '/' then '-' else c])
      rw [List.length_append, List.length_singleton] at hrest
      rw [writeName, if_pos (by simp), hset, hrest, List.length_cons,
        List.range'_succ (n := tail.length + 1)]

/-- A name that is not longer than the buffer, with the zeros that are left behind it. -/
theorem writeName_nameBuffer {channelName : Str} (h : channelName.length ≤ channelMaxLength) :
    writeName 0 channelName nameBuffer =
      (List.range' 0 channelName.length,
        some ((channelName.map fun c => if c = '/' then '-' else c) ++
          List.replicate (channelMaxLength - channelName.length) '\x00')) := by
  have hlength : channelName.length ≤ nameBuffer.length := by
    rwa [nameBuffer, List.length_replicate]
  have hrun := writeName_of_le hlength []
  rwa [nameBuffer, List.drop_replicate] at hrun

/-- A longer name is written up to the first byte behind the buffer. -/
theorem writeName_overflow {channelName : Str} (h : channelMaxLength < channelName.length) :
    writeName 0 channelName nameBuffer = (List.range' 0 (channelMaxLength + 1), none) := by
  have hlength : nameBuffer.length < channelName.length := by
    rwa [nameBuffer, List.length_replicate]
  have hrun := writeName_of_lt hlength []
  rwa [nameBuffer, List.length_replicate] at hrun

/-- A name is copied within the buffer exactly if it is shorter. -/
theorem nameWithin_iff (channelName : Str) :
    NameWithin channelName ↔ channelName.length < channelMaxLength := by
  constructor
  · intro h
    by_contra hlen
    have hmem : channelMaxLength - 1 ∈ (writeName 0 channelName nameBuffer).1 := by
      have hpos : 0 < channelMaxLength := by decide
      rcases Nat.lt_or_ge channelMaxLength channelName.length with hlt | hle
      · rw [writeName_overflow hlt, List.mem_range'_1]
        omega
      · rw [writeName_nameBuffer hle, List.mem_range'_1]
        omega
    exact absurd (h.written _ hmem) (by decide)
  · intro h
    have hrun := writeName_nameBuffer h.le
    have hne : List.replicate (channelMaxLength - channelName.length) '\x00' ≠ [] := by
      rw [Ne, List.replicate_eq_nil_iff]
      omega
    refine ⟨fun index hindex => ?_, _, congrArg Prod.snd hrun, ?_, ?_⟩
    · rw [hrun, List.mem_range'_1] at hindex
      omega
    · rw [List.length_append, List.length_map, List.length_replicate]
      omega
    · rw [List.getLast?_append_of_ne_nil _ hne, List.getLast?_replicate, if_neg (by omega)]

namespace ObjectManager

variable {m m' : ObjectManager} {classes : ClassList}

/-- Each channel in the registry can be published within the buffer. -/
def NamesWithin (m : ObjectManager) : Prop :=
  ∀ object, m.Manages (.data object) → NameWithin (m.fullName (.data object))

/-- If the call registers a channel, the name is shorter than the buffer. -/
def RegistersShort (classes : ClassList) (m : ObjectManager) (call : BindCall) : Prop :=
  ∀ object fullName, call = .register (.data (some object) fullName) →
    m.Passes classes (.data (some object) fullName) → fullName.length < channelMaxLength

/-- The full name of channel data is set, and it is registered under it. -/
def Renames (m m' : ObjectManager) (object : ℕ) (fullName : Str) : Prop :=
  m'.fullName = Function.update m.fullName (.data object) fullName ∧
    m'.datas[fullName]? = some object

theorem fullName_setFullName_control (control : ℕ) (fullName : Str) (object : ℕ) :
    (m.setFullName (.control control) fullName).fullName (.data object) =
      m.fullName (.data object) := by
  simp [setFullName]

theorem step_fullName {call : RegisterCall} (h : m.step classes call = .ok m') :
    (∀ object, m'.fullName (.data object) = m.fullName (.data object)) ∨
      ∃ object fullName, call = .data (some object) fullName ∧ m.Renames m' object fullName := by
  cases call with
  | control object fullName =>
    left
    cases object with
    | none =>
      cases h
      exact fun _ => rfl
    | some control =>
      simp only [step, registerControl] at h
      split_ifs at h <;> cases h
      · exact fun _ => rfl
      · exact fullName_setFullName_control control fullName
  | data object fullName =>
    cases object with
    | none =>
      cases h
      exact Or.inl fun _ => rfl
    | some object =>
      simp only [step, RegisterOutcome.ofOutcome_eq_ok, registerData] at h
      split_ifs at h with hnil hhead hslash hmem
      · cases h
        exact Or.inl fun _ => rfl
      · split at h <;> cases h
        refine Or.inr ⟨object, fullName, rfl, rfl, ?_⟩
        simp only [getElem?_insertIfNew hmem, if_true]
  | className className fullName control =>
    simp only [step, RegisterOutcome.ofOutcome_eq_ok, registerClass] at h
    split at h <;> cases h
    exact Or.inl (fullName_setFullName_control control fullName)

/-- A call leaves the full names of all channel data as they are, or registers one of them. -/
theorem bind_fullName {call : BindCall} (h : m.bind classes call = some m') :
    (∀ object, m'.fullName (.data object) = m.fullName (.data object)) ∨
      ∃ object fullName, call = .register (.data (some object) fullName) ∧
        m.Passes classes (.data (some object) fullName) ∧ m.Renames m' object fullName := by
  cases call with
  | register call =>
    rcases step_state h with rfl | hok
    · exact Or.inl fun _ => rfl
    · rcases step_fullName hok with hsame | ⟨object, fullName, rfl, hrenames⟩
      · exact Or.inl hsame
      · exact Or.inr ⟨object, fullName, rfl, (step_ok_iff_passes rfl).1 ⟨m', hok⟩, hrenames⟩
  | control object aliasName =>
    obtain rfl := Option.some.inj h
    left
    cases object with
    | none => exact fun _ => rfl
    | some control =>
      rw [createAlias]
      split_ifs <;> exact fun _ => rfl
  | data object aliasName =>
    obtain rfl := Option.some.inj h
    left
    cases object with
    | none => exact fun _ => rfl
    | some data =>
      rw [createDataAlias]
      split_ifs <;> exact fun _ => rfl

/-- Channel data that passes its checks is registered. -/
theorem exists_renames {object : ℕ} {fullName : Str} (hne : fullName ≠ [])
    (h : m.Passes classes (.data (some object) fullName)) :
    ∃ m', m.bind classes (.register (.data (some object) fullName)) = some m' ∧
      m.Renames m' object fullName := by
  obtain hnil | ⟨hhead, hslash, hmem⟩ := h
  · exact absurd hnil hne
  cases hsplit : Converter.split fullName '/' with
  | none => exact absurd hsplit (registedName_ne_none hhead _)
  | some nodeNames =>
    refine ⟨{ m.setFullName (.data object) fullName with
        datas := m.datas.insertIfNew fullName object
        dataNodeNames := addNodeNames nodeNames ['/'] m.dataNodeNames }, ?_, rfl, ?_⟩
    · rw [bind, step, registerData, if_neg hne, if_neg (not_not.2 hhead), if_neg hslash,
        if_pos hmem, hsplit]
      rfl
    · simp only [getElem?_insertIfNew hmem, if_true]

/-- The full name of each channel's data is shorter than the buffer. -/
def ShortNames (m : ObjectManager) : Prop :=
  ∀ object, (m.fullName (.data object)).length < channelMaxLength

theorem ShortNames.namesWithin (h : m.ShortNames) : m.NamesWithin :=
  fun object _ => (nameWithin_iff _).2 (h object)

theorem ShortNames.bind (h : m.ShortNames) {call : BindCall}
    (hshort : m.RegistersShort classes call)
    (hbind : m.bind classes call = some m') : m'.ShortNames := by
  intro object
  rcases bind_fullName hbind with hsame | ⟨data, fullName, rfl, hpasses, hname, -⟩
  · rw [hsame]
    exact h object
  · rw [hname, Function.update_apply]
    split_ifs
    · exact hshort data fullName rfl hpasses
    · exact h object

/-- A call that leaves only names within the buffer has registered a short one, if it has registered
one. -/
theorem registersShort_of_namesWithin {call : BindCall}
    (h : ∀ m', m.bind classes call = some m' → m'.NamesWithin) :
    m.RegistersShort classes call := by
  rintro object fullName rfl hpasses
  obtain rfl | hne := eq_or_ne fullName []
  · decide
  obtain ⟨m', hbind, hname, hdatas⟩ := exists_renames hne hpasses
  have hwithin := h m' hbind object ⟨fullName, hdatas⟩
  rwa [hname, Function.update_self, nameWithin_iff] at hwithin

/-- Publishing. In every registry that the calls lead to, each channel is published within the
buffer, exactly if no channel is registered under a name that is as long as the buffer. -/
theorem throughout_within_iff (classes : ClassList) (calls : List BindCall) :
    (∀ pre, pre <+: calls → ∀ m, bindAll classes pre = some m → m.NamesWithin) ↔
      Throughout (fun pre call => ∀ m, bindAll classes pre = some m →
        m.RegistersShort classes call) calls := by
  have hnew : new.ShortNames := fun _ => Nat.succ_pos _
  exact forall_run_iff hnew (fun _ h => h.namesWithin)
    (fun _ _ _ h hshort hbind => h.bind hshort hbind)
    (fun _ _ _ h => registersShort_of_namesWithin h) calls

/-- A first channel with a long name is registered, and cannot be published within the buffer. -/
theorem not_namesWithin_of_length {fullName : Str} (hhead : fullName.head? = some '/')
    (hlength : channelMaxLength ≤ fullName.length) (object : ℕ) :
    ∃ m, bindAll classes [.register (.data (some object) fullName)] = some m ∧
      ¬m.NamesWithin := by
  have hne : fullName ≠ [] := by
    rintro rfl
    cases hhead
  have hslash : fullName ≠ ['/'] := by
    rintro rfl
    exact absurd hlength (by decide)
  have hpasses : new.Passes classes (.data (some object) fullName) :=
    Or.inr ⟨hhead, hslash, by simp [new]⟩
  obtain ⟨m, hbind, hname, hdatas⟩ := exists_renames hne hpasses
  have hrun : bindAll classes [.register (.data (some object) fullName)] = some m := by
    rw [bindAll, List.foldlM_cons, hbind]
    rfl
  refine ⟨m, hrun, fun h => ?_⟩
  have hwithin := h object ⟨fullName, hdatas⟩
  rw [hname, Function.update_self, nameWithin_iff] at hwithin
  exact absurd hlength (Nat.not_le.2 hwithin)

/-- A slash and 255 letters. The last one of them is written behind the buffer. -/
theorem not_namesWithin_long : ∃ m, bindAll []
    [.register (.data (some 0) ('/' :: List.replicate 255 'a'))] = some m ∧ ¬m.NamesWithin := by
  refine not_namesWithin_of_length rfl ?_ 0
  rw [List.length_cons, List.length_replicate]
  decide

end ObjectManager

end Ick
