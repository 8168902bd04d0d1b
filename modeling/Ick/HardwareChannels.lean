import Ick.DriverBinding
import Ick.Uninitialised
import Ick.UnknownChannels
import Mathlib.Data.List.Forall2

/-!
# Hardware channels

A channel is accepted by `LoadIO` if its node number or its channel number is not 0
(`numbered_of_loadAll`), but `getDatas` gives a driver those of its node whose channel number is not
0 either. A channel of the node with the channel number 0 is accepted and is never bound to a driver
(`bindsExactly_iff`), whatever drivers there are.
-/

namespace Ick

namespace XmlParser

/-! ## Objects -/

/-- A new object of a class, in memory with these contents. -/
def DataClass.created (contents : Contents) : DataClass → Channel
  | .ReadWriteInt => .readWriteInt (.new (-2 ^ 31) (2 ^ 31 - 1))
  | .ReadWriteDouble => .readWriteDouble (.new 0)
  | .ReadWriteString => .readWriteString (.new [])
  | .ReadOnlyInt => .readOnlyInt (.new 0)
  | .ReadOnlyDouble => .readOnlyDouble (.created contents)
  | .ReadOnlyString => .readOnlyString (.new [])

/-- The object with the members that `LoadIO` has set. -/
def LoadedData.created (contents : Contents) (d : LoadedData) : NodeChannel where
  nodeNumber := d.nodeNumber
  channel := (d.dataClass.created contents).mapBase fun base =>
    { base with channelNumber := d.channelNumber, simulated := d.simulated }

/-- The channel data that are registered, where the memory for the object of each name has these
contents. -/
def Loader.datas (contents : Str → Contents) (l : Loader) : List NodeChannel :=
  l.calls.map fun call => call.1.created (contents call.2)

end XmlParser

/-! ## Drivers -/

/-- What `registChannels` makes of a channel. -/
def NodeChannel.regist (nodeNumber : ℤ) (data : NodeChannel) : NodeChannel :=
  if data.IsOf nodeNumber then
    { data with channel :=
        data.channel.mapBase (.registChannel data.channel.dataType data.channel.accessMode) }
  else data

/-- The first loop of `startNamespace`, for drivers with these node numbers. -/
def registDrivers (drivers : List ℤ) (datas : List NodeChannel) : List NodeChannel :=
  drivers.foldl (fun datas nodeNumber => registChannels nodeNumber datas) datas

/-- The driver's function for reading is bound, and that for writing to read-write data. -/
structure Channel.Bound (c : Channel) : Prop where
  driver : c.base.driver = true
  pfnRead : c.base.pfnRead = true
  pfnWrite : c.base.pfnWrite = true ↔ c.accessMode = .READWRITE

/-- `registChannels` binds the data of the node, and leaves the others as they are. -/
def BindsExactly (nodeNumber : ℤ) (datas : List NodeChannel) : Prop :=
  List.Forall₂ (fun data data' =>
    if data.nodeNumber = nodeNumber then data'.channel.Bound else data' = data)
    datas (registChannels nodeNumber datas)

/-- What holds of an object that `LoadIO` has created for these data, whatever drivers there are. -/
structure Regular (d : XmlParser.LoadedData) (data : NodeChannel) : Prop where
  nodeNumber : data.nodeNumber = d.nodeNumber
  channelNumber : data.channel.base.channelNumber = d.channelNumber
  driver : d.channelNumber = 0 → data.channel.base.driver = false
  pfnWrite : data.channel.base.pfnWrite = true → data.channel.accessMode = .READWRITE

variable {d : XmlParser.LoadedData} {data : NodeChannel} {nodeNumber : ℤ}

theorem Regular.created (contents : Contents) (d : XmlParser.LoadedData) :
    Regular d (d.created contents) := by
  constructor
  · rfl
  · unfold XmlParser.LoadedData.created
    cases d.dataClass <;> rfl
  · intro
    unfold XmlParser.LoadedData.created
    cases d.dataClass <;> rfl
  · unfold XmlParser.LoadedData.created
    cases d.dataClass <;> exact fun h => absurd h Bool.false_ne_true

/-- What the data type and the access mode of the six classes bind. -/
theorem base_regist (h : data.IsOf nodeNumber) :
    (data.regist nodeNumber).channel.base = { data.channel.base with
      driver := true
      pfnRead := true
      pfnWrite := if data.channel.accessMode = .READWRITE then true
        else data.channel.base.pfnWrite } := by
  obtain ⟨number, channel⟩ := data
  rw [NodeChannel.regist, if_pos h]
  cases channel <;> rfl

theorem accessMode_regist (data : NodeChannel) (nodeNumber : ℤ) :
    (data.regist nodeNumber).channel.accessMode = data.channel.accessMode := by
  obtain ⟨number, channel⟩ := data
  unfold NodeChannel.regist
  split_ifs
  · cases channel <;> rfl
  · rfl

theorem nodeNumber_regist (data : NodeChannel) (nodeNumber : ℤ) :
    (data.regist nodeNumber).nodeNumber = data.nodeNumber := by
  unfold NodeChannel.regist
  split_ifs
  · rfl
  · rfl

theorem Regular.regist (h : Regular d data) (nodeNumber : ℤ) :
    Regular d (data.regist nodeNumber) := by
  by_cases hof : data.IsOf nodeNumber
  · constructor
    · rw [nodeNumber_regist, h.nodeNumber]
    · rw [base_regist hof]
      exact h.channelNumber
    · exact fun hzero => absurd (h.channelNumber.trans hzero) hof.2.1
    · rw [base_regist hof, accessMode_regist]
      dsimp only
      split_ifs with hmode
      · exact fun _ => hmode
      · exact h.pfnWrite
  · rwa [NodeChannel.regist, if_neg hof]

/-- Every channel goes through the drivers on its own. -/
theorem registDrivers_eq (drivers : List ℤ) (datas : List NodeChannel) :
    registDrivers drivers datas = datas.map fun data =>
      drivers.foldl (fun data nodeNumber => data.regist nodeNumber) data := by
  induction drivers generalizing datas with
  | nil => exact (List.map_id datas).symm
  | cons nodeNumber drivers ih =>
    rw [registDrivers, List.foldl_cons]
    refine (ih _).trans ?_
    rw [registChannels, List.map_map]
    rfl

theorem Regular.registDrivers (h : Regular d data) (drivers : List ℤ) :
    Regular d (drivers.foldl (fun data nodeNumber => data.regist nodeNumber) data) := by
  induction drivers generalizing data with
  | nil => exact h
  | cons nodeNumber drivers ih => exact ih (h.regist nodeNumber)

/-- For a regular channel, all depends on the channel number. -/
theorem Regular.bound_iff (h : Regular d data) (hnode : nodeNumber ≠ 0) :
    (if data.nodeNumber = nodeNumber then (data.regist nodeNumber).channel.Bound
      else data.regist nodeNumber = data) ↔ (d.nodeNumber = nodeNumber → d.channelNumber ≠ 0) := by
  rw [h.nodeNumber]
  by_cases hnumber : d.nodeNumber = nodeNumber
  · rw [if_pos hnumber, ← h.channelNumber]
    constructor
    · intro hbound _ hzero
      have hof : ¬data.IsOf nodeNumber := fun hof => hof.2.1 hzero
      have hdriver := hbound.driver
      rw [NodeChannel.regist, if_neg hof, h.driver (h.channelNumber.symm.trans hzero)] at hdriver
      cases hdriver
    · intro hchannel
      have hof : data.IsOf nodeNumber :=
        ⟨h.nodeNumber.trans_ne (hnumber.trans_ne hnode), hchannel hnumber,
          h.nodeNumber.trans hnumber⟩
      refine ⟨?_, ?_, ?_⟩
      · rw [base_regist hof]
      · rw [base_regist hof]
      · rw [base_regist hof, accessMode_regist]
        dsimp only
        split_ifs with hmode
        · exact iff_of_true rfl hmode
        · exact iff_of_false (mt h.pfnWrite hmode) hmode
  · rw [if_neg hnumber]
    have hof : ¬data.IsOf nodeNumber := fun hof => hnumber (h.nodeNumber.symm.trans hof.2.2)
    rw [NodeChannel.regist, if_neg hof]
    exact iff_of_true rfl fun hnumber' => absurd hnumber' hnumber

/-! ## Accepted channels -/

namespace XmlParser

/-- Not both numbers are 0. -/
def LoadedData.Numbered (d : LoadedData) : Prop := ¬(d.nodeNumber = 0 ∧ d.channelNumber = 0)

variable {clib : CLib} {l l' : Loader}

/-- An element adds no channel, or one with a number. -/
theorem calls_loadElement {parents : List (List UInt16)} {ele : DomElement}
    (h : loadElement clib l parents ele = .ok l') :
    l'.calls = l.calls ∨ ∃ call, l'.calls = l.calls ++ [call] ∧ call.1.Numbered := by
  unfold loadElement at h
  split_ifs at h
  · dsimp only at h
    split at h
    · cases h
    · cases h
    · cases h
    · split_ifs at h with hnone hchildren
      · rename_i d _
        exact Or.inr ⟨_, calls_registerObject h, fun hzero => hnone ⟨hchildren, hzero⟩⟩
      · exact Or.inr ⟨_, calls_registerObject h, hchildren⟩
  · rw [Outcome.ok.inj h]
    exact Or.inl rfl

/-- The channels that are accepted have a number. -/
theorem numbered_of_loadAll {vs : List Visit} (hl : ∀ call ∈ l.calls, call.1.Numbered)
    (h : loadAll clib vs l = .ok l') : ∀ call ∈ l'.calls, call.1.Numbered := by
  induction vs generalizing l with
  | nil =>
    obtain rfl := Outcome.ok.inj h
    exact hl
  | cons v vs ih =>
    obtain ⟨l₁, hself, hrest⟩ := Outcome.bind_eq_ok.1 h
    refine ih ?_ hrest
    rcases calls_loadElement hself with hcalls | ⟨call, hcalls, hnumbered⟩
    · rwa [hcalls]
    · rw [hcalls]
      exact List.forall_mem_append.2 ⟨hl, List.forall_mem_singleton.2 hnumbered⟩

/-- After any elements of a document, and after any drivers, the channels have a number, and
`registChannels` binds exactly those of the node if none of them has the channel number 0. -/
theorem bindsExactly_iff (clib : CLib) (manager : ObjectManager) (next : ℕ) (vs : List Visit)
    (l' : Loader) (h : loadAll clib vs ⟨manager, next, []⟩ = .ok l') (contents : Str → Contents)
    (drivers : List ℤ) {nodeNumber : ℤ} (hnode : nodeNumber ≠ 0) :
    (∀ call ∈ l'.calls, call.1.Numbered) ∧
    (BindsExactly nodeNumber (registDrivers drivers (l'.datas contents)) ↔
      ∀ call ∈ l'.calls, call.1.nodeNumber = nodeNumber → call.1.channelNumber ≠ 0) := by
  refine ⟨numbered_of_loadAll (fun _ hcall => absurd hcall List.not_mem_nil) h, ?_⟩
  rw [BindsExactly, registChannels, List.forall₂_map_right_iff, List.forall₂_same,
    registDrivers_eq, Loader.datas, List.forall_mem_map, List.forall_mem_map]
  refine forall₂_congr fun call _ => ?_
  have hregular := (Regular.created (contents call.2) call.1).registDrivers drivers
  exact hregular.bound_iff hnode

theorem bindsExactly_one : ∃ l', loadAll Update.clib_zero
      (visits [document] (channelOfNode ⟨xerceForm "1", by decide⟩)) ⟨.new, 0, []⟩ = .ok l' ∧
    (∀ call ∈ l'.calls, call.1.Numbered) ∧
    (BindsExactly 3 (registDrivers [3] (l'.datas fun _ => ⟨0, 0⟩)) ↔
      ∀ call ∈ l'.calls, call.1.nodeNumber = 3 → call.1.channelNumber ≠ 0) :=
  ⟨_, rfl, bindsExactly_iff Update.clib_zero .new 0 (visits [document] (channelOfNode
    ⟨xerceForm "1", by decide⟩)) _ rfl (fun _ => ⟨0, 0⟩) [3] (by decide)⟩

/-- The channel number 0 is accepted with the node number 3, and not bound. -/
theorem not_bindsExactly_zero : ∃ l', loadIo Update.clib_zero ⟨.new, 0, []⟩ [document]
      (channelOfNode ⟨xerceForm "0", by decide⟩) = .ok l' ∧
    ¬BindsExactly 3 (registDrivers [] (l'.datas fun _ => ⟨0, 0⟩)) := by
  refine ⟨_, rfl, fun h => ?_⟩
  cases h with
  | cons hdata _ => exact absurd hdata.driver Bool.false_ne_true

end XmlParser

end Ick
