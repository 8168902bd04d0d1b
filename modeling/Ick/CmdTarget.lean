import Ick.Delimited
import Ick.UpdateFrame

/-!
# Message maps

`CmdTarget::dispatchMsg` calls a method of an object by its name. It looks for the name in the
table of the object's class and then in those of its bases, splits the parameters at `,` with a
`split` of its own, and calls the method with the parameters converted as the entry's method
type says.

The method type is looked at twice : a first list of cases says how many parameters there must
be, and throws for a type it does not have, and a second one makes the call, and does nothing
for a type it does not have. `MethodType.Invoked` are the types in both, and a method of
another type that the first list has is silently ignored (`dispatched_iff`).
-/

namespace Ick

namespace CmdTarget

/-! ## Splitting -/

/-- `trim`, the same as that of `Converter`. -/
def trim (s : Str) : Option Str := Converter.trim s

/-- The loop of `split`, for a one-character pattern, with the rest of the text behind it. -/
def splitLoop (pattern : Char) : ℕ → Str → Option (List Str)
  | 0, s => some [s]
  | fuel + 1, s =>
    if pattern ∈ s then
      match trim ((s.dropWhile (· ≠ pattern)).drop 1) with
      | none => none
      | some rest => (splitLoop pattern fuel rest).map (s.takeWhile (· ≠ pattern) :: ·)
    else some [s]

/-- `split`. Only of the empty text nothing is left. -/
def split (str : Str) (pattern : Char) : Option (List Str) :=
  match trim str with
  | none => none
  | some s => if str = [] then some [] else splitLoop pattern s.length s

/-- A text without the blanks that it begins with. -/
def dropBlanks (s : Str) : Str := s.dropWhile (· = ' ')

theorem trim_of_getLast? {s : Str} (h : s.getLast? ≠ some ' ') : trim s = some (dropBlanks s) :=
  Converter.trim_of_getLast? h

/-- What is left ends as the text does, if anything is left. -/
theorem getLast?_dropBlanks {s : Str} {c : Char} (h : (dropBlanks s).getLast? = some c) :
    s.getLast? = some c := by
  obtain ⟨t, ht⟩ := List.dropWhile_suffix (l := s) fun c => decide (c = ' ')
  have hne : s.dropWhile (· = ' ') ≠ [] := by
    intro hnil
    rw [dropBlanks, hnil] at h
    cases h
  rw [← ht, List.getLast?_append_of_ne_nil _ hne]
  exact h

theorem head?_dropBlanks (s : Str) : (dropBlanks s).head? ≠ some ' ' := by
  intro h
  have hnot := List.head?_dropWhile_not (fun c => decide (c = ' ')) s
  rw [dropBlanks] at h
  rw [h] at hnot
  simp at hnot

theorem dropBlanks_of_head? {s : Str} (h : s.head? ≠ some ' ') : dropBlanks s = s := by
  cases s with
  | nil => rfl
  | cons c s => exact List.dropWhile_cons_of_neg (by simpa using h)

/-- The blanks in front of a text are in front of its first piece. -/
theorem map_dropBlanks_splitOn {pattern : Char} (hpattern : pattern ≠ ' ') (s : Str) :
    ((dropBlanks s).splitOn pattern).map dropBlanks = (s.splitOn pattern).map dropBlanks := by
  induction s with
  | nil => rfl
  | cons c s ih =>
    by_cases hc : c = ' '
    · subst hc
      have hdrop : ∀ t : Str, dropBlanks (' ' :: t) = dropBlanks t := fun _ => rfl
      rw [hdrop, ih, List.splitOn_cons_eq_if_modifyHead,
        if_neg (by simpa using hpattern.symm)]
      cases s.splitOn pattern <;> simp [hdrop]
    · rw [dropBlanks_of_head? (by simpa using hc)]

/-- The pieces are the texts between the separators, without the blanks that they begin
with. -/
theorem splitLoop_eq {pattern : Char} (hpattern : pattern ≠ ' ') {fuel : ℕ} : ∀ {s : Str},
    s.length ≤ fuel → s.head? ≠ some ' ' → s.getLast? ≠ some ' ' →
    splitLoop pattern fuel s = some ((s.splitOn pattern).map dropBlanks) := by
  induction fuel with
  | zero =>
    intro s hs _ _
    obtain rfl := List.length_eq_zero_iff.1 (Nat.le_zero.1 hs)
    rfl
  | succ fuel ih =>
    intro s hs hhead hlast
    rw [splitLoop]
    split_ifs with hp
    · obtain ⟨a, r, rfl, ha⟩ := List.eq_append_cons_of_mem hp
      have htrim := trim_of_getLast? (Converter.getLast?_of_append_cons hlast)
      have hlen := Converter.length_le_of_trim htrim
      have ha' : a.head? ≠ some ' ' := by
        cases a with
        | nil => simp
        | cons c a => exact hhead
      rw [List.length_append, List.length_cons] at hs
      rw [Converter.dropWhile_append_cons ha, Converter.takeWhile_append_cons ha, List.drop_one,
        List.tail_cons, htrim]
      simp only [ih (by omega) (Converter.head?_trim htrim) (Converter.getLast?_trim htrim),
        map_dropBlanks_splitOn hpattern, List.splitOn_append_cons_self_of_not_mem ha,
        Option.map_some, List.map_cons, dropBlanks_of_head? ha']
    · rw [List.splitOn_eq_singleton hp, List.map_singleton, dropBlanks_of_head? hhead]

theorem split_eq {pattern : Char} (hpattern : pattern ≠ ' ') {str s : Str} (hstr : str ≠ [])
    (htrim : trim str = some s) :
    split str pattern = some ((s.splitOn pattern).map dropBlanks) := by
  unfold split
  simp only [htrim, if_neg hstr]
  exact splitLoop_eq hpattern le_rfl (Converter.head?_trim htrim) (Converter.getLast?_trim htrim)

theorem split_nil (pattern : Char) : split [] pattern = some [] := rfl

/-- A text of blanks is emptied and then read outside. -/
theorem split_eq_none_iff {pattern : Char} (hpattern : pattern ≠ ' ') {str : Str} :
    split str pattern = none ↔ str ≠ [] ∧ ∀ c ∈ str, c = ' ' := by
  constructor
  · intro h
    cases htrim : trim str with
    | none => exact Converter.trim_eq_none htrim
    | some s =>
      by_cases hstr : str = []
      · rw [hstr, split_nil] at h
        cases h
      · rw [split_eq hpattern hstr htrim] at h
        cases h
  · rintro ⟨hstr, hall⟩
    have htrim : trim str = none := by
      rw [trim, Converter.trim, if_neg hstr, if_pos]
      exact List.dropWhile_eq_nil_iff.2 fun c hc => by simpa using hall c hc
    unfold split
    rw [htrim]

/-- Joining fields. Fields without the separator, none of which begins or ends with a blank, are
split again as they were joined; a lone empty field leaves nothing to be split. -/
theorem split_intercalate {pattern : Char} (hpattern : pattern ≠ ' ') {fields : List Str}
    (hne : fields ≠ []) (hlone : fields ≠ [[]]) (hsep : ∀ field ∈ fields, pattern ∉ field)
    (hhead : ∀ field ∈ fields, field.head? ≠ some ' ')
    (hlast : ∀ field ∈ fields, field.getLast? ≠ some ' ') :
    split ([pattern].intercalate fields) pattern = some fields := by
  have htrim : trim ([pattern].intercalate fields) = some ([pattern].intercalate fields) :=
    Converter.trim_of_ends (Delimited.head?_intercalate hpattern hhead)
      (Delimited.getLast?_intercalate hpattern hlast)
  have hfields := Delimited.splitOn_intercalate hne hsep
  have hstr : [pattern].intercalate fields ≠ [] := by
    intro hnil
    rw [hnil, List.splitOn_nil] at hfields
    exact hlone hfields.symm
  rw [split_eq hpattern hstr htrim, hfields]
  have hmap : fields.map dropBlanks = fields.map id :=
    List.map_congr_left fun field hfield => dropBlanks_of_head? (hhead field hfield)
  rw [hmap, List.map_id]

/-- Two blanks inside a field, and empty fields at both ends. -/
theorem split_intercalate_ends :
    split ([','].intercalate [[], "a  b".toList, []]) ',' = some [[], "a  b".toList, []] :=
  split_intercalate (by decide) (by decide) (by decide) (by decide) (by decide) (by decide)

/-- The pieces are made of what the text is made of. -/
theorem mem_of_mem_split {pattern : Char} (hpattern : pattern ≠ ' ') {str : Str} {pieces : List Str}
    (h : split str pattern = some pieces) {piece : Str} (hpiece : piece ∈ pieces) {c : Char}
    (hc : c ∈ piece) : c ∈ str := by
  by_cases hstr : str = []
  · rw [hstr, split_nil, Option.some.injEq] at h
    exact absurd hpiece (h ▸ List.not_mem_nil)
  · cases htrim : trim str with
    | none => simp [split, htrim] at h
    | some s =>
      rw [split_eq hpattern hstr htrim, Option.some.injEq] at h
      obtain ⟨field, hfield, rfl⟩ := List.mem_map.1 (h ▸ hpiece)
      exact Converter.mem_of_trim htrim
        (Delimited.mem_of_mem_field hfield ((List.dropWhile_suffix _).subset hc))

end CmdTarget

/-! ## Entries -/

/-- `METHOD_TYPE` -/
inductive MethodType
  | METHOD_END | METHOD_V | METHOD_B | METHOD_I | METHOD_D | METHOD_S | METHOD_II | METHOD_DD
  | METHOD_SS | METHOD_ID | METHOD_DI | METHOD_DS | METHOD_SD | METHOD_IS | METHOD_SI
  | METHOD_III | METHOD_DDD | METHOD_SSS | METHOD_IID | METHOD_IIS | METHOD_DDI | METHOD_DDS
  | METHOD_SSI | METHOD_SSD | METHOD_IDI | METHOD_IDD | METHOD_IDS | METHOD_ISI | METHOD_ISD
  | METHOD_ISS | METHOD_DII | METHOD_DID | METHOD_DIS | METHOD_DSI | METHOD_DSD | METHOD_DSS
  | METHOD_SII | METHOD_SID | METHOD_SIS | METHOD_SDI | METHOD_SDD | METHOD_SDS
  deriving DecidableEq

/-- A type of a parameter. -/
inductive ParamType
  | bool | int | double | string

/-- A parameter of a method. -/
inductive Param
  | bool (value : Bool)
  | int (value : ℤ)
  | double (value : Float)
  | string (value : Str)

/-- The text of a parameter as a value of the type. -/
def ParamType.convert (clib : CLib) (param : Str) : ParamType → Param
  | bool => .bool (param = "true".toList ∨ param = "1".toList)
  | int => .int (Converter.atoi param)
  | double => .double (clib.atof param)
  | string => .string param

namespace MethodType

/-- The types of the parameters that a method type stands for. -/
def paramTypes : MethodType → List ParamType
  | METHOD_END => []
  | METHOD_V => []
  | METHOD_B => [.bool]
  | METHOD_I => [.int]
  | METHOD_D => [.double]
  | METHOD_S => [.string]
  | METHOD_II => [.int, .int]
  | METHOD_DD => [.double, .double]
  | METHOD_SS => [.string, .string]
  | METHOD_ID => [.int, .double]
  | METHOD_DI => [.double, .int]
  | METHOD_DS => [.double, .string]
  | METHOD_SD => [.string, .double]
  | METHOD_IS => [.int, .string]
  | METHOD_SI => [.string, .int]
  | METHOD_III => [.int, .int, .int]
  | METHOD_DDD => [.double, .double, .double]
  | METHOD_SSS => [.string, .string, .string]
  | METHOD_IID => [.int, .int, .double]
  | METHOD_IIS => [.int, .int, .string]
  | METHOD_DDI => [.double, .double, .int]
  | METHOD_DDS => [.double, .double, .string]
  | METHOD_SSI => [.string, .string, .int]
  | METHOD_SSD => [.string, .string, .double]
  | METHOD_IDI => [.int, .double, .int]
  | METHOD_IDD => [.int, .double, .double]
  | METHOD_IDS => [.int, .double, .string]
  | METHOD_ISI => [.int, .string, .int]
  | METHOD_ISD => [.int, .string, .double]
  | METHOD_ISS => [.int, .string, .string]
  | METHOD_DII => [.double, .int, .int]
  | METHOD_DID => [.double, .int, .double]
  | METHOD_DIS => [.double, .int, .string]
  | METHOD_DSI => [.double, .string, .int]
  | METHOD_DSD => [.double, .string, .double]
  | METHOD_DSS => [.double, .string, .string]
  | METHOD_SII => [.string, .int, .int]
  | METHOD_SID => [.string, .int, .double]
  | METHOD_SIS => [.string, .int, .string]
  | METHOD_SDI => [.string, .double, .int]
  | METHOD_SDD => [.string, .double, .double]
  | METHOD_SDS => [.string, .double, .string]

/-- The first list of cases of `dispatchMsg` : how many parameters there must be. -/
def paramNum : MethodType → Option ℕ
  | METHOD_B | METHOD_I | METHOD_D | METHOD_S => some 1
  | METHOD_II | METHOD_DD | METHOD_SS | METHOD_ID | METHOD_IS | METHOD_DI | METHOD_DS
  | METHOD_SI | METHOD_SD => some 2
  | METHOD_III | METHOD_DDD | METHOD_SSS | METHOD_IID | METHOD_IIS | METHOD_DDI | METHOD_DDS
  | METHOD_SSI | METHOD_SSD | METHOD_IDD | METHOD_ISS | METHOD_DII | METHOD_DSS | METHOD_SII
  | METHOD_SDD | METHOD_IDI | METHOD_IDS | METHOD_DID | METHOD_DIS | METHOD_SID
  | METHOD_SIS => some 3
  | _ => none

/-- The second list of cases of `dispatchMsg` : the parameters that the method is called with,
or `none` for the default, which does nothing. -/
def invoke (clib : CLib) (t : MethodType) (param : List Str) : Option (List Param) :=
  let s i := Param.string (param.getD i [])
  let i i := Param.int (Converter.atoi (param.getD i []))
  let d i := Param.double (clib.atof (param.getD i []))
  match t with
  | METHOD_B => some [.bool (param.getD 0 [] = "true".toList ∨ param.getD 0 [] = "1".toList)]
  | METHOD_S => some [s 0]
  | METHOD_I => some [i 0]
  | METHOD_SI => some [s 0, i 1]
  | METHOD_IS => some [i 0, s 1]
  | METHOD_SS => some [s 0, s 1]
  | METHOD_II => some [i 0, i 1]
  | METHOD_SSS => some [s 0, s 1, s 2]
  | METHOD_SSI => some [s 0, s 1, i 2]
  | METHOD_SIS => some [s 0, i 1, s 2]
  | METHOD_SDD => some [s 0, d 1, d 2]
  | METHOD_SII => some [s 0, i 1, i 2]
  | METHOD_DDD => some [d 0, d 1, d 2]
  | METHOD_III => some [i 0, i 1, i 2]
  | _ => none

/-- The types for which a call is made. -/
def invoked : List MethodType :=
  [METHOD_B, METHOD_S, METHOD_I, METHOD_SI, METHOD_IS, METHOD_SS, METHOD_II, METHOD_SSS, METHOD_SSI,
    METHOD_SIS, METHOD_SDD, METHOD_SII, METHOD_DDD, METHOD_III]

theorem length_paramTypes {t : MethodType} {n : ℕ} (h : t.paramNum = some n) :
    t.paramTypes.length = n := by
  cases t <;> simp_all [paramNum, paramTypes]

/-- Where a call is made, its parameters are those of the type. -/
theorem invoke_eq {clib : CLib} {t : MethodType} {param : List Str}
    (h : param.length = t.paramTypes.length) : t.invoke clib param =
      if t ∈ invoked then some (List.zipWith (ParamType.convert clib) param t.paramTypes)
      else none := by
  -- the number of parameters leaves no choice of the other list
  rcases param with _ | ⟨a, _ | ⟨b, _ | ⟨c, _ | ⟨d, param⟩⟩⟩⟩ <;> cases t <;>
    first
    | rfl
    | cases h

end MethodType

/-- `MSG_ENTITY` : the name of a method, its type, and the function. An entry without a name is
the end of a table. -/
structure MsgEntity where
  msg : Str
  msgType : MethodType
  pfn : ℕ

/-- The tables of a class and its bases, each up to `END_MESSAGE_LIST`. -/
abbrev MsgMap := List (List MsgEntity)

/-! ## Dispatching -/

/-- What `dispatchMsg` does : it calls a method, which is the last thing that it does, it
returns without a call, it throws, or it reads outside a text. -/
inductive Dispatch
  | call (pfn : ℕ) (params : List Param)
  | returns
  | throws (message : Str)
  | crash

namespace CmdTarget

/-- The text of the exception for a type that is not supported. -/
def typeMessage (msgName : Str) (t : MethodType) : Str :=
  "Message dispach failed, msg type not supported! method name: ".toList ++ msgName ++
    ", type: ".toList ++ Converter.convertToString t.ctorIdx

/-- The text of the exception for a wrong number of parameters. -/
def numMessage (msgName params : Str) : Str :=
  "Message dispach failed, param num error! method name: ".toList ++ msgName ++
    ", param: ".toList ++ params

/-- The text of the exception for a name that is in no table. -/
def foundMessage (fullName msgName : Str) : Str :=
  fullName ++ ": dispatchMsg failed, method name \"".toList ++ msgName ++ "\" not found!".toList

/-- The loop over a table. -/
def findEntity (msgName : Str) : List MsgEntity → Option MsgEntity
  | [] => none
  | e :: es =>
    if e.msg = [] then none
    else if e.msg = msgName then some e
    else findEntity msgName es

/-- What is done once an entry is found. -/
def dispatchEntity (clib : CLib) (e : MsgEntity) (msgName params : Str) : Dispatch :=
  match e.msgType.paramNum with
  | none => .throws (typeMessage msgName e.msgType)
  | some paramNum =>
    match split params ',' with
    | none => .crash
    | some param =>
      if param.length ≠ paramNum then .throws (numMessage msgName params)
      else
        match e.msgType.invoke clib param with
        | some params => .call e.pfn params
        | none => .returns

/-- `dispatchMsg` of an object with this full name. -/
def dispatchMsg (clib : CLib) (fullName : Str) (msgName params : Str) : MsgMap → Dispatch
  | [] => .throws (foundMessage fullName msgName)
  | table :: baseMap =>
    match findEntity msgName table with
    | some e => dispatchEntity clib e msgName params
    | none => dispatchMsg clib fullName msgName params baseMap

/-- The entries of the tables, from the class to its bases, each table up to its end. -/
def entities (msgMap : MsgMap) : List MsgEntity :=
  msgMap.flatMap fun table => table.takeWhile (·.msg ≠ [])

/-- An exception is thrown, or the method of the first entry with this name is called, with the
pieces of the parameters, each as a value of its type. -/
def Dispatched (clib : CLib) (fullName : Str) (msgMap : MsgMap) (msgName params : Str) : Prop :=
  (∃ message, dispatchMsg clib fullName msgName params msgMap = .throws message) ∨
    ∃ e param, (entities msgMap).find? (·.msg = msgName) = some e ∧
      split params ',' = some param ∧ param.length = e.msgType.paramTypes.length ∧
      dispatchMsg clib fullName msgName params msgMap =
        .call e.pfn (List.zipWith (ParamType.convert clib) param e.msgType.paramTypes)

/-- The first entry with this name, if there is one, is not of a type that has a number of
parameters and that no call is made for, where this is the number of parameters there are;
and the parameters do not consist of blanks. -/
def Dispatchable (msgMap : MsgMap) (msgName params : Str) : Prop :=
  ∀ e, (entities msgMap).find? (·.msg = msgName) = some e → ∀ paramNum,
    e.msgType.paramNum = some paramNum →
    ¬(params ≠ [] ∧ ∀ c ∈ params, c = ' ') ∧
      ∀ param, split params ',' = some param → param.length = paramNum →
        e.msgType ∈ MethodType.invoked

variable {clib : CLib} {fullName msgName params : Str} {msgMap : MsgMap}

theorem findEntity_eq (msgName : Str) (table : List MsgEntity) :
    findEntity msgName table = (table.takeWhile (·.msg ≠ [])).find? (·.msg = msgName) := by
  induction table with
  | nil => rfl
  | cons e es ih =>
    rw [findEntity, ih]
    by_cases hend : e.msg = []
    · simp [hend]
    · by_cases hname : e.msg = msgName
      · simp [hname, hname ▸ hend]
      · simp [hend, hname]

/-- The tables are gone through one after the other. -/
theorem dispatchMsg_eq : dispatchMsg clib fullName msgName params msgMap =
    match (entities msgMap).find? (·.msg = msgName) with
    | none => .throws (foundMessage fullName msgName)
    | some e => dispatchEntity clib e msgName params := by
  induction msgMap with
  | nil => rfl
  | cons table msgMap ih =>
    rw [dispatchMsg, findEntity_eq, entities, List.flatMap_cons, List.find?_append]
    cases (table.takeWhile (·.msg ≠ [])).find? (·.msg = msgName) with
    | none => exact ih
    | some e => rfl

/-- What becomes of an entry that is found. -/
theorem dispatchEntity_spec (e : MsgEntity) (msgName params : Str) :
    ((∃ message, dispatchEntity clib e msgName params = .throws message) ∨
      ∃ param, split params ',' = some param ∧ param.length = e.msgType.paramTypes.length ∧
        dispatchEntity clib e msgName params =
          .call e.pfn (List.zipWith (ParamType.convert clib) param e.msgType.paramTypes)) ↔
    ∀ paramNum, e.msgType.paramNum = some paramNum →
      ¬(params ≠ [] ∧ ∀ c ∈ params, c = ' ') ∧
        ∀ param, split params ',' = some param → param.length = paramNum →
          e.msgType ∈ MethodType.invoked := by
  unfold dispatchEntity
  cases hnum : e.msgType.paramNum with
  | none => exact iff_of_true (Or.inl ⟨_, rfl⟩) nofun
  | some paramNum =>
    have htypes := MethodType.length_paramTypes hnum
    have hblank := @split_eq_none_iff ',' (by decide) params
    simp only [Option.some.injEq, forall_eq', ← hblank]
    cases hsplit : split params ',' with
    | none => simp
    | some param =>
      simp only [reduceCtorEq, not_false_eq_true, true_and, Option.some.injEq, forall_eq',
        exists_eq_left']
      by_cases hlen : param.length = paramNum
      · have hinvoke := @MethodType.invoke_eq clib _ _ (hlen.trans htypes.symm)
        rw [if_neg (not_not.2 hlen), hinvoke]
        by_cases hinvoked : e.msgType ∈ MethodType.invoked
        · rw [if_pos hinvoked]
          exact iff_of_true (Or.inr ⟨hlen.trans htypes.symm, rfl⟩) fun _ => hinvoked
        · rw [if_neg hinvoked]
          simp [hinvoked, hlen]
      · rw [if_pos hlen]
        exact iff_of_true (Or.inl ⟨_, rfl⟩) fun h => absurd h hlen

/-- Ignored methods. A message is dispatched, or an exception thrown, exactly if the method
that the name stands for is not of a type that is ignored. -/
theorem dispatched_iff : Dispatched clib fullName msgMap msgName params ↔
    Dispatchable msgMap msgName params := by
  unfold Dispatched Dispatchable
  rw [dispatchMsg_eq]
  cases hfind : (entities msgMap).find? (·.msg = msgName) with
  | none => exact iff_of_true (Or.inl ⟨_, rfl⟩) nofun
  | some e =>
    simp only [Option.some.injEq, exists_and_left, exists_eq_left', forall_eq']
    exact dispatchEntity_spec e msgName params

/-- A method with a `double` as its parameter is ignored. -/
theorem not_dispatched_double : ¬∀ clib fullName msgMap msgName params,
    Dispatched clib fullName msgMap msgName params := by
  intro h
  rcases h Update.clib_zero [] [[⟨"m".toList, .METHOD_D, 0⟩]] "m".toList "1".toList with
    ⟨message, hthrows⟩ | ⟨e, param, -, -, -, hcall⟩
  · cases hthrows
  · cases hcall

end CmdTarget

end Ick
