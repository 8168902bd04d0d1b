import Ick.CmdTarget
import Ick.Escape
import Ick.ObjectManager

/-!
# Calls of services

`ControlObject::call` runs a service of the object by its name, if the service list of the
object's class has declared it. The parameters are split at `,`, and if there are as many as
were declared, the `i`th one is decoded and stored as the value of the parameter that was
declared with the index `i`; then the service is executed.

For a service with string parameters the values are the decoded pieces (`call_spec`), unless a
piece is the text `"%"`, on which `decodeParam` throws. `decodeParam` and `encodeData` of the
sockets are the two directions of a set of escapes.
-/

namespace Ick

/-! ## Escapes of parameters -/

/-- `IckStormServiceSocket::encodeData` -/
def ServiceClient.encodeData (data : Str) : Str :=
  data.flatMap fun c =>
    if c = ':' then ['%', '3', 'A'] else if c = ',' then ['%', '2', 'C'] else [c]

namespace ControlObject

/-- The loop of `decodeParam`, on a text that does not consist of one character. -/
def decodeLoop : Str → Str
  | '%' :: '3' :: 'A' :: rest => ':' :: decodeLoop rest
  | '%' :: '2' :: 'C' :: rest => ',' :: decodeLoop rest
  | c :: rest => c :: decodeLoop rest
  | [] => []

/-- `decodeParam`; `none` when it throws. On a text of one character `data.length() - 2` is
the largest number, and `data.at(1)` is tried if the character is `%`. -/
def decodeParam (data : Str) : Option Str :=
  if data = ['%'] then none else some (decodeLoop data)

/-- The code of a colon and that of a comma. -/
def code (c : Char) : Option (Char × Char) :=
  if c = ':' then some ('3', 'A') else if c = ',' then some ('2', 'C') else none

/-- The two elements that have a code. -/
theorem code_eq_some {c x y : Char} : code c = some (x, y) ↔
    (c = ':' ∧ x = '3' ∧ y = 'A') ∨ (c = ',' ∧ x = '2' ∧ y = 'C') := by
  unfold code
  split_ifs with hcolon hcomma
  · subst hcolon
    simp [eq_comm]
  · subst hcomma
    simp [eq_comm]
  · simp [hcolon, hcomma]

/-- The escapes of a colon and of a comma. -/
def escapes : Escapes Char where
  mark := '%'
  code := code
  elem x y :=
    if x = '3' ∧ y = 'A' then some ':' else if x = '2' ∧ y = 'C' then some ',' else none
  elem_eq_some := by
    intro x y c
    rw [code_eq_some]
    split_ifs with hcolon hcomma
    · simp [hcolon, eq_comm]
    · simp [hcomma, eq_comm]
    · simp [hcolon, hcomma]
  code_mark := by decide
  plain_fst := by
    intro x y c h
    rcases code_eq_some.1 h with ⟨-, rfl, -⟩ | ⟨-, rfl, -⟩ <;> decide
  plain_snd := by
    intro x y c h
    rcases code_eq_some.1 h with ⟨-, -, rfl⟩ | ⟨-, -, rfl⟩ <;> decide

theorem encodeData_eq (data : Str) : ServiceClient.encodeData data = escapes.encode data := by
  refine List.flatMap_congr fun c _ => ?_
  by_cases hcolon : c = ':'
  · simp [Escapes.encodeElem, escapes, code, hcolon]
  · by_cases hcomma : c = ',' <;>
      simp [Escapes.encodeElem, escapes, code, hcolon, hcomma]

theorem decodeLoop_eq (data : Str) : decodeLoop data = escapes.decode data := by
  induction data using escapes.decode_rec with
  | nil => rfl
  | escape x y d rest hd ih =>
    rw [Escapes.decode_escape hd, ← ih]
    rcases code_eq_some.1 hd with ⟨rfl, rfl, rfl⟩ | ⟨rfl, rfl, rfl⟩ <;> rfl
  | plain c v heq hnone ih =>
    rw [heq, ← ih, decodeLoop]
    · rintro rest rfl rfl
      exact hnone '3' 'A' ':' rfl ⟨rest, rfl⟩
    · rintro rest rfl rfl
      exact hnone '2' 'C' ',' rfl ⟨rest, rfl⟩

end ControlObject

/-! ## Declared parameters -/

/-- `ServiceParamType` -/
inductive ServiceParamType
  | PARAM_TYPE_INT
  | PARAM_TYPE_DOUBLE
  | PARAM_TYPE_STRING
  deriving DecidableEq

/-- The type that `setType` sets; `none` when it throws. -/
def ServiceParamType.ofText (type : Str) : Option ServiceParamType :=
  if type = "I".toList ∨ type = "int".toList then some PARAM_TYPE_INT
  else if type = "D".toList ∨ type = "double".toList then some PARAM_TYPE_DOUBLE
  else if type = "S".toList ∨ type = "string".toList then some PARAM_TYPE_STRING
  else none

/-- A `ServiceParam` as a service's declaration uses it. -/
structure ServiceParam where
  type : ServiceParamType
  paramIndex : ℕ
  paramName : Str

/-- A `ServiceParam` as a service reads its values. -/
structure ParamValue where
  intValue : ℤ
  doubleValue : Float
  stringValue : Str

/-- `ServiceParam()` -/
def ParamValue.new : ParamValue where
  intValue := 0
  doubleValue := 0
  stringValue := []

/-- `setValue` with the text of a parameter, read as its type says. -/
def ParamValue.assign (clib : CLib) (value : Str) (v : ParamValue) : ServiceParamType → ParamValue
  | .PARAM_TYPE_INT => { v with intValue := Converter.atoi value }
  | .PARAM_TYPE_DOUBLE => { v with doubleValue := clib.atof value }
  | .PARAM_TYPE_STRING => { v with stringValue := value }

/-- `ServiceInfo` -/
structure ServiceInfo where
  name : Str
  params : Std.TreeMap Str ServiceParam

namespace ServiceInfo

/-- `addServiceParam`; `none` when it throws. A name that is declared again gets a new index. -/
def addServiceParam (info : ServiceInfo) (paramName paramType : Str) : Option ServiceInfo :=
  (ServiceParamType.ofText paramType).map fun type =>
    { info with params := info.params.insert paramName ⟨type, info.params.size, paramName⟩ }

/-- The declaration of a service with these string parameters. -/
def ofStrings (name : Str) (paramNames : List Str) : ServiceInfo :=
  paramNames.foldl (fun info paramName =>
    (info.addServiceParam paramName "string".toList).getD info) ⟨name, ∅⟩

theorem ofStrings_snoc (name : Str) (paramNames : List Str) (paramName : Str) :
    ofStrings name (paramNames ++ [paramName]) =
      ⟨(ofStrings name paramNames).name, (ofStrings name paramNames).params.insert paramName
        ⟨.PARAM_TYPE_STRING, (ofStrings name paramNames).params.size, paramName⟩⟩ := by
  rw [ofStrings, List.foldl_append]
  rfl

theorem getElem?_snoc {α : Type*} (l : List α) (x : α) (i : ℕ) (y : α) :
    (l ++ [x])[i]? = some y ↔ l[i]? = some y ∨ (i = l.length ∧ x = y) := by
  rw [List.getElem?_append]
  split_ifs with hi
  · simp [hi.ne]
  · rw [List.getElem?_eq_none (Nat.le_of_not_lt hi)]
    cases hsub : i - l.length with
    | zero => simp [Nat.le_antisymm (Nat.sub_eq_zero_iff_le.1 hsub) (Nat.le_of_not_lt hi)]
    | succ n =>
      have hne : i ≠ l.length := by omega
      simp [hne]

/-- The parameters declared have their places in the list as their indices. -/
theorem ofStrings_spec (name : Str) {paramNames : List Str} (h : paramNames.Nodup) :
    (ofStrings name paramNames).name = name ∧
    (ofStrings name paramNames).params.size = paramNames.length ∧
    ∀ (paramName : Str) (p : ServiceParam),
      (ofStrings name paramNames).params[paramName]? = some p ↔
        ∃ i, paramNames[i]? = some paramName ∧ p = ⟨.PARAM_TYPE_STRING, i, paramName⟩ := by
  induction paramNames using List.reverseRecOn with
  | nil => exact ⟨rfl, rfl, fun paramName p => by simp [ofStrings]⟩
  | append_singleton paramNames last ih =>
    obtain ⟨hnodup, -, hlast⟩ := List.nodup_append.1 h
    obtain ⟨hname, hsize, hparams⟩ := ih hnodup
    have hnew : last ∉ (ofStrings name paramNames).params := by
      rw [Std.TreeMap.mem_iff_isSome_getElem?, Option.isSome_iff_exists]
      rintro ⟨p, hp⟩
      obtain ⟨i, hi, -⟩ := (hparams last p).1 hp
      exact hlast last (List.mem_of_getElem? hi) last (List.mem_singleton_self _) rfl
    rw [ofStrings_snoc]
    refine ⟨hname, ?_, fun paramName p => ?_⟩
    · simp [Std.TreeMap.size_insert, hnew, hsize]
    · simp only [Std.TreeMap.getElem?_insert, Std.compare_eq_iff_eq, hsize]
      by_cases heq : last = paramName
      · subst heq
        rw [if_pos rfl, Option.some.injEq]
        constructor
        · rintro rfl
          exact ⟨_, by simp, rfl⟩
        · rintro ⟨i, hi, rfl⟩
          rcases (getElem?_snoc _ _ _ _).1 hi with hi | ⟨rfl, -⟩
          · exact absurd rfl (hlast last (List.mem_of_getElem? hi) last (List.mem_singleton_self _))
          · rfl
      · rw [if_neg heq, hparams]
        simp [getElem?_snoc, heq]

end ServiceInfo

/-! ## Calls -/

/-- The members of `ControlObject` that a call uses : the name of its class, the declarations
of all classes, and the values of the parameters of each service; and the services that have
been executed so far, with the values at that time. -/
structure ControlObject where
  className : Str
  serviceMap : Std.TreeMap Str (List ServiceInfo)
  services : Std.TreeMap Str (Std.TreeMap Str ParamValue)
  executed : List (Str × Std.TreeMap Str ParamValue)

namespace ControlObject

/-- The class of the exception that `at` throws. -/
def outOfRange : Str := "std::out_of_range".toList

/-- The declared parameters of a service; `none` for `NULL`. -/
def serviceParamMap (o : ControlObject) (serviceName : Str) :
    Option (Std.TreeMap Str ServiceParam) :=
  match o.serviceMap[o.className]? with
  | none => none
  | some serviceInfoList => (serviceInfoList.find? (·.name = serviceName)).map (·.params)

/-- The loop over the pieces, from the `i`th on, with the values so far. -/
def setParams (clib : CLib) (params : Std.TreeMap Str ServiceParam) :
    ℕ → List Str → Std.TreeMap Str ParamValue → Outcome (Std.TreeMap Str ParamValue)
  | _, [], values => .ok values
  | i, param :: rest, values =>
    match params.toList.find? (·.2.paramIndex = i) with
    | none => setParams clib params (i + 1) rest values
    | some (_, p) =>
      match decodeParam param with
      | none => .throws outOfRange values
      | some value => setParams clib params (i + 1) rest (values.insert p.paramName
          ((values.getD p.paramName .new).assign clib value p.type))

/-- `call` -/
def call (clib : CLib) (o : ControlObject) (serviceName params : Str) : Outcome ControlObject :=
  match o.services[serviceName]? with
  | none => .ok o
  | some values =>
    match o.serviceParamMap serviceName with
    | none => .ok o
    | some serviceParamMap =>
      match CmdTarget.split params ',' with
      | none => .crash
      | some param =>
        if serviceParamMap.size ≠ param.length then .ok o
        else
          match setParams clib serviceParamMap 0 param values with
          | .ok values => .ok { o with
              services := o.services.insert serviceName values
              executed := o.executed ++ [(serviceName, values)] }
          | .throws message values =>
            .throws message { o with services := o.services.insert serviceName values }
          | .crash => .crash

/-- The service is one of the object's, and declared with these string parameters. -/
structure Declares (o : ControlObject) (serviceName : Str) (paramNames : List Str) : Prop where
  service : serviceName ∈ o.services
  declared : ∃ serviceInfoList, o.serviceMap[o.className]? = some serviceInfoList ∧
    serviceInfoList.find? (·.name = serviceName) = some (.ofStrings serviceName paramNames)
  nodup : paramNames.Nodup

/-- The text that is the value of a parameter. -/
def stringOf (values : Std.TreeMap Str ParamValue) (paramName : Str) : Option Str :=
  values[paramName]?.map (·.stringValue)

variable {clib : CLib} {o o' : ControlObject} {serviceName : Str} {paramNames : List Str}

theorem find?_eq_some_of_unique {α : Type*} {p : α → Bool} {l : List α} {a : α} (ha : a ∈ l)
    (hp : p a) (huniq : ∀ b ∈ l, p b → b = a) : l.find? p = some a := by
  cases hfind : l.find? p with
  | none => exact absurd hp (List.find?_eq_none.1 hfind a ha)
  | some b => rw [huniq b (List.mem_of_find?_eq_some hfind) (List.find?_some hfind)]

/-- The parameter with an index is the one that was declared in that place. -/
theorem find?_ofStrings (h : paramNames.Nodup) {i : ℕ} {paramName : Str}
    (hi : paramNames[i]? = some paramName) :
    (ServiceInfo.ofStrings serviceName paramNames).params.toList.find? (·.2.paramIndex = i) =
      some (paramName, ⟨.PARAM_TYPE_STRING, i, paramName⟩) := by
  obtain ⟨-, -, hparams⟩ := ServiceInfo.ofStrings_spec serviceName h
  refine find?_eq_some_of_unique ?_ (decide_eq_true rfl) fun b hb hindex => ?_
  · exact Std.TreeMap.mem_toList_iff_getElem?_eq_some.2 ((hparams _ _).2 ⟨i, hi, rfl⟩)
  · obtain ⟨name, p⟩ := b
    obtain ⟨j, hj, rfl⟩ := (hparams _ _).1 (Std.TreeMap.mem_toList_iff_getElem?_eq_some.1 hb)
    obtain rfl : j = i := of_decide_eq_true hindex
    obtain rfl := Option.some.inj (hi.symm.trans hj)
    rfl

/-- The loop stores the pieces, decoded, as the values of the parameters from `pre.length` on,
or it throws at a piece. -/
theorem setParams_spec {pre rest : List Str} (hnames : paramNames = pre ++ rest)
    (h : paramNames.Nodup) : ∀ {pieces : List Str} {values : Std.TreeMap Str ParamValue},
    pieces.length = rest.length →
    (['%'] ∈ pieces → ∃ message values', setParams clib
      (ServiceInfo.ofStrings serviceName paramNames).params pre.length pieces values =
        .throws message values') ∧
    (['%'] ∉ pieces → ∃ values', setParams clib
      (ServiceInfo.ofStrings serviceName paramNames).params pre.length pieces values = .ok values' ∧
        rest.map (stringOf values') = pieces.map (some ∘ decodeLoop) ∧
        ∀ paramName ∉ rest, values'[paramName]? = values[paramName]?) := by
  induction rest generalizing pre with
  | nil =>
    intro pieces values hlen
    obtain rfl := List.length_eq_zero_iff.1 hlen
    exact ⟨fun hmem => absurd hmem List.not_mem_nil, fun _ => ⟨values, rfl, rfl, fun _ _ => rfl⟩⟩
  | cons paramName rest ih =>
    intro pieces values hlen
    obtain ⟨piece, pieces, rfl⟩ := List.exists_cons_of_length_eq_add_one hlen
    have hfind := @find?_ofStrings serviceName _ h pre.length paramName (by simp [hnames])
    have hlength : pre.length + 1 = (pre ++ [paramName]).length := by simp
    rw [setParams, hfind]
    by_cases hpercent : piece = ['%']
    · simp only [decodeParam, if_pos hpercent]
      refine ⟨fun _ => ⟨_, _, rfl⟩, fun hnot => absurd ?_ hnot⟩
      rw [hpercent]
      exact List.mem_cons_self
    · simp only [decodeParam, if_neg hpercent, hlength]
      obtain ⟨hthrows, hok⟩ := @ih (pre ++ [paramName]) (by rw [hnames]; simp) pieces
        (values.insert paramName ((values.getD paramName .new).assign clib (decodeLoop piece)
          .PARAM_TYPE_STRING)) (Nat.succ.inj hlen)
      refine ⟨fun hmem => hthrows ?_, fun hnot => ?_⟩
      · exact (List.mem_cons.1 hmem).resolve_left (Ne.symm hpercent)
      · obtain ⟨values', hvalues', hrest, hother⟩ := hok (mt (List.mem_cons_of_mem _) hnot)
        refine ⟨values', hvalues', ?_, fun name hname => ?_⟩
        · have hnew : paramName ∉ rest := by
            rw [hnames] at h
            exact (List.nodup_cons.1 (List.nodup_append.1 h).2.1).1
          rw [List.map_cons, List.map_cons, hrest, stringOf, hother paramName hnew,
            Std.TreeMap.getElem?_insert_self]
          rfl
        · rw [List.mem_cons, not_or] at hname
          rw [hother name hname.2, Std.TreeMap.getElem?_insert,
            if_neg (mt Std.compare_eq_iff_eq.1 (Ne.symm hname.1))]

/-- A call looks for the declared parameters. -/
theorem Declares.serviceParamMap (h : o.Declares serviceName paramNames) :
    o.serviceParamMap serviceName = some (ServiceInfo.ofStrings serviceName paramNames).params := by
  obtain ⟨serviceInfoList, hlist, hfind⟩ := h.declared
  simp only [ControlObject.serviceParamMap, hlist, hfind, Option.map_some]

/-- A call with parameters that cannot be split. -/
theorem call_of_split_eq_none (h : o.Declares serviceName paramNames) {params : Str}
    (hsplit : CmdTarget.split params ',' = none) : call clib o serviceName params = .crash := by
  obtain ⟨values, hvalues⟩ := Option.isSome_iff_exists.1
    (Std.TreeMap.mem_iff_isSome_getElem?.1 h.service)
  simp only [call, hvalues, h.serviceParamMap, hsplit]

/-- What a call does, as the number of pieces and the pieces have it. -/
theorem call_spec (h : o.Declares serviceName paramNames) {params : Str} {pieces : List Str}
    (hsplit : CmdTarget.split params ',' = some pieces) :
    (pieces.length ≠ paramNames.length → call clib o serviceName params = .ok o) ∧
    (pieces.length = paramNames.length →
      (['%'] ∈ pieces → ∃ message o', call clib o serviceName params = .throws message o') ∧
      (['%'] ∉ pieces → ∃ values, call clib o serviceName params = .ok { o with
          services := o.services.insert serviceName values
          executed := o.executed ++ [(serviceName, values)] } ∧
        paramNames.map (stringOf values) = pieces.map (some ∘ decodeLoop))) := by
  obtain ⟨values, hvalues⟩ := Option.isSome_iff_exists.1
    (Std.TreeMap.mem_iff_isSome_getElem?.1 h.service)
  have hsize := (ServiceInfo.ofStrings_spec serviceName h.nodup).2.1
  simp only [call, hvalues, h.serviceParamMap, hsplit, hsize]
  refine ⟨fun hne => if_pos (Ne.symm hne), fun hlen => ?_⟩
  obtain ⟨hthrows, hok⟩ := @setParams_spec clib serviceName paramNames [] paramNames rfl h.nodup
    pieces values hlen
  rw [if_neg (not_not.2 hlen.symm)]
  refine ⟨fun hmem => ?_, fun hnot => ?_⟩
  · obtain ⟨message, values', heq⟩ := hthrows hmem
    simp only [List.length_nil] at heq
    exact ⟨message, _, by rw [heq]⟩
  · obtain ⟨values', heq, hmapped, -⟩ := hok hnot
    simp only [List.length_nil] at heq
    exact ⟨values', by rw [heq], hmapped⟩

/-- A call that returns has executed the service, or done nothing. -/
theorem call_ok {params : Str} (h : call clib o serviceName params = .ok o') :
    o' = o ∨ ∃ values, o' = { o with
      services := o.services.insert serviceName values
      executed := o.executed ++ [(serviceName, values)] } := by
  unfold call at h
  split at h
  · exact Or.inl (Outcome.ok.inj h).symm
  · split at h
    · exact Or.inl (Outcome.ok.inj h).symm
    · split at h
      · cases h
      · split_ifs at h
        · exact Or.inl (Outcome.ok.inj h).symm
        · split at h
          · exact Or.inr ⟨_, (Outcome.ok.inj h).symm⟩
          · cases h
          · cases h

end ControlObject

end Ick
