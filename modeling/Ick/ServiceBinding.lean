import Ick.ServiceDeclaration

/-!
# Binding of parameters

`call` should bind the fields of its text all or nothing : it sets every declared parameter and
executes the service once, or it leaves the values as they are and does not execute. The fields
are decoded and stored one after the other (`setParams_append`), and `decodeParam` throws on the
field `"%"`, when the fields before it have been stored. So a call keeps the law exactly when these
fields leave their parameters as they were (`allOrNothing_iff`).
-/

namespace Ick

/-- The parameters of a service as they have been declared, with their positions as indices. -/
structure DeclaredDensely (params : Std.TreeMap Str ServiceParam) : Prop where
  declared : ∃ name decls info, ServiceInfo.declare name decls = some info ∧ info.params = params
  positioned : Positioned params params.size

/-- A parameter is declared under its name. -/
theorem paramName_of_declare {name : Str} {decls : List (Str × Str)} {info : ServiceInfo}
    (h : ServiceInfo.declare name decls = some info) {paramName : Str} {p : ServiceParam}
    (hp : info.params[paramName]? = some p) : p.paramName = paramName := by
  induction decls using List.reverseRecOn generalizing info with
  | nil =>
    obtain rfl := Option.some.inj h
    simp at hp
  | append_singleton decls d ih =>
    rw [ServiceInfo.declare, List.foldlM_append] at h
    obtain ⟨before, hbefore, hlast⟩ := Option.bind_eq_some_iff.1 h
    obtain ⟨_, hadd, heq⟩ := Option.bind_eq_some_iff.1 hlast
    obtain rfl := Option.some.inj heq
    obtain ⟨type, -, rfl⟩ := Option.map_eq_some_iff.1 hadd
    rw [Std.TreeMap.getElem?_insert] at hp
    split_ifs at hp with hname
    · obtain rfl := Option.some.inj hp
      exact Std.compare_eq_iff_eq.1 hname
    · exact ih hbefore hp

namespace DeclaredDensely

variable {params : Std.TreeMap Str ServiceParam} (h : DeclaredDensely params)

include h

theorem dense : Numbering.Dense ServiceParam.paramIndex params := h.positioned.indices

/-- The search of `call` for the parameter of a field. -/
theorem find?_index {i : ℕ} (hi : i < params.size) : ∃ (paramName : Str) (p : ServiceParam),
    params.toList.find? (·.2.paramIndex = i) = some (paramName, p) ∧
      params[paramName]? = some p ∧ p.paramIndex = i ∧ p.paramName = paramName := by
  obtain ⟨paramName, p, hp, hindex⟩ := h.dense.exists_of_lt hi
  obtain ⟨name, decls, info, hdeclare, rfl⟩ := h.declared
  refine ⟨paramName, p, ?_, hp, hindex, paramName_of_declare hdeclare hp⟩
  refine ControlObject.find?_eq_some_of_unique
    (Std.TreeMap.mem_toList_iff_getElem?_eq_some.2 hp) (decide_eq_true hindex) ?_
  rintro ⟨other, q⟩ hq hindex'
  have hq' := Std.TreeMap.mem_toList_iff_getElem?_eq_some.1 hq
  obtain rfl := h.dense.unique hq' hp ((of_decide_eq_true hindex').trans hindex.symm)
  rw [hp, Option.some.injEq] at hq'
  rw [hq']

end DeclaredDensely

namespace ControlObject

/-! ## The loop over the fields -/

/-- The value of a parameter after fields, of which none is `"%"`, were stored. -/
def boundValue (clib : CLib) (params : Std.TreeMap Str ServiceParam) (fields : List Str)
    (values : Std.TreeMap Str ParamValue) (paramName : Str) : ParamValue :=
  match params[paramName]? with
  | none => values.getD paramName .new
  | some p =>
    match fields[p.paramIndex]? with
    | none => values.getD paramName .new
    | some field => (values.getD paramName .new).assign clib (decodeLoop field) p.type

variable {clib : CLib} {declared : Std.TreeMap Str ServiceParam}
  {values : Std.TreeMap Str ParamValue}

theorem boundValue_nil (paramName : Str) :
    boundValue clib declared [] values paramName = values.getD paramName .new := by
  unfold boundValue
  cases declared[paramName]? <;> rfl

/-- One more field is the value of the parameter with its index. -/
theorem boundValue_snoc_self {fields : List Str} {field paramName : Str} {p : ServiceParam}
    (hp : declared[paramName]? = some p) (hindex : p.paramIndex = fields.length) :
    boundValue clib declared (fields ++ [field]) values paramName =
      (boundValue clib declared fields values paramName).assign clib (decodeLoop field) p.type := by
  simp [boundValue, hp, hindex]

theorem boundValue_snoc_of_ne {fields : List Str} {field paramName : Str}
    (h : ∀ p, declared[paramName]? = some p → p.paramIndex ≠ fields.length) :
    boundValue clib declared (fields ++ [field]) values paramName =
      boundValue clib declared fields values paramName := by
  unfold boundValue
  cases hp : declared[paramName]? with
  | none => rfl
  | some p =>
    have hget : (fields ++ [field])[p.paramIndex]? = fields[p.paramIndex]? := by
      rcases Nat.lt_or_gt_of_ne (h p hp) with hlt | hgt
      · rw [List.getElem?_append_left hlt]
      · rw [List.getElem?_eq_none hgt.le, List.getElem?_eq_none]
        rwa [List.length_append, List.length_singleton]
    dsimp only
    rw [hget]

/-- The loop stores the fields up to the first one that cannot be decoded. -/
theorem setParams_append (h : DeclaredDensely declared) {fields : List Str} (hnot : ['%'] ∉ fields)
    (hlen : fields.length ≤ declared.size) : ∃ values',
      (∀ rest, setParams clib declared 0 (fields ++ rest) values =
        setParams clib declared fields.length rest values') ∧
      ∀ paramName,
        values'.getD paramName .new = boundValue clib declared fields values paramName := by
  induction fields using List.reverseRecOn with
  | nil => exact ⟨values, fun _ => rfl, fun paramName => (boundValue_nil paramName).symm⟩
  | append_singleton fields field ih =>
    rw [List.mem_append, not_or, List.mem_singleton] at hnot
    rw [List.length_append, List.length_singleton] at hlen
    obtain ⟨values', hrun, hvalues'⟩ := ih hnot.1 (by omega)
    obtain ⟨paramName, p, hfind, hp, hindex, hname⟩ := h.find?_index hlen
    refine ⟨values'.insert paramName ((values'.getD paramName .new).assign clib
      (decodeLoop field) p.type), fun rest => ?_, fun name => ?_⟩
    · rw [List.append_assoc, hrun, List.singleton_append, setParams, hfind]
      simp only [decodeParam, if_neg (Ne.symm hnot.2), hname, List.length_append,
        List.length_singleton]
    · rw [Std.TreeMap.getD_insert]
      by_cases heq : paramName = name
      · subst heq
        rw [if_pos Std.ReflCmp.compare_self, hvalues', boundValue_snoc_self hp hindex]
      · rw [if_neg (mt Std.compare_eq_iff_eq.1 heq), hvalues', boundValue_snoc_of_ne]
        exact fun q hq hindex' => heq (h.dense.unique hp hq (hindex.trans hindex'.symm))

/-! ## All or nothing -/

/-- The value of a parameter of a service. One that has not been set is as it is made. -/
def paramValue (o : ControlObject) (serviceName paramName : Str) : Option ParamValue :=
  o.services[serviceName]?.map (·.getD paramName .new)

/-- All values are as they were, and nothing has been executed. -/
structure Untouched (o o' : ControlObject) : Prop where
  paramValue : ∀ serviceName paramName,
    o'.paramValue serviceName paramName = o.paramValue serviceName paramName
  executed : o'.executed = o.executed

/-- Every declared parameter is set to the field at its index, and the service has been executed
once, with these values. -/
structure Bound (clib : CLib) (o : ControlObject) (serviceName params : Str) (o' : ControlObject) :
    Prop where
  executed : ∃ values, o'.services[serviceName]? = some values ∧
    o'.executed = o.executed ++ [(serviceName, values)]
  paramValue : ∃ declared fields, o.serviceParamMap serviceName = some declared ∧
    CmdTarget.split params ',' = some fields ∧ fields.length = declared.size ∧
    ∀ (paramName : Str) (p : ServiceParam), declared[paramName]? = some p →
      ∃ field value, fields[p.paramIndex]? = some field ∧ decodeParam field = some value ∧
        o'.paramValue serviceName paramName =
          (o.paramValue serviceName paramName).map (·.assign clib value p.type)

/-- What a call should do. -/
def AllOrNothing (clib : CLib) (o : ControlObject) (serviceName params : Str) : Prop :=
  match o.call clib serviceName params with
  | .ok o' => o.Untouched o' ∨ o.Bound clib serviceName params o'
  | .throws _ o' => o.Untouched o'
  | .crash => False

/-- The fields before the first one that is `"%"` leave their parameters as they are. -/
def FirstsKept (clib : CLib) (declared : Std.TreeMap Str ServiceParam) (fields : List Str)
    (values : Std.TreeMap Str ParamValue) : Prop :=
  ∀ firsts rest, fields = firsts ++ ['%'] :: rest → ['%'] ∉ firsts →
    ∀ (paramName : Str) (p : ServiceParam) (field : Str), declared[paramName]? = some p →
      firsts[p.paramIndex]? = some field →
      (values.getD paramName .new).assign clib (decodeLoop field) p.type =
        values.getD paramName .new

/-- If the service is one of the object's, and declared, then the text can be split, and where
there are as many fields as parameters, the ones before `"%"` change nothing. -/
def BindsSafely (clib : CLib) (o : ControlObject) (serviceName params : Str) : Prop :=
  ∀ values declared, o.services[serviceName]? = some values →
    o.serviceParamMap serviceName = some declared →
    (params = [] ∨ ∃ c ∈ params, c ≠ ' ') ∧
    ∀ fields, CmdTarget.split params ',' = some fields → fields.length = declared.size →
      FirstsKept clib declared fields values

theorem untouched_refl (o : ControlObject) : o.Untouched o := ⟨fun _ _ => rfl, rfl⟩

/-- The values of the one service decide. -/
theorem untouched_insert_iff {o : ControlObject} {serviceName : Str}
    (hservice : o.services[serviceName]? = some values) (values' : Std.TreeMap Str ParamValue) :
    o.Untouched { o with services := o.services.insert serviceName values' } ↔
      ∀ paramName, values'.getD paramName .new = values.getD paramName .new := by
  constructor
  · intro h paramName
    have hvalue := h.paramValue serviceName paramName
    simp only [ControlObject.paramValue, Std.TreeMap.getElem?_insert_self, hservice] at hvalue
    exact Option.some.inj hvalue
  · refine fun h => ⟨fun name paramName => ?_, rfl⟩
    simp only [ControlObject.paramValue, Std.TreeMap.getElem?_insert]
    split_ifs with heq
    · rw [← Std.compare_eq_iff_eq.1 heq, hservice, Option.map_some, Option.map_some, h]
    · rfl

/-- The fields leave all values as they are if each leaves that of its parameter. -/
theorem boundValue_eq_iff {fields : List Str} :
    (∀ paramName, boundValue clib declared fields values paramName =
      values.getD paramName .new) ↔
    ∀ (paramName : Str) (p : ServiceParam) (field : Str), declared[paramName]? = some p →
      fields[p.paramIndex]? = some field →
      (values.getD paramName .new).assign clib (decodeLoop field) p.type =
        values.getD paramName .new := by
  refine forall_congr' fun paramName => ?_
  unfold boundValue
  cases declared[paramName]? with
  | none => simp
  | some p =>
    constructor
    · intro h q field hq hfield
      obtain rfl := Option.some.inj hq
      simpa only [hfield] using h
    · intro h
      cases hfield : fields[p.paramIndex]? with
      | none => simp only [hfield]
      | some field => simpa only [hfield] using h p field rfl hfield

variable {o : ControlObject} {serviceName params : Str} {fields : List Str}

/-- A call with as many fields as parameters, of which none is `"%"`. -/
theorem bound_of_decodes (h : DeclaredDensely declared)
    (hservice : o.services[serviceName]? = some values)
    (hdeclared : o.serviceParamMap serviceName = some declared)
    (hsplit : CmdTarget.split params ',' = some fields) (hlen : fields.length = declared.size)
    (hnot : ['%'] ∉ fields) :
    ∃ o', o.call clib serviceName params = .ok o' ∧ o.Bound clib serviceName params o' := by
  obtain ⟨values', hrun, hvalues'⟩ := @setParams_append clib declared values h fields hnot hlen.le
  have hrun' := hrun []
  rw [List.append_nil, setParams] at hrun'
  refine ⟨{ o with
    services := o.services.insert serviceName values'
    executed := o.executed ++ [(serviceName, values')] }, ?_, ?_⟩
  · simp only [call, hservice, hdeclared, hsplit, hlen, ne_eq, not_true_eq_false, if_false, hrun']
  · refine ⟨⟨values', Std.TreeMap.getElem?_insert_self, rfl⟩,
      declared, fields, hdeclared, hsplit, hlen, fun paramName p hp => ?_⟩
    have hlt : p.paramIndex < fields.length := hlen ▸ h.dense.lt_size hp
    have hfield := List.getElem?_eq_getElem hlt
    have hplain : fields[p.paramIndex] ≠ ['%'] := fun heq => hnot (heq ▸ List.getElem_mem hlt)
    refine ⟨_, _, hfield, if_neg hplain, ?_⟩
    simp [paramValue, hservice, hvalues', boundValue, hp, hfield]

/-- A call with as many fields as parameters, of which one is `"%"`. -/
theorem call_percent (h : DeclaredDensely declared)
    (hservice : o.services[serviceName]? = some values)
    (hdeclared : o.serviceParamMap serviceName = some declared) {firsts rest : List Str}
    (hsplit : CmdTarget.split params ',' = some (firsts ++ ['%'] :: rest))
    (hlen : (firsts ++ ['%'] :: rest).length = declared.size) (hnot : ['%'] ∉ firsts) :
    ∃ values', o.call clib serviceName params =
        .throws outOfRange { o with services := o.services.insert serviceName values' } ∧
      ∀ paramName, values'.getD paramName .new =
        boundValue clib declared firsts values paramName := by
  have hlt : firsts.length < declared.size := by
    rw [← hlen, List.length_append, List.length_cons]
    omega
  obtain ⟨values', hrun, hvalues'⟩ := @setParams_append clib declared values h firsts hnot hlt.le
  obtain ⟨paramName, p, hfind, -⟩ := h.find?_index hlt
  refine ⟨values', ?_, hvalues'⟩
  simp only [call, hservice, hdeclared, hsplit, hlen, ne_eq, not_true_eq_false, if_false, hrun,
    setParams, hfind, decodeParam, if_true]

/-- A call of a service that the object does not have, or that is not declared. -/
theorem call_of_undeclared (h : o.services[serviceName]? = none ∨
    o.serviceParamMap serviceName = none) : o.call clib serviceName params = .ok o := by
  cases hservice : o.services[serviceName]? with
  | none => simp only [call, hservice]
  | some values => simp only [call, hservice, h.resolve_left (by simp [hservice])]

/-- A text that can be split. -/
theorem split_isSome_iff : (∃ fields, CmdTarget.split params ',' = some fields) ↔
    params = [] ∨ ∃ c ∈ params, c ≠ ' ' := by
  rw [← Option.ne_none_iff_exists', ne_eq, CmdTarget.split_eq_none_iff (by decide)]
  simp only [not_and_or, not_not, not_forall, exists_prop]

/-- A call that comes to the fields. -/
theorem allOrNothing_of_fields (h : DeclaredDensely declared)
    (hservice : o.services[serviceName]? = some values)
    (hdeclared : o.serviceParamMap serviceName = some declared)
    (hsplit : CmdTarget.split params ',' = some fields) :
    AllOrNothing clib o serviceName params ↔
      (fields.length = declared.size → FirstsKept clib declared fields values) := by
  by_cases hlen : fields.length = declared.size
  · rw [imp_iff_right hlen]
    by_cases hpercent : ['%'] ∈ fields
    · constructor
      · intro hcall firsts rest hfields hnot
        subst hfields
        obtain ⟨values', hthrows, hvalues'⟩ :=
          @call_percent clib _ _ _ _ _ h hservice hdeclared _ _ hsplit hlen hnot
        rw [AllOrNothing, hthrows] at hcall
        refine boundValue_eq_iff.1 fun paramName => ?_
        rw [← hvalues', (untouched_insert_iff hservice values').1 hcall]
      · intro hkept
        obtain ⟨firsts, rest, hfields, hnot⟩ := List.eq_append_cons_of_mem hpercent
        subst hfields
        obtain ⟨values', hthrows, hvalues'⟩ :=
          @call_percent clib _ _ _ _ _ h hservice hdeclared _ _ hsplit hlen hnot
        rw [AllOrNothing, hthrows]
        refine (untouched_insert_iff hservice values').2 fun paramName => ?_
        rw [hvalues', boundValue_eq_iff.2 (hkept firsts rest rfl hnot)]
    · obtain ⟨o', hcall, hbound⟩ :=
        @bound_of_decodes clib _ _ _ _ _ _ h hservice hdeclared hsplit hlen hpercent
      refine iff_of_true ?_ fun firsts rest hfields _ => absurd ?_ hpercent
      · rw [AllOrNothing, hcall]
        exact Or.inr hbound
      · rw [hfields]
        exact List.mem_append_right _ List.mem_cons_self
  · have hcall : o.call clib serviceName params = .ok o := by
      simp only [call, hservice, hdeclared, hsplit, ne_eq, Ne.symm hlen, not_false_eq_true, if_true]
    refine iff_of_true ?_ fun hlen' => absurd hlen' hlen
    rw [AllOrNothing, hcall]
    exact Or.inl (untouched_refl o)

/-- A call binds all or nothing exactly when the text can be split, or need not be, and no field
was stored with another value when one cannot be decoded. -/
theorem allOrNothing_iff (hdense : ∀ declared, o.serviceParamMap serviceName = some declared →
    DeclaredDensely declared) :
    AllOrNothing clib o serviceName params ↔ BindsSafely clib o serviceName params := by
  by_cases hfound : o.services[serviceName]? = none ∨ o.serviceParamMap serviceName = none
  · refine iff_of_true ?_ fun values declared hservice hdeclared => ?_
    · rw [AllOrNothing, call_of_undeclared hfound]
      exact Or.inl (untouched_refl o)
    · rcases hfound with hnone | hnone
      · exact absurd (hnone.symm.trans hservice) nofun
      · exact absurd (hnone.symm.trans hdeclared) nofun
  · rw [not_or, ← ne_eq, ← ne_eq, Option.ne_none_iff_exists', Option.ne_none_iff_exists'] at hfound
    obtain ⟨⟨values, hservice⟩, declared, hdeclared⟩ := hfound
    constructor
    · intro hcall values' declared' hservice' hdeclared'
      obtain rfl := Option.some.inj (hservice.symm.trans hservice')
      obtain rfl := Option.some.inj (hdeclared.symm.trans hdeclared')
      refine ⟨split_isSome_iff.1 (Option.ne_none_iff_exists'.1 fun hsplit => ?_), ?_⟩
      · have hcrash : o.call clib serviceName params = .crash := by
          simp only [call, hservice, hdeclared, hsplit]
        rwa [AllOrNothing, hcrash] at hcall
      · exact fun fields hsplit =>
          (allOrNothing_of_fields (hdense _ hdeclared) hservice hdeclared hsplit).1 hcall
    · intro hsafe
      obtain ⟨htext, hfields⟩ := hsafe values declared hservice hdeclared
      obtain ⟨fields, hsplit⟩ := split_isSome_iff.2 htext
      exact (allOrNothing_of_fields (hdense _ hdeclared) hservice hdeclared hsplit).2
        (hfields fields hsplit)

end ControlObject

/-! ## A service with two parameters -/

theorem declaredDensely_declared {decls : List (Str × Str)}
    (htypes : ∀ d ∈ decls, ServiceParamType.IsType d.2) (hnodup : (decls.map Prod.fst).Nodup) :
    DeclaredDensely (Numbering.fill (decls.map ServiceParam.declared)) := by
  refine ⟨⟨[], decls, _, ServiceInfo.declare_eq [] htypes, rfl⟩, ?_⟩
  rw [Numbering.size_fill, map_fst_declared]
  exact (positioned_declared_iff decls).2 hnodup

/-- A string `x` and an integer `y`. -/
def params_xy : Std.TreeMap Str ServiceParam :=
  Numbering.fill ([("x".toList, "S".toList), ("y".toList, "I".toList)].map ServiceParam.declared)

/-- An object whose service `b` has these parameters. -/
def object_xy : ControlObject where
  className := "C".toList
  serviceMap := Std.TreeMap.insert ∅ "C".toList [⟨"b".toList, params_xy⟩]
  services := Std.TreeMap.insert ∅ "b".toList ∅
  executed := []

theorem serviceParamMap_xy : object_xy.serviceParamMap "b".toList = some params_xy := by
  have hlist : object_xy.serviceMap[object_xy.className]? =
      some [(⟨"b".toList, params_xy⟩ : ServiceInfo)] := Std.TreeMap.getElem?_insert_self
  simp [ControlObject.serviceParamMap, hlist]

theorem services_xy : object_xy.services["b".toList]? = some ∅ :=
  Std.TreeMap.getElem?_insert_self

theorem declaredDensely_xy : DeclaredDensely params_xy :=
  declaredDensely_declared (by decide) (by decide)

theorem allOrNothing_xy :
    ControlObject.AllOrNothing Update.clib_zero object_xy "b".toList "u,7".toList := by
  refine (ControlObject.allOrNothing_iff fun declared hdeclared => ?_).2 ?_
  · rw [← Option.some.inj (serviceParamMap_xy.symm.trans hdeclared)]
    exact declaredDensely_xy
  · refine fun values declared _ _ => ⟨Or.inr ⟨'u', by decide⟩, fun fields hsplit _ => ?_⟩
    obtain rfl : ["u".toList, "7".toList] = fields :=
      Option.some.inj (hsplit ▸ (by decide : _ = CmdTarget.split "u,7".toList ','))
    intro firsts rest hfields
    have hmem : ['%'] ∈ ["u".toList, "7".toList] := hfields ▸ List.mem_append_right _ (by simp)
    exact absurd hmem (by decide)

/-- The second field cannot be decoded when the first one has been stored. -/
theorem not_allOrNothing_percent : ¬∀ clib o serviceName params,
    (∀ declared, o.serviceParamMap serviceName = some declared → DeclaredDensely declared) →
    ControlObject.AllOrNothing clib o serviceName params := by
  intro h
  have hsplit : CmdTarget.split "u,%".toList ',' = some (["u".toList] ++ ['%'] :: []) := by decide
  have hcall := h Update.clib_zero object_xy "b".toList "u,%".toList fun declared hdeclared => by
    rw [← Option.some.inj (serviceParamMap_xy.symm.trans hdeclared)]
    exact declaredDensely_xy
  have hkept := (ControlObject.allOrNothing_of_fields declaredDensely_xy services_xy
    serviceParamMap_xy hsplit).1 hcall (by decide)
  have hx : params_xy["x".toList]? = some ⟨.PARAM_TYPE_STRING, 0, "x".toList⟩ := by rfl
  have hvalue := congrArg ParamValue.stringValue
    (hkept _ _ rfl (by decide) "x".toList _ "u".toList hx rfl)
  revert hvalue
  decide

end Ick
