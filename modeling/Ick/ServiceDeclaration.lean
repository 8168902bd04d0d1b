import Ick.ControlObject
import Ick.Numbering

/-!
# Declarations of services

The parameters of a service are declared one after the other, by `addServiceParam` or by the
`INSERT_PARAM_INFO` of a class of control objects, which keeps one `ServiceInfo` for each service
and a list of all of them. A parameter gets the number of parameters declared before it as its
index, and `call` finds the parameter of a field by the index.

The indices are the positions 0, 1, ... exactly when no name is declared twice
(`positioned_iff_nodup`) : a name that is declared again gets an index past the last field, and
its old one is lost.
-/

namespace Ick

/-- The type of a parameter is one that `setType` knows. -/
def ServiceParamType.IsType (type : Str) : Prop := (ofText type).isSome

instance : DecidablePred ServiceParamType.IsType := fun type =>
  inferInstanceAs (Decidable ((ServiceParamType.ofText type).isSome = true))

/-- The indices of the parameters are the positions of `n` fields, so each field is that of one
parameter. -/
structure Positioned (params : Std.TreeMap Str ServiceParam) (n : ℕ) : Prop where
  indices : (params.toList.map fun p => p.2.paramIndex).Perm (List.range n)
  assigned : ∀ i < n, ∃! paramName : Str, params[paramName]?.map ServiceParam.paramIndex = some i

/-- A parameter that is declared with a type, at any index. -/
def ServiceParam.declared (d : Str × Str) : Str × (ℕ → ServiceParam) :=
  (d.1, fun i => ⟨(ServiceParamType.ofText d.2).getD .PARAM_TYPE_INT, i, d.1⟩)

theorem map_fst_declared (decls : List (Str × Str)) :
    (decls.map ServiceParam.declared).map Prod.fst = decls.map Prod.fst := by
  rw [List.map_map]
  rfl

/-- The parameters of declarations are in their positions if no name is declared twice. -/
theorem dense_declared_iff (decls : List (Str × Str)) :
    Numbering.Dense ServiceParam.paramIndex (Numbering.fill (decls.map ServiceParam.declared)) ↔
      (decls.map Prod.fst).Nodup := by
  rw [Numbering.dense_fill_iff, map_fst_declared]
  intro e he n
  obtain ⟨d, -, rfl⟩ := List.mem_map.1 he
  rfl

theorem positioned_declared_iff (decls : List (Str × Str)) :
    Positioned (Numbering.fill (decls.map ServiceParam.declared))
        (decls.map Prod.fst).toFinset.card ↔
      (decls.map Prod.fst).Nodup := by
  have hsize := Numbering.size_fill (decls.map ServiceParam.declared)
  rw [map_fst_declared] at hsize
  rw [← dense_declared_iff, ← hsize]
  refine ⟨fun h => h.indices, fun h => ⟨h, fun i hi => ?_⟩⟩
  obtain ⟨paramName, p, hp, hindex⟩ := h.exists_of_lt hi
  refine ⟨paramName, by simp [hp, hindex], fun other hother => ?_⟩
  obtain ⟨q, hq, hindex'⟩ := Option.map_eq_some_iff.1 hother
  exact h.unique hq hp (hindex'.trans hindex.symm)

/-! ## Parameters of one service -/

namespace ServiceInfo

/-- The declaration of a service after calls of `addServiceParam`; `none` when one throws. -/
def declare (name : Str) (decls : List (Str × Str)) : Option ServiceInfo :=
  decls.foldlM (fun info d => info.addServiceParam d.1 d.2) ⟨name, ∅⟩

theorem addServiceParam_eq {info : ServiceInfo} {d : Str × Str}
    (h : ServiceParamType.IsType d.2) : info.addServiceParam d.1 d.2 = some { info with
      params := info.params.insert d.1 ((ServiceParam.declared d).2 info.params.size) } := by
  obtain ⟨type, htype⟩ := Option.isSome_iff_exists.1 h
  simp [addServiceParam, ServiceParam.declared, htype]

theorem fill_declared_snoc (decls : List (Str × Str)) (d : Str × Str) :
    Numbering.fill ((decls ++ [d]).map ServiceParam.declared) =
      (Numbering.fill (decls.map ServiceParam.declared)).insert d.1
        ((ServiceParam.declared d).2
          (Numbering.fill (decls.map ServiceParam.declared)).size) := by
  rw [List.map_append, List.map_singleton, Numbering.fill_snoc]
  rfl

/-- The parameters are numbered entries. -/
theorem declare_eq (name : Str) {decls : List (Str × Str)}
    (h : ∀ d ∈ decls, ServiceParamType.IsType d.2) :
    declare name decls = some ⟨name, Numbering.fill (decls.map ServiceParam.declared)⟩ := by
  induction decls using List.reverseRecOn with
  | nil => rfl
  | append_singleton decls d ih =>
    have hdecls := ih fun d hd => h d (List.mem_append_left _ hd)
    rw [declare] at hdecls ⊢
    rw [List.foldlM_append, hdecls, fill_declared_snoc]
    exact congrArg (Option.bind · some) (addServiceParam_eq (h d (by simp)))

end ServiceInfo

/-! ## Services of a class -/

/-- A declaration in a class of control objects : `ADD_SERVICE_INFO` or `ADD_PARAM_INFO`. -/
inductive ServiceDecl
  | service (service : Str)
  | param (service paramId type : Str)

namespace ServiceDecl

/-- The service that is declared. -/
def owner : ServiceDecl → Str
  | .service name => name
  | .param name _ _ => name

/-- The name and the type of a parameter of the service. -/
def param? (serviceName : Str) : ServiceDecl → Option (Str × Str)
  | .service _ => none
  | .param name paramId type => if name = serviceName then some (paramId, type) else none

/-- The type of a parameter is a type. -/
def Valid : ServiceDecl → Prop
  | .service _ => True
  | .param _ _ type => ServiceParamType.IsType type

end ServiceDecl

/-- What is declared in a class of control objects : the `m_info` of each service, and
`m_serviceInfoList`. -/
structure ServiceClass where
  info : Str → ServiceInfo
  serviceInfoList : List ServiceInfo

namespace ServiceClass

/-- A class without declarations. -/
def new : ServiceClass where
  info _ := ⟨[], ∅⟩
  serviceInfoList := []

/-- `INSERT_SERVICE_INFO` -/
def insertServiceInfo (c : ServiceClass) (service : Str) : ServiceClass :=
  if c.serviceInfoList.any (·.name = service) then c
  else
    let info := { c.info service with name := service }
    { info := Function.update c.info service info
      serviceInfoList := c.serviceInfoList ++ [info] }

/-- The loop of `INSERT_PARAM_INFO` : the first declaration of the service is replaced, or one is
added at the end. -/
def putInfo (info : ServiceInfo) (service : Str) : List ServiceInfo → List ServiceInfo
  | [] => [info]
  | it :: v => if it.name = service then info :: v else it :: putInfo info service v

/-- `INSERT_PARAM_INFO`; `none` when it throws. -/
def insertParamInfo (c : ServiceClass) (service param type : Str) : Option ServiceClass :=
  ({ c.info service with name := service }.addServiceParam param type).map fun info =>
    { info := Function.update c.info service info
      serviceInfoList := putInfo info service c.serviceInfoList }

/-- One declaration. -/
def insert (c : ServiceClass) : ServiceDecl → Option ServiceClass
  | .service service => some (c.insertServiceInfo service)
  | .param service paramId type => c.insertParamInfo service paramId type

/-- A class after declarations. -/
def declare (decls : List ServiceDecl) : Option ServiceClass := decls.foldlM insert new

theorem find?_putInfo {info : ServiceInfo} {service : Str} (hname : info.name = service)
    (v : List ServiceInfo) (name : Str) : (putInfo info service v).find? (·.name = name) =
      if name = service then some info else v.find? (·.name = name) := by
  induction v with
  | nil =>
    by_cases h : name = service
    · simp [putInfo, h, hname]
    · simp [putInfo, h, hname, Ne.symm h]
  | cons it v ih =>
    by_cases hit : it.name = service
    · by_cases h : name = service
      · simp [putInfo, hit, h, hname]
      · simp [putInfo, hit, h, hname, Ne.symm h]
    · rw [putInfo, if_neg hit, List.find?_cons, List.find?_cons, ih]
      by_cases h : name = service
      · simp [h, hit]
      · simp [h]

/-- What a class holds of the declarations : the parameters of each service, and, of each service
that is declared, its present declaration in the list. -/
structure Holds (c : ServiceClass) (decls : List ServiceDecl) : Prop where
  params : ∀ service,
    (c.info service).params =
      Numbering.fill ((decls.filterMap (·.param? service)).map ServiceParam.declared)
  listed : ∀ service, c.serviceInfoList.find? (·.name = service) =
    if ∃ d ∈ decls, d.owner = service then some (c.info service) else none
  name : ∀ d ∈ decls, (c.info d.owner).name = d.owner

variable {c : ServiceClass} {decls : List ServiceDecl}

theorem holds_new : Holds new [] := by
  refine ⟨fun _ => rfl, fun service => ?_, fun d hd => absurd hd List.not_mem_nil⟩
  rw [if_neg (by simp)]
  rfl

/-- What is found after one more declaration, by what was found before. -/
theorem listed_snoc {info : ServiceInfo} {d : ServiceDecl} {list : List ServiceInfo}
    (h : c.Holds decls)
    (hlist : ∀ service, list.find? (·.name = service) =
      if service = d.owner then some info else c.serviceInfoList.find? (·.name = service))
    (service : Str) : list.find? (·.name = service) =
      if ∃ d' ∈ decls ++ [d], d'.owner = service then
        some (Function.update c.info d.owner info service) else none := by
  rw [hlist]
  by_cases heq : service = d.owner
  · rw [if_pos heq, heq, Function.update_self, if_pos ⟨d, by simp, rfl⟩]
  · rw [if_neg heq, Function.update_of_ne heq, h.listed]
    simp [or_and_right, exists_or, Ne.symm heq]

theorem name_snoc {info : ServiceInfo} {d : ServiceDecl} (h : c.Holds decls)
    (hname : info.name = d.owner) {d' : ServiceDecl} (hd' : d' ∈ decls ++ [d]) :
    (Function.update c.info d.owner info d'.owner).name = d'.owner := by
  by_cases heq : d'.owner = d.owner
  · rw [heq, Function.update_self, hname]
  · rw [Function.update_of_ne heq]
    rcases List.mem_append.1 hd' with hd' | hd'
    · exact h.name d' hd'
    · exact absurd (congrArg ServiceDecl.owner (List.mem_singleton.1 hd')) heq

/-- A service is in the list if it has been declared. -/
theorem any_serviceInfoList_iff (h : c.Holds decls) (service : Str) :
    c.serviceInfoList.any (·.name = service) = true ↔ ∃ d ∈ decls, d.owner = service := by
  have hfound := h.listed service
  constructor
  · intro hany
    by_contra hnot
    rw [if_neg hnot, List.find?_eq_none] at hfound
    obtain ⟨it, hit, hname⟩ := List.any_eq_true.1 hany
    exact hfound it hit hname
  · intro hdeclared
    rw [if_pos hdeclared] at hfound
    have hname := List.find?_some hfound
    exact List.any_eq_true.2 ⟨_, List.mem_of_find?_eq_some hfound, hname⟩

theorem filterMap_param_service (decls : List ServiceDecl) (service name : Str) :
    (decls ++ [ServiceDecl.service service]).filterMap (·.param? name) =
      decls.filterMap (·.param? name) := by
  simp [ServiceDecl.param?]

/-- A service that has been declared is not put into the list again. -/
theorem Holds.again (h : c.Holds decls) {service : Str}
    (hdeclared : ∃ d ∈ decls, d.owner = service) : c.Holds (decls ++ [.service service]) := by
  have hiff : ∀ name, (∃ d ∈ decls ++ [.service service], d.owner = name) ↔
      ∃ d ∈ decls, d.owner = name := by
    intro name
    constructor
    · rintro ⟨d, hd, rfl⟩
      rcases List.mem_append.1 hd with hd | hd
      · exact ⟨d, hd, rfl⟩
      · rw [List.mem_singleton.1 hd]
        exact hdeclared
    · rintro ⟨d, hd, rfl⟩
      exact ⟨d, List.mem_append_left _ hd, rfl⟩
  refine ⟨fun name => ?_, fun name => ?_, fun d hd => ?_⟩
  · rw [filterMap_param_service, h.params]
  · rw [h.listed]
    simp only [hiff]
  · obtain ⟨d', hd', howner⟩ := (hiff d.owner).1 ⟨d, hd, rfl⟩
    exact howner ▸ h.name d' hd'

theorem holds_insertServiceInfo (h : c.Holds decls) (service : Str) :
    (c.insertServiceInfo service).Holds (decls ++ [.service service]) := by
  unfold insertServiceInfo
  split_ifs with hany
  · exact h.again ((any_serviceInfoList_iff h service).1 hany)
  · have hnone : c.serviceInfoList.find? (·.name = service) = none := by
      rw [h.listed, if_neg (mt (any_serviceInfoList_iff h service).2 hany)]
    refine ⟨fun name => ?_, ?_, fun d hd => name_snoc h rfl hd⟩
    · rw [filterMap_param_service, ← h.params]
      by_cases heq : name = service
      · simp [heq]
      · dsimp only
        rw [Function.update_of_ne heq]
    · refine listed_snoc h fun name => ?_
      rw [List.find?_append]
      by_cases heq : name = service
      · simp [heq, hnone, ServiceDecl.owner]
      · simp [Ne.symm heq, ServiceDecl.owner, heq]

theorem holds_insertParamInfo (h : c.Holds decls) {service paramId type : Str}
    (htype : ServiceParamType.IsType type) :
    ∃ c', c.insertParamInfo service paramId type = some c' ∧
      c'.Holds (decls ++ [.param service paramId type]) := by
  have hadd := @ServiceInfo.addServiceParam_eq { c.info service with name := service }
    (paramId, type) htype
  unfold insertParamInfo
  rw [hadd, Option.map_some]
  refine ⟨_, rfl, fun name => ?_, ?_, fun d hd => name_snoc h rfl hd⟩
  · by_cases heq : name = service
    · subst heq
      have hsnoc : (decls ++ [ServiceDecl.param name paramId type]).filterMap (·.param? name) =
          decls.filterMap (·.param? name) ++ [(paramId, type)] := by
        simp [ServiceDecl.param?]
      dsimp only
      rw [Function.update_self, hsnoc, ServiceInfo.fill_declared_snoc, ← h.params]
    · have hsnoc : (decls ++ [ServiceDecl.param service paramId type]).filterMap (·.param? name) =
          decls.filterMap (·.param? name) := by
        simp [ServiceDecl.param?, Ne.symm heq]
      dsimp only
      rw [Function.update_of_ne heq, hsnoc, h.params]
  · exact listed_snoc h fun name => find?_putInfo rfl _ name

/-- Declarations with types do not throw. -/
theorem holds_declare (h : ∀ d ∈ decls, d.Valid) :
    ∃ c, declare decls = some c ∧ c.Holds decls := by
  induction decls using List.reverseRecOn with
  | nil => exact ⟨new, rfl, holds_new⟩
  | append_singleton decls d ih =>
    obtain ⟨c, hc, hholds⟩ := ih fun d hd => h d (List.mem_append_left _ hd)
    have hlast : ∃ c', c.insert d = some c' ∧ c'.Holds (decls ++ [d]) := by
      cases hd : d with
      | service service => exact ⟨_, rfl, holds_insertServiceInfo hholds service⟩
      | param service paramId type =>
        exact holds_insertParamInfo hholds (by simpa [hd, ServiceDecl.Valid] using h d (by simp))
    obtain ⟨c', hinsert, hholds'⟩ := hlast
    refine ⟨c', ?_, hholds'⟩
    rw [declare] at hc ⊢
    rw [List.foldlM_append, hc]
    exact congrArg (Option.bind · some) hinsert

end ServiceClass

/-- The parameters that a call of an object of the class uses. -/
theorem ServiceClass.Holds.params_of_serviceParamMap {c : ServiceClass}
    {decls : List ServiceDecl} (h : c.Holds decls) {o : ControlObject}
    (ho : o.serviceMap[o.className]? = some c.serviceInfoList) {service : Str}
    {params : Std.TreeMap Str ServiceParam} (hparams : o.serviceParamMap service = some params) :
    params = Numbering.fill ((decls.filterMap (·.param? service)).map ServiceParam.declared) := by
  simp only [ControlObject.serviceParamMap, ho, h.listed] at hparams
  split_ifs at hparams
  · rw [← h.params]
    exact (Option.some.inj hparams).symm
  · cases hparams

/-! ## Positions -/

/-- Declared parameters are in their positions exactly when no name is declared twice : those of
a service, and those of each service of a class that a call of an object looks for. -/
theorem positioned_iff_nodup (name : Str) {decls : List (Str × Str)} {classDecls : List ServiceDecl}
    (htypes : ∀ d ∈ decls, ServiceParamType.IsType d.2) (hvalid : ∀ d ∈ classDecls, d.Valid) :
    (∃ info, ServiceInfo.declare name decls = some info ∧
      (Positioned info.params (decls.map Prod.fst).toFinset.card ↔ (decls.map Prod.fst).Nodup)) ∧
    ∃ c, ServiceClass.declare classDecls = some c ∧
      ∀ (o : ControlObject) (service : Str) (params : Std.TreeMap Str ServiceParam),
        o.serviceMap[o.className]? = some c.serviceInfoList →
        o.serviceParamMap service = some params →
        (Positioned params ((classDecls.filterMap (·.param? service)).map Prod.fst).toFinset.card ↔
          ((classDecls.filterMap (·.param? service)).map Prod.fst).Nodup) := by
  obtain ⟨c, hc, hholds⟩ := ServiceClass.holds_declare hvalid
  refine ⟨⟨_, ServiceInfo.declare_eq name htypes, positioned_declared_iff decls⟩, c, hc, ?_⟩
  intro o service params ho hparams
  rw [hholds.params_of_serviceParamMap ho hparams]
  exact positioned_declared_iff _

/-- A service with an integer and a double, declared for itself and in a class. -/
theorem positioned_xy :
    (∃ info, ServiceInfo.declare "s".toList
        [("x".toList, "I".toList), ("y".toList, "double".toList)] = some info ∧
      Positioned info.params 2) ∧
    ∃ (o : ControlObject) (params : Std.TreeMap Str ServiceParam),
      o.serviceParamMap "s".toList = some params ∧ Positioned params 2 := by
  have hvalid : ∀ d ∈ [ServiceDecl.service "s".toList, .param "s".toList "x".toList "I".toList,
      .param "s".toList "y".toList "double".toList], d.Valid := by
    simp only [List.forall_mem_cons, List.not_mem_nil, false_imp_iff, implies_true, and_true,
      ServiceDecl.Valid, true_and]
    decide
  obtain ⟨⟨info, hinfo, hiff⟩, c, hc, h⟩ := @positioned_iff_nodup "s".toList
    [("x".toList, "I".toList), ("y".toList, "double".toList)] _ (by decide) hvalid
  refine ⟨⟨info, hinfo, hiff.2 (by decide)⟩, ?_⟩
  obtain ⟨c', hc', hholds⟩ := ServiceClass.holds_declare hvalid
  obtain rfl := Option.some.inj (hc.symm.trans hc')
  let o : ControlObject := ⟨"C".toList, Std.TreeMap.insert ∅ "C".toList c.serviceInfoList, ∅, []⟩
  have ho : o.serviceMap[o.className]? = some c.serviceInfoList := Std.TreeMap.getElem?_insert_self
  have hparams : o.serviceParamMap "s".toList = some (c.info "s".toList).params := by
    have hlisted := hholds.listed "s".toList
    rw [if_pos ⟨_, List.mem_cons_self, rfl⟩] at hlisted
    simp only [ControlObject.serviceParamMap, ho, hlisted, Option.map_some]
  exact ⟨o, _, hparams, (h o _ _ ho hparams).2 (by decide)⟩

/-- A parameter that is declared again, after another one. -/
theorem not_positioned_redeclared :
    ¬∀ (name : Str) (decls : List (Str × Str)), (∀ d ∈ decls, ServiceParamType.IsType d.2) →
      ∃ info, ServiceInfo.declare name decls = some info ∧
        Positioned info.params (decls.map Prod.fst).toFinset.card := by
  intro h
  have hvalid : ∀ d ∈ [("a".toList, "I".toList), ("b".toList, "I".toList),
      ("a".toList, "I".toList)], ServiceParamType.IsType d.2 := by decide
  obtain ⟨info, hinfo, hpositioned⟩ := h "s".toList _ hvalid
  obtain rfl := Option.some.inj ((ServiceInfo.declare_eq _ hvalid).symm.trans hinfo)
  exact absurd ((positioned_declared_iff _).1 hpositioned) (by decide)

end Ick
