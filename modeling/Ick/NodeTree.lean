import Ick.Delimited
import Ick.ObjectManager

/-!
# The tree of channel names

`registerObject(UntypedData*, std::string)` files every part of a channel's name under the path
before it, in `m_dataNodeNames`, and `getChannelNodeList` lists what is filed under a path.
Clients subscribe to whole folders with these lists.

For names that are made of components, as `XmlParser::LoadIO` makes them from the names of
elements, the lists are right after any sequence of registrations
(`getChannelNodeList_of_run`) : below a path stand the components that follow it in the
registered names, in order and each once. The invariant is `Filed`, and `addNodeNames_spec` says
what one registration adds.
-/

namespace Ick

/-- A component of a channel's name. -/
structure IsComponent (c : Str) : Prop where
  ne_nil : c ≠ []
  noSlash : '/' ∉ c
  head : c.head? ≠ some ' '
  last : c.getLast? ≠ some ' '

/-- The components of a channel's name. -/
structure IsPath (cs : List Str) : Prop where
  ne_nil : cs ≠ []
  components : ∀ c ∈ cs, IsComponent c

/-- The name with these components. -/
def pathName (cs : List Str) : Str := cs.flatMap ('/' :: ·)

/-- The path of a folder. -/
def folderName (ds : List Str) : Str := '/' :: ds.flatMap (· ++ ['/'])

namespace ObjectManager

/-- The name is listed below the path. -/
def Child (nodes : Std.TreeMap Str NodeName) (path e : Str) : Prop :=
  ∃ node, nodes[path]? = some node ∧ e ∈ node

theorem mem_getChannelNodeList {m : ObjectManager} {path e : Str} :
    e ∈ m.getChannelNodeList path ↔ Child m.dataNodeNames path e := by
  unfold getChannelNodeList Child
  cases m.dataNodeNames[path]? with
  | none => simp
  | some node => simp [NodeName.getNodeList, Std.TreeMap.mem_keys]

/-- A list of names is in order, and has no name twice. -/
theorem pairwise_getChannelNodeList (m : ObjectManager) (path : Str) :
    (m.getChannelNodeList path).Pairwise fun a b => compare a b = .lt := by
  unfold getChannelNodeList
  cases m.dataNodeNames[path]? with
  | none => exact List.Pairwise.nil
  | some node => exact Std.TreeMap.ordered_keys

theorem mem_addNodeName (node : NodeName) (name e : Str) :
    e ∈ node.addNodeName name ↔ e = name ∨ e ∈ node := by
  rw [NodeName.addNodeName, Std.TreeMap.mem_insertIfNew, Std.compare_eq_iff_eq, eq_comm]

/-- One turn of the loop files one name. -/
theorem child_insert (nodes : Std.TreeMap Str NodeName) (nodeName name path e : Str) :
    Child (match nodes[nodeName]? with
      | none => nodes.insertIfNew nodeName (NodeName.addNodeName ∅ name)
      | some node => nodes.insert nodeName (node.addNodeName name)) path e ↔
      Child nodes path e ∨ (path = nodeName ∧ e = name) := by
  unfold Child
  cases hget : nodes[nodeName]? with
  | none =>
    have hmem : nodeName ∉ nodes := by
      rw [Std.TreeMap.mem_iff_isSome_getElem?, hget]
      exact Bool.false_ne_true
    simp only [Std.TreeMap.getElem?_insertIfNew, Std.compare_eq_iff_eq, hmem, not_false_eq_true,
      and_true]
    by_cases hpath : nodeName = path
    · subst hpath
      simp [hget, mem_addNodeName]
    · simp [hpath, Ne.symm hpath]
  | some node =>
    simp only [Std.TreeMap.getElem?_insert, Std.compare_eq_iff_eq]
    by_cases hpath : nodeName = path
    · subst hpath
      simp [hget, mem_addNodeName, or_comm]
    · simp [hpath, Ne.symm hpath]

/-- The loop files every name under the path before it. -/
theorem addNodeNames_spec {names : List Str} (h : ∀ name ∈ names, name ≠ []) :
    ∀ {nodeName : Str} {nodes : Std.TreeMap Str NodeName} {path e : Str},
    Child (addNodeNames names nodeName nodes) path e ↔
      Child nodes path e ∨
        ∃ pre post, names = pre ++ e :: post ∧ path = nodeName ++ pre.flatMap (· ++ ['/']) := by
  induction names with
  | nil => simp [addNodeNames]
  | cons name names ih =>
    rw [List.forall_mem_cons] at h
    intro nodeName nodes path e
    rw [addNodeNames, if_neg h.1, ih h.2]
    refine (or_congr_left (child_insert nodes nodeName name path e)).trans ?_
    rw [or_assoc]
    refine or_congr_right ?_
    constructor
    · rintro (⟨rfl, rfl⟩ | ⟨pre, post, rfl, rfl⟩)
      · exact ⟨[], names, rfl, by simp⟩
      · exact ⟨name :: pre, post, rfl, by simp⟩
    · rintro ⟨pre, post, hnames, rfl⟩
      cases pre with
      | nil =>
        obtain ⟨rfl, rfl⟩ := List.cons.inj hnames
        exact Or.inl ⟨by simp, rfl⟩
      | cons x pre =>
        obtain ⟨rfl, rfl⟩ := List.cons.inj hnames
        exact Or.inr ⟨pre, post, rfl, by simp⟩

end ObjectManager

/-! ## Names and paths -/

theorem pathName_append_slash (cs : List Str) : pathName cs ++ ['/'] = folderName cs := by
  unfold pathName folderName
  induction cs with
  | nil => rfl
  | cons c cs ih =>
    rw [List.flatMap_cons, List.append_assoc, ih]
    simp

theorem splitOn_folderName {ds : List Str} (h : ∀ d ∈ ds, '/' ∉ d) :
    (folderName ds).splitOn '/' = [] :: ds ++ [[]] :=
  Delimited.splitOn_flatMap (List.forall_mem_cons.2 ⟨List.not_mem_nil, h⟩)

theorem folderName_inj {ds ds' : List Str} (h : ∀ d ∈ ds, '/' ∉ d) (h' : ∀ d ∈ ds', '/' ∉ d)
    (heq : folderName ds = folderName ds') : ds = ds' := by
  have hsplit := splitOn_folderName h
  rw [heq, splitOn_folderName h'] at hsplit
  exact (List.append_cancel_right (List.cons.inj hsplit).2).symm

theorem IsPath.inj {cs cs' : List Str} (h : IsPath cs) (h' : IsPath cs')
    (heq : pathName cs = pathName cs') : cs = cs' :=
  folderName_inj (fun c hc => (h.components c hc).noSlash)
    (fun c hc => (h'.components c hc).noSlash) (by
      rw [← pathName_append_slash, heq, pathName_append_slash])

/-- A name is split into its components, behind an empty part. -/
theorem IsPath.split {cs : List Str} (h : IsPath cs) :
    Converter.split (pathName cs) '/' = some ([] :: cs) := by
  obtain ⟨cs, c, rfl⟩ := (List.eq_nil_or_concat cs).resolve_left h.ne_nil
  rw [List.concat_eq_append] at h ⊢
  have hc := h.components c (by simp)
  have htext : pathName (cs ++ [c]) = ([] :: cs).flatMap (· ++ ['/']) ++ c := by
    have hfolder := pathName_append_slash cs
    rw [pathName, List.flatMap_append, List.flatMap_singleton, ← List.singleton_append,
      ← List.append_assoc]
    exact congrArg (· ++ c) hfolder
  rw [htext, Converter.split_flatMap_append (by decide) hc.ne_nil hc.noSlash hc.head hc.last
    fun x hx => ?_, List.cons_append]
  rcases List.mem_cons.1 hx with rfl | hx
  · decide
  · have hx' := h.components x (by simp [hx])
    exact ⟨hx'.noSlash, hx'.head⟩

theorem IsPath.begins {cs : List Str} (h : IsPath cs) :
    pathName cs ≠ [] ∧ (pathName cs).head? = some '/' ∧ pathName cs ≠ ['/'] := by
  obtain ⟨c, cs, rfl⟩ := List.exists_cons_of_ne_nil h.ne_nil
  have hc := (h.components c List.mem_cons_self).ne_nil
  refine ⟨List.cons_ne_nil _ _, rfl, fun heq => hc ?_⟩
  exact (List.append_eq_nil_iff.1 (List.cons.inj heq).2).1

/-! ## Sequences of registrations -/

namespace ObjectManager

variable {classes : ClassList} {calls : List (Option ℕ × List Str)} {m : ObjectManager}

/-- The calls that register objects under these names; `none` is a `NULL` object. -/
def registrations (calls : List (Option ℕ × List Str)) : List RegisterCall :=
  calls.map fun call => .data call.1 (pathName call.2)

/-- An object has been registered under the name with these components. -/
def Registered (calls : List (Option ℕ × List Str)) (cs : List Str) : Prop :=
  ∃ object, (some object, cs) ∈ calls

/-- The invariant : the names registered are those of the calls, and what is listed below a
path is what follows it in their names. -/
structure Filed (calls : List (Option ℕ × List Str)) (m : ObjectManager) : Prop where
  names : ∀ name, name ∈ m.datas ↔ ∃ cs, Registered calls cs ∧ name = pathName cs
  nodes : ∀ path e, Child m.dataNodeNames path e ↔
    ∃ pre post, Registered calls (pre ++ e :: post) ∧ path = folderName pre

theorem registered_snoc (object : Option ℕ) (cs cs' : List Str) :
    Registered (calls ++ [(object, cs)]) cs' ↔
      Registered calls cs' ∨ (object ≠ none ∧ cs' = cs) := by
  unfold Registered
  simp only [List.mem_append, List.mem_singleton, Prod.mk.injEq, exists_or]
  refine or_congr_right ?_
  cases object <;> simp

theorem filed_new : Filed [] new := by
  refine ⟨fun name => ?_, fun path e => ?_⟩
  · simp [new, Registered]
  · simp [new, Registered, Child]

theorem Filed.congr {calls' : List (Option ℕ × List Str)} (h : Filed calls m)
    (hcalls : ∀ cs, Registered calls' cs ↔ Registered calls cs) : Filed calls' m :=
  ⟨by simpa only [hcalls] using h.names, by simpa only [hcalls] using h.nodes⟩

/-- One registration. A call that throws finds the name taken. -/
theorem Filed.step (h : Filed calls m) (hpaths : ∀ call ∈ calls, IsPath call.2)
    (object : Option ℕ) {cs : List Str} (hcs : IsPath cs) :
    ∃ m', (m.step classes (.data object (pathName cs))).state? = some m' ∧
      Filed (calls ++ [(object, cs)]) m' := by
  obtain ⟨hnil, hhead, hslash⟩ := hcs.begins
  cases object with
  | none => exact ⟨m, rfl, h.congr fun cs' => by simp [registered_snoc]⟩
  | some object =>
    simp only [ObjectManager.step, registerData, hnil, hhead, hslash, if_false, ne_eq,
      not_true_eq_false,
      hcs.split]
    split_ifs with hmem
    · obtain ⟨cs', hcs', heq⟩ := (h.names _).1 hmem
      obtain ⟨object', hobject'⟩ := hcs'
      obtain rfl := hcs.inj (hpaths _ hobject') heq
      refine ⟨m, rfl, h.congr fun cs' => ?_⟩
      rw [registered_snoc]
      exact ⟨fun hcs' => hcs'.elim id fun heq => heq.2 ▸ ⟨object', hobject'⟩, Or.inl⟩
    · refine ⟨_, rfl, fun name => ?_, fun path e => ?_⟩
      · simp only [Std.TreeMap.mem_insertIfNew, Std.compare_eq_iff_eq, h.names, registered_snoc,
          ne_eq, reduceCtorEq, not_false_eq_true, true_and]
        constructor
        · rintro (rfl | ⟨cs', hcs', rfl⟩)
          · exact ⟨cs, Or.inr rfl, rfl⟩
          · exact ⟨cs', Or.inl hcs', rfl⟩
        · rintro ⟨cs', hcs' | rfl, rfl⟩
          · exact Or.inr ⟨cs', hcs', rfl⟩
          · exact Or.inl rfl
      · have hnodes : addNodeNames ([] :: cs) ['/'] m.dataNodeNames =
            addNodeNames cs ['/'] m.dataNodeNames := if_pos rfl
        simp only [hnodes, addNodeNames_spec fun c hc => (hcs.components c hc).ne_nil, h.nodes,
          registered_snoc, ne_eq, reduceCtorEq, not_false_eq_true, true_and]
        constructor
        · rintro (⟨pre, post, hcs', rfl⟩ | ⟨pre, post, rfl, rfl⟩)
          · exact ⟨pre, post, Or.inl hcs', rfl⟩
          · exact ⟨pre, post, Or.inr rfl, rfl⟩
        · rintro ⟨pre, post, hcs' | rfl, rfl⟩
          · exact Or.inl ⟨pre, post, hcs', rfl⟩
          · exact Or.inr ⟨pre, post, rfl, rfl⟩

theorem filed_of_run (hpaths : ∀ call ∈ calls, IsPath call.2) :
    ∃ m, run classes (registrations calls) = some m ∧ Filed calls m := by
  induction calls using List.reverseRecOn with
  | nil => exact ⟨new, rfl, filed_new⟩
  | append_singleton calls call ih =>
    have hpre : ∀ call ∈ calls, IsPath call.2 := fun call hcall =>
      hpaths call (List.mem_append_left _ hcall)
    obtain ⟨m, hrun, hfiled⟩ := ih hpre
    obtain ⟨m', hstep, hfiled'⟩ := @Filed.step classes _ _ hfiled hpre call.1 _
      (hpaths call (by simp))
    refine ⟨m', ?_, hfiled'⟩
    rw [registrations, List.map_append, List.map_singleton, run_snoc]
    change (run classes (registrations calls)).bind _ = _
    rw [hrun]
    exact hstep

/-- The tree mirrors the names. After any sequence of registrations under names made of
components, some of which may throw, the list below a path is in order, and has exactly the
components that follow the components of the path in a registered name. -/
theorem getChannelNodeList_of_run (hpaths : ∀ call ∈ calls, IsPath call.2) :
    ∃ m, run classes (registrations calls) = some m ∧
      (∀ name, name ∈ m.datas ↔ ∃ cs, Registered calls cs ∧ name = pathName cs) ∧
      ∀ ds : List Str, (∀ d ∈ ds, '/' ∉ d) →
        (m.getChannelNodeList (folderName ds)).Pairwise (fun a b => compare a b = .lt) ∧
        ∀ e, e ∈ m.getChannelNodeList (folderName ds) ↔
          ∃ cs, IsPath cs ∧ pathName cs ∈ m.datas ∧ ds ++ [e] <+: cs := by
  obtain ⟨m, hrun, hfiled⟩ := @filed_of_run classes calls hpaths
  have hregistered : ∀ cs, Registered calls cs → IsPath cs := fun cs ⟨object, hobject⟩ =>
    hpaths _ hobject
  refine ⟨m, hrun, hfiled.names, fun ds hds => ⟨pairwise_getChannelNodeList m _, fun e => ?_⟩⟩
  rw [mem_getChannelNodeList, hfiled.nodes]
  constructor
  · rintro ⟨pre, post, hcs, heq⟩
    have hpath := hregistered _ hcs
    have hpre : ∀ c ∈ pre, '/' ∉ c := fun c hc =>
      (hpath.components c (List.mem_append_left _ hc)).noSlash
    obtain rfl := folderName_inj hds hpre heq
    exact ⟨_, hpath, (hfiled.names _).2 ⟨_, hcs, rfl⟩, post, by simp⟩
  · rintro ⟨cs, hcs, hmem, post, rfl⟩
    obtain ⟨cs', hcs', heq⟩ := (hfiled.names _).1 hmem
    obtain rfl := hcs.inj (hregistered _ hcs') heq
    exact ⟨ds, post, by simpa using hcs', rfl⟩

/-- Two channels in a folder, and a name that is taken. -/
theorem getChannelNodeList_folder : ∃ m,
    run [] (registrations [(some 0, ["a".toList, "b".toList]), (some 1, ["a".toList, "c d".toList]),
      (some 2, ["a".toList, "b".toList])]) = some m ∧
    "c d".toList ∈ m.getChannelNodeList (folderName ["a".toList]) := by
  have hcomponents : ∀ c ∈ ["a".toList, "b".toList, "c d".toList], IsComponent c := by
    intro c hc
    simp only [List.mem_cons, List.not_mem_nil, or_false] at hc
    rcases hc with rfl | rfl | rfl <;> exact ⟨by decide, by decide, by decide, by decide⟩
  have hpath : IsPath ["a".toList, "c d".toList] :=
    ⟨by decide, fun c hc => hcomponents c (by revert c; decide)⟩
  have hpaths : ∀ call ∈ [(some 0, ["a".toList, "b".toList]),
      (some 1, ["a".toList, "c d".toList]), (some 2, ["a".toList, "b".toList])],
      IsPath call.2 := by
    simp only [List.forall_mem_cons, List.not_mem_nil, false_implies, implies_true, and_true]
    refine ⟨?_, hpath, ?_⟩ <;>
      exact ⟨by decide, fun c hc => hcomponents c (by revert c; decide)⟩
  obtain ⟨m, hrun, hnames, hlist⟩ := @getChannelNodeList_of_run [] _ hpaths
  refine ⟨m, hrun, ((hlist ["a".toList] (by decide)).2 _).2 ⟨_, hpath, ?_, ⟨[], rfl⟩⟩⟩
  exact (hnames _).2 ⟨_, ⟨1, by decide⟩, rfl⟩

end ObjectManager

end Ick
