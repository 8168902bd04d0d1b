import Ick.SubscriberClient
import Mathlib.Data.List.Nodup

/-!
# The requests of a pass

`subscribeChannelHandler` goes over `m_subscribeChannels` and asks for the channels that are due.
It joins the requests, sends them whenever the tenth has been joined, and sends what is left behind
the loop. `RequestPass.turn` is the body of the loop, and `requestPass` the loop with what follows
it.

The buffers that are passed to `::send` are groups of at most ten requests, none of them empty, and
together they are the requests for the channels that are due, in the order of the map; exactly
these channels get the time of the pass (`complete_requestPass`).
-/

namespace Ick

/-- The local variables of the pass, the buffers that have been passed to `::send`, and the map. -/
structure RequestPass where
  i : ℕ
  str : Str
  sends : List Str
  channels : SubscribeChannels

namespace SubscribeChannels

/-- `"Subscribe:" + it->first + std::string(";")` -/
def frame (channelName : Str) : Str := "Subscribe:".toList ++ channelName ++ [';']

end SubscribeChannels

open SubscribeChannels

namespace RequestPass

/-- `::send`, the result of which is not looked at, and `str = ""`. -/
def flush (s : RequestPass) : RequestPass :=
  { s with sends := s.sends ++ [s.str], str := [] }

/-- A channel that is due is asked for. -/
def ask (t : ℤ) (s : RequestPass) (it : Str × ChannelSubscribeInfo) : RequestPass where
  i := s.i + 1
  str := s.str ++ frame it.1
  sends := s.sends
  channels := s.channels.insert it.1 { it.2 with registTime := t }

/-- The body of the loop. -/
def turn (t : ℤ) (s : RequestPass) (it : Str × ChannelSubscribeInfo) : RequestPass :=
  if isDue t it.2 then
    if (s.i + 1) % 10 = 0 then (s.ask t it).flush else s.ask t it
  else s

/-- The send behind the loop. -/
def finish (s : RequestPass) : RequestPass := if s.str ≠ [] then s.flush else s

end RequestPass

/-- The loop over the map, and the send behind it. -/
def requestPass (t : ℤ) (channels : SubscribeChannels) : RequestPass :=
  (channels.toList.foldl (RequestPass.turn t) ⟨0, [], [], channels⟩).finish

/-- The channels that are due, with their names, in the order of the map. -/
def SubscribeChannels.due (t : ℤ) (channels : SubscribeChannels) :
    List (Str × ChannelSubscribeInfo) :=
  channels.toList.filter fun it => isDue t it.2

/-- The buffers sent are groups of one to ten requests, these are one for each channel that is due,
in the order of the map, and the map differs in the times of these channels only. -/
structure RequestPass.Complete (t : ℤ) (channels : SubscribeChannels) (s : RequestPass) : Prop where
  requests : ∃ groups : List (List Str), s.sends = groups.map List.flatten ∧
    groups.flatten = (channels.due t).map (frame ·.1) ∧
    ∀ group ∈ groups, group ≠ [] ∧ group.length ≤ 10
  nonempty : ∀ buffer ∈ s.sends, buffer ≠ []
  concatenated : s.sends.flatten = (channels.due t).flatMap (frame ·.1)
  once : ((channels.due t).map (frame ·.1)).Nodup
  channels : ∀ c : Str, s.channels[c]? = channels[c]?.map fun info =>
    if isDue t info then { info with registTime := t } else info

/-! ## Groups of ten -/

theorem frame_ne_nil (channelName : Str) : frame channelName ≠ [] := by
  unfold frame
  simp

/-- The texts that are sent are groups of the texts joined. -/
theorem exists_groups_batches {texts : List Str} (htexts : ∀ text ∈ texts, text ≠ []) :
    ∀ {i : ℕ} {pending : List Str}, (∀ text ∈ pending, text ≠ []) → pending.length = i % 10 →
    ∃ groups : List (List Str), batches i pending.flatten texts = groups.map List.flatten ∧
      groups.flatten = pending ++ texts ∧ ∀ group ∈ groups, group ≠ [] ∧ group.length ≤ 10 := by
  induction texts with
  | nil =>
    intro i pending hpending hlength
    rw [batches, List.append_nil]
    split_ifs with hnil
    · refine ⟨[], rfl, ?_, fun _ h => absurd h List.not_mem_nil⟩
      refine (List.eq_nil_iff_forall_not_mem.2 fun text htext => ?_).symm
      exact hpending text htext (List.flatten_eq_nil_iff.1 hnil text htext)
    · refine ⟨[pending], rfl, List.append_nil _, fun group hgroup => ?_⟩
      rw [List.mem_singleton.1 hgroup]
      refine ⟨fun h => hnil (h ▸ rfl), ?_⟩
      omega
  | cons text texts ih =>
    intro i pending hpending hlength
    obtain ⟨htext, hrest⟩ := List.forall_mem_cons.1 htexts
    have hflatten : pending.flatten ++ text = (pending ++ [text]).flatten := by simp
    rw [batches, hflatten]
    split_ifs with hten
    · obtain ⟨groups, hbatches, hgroups, hsizes⟩ := @ih hrest (i + 1) []
        (fun _ h => absurd h List.not_mem_nil) hten.symm
      refine ⟨(pending ++ [text]) :: groups, congrArg _ hbatches, ?_, ?_⟩
      · rw [List.flatten_cons, hgroups, List.nil_append, List.append_assoc, List.singleton_append]
      · have hne : pending ++ [text] ≠ [] :=
          List.append_ne_nil_of_right_ne_nil _ (List.cons_ne_nil _ _)
        refine List.forall_mem_cons.2 ⟨⟨hne, ?_⟩, hsizes⟩
        rw [List.length_append, List.length_singleton]
        omega
    · obtain ⟨groups, hbatches, hgroups, hsizes⟩ := @ih hrest (i + 1) (pending ++ [text])
        (List.forall_mem_append.2 ⟨hpending, List.forall_mem_singleton.2 htext⟩)
        (by rw [List.length_append, List.length_singleton]; omega)
      refine ⟨groups, hbatches, ?_, hsizes⟩
      rw [hgroups, List.append_assoc, List.singleton_append]

/-! ## The loop -/

namespace RequestPass

variable {t : ℤ}

/-- The loop and the send behind it hand over what the handler of the client does. -/
theorem sends_foldl_turn (entries : List (Str × ChannelSubscribeInfo)) : ∀ s : RequestPass,
    (entries.foldl (turn t) s).finish.sends =
    s.sends ++ batches s.i s.str ((entries.filter fun it => isDue t it.2).map (frame ·.1)) := by
  induction entries with
  | nil =>
    intro s
    rw [List.foldl_nil, List.filter_nil, List.map_nil, batches, finish]
    by_cases hstr : s.str = []
    · rw [if_neg (not_not.2 hstr), if_pos hstr, List.append_nil]
    · rw [if_pos hstr, if_neg hstr]
      rfl
  | cons it entries ih =>
    intro s
    rw [List.foldl_cons, ih, List.filter_cons, turn]
    by_cases hdue : isDue t it.2 = true
    · rw [if_pos hdue, if_pos hdue, List.map_cons, batches]
      split_ifs
      · simp [ask, flush]
      · rfl
    · rw [if_neg hdue, if_neg hdue]

theorem channels_finish (s : RequestPass) : s.finish.channels = s.channels := by
  unfold finish
  split_ifs <;> rfl

theorem channels_turn (s : RequestPass) (it : Str × ChannelSubscribeInfo) :
    (s.turn t it).channels =
      if isDue t it.2 then s.channels.insert it.1 { it.2 with registTime := t }
      else s.channels := by
  unfold turn
  split_ifs <;> rfl

/-- The loop leaves a channel alone that is not one of the due ones. -/
theorem getElem?_channels_of_forall_not {entries : List (Str × ChannelSubscribeInfo)} {c : Str}
    (h : ∀ it ∈ entries, isDue t it.2 = true → it.1 ≠ c) : ∀ s : RequestPass,
    (entries.foldl (turn t) s).channels[c]? = s.channels[c]? := by
  induction entries with
  | nil => exact fun s => rfl
  | cons it entries ih =>
    intro s
    obtain ⟨hit, hentries⟩ := List.forall_mem_cons.1 h
    rw [List.foldl_cons, ih hentries, channels_turn]
    split_ifs with hdue
    · rw [Std.TreeMap.getElem?_insert, if_neg]
      exact fun heq => hit hdue (Std.compare_eq_iff_eq.1 heq)
    · rfl

/-- A channel that is due gets the time, if no other entry has its name. -/
theorem getElem?_channels_of_mem {entries : List (Str × ChannelSubscribeInfo)} {c : Str}
    {info : ChannelSubscribeInfo} (hnodup : (entries.map Prod.fst).Nodup)
    (hmem : (c, info) ∈ entries) (hdue : isDue t info = true) : ∀ s : RequestPass,
    (entries.foldl (turn t) s).channels[c]? = some { info with registTime := t } := by
  induction entries with
  | nil => exact absurd hmem List.not_mem_nil
  | cons it entries ih =>
    intro s
    rw [List.map_cons, List.nodup_cons] at hnodup
    rw [List.foldl_cons]
    rcases List.mem_cons.1 hmem with rfl | hmem
    · have hother : ∀ it ∈ entries, isDue t it.2 = true → it.1 ≠ c := fun it hit _ heq =>
        hnodup.1 (List.mem_map.2 ⟨it, hit, heq⟩)
      rw [getElem?_channels_of_forall_not hother, channels_turn, if_pos hdue,
        Std.TreeMap.getElem?_insert_self]
    · exact ih hnodup.2 hmem _

end RequestPass

/-! ## The pass -/

/-- The frames of different channels are different. -/
theorem frame_injective : Function.Injective frame := fun _ _ h =>
  List.append_cancel_left (List.append_cancel_right h)

theorem nodup_names (channels : SubscribeChannels) : (channels.toList.map Prod.fst).Nodup := by
  rw [Std.TreeMap.map_fst_toList_eq_keys]
  exact Std.TreeMap.nodup_keys

/-- The pass sends what the handler of the client does. -/
theorem sends_requestPass (t : ℤ) (channels : SubscribeChannels) :
    (requestPass t channels).sends = batches 0 [] (channels.requests t) :=
  (RequestPass.sends_foldl_turn _ _).trans (List.nil_append _)

/-- The pass leaves the map as the handler of the client does. -/
theorem channels_requestPass (t : ℤ) (channels : SubscribeChannels) (c : Str) :
    (requestPass t channels).channels[c]? = (channels.requested t)[c]? := by
  rw [requestPass, RequestPass.channels_finish, requested, Std.TreeMap.getElem?_map]
  by_cases h : ∃ info, (c, info) ∈ channels.toList ∧ isDue t info = true
  · obtain ⟨info, hmem, hdue⟩ := h
    rw [RequestPass.getElem?_channels_of_mem (nodup_names channels) hmem hdue,
      Std.TreeMap.mem_toList_iff_getElem?_eq_some.1 hmem, Option.map_some, if_pos hdue]
  · have hother : ∀ it ∈ channels.toList, isDue t it.2 = true → it.1 ≠ c := by
      rintro ⟨c', info⟩ hit hdue rfl
      exact h ⟨info, hit, hdue⟩
    rw [RequestPass.getElem?_channels_of_forall_not hother]
    cases hc : channels[c]? with
    | none => rfl
    | some info =>
      have hmem := Std.TreeMap.mem_toList_iff_getElem?_eq_some.2 hc
      rw [Option.map_some, if_neg fun hdue => h ⟨info, hmem, hdue⟩]

/-- Every pass asks for the channels that are due, once for each, and records it. -/
theorem complete_requestPass (t : ℤ) (channels : SubscribeChannels) :
    (requestPass t channels).Complete t channels := by
  have htexts : ∀ text ∈ (channels.due t).map (frame ·.1), text ≠ [] :=
    List.forall_mem_map.2 fun it _ => frame_ne_nil it.1
  obtain ⟨groups, hbatches, hgroups, hsizes⟩ :=
    @exists_groups_batches _ htexts 0 [] (fun _ h => absurd h List.not_mem_nil) rfl
  have hbuffers : (requestPass t channels).sends = groups.map List.flatten :=
    (sends_requestPass t channels).trans hbatches
  rw [List.nil_append] at hgroups
  refine ⟨⟨groups, hbuffers, hgroups, hsizes⟩, ?_, ?_, ?_, fun c => ?_⟩
  · rw [hbuffers]
    refine List.forall_mem_map.2 fun group hgroup hnil => ?_
    obtain ⟨text, htext⟩ := List.exists_mem_of_ne_nil _ (hsizes group hgroup).1
    refine htexts text ?_ (List.flatten_eq_nil_iff.1 hnil text htext)
    rw [← hgroups]
    exact List.mem_flatten_of_mem hgroup htext
  · rw [hbuffers, ← List.flatten_flatten, hgroups, List.flatMap_def]
  · have hnames : ((channels.due t).map Prod.fst).Nodup :=
      (nodup_names channels).sublist (List.filter_sublist.map _)
    have hframes := hnames.map frame_injective
    rwa [List.map_map] at hframes
  · rw [channels_requestPass, requested, Std.TreeMap.getElem?_map]

end Ick
