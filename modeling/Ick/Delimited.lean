import Mathlib.Data.List.Basic

/-!
# Delimited texts

A stream of messages, each followed by a separator, is read piece by piece. Splitting at
the separator turns the concatenation of two texts into the concatenation of their fields
when the first ends at a separator or the second begins with one; otherwise the last field
of the first text and the first field of the second are one field, and whoever reads the
first text alone has to keep it (`splitOn_append_cons_append`).

`Remaining` is the invariant of a reader that goes through such a stream in this way.
-/

set_option linter.unusedSectionVars false

namespace Ick.Delimited

variable {α : Type*} [DecidableEq α] {sep : α}

/-- An element of a text is a separator or an element of a field. -/
theorem mem_field_of_mem {s : List α} {x : α} (h : x ∈ s) :
    x = sep ∨ ∃ w ∈ s.splitOn sep, x ∈ w := by
  induction s with
  | nil => exact absurd h List.not_mem_nil
  | cons y s ih =>
    rw [List.splitOn_cons_eq_if_modifyHead]
    cases hs : s.splitOn sep with
    | nil => exact absurd hs (List.splitOn_ne_nil _ _)
    | cons z zs =>
      rw [hs] at ih
      rcases List.mem_cons.1 h with rfl | h
      · by_cases hx : x = sep
        · exact Or.inl hx
        · refine Or.inr ⟨x :: z, ?_, List.mem_cons_self⟩
          simp [hx]
      · refine (ih h).imp_right ?_
        rintro ⟨w, hw, hxw⟩
        split_ifs
        · exact ⟨w, List.mem_cons_of_mem _ hw, hxw⟩
        · rcases List.mem_cons.1 hw with rfl | hw
          · exact ⟨y :: w, by simp, List.mem_cons_of_mem _ hxw⟩
          · exact ⟨w, by simp [hw], hxw⟩

/-- An element of a field is an element of the text. -/
theorem mem_of_mem_field {s w : List α} (h : w ∈ s.splitOn sep) {x : α} (hx : x ∈ w) :
    x ∈ s := by
  induction s generalizing w with
  | nil =>
    rw [List.splitOn_nil, List.mem_singleton] at h
    rwa [h] at hx
  | cons y s ih =>
    rw [List.splitOn_cons_eq_if_modifyHead] at h
    split_ifs at h
    · rcases List.mem_cons.1 h with rfl | h
      · exact absurd hx List.not_mem_nil
      · exact List.mem_cons_of_mem _ (ih h hx)
    · cases hs : s.splitOn sep with
      | nil => exact absurd hs (List.splitOn_ne_nil _ _)
      | cons z zs =>
        rw [hs] at ih h
        rcases List.mem_cons.1 h with rfl | h
        · rcases List.mem_cons.1 hx with rfl | hx
          · exact List.mem_cons_self
          · exact List.mem_cons_of_mem _ (ih List.mem_cons_self hx)
        · exact List.mem_cons_of_mem _ (ih (List.mem_cons_of_mem _ h) hx)

/-- A text that contains the separator, cut at its last one. -/
theorem exists_eq_append_cons_last {s : List α} (h : sep ∈ s) :
    ∃ b p, s = b ++ sep :: p ∧ sep ∉ p := by
  obtain ⟨a, r, hs, ha⟩ := List.eq_append_cons_of_mem (List.mem_reverse.2 h)
  refine ⟨r.reverse, a.reverse, ?_, by simpa using ha⟩
  rw [← List.reverse_reverse s, hs]
  simp

/-- The fields of a list, of which the last one is not followed by the separator. -/
theorem splitOn_flatMap_append {l : List (List α)} (h : ∀ m ∈ l, sep ∉ m) {last : List α}
    (hlast : sep ∉ last) : (l.flatMap (· ++ [sep]) ++ last).splitOn sep = l ++ [last] := by
  induction l with
  | nil => exact List.splitOn_eq_singleton hlast
  | cons m l ih =>
    rw [List.flatMap_cons, List.append_assoc, List.append_assoc, List.singleton_append,
      List.splitOn_append_cons_self_of_not_mem (h m List.mem_cons_self),
      ih fun w hw => h w (List.mem_cons_of_mem _ hw)]
    rfl

/-- The fields of a stream of messages : the messages, and nothing behind the last
separator. -/
theorem splitOn_flatMap {msgs : List (List α)} (h : ∀ m ∈ msgs, sep ∉ m) :
    (msgs.flatMap (· ++ [sep])).splitOn sep = msgs ++ [[]] := by
  rw [← splitOn_flatMap_append h List.not_mem_nil, List.append_nil]

theorem intercalate_concat (l : List (List α)) (last : List α) :
    [sep].intercalate (l ++ [last]) = l.flatMap (· ++ [sep]) ++ last := by
  induction l with
  | nil => exact List.intercalate_singleton
  | cons m l ih =>
    obtain ⟨x, xs, hx⟩ := List.exists_cons_of_ne_nil
      (List.append_ne_nil_of_right_ne_nil l (List.cons_ne_nil last []))
    rw [List.cons_append, hx, List.intercalate_cons_cons, ← hx, ih, List.flatMap_cons,
      ← List.append_assoc]

/-- Joined fields are the fields of the text. -/
theorem splitOn_intercalate {fields : List (List α)} (hne : fields ≠ [])
    (h : ∀ field ∈ fields, sep ∉ field) : ([sep].intercalate fields).splitOn sep = fields := by
  obtain ⟨l, last, rfl⟩ := (List.eq_nil_or_concat' fields).resolve_left hne
  rw [intercalate_concat, splitOn_flatMap_append]
  · exact fun field hfield => h field (List.mem_append_left _ hfield)
  · exact h last (List.mem_append_right _ List.mem_cons_self)

/-- A joined text begins as one of its fields does, or with a separator. -/
theorem head?_intercalate {x : α} (hx : sep ≠ x) {fields : List (List α)}
    (h : ∀ field ∈ fields, field.head? ≠ some x) : ([sep].intercalate fields).head? ≠ some x := by
  cases fields with
  | nil => nofun
  | cons field fields =>
    have hfield := h field List.mem_cons_self
    cases fields with
    | nil => rwa [List.intercalate_singleton]
    | cons field' fields =>
      rw [List.intercalate_cons_cons]
      cases field with
      | nil => simpa using hx
      | cons y field => simpa using hfield

/-- It ends as one of its fields does, or with a separator. -/
theorem getLast?_intercalate {x : α} (hx : sep ≠ x) {fields : List (List α)}
    (h : ∀ field ∈ fields, field.getLast? ≠ some x) :
    ([sep].intercalate fields).getLast? ≠ some x := by
  rcases List.eq_nil_or_concat' fields with rfl | ⟨l, last, rfl⟩
  · nofun
  · have hlast := h last (List.mem_append_right _ List.mem_cons_self)
    rw [intercalate_concat]
    by_cases hnil : last = []
    · subst hnil
      rw [List.append_nil]
      rcases List.eq_nil_or_concat' l with rfl | ⟨l, field, rfl⟩
      · nofun
      · simpa using hx
    · rwa [List.getLast?_append_of_ne_nil _ hnil]

/-- A text is the pieces that end at its separators, and what is behind the last of them. -/
theorem exists_eq_flatMap_append (s : List α) : ∃ (lines : List (List α)) (last : List α),
    (∀ line ∈ lines, sep ∉ line) ∧ sep ∉ last ∧ s = lines.flatMap (· ++ [sep]) ++ last := by
  induction s with
  | nil => exact ⟨[], [], by simp, List.not_mem_nil, rfl⟩
  | cons x s ih =>
    obtain ⟨lines, last, hlines, hlast, rfl⟩ := ih
    by_cases hx : x = sep
    · subst hx
      exact ⟨[] :: lines, last, List.forall_mem_cons.2 ⟨List.not_mem_nil, hlines⟩, hlast, rfl⟩
    · have hcons : ∀ {l : List α}, sep ∉ l → sep ∉ x :: l := fun hl => by
        simp [Ne.symm hx, hl]
      cases lines with
      | nil => exact ⟨[], x :: last, by simp, hcons hlast, rfl⟩
      | cons line lines =>
        rw [List.forall_mem_cons] at hlines
        exact ⟨(x :: line) :: lines, last,
          List.forall_mem_cons.2 ⟨hcons hlines.1, hlines.2⟩, hlast, rfl⟩

/-- There are at most as many of them as separators. -/
theorem length_le_length_flatMap_append (lines : List (List α)) (last : List α) :
    lines.length ≤ (lines.flatMap (· ++ [sep]) ++ last).length := by
  induction lines with
  | nil => exact Nat.zero_le _
  | cons line lines ih =>
    rw [List.flatMap_cons]
    simp only [List.length_append, List.length_cons, List.length_nil] at ih ⊢
    omega

/-- A field without the separator that is read in two goes on in the second text. -/
theorem splitOn_append_cons_append (b p rest : List α) :
    ((b ++ sep :: p) ++ rest).splitOn sep = b.splitOn sep ++ (p ++ rest).splitOn sep := by
  rw [List.append_assoc, List.cons_append, List.splitOn_append_cons_self]

/-- A text without a separator is the beginning of a field. -/
theorem exists_field_of_notMem {s : List α} (h : sep ∉ s) (t : List α) :
    ∃ w ∈ (s ++ t).splitOn sep, s <+: w := by
  by_cases ht : sep ∈ t
  · obtain ⟨a, r, rfl, ha⟩ := List.eq_append_cons_of_mem ht
    have hsa : sep ∉ s ++ a := by simp [h, ha]
    rw [← List.append_assoc, List.splitOn_append_cons_self_of_not_mem hsa]
    exact ⟨s ++ a, List.mem_cons_self, List.prefix_append _ _⟩
  · have hst : sep ∉ s ++ t := by simp [h, ht]
    rw [List.splitOn_eq_singleton hst]
    exact ⟨s ++ t, List.mem_singleton_self _, List.prefix_append _ _⟩

theorem length_splitOn (s : List α) : (s.splitOn sep).length = s.count sep + 1 := by
  induction s with
  | nil => rfl
  | cons x s ih =>
    rw [List.splitOn_cons_eq_if_modifyHead, List.count_cons]
    split_ifs
    · rw [List.length_cons, ih]
    · rw [List.length_modifyHead, ih, Nat.add_zero]

/-- Two texts meet at the end of a field. -/
def Meet (sep : α) (t r : List α) : Prop :=
  [sep] <:+ t ∨ r = [] ∨ [sep] <+: r

/-- Where two texts meet at the end of a field, their fields are those of the whole text,
except for empty ones. -/
theorem filterMap_splitOn_append {β : Type*} {f : List α → Option β} (hnil : f [] = none)
    {t r : List α} (h : Meet sep t r) : ((t ++ r).splitOn sep).filterMap f =
      (t.splitOn sep).filterMap f ++ (r.splitOn sep).filterMap f := by
  rcases h with ⟨b, rfl⟩ | rfl | ⟨r, rfl⟩
  · rw [List.append_assoc, List.singleton_append, List.splitOn_append_cons_self,
      List.splitOn_append_cons_self, List.filterMap_append, List.filterMap_append]
    simp [hnil]
  · simp [hnil]
  · rw [List.singleton_append, List.splitOn_append_cons_self, List.filterMap_append,
      ← List.nil_append (sep :: r), List.splitOn_append_cons_self, List.filterMap_append]
    simp [hnil]

theorem mem_splitOn_append_left {t r w : List α} (h : Meet sep t r) (hw : w ∈ t.splitOn sep) :
    w = [] ∨ w ∈ (t ++ r).splitOn sep := by
  rcases h with ⟨b, rfl⟩ | rfl | ⟨r, rfl⟩
  · rw [List.splitOn_append_cons_self, List.mem_append, List.splitOn_nil,
      List.mem_singleton] at hw
    rw [List.append_assoc, List.singleton_append, List.splitOn_append_cons_self]
    exact hw.symm.imp_right (List.mem_append_left _)
  · exact Or.inr (by rwa [List.append_nil])
  · rw [List.singleton_append, List.splitOn_append_cons_self]
    exact Or.inr (List.mem_append_left _ hw)

theorem mem_splitOn_append_right {t r w : List α} (h : Meet sep t r)
    (hw : w ∈ r.splitOn sep) : w = [] ∨ w ∈ (t ++ r).splitOn sep := by
  rcases h with ⟨b, rfl⟩ | rfl | ⟨r, rfl⟩
  · rw [List.append_assoc, List.singleton_append, List.splitOn_append_cons_self]
    exact Or.inr (List.mem_append_right _ hw)
  · rw [List.splitOn_nil, List.mem_singleton] at hw
    exact Or.inl hw
  · rw [List.singleton_append, ← List.nil_append (sep :: r), List.splitOn_append_cons_self,
      List.splitOn_nil, List.singleton_append, List.mem_cons] at hw
    rw [List.singleton_append, List.splitOn_append_cons_self]
    exact hw.imp_right (List.mem_append_right _)

/-! ## Reading a stream -/

/-- What is to come of a stream of messages after `done` has been read from it : what is read
from each message is in `done` or still to come, and nothing else is. -/
structure Remaining {β : Type*} (sep : α) (f : List α → Option β) (msgs : List (List α))
    (done : List β) (s : List α) : Prop where
  results : done ++ (s.splitOn sep).filterMap f = msgs.filterMap f
  fields : ∀ w ∈ s.splitOn sep, w = [] ∨ w ∈ msgs
  ends : s = [] ∨ [sep] <:+ s

section Remaining

variable {β : Type*} {f : List α → Option β} {msgs : List (List α)} {done : List β}

theorem remaining_start (hnil : f [] = none) (h : ∀ m ∈ msgs, sep ∉ m) :
    Remaining sep f msgs [] (msgs.flatMap (· ++ [sep])) := by
  refine ⟨?_, ?_, ?_⟩
  · rw [splitOn_flatMap h, List.filterMap_append]
    simp [hnil]
  · rw [splitOn_flatMap h]
    intro w hw
    simpa [or_comm] using hw
  · rcases List.eq_nil_or_concat msgs with rfl | ⟨ms, m, rfl⟩
    · exact Or.inl rfl
    · exact Or.inr ⟨ms.flatMap (· ++ [sep]) ++ m, by simp⟩

/-- What is left of a stream that ends in a separator ends in one. -/
theorem ends_of_suffix {t r : List α} (h : t ++ r = [] ∨ [sep] <:+ t ++ r) :
    r = [] ∨ [sep] <:+ r := by
  rcases h with h | h
  · exact Or.inl (List.append_eq_nil_iff.1 h).2
  · rcases List.eq_nil_or_concat r with rfl | ⟨r, x, rfl⟩
    · exact Or.inl rfl
    · obtain ⟨b, hb⟩ := h
      rw [List.concat_eq_append, ← List.append_assoc] at hb
      obtain ⟨-, hx⟩ := List.append_inj' hb rfl
      exact Or.inr ⟨r, by rw [hx]; simp⟩

/-- All fields of a text are read that meets the rest at the end of a field. -/
theorem Remaining.read {t r : List α} (h : Remaining sep f msgs done (t ++ r))
    (hnil : f [] = none) (hmeet : Meet sep t r) :
    Remaining sep f msgs (done ++ (t.splitOn sep).filterMap f) r := by
  refine ⟨?_, fun w hw => ?_, ends_of_suffix h.ends⟩
  · rw [List.append_assoc, ← filterMap_splitOn_append hnil hmeet]
    exact h.results
  · exact (mem_splitOn_append_right hmeet hw).elim Or.inl (h.fields w)

/-- The fields before the last separator of a text are read, and what is behind it is
kept. -/
theorem Remaining.keep {b p r : List α} (h : Remaining sep f msgs done ((b ++ sep :: p) ++ r)) :
    Remaining sep f msgs (done ++ (b.splitOn sep).filterMap f) (p ++ r) := by
  have hresults := h.results
  have hfields := h.fields
  rw [splitOn_append_cons_append] at hresults hfields
  refine ⟨?_, fun w hw => hfields w (List.mem_append_right _ hw), ?_⟩
  · rw [List.append_assoc, ← List.filterMap_append]
    exact hresults
  · have hends : b ++ [sep] ++ (p ++ r) = [] ∨ [sep] <:+ b ++ [sep] ++ (p ++ r) := by
      simpa using h.ends
    exact ends_of_suffix hends

/-- What is to come is made of separators and what the messages are made of. -/
theorem Remaining.notMem {s : List α} (h : Remaining sep f msgs done s) {x : α} (hx : x ≠ sep)
    (hmsgs : ∀ m ∈ msgs, x ∉ m) : x ∉ s := by
  intro hmem
  rcases (mem_field_of_mem hmem : x = sep ∨ _) with heq | ⟨w, hw, hxw⟩
  · exact hx heq
  · rcases h.fields w hw with rfl | hw
    · exact absurd hxw List.not_mem_nil
    · exact hmsgs w hw hxw

theorem Remaining.notMem_left {t r : List α} (h : Remaining sep f msgs done (t ++ r)) {x : α}
    (hx : x ≠ sep) (hmsgs : ∀ m ∈ msgs, x ∉ m) : x ∉ t :=
  fun hmem => h.notMem hx hmsgs (List.mem_append_left _ hmem)

/-- A text that is longer than every message contains a separator. -/
theorem Remaining.sep_mem {t r : List α} (h : Remaining sep f msgs done (t ++ r))
    (hpos : 0 < t.length) (hlong : ∀ m ∈ msgs, m.length < t.length) : sep ∈ t := by
  by_contra hsep
  obtain ⟨w, hw, hpre⟩ := exists_field_of_notMem hsep r
  have hlen := hpre.length_le
  rcases h.fields w hw with rfl | hw
  · rw [List.length_nil] at hlen
    omega
  · have := hlong w hw
    omega

/-- A text that is longer than every message and does not end in a separator is cut at its
last separator, and something is left behind it. -/
theorem Remaining.exists_cut {t r : List α} (h : Remaining sep f msgs done (t ++ r))
    (hpos : 0 < t.length) (hlong : ∀ m ∈ msgs, m.length < t.length) (hends : ¬[sep] <:+ t) :
    ∃ b p, t = b ++ sep :: p ∧ p ≠ [] ∧ sep ∉ p := by
  obtain ⟨b, p, htext, hsep⟩ := exists_eq_append_cons_last (h.sep_mem hpos hlong)
  refine ⟨b, p, htext, ?_, hsep⟩
  rintro rfl
  exact hends ⟨b, htext.symm⟩

/-- What has been read so far comes from the first messages. -/
theorem Remaining.initial {s : List α} (h : Remaining sep f msgs done s) :
    done <+: msgs.filterMap f :=
  ⟨_, h.results⟩

/-- At the end of the stream everything has been read. -/
theorem Remaining.done_eq {s : List α} (h : Remaining sep f msgs done s) (hnil : f [] = none)
    (hs : sep ∉ s) : done = msgs.filterMap f := by
  have hempty : s = [] := by
    refine h.ends.resolve_right ?_
    rintro ⟨b, rfl⟩
    exact hs (by simp)
  have hresults := h.results
  rw [hempty] at hresults
  simpa [hnil] using hresults

/-- More messages are sent on a stream. -/
theorem Remaining.send {s : List α} (h : Remaining sep f msgs done s) (hnil : f [] = none)
    {new : List (List α)} (hnew : ∀ m ∈ new, sep ∉ m) :
    Remaining sep f (msgs ++ new) done (s ++ new.flatMap (· ++ [sep])) := by
  obtain ⟨hresults, hfields, hends⟩ := @remaining_start _ _ sep _ f _ hnil hnew
  rw [List.nil_append] at hresults
  rcases h.ends with rfl | hs
  · have hdone : done = msgs.filterMap f := by
      simpa [hnil] using h.results
    refine ⟨?_, fun w hw => (hfields w hw).imp_right (List.mem_append_right _), hends⟩
    rw [List.nil_append, hresults, List.filterMap_append, hdone]
  · have hmeet : Meet sep s (new.flatMap (· ++ [sep])) := Or.inl hs
    refine ⟨?_, fun w hw => ?_, ?_⟩
    · rw [filterMap_splitOn_append hnil hmeet, hresults, ← List.append_assoc, h.results,
        List.filterMap_append]
    · obtain ⟨b, rfl⟩ := hs
      rw [List.append_assoc, List.singleton_append, List.splitOn_append_cons_self,
        List.mem_append] at hw
      rcases hw with hw | hw
      · refine (h.fields w ?_).imp_right (List.mem_append_left _)
        rw [List.splitOn_append_cons_self]
        exact List.mem_append_left _ hw
      · exact (hfields w hw).imp_right (List.mem_append_right _)
    · rcases hends with hends | ⟨b, hb⟩
      · rw [hends, List.append_nil]
        exact Or.inr hs
      · exact Or.inr ⟨s ++ b, by rw [← hb, List.append_assoc]⟩

end Remaining

end Ick.Delimited
