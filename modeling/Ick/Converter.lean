import Mathlib.Data.List.DropRight
import Mathlib.Data.Int.Basic
import Mathlib.Tactic.SplitIfs
import Mathlib.Tactic.Linarith
import Mathlib.Tactic.Tauto

/-!
# Texts and numbers on the wire

`Converter` splits the received text at one separator and converts numbers to decimal
text, and the C library reads them back with `atoi`. A text is the list of its bytes,
each written as the `Char` of the same code.

`trim` reads `str[str.size() - 1]` also when its first loop has emptied `str`, which is
outside the string : `none` stands for that read, and `split` inherits it.

On a text without blanks `split` cuts at every separator, except that it drops an empty
last piece and turns the last separator of a text that ends in two into a piece of its
own (`split_of_noBlank`). `atoi` undoes `convertToString` on every `int`
(`atoi_convertToString`) and keeps the low 32 bits of a `long`
(`atoi_convertToString_long`).
-/

namespace Ick

/-- A `std::string`, the list of its bytes. -/
abbrev Str := List Char

namespace Converter

/-! ## Splitting -/

/-- `trim`; `none` for the read before the start of an emptied string. -/
def trim (s : Str) : Option Str :=
  if s = [] then some []
  else if s.dropWhile (· = ' ') = [] then none
  else some ((s.dropWhile (· = ' ')).rdropWhile (· = ' '))

/-- The loop of `split` and what follows it, for a one-character pattern, which is what
every caller passes. Each turn removes at least the separator, so `s.length` turns are
enough. -/
def splitLoop (pattern : Char) : ℕ → Str → Option (List Str)
  | 0, s => some (if s = [] then [] else [s])
  | fuel + 1, s =>
    if pattern ∈ s then
      match trim ((s.dropWhile (· ≠ pattern)).drop 1) with
      | none => none
      | some rest =>
        if rest = [pattern] then some [s.takeWhile (· ≠ pattern), [], rest]
        else (splitLoop pattern fuel rest).map (s.takeWhile (· ≠ pattern) :: ·)
    else some (if s = [] then [] else [s])

/-- `split` -/
def split (str : Str) (pattern : Char) : Option (List Str) :=
  match trim str with
  | none => none
  | some s => splitLoop pattern s.length s

theorem trim_of_noBlank {s : Str} (h : ' ' ∉ s) : trim s = some s := by
  unfold trim
  cases s with
  | nil => rfl
  | cons c s =>
    have hc : c ≠ ' ' := fun hc => h (by simp [hc])
    have hdrop : (c :: s).dropWhile (· = ' ') = c :: s := by
      simp [hc]
    have hlast : (c :: s).rdropWhile (· = ' ') = c :: s := by
      rw [List.rdropWhile_eq_self_iff]
      intro hne
      simpa using fun hl : (c :: s).getLast hne = ' ' => h (hl ▸ List.getLast_mem hne)
    rw [if_neg (by simp), hdrop, if_neg (by simp), hlast]

theorem length_le_of_trim {s t : Str} (h : trim s = some t) : t.length ≤ s.length := by
  unfold trim at h
  split_ifs at h with hs hd
  · simp only [Option.some.injEq] at h
    simp [← h]
  · simp only [Option.some.injEq] at h
    rw [← h]
    exact ((List.rdropWhile_prefix _ _).sublist.trans
      (List.dropWhile_suffix _).sublist).length_le

theorem takeWhile_append_cons {pattern : Char} {a : Str} (h : pattern ∉ a) (r : Str) :
    (a ++ pattern :: r).takeWhile (· ≠ pattern) = a := by
  rw [List.takeWhile_append_of_pos fun c hc => by
    simpa using fun heq : c = pattern => h (heq ▸ hc)]
  simp

theorem dropWhile_append_cons {pattern : Char} {a : Str} (h : pattern ∉ a) (r : Str) :
    (a ++ pattern :: r).dropWhile (· ≠ pattern) = pattern :: r := by
  rw [List.dropWhile_append_of_pos fun c hc => by
    simpa using fun heq : c = pattern => h (heq ▸ hc)]
  simp

theorem splitLoop_of_notMem {pattern : Char} {s : Str} (h : pattern ∉ s) (fuel : ℕ) :
    splitLoop pattern fuel s = some (if s = [] then [] else [s]) := by
  cases fuel <;> simp [splitLoop, h]

theorem splitLoop_append_cons {pattern : Char} {a : Str} (h : pattern ∉ a) (r : Str)
    (fuel : ℕ) : splitLoop pattern (fuel + 1) (a ++ pattern :: r) =
      match trim r with
      | none => none
      | some rest =>
        if rest = [pattern] then some [a, [], rest]
        else (splitLoop pattern fuel rest).map (a :: ·) := by
  rw [splitLoop, if_pos (by simp), dropWhile_append_cons h, takeWhile_append_cons h,
    List.drop_one, List.tail_cons]

/-- The texts between the separators of `s`, as `splitLoop` leaves them : an empty last
one is dropped, and of two empty last ones the second becomes the separator. -/
def tidy (pattern : Char) : List Str → List Str
  | [] => []
  | [x] => if x = [] then [] else [x]
  | x :: y :: rest =>
    if y = [] ∧ rest = [[]] then [x, [], [pattern]] else x :: tidy pattern (y :: rest)

theorem splitOn_eq_pair {pattern : Char} {s : Str} :
    s.splitOn pattern = [[], []] ↔ s = [pattern] := by
  constructor
  · intro h
    have hs : [pattern].intercalate (s.splitOn pattern) = s := List.intercalate_splitOn pattern
    rw [h] at hs
    simpa [List.intercalate] using hs.symm
  · rintro rfl
    simp [List.splitOn_cons_eq_if_modifyHead]

theorem tidy_cons_splitOn {pattern : Char} (a s : Str) :
    tidy pattern (a :: s.splitOn pattern) =
      if s = [pattern] then [a, [], s] else a :: tidy pattern (s.splitOn pattern) := by
  cases h : s.splitOn pattern with
  | nil => exact absurd h (List.splitOn_ne_nil _ _)
  | cons y rest =>
    have hiff : (y = [] ∧ rest = [[]]) ↔ s = [pattern] := by
      rw [← splitOn_eq_pair, h]
      simp
    rw [tidy]
    by_cases hs : s = [pattern]
    · rw [if_pos hs, if_pos (hiff.2 hs), hs]
    · rw [if_neg hs, if_neg (mt hiff.1 hs)]

theorem splitLoop_of_noBlank {pattern : Char} {fuel : ℕ} : ∀ {s : Str}, ' ' ∉ s →
    s.length ≤ fuel → splitLoop pattern fuel s = some (tidy pattern (s.splitOn pattern)) := by
  induction fuel with
  | zero =>
    intro s _ hlen
    have hs : s = [] := List.length_eq_zero_iff.1 (Nat.le_zero.1 hlen)
    subst hs
    rfl
  | succ fuel ih =>
    intro s hs hlen
    by_cases hp : pattern ∈ s
    · obtain ⟨a, r, rfl, ha⟩ := List.eq_append_cons_of_mem hp
      have hr : ' ' ∉ r := fun h => hs (by simp [h])
      have hlen' : r.length ≤ fuel := by
        simp only [List.length_append, List.length_cons] at hlen
        omega
      rw [splitLoop_append_cons ha, trim_of_noBlank hr,
        List.splitOn_append_cons_self_of_not_mem ha, tidy_cons_splitOn]
      simp only [ih hr hlen', Option.map_some]
      split_ifs <;> rfl
    · rw [splitLoop_of_notMem hp, List.splitOn_eq_singleton hp, tidy]

/-- Splitting a text without blanks. -/
theorem split_of_noBlank {pattern : Char} {s : Str} (h : ' ' ∉ s) :
    split s pattern = some (tidy pattern (s.splitOn pattern)) := by
  rw [split, trim_of_noBlank h]
  exact splitLoop_of_noBlank h le_rfl

/-- Whoever passes over empty pieces and over a lone separator does not see what `tidy`
does. -/
theorem filterMap_tidy {β : Type*} {pattern : Char} {f : Str → Option β} (hnil : f [] = none)
    (hsep : f [pattern] = none) (l : List Str) :
    (tidy pattern l).filterMap f = l.filterMap f := by
  induction l with
  | nil => rfl
  | cons x l ih =>
    cases l with
    | nil =>
      rw [tidy]
      split_ifs with hx
      · simp [hx, hnil]
      · rfl
    | cons y l =>
      rw [tidy]
      split_ifs with hxy
      · obtain ⟨rfl, rfl⟩ := hxy
        simp only [List.filterMap_cons, List.filterMap_nil, hnil, hsep]
      · cases hx : f x <;> simp only [List.filterMap_cons, hx, ih]

theorem mem_tidy {pattern : Char} {l : List Str} {x : Str} (h : x ∈ tidy pattern l) :
    x ∈ l ∨ x = [pattern] := by
  induction l with
  | nil => exact absurd h List.not_mem_nil
  | cons y l ih =>
    cases l with
    | nil =>
      rw [tidy] at h
      split_ifs at h
      · exact absurd h List.not_mem_nil
      · exact Or.inl h
    | cons z l =>
      rw [tidy] at h
      split_ifs at h with hxy
      · obtain ⟨rfl, rfl⟩ := hxy
        simp only [List.mem_cons, List.not_mem_nil, or_false] at h ⊢
        tauto
      · rcases List.mem_cons.1 h with rfl | h
        · exact Or.inl List.mem_cons_self
        · exact (ih h).imp_left (List.mem_cons_of_mem _)

theorem tidy_splitOn_ne_nil {pattern : Char} {s : Str} (hs : s ≠ []) :
    tidy pattern (s.splitOn pattern) ≠ [] := by
  by_cases hp : pattern ∈ s
  · obtain ⟨a, r, rfl, ha⟩ := List.eq_append_cons_of_mem hp
    rw [List.splitOn_append_cons_self_of_not_mem ha, tidy_cons_splitOn]
    split_ifs <;> exact List.cons_ne_nil _ _
  · rw [List.splitOn_eq_singleton hp, tidy, if_neg hs]
    exact List.cons_ne_nil _ _

/-- Nothing is dropped from pieces of which the last is not empty. -/
theorem tidy_concat {pattern : Char} {x : Str} (hx : x ≠ []) (l : List Str) :
    tidy pattern (l ++ [x]) = l ++ [x] := by
  induction l with
  | nil => simp [tidy, hx]
  | cons y l ih =>
    cases l with
    | nil => simp [tidy, hx]
    | cons z l =>
      rw [List.cons_append, List.cons_append, tidy, if_neg, ← List.cons_append, ih,
        ← List.cons_append]
      rintro ⟨-, hlast⟩
      have := congrArg List.getLast? hlast
      simp [hx] at this

theorem trim_eq_none {s : Str} (h : trim s = none) : s ≠ [] ∧ ∀ c ∈ s, c = ' ' := by
  unfold trim at h
  split_ifs at h with hs hd
  exact ⟨hs, by simpa using List.dropWhile_eq_nil_iff.1 hd⟩

/-- A text without the blanks at its end does not end in a blank. -/
theorem getLast?_rdropWhile (s : Str) : (s.rdropWhile (· = ' ')).getLast? ≠ some ' ' := by
  intro hlast
  obtain ⟨hne, hget⟩ := List.mem_getLast?_eq_getLast (Option.mem_def.2 hlast)
  have := List.rdropWhile_last_not (fun c => decide (c = ' ')) _ hne
  simp [hget.symm] at this

/-- A text that does not end in a blank has none to be dropped at its end. -/
theorem rdropWhile_of_getLast? {s : Str} (h : s.getLast? ≠ some ' ') :
    s.rdropWhile (· = ' ') = s := by
  rw [List.rdropWhile_eq_self_iff]
  intro hne
  simpa [List.getLast?_eq_some_getLast hne] using h

/-- What `trim` leaves is empty or does not end in a blank. -/
theorem getLast?_trim {s t : Str} (h : trim s = some t) : t.getLast? ≠ some ' ' := by
  unfold trim at h
  split_ifs at h with hs hd <;> simp only [Option.some.injEq] at h <;> subst h
  · simp
  · exact getLast?_rdropWhile _

/-- `splitLoop` never reads outside : what is left of a text that does not end in a blank
is empty or does not end in one either. -/
theorem splitLoop_ne_none {pattern : Char} {fuel : ℕ} : ∀ {s : Str}, s.getLast? ≠ some ' ' →
    splitLoop pattern fuel s ≠ none := by
  induction fuel with
  | zero => exact fun _ => Option.some_ne_none _
  | succ fuel ih =>
    intro s hs
    by_cases hp : pattern ∈ s
    · obtain ⟨a, r, rfl, ha⟩ := List.eq_append_cons_of_mem hp
      rw [splitLoop_append_cons ha]
      cases ht : trim r with
      | none =>
        obtain ⟨hne, hall⟩ := trim_eq_none ht
        refine absurd ?_ hs
        rw [List.getLast?_append_of_ne_nil _ (List.cons_ne_nil _ _),
          List.getLast?_cons_of_ne_nil hne, List.getLast?_eq_some_getLast hne,
          hall _ (List.getLast_mem hne)]
      | some rest =>
        simp only
        split_ifs
        · exact Option.some_ne_none _
        · simpa using ih (getLast?_trim ht)
    · rw [splitLoop_of_notMem hp]
      exact Option.some_ne_none _

/-- Splitting a text that is not all blanks. -/
theorem split_ne_none {pattern : Char} {s : Str} (h : ∃ c ∈ s, c ≠ ' ') :
    split s pattern ≠ none := by
  unfold split
  cases ht : trim s with
  | none =>
    obtain ⟨c, hc, hne⟩ := h
    exact absurd ((trim_eq_none ht).2 c hc) hne
  | some t => exact splitLoop_ne_none (getLast?_trim ht)

/-- `trim` leaves a text alone that neither begins nor ends with a blank. -/
theorem trim_of_ends {s : Str} (hhead : s.head? ≠ some ' ') (hlast : s.getLast? ≠ some ' ') :
    trim s = some s := by
  cases s with
  | nil => rfl
  | cons c s =>
    have hc : c ≠ ' ' := fun hc => hhead (by simp [hc])
    have hdrop : (c :: s).dropWhile (· = ' ') = c :: s := by simp [hc]
    rw [trim, if_neg (List.cons_ne_nil _ _), hdrop, if_neg (List.cons_ne_nil _ _),
      rdropWhile_of_getLast? hlast]

/-- What `trim` leaves does not begin with a blank. -/
theorem head?_trim {s t : Str} (h : trim s = some t) : t.head? ≠ some ' ' := by
  unfold trim at h
  split_ifs at h with hs hd <;> simp only [Option.some.injEq] at h <;> subst h
  · simp
  · have hhead : (s.dropWhile (· = ' ')).head? ≠ some ' ' := by
      have := List.head?_dropWhile_not (fun c => decide (c = ' ')) s
      intro hsome
      rw [hsome] at this
      simp at this
    intro hsome
    obtain ⟨r, hr⟩ := List.rdropWhile_prefix (fun c => decide (c = ' '))
      (s.dropWhile (· = ' '))
    refine hhead ?_
    rw [← hr, List.head?_append, hsome]
    rfl

theorem mem_of_trim {s t : Str} (h : trim s = some t) {x : Char} (hx : x ∈ t) : x ∈ s := by
  unfold trim at h
  split_ifs at h with hs hd <;> simp only [Option.some.injEq] at h <;> subst h
  · exact absurd hx List.not_mem_nil
  · exact (List.dropWhile_suffix _).subset ((List.rdropWhile_prefix _ _).subset hx)

/-- `trim` of a text that does not begin with a blank drops those at its end. -/
theorem trim_of_head? {s : Str} (h : s.head? ≠ some ' ') :
    trim s = some (s.rdropWhile (· = ' ')) := by
  cases s with
  | nil => rfl
  | cons c s =>
    have hc : c ≠ ' ' := fun hc => h (by simp [hc])
    have hdrop : (c :: s).dropWhile (· = ' ') = c :: s := by simp [hc]
    rw [trim, if_neg (List.cons_ne_nil _ _), hdrop, if_neg (List.cons_ne_nil _ _)]

/-- `trim` of a text that does not end in a blank drops those that it begins with. -/
theorem trim_of_getLast? {s : Str} (h : s.getLast? ≠ some ' ') :
    trim s = some (s.dropWhile (· = ' ')) := by
  unfold trim
  split_ifs with hs hd
  · rw [hs]
    rfl
  · have hblank := List.dropWhile_eq_nil_iff.1 hd _ (List.getLast_mem hs)
    rw [decide_eq_true_eq] at hblank
    exact absurd (by rw [List.getLast?_eq_some_getLast hs, hblank]) h
  · have hlast : (s.dropWhile (· = ' ')).getLast? = s.getLast? := by
      obtain ⟨t, ht⟩ := List.dropWhile_suffix (l := s) fun c => decide (c = ' ')
      conv_rhs => rw [← ht]
      exact (List.getLast?_append_of_ne_nil _ hd).symm
    rw [rdropWhile_of_getLast? (hlast ▸ h)]

/-- Splitting does not see the blanks that `trim` drops. -/
theorem split_of_trim {pattern : Char} {s t : Str} (h : trim s = some t) :
    split s pattern = split t pattern := by
  rw [split, split, h, trim_of_ends (head?_trim h) (getLast?_trim h)]

/-- Blanks are dropped at the end of a text only up to something else. -/
theorem rdropWhile_append_cons {c : Char} (hc : c ≠ ' ') (a b : Str) :
    (a ++ c :: b).rdropWhile (· = ' ') = a ++ c :: b.rdropWhile (· = ' ') := by
  induction b using List.reverseRecOn with
  | nil => rw [List.rdropWhile_concat_neg _ _ _ (by simpa using hc), List.rdropWhile_nil]
  | append_singleton b x ih =>
    rw [← List.cons_append, ← List.append_assoc]
    by_cases hx : x = ' '
    · rw [List.rdropWhile_concat_pos _ _ _ (by simpa using hx),
        List.rdropWhile_concat_pos _ _ _ (by simpa using hx), ih]
    · rw [List.rdropWhile_concat_neg _ _ _ (by simpa using hx),
        List.rdropWhile_concat_neg _ _ _ (by simpa using hx), List.append_assoc, List.cons_append]

/-- Enough turns are as good as more. -/
theorem splitLoop_mono {pattern : Char} {fuel fuel' : ℕ} (hle : fuel ≤ fuel') : ∀ {s : Str},
    s.length ≤ fuel → splitLoop pattern fuel' s = splitLoop pattern fuel s := by
  induction fuel generalizing fuel' with
  | zero =>
    intro s hs
    have hnil : s = [] := List.length_eq_zero_iff.1 (Nat.le_zero.1 hs)
    subst hnil
    rw [splitLoop_of_notMem List.not_mem_nil, splitLoop_of_notMem List.not_mem_nil]
  | succ fuel ih =>
    intro s hs
    obtain ⟨fuel', rfl⟩ := Nat.exists_eq_add_of_le' (Nat.one_le_of_lt hle)
    by_cases hp : pattern ∈ s
    · obtain ⟨a, r, rfl, ha⟩ := List.eq_append_cons_of_mem hp
      rw [splitLoop_append_cons ha, splitLoop_append_cons ha]
      cases ht : trim r with
      | none => rfl
      | some rest =>
        have hlen := length_le_of_trim ht
        simp only [List.length_append, List.length_cons] at hs
        simp only [ih (Nat.le_of_succ_le_succ hle) (show rest.length ≤ fuel by omega)]
    · rw [splitLoop_of_notMem hp, splitLoop_of_notMem hp]

/-- The first field of a text, and the fields behind it, unless these are a lone separator. -/
theorem split_append_cons_of_trim {pattern : Char} {a r rest : Str} (ha : pattern ∉ a)
    (hhead : (a ++ pattern :: r).head? ≠ some ' ')
    (hlast : (a ++ pattern :: r).getLast? ≠ some ' ') (hrest : trim r = some rest)
    (hr : rest ≠ [pattern]) :
    split (a ++ pattern :: r) pattern = (split r pattern).map (a :: ·) := by
  have hlen := length_le_of_trim hrest
  obtain ⟨n, hn⟩ : ∃ n, (a ++ pattern :: r).length = n + 1 ∧ rest.length ≤ n :=
    ⟨a.length + r.length, by simp; omega, by omega⟩
  rw [split, trim_of_ends hhead hlast, split, hrest]
  simp only [hn.1, splitLoop_append_cons ha, hrest, if_neg hr, splitLoop_mono hn.2 le_rfl]

/-- What stands behind a separator ends as the whole text does. -/
theorem getLast?_of_append_cons {pattern : Char} {a r : Str}
    (hlast : (a ++ pattern :: r).getLast? ≠ some ' ') : r.getLast? ≠ some ' ' := by
  intro hb
  have hne : r ≠ [] := by
    rintro rfl
    simp at hb
  refine hlast ?_
  rw [List.getLast?_append_of_ne_nil _ (List.cons_ne_nil _ _),
    List.getLast?_cons_of_ne_nil hne, hb]

/-- A lone separator behind the first field becomes a field. -/
theorem split_append_pattern {pattern : Char} {a : Str} (ha : pattern ∉ a)
    (hpattern : pattern ≠ ' ') (hhead : (a ++ [pattern, pattern]).head? ≠ some ' ') :
    split (a ++ [pattern, pattern]) pattern = some [a, [], [pattern]] := by
  have hlone : trim [pattern] = some [pattern] :=
    trim_of_ends (by simpa using hpattern) (by simpa using hpattern)
  have hlast : (a ++ [pattern, pattern]).getLast? ≠ some ' ' := by
    rw [List.getLast?_append_of_ne_nil _ (List.cons_ne_nil _ _)]
    simpa using hpattern
  rw [split, trim_of_ends hhead hlast]
  simp only [List.length_append, List.length_cons, List.length_nil, Nat.add_succ,
    splitLoop_append_cons ha, hlone, if_true]

theorem split_append_cons {pattern : Char} {a r : Str} (ha : pattern ∉ a)
    (hhead : (a ++ pattern :: r).head? ≠ some ' ')
    (hlast : (a ++ pattern :: r).getLast? ≠ some ' ') (hrhead : r.head? ≠ some ' ')
    (hr : r ≠ [pattern]) :
    split (a ++ pattern :: r) pattern = (split r pattern).map (a :: ·) :=
  split_append_cons_of_trim ha hhead hlast
    (trim_of_ends hrhead (getLast?_of_append_cons hlast)) hr

/-- The first field of a text that is split. -/
theorem split_head {pattern : Char} {a r : Str} {l : List Str} (ha : pattern ∉ a)
    (hpattern : pattern ≠ ' ') (hhead : (a ++ pattern :: r).head? ≠ some ' ')
    (h : split (a ++ pattern :: r) pattern = some l) : ∃ l', l = a :: l' := by
  obtain ⟨a', ht⟩ : ∃ a', trim (a ++ pattern :: r) = some (a ++ pattern :: a') := by
    have hdrop : (a ++ pattern :: r).dropWhile (· = ' ') = a ++ pattern :: r := by
      cases a with
      | nil => simp [hpattern]
      | cons c a => simpa using hhead
    have hsplit : (a ++ pattern :: r).rdropWhile (· = ' ') ++
        (a ++ pattern :: r).rtakeWhile (· = ' ') = a ++ pattern :: r :=
      List.rdropWhile_append_rtakeWhile
    have hblank : pattern ∉ (a ++ pattern :: r).rtakeWhile (· = ' ') := fun hmem =>
      hpattern (by simpa using List.mem_rtakeWhile_imp hmem)
    have hne : a ++ pattern :: r ≠ [] := by simp
    rw [trim, if_neg hne, hdrop, if_neg hne]
    rcases List.append_eq_append_iff.1 hsplit with ⟨b, hb, hrest⟩ | ⟨b, hb, hrest⟩
    · exact absurd (hrest ▸ List.mem_append_right _ List.mem_cons_self) hblank
    · cases b with
      | nil => exact absurd (by rw [← List.nil_append (List.rtakeWhile _ _), ← hrest]; simp) hblank
      | cons c b =>
        obtain ⟨rfl, -⟩ := List.cons.inj hrest
        exact ⟨b, by rw [hb]⟩
  obtain ⟨n, hn⟩ : ∃ n, (a ++ pattern :: a').length = n + 1 :=
    ⟨a.length + a'.length, by simp; omega⟩
  unfold split at h
  simp only [ht, hn, splitLoop_append_cons ha] at h
  cases hrest : trim a' with
  | none => simp [hrest] at h
  | some rest =>
    simp only [hrest] at h
    split_ifs at h
    · exact ⟨_, (Option.some.inj h).symm⟩
    · obtain ⟨l', -, hl'⟩ := Option.map_eq_some_iff.1 h
      exact ⟨l', hl'.symm⟩

/-- A text without the separator is its only field. -/
theorem split_of_notMem {pattern : Char} {s : Str} (hp : pattern ∉ s) (hs : s ≠ [])
    (hhead : s.head? ≠ some ' ') (hlast : s.getLast? ≠ some ' ') :
    split s pattern = some [s] := by
  rw [split, trim_of_ends hhead hlast]
  simp only [splitLoop_of_notMem hp, if_neg hs]

/-- What the fields of a text are made of : bytes of the text, and no separator, unless the
field is a lone one; and none begins with a blank. -/
theorem splitLoop_fields {pattern : Char} {fuel : ℕ} : ∀ {s : Str} {l : List Str},
    s.length ≤ fuel → s.head? ≠ some ' ' → splitLoop pattern fuel s = some l → ∀ x ∈ l,
    (∀ c ∈ x, c ∈ s) ∧ (pattern ∉ x ∨ x = [pattern]) ∧ x.head? ≠ some ' ' := by
  induction fuel with
  | zero =>
    intro s l hs _ hl
    have hnil : s = [] := List.length_eq_zero_iff.1 (Nat.le_zero.1 hs)
    subst hnil
    obtain rfl := Option.some.inj hl
    simp
  | succ fuel ih =>
    intro s l hs hhead hl x hx
    by_cases hp : pattern ∈ s
    · obtain ⟨a, r, rfl, ha⟩ := List.eq_append_cons_of_mem hp
      have hfirst : (∀ c ∈ a, c ∈ a ++ pattern :: r) ∧ (pattern ∉ a ∨ a = [pattern]) ∧
          a.head? ≠ some ' ' := by
        refine ⟨fun c hc => List.mem_append_left _ hc, Or.inl ha, ?_⟩
        cases a with
        | nil => simp
        | cons c a => simpa using hhead
      rw [splitLoop_append_cons ha] at hl
      cases ht : trim r with
      | none => simp [ht] at hl
      | some rest =>
        have hmem : ∀ c ∈ rest, c ∈ a ++ pattern :: r := fun c hc =>
          List.mem_append_right _ (List.mem_cons_of_mem _ (mem_of_trim ht hc))
        have hlen := length_le_of_trim ht
        simp only [List.length_append, List.length_cons] at hs
        simp only [ht] at hl
        split_ifs at hl with hrest
        · obtain rfl := Option.some.inj hl
          simp only [List.mem_cons, List.not_mem_nil, or_false] at hx
          rcases hx with rfl | rfl | rfl
          · exact hfirst
          · simp
          · exact ⟨hmem, Or.inr hrest, head?_trim ht⟩
        · obtain ⟨l, hl', rfl⟩ := Option.map_eq_some_iff.1 hl
          rcases List.mem_cons.1 hx with rfl | hx
          · exact hfirst
          · obtain ⟨hsub, hrest⟩ :=
              ih (show rest.length ≤ fuel by omega) (head?_trim ht) hl' x hx
            exact ⟨fun c hc => hmem c (hsub c hc), hrest⟩
    · rw [splitLoop_of_notMem hp] at hl
      obtain rfl := Option.some.inj hl
      split_ifs at hx with hnil
      · exact absurd hx List.not_mem_nil
      · obtain rfl := List.mem_singleton.1 hx
        exact ⟨fun c hc => hc, Or.inl hp, hhead⟩

/-- The same of `split`. -/
theorem split_fields {pattern : Char} {s : Str} {l : List Str} (h : split s pattern = some l)
    {x : Str} (hx : x ∈ l) :
    (∀ c ∈ x, c ∈ s) ∧ (pattern ∉ x ∨ x = [pattern]) ∧ x.head? ≠ some ' ' := by
  unfold split at h
  cases ht : trim s with
  | none => simp [ht] at h
  | some t =>
    simp only [ht] at h
    obtain ⟨hsub, hrest⟩ := splitLoop_fields le_rfl (head?_trim ht) h x hx
    exact ⟨fun c hc => mem_of_trim ht (hsub c hc), hrest⟩

theorem ends_of_noBlank {s : Str} (h : ' ' ∉ s) :
    s.head? ≠ some ' ' ∧ s.getLast? ≠ some ' ' :=
  ⟨fun hb => h (List.mem_of_mem_head? (Option.mem_def.2 hb)),
    fun hb => h (List.mem_of_mem_getLast? (Option.mem_def.2 hb))⟩

/-- Fields that are joined with separators are split again, if none contains a separator or
begins with a blank, and the last is not empty and does not end with a blank. -/
theorem split_flatMap_append {pattern : Char} (hpattern : pattern ≠ ' ') {last : Str}
    (hlast : last ≠ []) (hsep : pattern ∉ last) (hhead : last.head? ≠ some ' ')
    (hend : last.getLast? ≠ some ' ') {l : List Str}
    (h : ∀ x ∈ l, pattern ∉ x ∧ x.head? ≠ some ' ') :
    split (l.flatMap (· ++ [pattern]) ++ last) pattern = some (l ++ [last]) := by
  have hends : ∀ l : List Str, (l.flatMap (· ++ [pattern]) ++ last).getLast? = last.getLast? :=
    fun l => List.getLast?_append_of_ne_nil _ hlast
  induction l with
  | nil => exact split_of_notMem hsep hlast hhead hend
  | cons x l ih =>
    have hl : ∀ x ∈ l, pattern ∉ x ∧ x.head? ≠ some ' ' := fun x hx =>
      h x (List.mem_cons_of_mem _ hx)
    obtain ⟨hx, hxhead⟩ := h x List.mem_cons_self
    have hxr : ∀ r : Str, (x ++ pattern :: r).head? ≠ some ' ' := by
      intro r
      cases x with
      | nil => simpa using hpattern
      | cons c x => simpa using hxhead
    have hrhead : (l.flatMap (· ++ [pattern]) ++ last).head? ≠ some ' ' := by
      cases l with
      | nil => exact hhead
      | cons y l =>
        obtain ⟨-, hyhead⟩ := hl y List.mem_cons_self
        cases y with
        | nil => simpa using hpattern
        | cons c y => simpa using hyhead
    have hr : l.flatMap (· ++ [pattern]) ++ last ≠ [pattern] := by
      intro heq
      have hlast' := hends l
      rw [heq] at hlast'
      exact hsep (List.mem_of_mem_getLast? (Option.mem_def.2 hlast'.symm))
    have htext : (x :: l).flatMap (· ++ [pattern]) ++ last =
        x ++ pattern :: (l.flatMap (· ++ [pattern]) ++ last) := by simp
    have hwhole := hends (x :: l)
    rw [htext] at hwhole ⊢
    rw [split_append_cons hx (hxr _) (by rw [hwhole]; exact hend) hrhead hr, ih hl]
    rfl

/-! ## Numbers -/

/-- `convertToString(int)`, `convertToString(long)` -/
def convertToString : ℤ → Str
  | .ofNat n => Nat.toDigits 10 n
  | .negSucc n => '-' :: Nat.toDigits 10 (n + 1)

/-- `isspace` in the C locale. -/
def isSpace (c : Char) : Bool :=
  c ∈ [' ', '\t', '\n', '\x0b', '\x0c', '\r']

/-- The nearest value of a 64-bit `long`. -/
def clampLong (z : ℤ) : ℤ :=
  max (-2 ^ 63) (min z (2 ^ 63 - 1))

/-- The number at the start of a text. -/
def leadingNat (s : Str) : ℕ :=
  Nat.ofDigitChars 10 (s.takeWhile Char.isDigit) 0

/-- `strtol(s, NULL, 10)`, which saturates. -/
def strtol (s : Str) : ℤ :=
  match s.dropWhile isSpace with
  | '-' :: s => clampLong (-(leadingNat s : ℤ))
  | '+' :: s => clampLong (leadingNat s)
  | s => clampLong (leadingNat s)

/-- `atoi` : `strtol` cast to `int`, which keeps the low 32 bits. -/
def atoi (s : Str) : ℤ :=
  (strtol s).bmod (2 ^ 32)

theorem atoi_lt (s : Str) : atoi s < 2 ^ 31 := by
  have := Int.bmod_lt (x := strtol s) (m := 2 ^ 32) (by decide)
  rw [atoi]
  omega

theorem leadingNat_toDigits (n : ℕ) : leadingNat (Nat.toDigits 10 n) = n := by
  have hall : ∀ c ∈ Nat.toDigits 10 n, c.isDigit = true := fun c hc =>
    Nat.isDigit_of_mem_toDigits (by decide) le_rfl hc
  rw [leadingNat, List.takeWhile_eq_self_iff.2 hall, Nat.ofDigitChars_ten_toDigits]

theorem not_isSpace_of_isDigit {c : Char} (hc : c.isDigit = true) : isSpace c = false := by
  by_contra h
  simp only [isSpace, Bool.not_eq_false, decide_eq_true_eq, List.mem_cons, List.not_mem_nil,
    or_false] at h
  rcases h with rfl | rfl | rfl | rfl | rfl | rfl <;> revert hc <;> decide

theorem strtol_digits {c : Char} {s : Str} (hc : c.isDigit = true) :
    strtol (c :: s) = clampLong (leadingNat (c :: s)) := by
  rw [strtol, List.dropWhile_cons_of_neg (by simp [not_isSpace_of_isDigit hc])]
  split
  · next heq =>
    obtain ⟨rfl, -⟩ := List.cons.inj heq
    exact absurd hc (by decide)
  · next heq =>
    obtain ⟨rfl, -⟩ := List.cons.inj heq
    exact absurd hc (by decide)
  · rfl

theorem strtol_convertToString (z : ℤ) : strtol (convertToString z) = clampLong z := by
  cases z with
  | ofNat n =>
    obtain ⟨c, s, hs⟩ := List.exists_cons_of_ne_nil (Nat.toDigits_ne_nil (n := n) (b := 10))
    have hc : c.isDigit = true :=
      Nat.isDigit_of_mem_toDigits (b := 10) (n := n) (by decide) le_rfl (by simp [hs])
    rw [convertToString, hs, strtol_digits hc, ← hs, leadingNat_toDigits]
    rfl
  | negSucc n =>
    have hspace : isSpace '-' = false := by decide
    rw [convertToString, strtol, List.dropWhile_cons_of_neg (by simp [hspace])]
    simp only [leadingNat_toDigits]
    rfl

/-- Reading a `long` back with `atoi` keeps its low 32 bits. -/
theorem atoi_convertToString_long {z : ℤ} (hlo : -2 ^ 63 ≤ z) (hhi : z < 2 ^ 63) :
    atoi (convertToString z) = z.bmod (2 ^ 32) := by
  rw [atoi, strtol_convertToString, clampLong, min_eq_left (by omega), max_eq_right (by omega)]

/-- Reading an `int` back with `atoi`. -/
theorem atoi_convertToString {z : ℤ} (hlo : -2 ^ 31 ≤ z) (hhi : z < 2 ^ 31) :
    atoi (convertToString z) = z := by
  rw [atoi_convertToString_long (by omega) (by omega)]
  exact Int.bmod_eq_of_le (by omega) (by omega)

/-- The bytes of a number's text : digits and a sign. -/
theorem isDigit_of_mem_convertToString {z : ℤ} {c : Char} (hc : c ∈ convertToString z) :
    c.isDigit = true ∨ c = '-' := by
  cases z with
  | ofNat n => exact Or.inl (Nat.isDigit_of_mem_toDigits (by decide) le_rfl hc)
  | negSucc n =>
    rcases List.mem_cons.1 hc with rfl | hc
    · exact Or.inr rfl
    · exact Or.inl (Nat.isDigit_of_mem_toDigits (by decide) le_rfl hc)

theorem notMem_convertToString {z : ℤ} {c : Char} (hdigit : c.isDigit = false)
    (hminus : c ≠ '-') : c ∉ convertToString z := by
  intro hc
  rcases isDigit_of_mem_convertToString hc with h | h
  · rw [hdigit] at h
    exact Bool.false_ne_true h
  · exact hminus h

theorem convertToString_ne_nil (z : ℤ) : convertToString z ≠ [] := by
  cases z with
  | ofNat n => exact Nat.toDigits_ne_nil
  | negSucc n => exact List.cons_ne_nil _ _

end Converter

end Ick
