import Ick.Converter

/-!
# The fields of a text

`Converter::split` has a second version, which appends the fields to the caller's vector and
counts them. Both trim what is left behind every separator, and both leave the loop when
nothing but a separator is left : they add an empty field for what is before it, and then the
separator itself, as any other last field.

So a field is a separator exactly if the text ends in two separators, with nothing but blanks
between and behind them (`EndsTwice`, `splitLoop_of_endsTwice`). Of all other texts the fields
are without separators, and there is one for each separator and one for the text behind the
last of them (`splitLoop_of_not_endsTwice`). The two versions agree on every text, but for
the `int` that the second one counts with (`splitInto_eq`).
-/

namespace Ick.Converter

/-! ## The second version -/

/-- The value as an `int`. -/
def asInt (z : ℤ) : ℤ := z.bmod (2 ^ 32)

/-- What follows the loop of the second version, with the vector and the count. -/
def pushRest (s : Str) (vec : List Str) (count : ℤ) : List Str × ℤ :=
  if s = [] then (vec, count) else (vec ++ [s], asInt (count + 1))

/-- The loop of the second version and what follows it. -/
def splitIntoLoop (pattern : Char) : ℕ → Str → List Str → ℤ → Option (List Str × ℤ)
  | 0, s, vec, count => some (pushRest s vec count)
  | fuel + 1, s, vec, count =>
    if pattern ∈ s then
      let tmp := s.takeWhile (· ≠ pattern)
      match trim ((s.dropWhile (· ≠ pattern)).drop 1) with
      | none => none
      | some rest =>
        if rest = [pattern] then
          some (pushRest rest (vec ++ [tmp] ++ [[]]) (asInt (asInt (count + 1) + 1)))
        else splitIntoLoop pattern fuel rest (vec ++ [tmp]) (asInt (count + 1))
    else some (pushRest s vec count)

/-- `split` with a vector, `none` for a null pointer. -/
def splitInto (str : Str) (pattern : Char) (vec : Option (List Str)) :
    Option (Option (List Str) × ℤ) :=
  match vec with
  | none => some (none, 0)
  | some vec =>
    match trim str with
    | none => none
    | some s => (splitIntoLoop pattern s.length s vec 0).map fun (vec, count) => (some vec, count)

/-- The text ends in two separators, but for blanks. -/
def EndsTwice (pattern : Char) (str : Str) : Prop :=
  ∃ a m n, str = a ++ pattern :: (List.replicate m ' ' ++ pattern :: List.replicate n ' ')

/-- The number of fields : one for each separator, and one for the text behind the last of
them, unless that is empty. -/
def fieldCount (pattern : Char) (s : Str) : ℕ :=
  s.count pattern + if s.rtakeWhile (· ≠ pattern) = [] then 0 else 1

/-- The fields of a text are without separators and as many as there should be, and the
second version appends the same and returns their number. -/
def SplitsCleanly (str : Str) (pattern : Char) : Prop :=
  ∃ s fields, trim str = some s ∧ split str pattern = some fields ∧
    (∀ field ∈ fields, pattern ∉ field) ∧ fields.length = fieldCount pattern s ∧
    ∀ vec, splitInto str pattern (some vec) = some (some (vec ++ fields), (fields.length : ℤ))

@[simp] theorem asInt_zero : asInt 0 = 0 := by decide

@[simp] theorem asInt_asInt_add (z w : ℤ) : asInt (asInt z + w) = asInt (z + w) :=
  Int.bmod_add_bmod

theorem asInt_eq_self_iff {n : ℕ} : asInt n = n ↔ n < 2 ^ 31 := by
  constructor
  · intro h
    have hlt := Int.bmod_lt (x := (n : ℤ)) (m := 2 ^ 32) (by decide)
    rw [asInt] at h
    omega
  · intro h
    exact Int.bmod_eq_of_le (by omega) (by omega)

theorem pushRest_eq (s : Str) (vec : List Str) (count : ℤ) :
    pushRest s vec (asInt count) =
      (vec ++ (if s = [] then [] else [s]),
        asInt (count + (if s = [] then [] else [s] : List Str).length)) := by
  unfold pushRest
  split_ifs <;> simp

/-- The loops agree, and what the count says is the number of fields as an `int`. -/
theorem splitIntoLoop_eq (pattern : Char) {fuel : ℕ} : ∀ (s : Str) (vec : List Str) (count : ℤ),
    splitIntoLoop pattern fuel s vec (asInt count) =
      (splitLoop pattern fuel s).map fun fields =>
        (vec ++ fields, asInt (count + fields.length)) := by
  induction fuel with
  | zero =>
    intro s vec count
    rw [splitIntoLoop, splitLoop, pushRest_eq, Option.map_some]
  | succ fuel ih =>
    intro s vec count
    unfold splitIntoLoop splitLoop
    by_cases hp : pattern ∈ s
    · rw [if_pos hp, if_pos hp]
      cases trim ((s.dropWhile (· ≠ pattern)).drop 1) with
      | none => rfl
      | some rest =>
        simp only [asInt_asInt_add]
        by_cases hrest : rest = [pattern]
        · rw [if_pos hrest, if_pos hrest, pushRest_eq, hrest]
          simp [add_assoc]
        · rw [if_neg hrest, if_neg hrest, ih, Option.map_map]
          congr 1
          funext fields
          simp [add_assoc, add_comm (1 : ℤ)]
    · rw [if_neg hp, if_neg hp, pushRest_eq, Option.map_some]

/-- The two versions agree. -/
theorem splitInto_eq (str : Str) (pattern : Char) (vec : List Str) :
    splitInto str pattern (some vec) =
      (split str pattern).map fun fields => (some (vec ++ fields), asInt fields.length) := by
  unfold splitInto split
  cases trim str with
  | none => rfl
  | some s =>
    have hloop := @splitIntoLoop_eq pattern s.length s vec 0
    rw [asInt_zero] at hloop
    simp only [hloop, zero_add]
    rw [Option.map_map, Function.comp_def]

/-! ## What is behind a separator -/

variable {pattern : Char}

theorem exists_eq_replicate {s : Str} (h : ∀ c ∈ s, c = ' ') : ∃ n, s = List.replicate n ' ' :=
  ⟨s.length, List.eq_replicate_iff.2 ⟨rfl, h⟩⟩

/-- `trim` drops the blanks around a text. -/
theorem exists_of_trim {str s : Str} (h : trim str = some s) :
    ∃ k j, str = List.replicate k ' ' ++ (s ++ List.replicate j ' ') := by
  unfold trim at h
  split_ifs at h with hstr hd <;> obtain rfl := Option.some.inj h
  · exact ⟨0, 0, by rw [hstr]; rfl⟩
  · have hfront : ∀ c ∈ str.takeWhile (· = ' '), c = ' ' := fun c hc => by
      simpa using List.mem_takeWhile_imp hc
    have hback : ∀ c ∈ (str.dropWhile (· = ' ')).rtakeWhile (· = ' '), c = ' ' := fun c hc => by
      simpa using List.mem_rtakeWhile_imp hc
    obtain ⟨k, hk⟩ := exists_eq_replicate hfront
    obtain ⟨j, hj⟩ := exists_eq_replicate hback
    refine ⟨k, j, ?_⟩
    rw [← hk, ← hj, List.rdropWhile_append_rtakeWhile, List.takeWhile_append_dropWhile]

/-- Those in front of it, if it does not end in one. -/
theorem exists_eq_replicate_append {r rest : Str} (hlast : r.getLast? ≠ some ' ')
    (h : trim r = some rest) : ∃ k, r = List.replicate k ' ' ++ rest := by
  obtain ⟨k, j, rfl⟩ := exists_of_trim h
  cases j with
  | zero => exact ⟨k, by simp⟩
  | succ j =>
    refine absurd ?_ hlast
    rw [List.replicate_succ', ← List.append_assoc, ← List.append_assoc, List.getLast?_concat]

theorem dropWhile_blank_append_cons (hpattern : pattern ≠ ' ') (b w : Str) :
    (b ++ pattern :: w).dropWhile (· = ' ') = b.dropWhile (· = ' ') ++ pattern :: w := by
  have hw : (pattern :: w).dropWhile (· = ' ') = pattern :: w :=
    List.dropWhile_cons_of_neg (by simpa using hpattern)
  rw [List.dropWhile_append, hw]
  split_ifs with hb
  · rw [List.isEmpty_iff.1 hb, List.nil_append]
  · rfl

/-- A separator of a text is the first one or behind it. -/
theorem suffix_of_append_cons {a r b w : Str} (ha : pattern ∉ a)
    (h : a ++ pattern :: r = b ++ pattern :: w) : r = w ∨ ∃ b', r = b' ++ pattern :: w := by
  rcases List.append_eq_append_iff.1 h with ⟨x, -, hx⟩ | ⟨x, hax, hx⟩
  · cases x with
    | nil => exact Or.inl (List.cons.inj hx).2
    | cons c x => exact Or.inr ⟨x, (List.cons.inj hx).2⟩
  · cases x with
    | nil => exact Or.inl (List.cons.inj hx).2.symm
    | cons c x =>
      obtain ⟨rfl, -⟩ := List.cons.inj hx
      exact absurd (hax ▸ List.mem_append_right _ List.mem_cons_self) ha

/-- A text ends in two separators if a separator is left behind its first one, or a text that
ends in two. -/
theorem endsTwice_append_cons (hpattern : pattern ≠ ' ') {a r rest : Str} (ha : pattern ∉ a)
    (hlast : r.getLast? ≠ some ' ') (hrest : trim r = some rest) :
    EndsTwice pattern (a ++ pattern :: r) ↔ rest = [pattern] ∨ EndsTwice pattern rest := by
  obtain ⟨k, hr⟩ := exists_eq_replicate_append hlast hrest
  rw [trim_of_getLast? hlast, Option.some.injEq] at hrest
  constructor
  · rintro ⟨b, m, n, h⟩
    rcases suffix_of_append_cons ha h with h | ⟨b', h⟩
    · left
      have hn : n = 0 := by
        by_contra hn
        refine hlast ?_
        rw [h, List.getLast?_append_of_ne_nil _ (List.cons_ne_nil _ _),
          List.getLast?_cons_of_ne_nil (by simpa using hn), List.getLast?_replicate, if_neg hn]
      rw [← hrest, h, dropWhile_blank_append_cons hpattern, hn]
      simp
    · right
      exact ⟨b'.dropWhile (· = ' '), m, n, by
        rw [← hrest, h, dropWhile_blank_append_cons hpattern]⟩
  · rintro (rfl | ⟨b, m, n, rfl⟩)
    · exact ⟨a, k, 0, by rw [hr]; rfl⟩
    · exact ⟨a ++ pattern :: (List.replicate k ' ' ++ b), m, n, by rw [hr]; simp⟩

/-- The blanks around a text do not matter. -/
theorem endsTwice_of_trim (hpattern : pattern ≠ ' ') {str s : Str} (h : trim str = some s) :
    EndsTwice pattern str ↔ EndsTwice pattern s := by
  obtain ⟨k, j, hstr⟩ := exists_of_trim h
  constructor
  · rintro ⟨a, m, n, rfl⟩
    have hn : (List.replicate n ' ').rdropWhile (· = ' ') = [] :=
      List.rdropWhile_eq_nil_iff.2 fun c hc => by simpa using List.eq_of_mem_replicate hc
    rw [trim, if_neg (by simp), dropWhile_blank_append_cons hpattern, if_neg (by simp),
      rdropWhile_append_cons hpattern, rdropWhile_append_cons hpattern, hn,
      Option.some.injEq] at h
    exact ⟨a.dropWhile (· = ' '), m, 0, h.symm⟩
  · rintro ⟨a, m, n, rfl⟩
    refine ⟨List.replicate k ' ' ++ a, m, n + j, ?_⟩
    rw [hstr, List.replicate_add]
    simp

theorem endsTwice_notMem {s : Str} (h : pattern ∉ s) : ¬EndsTwice pattern s := by
  rintro ⟨a, m, n, rfl⟩
  exact h (by simp)

theorem rtakeWhile_append_cons (a r : Str) :
    (a ++ pattern :: r).rtakeWhile (· ≠ pattern) = r.rtakeWhile (· ≠ pattern) := by
  induction r using List.reverseRecOn with
  | nil => rw [List.rtakeWhile_concat_neg _ _ _ (by simp), List.rtakeWhile_nil]
  | append_singleton r c ih =>
    rw [← List.cons_append, ← List.append_assoc]
    by_cases hc : c = pattern
    · rw [List.rtakeWhile_concat_neg _ _ _ (by simpa using hc),
        List.rtakeWhile_concat_neg _ _ _ (by simpa using hc)]
    · rw [List.rtakeWhile_concat_pos _ _ _ (by simpa using hc),
        List.rtakeWhile_concat_pos _ _ _ (by simpa using hc), ih]

/-- One field more than of what is left. -/
theorem fieldCount_append_cons (hpattern : pattern ≠ ' ') {a r rest : Str} (ha : pattern ∉ a)
    (hlast : r.getLast? ≠ some ' ') (hrest : trim r = some rest) :
    fieldCount pattern (a ++ pattern :: r) = fieldCount pattern rest + 1 := by
  obtain ⟨k, rfl⟩ := exists_eq_replicate_append hlast hrest
  have hcount : (List.replicate k ' ').count pattern = 0 :=
    List.count_eq_zero.2 fun h => hpattern (List.eq_of_mem_replicate h)
  have hend : (List.replicate k ' ' ++ rest).rtakeWhile (· ≠ pattern) = [] ↔
      rest.rtakeWhile (· ≠ pattern) = [] := by
    rcases List.eq_nil_or_concat' rest with rfl | ⟨l, c, rfl⟩
    · cases k with
      | zero => rfl
      | succ k =>
        rw [List.append_nil, List.replicate_succ', List.getLast?_concat] at hlast
        exact absurd rfl hlast
    · rw [← List.append_assoc, List.rtakeWhile_concat, List.rtakeWhile_concat]
      split_ifs <;> simp
  rw [fieldCount, fieldCount, rtakeWhile_append_cons, List.count_append, List.count_cons_self,
    List.count_append, hcount, List.count_eq_zero.2 ha, if_congr hend rfl rfl]
  omega

/-- The fields of a text that does not end in two separators. -/
theorem splitLoop_of_not_endsTwice (hpattern : pattern ≠ ' ') {fuel : ℕ} : ∀ {s : Str},
    s.length ≤ fuel → s.getLast? ≠ some ' ' → ¬EndsTwice pattern s →
    ∃ fields, splitLoop pattern fuel s = some fields ∧ (∀ field ∈ fields, pattern ∉ field) ∧
      fields.length = fieldCount pattern s := by
  have hlone : ∀ {s : Str}, pattern ∉ s →
      (∀ field ∈ (if s = [] then [] else [s] : List Str), pattern ∉ field) ∧
        (if s = [] then [] else [s] : List Str).length = fieldCount pattern s := by
    intro s hp
    have hall : ∀ c ∈ s, decide (c ≠ pattern) = true := fun c hc => by
      simpa using fun heq : c = pattern => hp (heq ▸ hc)
    rw [fieldCount, List.count_eq_zero.2 hp, List.rtakeWhile_eq_self_iff.2 hall]
    split_ifs with hs <;> simp [hp]
  induction fuel with
  | zero =>
    intro s hs _ _
    obtain rfl := List.length_eq_zero_iff.1 (Nat.le_zero.1 hs)
    exact ⟨_, rfl, hlone List.not_mem_nil⟩
  | succ fuel ih =>
    intro s hs hlast hend
    by_cases hp : pattern ∈ s
    · obtain ⟨a, r, rfl, ha⟩ := List.eq_append_cons_of_mem hp
      have hrlast := getLast?_of_append_cons hlast
      have hrest := trim_of_getLast? hrlast
      have hlen := length_le_of_trim hrest
      rw [List.length_append, List.length_cons] at hs
      rw [endsTwice_append_cons hpattern ha hrlast hrest, not_or] at hend
      obtain ⟨fields, hfields, hsep, hlength⟩ :=
        ih (by omega) (getLast?_trim hrest) hend.2
      refine ⟨a :: fields, ?_, ?_, ?_⟩
      · rw [splitLoop_append_cons ha, hrest]
        simp only [if_neg hend.1, hfields, Option.map_some]
      · exact List.forall_mem_cons.2 ⟨ha, hsep⟩
      · rw [List.length_cons, hlength, fieldCount_append_cons hpattern ha hrlast hrest]
    · exact ⟨_, splitLoop_of_notMem hp _, hlone hp⟩

/-- Of one that does, the last field is a separator. -/
theorem splitLoop_of_endsTwice (hpattern : pattern ≠ ' ') {fuel : ℕ} : ∀ {s : Str},
    s.length ≤ fuel → s.getLast? ≠ some ' ' → EndsTwice pattern s →
    ∃ fields, splitLoop pattern fuel s = some fields ∧ [pattern] ∈ fields := by
  induction fuel with
  | zero =>
    intro s hs _ hend
    obtain rfl := List.length_eq_zero_iff.1 (Nat.le_zero.1 hs)
    exact absurd hend (endsTwice_notMem List.not_mem_nil)
  | succ fuel ih =>
    intro s hs hlast hend
    have hp : pattern ∈ s := by
      by_contra hp
      exact endsTwice_notMem hp hend
    obtain ⟨a, r, rfl, ha⟩ := List.eq_append_cons_of_mem hp
    have hrlast := getLast?_of_append_cons hlast
    have hrest := trim_of_getLast? hrlast
    have hlen := length_le_of_trim hrest
    rw [List.length_append, List.length_cons] at hs
    rw [endsTwice_append_cons hpattern ha hrlast hrest] at hend
    rw [splitLoop_append_cons ha, hrest]
    by_cases hsep : r.dropWhile (· = ' ') = [pattern]
    · exact ⟨[a, [], [pattern]], by simp only [hsep, if_true], by simp⟩
    · obtain ⟨fields, hfields, hmem⟩ :=
        ih (by omega) (getLast?_trim hrest) (hend.resolve_left hsep)
      exact ⟨a :: fields, by simp only [if_neg hsep, hfields, Option.map_some],
        List.mem_cons_of_mem _ hmem⟩

/-- Splitting. The fields of a text that is not all blanks, by a separator other than a blank,
are without separators and counted right exactly if the text does not end in two separators
and has less than 2^31 fields. -/
theorem splitsCleanly_iff (hpattern : pattern ≠ ' ') {str : Str}
    (hstr : str = [] ∨ ∃ c ∈ str, c ≠ ' ') :
    SplitsCleanly str pattern ↔
      ¬EndsTwice pattern str ∧ ∀ s, trim str = some s → fieldCount pattern s < 2 ^ 31 := by
  have htrim : trim str ≠ none := by
    intro h
    obtain ⟨hne, hall⟩ := trim_eq_none h
    obtain ⟨c, hc, hblank⟩ := hstr.resolve_left hne
    exact hblank (hall c hc)
  obtain ⟨s, hs⟩ := Option.ne_none_iff_exists'.1 htrim
  have hlast := getLast?_trim hs
  have hsplit : split str pattern = splitLoop pattern s.length s := by
    rw [split, hs]
  rw [endsTwice_of_trim hpattern hs]
  constructor
  · rintro ⟨t, fields, ht, hfields, hsep, hlength, hinto⟩
    obtain rfl : s = t := Option.some.inj (hs.symm.trans ht)
    have hend : ¬EndsTwice pattern s := by
      intro hend
      obtain ⟨fields', hfields', hmem⟩ := splitLoop_of_endsTwice hpattern le_rfl hlast hend
      rw [hsplit, hfields', Option.some.injEq] at hfields
      exact hsep _ (hfields ▸ hmem) List.mem_cons_self
    refine ⟨hend, fun t ht => ?_⟩
    obtain rfl : s = t := Option.some.inj (hs.symm.trans ht)
    have hcount := hinto []
    rw [splitInto_eq, hfields, Option.map_some, Option.some.injEq, Prod.mk.injEq] at hcount
    rw [← hlength]
    exact asInt_eq_self_iff.1 hcount.2
  · rintro ⟨hend, hfew⟩
    obtain ⟨fields, hfields, hsep, hlength⟩ :=
      splitLoop_of_not_endsTwice hpattern le_rfl hlast hend
    refine ⟨s, fields, hs, hsplit.trans hfields, hsep, hlength, fun vec => ?_⟩
    rw [splitInto_eq, hsplit, hfields, Option.map_some,
      asInt_eq_self_iff.2 (hlength ▸ hfew s hs)]

/-- A text of two fields. -/
theorem splitsCleanly_pair : SplitsCleanly "a, b".toList ',' ↔
    ¬EndsTwice ',' "a, b".toList ∧
      ∀ s, trim "a, b".toList = some s → fieldCount ',' s < 2 ^ 31 :=
  splitsCleanly_iff (by decide) (Or.inr ⟨'a', by decide, by decide⟩)

/-- Of a text that ends in two separators the last one becomes a field. -/
theorem separator_as_field : ¬SplitsCleanly "a,,".toList ',' := by
  rintro ⟨s, fields, -, hfields, hsep, -⟩
  have hsplit : split "a,,".toList ',' = some [['a'], [], [',']] := by decide
  rw [hsplit, Option.some.injEq] at hfields
  exact hsep [','] (hfields ▸ by decide) (by decide)

end Ick.Converter
