import Ick.Converter
import Ick.Occurrences

/-!
# Replacing in a text

`Converter::replace` looks for a text, replaces it where it stands, and goes on behind what
it has put in. The result grows or shrinks while it is searched, but what is behind the
position is always the end of the original text that has not been searched : every turn takes
an occurrence off it, which is why the loop ends, and why inserted text is not searched again
(`replaceLoop_eq`).
-/

namespace Ick.Converter

open Occurrences

/-- `std::string::find` -/
def find (str src : Str) (pos : ℕ) : Option ℕ :=
  if pos ≤ str.length then (Occurrences.find src (str.drop pos)).map (pos + ·) else none

/-- `std::string::replace` -/
def replaceAt (str : Str) (pos len : ℕ) (dst : Str) : Str :=
  str.take pos ++ dst ++ str.drop (pos + len)

/-- The loop of `replace`, with what the last search has found; `none` if it does not end
within the turns. -/
def replaceLoop (src dst : Str) : ℕ → Option ℕ → Str → Option Str
  | _, none, result => some result
  | 0, some _, _ => none
  | turns + 1, some pos, result =>
    let result := replaceAt result pos src.length dst
    replaceLoop src dst turns (find result src (pos + dst.length)) result

/-- `replace` -/
def replace (turns : ℕ) (str src dst : Str) : Option Str :=
  replaceLoop src dst turns (find str src 0) str

theorem find_append (src fixed rest : Str) :
    find (fixed ++ rest) src fixed.length =
      (Occurrences.find src rest).map (fixed.length + ·) := by
  rw [find, if_pos (by simp), List.drop_left]

theorem replaceAt_append (fixed a src b dst : Str) :
    replaceAt (fixed ++ (a ++ (src ++ b))) (fixed.length + a.length) src.length dst =
      (fixed ++ (a ++ dst)) ++ b := by
  have hsplit : fixed ++ (a ++ (src ++ b)) = (fixed ++ a) ++ (src ++ b) := by
    rw [List.append_assoc]
  rw [replaceAt, hsplit, ← List.length_append, List.take_left, ← List.drop_drop, List.drop_left,
    List.drop_left, ← List.append_assoc fixed]

/-- Behind what is fixed the loop puts `dst` for the occurrences of what is left, with one turn
for each. -/
theorem replaceLoop_eq {src : Str} (hsrc : src ≠ []) (dst : Str) {rest : Str}
    {pieces : List Str} (h : Cuts src rest pieces) : ∀ (fixed : Str) {turns : ℕ},
    rest.length ≤ turns →
    replaceLoop src dst turns (find (fixed ++ rest) src fixed.length) (fixed ++ rest) =
      some (fixed ++ dst.intercalate pieces) := by
  have hpos := List.length_pos_iff.2 hsrc
  induction h with
  | last hnone =>
    intro fixed turns _
    rw [find_append, find_eq_none hnone, Option.map_none, replaceLoop,
      List.intercalate_singleton]
  | @cut a b pieces hfirst hb ih =>
    intro fixed turns hturns
    simp only [List.length_append] at hturns
    obtain ⟨turns, rfl⟩ := Nat.exists_eq_add_of_le' (show 1 ≤ turns by omega)
    have hnext : fixed.length + a.length + dst.length = (fixed ++ (a ++ dst)).length := by
      simp only [List.length_append]
      omega
    rw [find_append, find_first hfirst, Option.map_some, replaceLoop]
    rw [replaceAt_append, hnext, ih _ (by omega),
      List.intercalate_cons_of_ne_nil hb.ne_nil]
    simp only [List.append_assoc]

/-- Replacing. The loop ends, and the result is the text with `dst` for the occurrences of
`src` that do not overlap, from left to right. -/
theorem replace_eq {src : Str} (hsrc : src ≠ []) (str dst : Str) :
    ∃ pieces, Cuts src str pieces ∧
      ∀ turns, str.length ≤ turns → replace turns str src dst = some (dst.intercalate pieces) := by
  obtain ⟨pieces, hpieces⟩ := exists_cuts hsrc (le_refl str.length)
  refine ⟨pieces, hpieces, fun turns hturns => ?_⟩
  exact replaceLoop_eq hsrc dst hpieces [] hturns

/-- The inserted text contains what is replaced. -/
theorem replace_dots : ∃ pieces, Cuts ['.'] "a.b".toList pieces ∧
    ∀ turns, "a.b".toList.length ≤ turns →
      replace turns "a.b".toList ['.'] "..".toList = some ("..".toList.intercalate pieces) :=
  replace_eq (List.cons_ne_nil _ _) _ _

example : replace 3 "aaa".toList "aa".toList "a".toList = some "aa".toList := by decide

end Ick.Converter
