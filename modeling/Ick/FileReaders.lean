import Ick.Converter
import Ick.Delimited
import Ick.InputStream

/-!
# Reading whole files

`File::ReadFile` puts a file together from its lines, each with a newline behind it;
`File::ReadFileAsBinary` reads it as one block. Both assign to the caller's string only if
something was read.

So the text reader adds a newline to a file that does not end with one (`ReadFile_eq`), and of
an empty file both leave the old string as it was (`readBytes_iff`).
-/

namespace Ick.File

/-- The files that exist and can be read, with their bytes. -/
abbrev Files := Str → Option Str

/-- `exist` -/
def exist (files : Files) (path : Str) : Bool := path ≠ [] ∧ (files path).isSome

/-- The loop of `ReadFile` : the stream with each line and a newline. -/
def readLines (content : Str) : Option Str :=
  InputStream.whileLine '\n' (fun ss s => ss ++ (s ++ ['\n'])) (content.length + 2)
    ⟨content, false, false⟩ []

/-- `ReadFile`, with the string behind the pointer, `none` for a null pointer; `none` if the loop
does not end. -/
def ReadFile (files : Files) (path : Str) (str : Option Str) : Option (Bool × Option Str) :=
  if path = [] ∨ exist files path = false ∨ str = none then some (false, str)
  else
    (readLines ((files path).getD [])).map fun ss =>
      (true, if ss ≠ [] then some ss else str)

/-- `ReadFileAsBinary` -/
def ReadFileAsBinary (files : Files) (path : Str) (str : Option Str) : Bool × Option Str :=
  if path = [] ∨ exist files path = false ∨ str = none then (false, str)
  else
    let content := (files path).getD []
    (true, if content.length > 0 then some content else str)

/-- Both readers return `true` and leave the bytes of the file in the string. -/
def ReadsBytes (files : Files) (path str content : Str) : Prop :=
  ReadFile files path (some str) = some (true, some content) ∧
    ReadFileAsBinary files path (some str) = (true, some content)

/-- The lines with newlines are the file with a newline at its end. -/
theorem readLines_eq (content : Str) : readLines content =
    some (if content = [] ∨ content.getLast? = some '\n' then content else content ++ ['\n']) := by
  obtain ⟨lines, last, hlines, hlast, hcontent⟩ :=
    @Delimited.exists_eq_flatMap_append _ _ '\n' content
  have hlen : lines.length ≤ content.length :=
    hcontent ▸ Delimited.length_le_length_flatMap_append lines last
  have hread := @InputStream.whileLine_eq_foldl _ _ _ '\n' (fun ss s => ss ++ (s ++ ['\n'])) _
    hlines _ hlast (content.length + 2) [] (by omega)
  rw [← hcontent, ← List.flatMap_eq_foldl] at hread
  rw [readLines, hread]
  by_cases hnil : last = []
  · subst hnil
    rw [List.append_nil] at hcontent
    rw [if_pos rfl, ← hcontent, if_pos]
    rcases List.eq_nil_or_concat' lines with rfl | ⟨lines, line, rfl⟩
    · exact Or.inl hcontent
    · right
      rw [hcontent, List.flatMap_append, List.flatMap_singleton, ← List.append_assoc,
        List.getLast?_concat]
  · have hend : content.getLast? = last.getLast? := by
      rw [hcontent, List.getLast?_append_of_ne_nil _ hnil]
    rw [if_neg hnil, if_neg, hcontent, List.flatMap_append, List.flatMap_singleton,
      List.append_assoc]
    rintro (hempty | hnewline)
    · exact hnil (List.append_eq_nil_iff.1 (hcontent ▸ hempty)).2
    · rw [hend] at hnewline
      exact hlast (List.mem_of_getLast? hnewline)

theorem ReadFile_eq {files : Files} {path content : Str} (hpath : path ≠ [])
    (hfile : files path = some content) (str : Str) :
    ReadFile files path (some str) = some (true, some
      (if content = [] then str else if content.getLast? = some '\n' then content
        else content ++ ['\n'])) := by
  have hexist : exist files path = true := by simp [exist, hpath, hfile]
  rw [ReadFile, if_neg (by simp [hpath, hexist]), hfile, Option.getD_some, readLines_eq,
    Option.map_some]
  by_cases hnil : content = []
  · simp [hnil]
  · by_cases hnewline : content.getLast? = some '\n'
    · simp [hnil, hnewline]
    · simp [hnil, hnewline]

theorem ReadFileAsBinary_eq {files : Files} {path content : Str} (hpath : path ≠ [])
    (hfile : files path = some content) (str : Str) :
    ReadFileAsBinary files path (some str) =
      (true, some (if content = [] then str else content)) := by
  have hexist : exist files path = true := by simp [exist, hpath, hfile]
  rw [ReadFileAsBinary, if_neg (by simp [hpath, hexist]), hfile, Option.getD_some]
  by_cases hnil : content = []
  · simp [hnil]
  · simp [hnil, List.length_pos_iff]

/-- Reading whole files. Both readers give the bytes of a file exactly if it ends with a newline,
or is empty and the string was so as well. -/
theorem readsBytes_iff {files : Files} {path content : Str} (hpath : path ≠ [])
    (hfile : files path = some content) (str : Str) :
    ReadsBytes files path str content ↔
      content.getLast? = some '\n' ∨ (content = [] ∧ str = []) := by
  rw [ReadsBytes, ReadFile_eq hpath hfile, ReadFileAsBinary_eq hpath hfile]
  by_cases hnil : content = []
  · simp [hnil]
  · by_cases hnewline : content.getLast? = some '\n'
    · simp [hnil, hnewline]
    · simp [hnil, hnewline]

/-- A file of one line. -/
theorem readsBytes_line : ReadsBytes (fun _ => some "a\n".toList) "f".toList [] "a\n".toList ↔
    "a\n".toList.getLast? = some '\n' ∨ ("a\n".toList = [] ∧ ([] : Str) = []) :=
  @readsBytes_iff (fun _ => some "a\n".toList) "f".toList "a\n".toList (by decide) rfl []

/-- A file without a newline at its end. -/
theorem not_readsBytes_open :
    ¬ReadsBytes (fun _ => some "a".toList) "f".toList [] "a".toList := by
  rintro ⟨htext, -⟩
  exact absurd htext (by decide)

end Ick.File
