import Mathlib.Data.List.Basic

/-!
# Paths of Windows

`PureWindowsPath` of Python: the drive, the root and the suffix of a path. Both separators are the same, and what begins
with two of them is a share or a device.
-/

namespace CadHarness.Lib.WindowsPath

def separator : Char := '\\'

/-- `path.replace(altsep, sep)` -/
def folded (path : List Char) : List Char := path.map fun c => if c = '/' then separator else c

/-- The prefix of the long names of shares. -/
def uncPrefix : List Char := ['\\', '\\', '?', '\\', 'U', 'N', 'C', '\\']

/-- A share or device: its drive goes to the second separator after the prefix. -/
def splitShare (path : List Char) : List Char × List Char × List Char :=
  let start := if (path.take 8).map Char.toUpper = uncPrefix then 8 else 2
  let (server, more) := (path.drop start).span (· ≠ separator)
  match more with
  | [] => (path, [], [])
  | _ :: more =>
      let (share, rest) := more.span (· ≠ separator)
      match rest with
      | [] => (path, [], [])
      | _ :: rest => (path.take start ++ server ++ separator :: share, [separator], rest)

/-- `ntpath.splitroot`: the drive, the root, and the rest of a folded path -/
def splitRoot : List Char → List Char × List Char × List Char
  | '\\' :: '\\' :: rest => splitShare ('\\' :: '\\' :: rest)
  | '\\' :: rest => ([], [separator], rest)
  | c :: ':' :: '\\' :: rest => ([c, ':'], [separator], rest)
  | c :: ':' :: rest => ([c, ':'], [], rest)
  | path => ([], [], path)

/-- What is taken for the root of a share that has none. -/
def shareRoot (drive : List Char) : List Char :=
  if drive.head? = some separator ∧ drive.getLast? ≠ some separator then
    match drive.splitOn separator with
    | [_, _, server, _] => if server = [] ∨ server = ['?'] ∨ server = ['.'] then [] else [separator]
    | [_, _, _, _, _, _] => [separator]
    | _ => []
  else []

/-- The drive, the root and the parts of a path. -/
structure Parsed where
  drive : List Char
  root : List Char
  tail : List (List Char)

/-- `_parse_path` -/
def parse (path : List Char) : Parsed :=
  let split := splitRoot (folded path)
  { drive := split.1
    root := if split.2.1 = [] then shareRoot split.1 else split.2.1
    tail := (split.2.2.splitOn separator).filter fun part => part ≠ [] ∧ part ≠ ['.'] }

/-- `path.is_absolute()` -/
def IsAbsolute (path : List Char) : Prop := (parse path).drive ≠ [] ∧ (parse path).root ≠ []

instance (path : List Char) : Decidable (IsAbsolute path) :=
  inferInstanceAs (Decidable ((parse path).drive ≠ [] ∧ (parse path).root ≠ []))

/-- `path.suffix` -/
def suffix (path : List Char) : List Char :=
  let name := (parse path).tail.getLast?.getD []
  let extension := (name.reverse.takeWhile (· ≠ '.')).reverse
  if extension = [] ∨ name.length ≤ extension.length + 1 then [] else '.' :: extension

/-- On a volume with a letter: the letter, a colon, and a separator. -/
def OnDrive (path : List Char) : Prop :=
  ∃ letter rest, letter.isAlpha = true ∧ folded path = letter :: ':' :: '\\' :: rest

/-- Two separators of any kind begin the path. -/
def BeginsShare (path : List Char) : Prop := ∃ rest, folded path = '\\' :: '\\' :: rest

/-! ## Absolute paths -/

theorem folded_cons (c : Char) (path : List Char) :
    folded (c :: path) = (if c = '/' then separator else c) :: folded path := rfl

theorem folded_letter {c d : Char} {path rest : List Char} (h : folded (c :: path) = d :: rest) (hd : d.isAlpha = true) :
    c = d := by
  rw [folded_cons] at h
  obtain ⟨hc, -⟩ := List.cons.inj h
  split at hc
  · rw [← hc] at hd
    exact absurd hd (by decide)
  · exact hc

/-- What has no drive, or a drive without a root, begins with neither two separators nor a drive and a separator. -/
theorem splitRoot_cases (p : List Char) : (∃ rest, p = '\\' :: '\\' :: rest) ∨
    (∃ c rest, c ≠ '\\' ∧ p = c :: ':' :: '\\' :: rest) ∨ (splitRoot p).1 = [] ∨
      ∃ c, c ≠ '\\' ∧ (splitRoot p).1 = [c, ':'] ∧ (splitRoot p).2.1 = [] := by
  fun_cases splitRoot p with
  | case1 rest => exact .inl ⟨rest, rfl⟩
  | case2 rest => exact .inr (.inr (.inl rfl))
  | case3 c rest hc => exact .inr (.inl ⟨c, rest, hc, rfl⟩)
  | case4 c rest hc => exact .inr (.inr (.inr ⟨c, hc, rfl, rfl⟩))
  | case5 => exact .inr (.inr (.inl rfl))

/-- An absolute path begins with two separators, or with a drive and a separator. -/
theorem isAbsolute_cases {path : List Char} (h : IsAbsolute path) :
    BeginsShare path ∨ ∃ c rest, c ≠ '\\' ∧ folded path = c :: ':' :: '\\' :: rest := by
  obtain ⟨hdrive, hroot⟩ := h
  rcases splitRoot_cases (folded path) with hshare | hvolume | hnone | ⟨c, hc, hletter, hempty⟩
  · exact .inl hshare
  · exact .inr hvolume
  · exact absurd hnone hdrive
  · refine absurd ?_ hroot
    simp only [parse, hempty, hletter, if_true, shareRoot]
    exact if_neg fun hshare => hc (Option.some.inj hshare.1)

/-- An absolute path is on a volume with a letter exactly where it begins with a letter. -/
theorem onDrive_iff {path : List Char} (h : IsAbsolute path) :
    OnDrive path ↔ ∃ letter rest, letter.isAlpha = true ∧ path = letter :: rest := by
  constructor
  · rintro ⟨letter, rest, hletter, hfolded⟩
    cases path with
    | nil => cases hfolded
    | cons c path => exact ⟨letter, path, hletter, by rw [folded_letter hfolded hletter]⟩
  · rintro ⟨letter, rest, hletter, rfl⟩
    have hfold : folded (letter :: rest) = letter :: folded rest := by
      rw [folded_cons, if_neg]
      rintro rfl
      exact absurd hletter (by decide)
    rcases isAbsolute_cases h with ⟨rest', hshare⟩ | ⟨c, rest', -, hvolume⟩
    · rw [hfold] at hshare
      obtain ⟨rfl, -⟩ := List.cons.inj hshare
      exact absurd hletter (by decide)
    · rw [hfold] at hvolume
      obtain ⟨rfl, -⟩ := List.cons.inj hvolume
      exact ⟨letter, rest', hletter, by rw [hfold, hvolume]⟩

end CadHarness.Lib.WindowsPath
