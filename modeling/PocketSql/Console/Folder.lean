/-!
# Files

A console reads scripts and keeps its history in files. A folder holds files under paths; it is the
top of all paths, so that a leading slash means nothing and nothing is above it.
-/

namespace PocketSql

/-- Why a file cannot be read or written. -/
inductive FileError where
  | notFound
  | isDirectory
  | notDirectory
  | notText
  | nulInName
  | nameTooLong
  | other (message : String)
  deriving DecidableEq, Repr

/-- The wording of an error. -/
def FileError.message : FileError → String
  | notFound => "No such file or directory (os error 2)"
  | isDirectory => "Is a directory (os error 21)"
  | notDirectory => "Not a directory (os error 20)"
  | notText => "stream did not contain valid UTF-8"
  | nulInName => "file name contained an unexpected NUL byte"
  | nameTooLong => "File name too long (os error 36)"
  | other message => message

/-- What stands at a path. -/
inductive FileContent where
  | text (s : String)
  /-- A file whose bytes are no text. -/
  | bytes (bs : List UInt8)
  | directory
  deriving DecidableEq, Repr

/-- Contents by path. A path is the list of its names, outermost first. -/
structure Folder where
  entries : List (List String × FileContent)
  deriving DecidableEq, Repr

namespace Folder

def empty : Folder := ⟨[]⟩

/-- What stands at a path; the empty path is the folder. -/
def content? (f : Folder) (path : List String) : Option FileContent :=
  if path.isEmpty then some .directory else f.entries.lookup path

/-- Put something at a path. -/
def put (f : Folder) (path : List String) (content : FileContent) : Folder :=
  ⟨(path, content) :: f.entries.filter fun e => e.1 ≠ path⟩

/-- The greatest number of bytes in a name. -/
def nameLimit : Nat := 255

/-- The greatest number of bytes in a written path. -/
def pathLimit : Nat := 4095

/-- The path that names lead to from a path. All but the last place on the way is a directory. -/
def walk (f : Folder) (path : List String) : List String → Except FileError (List String)
  | [] => .ok path
  | name :: rest =>
    match f.content? path with
    | none => .error .notFound
    | some .directory =>
      if name = "" ∨ name = "." then f.walk path rest
      else if name = ".." then f.walk path.dropLast rest
      else if nameLimit < name.utf8ByteSize then .error .nameTooLong
      else f.walk (path ++ [name]) rest
    | some _ => .error .notDirectory

/-- The names in a written path. -/
def names (written : String) : Except FileError (List String) :=
  if written.toList.contains '\x00' then .error .nulInName
  else if written.isEmpty then .error .notFound
  else if pathLimit < written.utf8ByteSize then .error .nameTooLong
  else .ok (written.splitOn "/")

/-- What stands at a written path. -/
def find (f : Folder) (written : String) : Except FileError FileContent := do
  let path ← f.walk [] (← names written)
  match f.content? path with
  | none => .error .notFound
  | some content => .ok content

/-- The text of a file. -/
def read (f : Folder) (written : String) : Except FileError String := do
  match ← f.find written with
  | .directory => .error .isDirectory
  | .bytes _ => .error .notText
  | .text s => .ok s

/-- Write a text into a file, which may be new. A path that ends in a slash names a directory. -/
def write (f : Folder) (written : String) (s : String) : Except FileError Folder := do
  let names ← names written
  let path ← f.walk [] (names.reverse.dropWhile (· = "")).reverse
  if names.getLast? = some "" then .error .isDirectory
  else if f.content? path = some .directory then .error .isDirectory
  else .ok (f.put path (.text s))

/-- What was put at a path is there. -/
theorem content?_put {path : List String} (h : path ≠ []) (f : Folder) (content : FileContent) :
    (f.put path content).content? path = some content := by
  simp [content?, put, h]

theorem lookup_filter_ne {path other : List String} (h : other ≠ path)
    (entries : List (List String × FileContent)) :
    (entries.filter fun e => e.1 ≠ path).lookup other = entries.lookup other := by
  induction entries with
  | nil => rfl
  | cons e entries ih =>
    obtain ⟨p, content⟩ := e
    by_cases same : p = path
    · subst same
      have apart : (other == p) = false := beq_eq_false_iff_ne.2 h
      rw [List.filter_cons_of_neg (by simp), ih, List.lookup_cons, apart]
    · rw [List.filter_cons_of_pos (by simpa using same), List.lookup_cons, List.lookup_cons, ih]

/-- What stands at other paths stays. -/
theorem content?_put_of_ne {path other : List String} (h : other ≠ path) (f : Folder)
    (content : FileContent) : (f.put path content).content? other = f.content? other := by
  have apart : (other == path) = false := beq_eq_false_iff_ne.2 h
  simp only [content?, put, List.lookup_cons, apart, lookup_filter_ne h]

/-- A path that leads to no directory leads there also when something else is put there. -/
theorem walk_put {f : Folder} {target : List String} (h : f.content? target ≠ some .directory)
    (content : FileContent) {path names : List String} (found : f.walk path names = .ok target) :
    (f.put target content).walk path names = .ok target := by
  induction names generalizing path with
  | nil => exact found
  | cons name names ih =>
    rw [walk] at found ⊢
    split at found
    · cases found
    · next directory =>
      -- all places on the way are directories, so none of them is the end
      have apart : path ≠ target := fun e => h (e ▸ directory)
      rw [content?_put_of_ne apart, directory]
      simp only
      split at found
      · next here => rw [if_pos here]; exact ih found
      · next here =>
        rw [if_neg here]
        split at found
        · next above => rw [if_pos above]; exact ih found
        · next above =>
          rw [if_neg above]
          split at found
          · cases found
          · next fits => rw [if_neg fits]; exact ih found
    · cases found

theorem dropWhile_empty_reverse {parts : List String} (h : parts.getLast? ≠ some "") :
    (parts.reverse.dropWhile (· = "")).reverse = parts := by
  have first : parts.reverse.head? ≠ some "" := by rwa [List.head?_reverse]
  cases reversed : parts.reverse with
  | nil => simpa using reversed.symm
  | cons part rest =>
    have named : part ≠ "" := fun e => first (by rw [reversed, e]; rfl)
    rw [List.dropWhile_cons_of_neg (by simpa using named), ← reversed, List.reverse_reverse]

/-- What is written goes to where the path leads. -/
theorem write_ok {f g : Folder} {written s : String} (h : f.write written s = .ok g) :
    ∃ parts path, names written = .ok parts ∧ f.walk [] parts = .ok path ∧
      f.content? path ≠ some .directory ∧ g = f.put path (.text s) := by
  unfold write at h
  cases named : names written with
  | error e => rw [named] at h; cases h
  | ok parts =>
    rw [named] at h
    cases walked : f.walk [] (parts.reverse.dropWhile (· = "")).reverse with
    | error e => simp [walked, bind, Except.bind] at h
    | ok path =>
      simp only [walked, bind, Except.bind] at h
      split at h
      · cases h
      · next file =>
        split at h
        · cases h
        · next free =>
          cases h
          rw [dropWhile_empty_reverse file] at walked
          exact ⟨parts, path, rfl, walked, free, rfl⟩

/-- What was written into a file is read back. -/
theorem read_write {f g : Folder} {written s : String} (h : f.write written s = .ok g) :
    g.read written = .ok s := by
  obtain ⟨parts, path, named, walked, free, rfl⟩ := write_ok h
  have proper : path ≠ [] := by
    rintro rfl
    exact free rfl
  simp only [read, find, named, bind, Except.bind, walk_put free (.text s) walked,
    content?_put proper]

end Folder
end PocketSql
