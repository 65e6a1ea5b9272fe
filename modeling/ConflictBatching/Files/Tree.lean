import ConflictBatching.Config.Store

/-! # A tree of files

A directory with the files and directories below it. Names are looked up from left to right, and
every name but the last has to be a directory. A dot stands for the directory it is looked up in, two
dots for the one around it.
-/
namespace ConflictBatching

abbrev FilePath := List String

inductive FileTree where
  | file (bytes : Bytes)
  | directory (entries : List (String × FileTree))

/-- Where a path leads, and what is there. -/
structure Place where
  entry : Option FileTree
  /-- The names that lead there from the root, the innermost first. -/
  names : FilePath

namespace FileTree

def empty : FileTree := directory []

def entries : FileTree → List (String × FileTree)
  | file _ => []
  | directory entries => entries

/-- Follows names from what is here. The directories around it are in `above`, the innermost first,
each with the name that leads on; above the root is the root. -/
def follow (here : FileTree) (above : List (String × FileTree)) :
    List String → Except FileError Place
  | [] => .ok ⟨some here, above.map (·.1)⟩
  | name :: rest =>
    match here with
    | file _ => .error .notDirectory
    | directory entries =>
      if name = "." then follow here above rest
      else if name = ".." then
        match above with
        | [] => follow here [] rest
        | (_, outer) :: above => follow outer above rest
      else if 255 < name.utf8ByteSize then .error .nameTooLong
      else
        match entries.lookup name with
        | some entry => follow entry ((name, here) :: above) rest
        | none =>
          if rest.isEmpty then .ok ⟨none, name :: above.map (·.1)⟩ else .error .absent

def put (t entry : FileTree) : FilePath → FileTree
  | [] => entry
  | name :: rest =>
    let inner := ((t.entries.lookup name).getD empty).put entry rest
    directory ((name, inner) :: t.entries.filter (·.1 ≠ name))

/-- A directory at the end of names whose others are all there. -/
def createDir (t : FileTree) (names : List String) : Except FileError FileTree :=
  match t.follow [] names with
  | .ok ⟨some (directory _), _⟩ => .ok t
  | .ok ⟨some (file _), _⟩ => .error .present
  | .ok ⟨none, path⟩ => .ok (t.put empty path.reverse)
  | .error e => .error e

/-- A directory, after those above it if they are missing. The innermost name comes first. What was
created stays when a later one fails. -/
def createDirs (t : FileTree) : List String → Except FileError Unit × FileTree
  | [] => (.ok (), t)
  | name :: above =>
    let names := (name :: above).reverse
    match t.createDir names with
    | .ok t => (.ok (), t)
    | .error .absent =>
      match t.createDirs above with
      | (.ok (), t) =>
        match t.createDir names with
        | .ok t => (.ok (), t)
        | .error e => (.error e, t)
      | failed => failed
    | .error e => (.error e, t)

def writeFile (t : FileTree) (names : List String) (bytes : Bytes) : Except FileError FileTree :=
  match t.follow [] names with
  | .ok ⟨some (directory _), _⟩ => .error .isDirectory
  | .ok place => .ok (t.put (file bytes) place.names.reverse)
  | .error e => .error e

def files : FileTree → List (FilePath × Bytes)
  | file bytes => [([], bytes)]
  | directory entries => entries.attach.flatMap fun ⟨(name, t), _⟩ =>
    t.files.map fun (path, bytes) => (name :: path, bytes)
termination_by t => sizeOf t
decreasing_by
  rename_i h
  have := List.sizeOf_lt_of_mem h
  simp at this ⊢
  omega

end FileTree
end ConflictBatching
