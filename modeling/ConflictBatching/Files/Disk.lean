import ConflictBatching.Files.Tree

/-! # Files by their paths

A tree of files with a working directory. A path starts there, or at the root if a slash stands in
front. Writing a file creates the directories above it.
-/
namespace ConflictBatching

structure Disk where
  root : FileTree
  /-- The names that lead from the root to the working directory. -/
  home : FilePath

namespace Disk

def empty (home : FilePath) : Disk := ⟨FileTree.empty.put .empty home, home⟩

/-- The names along a path. A path with a zero byte or of 4096 bytes is refused. -/
def namesAlong (path : String) : Except FileError (List String) :=
  if path.contains '\x00' then .error .nulInName
  else if 4096 ≤ path.utf8ByteSize then .error .nameTooLong
  else .ok ((path.splitOn "/").filter (· ≠ ""))

def fromRoot (d : Disk) (path : String) (names : List String) : FilePath :=
  if path.startsWith "/" then names else d.home ++ names

/-- Nothing is there, or the bytes of a file. A path that ends in a slash names a directory. -/
def read (d : Disk) (path : String) : Except FileError (Option Bytes) := do
  let names ← namesAlong path
  let names := d.fromRoot path (if path.endsWith "/" then names ++ ["."] else names)
  match d.root.follow [] names with
  | .ok ⟨some (.file bytes), _⟩ => .ok (some bytes)
  | .ok ⟨some (.directory _), _⟩ => .error .isDirectory
  | .ok ⟨none, _⟩ | .error .absent => .ok none
  | .error e => .error e

/-- The directories above the last name are created first, and stay when the file cannot be
written. A dot is no name of its own among them. If the path ends in a slash, its last name is not
looked at any more. -/
def write (d : Disk) (path : String) (bytes : Bytes) : Except FileError Unit × Disk :=
  match namesAlong path with
  | .error e => (.error e, d)
  | .ok names =>
    let above := (names.filter (· ≠ ".")).dropLast
    match d.root.createDirs (d.fromRoot path above).reverse with
    | (.error e, root) => (.error e, { d with root := root })
    | (.ok (), root) =>
      let names := if path.endsWith "/" then names.dropLast ++ ["."] else names
      match root.writeFile (d.fromRoot path names) bytes with
      | .ok root => (.ok (), { d with root := root })
      | .error e => (.error e, { d with root := root })

def addDir (d : Disk) (path : String) : Disk :=
  match namesAlong path with
  | .ok names => { d with root := (d.root.createDirs (d.fromRoot path names).reverse).2 }
  | .error _ => d

def addFile (d : Disk) (path : String) (bytes : Bytes) : Disk := (d.write path bytes).2

/-- The files below the working directory, by their paths from there. -/
def files (d : Disk) : List (FilePath × Bytes) :=
  match d.root.follow [] d.home with
  | .ok ⟨some here, _⟩ => here.files
  | _ => []

def configFile (path : String) : ConfigStore Disk :=
  ⟨path, fun d => d.read path, fun bytes d => d.write path bytes⟩

end Disk
end ConflictBatching
