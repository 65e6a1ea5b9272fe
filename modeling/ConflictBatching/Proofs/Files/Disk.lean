import ConflictBatching.Files.Disk
import ConflictBatching.Proofs.Files.Tree

/-! # Files are kept

A file that was written is there under the same path and can be written again, and nothing but a file
can be written: under a path that ends in a slash there is a directory or nothing.
-/
namespace ConflictBatching
namespace Disk

theorem getLast?_fromRoot (d : Disk) (path : String) (names : List String) (name : String) :
    (d.fromRoot path (names ++ [name])).getLast? = some name := by
  rw [fromRoot]
  split
  · exact List.getLast?_concat
  · rw [← List.append_assoc]
    exact List.getLast?_concat

theorem read_of_write {d d' : Disk} {path : String} {bytes : Bytes}
    (h : d.write path bytes = (.ok (), d')) : d'.read path = .ok (some bytes) := by
  rw [write] at h
  split at h
  · cases h
  · next names hnames =>
    dsimp only at h
    split at h
    · cases h
    · next root hdirs =>
      split at h
      · next root' hfile =>
        cases h
        -- With a slash at the end a dot is looked up last, where no file is written.
        have hslash : ¬path.endsWith "/" := by
          intro hslash
          rw [if_pos hslash] at hfile
          exact FileTree.getLast?_ne_dot_of_writeFile hfile (getLast?_fromRoot ..)
        rw [if_neg hslash] at hfile
        obtain ⟨place, hfollow⟩ := FileTree.follow_writeFile hfile
        have hplace : fromRoot { d with root := root' } path names = d.fromRoot path names := rfl
        rw [read, hnames]
        simp only [bind, Except.bind, if_neg hslash, hplace, hfollow]
      · cases h

/-- The directories that the first write needed are there for the next one. -/
theorem exists_write_again {d d' : Disk} {path : String} {bytes : Bytes}
    (h : d.write path bytes = (.ok (), d')) (again : Bytes) :
    ∃ d'', d'.write path again = (.ok (), d'') := by
  rw [write] at h
  split at h
  · cases h
  · next names hnames =>
    dsimp only at h
    split at h
    · cases h
    · next root hdirs =>
      split at h
      · next root' hfile =>
        cases h
        obtain ⟨-, -, -, hcovers⟩ := FileTree.writeFile_eq_ok hfile
        obtain ⟨place, hfollow⟩ := FileTree.follow_writeFile hfile
        obtain ⟨root'', hagain⟩ := FileTree.exists_writeFile hfollow again
        have hplace (names : List String) :
            fromRoot { d with root := root' } path names = d.fromRoot path names := rfl
        have hdirs' := FileTree.createDirs_of_hasDirectory fun hne =>
          (FileTree.hasDirectory_of_createDirs hdirs hne).of_covers hcovers
        refine ⟨{ d with root := root'' }, ?_⟩
        rw [write, hnames]
        simp only [hplace, hdirs', hagain]
      · cases h

end Disk
end ConflictBatching
