import ConflictBatching.Files.Tree

/-! # Paths before and after a file is put

Where a path leads is a list of names without dots, and what is there is found by these names alone.
Putting a file where no directory is keeps every directory there, so the path leads to the same
place afterwards, and the file is there.
-/
namespace ConflictBatching
namespace FileTree

/-- What is found by names that are no dots. -/
def get? (t : FileTree) : FilePath → Option FileTree
  | [] => some t
  | name :: rest => (t.entries.lookup name).bind (·.get? rest)

theorem get?_append (t : FileTree) (front rest : FilePath) :
    t.get? (front ++ rest) = (t.get? front).bind (·.get? rest) := by
  induction front generalizing t with
  | nil => rfl
  | cons name front ih =>
    simp only [List.cons_append, get?, Option.bind_assoc]
    congr 1
    funext entry
    exact ih entry

theorem lookup_filter_ne {entries : List (String × FileTree)} {name other : String}
    (h : other ≠ name) : (entries.filter (·.1 ≠ name)).lookup other = entries.lookup other := by
  induction entries with
  | nil => rfl
  | cons e entries ih =>
    by_cases hname : e.1 = name
    · have hother : (other == e.1) = false := by simpa [hname] using h
      rw [List.filter_cons_of_neg (by simpa using hname), ih, List.lookup_cons, hother]
    · rw [List.filter_cons_of_pos (by simpa using hname), List.lookup_cons, List.lookup_cons, ih]

theorem get?_put_cons (t entry : FileTree) (name : String) (rest names : FilePath) :
    (t.put entry (name :: rest)).get? (name :: names) =
      (((t.entries.lookup name).getD empty).put entry rest).get? names := by
  simp [put, get?, entries]

theorem get?_put_cons_ne (t entry : FileTree) {name other : String} (h : other ≠ name)
    (rest names : FilePath) :
    (t.put entry (name :: rest)).get? (other :: names) = t.get? (other :: names) := by
  have hother : (other == name) = false := by simpa using h
  simp only [put, get?, entries, List.lookup_cons, hother, lookup_filter_ne h]

theorem get?_put_self (t entry : FileTree) (names : FilePath) :
    (t.put entry names).get? names = some entry := by
  induction names generalizing t with
  | nil => rfl
  | cons name rest ih => rw [get?_put_cons, ih]

def IsDirectory (t : FileTree) : Prop := ∃ entries, t = directory entries

/-- What is found in one tree is found in the other, and directories stay directories. -/
def Covers (t t' : FileTree) : Prop :=
  ∀ names here, t.get? names = some here →
    ∃ here', t'.get? names = some here' ∧ (here.IsDirectory → here'.IsDirectory)

/-- Where no directory was, something is put without a directory being lost. -/
theorem covers_put {t : FileTree} {path : FilePath} (entry : FileTree)
    (h : ∀ here, t.get? path = some here → ¬here.IsDirectory) : Covers t (t.put entry path) := by
  intro names here hhere
  induction path generalizing t names with
  | nil =>
    have hnot : ¬t.IsDirectory := h t rfl
    cases t with
    | directory entries => exact absurd ⟨entries, rfl⟩ hnot
    | file bytes =>
      cases names with
      | nil =>
        cases hhere
        exact ⟨entry, rfl, fun hdirectory => absurd hdirectory hnot⟩
      | cons name names => cases hhere
  | cons name rest ih =>
    cases names with
    | nil => exact ⟨_, rfl, fun _ => ⟨_, rfl⟩⟩
    | cons other names =>
      by_cases hname : other = name
      · -- Both lead through the same entry, so it is there and is not the empty default.
        subst hname
        obtain ⟨inner, hlookup, hinner⟩ := Option.bind_eq_some_iff.mp hhere
        rw [get?_put_cons, hlookup, Option.getD_some]
        refine ih ?_ names hinner
        intro found hfound
        exact h found (by rw [get?, hlookup, Option.bind_some, hfound])
      · exact ⟨here, by rw [get?_put_cons_ne t entry hname, hhere], id⟩

/-- What is here is reached from the root of `t` through the directories above it. -/
inductive Reached (t : FileTree) : FileTree → List (String × FileTree) → Prop where
  | root : Reached t t []
  | into {entries : List (String × FileTree)} {above : List (String × FileTree)} {name : String}
      {entry : FileTree} : Reached t (directory entries) above →
      entries.lookup name = some entry → Reached t entry ((name, directory entries) :: above)

theorem Reached.get? {t here : FileTree} {above : List (String × FileTree)}
    (h : Reached t here above) : t.get? (above.map (·.1)).reverse = some here := by
  induction h with
  | root => rfl
  | into _ hlookup ih =>
    rw [List.map_cons, List.reverse_cons, get?_append, ih]
    simp [FileTree.get?, entries, hlookup]

theorem Reached.get?_name {t : FileTree} {entries above : List (String × FileTree)}
    (h : Reached t (directory entries) above) (name : String) :
    t.get? (name :: above.map (·.1)).reverse = entries.lookup name := by
  rw [List.reverse_cons, get?_append, h.get?]
  cases hlookup : entries.lookup name <;> simp [FileTree.get?, FileTree.entries, hlookup]

theorem Covers.directory {t t' here' : FileTree} {entries above above' : List (String × FileTree)}
    (hcovers : Covers t t') (h : Reached t (directory entries) above) (h' : Reached t' here' above')
    (habove : above'.map (·.1) = above.map (·.1)) :
    ∃ entries', here' = directory entries' ∧
      ∀ name entry, entries.lookup name = some entry →
        ∃ entry', entries'.lookup name = some entry' := by
  obtain ⟨found, hfound, hdirectory⟩ := hcovers _ _ h.get?
  rw [← habove, h'.get?] at hfound
  cases hfound
  obtain ⟨entries', rfl⟩ := hdirectory ⟨entries, rfl⟩
  refine ⟨entries', rfl, fun name entry hlookup => ?_⟩
  obtain ⟨entry', hentry', -⟩ := hcovers _ _ ((h.get?_name name).trans hlookup)
  rw [← habove, h'.get?_name] at hentry'
  exact ⟨entry', hentry'⟩

/-- The ways names lead on from what is here. -/
inductive Leads : FileTree → List (String × FileTree) → List String → Place → Prop where
  | done (here : FileTree) (above : List (String × FileTree)) :
      Leads here above [] ⟨some here, above.map (·.1)⟩
  | stay {entries above rest place} : Leads (directory entries) above rest place →
      Leads (directory entries) above ("." :: rest) place
  | top {entries rest place} : Leads (directory entries) [] rest place →
      Leads (directory entries) [] (".." :: rest) place
  | up {entries name outer above rest place} : Leads outer above rest place →
      Leads (directory entries) ((name, outer) :: above) (".." :: rest) place
  | down {entries above name entry rest place} : name ≠ "." → name ≠ ".." →
      name.utf8ByteSize ≤ 255 → entries.lookup name = some entry →
      Leads entry ((name, directory entries) :: above) rest place →
      Leads (directory entries) above (name :: rest) place
  | missing {entries above name} : name ≠ "." → name ≠ ".." → name.utf8ByteSize ≤ 255 →
      entries.lookup name = none →
      Leads (directory entries) above [name] ⟨none, name :: above.map (·.1)⟩

theorem leads_of_follow {here : FileTree} {above : List (String × FileTree)} {names : List String}
    {place : Place} (h : here.follow above names = .ok place) : Leads here above names place := by
  induction names generalizing here above with
  | nil =>
    cases h
    exact .done here above
  | cons name rest ih =>
    cases here with
    | file bytes => cases h
    | directory entries =>
      simp only [follow] at h
      split at h
      · next hdot => exact hdot ▸ .stay (ih h)
      split at h
      · next hdots =>
        subst hdots
        split at h
        · exact .top (ih h)
        · exact .up (ih h)
      split at h
      · cases h
      split at h
      · next hdot hdots hsize _ entry hlookup =>
        exact .down hdot hdots (Nat.le_of_not_lt hsize) hlookup (ih h)
      · next hdot hdots hsize _ hlookup =>
        split at h
        · next hrest =>
          cases h
          rw [List.isEmpty_iff.mp hrest]
          exact .missing hdot hdots (Nat.le_of_not_lt hsize) hlookup
        · cases h

theorem Leads.follow {here : FileTree} {above : List (String × FileTree)} {names : List String}
    {place : Place} (h : Leads here above names place) : here.follow above names = .ok place := by
  induction h with
  | done here above => rfl
  | stay _ ih => simpa [FileTree.follow] using ih
  | top _ ih => simpa [FileTree.follow] using ih
  | up _ ih => simpa [FileTree.follow] using ih
  | down hdot hdots hsize hlookup _ ih =>
    simp only [FileTree.follow, hdot, hdots, hlookup, Nat.not_lt.mpr hsize, ih]
    rfl
  | missing hdot hdots hsize hlookup =>
    simp only [FileTree.follow, hdot, hdots, hlookup, Nat.not_lt.mpr hsize]
    rfl

theorem Leads.get?_place {t here : FileTree} {above : List (String × FileTree)}
    {names : List String} {place : Place} (h : Leads here above names place)
    (hreached : Reached t here above) : t.get? place.names.reverse = place.entry := by
  induction h with
  | done here above => exact hreached.get?
  | stay _ ih => exact ih hreached
  | top _ ih => exact ih hreached
  | up _ ih =>
    cases hreached with
    | into houter _ => exact ih houter
  | down _ _ _ hlookup _ ih => exact ih (.into hreached hlookup)
  | missing _ _ _ hlookup =>
    exact (hreached.get?_name _).trans hlookup

/-- In a tree that has all of `t` and something at the place, the same names lead there. -/
theorem Leads.of_covers {t t' here here' : FileTree} {above above' : List (String × FileTree)}
    {names : List String} {place : Place} (h : Leads here above names place) (hcovers : Covers t t')
    (hreached : Reached t here above) (hreached' : Reached t' here' above')
    (habove : above'.map (·.1) = above.map (·.1)) {entry : FileTree}
    (hentry : t'.get? place.names.reverse = some entry) :
    Leads here' above' names ⟨some entry, place.names⟩ := by
  -- Both walks stand at the same names all along, each with the directories of its own tree.
  induction h generalizing here' above' with
  | done here above =>
    have hhere := hreached'.get?
    rw [habove] at hhere
    cases hhere.symm.trans hentry
    rw [← habove]
    exact .done entry above'
  | stay _ ih =>
    obtain ⟨entries', rfl, -⟩ := hcovers.directory hreached hreached' habove
    exact .stay (ih hreached hreached' habove hentry)
  | top _ ih =>
    obtain ⟨entries', rfl, -⟩ := hcovers.directory hreached hreached' habove
    cases List.map_eq_nil_iff.mp habove
    exact .top (ih hreached hreached' habove hentry)
  | up _ ih =>
    obtain ⟨entries', rfl, -⟩ := hcovers.directory hreached hreached' habove
    cases hreached with
    | into houter _ =>
      cases hreached' with
      | root => cases habove
      | into houter' _ => exact .up (ih houter houter' (List.cons.inj habove).2 hentry)
  | down hdot hdots hsize hlookup _ ih =>
    obtain ⟨entries', rfl, hentries⟩ := hcovers.directory hreached hreached' habove
    obtain ⟨entry', hlookup'⟩ := hentries _ _ hlookup
    exact .down hdot hdots hsize hlookup' (ih (.into hreached hlookup) (.into hreached' hlookup')
      (congrArg (_ :: ·) habove) hentry)
  | missing hdot hdots hsize hlookup =>
    -- The name that was not there is the one the entry has in the other tree.
    obtain ⟨entries', rfl, -⟩ := hcovers.directory hreached hreached' habove
    rw [← habove, hreached'.get?_name] at hentry
    rw [← habove]
    exact .down hdot hdots hsize hentry (.done entry _)

theorem Leads.isDirectory_of_dot {here : FileTree} {above : List (String × FileTree)}
    {names : List String} {place : Place} (h : Leads here above names place)
    (hdot : names.getLast? = some ".") : ∃ entries, place.entry = some (directory entries) := by
  have hrest {name : String} {rest : List String} (hne : name ≠ ".")
      (hlast : (name :: rest).getLast? = some ".") : rest.getLast? = some "." := by
    cases rest with
    | nil => exact absurd (Option.some.inj hlast) hne
    | cons other rest => rwa [List.getLast?_cons_cons] at hlast
  induction h with
  | done here above => cases hdot
  | @stay entries above rest place htail ih =>
    cases rest with
    | nil =>
      cases htail
      exact ⟨entries, rfl⟩
    | cons other rest => exact ih (by rwa [List.getLast?_cons_cons] at hdot)
  | top _ ih => exact ih (hrest (by decide) hdot)
  | up _ ih => exact ih (hrest (by decide) hdot)
  | down hne _ _ _ _ ih => exact ih (hrest hne hdot)
  | missing hne => exact absurd (Option.some.inj hdot) hne

theorem getLast?_ne_dot_of_writeFile {t t' : FileTree} {names : List String} {bytes : Bytes}
    (h : t.writeFile names bytes = .ok t') : names.getLast? ≠ some "." := by
  intro hdot
  rw [writeFile] at h
  split at h
  · cases h
  · next place hnot hfollow =>
    obtain ⟨entries, hentry⟩ := (leads_of_follow hfollow).isDirectory_of_dot hdot
    exact hnot entries place.names (by rw [← hentry])
  · cases h

/-- A file is written where names lead, unless a directory is there, and no directory is lost. -/
theorem writeFile_eq_ok {t t' : FileTree} {names : List String} {bytes : Bytes}
    (h : t.writeFile names bytes = .ok t') :
    ∃ place, Leads t [] names place ∧ t' = t.put (file bytes) place.names.reverse ∧ Covers t t' := by
  rw [writeFile] at h
  split at h
  · cases h
  · next place hnot hfollow =>
    cases h
    have hleads := leads_of_follow hfollow
    have hplace := hleads.get?_place .root
    have hfree : ∀ here, t.get? place.names.reverse = some here → ¬here.IsDirectory := by
      rintro here hhere ⟨entries, rfl⟩
      exact hnot entries place.names (by rw [← hhere, hplace])
    exact ⟨place, hleads, rfl, covers_put (file bytes) hfree⟩
  · cases h

/-- A file that is written is found by the names it was written under. -/
theorem follow_writeFile {t t' : FileTree} {names : List String} {bytes : Bytes}
    (h : t.writeFile names bytes = .ok t') :
    ∃ path, t'.follow [] names = .ok ⟨some (file bytes), path⟩ := by
  obtain ⟨place, hleads, rfl, hcovers⟩ := writeFile_eq_ok h
  exact ⟨_, (hleads.of_covers hcovers .root .root rfl (get?_put_self t (file bytes) _)).follow⟩

/-- There is a file under these names, so it can be replaced. -/
theorem exists_writeFile {t : FileTree} {names : List String} {bytes : Bytes} {path : FilePath}
    (h : t.follow [] names = .ok ⟨some (file bytes), path⟩) (again : Bytes) :
    ∃ t', t.writeFile names again = .ok t' :=
  ⟨t.put (file again) path.reverse, by rw [writeFile, h]⟩

/-! ## Directories above a file -/

def HasDirectory (t : FileTree) (names : List String) : Prop :=
  ∃ entries path, t.follow [] names = .ok ⟨some (directory entries), path⟩

theorem HasDirectory.of_covers {t t' : FileTree} {names : List String} (h : t.HasDirectory names)
    (hcovers : Covers t t') : t'.HasDirectory names := by
  obtain ⟨entries, path, hfollow⟩ := h
  have hleads := leads_of_follow hfollow
  obtain ⟨here, hhere, hdirectory⟩ := hcovers _ _ (hleads.get?_place .root)
  obtain ⟨entries', rfl⟩ := hdirectory ⟨entries, rfl⟩
  exact ⟨entries', path, (hleads.of_covers hcovers .root .root rfl hhere).follow⟩

theorem hasDirectory_of_createDir {t t' : FileTree} {names : List String}
    (h : t.createDir names = .ok t') : t'.HasDirectory names := by
  rw [createDir] at h
  split at h
  · next entries path hfollow =>
    cases h
    exact ⟨entries, path, hfollow⟩
  · cases h
  · next path hfollow =>
    cases h
    have hleads := leads_of_follow hfollow
    have hfree : ∀ here, t.get? path.reverse = some here → ¬here.IsDirectory := by
      intro here hhere
      cases (hleads.get?_place .root).symm.trans hhere
    exact ⟨[], path, (hleads.of_covers (covers_put empty hfree) .root .root rfl
      (get?_put_self t empty _)).follow⟩
  · cases h

/-- The innermost directory is there at the end, whichever of those above it had to be created. -/
theorem hasDirectory_of_createDirs {t t' : FileTree} {names : List String}
    (h : t.createDirs names = (.ok (), t')) (hne : names ≠ []) : t'.HasDirectory names.reverse := by
  cases names with
  | nil => exact absurd rfl hne
  | cons name above =>
    rw [createDirs] at h
    split at h
    · next hcreate =>
      cases h
      exact hasDirectory_of_createDir hcreate
    · split at h
      · split at h
        · next hcreate =>
          cases h
          exact hasDirectory_of_createDir hcreate
        · cases h
      · next hfailed => exact absurd h (hfailed t')
    · cases h

theorem createDirs_of_hasDirectory {t : FileTree} {names : List String}
    (h : names ≠ [] → t.HasDirectory names.reverse) : t.createDirs names = (.ok (), t) := by
  cases names with
  | nil => rfl
  | cons name above =>
    obtain ⟨entries, path, hfollow⟩ := h (List.cons_ne_nil name above)
    have hcreate : t.createDir (name :: above).reverse = .ok t := by rw [createDir, hfollow]
    rw [createDirs, hcreate]

end FileTree
end ConflictBatching
