import ConflictBatching.Proofs.Json.Skip

/-! # Records read off objects

An object may give the fields of a record in any order and leave some of them out, and it may have
members whose names are no field. Its members are read one after the other, and the names that were
given before are all that one of them depends on besides the record.
-/
namespace ConflictBatching

variable {σ α : Type}

theorem reads_of {read : Reader α} {w : Bytes} {v : α} (h : Reads read w v) (name : String)
    {set : σ → α → σ} {s t : σ} (hset : set s v = t) :
    Reads ((Field.of name read set).read s) w t := by
  rw [← hset]
  exact h.map (set s)

theorem readString_spelled {text : String} {content : Bytes} (h : Spelled text.toList content) :
    Reads readString (inQuotes content) text := by
  intro spaces rest hspaces _
  rw [readString, skipSpaces_append hspaces, inQuotes, List.cons_append, List.append_assoc,
    skipSpaces_cons (by decide)]
  exact readText_spelled h rest

/-- Each member gives a field that was not given before and changes the record as that field
does, or it has a name that is no field. -/
inductive Gives (fields : List (Field σ)) :
    List String → List (Bytes × Bytes) → σ → σ → Prop where
  | nil (seen : List String) (s : σ) : Gives fields seen [] s s
  | field {f : Field σ} {seen : List String} {key value : Bytes} {members : List (Bytes × Bytes)}
      {s s' t : σ} : f ∈ fields → f.name ∉ seen → Spelled f.name.toList key →
      Reads (f.read s) value s' → Gives fields (f.name :: seen) members s' t →
      Gives fields seen ((key, value) :: members) s t
  | extra {name : String} {seen : List String} {key value : Bytes}
      {members : List (Bytes × Bytes)} {s t : σ} : (∀ f ∈ fields, f.name ≠ name) →
      Spelled name.toList key → ValueText value → Gives fields seen members s t →
      Gives fields seen ((key, value) :: members) s t

theorem find?_name {fields : List (Field σ)} (hnames : (fields.map (·.name)).Nodup) {f : Field σ}
    (hf : f ∈ fields) : fields.find? (·.name = f.name) = some f := by
  induction fields with
  | nil => simp at hf
  | cons g fields ih =>
    rw [List.map_cons, List.nodup_cons] at hnames
    rcases List.mem_cons.mp hf with rfl | hf
    · simp
    · have hne : g.name ≠ f.name := fun heq =>
        hnames.1 (List.mem_map.mpr ⟨f, hf, heq.symm⟩)
      rw [List.find?_cons_of_neg (by simpa using hne), ih hnames.2 hf]

theorem Separated.length_le {part : α → Bytes → Prop} {xs : List α} {w : Bytes}
    (h : Separated part xs w) : xs.length ≤ w.length + 1 := by
  induction h with
  | last => exact Nat.le_add_left 1 _
  | more _ _ ih =>
    rw [List.length_cons, List.length_append, List.length_cons]
    omega

theorem readMember_gives {fields : List (Field σ)} (hnames : (fields.map (·.name)).Nodup)
    {seen : List String} {member : Bytes × Bytes} {members : List (Bytes × Bytes)} {s t : σ}
    (h : Gives fields seen (member :: members) s t) {w : Bytes} (hw : MemberText member w)
    {rest : Bytes} (hrest : EndsNumber rest) :
    ∃ body s' seen' bytes, skipSpaces (w ++ rest) = byte '"' :: body ∧
      readMember fields s seen body = .ok (s', seen', bytes) ∧
      skipSpaces bytes = skipSpaces rest ∧ Gives fields seen' members s' t := by
  obtain ⟨after, padded, hafter, hpadded, -, hopens⟩ := hw.opens
  cases h with
  | @field f _ key value _ _ s' _ hf hfresh hkey hread hnext =>
    obtain ⟨bytes, hvalue, hspaces⟩ := hread.padded hpadded hrest
    refine ⟨_, s', f.name :: seen, bytes, hopens rest, ?_, hspaces, hnext⟩
    rw [readMember, readText_spelled hkey]
    simp only [bind, Except.bind, find?_name hnames hf, if_neg hfresh, expectColon_append hafter,
      hvalue]
  | @extra name _ key value _ _ _ hother hkey hvalue hnext =>
    obtain ⟨bytes, hskip, hspaces⟩ := skipAny_padded hvalue hpadded hrest
    have hfind : fields.find? (·.name = name) = none := by
      rw [List.find?_eq_none]
      intro f hf
      simpa using hother f hf
    refine ⟨_, s, seen, bytes, hopens rest, ?_, hspaces, hnext⟩
    rw [readMember, readText_spelled hkey]
    simp only [bind, Except.bind, hfind, expectColon_append hafter, hskip]

/-- The first member is read apart from the others. As many steps as there are members are enough
for the others and the end. -/
theorem readMembers_gives {fields : List (Field σ)} (hnames : (fields.map (·.name)).Nodup)
    {members : List (Bytes × Bytes)} {w : Bytes} (hw : Separated MemberText members w)
    {seen : List String} {s t : σ} (h : Gives fields seen members s t) (rest : Bytes) :
    ∃ body s' seen' bytes, skipSpaces (w ++ byte '}' :: rest) = byte '"' :: body ∧
      readMember fields s seen body = .ok (s', seen', bytes) ∧
      members.length ≤ bytes.length ∧
      ∀ fuel, members.length ≤ fuel →
        readMembers fields fuel s' seen' bytes = .ok (t, rest) := by
  -- The layout says where the object ends, and what the members give follows it one by one.
  induction hw generalizing seen s with
  | @last member w hmember =>
    have hends : EndsNumber (byte '}' :: rest) := endsNumber_cons (by decide) rest
    obtain ⟨body, s', seen', bytes, hopens, hread, hspaces, hnext⟩ :=
      readMember_gives hnames h hmember hends
    have hclose : skipSpaces bytes = byte '}' :: rest := hspaces
    have hlength := skipSpaces_length_le bytes
    rw [hclose, List.length_cons] at hlength
    refine ⟨body, s', seen', bytes, hopens, hread, Nat.one_le_of_lt hlength, fun fuel hfuel => ?_⟩
    obtain ⟨fuel, rfl⟩ := Nat.exists_eq_add_of_le' hfuel
    cases hnext
    simp only [List.length_singleton, readMembers, hclose]
    rfl
  | @more member members w ws hmember hws ih =>
    have hends : EndsNumber (byte ',' :: (ws ++ byte '}' :: rest)) :=
      endsNumber_cons (by decide) _
    obtain ⟨body, s', seen', bytes, hopens, hread, hspaces, hnext⟩ :=
      readMember_gives hnames h hmember hends
    obtain ⟨body', s'', seen'', bytes', hopens', hread', -, hrun⟩ := ih hnext
    have hcomma : skipSpaces bytes = byte ',' :: (ws ++ byte '}' :: rest) := hspaces
    have hlength := skipSpaces_length_le bytes
    have hmembers := hws.length_le
    rw [hcomma, List.length_cons, List.length_append, List.length_cons] at hlength
    refine ⟨body, s', seen', bytes, ?_, hread, ?_, fun fuel hfuel => ?_⟩
    · rw [List.append_assoc]
      exact hopens
    · rw [List.length_cons]
      omega
    · rw [List.length_cons] at hfuel
      obtain ⟨fuel, rfl⟩ := Nat.exists_eq_add_of_le' (Nat.one_le_of_lt hfuel)
      simp only [readMembers, hcomma, hopens', hread', bind, Except.bind]
      exact hrun fuel (Nat.le_of_succ_le_succ hfuel)

/-- A record with different names for its fields is read off any object that gives some of
them. -/
theorem readRecord_gives {fields : List (Field σ)} (hnames : (fields.map (·.name)).Nodup)
    {members : List (Bytes × Bytes)} {s t : σ} (h : Gives fields [] members s t) {w : Bytes}
    (hw : ObjectText members w) (expected : String) :
    Reads (readRecord expected fields s) w t := by
  intro spaces rest hspaces _
  rw [readRecord, skipSpaces_append hspaces]
  cases hw with
  | @empty inner hinner =>
    cases h
    have hclose : skipSpaces (inner ++ byte '}' :: rest) = byte '}' :: rest :=
      skipSpaces_append hinner _
    rw [List.cons_append, List.append_assoc, List.singleton_append, skipSpaces_cons (by decide)]
    change readObject fields s _ = _
    simp only [readObject, hclose]
    rfl
  | @parts members inner hparts =>
    obtain ⟨body, s', seen, bytes, hopens, hread, hfuel, hrun⟩ :=
      readMembers_gives hnames hparts h rest
    rw [List.cons_append, List.append_assoc, List.singleton_append, skipSpaces_cons (by decide)]
    change readObject fields s _ = _
    simp only [readObject, hopens, hread, bind, Except.bind]
    exact hrun _ (Nat.le_succ_of_le hfuel)

end ConflictBatching
