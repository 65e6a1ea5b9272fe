import Mathlib.Data.List.Basic
import Mathlib.Data.List.Count

/-! # First occurrences and repeats of keys

A list of items splits into the first item of every key and all later items. Everything the
scheduler keeps is said key by key: the first occurrences hold the head of the line of each key
and the repeats hold the rest of it.
-/
namespace ConflictBatching
variable {κ τ : Type} [DecidableEq κ]

def ofKey (key : κ) (items : List (κ × τ)) : List (κ × τ) := items.filter (·.1 = key)

/-- The items whose key is neither among `seen` nor before them. -/
def firstsFrom (seen : List κ) : List (κ × τ) → List (κ × τ)
  | [] => []
  | x :: xs => if x.1 ∈ seen then firstsFrom seen xs else x :: firstsFrom (x.1 :: seen) xs

/-- The items whose key is among `seen` or before them. -/
def repeatsFrom (seen : List κ) : List (κ × τ) → List (κ × τ)
  | [] => []
  | x :: xs => if x.1 ∈ seen then x :: repeatsFrom seen xs else repeatsFrom (x.1 :: seen) xs

/-- The first item of every key. -/
abbrev firsts (items : List (κ × τ)) : List (κ × τ) := firstsFrom [] items

/-- The items that follow another item of their key. -/
abbrev repeated (items : List (κ × τ)) : List (κ × τ) := repeatsFrom [] items

@[simp] theorem ofKey_nil (key : κ) : ofKey key ([] : List (κ × τ)) = [] := rfl

@[simp] theorem ofKey_append (key : κ) (xs ys : List (κ × τ)) :
    ofKey key (xs ++ ys) = ofKey key xs ++ ofKey key ys := List.filter_append xs ys

theorem ofKey_cons (key : κ) (x : κ × τ) (xs : List (κ × τ)) :
    ofKey key (x :: xs) = if x.1 = key then x :: ofKey key xs else ofKey key xs := by
  simp [ofKey, List.filter_cons]

theorem mem_ofKey {key : κ} {x : κ × τ} {items : List (κ × τ)} :
    x ∈ ofKey key items ↔ x ∈ items ∧ x.1 = key := by
  simp [ofKey]

theorem ofKey_ne_nil {key : κ} {items : List (κ × τ)} :
    ofKey key items ≠ [] ↔ key ∈ items.map Prod.fst := by
  simp [ofKey, List.filter_eq_nil_iff]

theorem ofKey_prefix_of {xs ys : List (κ × τ)} (key : κ) (h : xs <+: ys) :
    ofKey key xs <+: ofKey key ys := h.filter _

/-- Lists with the same line for every key hold the same items. -/
theorem perm_of_ofKey_eq {xs ys : List (κ × τ)} (h : ∀ key, ofKey key xs = ofKey key ys) :
    xs.Perm ys := by
  classical
  rw [List.perm_iff_count]
  intro x
  have hx : ∀ zs : List (κ × τ), zs.count x = (ofKey x.1 zs).count x :=
    fun zs => (List.count_filter (by simp)).symm
  rw [hx xs, hx ys, h x.1]

theorem ofKey_firstsFrom (key : κ) (seen : List κ) (items : List (κ × τ)) :
    ofKey key (firstsFrom seen items) = if key ∈ seen then [] else (ofKey key items).take 1 := by
  induction items generalizing seen with
  | nil => simp [firstsFrom]
  | cons x xs ih =>
    by_cases hx : x.1 ∈ seen
    · rw [firstsFrom, if_pos hx, ih, ofKey_cons]
      by_cases hkey : x.1 = key
      · simp [hkey ▸ hx]
      · rw [if_neg hkey]
    · rw [firstsFrom, if_neg hx, ofKey_cons, ih, ofKey_cons]
      by_cases hkey : x.1 = key
      · subst hkey
        simp [hx]
      · simp [hkey, Ne.symm hkey]

theorem ofKey_repeatsFrom (key : κ) (seen : List κ) (items : List (κ × τ)) :
    ofKey key (repeatsFrom seen items) =
      if key ∈ seen then ofKey key items else (ofKey key items).drop 1 := by
  induction items generalizing seen with
  | nil => simp [repeatsFrom]
  | cons x xs ih =>
    by_cases hx : x.1 ∈ seen
    · rw [repeatsFrom, if_pos hx, ofKey_cons, ih, ofKey_cons]
      by_cases hkey : x.1 = key
      · simp [hkey ▸ hx]
      · simp only [if_neg hkey]
    · rw [repeatsFrom, if_neg hx, ih, ofKey_cons]
      by_cases hkey : x.1 = key
      · subst hkey
        simp [hx]
      · simp [hkey, Ne.symm hkey]

theorem ofKey_firsts (key : κ) (items : List (κ × τ)) :
    ofKey key (firsts items) = (ofKey key items).take 1 := by
  simp [firsts, ofKey_firstsFrom]

theorem ofKey_repeated (key : κ) (items : List (κ × τ)) :
    ofKey key (repeated items) = (ofKey key items).drop 1 := by
  simp [repeated, ofKey_repeatsFrom]

/-- Moving the first occurrences to the front keeps the line of every key. -/
theorem ofKey_firsts_append_repeated (key : κ) (items : List (κ × τ)) :
    ofKey key (firsts items ++ repeated items) = ofKey key items := by
  rw [ofKey_append, ofKey_firsts, ofKey_repeated, List.take_append_drop]

theorem firsts_append_repeated_perm (items : List (κ × τ)) :
    (firsts items ++ repeated items).Perm items :=
  perm_of_ofKey_eq fun key => ofKey_firsts_append_repeated key items

theorem firsts_length_add_repeated (items : List (κ × τ)) :
    (firsts items).length + (repeated items).length = items.length := by
  rw [← List.length_append, (firsts_append_repeated_perm items).length_eq]

theorem firstsFrom_key_notMem {seen : List κ} {items : List (κ × τ)} {key : κ}
    (h : key ∈ (firstsFrom seen items).map Prod.fst) : key ∉ seen := by
  intro hseen
  apply ofKey_ne_nil.mpr h
  rw [ofKey_firstsFrom, if_pos hseen]

theorem firstsFrom_keys_nodup (seen : List κ) (items : List (κ × τ)) :
    ((firstsFrom seen items).map Prod.fst).Nodup := by
  induction items generalizing seen with
  | nil => simp [firstsFrom]
  | cons x xs ih =>
    rw [firstsFrom]
    split
    · exact ih seen
    · refine List.nodup_cons.mpr ⟨?_, ih (x.1 :: seen)⟩
      intro hmem
      exact firstsFrom_key_notMem hmem List.mem_cons_self

theorem firsts_ne_nil {items : List (κ × τ)} (h : items ≠ []) : firsts items ≠ [] := by
  cases items with
  | nil => exact absurd rfl h
  | cons x xs => simp [firsts, firstsFrom]

theorem firstsFrom_prefix_append (seen : List κ) (xs ys : List (κ × τ)) :
    firstsFrom seen xs <+: firstsFrom seen (xs ++ ys) := by
  induction xs generalizing seen with
  | nil => exact List.nil_prefix
  | cons x xs ih =>
    rw [List.cons_append, firstsFrom, firstsFrom]
    split
    · exact ih seen
    · exact List.cons_prefix_cons.mpr ⟨rfl, ih (x.1 :: seen)⟩

theorem repeatsFrom_prefix_append (seen : List κ) (xs ys : List (κ × τ)) :
    repeatsFrom seen xs <+: repeatsFrom seen (xs ++ ys) := by
  induction xs generalizing seen with
  | nil => exact List.nil_prefix
  | cons x xs ih =>
    rw [List.cons_append, repeatsFrom, repeatsFrom]
    split
    · exact List.cons_prefix_cons.mpr ⟨rfl, ih seen⟩
    · exact ih (x.1 :: seen)

theorem firsts_take_prefix_firsts (n : Nat) (items : List (κ × τ)) :
    firsts (items.take n) <+: firsts items := by
  simpa only [List.take_append_drop] using firstsFrom_prefix_append [] (items.take n) (items.drop n)

theorem repeated_take_prefix_repeated (n : Nat) (items : List (κ × τ)) :
    repeated (items.take n) <+: repeated items := by
  simpa only [List.take_append_drop] using repeatsFrom_prefix_append [] (items.take n) (items.drop n)

theorem firsts_take_prefix_take (n : Nat) (items : List (κ × τ)) :
    firsts (items.take n) <+: (firsts items).take n := by
  have hsum := firsts_length_add_repeated (items.take n)
  have htake := List.length_take_le n items
  exact List.prefix_take_iff.mpr ⟨firsts_take_prefix_firsts n items, by omega⟩

theorem firstsFrom_of_seen {seen : List κ} {items : List (κ × τ)} (h : ∀ x ∈ items, x.1 ∈ seen) :
    firstsFrom seen items = [] ∧ repeatsFrom seen items = items := by
  induction items with
  | nil => exact ⟨rfl, rfl⟩
  | cons x xs ih =>
    obtain ⟨hx, hxs⟩ := List.forall_mem_cons.mp h
    obtain ⟨hfirsts, hrepeats⟩ := ih hxs
    rw [firstsFrom, repeatsFrom, if_pos hx, if_pos hx, hfirsts, hrepeats]
    exact ⟨rfl, rfl⟩

/-- Different new keys in front of items that bring no further key are told apart from them. -/
theorem firstsFrom_append_of_keys {seen : List κ} {xs ys : List (κ × τ)}
    (hnodup : (xs.map Prod.fst).Nodup) (hnew : ∀ x ∈ xs, x.1 ∉ seen)
    (hkeys : ∀ y ∈ ys, y.1 ∈ seen ∨ y.1 ∈ xs.map Prod.fst) :
    firstsFrom seen (xs ++ ys) = xs ∧ repeatsFrom seen (xs ++ ys) = ys := by
  induction xs generalizing seen with
  | nil => exact firstsFrom_of_seen fun y hy => (hkeys y hy).resolve_right List.not_mem_nil
  | cons x xs ih =>
    rw [List.map_cons, List.nodup_cons] at hnodup
    obtain ⟨hx, hxs⟩ := List.forall_mem_cons.mp hnew
    -- The key of `x` joins the seen ones: it is not met again in `xs`, and it may be in `ys`.
    have hnew' : ∀ z ∈ xs, z.1 ∉ x.1 :: seen := by
      intro z hz hmem
      rcases List.mem_cons.mp hmem with heq | hseen
      · exact hnodup.1 (heq ▸ List.mem_map_of_mem hz)
      · exact hxs z hz hseen
    have hkeys' : ∀ y ∈ ys, y.1 ∈ x.1 :: seen ∨ y.1 ∈ xs.map Prod.fst := by
      intro y hy
      have hmem := hkeys y hy
      rw [List.map_cons, List.mem_cons, ← or_assoc, or_comm (a := y.1 ∈ seen)] at hmem
      rwa [List.mem_cons]
    obtain ⟨hfirsts, hrepeats⟩ := ih hnodup.2 hnew' hkeys'
    rw [List.cons_append, firstsFrom, repeatsFrom, if_neg hx, if_neg hx, hfirsts, hrepeats]
    exact ⟨rfl, rfl⟩

theorem repeated_key_mem {items : List (κ × τ)} {x : κ × τ} (h : x ∈ repeated items) :
    x.1 ∈ (firsts items).map Prod.fst := by
  have hmem : x ∈ items := (firsts_append_repeated_perm items).subset (List.mem_append_right _ h)
  have hne := ofKey_ne_nil.mpr (List.mem_map_of_mem (f := Prod.fst) hmem)
  rw [← ofKey_ne_nil, ofKey_firsts]
  simpa using hne

/-- With the first occurrences in front they are the first occurrences again. -/
theorem firsts_of_packed (items : List (κ × τ)) :
    firsts (firsts items ++ repeated items) = firsts items ∧
      repeated (firsts items ++ repeated items) = repeated items :=
  firstsFrom_append_of_keys (firstsFrom_keys_nodup [] items) (fun _ _ => List.not_mem_nil)
    fun _ hy => Or.inr (repeated_key_mem hy)

theorem firstsFrom_map_tokens {τ' : Type} (f : τ → τ') (seen : List κ) (items : List (κ × τ)) :
    firstsFrom seen (items.map (Prod.map id f)) = (firstsFrom seen items).map (Prod.map id f) := by
  induction items generalizing seen with
  | nil => rfl
  | cons x xs ih =>
    rw [List.map_cons, firstsFrom, firstsFrom, Prod.map_fst, id_eq]
    split
    · exact ih seen
    · rw [ih, List.map_cons]

theorem repeatsFrom_map_tokens {τ' : Type} (f : τ → τ') (seen : List κ) (items : List (κ × τ)) :
    repeatsFrom seen (items.map (Prod.map id f)) = (repeatsFrom seen items).map (Prod.map id f) := by
  induction items generalizing seen with
  | nil => rfl
  | cons x xs ih =>
    rw [List.map_cons, repeatsFrom, repeatsFrom, Prod.map_fst, id_eq]
    split
    · rw [ih, List.map_cons]
    · exact ih (x.1 :: seen)

end ConflictBatching
