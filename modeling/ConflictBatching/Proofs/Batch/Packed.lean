import ConflictBatching.Proofs.Batch.Schedulers

/-! # Windows that are packed already

A window is packed when none of its repeats stands before a first occurrence. A call leaves its window
packed and a packed window as it is, so a second call without a step in between finds the batch of the
first. What both schedulers leave is said once, for any window within keys and tokens.
-/
namespace ConflictBatching

theorem zip_map_fst_snd_append {α β : Type} (items : List (α × β)) (xs : List α) (ys : List β) :
    (items.map Prod.fst ++ xs).zip (items.map Prod.snd ++ ys) = items ++ xs.zip ys := by
  rw [List.zip_append (by rw [List.length_map, List.length_map])]
  congr 1
  exact (List.zip_of_prod rfl rfl).symm

theorem zip_take_append_zip_drop {α β : Type} (xs : List α) (ys : List β) (n : Nat) :
    (xs.take n).zip (ys.take n) ++ (xs.drop n).zip (ys.drop n) = xs.zip ys := by
  simp only [List.zip, ← List.take_zipWith, ← List.drop_zipWith, List.take_append_drop]

variable {κ τ : Type}

/-- Behind a position that repeats all positions repeat. -/
def Packed (keys : List κ) : Prop :=
  ∀ i j, i < j → j < keys.length → RepeatsAt keys i → RepeatsAt keys j

/-- Different keys followed by some of them again: the repeats are what follows. -/
theorem repeatsAt_append_iff {xs ys : List κ} (hnodup : xs.Nodup) (hsub : ys ⊆ xs) {i : Nat}
    (hi : i < (xs ++ ys).length) : RepeatsAt (xs ++ ys) i ↔ xs.length ≤ i := by
  constructor
  · intro hrepeat
    by_contra hlt
    have htake : ((xs ++ ys).take xs.length).Nodup := by rwa [List.take_left]
    exact (nodup_take_iff _ _).mp htake i (Nat.lt_of_not_le hlt) hrepeat
  · intro hle
    have hi' : i - xs.length < ys.length := by
      rw [List.length_append] at hi
      omega
    refine ⟨ys[i - xs.length], ?_, ?_⟩
    · rw [List.getElem?_append_right hle, List.getElem?_eq_getElem hi']
    · rw [List.take_append, List.take_of_length_le hle]
      exact List.mem_append_left _ (hsub (List.getElem_mem hi'))

/-- Where the accepted positions come last, taking them to the back moves nothing: an accepted position at
the front means that all are. -/
theorem atPositions_append_of_last {accept : Nat → Bool} {items : List κ}
    (h : ∀ i j, i < j → j < items.length → accept i = true → accept j = true) :
    atPositions (fun i => !accept i) items ++ atPositions accept items = items := by
  induction items generalizing accept with
  | nil => rfl
  | cons x xs ih =>
    have hsucc : ∀ i j, i < j → j < xs.length → accept (i + 1) = true → accept (j + 1) = true :=
      fun i j hij hj => h (i + 1) (j + 1) (Nat.succ_lt_succ hij) (Nat.succ_lt_succ hj)
    have hrest := ih hsucc
    rw [atPositions_cons, atPositions_cons]
    cases hzero : accept 0 with
    | false => simpa using hrest
    | true =>
      have hall : ∀ i < xs.length, accept (i + 1) = true :=
        fun i hi => h 0 (i + 1) (Nat.succ_pos i) (Nat.succ_lt_succ hi) hzero
      have hnone : atPositions (fun i => !accept (i + 1)) xs = [] := by
        have hfalse : atPositions (fun i => !accept (i + 1)) xs = atPositions (fun _ => false) xs :=
          atPositions_congr fun i hi => by rw [hall i hi, Bool.not_true]
        simpa [atPositions] using hfalse
      rw [hnone, List.nil_append] at hrest
      rw [hnone, hrest]
      rfl

theorem length_front {window : Nat} {keys : List κ} {tokens : List τ}
    (h : window ≤ min keys.length tokens.length) :
    ((keys.take window).zip (tokens.take window)).length = window := by
  rw [List.length_zip, List.length_take, List.length_take]
  omega

theorem front_keys {window : Nat} {keys : List κ} {tokens : List τ}
    (h : window ≤ min keys.length tokens.length) :
    ((keys.take window).zip (tokens.take window)).map Prod.fst = keys.take window := by
  apply List.map_fst_zip
  rw [List.length_take, List.length_take]
  omega

variable [DecidableEq κ]

theorem repeatsAt_packed_iff (items : List (κ × τ)) {i : Nat} (hi : i < items.length) :
    RepeatsAt ((firsts items ++ repeated items).map Prod.fst) i ↔ (firsts items).length ≤ i := by
  have hlen : i < ((firsts items).map Prod.fst ++ (repeated items).map Prod.fst).length := by
    rwa [← List.map_append, List.length_map, (firsts_append_repeated_perm items).length_eq]
  have hsub : (repeated items).map Prod.fst ⊆ (firsts items).map Prod.fst := by
    intro key hkey
    obtain ⟨x, hx, rfl⟩ := List.mem_map.mp hkey
    exact repeated_key_mem hx
  rw [List.map_append, repeatsAt_append_iff (firstsFrom_keys_nodup [] items) hsub hlen,
    List.length_map]

theorem packed_iff_arranged (items : List (κ × τ)) :
    Packed (items.map Prod.fst) ↔ firsts items ++ repeated items = items := by
  constructor
  · intro hpacked
    obtain ⟨hfirsts, hrepeated⟩ := firsts_eq_atPositions items
    rw [hfirsts, hrepeated]
    apply atPositions_append_of_last
    intro i j hij hj hi
    rw [keyBefore_iff] at hi ⊢
    exact hpacked i j hij (by rwa [List.length_map]) hi
  · intro heq i j hij hj hi
    rw [List.length_map] at hj
    rw [← heq, repeatsAt_packed_iff items (hij.trans hj)] at hi
    rw [← heq, repeatsAt_packed_iff items hj]
    exact hi.trans hij.le

/-! ## What a call leaves -/

/-- The items below `window` packed, and the batch at their front. -/
def packFront (width window : Nat) (keys : List κ) (tokens : List τ) : Scheduled κ τ :=
  let items := (keys.take window).zip (tokens.take window)
  { size := min width (items.map Prod.fst).toFinset.card
    keys := (firsts items ++ repeated items).map Prod.fst ++ keys.drop window
    tokens := (firsts items ++ repeated items).map Prod.snd ++ tokens.drop window }

theorem schedule_eq_packFront {width : Nat} (hmax : width ≤ 16) (keys : List κ) (tokens : List τ)
    (extent : Nat) :
    schedule width keys tokens extent =
      packFront width (min (min extent (2 * width)) (min keys.length tokens.length)) keys tokens := by
  rw [schedule, arrange_eq width ((Nat.min_le_right ..).trans (window_le_maxLanes hmax)),
    ofItems_arranged, packFront]

theorem scheduleReference_eq_packFront (width : Nat) (keys : List κ) (tokens : List τ)
    (extent : Nat) :
    scheduleReference width keys tokens extent =
      packFront width (min (min extent (referenceReach width)) (min keys.length tokens.length))
        keys tokens := by
  rw [scheduleReference, arrangeReference_eq, ofItems_arranged, packFront]

section Front
variable (width : Nat) {window : Nat} {keys : List κ} {tokens : List τ}

theorem length_packed (h : window ≤ min keys.length tokens.length) :
    (firsts ((keys.take window).zip (tokens.take window)) ++
      repeated ((keys.take window).zip (tokens.take window))).length = window := by
  rw [(firsts_append_repeated_perm _).length_eq, length_front h]

theorem packFront_lengths (h : window ≤ min keys.length tokens.length) :
    (packFront width window keys tokens).keys.length = keys.length ∧
      (packFront width window keys tokens).tokens.length = tokens.length := by
  simp only [packFront, List.length_append, List.length_map, List.length_drop]
  rw [← List.length_append, length_packed h]
  omega

/-- The window of what is left holds the packed items. -/
theorem packFront_front (h : window ≤ min keys.length tokens.length) :
    ((packFront width window keys tokens).keys.take window).zip
        ((packFront width window keys tokens).tokens.take window) =
      firsts ((keys.take window).zip (tokens.take window)) ++
        repeated ((keys.take window).zip (tokens.take window)) := by
  have hlen := length_packed h
  rw [packFront, List.take_left' (by rw [List.length_map, hlen]),
    List.take_left' (by rw [List.length_map, hlen])]
  exact (List.zip_of_prod rfl rfl).symm

theorem packFront_packFront (h : window ≤ min keys.length tokens.length) :
    packFront width window (packFront width window keys tokens).keys
        (packFront width window keys tokens).tokens =
      packFront width window keys tokens := by
  obtain ⟨hfirsts, hrepeated⟩ := firsts_of_packed ((keys.take window).zip (tokens.take window))
  have hcard := List.toFinset_eq_of_perm _ _ ((firsts_append_repeated_perm
    ((keys.take window).zip (tokens.take window))).map Prod.fst)
  have hlen := length_packed h
  rw [packFront, packFront_front width h, hfirsts, hrepeated, hcard]
  simp only [packFront]
  rw [List.drop_left' (by rw [List.length_map, hlen]), List.drop_left' (by rw [List.length_map, hlen])]

theorem repeatsAt_packFront_iff (h : window ≤ min keys.length tokens.length) {i : Nat}
    (hi : i < window) :
    RepeatsAt (packFront width window keys tokens).keys i ↔ (keys.take window).toFinset.card ≤ i := by
  have hlen : ((keys.take window).zip (tokens.take window)).length = window := length_front h
  rw [← repeatsAt_take hi, packFront, List.take_left' (by rw [List.length_map, length_packed h]),
    repeatsAt_packed_iff _ (hlen.symm ▸ hi), firsts_length_eq_card, front_keys h]

theorem packFront_unchanged_iff (h : window ≤ min keys.length tokens.length) :
    (packFront width window keys tokens).keys = keys ∧
        (packFront width window keys tokens).tokens = tokens ↔
      Packed (keys.take window) := by
  have hfront := packFront_front width h
  rw [← front_keys h, packed_iff_arranged]
  constructor
  · rintro ⟨hkeys, htokens⟩
    rw [← hfront, hkeys, htokens]
  · intro harranged
    have htokens : ((keys.take window).zip (tokens.take window)).map Prod.snd = tokens.take window := by
      apply List.map_snd_zip
      rw [List.length_take, List.length_take]
      omega
    rw [packFront, harranged, front_keys h, htokens]
    exact ⟨List.take_append_drop .., List.take_append_drop ..⟩

end Front

/-- A second call with the same extent finds the batch of the first and moves nothing. In the window the
repeats are the positions from the number of keys on, and only a window that is packed already is left
as it was. -/
theorem schedule_again_moves_nothing {width : Nat} (hmax : width ≤ 16) (keys : List κ)
    (tokens : List τ) (extent : Nat) :
    let window := min (min extent (2 * width)) (min keys.length tokens.length)
    let s := schedule width keys tokens extent
    schedule width s.keys s.tokens extent = s ∧
    (∀ i < window, RepeatsAt s.keys i ↔ (keys.take window).toFinset.card ≤ i) ∧
    (s.keys = keys ∧ s.tokens = tokens ↔ Packed (keys.take window)) := by
  intro window s
  have hwindow : window ≤ min keys.length tokens.length := Nat.min_le_right ..
  have hs : s = packFront width window keys tokens := schedule_eq_packFront hmax keys tokens extent
  obtain ⟨hkeys, htokens⟩ := packFront_lengths width hwindow
  rw [hs]
  refine ⟨?_, fun i hi => repeatsAt_packFront_iff width hwindow hi,
    packFront_unchanged_iff width hwindow⟩
  rw [schedule_eq_packFront hmax, hkeys, htokens]
  exact packFront_packFront width hwindow

/-- The first call moves the fourth item ahead of two repeats and leaves the fifth item, which is behind
the window; the second call moves nothing. -/
theorem schedule_again_moves_none_of_five :
    let keys : List Nat := [7, 7, 7, 5, 6]
    let s := schedule 2 keys [0, 1, 2, 3, 4] 5
    2 ≤ 16 ∧ s = ⟨2, [7, 5, 7, 7, 6], [0, 3, 1, 2, 4]⟩ ∧ schedule 2 s.keys s.tokens 5 = s ∧
      ¬Packed (keys.take 4) := by
  intro keys s
  obtain ⟨hagain, -, hunchanged⟩ :=
    schedule_again_moves_nothing (show 2 ≤ 16 by decide) keys [0, 1, 2, 3, 4] 5
  have hs : s = ⟨2, [7, 5, 7, 7, 6], [0, 3, 1, 2, 4]⟩ :=
    (schedule_eq_packFront (by decide) keys [0, 1, 2, 3, 4] 5).trans rfl
  refine ⟨by decide, hs, hagain, fun hpacked => ?_⟩
  have hkeys := (hunchanged.mpr hpacked).1
  exact absurd hkeys (by decide)

end ConflictBatching
