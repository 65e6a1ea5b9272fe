import ConflictBatching.Ledger.Arrival
import ConflictBatching.Proofs.Lane.Pick
import ConflictBatching.Proofs.Ledger.Effect

/-! # Lines follow arrival

What has run on an account and what still stands in its line are together its transfers in arrival
order. A transfer runs only from the front of its lines, so this stays true however late it is
delivered. A pass over all the transfers that have not run releases every one of them: the earliest
of them is always first on both of its accounts.
-/
namespace ConflictBatching

/-- Whether the transfer that arrived as number `i` touches an account. -/
def touchesAt (transfers : List Transfer) (account i : Nat) : Bool :=
  transfers[i]?.any fun t => t.touches account

def arrivals (transfers : List Transfer) (account : Nat) : List Nat :=
  (List.range transfers.length).filter (touchesAt transfers account)

def transfersAt (transfers : List Transfer) (indices : List Nat) : List Transfer :=
  indices.filterMap (transfers[·]?)

theorem transfersAt_append (transfers : List Transfer) (is js : List Nat) :
    transfersAt transfers (is ++ js) = transfersAt transfers is ++ transfersAt transfers js :=
  List.filterMap_append

theorem transfersAt_range (transfers : List Transfer) :
    transfersAt transfers (List.range transfers.length) = transfers := by
  have h := filterMap_range_eq_atPositions (fun _ => true) transfers (Nat.le_refl _)
  simpa [atPositions, transfersAt] using h

theorem mem_of_mem_transfersAt {transfers : List Transfer} {indices : List Nat} {t : Transfer}
    (h : t ∈ transfersAt transfers indices) : t ∈ transfers := by
  obtain ⟨i, -, hi⟩ := List.mem_filterMap.mp h
  exact List.mem_of_getElem? hi

theorem filter_transfersAt (transfers : List Transfer) (account : Nat) (indices : List Nat) :
    (transfersAt transfers indices).filter (·.touches account) =
      transfersAt transfers (indices.filter (touchesAt transfers account)) := by
  rw [transfersAt, transfersAt, List.filter_filterMap, List.filterMap_filter]
  congr 1
  funext i
  cases h : transfers[i]? with
  | none => simp [touchesAt, h]
  | some t =>
    by_cases ht : t.touches account <;> simp [touchesAt, h, ht]

theorem touchesAt_eq {transfers : List Transfer} {i : Nat} {t : Transfer}
    (h : transfers[i]? = some t) (account : Nat) :
    touchesAt transfers account i = decide (t.touches account) := by
  rw [touchesAt, h, Option.any_some]

theorem mem_arrivals {transfers : List Transfer} {account i : Nat} :
    i ∈ arrivals transfers account ↔ touchesAt transfers account i = true := by
  rw [arrivals, List.mem_filter, List.mem_range, and_iff_right_iff_imp]
  intro h
  by_contra hi
  simp [touchesAt, List.getElem?_eq_none (Nat.le_of_not_lt hi)] at h

theorem arrivals_sorted (transfers : List Transfer) (account : Nat) :
    (arrivals transfers account).Pairwise (· < ·) :=
  List.pairwise_lt_range.filter _

theorem arrivals_cons (t : Transfer) (ts : List Transfer) (account : Nat) :
    arrivals (t :: ts) account =
      (if t.touches account then [0] else []) ++ (arrivals ts account).map (· + 1) := by
  have hshift : touchesAt (t :: ts) account ∘ Nat.succ = touchesAt ts account := rfl
  rw [arrivals, List.length_cons, List.range_succ_eq_map, List.filter_cons, List.filter_map, hshift]
  by_cases h : t.touches account <;> simp [touchesAt, h, arrivals]

namespace ArrivalOrder

def line (o : ArrivalOrder) (account : Nat) : List Nat := o.lines[account]?.getD []

theorem next?_eq_head? (o : ArrivalOrder) (account : Nat) :
    o.next? account = (o.line account).head? := by
  rw [next?, line]
  cases o.lines[account]? <;> rfl

theorem line_leave (o : ArrivalOrder) (t : Transfer) (account : Nat) :
    (o.leave t).line account =
      if t.touches account then (o.line account).tail else o.line account := by
  by_cases hst : t.target = t.source
  · simp only [line, leave, hst, ↓reduceIte, Array.getElem?_modify, Transfer.touches, or_self]
    split <;> cases o.lines[account]? <;> rfl
  · simp only [line, leave, hst, ↓reduceIte, Array.getElem?_modify, Transfer.touches]
    by_cases hs : t.source = account <;> by_cases ht : t.target = account <;>
      cases o.lines[account]? <;> simp_all

theorem join?_eq_some_iff {lines lines' : Array (List Nat)} {account i : Nat} :
    join? lines account i = some lines' ↔
      account < lines.size ∧ lines.modify account (i :: ·) = lines' := by
  rw [join?]
  split <;> simp [*]

section Enter
variable {lines lines' : Array (List Nat)} {i : Nat} {t : Transfer}

/-- A transfer that enters has a line on both its accounts, and is then the first in both. -/
theorem enter?_eq_some (h : enter? lines i t = some lines') :
    t.within lines.size ∧ lines'.size = lines.size ∧ ∀ account < lines.size,
      lines'[account]?.getD [] = (if t.touches account then [i] else []) ++ lines[account]?.getD [] := by
  obtain ⟨joined, hsource, hrest⟩ := Option.bind_eq_some_iff.mp h
  obtain ⟨hs, rfl⟩ := join?_eq_some_iff.mp hsource
  by_cases hst : t.target = t.source
  · rw [if_pos hst] at hrest
    obtain rfl := Option.some.inj hrest
    refine ⟨⟨hs, hst ▸ hs⟩, Array.size_modify, ?_⟩
    intro account haccount
    simp only [Array.getElem?_modify, Transfer.touches, hst, or_self]
    split <;> simp [haccount]
  · rw [if_neg hst] at hrest
    obtain ⟨ht, rfl⟩ := join?_eq_some_iff.mp hrest
    refine ⟨⟨hs, by simpa using ht⟩, by simp, ?_⟩
    intro account haccount
    simp only [Array.getElem?_modify, Transfer.touches]
    by_cases hsource : t.source = account <;> by_cases htarget : t.target = account <;> simp_all

theorem enter?_isSome (h : t.within lines.size) : (enter? lines i t).isSome = true := by
  obtain ⟨hs, ht⟩ := h
  have hsource : join? lines t.source i = some _ := join?_eq_some_iff.mpr ⟨hs, rfl⟩
  have htarget : (join? (lines.modify t.source (i :: ·)) t.target i).isSome = true := by
    simp [join?, ht]
  simp only [enter?, hsource, Option.bind_eq_bind, Option.bind_some]
  split
  · rfl
  · exact htarget

end Enter

theorem linesOf?_cons (accounts i : Nat) (t : Transfer) (numbered : List (Transfer × Nat)) :
    linesOf? accounts ((t, i) :: numbered) =
      (linesOf? accounts numbered).bind fun lines => enter? lines i t :=
  List.foldrM_cons

/-- Lines that were built hold, for each account, the numbers of the transfers that touch it, and no
transfer names an account without a line. -/
theorem linesOf?_eq_some {accounts k : Nat} {ts : List Transfer} {lines : Array (List Nat)}
    (h : linesOf? accounts (ts.zipIdx k) = some lines) :
    (∀ t ∈ ts, t.within accounts) ∧ lines.size = accounts ∧
      ∀ account < accounts, lines[account]?.getD [] = (arrivals ts account).map (· + k) := by
  induction ts generalizing k lines with
  | nil =>
    cases h
    refine ⟨by simp, Array.size_replicate, ?_⟩
    intro account haccount
    simp [arrivals, haccount]
  | cons t ts ih =>
    -- the later transfers, numbered from k + 1, enter first
    rw [List.zipIdx_cons, linesOf?_cons] at h
    obtain ⟨later, hlater, henter⟩ := Option.bind_eq_some_iff.mp h
    obtain ⟨hwithin, rfl, hlines⟩ := ih hlater
    obtain ⟨ht, hsize, hfirst⟩ := enter?_eq_some henter
    refine ⟨List.forall_mem_cons.mpr ⟨ht, hwithin⟩, hsize, ?_⟩
    intro account haccount
    rw [hfirst account haccount, hlines account haccount, arrivals_cons, List.map_append,
      List.map_map]
    congr 1
    · split <;> simp
    · apply List.map_congr_left
      intro i _
      simp only [Function.comp_apply]
      omega

theorem linesOf?_isSome {accounts k : Nat} {ts : List Transfer} (h : ∀ t ∈ ts, t.within accounts) :
    (linesOf? accounts (ts.zipIdx k)).isSome = true := by
  induction ts generalizing k with
  | nil => rfl
  | cons t ts ih =>
    obtain ⟨ht, hts⟩ := List.forall_mem_cons.mp h
    obtain ⟨later, hlater⟩ := Option.isSome_iff_exists.mp (ih (k := k + 1) hts)
    obtain ⟨-, rfl, -⟩ := linesOf?_eq_some hlater
    rw [List.zipIdx_cons, linesOf?_cons, hlater, Option.bind_some]
    exact enter?_isSome ht

/-- What has run and what is in line are, on each account, its transfers by arrival. -/
def Follows (transfers : List Transfer) (applied : List Nat) (o : ArrivalOrder) : Prop :=
  ∀ account, applied.filter (touchesAt transfers account) ++ o.line account =
    arrivals transfers account

/-- Lines can be built only where no transfer names a missing account, and then they hold all
transfers by arrival. -/
theorem start?_eq_some {accounts : Nat} {transfers : List Transfer} {o : ArrivalOrder}
    (h : start? accounts transfers = some o) :
    (∀ t ∈ transfers, t.within accounts) ∧ o.lines.size = accounts ∧ Follows transfers [] o := by
  obtain ⟨lines, hbuilt, rfl⟩ := Option.map_eq_some_iff.mp h
  obtain ⟨hwithin, hsize, hlines⟩ := linesOf?_eq_some hbuilt
  refine ⟨hwithin, hsize, ?_⟩
  intro account
  rw [List.filter_nil, List.nil_append, line]
  by_cases haccount : account < accounts
  · simpa using hlines account haccount
  · have hnone : arrivals transfers account = [] := by
      rw [List.eq_nil_iff_forall_not_mem]
      intro i hi
      rw [mem_arrivals, touchesAt, Option.any_eq_true] at hi
      obtain ⟨t, ht, htouch⟩ := hi
      obtain ⟨hsource, htarget⟩ := hwithin t (List.mem_of_getElem? ht)
      rcases of_decide_eq_true htouch with rfl | rfl
      · exact haccount hsource
      · exact haccount htarget
    rw [hnone, Array.getElem?_eq_none (hsize.trans_le (Nat.le_of_not_lt haccount))]
    rfl

theorem start?_isSome_iff {accounts : Nat} {transfers : List Transfer} :
    (start? accounts transfers).isSome = true ↔ ∀ t ∈ transfers, t.within accounts := by
  constructor
  · intro h
    obtain ⟨o, hstart⟩ := Option.isSome_iff_exists.mp h
    exact (start?_eq_some hstart).1
  · intro h
    rw [start?, Option.isSome_map]
    exact linesOf?_isSome h

theorem start?_of_within {accounts : Nat} {transfers : List Transfer}
    (h : ∀ t ∈ transfers, t.within accounts) :
    ∃ o, start? accounts transfers = some o ∧ Follows transfers [] o := by
  obtain ⟨o, hstart⟩ := Option.isSome_iff_exists.mp (start?_isSome_iff.mpr h)
  exact ⟨o, hstart, (start?_eq_some hstart).2.2⟩

end ArrivalOrder
end ConflictBatching
