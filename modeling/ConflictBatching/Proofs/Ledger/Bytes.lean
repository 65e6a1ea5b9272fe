import Mathlib.Algebra.Group.Nat.Defs
import ConflictBatching.Measure.Accounts

/-! # The bytes of a table

Every record takes the same number of bytes, and every byte of them is a slice of a word at a fixed place.
So the bytes of a table tell its length and all its words, and to compare tables by their bytes is to
compare them.
-/
namespace ConflictBatching

/-! ## Words -/

/-- Bits `8 k` to `8 k + 7` of a word. -/
def byteAt (x : BitVec 64) (k : Nat) : UInt8 := ⟨x.extractLsb' (8 * k) 8⟩

theorem ofNat_div_eq_byteAt (x : BitVec 64) (k : Nat) :
    UInt8.ofNat (x.toNat / 256 ^ k) = byteAt x k := by
  apply UInt8.toBitVec_inj.mp
  apply BitVec.eq_of_toNat_eq
  have hpow : 256 ^ k = 2 ^ (8 * k) := by rw [Nat.pow_mul]
  rw [UInt8.toBitVec_ofNat', BitVec.toNat_ofNat, byteAt, BitVec.extractLsb'_toNat,
    Nat.shiftRight_eq_div_pow, hpow]

theorem littleEndian_eq_map (count n : Nat) :
    littleEndian count n = (List.range count).map fun k => UInt8.ofNat (n / 256 ^ k) := by
  induction count generalizing n with
  | zero => rfl
  | succ count ih =>
    rw [littleEndian, ih, List.range_succ_eq_map, List.map_cons, List.map_map, Nat.pow_zero,
      Nat.div_one]
    congr 1
    apply List.map_congr_left
    intro k _
    rw [Function.comp_apply, Nat.div_div_eq_div_mul, Nat.pow_succ']

theorem littleEndian_toNat (x : BitVec 64) :
    littleEndian 8 x.toNat = (List.range 8).map (byteAt x) := by
  rw [littleEndian_eq_map]
  exact List.map_congr_left fun k _ => ofNat_div_eq_byteAt x k

/-- A word is made up of its bytes. -/
theorem eq_of_byteAt {x y : BitVec 64} (h : ∀ k < 8, byteAt x k = byteAt y k) : x = y := by
  apply BitVec.eq_of_getLsbD_eq
  intro i hi
  -- Bit `i` is bit `i % 8` of byte `i / 8`.
  have hbyte := congrArg UInt8.toBitVec (h (i / 8) (by omega))
  have hbit := congrArg (fun b : BitVec 8 => b.getLsbD (i % 8)) hbyte
  have hmod : i % 8 < 8 := Nat.mod_lt i (by decide)
  simpa [byteAt, hmod, Nat.div_add_mod] using hbit

/-! ## Records -/

theorem getElem?_flatMap_of_length {α β : Type} {f : α → List β} {width : Nat}
    (hwidth : ∀ x, (f x).length = width) (xs : List α) (i : Nat) {k : Nat} (hk : k < width) :
    (xs.flatMap f)[width * i + k]? = xs[i]?.bind fun x => (f x)[k]? := by
  induction xs generalizing i with
  | nil => simp
  | cons x xs ih =>
    rw [List.flatMap_cons]
    cases i with
    | zero =>
      rw [Nat.mul_zero, Nat.zero_add, List.getElem?_append_left (by rwa [hwidth])]
      rfl
    | succ i =>
      have hoffset : width * (i + 1) + k = (f x).length + (width * i + k) := by
        rw [hwidth, Nat.mul_succ]
        omega
      rw [hoffset, List.getElem?_append_right (Nat.le_add_right ..), Nat.add_sub_cancel_left, ih,
        List.getElem?_cons_succ]

namespace Account

theorem bytes_eq (a : Account) :
    a.bytes = (List.range 8).map (byteAt a.balance.toBitVec) ++
      (List.range 8).map (byteAt a.lastTxn.toBitVec) := by
  rw [← littleEndian_toNat, ← littleEndian_toNat]
  rfl

theorem length_bytes (a : Account) : a.bytes.length = 16 := by
  simp [bytes_eq]

theorem getElem?_bytes_balance (a : Account) {k : Nat} (hk : k < 8) :
    a.bytes[k]? = some (byteAt a.balance.toBitVec k) := by
  rw [bytes_eq, List.getElem?_append_left (by simpa using hk), List.getElem?_map,
    List.getElem?_range hk, Option.map_some]

theorem getElem?_bytes_lastTxn (a : Account) {k : Nat} (hk : k < 8) :
    a.bytes[8 + k]? = some (byteAt a.lastTxn.toBitVec k) := by
  rw [bytes_eq, List.getElem?_append_right (by simp), List.length_map, List.length_range,
    Nat.add_sub_cancel_left, List.getElem?_map, List.getElem?_range hk, Option.map_some]

theorem eq_of_words {a b : Account} (hbalance : a.balance = b.balance) (hlastTxn : a.lastTxn = b.lastTxn) :
    a = b := by
  cases a
  cases b
  congr

theorem eq_of_bytes {a b : Account} (h : ∀ k < 16, a.bytes[k]? = b.bytes[k]?) : a = b := by
  apply eq_of_words
  · apply Int64.toBitVec_inj.mp
    apply eq_of_byteAt
    intro k hk
    have hbyte := h k (by omega)
    rw [a.getElem?_bytes_balance hk, b.getElem?_bytes_balance hk] at hbyte
    exact Option.some.inj hbyte
  · apply UInt64.toBitVec_inj.mp
    apply eq_of_byteAt
    intro k hk
    have hbyte := h (8 + k) (by omega)
    rw [a.getElem?_bytes_lastTxn hk, b.getElem?_bytes_lastTxn hk] at hbyte
    exact Option.some.inj hbyte

end Account

/-! ## Tables -/

namespace AccountTable

theorem length_bytes (t : AccountTable) : t.bytes.length = 16 * t.size := by
  rw [bytes, List.length_flatMap, List.map_congr_left fun a _ => a.length_bytes, List.map_const',
    List.sum_replicate_nat, Nat.mul_comm]
  rfl

theorem getElem?_bytes (t : AccountTable) (i : Nat) {k : Nat} (hk : k < 16) :
    t.bytes[16 * i + k]? = t.accounts[i]?.bind fun a => a.bytes[k]? := by
  rw [bytes, getElem?_flatMap_of_length Account.length_bytes _ i hk, Array.getElem?_toList]

theorem bytes_inj {t u : AccountTable} : t.bytes = u.bytes ↔ t = u := by
  refine ⟨fun h => ?_, congrArg bytes⟩
  have hsize : t.accounts.size = u.accounts.size := by
    have hlength := congrArg List.length h
    rw [length_bytes, length_bytes] at hlength
    exact Nat.eq_of_mul_eq_mul_left (by decide) hlength
  have haccounts : t.accounts = u.accounts := by
    apply Array.ext hsize
    intro i ht hu
    apply Account.eq_of_bytes
    intro k hk
    have hbyte := t.getElem?_bytes i hk
    rw [h, u.getElem?_bytes i hk, Array.getElem?_eq_getElem ht, Array.getElem?_eq_getElem hu] at hbyte
    exact hbyte.symm
  cases t
  cases u
  exact congrArg _ haccounts

theorem getElem?_bytes_balance (t : AccountTable) {i k : Nat} (hi : i < t.accounts.size) (hk : k < 8) :
    t.bytes[16 * i + k]? = some (byteAt t.accounts[i].balance.toBitVec k) := by
  rw [t.getElem?_bytes i (by omega), Array.getElem?_eq_getElem hi]
  exact t.accounts[i].getElem?_bytes_balance hk

theorem getElem?_bytes_lastTxn (t : AccountTable) {i k : Nat} (hi : i < t.accounts.size) (hk : k < 8) :
    t.bytes[16 * i + (8 + k)]? = some (byteAt t.accounts[i].lastTxn.toBitVec k) := by
  rw [t.getElem?_bytes i (by omega), Array.getElem?_eq_getElem hi]
  exact t.accounts[i].getElem?_bytes_lastTxn hk

theorem eq_iff_accounts (t u : AccountTable) :
    t = u ↔ t.size = u.size ∧ ∀ i (ht : i < t.accounts.size) (hu : i < u.accounts.size),
      t.accounts[i].balance = u.accounts[i].balance ∧ t.accounts[i].lastTxn = u.accounts[i].lastTxn := by
  constructor
  · rintro rfl
    exact ⟨rfl, fun _ _ _ => ⟨rfl, rfl⟩⟩
  · rintro ⟨hsize, hrecords⟩
    cases t
    cases u
    congr
    apply Array.ext hsize
    intro i ht hu
    obtain ⟨hbalance, hlastTxn⟩ := hrecords i ht hu
    exact Account.eq_of_words hbalance hlastTxn

end AccountTable

/-- Tables that differ are told apart, whatever the times. -/
theorem AccountsParams.compare_eq (p : AccountsParams) (sequential guarded : AccountTable)
    (guard : GuardStats) (outcome : ScheduledOutcome) (s g o : Duration) :
    p.compare (some sequential, s) (some (guard, guarded), g) (some outcome, o) =
      if guarded ≠ sequential then .error .guardedDiverged
      else if outcome.table ≠ sequential then .error .scheduledDiverged
      else .ok (p.report guard outcome s g o) := by
  simp only [compare, ne_eq, AccountTable.bytes_inj]

/-- The bytes of two tables are the same exactly when the tables have the same length and the same words.
A record takes sixteen bytes, the eight of its balance in two's complement and the eight of its last
transfer, both from the lowest up. So a comparison of the three ways to apply transfers by the bytes of
their tables is one of the tables. -/
theorem tables_are_told_by_bytes (t u : AccountTable) :
    (t.bytes = u.bytes ↔ t.size = u.size ∧ ∀ i (ht : i < t.accounts.size) (hu : i < u.accounts.size),
      t.accounts[i].balance = u.accounts[i].balance ∧
        t.accounts[i].lastTxn = u.accounts[i].lastTxn) ∧
    t.bytes.length = 16 * t.size ∧
    (∀ i (hi : i < t.accounts.size), ∀ k < 8,
      t.bytes[16 * i + k]? = some (byteAt (BitVec.ofInt 64 t.accounts[i].balance.toInt) k) ∧
        t.bytes[16 * i + (8 + k)]? = some (byteAt t.accounts[i].lastTxn.toBitVec k)) ∧
    ∀ (p : AccountsParams) (guard : GuardStats) (outcome : ScheduledOutcome) (s g o : Duration),
      p.compare (some t, s) (some (guard, u), g) (some outcome, o) =
        if u ≠ t then .error .guardedDiverged
        else if outcome.table ≠ t then .error .scheduledDiverged
        else .ok (p.report guard outcome s g o) := by
  refine ⟨AccountTable.bytes_inj.trans (t.eq_iff_accounts u), t.length_bytes, ?_,
    fun p => p.compare_eq t u⟩
  intro i hi k hk
  have htwos : BitVec.ofInt 64 t.accounts[i].balance.toInt = t.accounts[i].balance.toBitVec :=
    BitVec.ofInt_toInt
  rw [htwos]
  exact ⟨t.getElem?_bytes_balance hi hk, t.getElem?_bytes_lastTxn hi hk⟩

/-- A negative balance in the second record; the other table differs in the stamp of the first one. -/
theorem tables_are_told_by_bytes_of_two :
    let t : AccountTable := ⟨#[⟨0x0102, 3⟩, ⟨-2, 0⟩]⟩
    let u : AccountTable := ⟨#[⟨0x0102, 4⟩, ⟨-2, 0⟩]⟩
    t.bytes = [2, 1, 0, 0, 0, 0, 0, 0, 3, 0, 0, 0, 0, 0, 0, 0,
      0xfe, 0xff, 0xff, 0xff, 0xff, 0xff, 0xff, 0xff, 0, 0, 0, 0, 0, 0, 0, 0] ∧
      1 < t.accounts.size ∧ 7 < 8 ∧
      t.bytes[16 * 1 + 7]? = some (byteAt (BitVec.ofInt 64 (-2)) 7) ∧ t.bytes ≠ u.bytes ∧
      ∀ (p : AccountsParams) (outcome : ScheduledOutcome),
        p.compare (some t, ⟨0⟩) (some ({}, u), ⟨0⟩) (some outcome, ⟨0⟩) = .error .guardedDiverged := by
  intro t u
  have hsize : 1 < t.accounts.size := by decide
  obtain ⟨hsame, -, hbytes, hcompare⟩ := tables_are_told_by_bytes t u
  obtain ⟨hbalance, -⟩ := hbytes 1 hsize 7 (by decide)
  have hstamp : t.bytes ≠ u.bytes := by
    intro h
    exact absurd ((hsame.mp h).2 0 (by decide) (by decide)).2 (by decide)
  refine ⟨by decide, hsize, by decide, hbalance, hstamp, fun p outcome => ?_⟩
  exact (hcompare p {} outcome ⟨0⟩ ⟨0⟩ ⟨0⟩).trans (if_pos (by decide))

end ConflictBatching
