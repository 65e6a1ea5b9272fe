import ConflictBatching.Json.Record
import ConflictBatching.Proofs.Json.Grammar

/-! # Written numbers read back

A number is written by its digits, without zeros in front. Read again, its digits are taken up to
the first byte that no number goes on with, and all of them fit a machine word.
-/
namespace ConflictBatching

/-- What may follow a number: nothing that it could go on with. -/
def EndsNumber (rest : Bytes) : Prop :=
  ∀ b ∈ rest.head?, isDigit b = false ∧ b ≠ byte '.' ∧ isExponent b = false

theorem endsNumber_cons {b : UInt8}
    (h : isDigit b = false ∧ b ≠ byte '.' ∧ isExponent b = false) (rest : Bytes) :
    EndsNumber (b :: rest) := by
  intro c hc
  rwa [← Option.mem_some_iff.mp hc]

theorem endsNumber_spaces {w rest : Bytes} (h : Spaces w) (hrest : EndsNumber rest) :
    EndsNumber (w ++ rest) := by
  cases w with
  | nil => exact hrest
  | cons b w =>
    have hspace : isSpace b = true := h b List.mem_cons_self
    simp only [isSpace, Bool.or_eq_true, decide_eq_true_eq] at hspace
    rcases hspace with ((rfl | rfl) | rfl) | rfl <;> exact endsNumber_cons (by decide) _

/-! ## Readers -/

section Readers
variable {α β : Type} {read : Reader α} {written : Bytes} {v : α}

/-- A reader takes what is written, after any spaces, as the value and stops behind it. -/
def Reads (read : Reader α) (written : Bytes) (v : α) : Prop :=
  ∀ spaces rest, Spaces spaces → EndsNumber rest →
    read (spaces ++ (written ++ rest)) = .ok (v, rest)

theorem Reads.map (h : Reads read written v) (f : α → β) :
    Reads (fun bytes => (read bytes).map fun (v, rest) => (f v, rest)) written (f v) := by
  intro spaces rest hspaces hrest
  simp only [h spaces rest hspaces hrest, Except.map]

theorem Reads.padded (h : Reads read written v) {w rest : Bytes} (hw : Padded written w)
    (hrest : EndsNumber rest) :
    ∃ bytes, read (w ++ rest) = .ok (v, bytes) ∧ skipSpaces bytes = skipSpaces rest := by
  obtain ⟨before, after, hbefore, hafter, rfl⟩ := hw
  refine ⟨after ++ rest, ?_, skipSpaces_append hafter rest⟩
  rw [List.append_assoc, List.append_assoc]
  exact h before (after ++ rest) hbefore (endsNumber_spaces hafter hrest)

theorem Reads.document (h : Reads read written v) {document : Bytes}
    (hw : Padded written document) : readDocument read document = .ok v := by
  have hends : EndsNumber [] := by rintro b ⟨⟩
  obtain ⟨bytes, hread, hspaces⟩ := h.padded hw hends
  rw [List.append_nil] at hread
  have hend : skipSpaces bytes = [] := hspaces
  simp only [readDocument, hread, bind, Except.bind, hend]
  rfl

end Readers

/-! ## Digits -/

theorem startsFraction_of_endsNumber {rest : Bytes} (h : EndsNumber rest) :
    startsFraction rest = false := by
  cases rest with
  | nil => rfl
  | cons b rest =>
    obtain ⟨-, hpoint, hexponent⟩ := h b rfl
    simp [startsFraction, hpoint, hexponent]

theorem spanDigits_append {digits rest : Bytes} (hdigits : ∀ b ∈ digits, isDigit b = true)
    (hrest : ∀ b ∈ rest.head?, isDigit b = false) :
    spanDigits (digits ++ rest) = (digits, rest) := by
  induction digits with
  | nil =>
    cases rest with
    | nil => rfl
    | cons b rest => simp [spanDigits, hrest b rfl]
  | cons b digits ih =>
    obtain ⟨hb, hrestDigits⟩ := List.forall_mem_cons.mp hdigits
    simp [spanDigits, hb, ih hrestDigits]

theorem digit_spec {d : Nat} (h : d < 10) :
    isDigit (48 + d).toUInt8 = true ∧ digitValue (48 + d).toUInt8 = d ∧
      ((48 + d).toUInt8 = byte '0' → d = 0) := by
  have hall : ∀ d < 10, isDigit (48 + d).toUInt8 = true ∧ digitValue (48 + d).toUInt8 = d ∧
      ((48 + d).toUInt8 = byte '0' → d = 0) := by decide
  exact hall d h

theorem isDigit_of_mem_writeNat {n : Nat} {b : UInt8} (h : b ∈ writeNat n) : isDigit b = true := by
  induction n using writeNat.induct with
  | case1 n hlt =>
    rw [writeNat, if_pos hlt] at h
    rw [List.mem_singleton.mp h]
    exact (digit_spec hlt).1
  | case2 n hge ih =>
    rw [writeNat, if_neg hge] at h
    rcases List.mem_append.mp h with hfront | hlast
    · exact ih hfront
    · rw [List.mem_singleton.mp hlast]
      exact (digit_spec (Nat.mod_lt n (by decide))).1

/-- Only zero starts with the digit zero. -/
theorem writeNat_eq_cons (n : Nat) :
    ∃ b digits, writeNat n = b :: digits ∧ (b = byte '0' → n = 0) := by
  induction n using writeNat.induct with
  | case1 n hlt =>
    rw [writeNat, if_pos hlt]
    exact ⟨_, [], rfl, (digit_spec hlt).2.2⟩
  | case2 n hge ih =>
    obtain ⟨b, digits, heq, hzero⟩ := ih
    refine ⟨b, digits ++ [(48 + n % 10).toUInt8], ?_, ?_⟩
    · rw [writeNat, if_neg hge, heq, List.cons_append]
    · intro hb
      have hfront := hzero hb
      omega

theorem accumulate_append {n m : Nat} {front : Bytes} (h : accumulate n front = (m, []))
    (bytes : Bytes) : accumulate n (front ++ bytes) = accumulate m bytes := by
  induction front generalizing n with
  | nil =>
    cases h
    rfl
  | cons b front ih =>
    rw [accumulate] at h
    split at h
    · next hfits =>
      rw [List.cons_append, accumulate, if_pos hfits]
      exact ih h
    · cases h

theorem accumulate_writeNat {n : Nat} (h : n < UInt64.size) :
    accumulate 0 (writeNat n) = (n, []) := by
  induction n using writeNat.induct with
  | case1 n hlt =>
    have hvalue := (digit_spec hlt).2.1
    have hfits : fits 0 (digitValue (48 + n).toUInt8) = true := by
      rw [fits, hvalue]
      exact decide_eq_true (by omega)
    rw [writeNat, if_pos hlt, accumulate, if_pos hfits, hvalue, accumulate, Nat.zero_mul,
      Nat.zero_add]
  | case2 n hge ih =>
    have hvalue := (digit_spec (Nat.mod_lt n (show 0 < 10 by decide))).2.1
    have hn : n / 10 * 10 + n % 10 = n := Nat.div_add_mod' n 10
    have hfits : fits (n / 10) (digitValue (48 + n % 10).toUInt8) = true := by
      rw [fits, hvalue, hn]
      exact decide_eq_true h
    rw [writeNat, if_neg hge, accumulate_append (ih (by omega)), accumulate, if_pos hfits, hvalue,
      hn, accumulate]

theorem readUnsigned_writeNat (negative : Bool) {n : Nat} (h : n < UInt64.size) {rest : Bytes}
    (hrest : EndsNumber rest) :
    readUnsigned negative (writeNat n ++ rest) = (wholeNumber negative n).map (·, rest) := by
  obtain ⟨b, digits, heq, hzero⟩ := writeNat_eq_cons n
  have hspan := spanDigits_append (fun _ => isDigit_of_mem_writeNat (n := n))
    fun b hb => (hrest b hb).1
  have hvalue := accumulate_writeNat h
  have hb : isDigit b = true := isDigit_of_mem_writeNat (n := n) (by simp [heq])
  have hlone : ¬(b = byte '0' ∧ (b :: digits).length ≠ 1) := by
    rintro ⟨hb0, hlength⟩
    rw [hzero hb0, writeNat, if_pos (by decide)] at heq
    rw [← heq] at hlength
    exact hlength rfl
  -- All of the digits are taken and none is left over, so the number is no floating point one.
  rw [heq] at hspan hvalue ⊢
  rw [List.cons_append] at hspan ⊢
  simp only [readUnsigned, hb, hspan, hvalue, startsFraction_of_endsNumber hrest, if_neg hlone]
  simp only [bind, Except.bind]
  cases wholeNumber negative n <;> rfl

theorem wholeNumber_negative {n : Nat} (hpos : n ≠ 0) (hle : Int64.minValue.toInt ≤ -(n : Int)) :
    wholeNumber true n = .ok (.negative (-n)) := by
  have hrange : ¬(n = 0 ∨ -(n : Int) < Int64.minValue.toInt) := by omega
  rw [wholeNumber, if_neg (by decide), if_neg hrange]

theorem ne_of_isDigit {b c : UInt8} (hb : isDigit b = true) (hc : isDigit c = false) : b ≠ c := by
  rintro rfl
  simp [hb] at hc

theorem isSpace_of_isDigit {b : UInt8} (hdigit : isDigit b = true) :
    isSpace b = false ∧ b ≠ byte '-' := by
  have hne := fun c => ne_of_isDigit (c := c) hdigit
  refine ⟨?_, hne (byte '-') (by decide)⟩
  simp [isSpace, hne (byte ' ') (by decide), hne (byte '\t') (by decide),
    hne (byte '\n') (by decide), hne (byte '\r') (by decide)]

theorem readWhole_writeInt {least greatest n : Int} (expected : String) (hleast : least ≤ n)
    (hgreatest : n ≤ greatest) (hword : Int64.minValue.toInt ≤ n ∧ n < UInt64.size) :
    Reads (readWhole least greatest expected) (writeInt n) n := by
  intro spaces rest hspaces hrest
  have hmin : Int64.minValue.toInt = -9223372036854775808 := by decide
  have hsize : n.natAbs < UInt64.size := by
    change _ ∧ n < (18446744073709551616 : Nat) at hword
    change n.natAbs < 18446744073709551616
    omega
  by_cases hneg : n < 0
  · have hwrite : writeInt n = byte '-' :: writeNat n.natAbs := if_pos hneg
    have hvalue : -(n.natAbs : Int) = n := by omega
    have hnumber : wholeNumber true n.natAbs = .ok (.negative n) := by
      rw [wholeNumber_negative (by omega) (by omega), hvalue]
    have hskip : skipSpaces (spaces ++ byte '-' :: (writeNat n.natAbs ++ rest)) =
        byte '-' :: (writeNat n.natAbs ++ rest) := skipSpaces_append hspaces _
    have hread := readUnsigned_writeNat true hsize hrest
    rw [hnumber] at hread
    simp [readWhole, hwrite, hskip, hread, bind, Except.bind, Except.map, hleast, hgreatest]
  · obtain ⟨b, digits, heq, -⟩ := writeNat_eq_cons n.natAbs
    have hwrite : writeInt n = writeNat n.natAbs := if_neg hneg
    have hvalue : (n.natAbs : Int) = n := by omega
    have hdigit : isDigit b = true := isDigit_of_mem_writeNat (n := n.natAbs) (by simp [heq])
    obtain ⟨hspace, hminus⟩ := isSpace_of_isDigit hdigit
    have hskip : skipSpaces (spaces ++ b :: (digits ++ rest)) = b :: (digits ++ rest) := by
      rw [skipSpaces_append hspaces, skipSpaces_cons hspace]
    have hnumber : wholeNumber false n.natAbs = .ok (.natural n.natAbs) := if_pos (by decide)
    have hread := readUnsigned_writeNat false hsize hrest
    rw [hnumber, heq] at hread
    simp only [List.cons_append] at hread
    simp [readWhole, hwrite, heq, hskip, hdigit, hminus, hread, bind, Except.bind, Except.map,
      hvalue, hleast, hgreatest]

theorem readWhole_writeNat {greatest n : Nat} (expected : String) (hgreatest : n ≤ greatest)
    (hword : greatest < UInt64.size) :
    Reads (readWhole 0 greatest expected) (writeNat n) n := by
  have hmin : Int64.minValue.toInt ≤ (n : Int) := by
    have hneg : Int64.minValue.toInt ≤ 0 := by decide
    omega
  have hwrite : writeInt n = writeNat n := if_neg (by omega)
  rw [← hwrite]
  exact readWhole_writeInt expected (by omega) (by omega) ⟨hmin, by omega⟩

end ConflictBatching
