import ConflictBatching.Json.Text
import ConflictBatching.Proofs.Json.Grammar

/-! # Spelled strings

A text may be spelled in many ways, and each of them is read as the text. An escape stands for the
bytes of its character, and a pair of surrogates for those of one character beyond the first plane.
What is written for a text is one of its spellings.
-/
namespace ConflictBatching

/-! ## Escapes -/

theorem hexDigit?_of_hexDigit {d : Nat} {b : UInt8} (h : HexDigit d b) :
    hexDigit? b = some d := by
  have hsmall : ∀ d < 10, hexDigit? (48 + d).toUInt8 = some d := by decide
  have hletter : ∀ d < 16, 10 ≤ d →
      hexDigit? (87 + d).toUInt8 = some d ∧ hexDigit? (55 + d).toUInt8 = some d := by decide
  rcases h with ⟨hlt, rfl⟩ | ⟨hle, hlt, rfl | rfl⟩
  · exact hsmall d hlt
  · exact (hletter d hlt hle).1
  · exact (hletter d hlt hle).2

theorem readHex_append {n : Nat} {hex : Bytes} (h : HexText n hex) (rest : Bytes) :
    readHex (hex ++ rest) = .ok (n, rest) := by
  obtain ⟨p, q, r, s, a, b, c, d, ha, hb, hc, hd, rfl, rfl⟩ := h
  simp only [List.cons_append, List.nil_append, readHex, hexDigit?_of_hexDigit ha,
    hexDigit?_of_hexDigit hb, hexDigit?_of_hexDigit hc, hexDigit?_of_hexDigit hd]

theorem lookup_escapedChars {e c : Char} (h : (e, c) ∈ escapedChars) :
    shortEscapes.lookup (byte e) = some (byte c) := by
  have hall : ∀ x ∈ escapedChars, shortEscapes.lookup (byte x.1) = some (byte x.2) := by decide
  exact hall (e, c) h

theorem char_toNat_valid (c : Char) :
    c.toNat < 0xd800 ∨ 0xdfff < c.toNat ∧ c.toNat < 0x110000 := c.valid

theorem encodePoint_toNat (c : Char) : encodePoint c.toNat = String.utf8EncodeChar c := by
  have hvalid := char_toNat_valid c
  have hn : c.val.toNat = c.toNat := rfl
  simp only [encodePoint, String.utf8EncodeChar, hn]
  by_cases hone : c.toNat < 0x80
  · rw [if_pos hone, if_pos (by omega)]
  by_cases htwo : c.toNat < 0x800
  · have hfront : c.toNat / 64 % 32 + 192 = 192 + c.toNat / 64 := by omega
    rw [if_neg hone, if_pos htwo, if_neg (by omega), if_pos (by omega), hfront, Nat.add_comm 128]
  by_cases hthree : c.toNat < 0x10000
  · have hfront : c.toNat / 4096 % 16 + 224 = 224 + c.toNat / 4096 := by omega
    rw [if_neg hone, if_neg htwo, if_pos hthree, if_neg (by omega), if_neg (by omega),
      if_pos (by omega), hfront, Nat.add_comm 128, Nat.add_comm 128]
  · have hfront : c.toNat / 262144 % 8 + 240 = 240 + c.toNat / 262144 := by omega
    rw [if_neg hone, if_neg htwo, if_neg hthree, if_neg (by omega), if_neg (by omega),
      if_neg (by omega), hfront, Nat.add_comm 128, Nat.add_comm 128, Nat.add_comm 128]

theorem readEscape_escapedChars {e c : Char} (h : (e, c) ∈ escapedChars) (rest : Bytes) :
    readEscape (byte e :: rest) = .ok (String.utf8EncodeChar c, rest) := by
  have hall : ∀ x ∈ escapedChars, String.utf8EncodeChar x.2 = [byte x.2] := by decide
  rw [hall (e, c) h]
  rw [readEscape, lookup_escapedChars h]

theorem readEscape_point {c : Char} {hex : Bytes} (h : HexText c.toNat hex) (rest : Bytes) :
    readEscape (byte 'u' :: (hex ++ rest)) = .ok (String.utf8EncodeChar c, rest) := by
  have hlookup : shortEscapes.lookup (byte 'u') = none := by decide
  have hvalid := char_toNat_valid c
  have htrailing : isTrailing c.toNat = false := by
    simp only [isTrailing, Bool.and_eq_false_iff, decide_eq_false_iff_not]
    omega
  have hleading : isLeading c.toNat = false := by
    simp only [isLeading, Bool.and_eq_false_iff, decide_eq_false_iff_not]
    omega
  simp [readEscape, hlookup, readPoint, readHex_append h, bind, Except.bind, htrailing, hleading,
    encodePoint_toNat]

theorem readEscape_pair {c : Char} {high low : Bytes} (hplane : 0x10000 ≤ c.toNat)
    (hhigh : HexText (0xd800 + (c.toNat - 0x10000) / 0x400) high)
    (hlow : HexText (0xdc00 + (c.toNat - 0x10000) % 0x400) low) (rest : Bytes) :
    readEscape (byte 'u' :: (high ++ byte '\\' :: byte 'u' :: (low ++ rest))) =
      .ok (String.utf8EncodeChar c, rest) := by
  have hlookup : shortEscapes.lookup (byte 'u') = none := by decide
  have hvalid := char_toNat_valid c
  generalize hfirst : 0xd800 + (c.toNat - 0x10000) / 0x400 = first at hhigh
  generalize hsecond : 0xdc00 + (c.toNat - 0x10000) % 0x400 = second at hlow
  have htrailing : isTrailing first = false := by
    simp only [isTrailing, Bool.and_eq_false_iff, decide_eq_false_iff_not]
    omega
  have hleading : isLeading first = true := by
    simp only [isLeading, Bool.and_eq_true, decide_eq_true_eq]
    omega
  have hsecondTrailing : isTrailing second = true := by
    simp only [isTrailing, Bool.and_eq_true, decide_eq_true_eq]
    omega
  have hpoint : 0x10000 + (first - 0xd800) * 0x400 + (second - 0xdc00) = c.toNat := by omega
  have hread : readTrailing first (byte '\\' :: byte 'u' :: (low ++ rest)) =
      .ok (String.utf8EncodeChar c, rest) := by
    simp [readTrailing, readHex_append hlow, bind, Except.bind, hsecondTrailing, hpoint,
      encodePoint_toNat]
  simp [readEscape, hlookup, readPoint, readHex_append hhigh, bind, Except.bind, htrailing,
    hleading, hread]

/-! ## Strings -/

/-- The bytes of a character that is not ASCII all have their highest bit set. -/
theorem le_of_mem_utf8EncodeChar {c : Char} (h : 0x80 ≤ c.toNat) :
    ∀ b ∈ String.utf8EncodeChar c, 0x80 ≤ b.toNat := by
  have hhigh : ∀ {n}, n < 256 → 0x80 ≤ n → 0x80 ≤ (UInt8.ofNat n).toNat := by
    intro n hlt hle
    rwa [UInt8.toNat_ofNat_of_lt' hlt]
  have hn : c.val.toNat = c.toNat := rfl
  intro b hb
  simp only [String.utf8EncodeChar, hn] at hb
  rw [if_neg (by omega)] at hb
  split at hb
  · simp only [List.mem_cons, List.not_mem_nil, or_false] at hb
    rcases hb with rfl | rfl
    all_goals exact hhigh (by omega) (by omega)
  split at hb
  · simp only [List.mem_cons, List.not_mem_nil, or_false] at hb
    rcases hb with rfl | rfl | rfl
    all_goals exact hhigh (by omega) (by omega)
  · simp only [List.mem_cons, List.not_mem_nil, or_false] at hb
    rcases hb with rfl | rfl | rfl | rfl
    all_goals exact hhigh (by omega) (by omega)

theorem plain_utf8EncodeChar {c : Char} (hquote : c ≠ '"') (hback : c ≠ '\\')
    (hcontrol : 32 ≤ c.toNat) :
    ∀ b ∈ String.utf8EncodeChar c, b ≠ byte '"' ∧ b ≠ byte '\\' ∧ ¬b < 32 := by
  have hplain : ∀ {b : UInt8}, b.toNat ≠ 34 → b.toNat ≠ 92 → 32 ≤ b.toNat →
      b ≠ byte '"' ∧ b ≠ byte '\\' ∧ ¬b < 32 := by
    refine fun hb hb' hb'' => ⟨?_, ?_, ?_⟩
    · rintro rfl
      exact hb rfl
    · rintro rfl
      exact hb' rfl
    · rw [UInt8.lt_iff_toNat_lt]
      exact Nat.not_lt.mpr hb''
  intro b hb
  by_cases hascii : c.toNat < 0x80
  · have hbyte : b.toNat = c.toNat := by
      rw [← encodePoint_toNat, encodePoint, if_pos hascii, List.mem_singleton] at hb
      rw [hb, Nat.toUInt8_eq, UInt8.toNat_ofNat_of_lt' (Nat.lt_trans hascii (by decide))]
    have hne : ∀ d, c ≠ d → b.toNat ≠ d.toNat := by
      intro d hd heq
      exact hd (Char.ext (UInt32.toNat_inj.mp (hbyte.symm.trans heq)))
    exact hplain (hne '"' hquote) (hne '\\' hback) (hbyte ▸ hcontrol)
  · have hle := le_of_mem_utf8EncodeChar (Nat.not_lt.mp hascii) b hb
    exact hplain (by omega) (by omega) (by omega)

theorem readBytes_plain {bytes : Bytes}
    (h : ∀ b ∈ bytes, b ≠ byte '"' ∧ b ≠ byte '\\' ∧ ¬b < 32) (fuel : Nat) (rest : Bytes) :
    readBytes (bytes.length + fuel) (bytes ++ rest) =
      (readBytes fuel rest).map fun (tail, rest) => (bytes ++ tail, rest) := by
  induction bytes with
  | nil =>
    rw [List.length_nil, Nat.zero_add, List.nil_append]
    cases readBytes fuel rest <;> rfl
  | cons b bytes ih =>
    obtain ⟨⟨hquote, hback, hcontrol⟩, hbytes⟩ := List.forall_mem_cons.mp h
    rw [List.length_cons, Nat.add_right_comm, List.cons_append, readBytes, if_neg hquote,
      if_neg hback, if_neg hcontrol, ih hbytes]
    cases readBytes fuel rest <;> rfl

/-- An escape that is read as the bytes of a character. -/
theorem readBytes_escape {body head rest : Bytes} (h : readEscape body = .ok (head, rest))
    (fuel : Nat) : readBytes (fuel + 1) (byte '\\' :: body) =
      (readBytes fuel rest).map fun (tail, rest) => (head ++ tail, rest) := by
  have hquote : byte '\\' ≠ byte '"' := by decide
  rw [readBytes, if_neg hquote, if_pos rfl, h]
  simp only [bind, Except.bind]
  cases readBytes fuel rest <;> rfl

theorem readBytes_spelled {cs : List Char} {w : Bytes} (h : Spelled cs w) {fuel : Nat}
    (hfuel : w.length < fuel) (rest : Bytes) :
    readBytes fuel (w ++ byte '"' :: rest) = .ok (cs.flatMap String.utf8EncodeChar, rest) := by
  induction h generalizing fuel with
  | nil =>
    obtain ⟨fuel, rfl⟩ := Nat.exists_eq_add_of_lt hfuel
    rfl
  | @plain c cs w hquote hback hcontrol _ ih =>
    rw [List.length_append] at hfuel
    obtain ⟨fuel, rfl⟩ := Nat.exists_eq_add_of_le
      (show (String.utf8EncodeChar c).length ≤ fuel by omega)
    rw [List.append_assoc, readBytes_plain (plain_utf8EncodeChar hquote hback hcontrol),
      ih (by omega)]
    rfl
  | @short e c cs w he _ ih =>
    simp only [List.length_cons] at hfuel
    obtain ⟨fuel, rfl⟩ := Nat.exists_eq_add_of_le' (Nat.one_le_of_lt hfuel)
    rw [List.cons_append, List.cons_append, readBytes_escape (readEscape_escapedChars he _),
      ih (by omega)]
    rfl
  | @point c cs hex w hhex _ ih =>
    simp only [List.length_cons, List.length_append] at hfuel
    obtain ⟨fuel, rfl⟩ := Nat.exists_eq_add_of_le' (Nat.one_le_of_lt hfuel)
    rw [List.cons_append, List.cons_append, List.append_assoc,
      readBytes_escape (readEscape_point hhex _), ih (by omega)]
    rfl
  | @pair c cs high low w hplane hhigh hlow _ ih =>
    simp only [List.length_cons, List.length_append] at hfuel
    obtain ⟨fuel, rfl⟩ := Nat.exists_eq_add_of_le' (Nat.one_le_of_lt hfuel)
    simp only [List.cons_append, List.append_assoc]
    rw [readBytes_escape (readEscape_pair hplane hhigh hlow _), ih (by omega)]
    rfl

/-- The list of a byte array is collected from an index on. -/
theorem byteArray_toList_loop (bytes : ByteArray) (i : Nat) (collected : List UInt8) :
    ByteArray.toList.loop bytes i collected =
      collected.reverse ++ bytes.data.toList.drop i := by
  induction i, collected using ByteArray.toList.loop.induct bytes with
  | case1 i collected hlt ih =>
    have hi : i < bytes.data.toList.length := hlt
    have hget : bytes.get! i = bytes.data.toList[i] := getElem!_pos bytes.data i hlt
    rw [ByteArray.toList.loop, if_pos hlt, ih, List.drop_eq_getElem_cons hi, hget]
    simp
  | case2 i collected hge =>
    have hle : bytes.data.toList.length ≤ i := Nat.le_of_not_lt hge
    rw [ByteArray.toList.loop, if_neg hge, List.drop_eq_nil_of_le hle, List.append_nil]

theorem byteArray_toList (bytes : ByteArray) : bytes.toList = bytes.data.toList :=
  byteArray_toList_loop bytes 0 []

theorem textOf?_ofText (text : String) : textOf? (ofText text) = some text := by
  have hbytes : (⟨(ofText text).toArray⟩ : ByteArray) = text.toByteArray := by
    apply ByteArray.ext
    change (ofText text).toArray = text.toByteArray.data
    rw [ofText, byteArray_toList]
    rfl
  rw [textOf?, hbytes, String.fromUTF8?, dif_pos text.isValidUTF8]
  rfl

theorem ofText_ofList (cs : List Char) :
    ofText (String.ofList cs) = cs.flatMap String.utf8EncodeChar := by
  have hbytes : (String.ofList cs).toUTF8 = (cs.flatMap String.utf8EncodeChar).toByteArray :=
    String.toByteArray_ofList
  rw [ofText, hbytes, byteArray_toList, List.data_toByteArray]

theorem readText_spelled {text : String} {w : Bytes} (h : Spelled text.toList w) (rest : Bytes) :
    readText (w ++ byte '"' :: rest) = .ok (text, rest) := by
  have hfuel : w.length < (w ++ byte '"' :: rest).length := by
    rw [List.length_append, List.length_cons]
    omega
  have htext : textOf? (text.toList.flatMap String.utf8EncodeChar) = some text := by
    rw [← ofText_ofList, String.ofList_toList, textOf?_ofText]
  rw [readText, readBytes_spelled h hfuel]
  simp only [bind, Except.bind, htext]

/-! ## Written strings -/

theorem hexDigit_hexByte {d : Nat} (h : d < 16) : HexDigit d (hexByte d) := by
  rw [hexByte]
  split
  · next hsmall => exact .inl ⟨hsmall, rfl⟩
  · next hletter => exact .inr ⟨Nat.not_lt.mp hletter, h, .inl rfl⟩

theorem escapeByte_plain {b : UInt8} (h : b ≠ byte '"' ∧ b ≠ byte '\\' ∧ ¬b < 32) :
    escapeByte b = [b] := by
  obtain ⟨hquote, hback, hcontrol⟩ := h
  have hne : ∀ c : UInt8, c < 32 → b ≠ c := by
    rintro c hc rfl
    exact hcontrol hc
  rw [escapeByte, if_neg hquote, if_neg hback, if_neg (hne 8 (by decide)),
    if_neg (hne 12 (by decide)), if_neg (hne 10 (by decide)), if_neg (hne 13 (by decide)),
    if_neg (hne 9 (by decide)), if_neg hcontrol]

theorem flatMap_escapeByte_plain {bytes : Bytes}
    (h : ∀ b ∈ bytes, b ≠ byte '"' ∧ b ≠ byte '\\' ∧ ¬b < 32) :
    bytes.flatMap escapeByte = bytes := by
  induction bytes with
  | nil => rfl
  | cons b bytes ih =>
    obtain ⟨hb, hbytes⟩ := List.forall_mem_cons.mp h
    rw [List.flatMap_cons, escapeByte_plain hb, ih hbytes, List.singleton_append]

/-- A control character has an escape of its own, or it is written by its number. -/
theorem escapeByte_control {n : Nat} (h : n < 32) :
    (∃ x ∈ escapedChars, x.2.toNat = n ∧ escapeByte n.toUInt8 = [byte '\\', byte x.1]) ∨
      escapeByte n.toUInt8 =
        [byte '\\', byte 'u', byte '0', byte '0', hexByte (n / 16), hexByte (n % 16)] := by
  have hall : ∀ n < 32,
      (escapedChars.any fun x => x.2.toNat = n && escapeByte n.toUInt8 = [byte '\\', byte x.1]) ∨
        escapeByte n.toUInt8 =
          [byte '\\', byte 'u', byte '0', byte '0', hexByte (n / 16), hexByte (n % 16)] := by
    decide
  rcases hall n h with hshort | hnumber
  · obtain ⟨x, hx, hescape⟩ := List.any_eq_true.mp hshort
    simp only [Bool.and_eq_true, decide_eq_true_eq] at hescape
    exact .inl ⟨x, hx, hescape⟩
  · exact .inr hnumber

theorem spelled_escaped (cs : List Char) :
    Spelled cs ((cs.flatMap String.utf8EncodeChar).flatMap escapeByte) := by
  induction cs with
  | nil => exact .nil
  | cons c cs ih =>
    rw [List.flatMap_cons, List.flatMap_append]
    by_cases hquote : c = '"'
    · subst hquote
      exact .short (e := '"') (by decide) ih
    by_cases hback : c = '\\'
    · subst hback
      exact .short (e := '\\') (by decide) ih
    by_cases hcontrol : 32 ≤ c.toNat
    · rw [flatMap_escapeByte_plain (plain_utf8EncodeChar hquote hback hcontrol)]
      exact .plain hquote hback hcontrol ih
    · have hbytes : String.utf8EncodeChar c = [c.toNat.toUInt8] := by
        rw [← encodePoint_toNat, encodePoint, if_pos (by omega)]
      rw [hbytes, List.flatMap_singleton]
      rcases escapeByte_control (Nat.not_le.mp hcontrol) with ⟨⟨e, d⟩, hx, hd, hescape⟩ | hescape
      · have heq : d = c := Char.ext (UInt32.toNat_inj.mp hd)
        rw [hescape]
        exact .short (heq ▸ hx) ih
      · have hhex : HexText c.toNat
            [byte '0', byte '0', hexByte (c.toNat / 16), hexByte (c.toNat % 16)] :=
          ⟨0, 0, c.toNat / 16, c.toNat % 16, _, _, _, _, .inl ⟨by decide, rfl⟩,
            .inl ⟨by decide, rfl⟩, hexDigit_hexByte (by omega), hexDigit_hexByte (by omega), rfl,
            by omega⟩
        rw [hescape]
        exact .point hhex ih

/-- What is written for a text spells it. -/
theorem spelled_ofText (text : String) : Spelled text.toList ((ofText text).flatMap escapeByte) := by
  rw [← String.ofList_toList (s := text), ofText_ofList, String.ofList_toList]
  exact spelled_escaped text.toList

end ConflictBatching
