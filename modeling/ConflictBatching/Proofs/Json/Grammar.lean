import ConflictBatching.Json.Reader

/-! # The grammar of documents

Which bytes spell a string, a number, an object or any value. Spaces may stand around every token.
An object or a list is described by its parts as they are spelled, and nothing is said here of how
they are read.
-/
namespace ConflictBatching

def Spaces (w : Bytes) : Prop := ∀ b ∈ w, isSpace b = true

instance (w : Bytes) : Decidable (Spaces w) := List.decidableBAll (isSpace · = true) w

theorem skipSpaces_cons {b : UInt8} (hspace : isSpace b = false) (rest : Bytes) :
    skipSpaces (b :: rest) = b :: rest := by
  rw [skipSpaces, if_neg (by simp [hspace])]

theorem skipSpaces_append {w : Bytes} (h : Spaces w) (bytes : Bytes) :
    skipSpaces (w ++ bytes) = skipSpaces bytes := by
  induction w with
  | nil => rfl
  | cons b w ih =>
    obtain ⟨hb, hw⟩ := List.forall_mem_cons.mp h
    rw [List.cons_append, skipSpaces, if_pos hb, ih hw]

theorem skipSpaces_skipSpaces (bytes : Bytes) : skipSpaces (skipSpaces bytes) = skipSpaces bytes := by
  induction bytes with
  | nil => rfl
  | cons b bytes ih =>
    cases hb : isSpace b with
    | true => rwa [skipSpaces, if_pos hb]
    | false => rw [skipSpaces_cons hb, skipSpaces_cons hb]

theorem skipSpaces_length_le (bytes : Bytes) : (skipSpaces bytes).length ≤ bytes.length := by
  induction bytes with
  | nil => exact Nat.le_refl 0
  | cons b bytes ih =>
    rw [skipSpaces]
    split
    · exact Nat.le_succ_of_le ih
    · exact Nat.le_refl _

/-- A token or a value with spaces around it. -/
def Padded (token w : Bytes) : Prop :=
  ∃ before after, Spaces before ∧ Spaces after ∧ w = before ++ (token ++ after)

theorem padded_self (token : Bytes) : Padded token token :=
  ⟨[], [], by decide, by decide, by simp⟩

/-- Parts with commas between them. -/
inductive Separated {α : Type} (part : α → Bytes → Prop) : List α → Bytes → Prop where
  | last {x : α} {w : Bytes} : part x w → Separated part [x] w
  | more {x : α} {xs : List α} {w ws : Bytes} : part x w → Separated part xs ws →
      Separated part (x :: xs) (w ++ byte ',' :: ws)

/-- Parts between brackets, or nothing but spaces there. -/
inductive Bracketed {α : Type} (opening closing : Char) (part : α → Bytes → Prop) :
    List α → Bytes → Prop where
  | empty {w : Bytes} : Spaces w →
      Bracketed opening closing part [] (byte opening :: (w ++ [byte closing]))
  | parts {xs : List α} {w : Bytes} : Separated part xs w →
      Bracketed opening closing part xs (byte opening :: (w ++ [byte closing]))

/-- What stands between the quotes of a string is given without them. -/
def inQuotes (content : Bytes) : Bytes := byte '"' :: (content ++ [byte '"'])

/-- A key without its quotes, and a value. -/
def MemberText (member : Bytes × Bytes) (w : Bytes) : Prop :=
  ∃ key value, Padded (inQuotes member.1) key ∧ Padded member.2 value ∧ w = key ++ byte ':' :: value

def ObjectText : List (Bytes × Bytes) → Bytes → Prop := Bracketed '{' '}' MemberText

def ListText : List Bytes → Bytes → Prop := Bracketed '[' ']' Padded

/-- A hexadecimal digit, small or capital. -/
def HexDigit (d : Nat) (b : UInt8) : Prop :=
  d < 10 ∧ b = (48 + d).toUInt8 ∨
    10 ≤ d ∧ d < 16 ∧ (b = (87 + d).toUInt8 ∨ b = (55 + d).toUInt8)

/-- A number by four hexadecimal digits. -/
def HexText (n : Nat) (w : Bytes) : Prop :=
  ∃ p q r s a b c d, HexDigit p a ∧ HexDigit q b ∧ HexDigit r c ∧ HexDigit s d ∧
    w = [a, b, c, d] ∧ n = ((p * 16 + q) * 16 + r) * 16 + s

/-- The letters of the short escapes, each with the character it stands for. -/
def escapedChars : List (Char × Char) :=
  [('"', '"'), ('\\', '\\'), ('/', '/'), ('b', '\x08'), ('f', '\x0c'), ('n', '\n'), ('r', '\r'),
    ('t', '\t')]

/-- A string whose text nobody asks for. Half of a surrogate pair may stand alone in it. -/
inductive StringText : Bytes → Prop where
  | nil : StringText []
  | plain {b : UInt8} {w : Bytes} : b ≠ byte '"' → b ≠ byte '\\' → ¬b < 32 → StringText w →
      StringText (b :: w)
  | short {e c : Char} {w : Bytes} : (e, c) ∈ escapedChars → StringText w →
      StringText (byte '\\' :: byte e :: w)
  | point {n : Nat} {hex w : Bytes} : HexText n hex → StringText w →
      StringText (byte '\\' :: byte 'u' :: (hex ++ w))

def Digits (w : Bytes) : Prop := w ≠ [] ∧ ∀ b ∈ w, isDigit b = true

/-- The digits before the point. A zero in front stands alone. -/
def WholeText (w : Bytes) : Prop := Digits w ∧ (w.head? = some (byte '0') → w.length = 1)

inductive PlacesText : Bytes → Prop where
  | none : PlacesText []
  | places {digits : Bytes} : Digits digits → PlacesText (byte '.' :: digits)

inductive ExponentText : Bytes → Prop where
  | none : ExponentText []
  | exponent {e : Char} {sign digits : Bytes} : e ∈ ['e', 'E'] →
      sign ∈ [[], [byte '+'], [byte '-']] → Digits digits →
      ExponentText (byte e :: (sign ++ digits))

/-- A number without its sign. -/
def NumberText (w : Bytes) : Prop :=
  ∃ whole places exponent, WholeText whole ∧ PlacesText places ∧ ExponentText exponent ∧
    w = whole ++ (places ++ exponent)

inductive ValueText : Bytes → Prop where
  | null : ValueText (byte 'n' :: nullTail)
  | yes : ValueText (byte 't' :: trueTail)
  | no : ValueText (byte 'f' :: falseTail)
  | number {w : Bytes} : NumberText w → ValueText w
  | negative {w : Bytes} : NumberText w → ValueText (byte '-' :: w)
  | string {content : Bytes} : StringText content → ValueText (inQuotes content)
  | list {items : List Bytes} {w : Bytes} : (∀ item ∈ items, ValueText item) → ListText items w →
      ValueText w
  | object {members : List (Bytes × Bytes)} {w : Bytes} :
      (∀ member ∈ members, StringText member.1) → (∀ member ∈ members, ValueText member.2) →
      ObjectText members w → ValueText w

/-- How a text may be spelled between quotes. Every character may be given by its number; one
beyond the first plane by two, and some have an escape of their own. -/
inductive Spelled : List Char → Bytes → Prop where
  | nil : Spelled [] []
  | plain {c : Char} {cs : List Char} {w : Bytes} : c ≠ '"' → c ≠ '\\' → 32 ≤ c.toNat →
      Spelled cs w → Spelled (c :: cs) (String.utf8EncodeChar c ++ w)
  | short {e c : Char} {cs : List Char} {w : Bytes} : (e, c) ∈ escapedChars → Spelled cs w →
      Spelled (c :: cs) (byte '\\' :: byte e :: w)
  | point {c : Char} {cs : List Char} {hex w : Bytes} : HexText c.toNat hex → Spelled cs w →
      Spelled (c :: cs) (byte '\\' :: byte 'u' :: (hex ++ w))
  | pair {c : Char} {cs : List Char} {high low w : Bytes} : 0x10000 ≤ c.toNat →
      HexText (0xd800 + (c.toNat - 0x10000) / 0x400) high →
      HexText (0xdc00 + (c.toNat - 0x10000) % 0x400) low → Spelled cs w →
      Spelled (c :: cs)
        (byte '\\' :: byte 'u' :: (high ++ byte '\\' :: byte 'u' :: (low ++ w)))

end ConflictBatching
