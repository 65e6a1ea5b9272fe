import ConflictBatching.Json.Reader

/-! # Strings

A string runs to the next quote that is not escaped. Its bytes are taken as they stand and its
escapes are resolved; whether the result is text is asked once, at the end. Written, a string
escapes quotes, backslashes and control characters and nothing else.
-/
namespace ConflictBatching

def hexDigit? (b : UInt8) : Option Nat :=
  if isDigit b then some (b.toNat - 48)
  else if byte 'a' ≤ b && b ≤ byte 'f' then some (b.toNat - 87)
  else if byte 'A' ≤ b && b ≤ byte 'F' then some (b.toNat - 55)
  else none

/-- Four hexadecimal digits. That four bytes are left comes before what they are. -/
def readHex : Reader Nat
  | a :: b :: c :: d :: rest =>
    match hexDigit? a, hexDigit? b, hexDigit? c, hexDigit? d with
    | some a, some b, some c, some d => .ok (((a * 16 + b) * 16 + c) * 16 + d, rest)
    | _, _, _, _ => .error .invalidEscape
  | _ => .error .eofString

def encodePoint (n : Nat) : Bytes :=
  if n < 0x80 then [n.toUInt8]
  else if n < 0x800 then [(0xc0 + n / 64).toUInt8, (0x80 + n % 64).toUInt8]
  else if n < 0x10000 then
    [(0xe0 + n / 4096).toUInt8, (0x80 + n / 64 % 64).toUInt8, (0x80 + n % 64).toUInt8]
  else
    [(0xf0 + n / 262144).toUInt8, (0x80 + n / 4096 % 64).toUInt8,
      (0x80 + n / 64 % 64).toUInt8, (0x80 + n % 64).toUInt8]

def isLeading (n : Nat) : Bool := 0xd800 ≤ n && n ≤ 0xdbff

def isTrailing (n : Nat) : Bool := 0xdc00 ≤ n && n ≤ 0xdfff

/-- The trailing half of a pair, after its leading half `high`. -/
def readTrailing (high : Nat) : Reader Bytes
  | [] => .error .eofString
  | b :: rest =>
    if b ≠ byte '\\' then .error .unfinishedSurrogate
    else
      match rest with
      | [] => .error .eofString
      | u :: rest =>
        if u ≠ byte 'u' then .error .unfinishedSurrogate
        else do
          let (low, rest) ← readHex rest
          if isTrailing low then
            .ok (encodePoint (0x10000 + (high - 0xd800) * 0x400 + (low - 0xdc00)), rest)
          else .error .loneSurrogate

/-- A code point by its number, or by the two halves of a pair. -/
def readPoint (bytes : Bytes) : Except JsonError (Bytes × Bytes) := do
  let (n, rest) ← readHex bytes
  if isTrailing n then .error .loneSurrogate
  else if isLeading n then readTrailing n rest
  else .ok (encodePoint n, rest)

def shortEscapes : List (UInt8 × UInt8) :=
  [(byte '"', byte '"'), (byte '\\', byte '\\'), (byte '/', byte '/'), (byte 'b', 8),
    (byte 'f', 12), (byte 'n', 10), (byte 'r', 13), (byte 't', 9)]

def readEscape : Reader Bytes
  | [] => .error .eofString
  | b :: rest =>
    match shortEscapes.lookup b with
    | some v => .ok ([v], rest)
    | none => if b = byte 'u' then readPoint rest else .error .invalidEscape

/-- The bytes of a string up to its closing quote. Each step takes a byte at least. -/
def readBytes : (fuel : Nat) → Reader Bytes
  | 0, _ => .error .eofString
  | _ + 1, [] => .error .eofString
  | fuel + 1, b :: rest =>
    if b = byte '"' then .ok ([], rest)
    else if b = byte '\\' then do
      let (head, rest) ← readEscape rest
      let (tail, rest) ← readBytes fuel rest
      .ok (head ++ tail, rest)
    else if b < 32 then .error .controlCharacter
    else do
      let (tail, rest) ← readBytes fuel rest
      .ok (b :: tail, rest)

def textOf? (bytes : Bytes) : Option String := String.fromUTF8? ⟨bytes.toArray⟩

def readText (bytes : Bytes) : Except JsonError (String × Bytes) := do
  let (content, rest) ← readBytes bytes.length bytes
  match textOf? content with
  | some text => .ok (text, rest)
  | none => .error .invalidCodePoint

def hexByte (n : Nat) : UInt8 := if n < 10 then (48 + n).toUInt8 else (87 + n).toUInt8

def escapeByte (b : UInt8) : Bytes :=
  if b = byte '"' then [byte '\\', byte '"']
  else if b = byte '\\' then [byte '\\', byte '\\']
  else if b = 8 then [byte '\\', byte 'b']
  else if b = 12 then [byte '\\', byte 'f']
  else if b = 10 then [byte '\\', byte 'n']
  else if b = 13 then [byte '\\', byte 'r']
  else if b = 9 then [byte '\\', byte 't']
  else if b < 32 then
    [byte '\\', byte 'u', byte '0', byte '0', hexByte (b.toNat / 16), hexByte (b.toNat % 16)]
  else [b]

def writeText (text : String) : Bytes :=
  byte '"' :: (ofText text).flatMap escapeByte ++ [byte '"']

end ConflictBatching
