import ConflictBatching.Json.Number
import ConflictBatching.Json.Text

/-! # Passing over a value

A value that nothing asks for is checked against the grammar and dropped. Its numbers may have any
size and its strings need not be text, and it may be nested to any depth.
-/
namespace ConflictBatching

def skipDigits (bytes : Bytes) : Except JsonError Bytes :=
  match spanDigits bytes with
  | ([], _) => .error .invalidNumber
  | (_, rest) => .ok rest

def skipSign : Bytes → Bytes
  | b :: rest => if b = byte '+' ∨ b = byte '-' then rest else b :: rest
  | [] => []

def skipExponent : Bytes → Except JsonError Bytes
  | b :: rest => if isExponent b then skipDigits (skipSign rest) else .ok (b :: rest)
  | [] => .ok []

def skipNumber : Bytes → Except JsonError Bytes
  | [] => .error .invalidNumber
  | b :: rest =>
    match spanDigits (b :: rest) with
    | ([], _) => .error .invalidNumber
    | (digits, after) =>
      if b = byte '0' ∧ digits.length ≠ 1 then .error .invalidNumber
      else
        match after with
        | c :: places =>
          if c = byte '.' then do skipExponent (← skipDigits places) else skipExponent after
        | [] => .ok []

/-- An escape after its backslash. Four digits are enough, whatever they stand for. -/
def skipEscape : Bytes → Except JsonError Bytes
  | [] => .error .eofString
  | b :: rest =>
    if (shortEscapes.lookup b).isSome then .ok rest
    else if b = byte 'u' then (readHex rest).map (·.2)
    else .error .invalidEscape

/-- A string after its opening quote. Each step takes a byte at least. -/
def skipString : (fuel : Nat) → Bytes → Except JsonError Bytes
  | 0, _ => .error .eofString
  | _ + 1, [] => .error .eofString
  | fuel + 1, b :: rest =>
    if b = byte '"' then .ok rest
    else if b = byte '\\' then do skipString fuel (← skipEscape rest)
    else if b < 32 then .error .controlCharacter
    else skipString fuel rest

def expectColon (bytes : Bytes) : Except JsonError Bytes :=
  match skipSpaces bytes with
  | [] => .error .eofObject
  | b :: rest => if b = byte ':' then .ok rest else .error .expectedColon

mutual

/-- A value with the spaces before it. Each step takes a byte at least. -/
def skipValue : (fuel : Nat) → Bytes → Except JsonError Bytes
  | 0, _ => .error .eofValue
  | fuel + 1, bytes =>
    match skipSpaces bytes with
    | [] => .error .eofValue
    | b :: rest =>
      if b = byte 'n' then expectWord nullTail rest
      else if b = byte 't' then expectWord trueTail rest
      else if b = byte 'f' then expectWord falseTail rest
      else if b = byte '-' then skipNumber rest
      else if isDigit b then skipNumber (b :: rest)
      else if b = byte '"' then skipString rest.length rest
      else if b = byte '[' then
        match skipSpaces rest with
        | [] => .error .eofList
        | c :: after => if c = byte ']' then .ok after else skipItems fuel (c :: after)
      else if b = byte '{' then
        match skipSpaces rest with
        | [] => .error .eofObject
        | c :: after => if c = byte '}' then .ok after else skipMembers fuel (c :: after)
      else .error .expectedValue

/-- The items of a list from one of them on. -/
def skipItems : (fuel : Nat) → Bytes → Except JsonError Bytes
  | 0, _ => .error .eofList
  | fuel + 1, bytes => do
    match skipSpaces (← skipValue fuel bytes) with
    | [] => .error .eofList
    | b :: rest =>
      if b = byte ',' then skipItems fuel rest
      else if b = byte ']' then .ok rest
      else .error .expectedListEnd

/-- The members of an object from one of them on. -/
def skipMembers : (fuel : Nat) → Bytes → Except JsonError Bytes
  | 0, _ => .error .eofObject
  | fuel + 1, bytes =>
    match skipSpaces bytes with
    | [] => .error .eofObject
    | q :: rest =>
      if q ≠ byte '"' then .error .keyMustBeString
      else do
        let rest ← expectColon (← skipString rest.length rest)
        match skipSpaces (← skipValue fuel rest) with
        | [] => .error .eofObject
        | b :: rest =>
          if b = byte ',' then skipMembers fuel rest
          else if b = byte '}' then .ok rest
          else .error .expectedObjectEnd

end

/-- A value and an item or a member share a byte, so twice the length is enough. -/
def skipAny (bytes : Bytes) : Except JsonError Bytes := skipValue (2 * bytes.length + 1) bytes

end ConflictBatching
