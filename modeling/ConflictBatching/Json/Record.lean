import ConflictBatching.Json.Skip

/-! # Records

A record is read from an object, by the names of its fields, or from a list, by their order.
Fields that are not given keep the value they have in the record one starts from. Names that are
no field are passed over with their value, and no field is given twice.
-/
namespace ConflictBatching

/-- What stands at the front of a value that is not of the expected kind. The value is read as
far as it has to be to say what it is, and an error in it comes first. -/
def unexpectedValue (expected : String) : Bytes → JsonError
  | [] => .expectedValue
  | b :: rest =>
    let mismatch (u : Unexpected) : JsonError := .invalidType u expected
    let word (w : Bytes) (u : Unexpected) : JsonError :=
      match expectWord w rest with
      | .ok _ => mismatch u
      | .error e => e
    let number (negative : Bool) (bytes : Bytes) : JsonError :=
      match readUnsigned negative bytes with
      | .ok (n, _) => mismatch n.unexpected
      | .error e => e
    if b = byte 'n' then word nullTail .null
    else if b = byte 't' then word trueTail (.bool true)
    else if b = byte 'f' then word falseTail (.bool false)
    else if b = byte '-' then number true rest
    else if isDigit b then number false (b :: rest)
    else if b = byte '"' then
      match readText rest with
      | .ok (text, _) => mismatch (.string text)
      | .error e => e
    else if b = byte '[' then mismatch .sequence
    else if b = byte '{' then mismatch .map
    else .expectedValue

def readWhole (least greatest : Int) (expected : String) : Reader Int := fun bytes =>
  match skipSpaces bytes with
  | [] => .error .eofValue
  | b :: rest =>
    let check : Reader Int := fun bytes => do
      let (n, rest) ← readUnsigned (b = byte '-') bytes
      let whole (n : Int) : Except JsonError (Int × Bytes) :=
        if least ≤ n ∧ n ≤ greatest then .ok (n, rest)
        else .error (.invalidValue (.integer n) expected)
      match n with
      | .natural n => whole n
      | .negative n => whole n
      | .float .. => .error (.invalidType n.unexpected expected)
    if b = byte '-' then check rest
    else if isDigit b then check (b :: rest)
    else .error (unexpectedValue expected (b :: rest))

def readString : Reader String := fun bytes =>
  match skipSpaces bytes with
  | [] => .error .eofValue
  | b :: rest =>
    if b = byte '"' then readText rest
    else .error (unexpectedValue "a string" (b :: rest))

/-- A field of a record: its name, and the record with the value that is read for it. -/
structure Field (σ : Type) where
  name : String
  read : σ → Reader σ

def Field.of {σ α : Type} (name : String) (read : Reader α) (set : σ → α → σ) : Field σ :=
  ⟨name, fun s bytes => (read bytes).map fun (v, rest) => (set s v, rest)⟩

variable {σ : Type}

/-- The end of a list whose fields were all given. -/
def readListEnd (s : σ) (bytes : Bytes) : Except JsonError (σ × Bytes) :=
  match skipSpaces bytes with
  | [] => .error .eofList
  | b :: rest =>
    if b = byte ']' then .ok (s, rest)
    else if b = byte ',' then
      match skipSpaces rest with
      | c :: _ => .error (if c = byte ']' then .trailingComma else .trailingCharacters)
      | [] => .error .trailingCharacters
    else .error .trailingCharacters

/-- Fields by their order, after the bracket. The list may end before any of them. -/
def readList (first : Bool) (s : σ) : List (Field σ) → Bytes → Except JsonError (σ × Bytes)
  | [], bytes => readListEnd s bytes
  | f :: fs, bytes =>
    match skipSpaces bytes with
    | [] => .error .eofList
    | b :: rest =>
      if b = byte ']' then .ok (s, rest)
      else if first then do
        let (s, rest) ← f.read s (b :: rest)
        readList false s fs rest
      else if b = byte ',' then
        match skipSpaces rest with
        | [] => .error .eofValue
        | c :: after =>
          if c = byte ']' then .error .trailingComma
          else do
            let (s, rest) ← f.read s (c :: after)
            readList false s fs rest
      else .error .expectedListEnd

def readMember (fields : List (Field σ)) (s : σ) (seen : List String) (bytes : Bytes) :
    Except JsonError (σ × List String × Bytes) := do
  let (key, rest) ← readText bytes
  match fields.find? (·.name = key) with
  | some f =>
    if key ∈ seen then .error (.duplicateField key)
    else
      let (s, rest) ← f.read s (← expectColon rest)
      .ok (s, key :: seen, rest)
  | none => .ok (s, seen, ← skipAny (← expectColon rest))

/-- Members after the first, from the end of one of them on. Each step takes a byte at least. -/
def readMembers (fields : List (Field σ)) :
    (fuel : Nat) → σ → List String → Bytes → Except JsonError (σ × Bytes)
  | 0, _, _, _ => .error .eofObject
  | fuel + 1, s, seen, bytes =>
    match skipSpaces bytes with
    | [] => .error .eofObject
    | b :: rest =>
      if b = byte '}' then .ok (s, rest)
      else if b = byte ',' then
        match skipSpaces rest with
        | [] => .error .eofValue
        | q :: rest =>
          if q = byte '"' then do
            let (s, seen, rest) ← readMember fields s seen rest
            readMembers fields fuel s seen rest
          else if q = byte '}' then .error .trailingComma
          else .error .keyMustBeString
      else .error .expectedObjectEnd

def readObject (fields : List (Field σ)) (s : σ) (bytes : Bytes) :
    Except JsonError (σ × Bytes) :=
  match skipSpaces bytes with
  | [] => .error .eofObject
  | b :: rest =>
    if b = byte '}' then .ok (s, rest)
    else if b = byte '"' then do
      let (s, seen, rest) ← readMember fields s [] rest
      readMembers fields (rest.length + 1) s seen rest
    else .error .keyMustBeString

def readRecord (expected : String) (fields : List (Field σ)) (s : σ) : Reader σ := fun bytes =>
  match skipSpaces bytes with
  | [] => .error .eofValue
  | b :: rest =>
    if b = byte '[' then readList true s fields rest
    else if b = byte '{' then readObject fields s rest
    else .error (unexpectedValue expected (b :: rest))

/-- A whole document: one value and nothing but spaces after it. -/
def readDocument (read : Reader σ) (bytes : Bytes) : Except JsonError σ := do
  let (s, rest) ← read bytes
  if (skipSpaces rest).isEmpty then .ok s else .error .trailingCharacters

end ConflictBatching
