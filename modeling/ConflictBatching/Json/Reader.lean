import ConflictBatching.Json.Error

/-! # Reading bytes

A reader takes the bytes of a document from the left and gives a value with the bytes after it,
or the first error it meets.
-/
namespace ConflictBatching

abbrev Bytes := List UInt8

abbrev Reader (α : Type) := Bytes → Except JsonError (α × Bytes)

def byte (c : Char) : UInt8 := c.toNat.toUInt8

def isDigit (b : UInt8) : Bool := byte '0' ≤ b && b ≤ byte '9'

def isSpace (b : UInt8) : Bool :=
  b = byte ' ' || b = byte '\t' || b = byte '\n' || b = byte '\r'

def skipSpaces : Bytes → Bytes
  | [] => []
  | b :: rest => if isSpace b then skipSpaces rest else b :: rest

def expectWord : Bytes → Bytes → Except JsonError Bytes
  | [], rest => .ok rest
  | _ :: _, [] => .error .eofValue
  | w :: ws, b :: rest => if b = w then expectWord ws rest else .error .expectedIdent

def ofText (text : String) : Bytes := text.toUTF8.toList

/-! The words for null and the truth values without their first letters. -/

def nullTail : Bytes := [byte 'u', byte 'l', byte 'l']
def trueTail : Bytes := [byte 'r', byte 'u', byte 'e']
def falseTail : Bytes := [byte 'a', byte 'l', byte 's', byte 'e']

end ConflictBatching
