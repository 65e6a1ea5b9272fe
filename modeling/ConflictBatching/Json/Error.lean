import ConflictBatching.Text.Class

/-! # Why a document is refused

The causes, their wording, and whether the text ended too early, breaks the grammar or holds a
value that its place does not take. The wording shows a text in double quotes with every character
visible: quotes and backslashes are escaped, common controls by letter, and what has no form of its
own by its code point in braces.
-/
namespace ConflictBatching

def codePoint (c : Char) : String :=
  "\\u\x7b" ++ String.ofList (Nat.toDigits 16 c.toNat) ++ "\x7d"

def quotedChar (c : Char) : String :=
  if c = '"' then "\\\""
  else if c = '\\' then "\\\\"
  else if c = '\n' then "\\n"
  else if c = '\r' then "\\r"
  else if c = '\t' then "\\t"
  else if c.toNat = 0 then "\\0"
  else if unprintable.holds c || extending.holds c then codePoint c
  else c.toString

def quoted (text : String) : String := "\"" ++ String.join (text.toList.map quotedChar) ++ "\""

inductive Unexpected where
  | null
  | bool (value : Bool)
  | integer (value : Int)
  /-- A number with a fraction, an exponent or too many digits, as it is written in messages. -/
  | float (text : String)
  | string (text : String)
  | sequence
  | map
deriving DecidableEq

def Unexpected.text : Unexpected → String
  | null => "null"
  | bool value => "boolean `" ++ (if value then "true" else "false") ++ "`"
  | integer value => s!"integer `{value}`"
  | float text => "floating point `" ++ text ++ "`"
  | string text => "string " ++ quoted text
  | sequence => "sequence"
  | map => "map"

inductive JsonError where
  | eofValue
  | eofString
  | eofList
  | eofObject
  | expectedValue
  | expectedColon
  | expectedListEnd
  | expectedObjectEnd
  | expectedIdent
  | keyMustBeString
  | trailingComma
  | trailingCharacters
  | invalidNumber
  | numberOutOfRange
  | invalidEscape
  | controlCharacter
  | loneSurrogate
  | unfinishedSurrogate
  | invalidCodePoint
  | invalidType (found : Unexpected) (expected : String)
  | invalidValue (found : Unexpected) (expected : String)
  | duplicateField (name : String)
deriving DecidableEq

inductive ErrorCategory where
  | syntactic
  | data
  | eof
deriving DecidableEq

namespace JsonError

def category : JsonError → ErrorCategory
  | eofValue | eofString | eofList | eofObject => .eof
  | invalidType .. | invalidValue .. | duplicateField _ => .data
  | _ => .syntactic

def message : JsonError → String
  | eofValue => "EOF while parsing a value"
  | eofString => "EOF while parsing a string"
  | eofList => "EOF while parsing a list"
  | eofObject => "EOF while parsing an object"
  | expectedValue => "expected value"
  | expectedColon => "expected `:`"
  | expectedListEnd => "expected `,` or `]`"
  | expectedObjectEnd => "expected `,` or `\x7d`"
  | expectedIdent => "expected ident"
  | keyMustBeString => "key must be a string"
  | trailingComma => "trailing comma"
  | trailingCharacters => "trailing characters"
  | invalidNumber => "invalid number"
  | numberOutOfRange => "number out of range"
  | invalidEscape => "invalid escape"
  | controlCharacter => "control character (\\u0000-\\u001F) found while parsing a string"
  | loneSurrogate => "lone leading surrogate in hex escape"
  | unfinishedSurrogate => "unexpected end of hex escape"
  | invalidCodePoint => "invalid unicode code point"
  | invalidType found expected => "invalid type: " ++ found.text ++ ", expected " ++ expected
  | invalidValue found expected => "invalid value: " ++ found.text ++ ", expected " ++ expected
  | duplicateField name => "duplicate field `" ++ name ++ "`"

end JsonError
end ConflictBatching
