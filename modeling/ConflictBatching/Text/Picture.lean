import ConflictBatching.Text.Emoji

/-! # Pictures of several characters

A picture may carry a skin tone, be joined to other pictures, or be a flag that is named by letters
or by tags. The whole takes two columns, so a sequence is read from its end, and what has been
read tells what one more character in front adds.
-/
namespace ConflictBatching

/-- The end of a picture, as far as it has been read. -/
inductive Picture where
  | complete
  | skinTone
  /-- One of the letters that name a country. -/
  | region
  | regions
  /-- A joiner and a picture after it. -/
  | joined
  | joinedKeycap
  /-- One region letter, joined to a picture after it. -/
  | joinedRegion
  /-- An even number of region letters, joined to a picture: its flag starts with the first two. -/
  | joinedFlag
  /-- An odd number of region letters above one, joined to a picture. -/
  | joinedRegions
  /-- The end of a flag named by tags, joined to a picture. -/
  | tags (letters digits : Nat)
deriving DecidableEq

def keycap : Char := '\u20e3'
def endOfTags : Char := Char.ofNat 0xe007f
def flag : Char := Char.ofNat 0x1f3f4
def tagLetters : CodeTable := [(0xe0061, 0xe007a)]
def tagDigits : CodeTable := [(0xe0030, 0xe0039)]

namespace Picture

/-- Whether a picture in front is joined to this one and takes no columns of its own. -/
def isJoined : Picture → Bool
  | joined | joinedKeycap => true
  | _ => false

/-- Tags name a region by two letters or three digits, and a part of it by up to four letters. -/
def beforeTags (c : Char) (letters digits : Nat) : Option (Int × Picture) :=
  if tagLetters.holds c && digits = 0 && letters < 6 then some (0, tags (letters + 1) 0)
  else if tagDigits.holds c && letters ≤ 4 && digits < 3 then some (0, tags letters (digits + 1))
  else if c = flag && (digits = 3 || digits = 0 && 3 ≤ letters) then some (0, complete)
  else none

/-- What is read with one more character in front, and the columns that it adds; nothing if the
character does not belong to the picture. -/
def before? (c : Char) : Picture → Option (Int × Picture)
  | complete => if c = joiner then some (0, joined) else none
  | skinTone =>
    if c = joiner then some (0, joined)
    else if toneable.holds c then some (0, complete)
    else none
  | region => if regionLetters.holds c then some (1, regions) else none
  | regions =>
    if regionLetters.holds c then some (1, regions)
    else if c = joiner then some (0, joined)
    else none
  | joined =>
    if c = keycap then some (0, joinedKeycap)
    else if regionLetters.holds c then some (1, joinedRegion)
    else if skinTones.holds c then some (0, skinTone)
    else if c = endOfTags then some (0, tags 0 0)
    else if emoji.holds c then some (0, complete)
    else none
  | joinedKeycap => none
  | joinedRegion => if regionLetters.holds c then some (-1, joinedFlag) else none
  | joinedFlag =>
    if regionLetters.holds c then some (3, joinedRegions)
    else if c = joiner then some (0, joined)
    else none
  | joinedRegions =>
    if regionLetters.holds c then some (-1, joinedFlag)
    else if c = joiner then some (0, joined)
    else none
  | tags letters digits => beforeTags c letters digits

/-- The picture that a character ends when it stands alone. -/
def ofChar? (c : Char) : Option Picture :=
  if skinTones.holds c then some skinTone
  else if emoji.holds c then some complete
  else if regionLetters.holds c then some region
  else none

end Picture
end ConflictBatching
