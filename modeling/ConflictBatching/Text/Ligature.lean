import ConflictBatching.Text.Width

/-! # Ligatures

Letters of some scripts that are drawn as one when they meet, with or without a joiner between
them. A ligature is read from its end; what has been read tells what the letter in front adds.
-/
namespace ConflictBatching

/-- The end of a ligature, as far as it has been read. Letters that need a joiner carry whether
there is one in front of them. -/
inductive Ligature where
  | alef
  | lamed (joined : Bool)
  | ya (joined : Bool)
  /-- A joined ya with its vowel sign in front. -/
  | vowelYa
  | consonant (joined : Bool)
  /-- A consonant with the consonant joiner in front. -/
  | boundConsonant
  /-- A tone letter that may end a pair. -/
  | tone
  | orkhonI (joined : Bool)
  /-- A letter that takes no column as a subscript. -/
  | subscriptLetter
  /-- A vowel sign that other signs may be written with. -/
  | signE
  /-- Two of them. -/
  | signAi
deriving DecidableEq

/-- The letters that merge with an alef after them. -/
def lam : CodeTable :=
  [(0x644, 0x644), (0x6b5, 0x6b8), (0x76a, 0x76a), (0x8a6, 0x8a6), (0x8c7, 0x8c7)]

def alefs : CodeTable :=
  [(0x622, 0x623), (0x625, 0x625), (0x627, 0x627), (0x671, 0x673), (0x675, 0x675),
  (0x773, 0x774), (0x870, 0x882)]

/-- Characters that take no column and still keep letters around them from meeting. -/
def separating : CodeTable :=
  [(0x605, 0x605), (0x890, 0x891), (0x8e2, 0x8e2), (0x9be, 0x9be), (0x9d7, 0x9d7), (0xb3e, 0xb3e),
  (0xb57, 0xb57), (0xbbe, 0xbbe), (0xbd7, 0xbd7), (0xcc0, 0xcc0), (0xcc2, 0xcc2), (0xcc7, 0xcc8),
  (0xcca, 0xccb), (0xcd5, 0xcd6), (0xd3e, 0xd3e), (0xd4e, 0xd4e), (0xd57, 0xd57), (0xdcf, 0xdcf),
  (0xddf, 0xddf), (0x1160, 0x11ff), (0x1715, 0x1715), (0x1734, 0x1734), (0x180e, 0x180e),
  (0x1b35, 0x1b35), (0x1b3b, 0x1b3b), (0x1b3d, 0x1b3d), (0x1b43, 0x1b44), (0x1baa, 0x1baa),
  (0x1bf2, 0x1bf3), (0x200c, 0x200d), (0x2065, 0x2069), (0x302e, 0x302f), (0x3164, 0x3164),
  (0xa8fa, 0xa8fa), (0xa953, 0xa953), (0xa9c0, 0xa9c0), (0xd7b0, 0xd7c6), (0xd7cb, 0xd7fb),
  (0xffa0, 0xffa0), (0xfff0, 0xfff8), (0x111c0, 0x111c0), (0x111c2, 0x111c3), (0x11235, 0x11235),
  (0x1133e, 0x1133e), (0x1134d, 0x1134d), (0x11357, 0x11357), (0x113b8, 0x113b8),
  (0x113c2, 0x113c2), (0x113c5, 0x113c5), (0x113c7, 0x113c9), (0x113cf, 0x113cf),
  (0x113d1, 0x113d1), (0x114b0, 0x114b0), (0x114bd, 0x114bd), (0x115af, 0x115af),
  (0x116b6, 0x116b6), (0x11930, 0x11930), (0x1193d, 0x1193d), (0x1193f, 0x1193f),
  (0x11941, 0x11941), (0x11a84, 0x11a89), (0x11d46, 0x11d46), (0x11f02, 0x11f02),
  (0x11f41, 0x11f41), (0x16ff0, 0x16ff1), (0x1d165, 0x1d166), (0x1d16d, 0x1d172),
  (0x1d250, 0x1d252), (0x1d25f, 0x1d25f), (0x1d280, 0x1d281), (0xe0000, 0xe0000),
  (0xe0002, 0xe001f), (0xe0080, 0xe00ff), (0xe01f0, 0xe0fff)]

/-- Consonants that may be bound to a consonant before them. -/
def boundConsonants : CodeTable := [(0x2d31, 0x2d65), (0x2d6f, 0x2d6f)]

/-- Letters that the subscript sign in front of them turns into a subscript. -/
def subscriptLetters : CodeTable :=
  [(0x1780, 0x1782), (0x1784, 0x1787), (0x1789, 0x178c), (0x178e, 0x1793), (0x1795, 0x1798),
  (0x179b, 0x179d), (0x17a0, 0x17a0), (0x17a2, 0x17a2), (0x17a7, 0x17a7), (0x17ab, 0x17ac),
  (0x17af, 0x17af)]

def subscriptSign : Char := '\u17d2'

/-- Tone letters that may start a pair, and those that may end it. -/
def firstTones : CodeTable := [(0xa4f8, 0xa4fb)]
def lastTones : CodeTable := [(0xa4fc, 0xa4fd)]

/-- Marks that are ignored by default, with the joiner; they do not part a ligature. -/
def ignorable : CodeTable :=
  [(0x34f, 0x34f), (0x17b4, 0x17b5), (0x180b, 0x180d), (0x180f, 0x180f), (0x200d, 0x200d),
  (0xfe00, 0xfe0f), (0xe0100, 0xe01ef)]

namespace Ligature

/-- Whether marks that are ignored by default may stand in front. -/
def isLoose : Ligature → Bool
  | alef | signE | signAi => false
  | _ => true

/-- With a joiner in front. -/
def join : Ligature → Ligature
  | lamed _ => lamed true
  | ya _ => ya true
  | consonant _ => consonant true
  | orkhonI _ => orkhonI true
  | l => l

/-- A letter in front, and the columns that it adds; it may take back those of the letter after
it. Nothing if the two do not meet. -/
def beforeLetter? (c : Char) : Ligature → Option (Int × Option Ligature)
  | alef =>
    if lam.holds c then some (0, none)
    else if columnsOf c = 0 && !separating.holds c then some (0, alef)
    else none
  | lamed joined => if joined && c = '\u05d0' then some (0, none) else none
  | ya joined => if joined && c = '\u1a17' then some (0, vowelYa) else none
  | vowelYa => if c = '\u1a15' then some (0, none) else none
  | consonant joined =>
    if c = consonantJoiner then some (1, boundConsonant)
    else if joined && boundConsonants.holds c then some (0, none)
    else none
  | boundConsonant => if boundConsonants.holds c then some (-1, none) else none
  | tone => if firstTones.holds c then some (0, none) else none
  | orkhonI joined => if joined && c = Char.ofNat 0x10c32 then some (0, none) else none
  | subscriptLetter => if c = subscriptSign then some (-1, none) else none
  | signE =>
    if c = Char.ofNat 0x16d63 || c = Char.ofNat 0x16d69 then some (0, none)
    else if c = Char.ofNat 0x16d67 then some (0, signAi)
    else if c = Char.ofNat 0x16d68 then some (1, signE)
    else none
  | signAi => if c = Char.ofNat 0x16d63 then some (0, none) else none

/-- What is read with one more character in front, and the columns that it adds. -/
def before? (c : Char) (l : Ligature) : Option (Int × Option Ligature) :=
  if l.isLoose && ignorable.holds c then some (0, if c = '\u200d' then l.join else l)
  else l.beforeLetter? c

/-- The ligature that a letter may end. -/
def ofChar? (c : Char) : Option Ligature :=
  if alefs.holds c then some alef
  else if c = '\u05dc' then some (lamed false)
  else if c = '\u1a10' then some (ya false)
  else if boundConsonants.holds c then some (consonant false)
  else if lastTones.holds c then some tone
  else if c = Char.ofNat 0x10c03 then some (orkhonI false)
  else if subscriptLetters.holds c then some subscriptLetter
  else if c = Char.ofNat 0x16d67 then some signE
  else if c = Char.ofNat 0x16d68 then some signAi
  else none

end Ligature
end ConflictBatching
