/-! # A seeded stream of words

The key of the stream is stretched from a seed of 64 bits. Block number `c` mixes four constants,
the key and `c` in twelve rounds and adds the input to the result; its sixteen words are the next
words of the stream.
-/
namespace ConflictBatching

/-- One column of a block. -/
structure Column where
  a : UInt32
  b : UInt32
  c : UInt32
  d : UInt32

namespace Column

@[inline] def rotateLeft (x n : UInt32) : UInt32 := x <<< n ||| x >>> (32 - n)

def mix (q : Column) : Column :=
  let a := q.a + q.b; let d := rotateLeft (q.d ^^^ a) 16
  let c := q.c + d; let b := rotateLeft (q.b ^^^ c) 12
  let a := a + b; let d := rotateLeft (d ^^^ a) 8
  let c := c + d; let b := rotateLeft (b ^^^ c) 7
  ⟨a, b, c, d⟩

def add (q r : Column) : Column := ⟨q.a + r.a, q.b + r.b, q.c + r.c, q.d + r.d⟩

end Column

/-- Four columns of four words; the words of a block are read row by row. -/
structure Block where
  w : Column
  x : Column
  y : Column
  z : Column

namespace Block

def mixColumns (s : Block) : Block := ⟨s.w.mix, s.x.mix, s.y.mix, s.z.mix⟩

/-- Row `i` moves `i` places to the left, so that diagonals become columns. -/
def skew (s : Block) : Block :=
  ⟨⟨s.w.a, s.x.b, s.y.c, s.z.d⟩, ⟨s.x.a, s.y.b, s.z.c, s.w.d⟩,
    ⟨s.y.a, s.z.b, s.w.c, s.x.d⟩, ⟨s.z.a, s.w.b, s.x.c, s.y.d⟩⟩

/-- The inverse of `skew`. -/
def unskew (s : Block) : Block :=
  ⟨⟨s.w.a, s.z.b, s.y.c, s.x.d⟩, ⟨s.x.a, s.w.b, s.z.c, s.y.d⟩,
    ⟨s.y.a, s.x.b, s.w.c, s.z.d⟩, ⟨s.z.a, s.y.b, s.x.c, s.w.d⟩⟩

def doubleRound (s : Block) : Block := s.mixColumns.skew.mixColumns.unskew

def add (s t : Block) : Block := ⟨s.w.add t.w, s.x.add t.x, s.y.add t.y, s.z.add t.z⟩

/-- Six double rounds, and the input added to their result. -/
def scramble (s : Block) : Block := (Nat.repeat doubleRound 6 s).add s

def words (s : Block) : List UInt32 :=
  [s.w.a, s.x.a, s.y.a, s.z.a, s.w.b, s.x.b, s.y.b, s.z.b,
    s.w.c, s.x.c, s.y.c, s.z.c, s.w.d, s.x.d, s.y.d, s.z.d]

end Block

/-- The state of the generator that stretches a seed, and the word read off it. -/
def stretch (state : UInt64) : UInt64 × UInt32 :=
  let state := state * 6364136223846793005 + 11634580027462260723
  let x := ((state >>> 18 ^^^ state) >>> 27).toUInt32
  let turn := (state >>> 59).toUInt32
  (state, x >>> turn ||| x <<< ((32 - turn) % 32))

/-- The first block of the stream with the given seed, at counter zero. -/
def seedBlock (seed : UInt64) : Block :=
  let (s, k0) := stretch seed
  let (s, k1) := stretch s
  let (s, k2) := stretch s
  let (s, k3) := stretch s
  let (s, k4) := stretch s
  let (s, k5) := stretch s
  let (s, k6) := stretch s
  let (_, k7) := stretch s
  ⟨⟨0x61707865, k0, k4, 0⟩, ⟨0x3320646e, k1, k5, 0⟩,
    ⟨0x79622d32, k2, k6, 0⟩, ⟨0x6b206574, k3, k7, 0⟩⟩

structure Keystream where
  /-- The block to scramble for counter zero. -/
  base : Block
  /-- The number of the next block. -/
  counter : UInt64 := 0
  /-- Words of the last block still to come. -/
  buffer : List UInt32 := []

namespace Keystream

def ofSeed (seed : UInt64) : Keystream := { base := seedBlock seed }

def block (k : Keystream) : Block :=
  { k.base with
    w := { k.base.w with d := k.counter.toUInt32 }
    x := { k.base.x with d := (k.counter >>> 32).toUInt32 } }.scramble

def word (k : Keystream) : UInt32 × Keystream :=
  match k.buffer with
  | v :: rest => (v, { k with buffer := rest })
  | [] =>
    let b := k.block.words
    (b.headD 0, { k with counter := k.counter + 1, buffer := b.tail })

/-- Two successive words, the low one first. -/
def doubleWord (k : Keystream) : UInt64 × Keystream :=
  let (low, k) := k.word
  let (high, k) := k.word
  (high.toUInt64 <<< 32 ||| low.toUInt64, k)

def wordsInto (out : Array UInt32) : Nat → Keystream → Array UInt32 × Keystream
  | 0, k => (out, k)
  | n + 1, k =>
    let (v, k) := k.word
    wordsInto (out.push v) n k

def words (n : Nat) (k : Keystream) : List UInt32 := (wordsInto #[] n k).1.toList

end Keystream
end ConflictBatching
