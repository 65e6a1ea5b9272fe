import ConflictBatching.Ledger.Account
import ConflictBatching.Random.Keystream

/-! # Random inputs

Bytes, keys and transfers drawn from a seeded stream. A draw below a bound is the high half of the
product of bound and random word; words whose low half falls outside a whole number of bounds are
drawn again, so that every value is equally likely. A function whose name ends in a question mark
draws nothing when there is no room for what it draws.
-/
namespace ConflictBatching

/-- The last low half that is accepted for the bound. -/
def acceptZone (bound : Nat) : Nat := bound <<< (63 - bound.log2) - 1

/-- Rejects at most `tries` words. A word is accepted at least every other time, so the last is
only kept unseen after that many misses in a row. -/
def drawWithin (bound : Nat) : (tries : Nat) → Keystream → Nat × Keystream
  | 0, k =>
    let (v, k) := k.doubleWord
    (v.toNat * bound / UInt64.size, k)
  | tries + 1, k =>
    let (v, k') := k.doubleWord
    let product := v.toNat * bound
    if product % UInt64.size ≤ acceptZone bound then (product / UInt64.size, k')
    else drawWithin bound tries k'

/-- A number below the bound. -/
def draw (bound : Nat) (k : Keystream) : Nat × Keystream := drawWithin bound 512 k

def wordBytes (v : UInt32) : List UInt8 :=
  [v.toUInt8, (v >>> 8).toUInt8, (v >>> 16).toUInt8, (v >>> 24).toUInt8]

/-- The bytes of the stream, each word from its lowest byte up. -/
def randomBytes (len : Nat) (seed : UInt64) : List UInt8 :=
  (((Keystream.ofSeed seed).words ((len + 3) / 4)).flatMap wordBytes).take len

def randomBytes? (len : Nat) (seed : UInt64) : Option (List UInt8) :=
  if hasRoom UInt8 len then some (randomBytes len seed) else none

/-- One word per key, reduced modulo `modulo`; zero counts as one. -/
def randomKeys (n : Nat) (modulo : UInt32) (seed : UInt64) : List UInt32 :=
  ((Keystream.ofSeed seed).words n).map (· % max modulo 1)

def randomKeys? (n : Nat) (modulo : UInt32) (seed : UInt64) : Option (List UInt32) :=
  if hasRoom UInt32 n then some (randomKeys n modulo seed) else none

/-- A transfer between any two of the accounts, of at most `maxAmount`. -/
def drawTransfer (accounts : Nat) (maxAmount : Int64) (id : Nat) (k : Keystream) :
    Transfer × Keystream :=
  let (source, k) := draw accounts k
  let (target, k) := draw accounts k
  let (amount, k) := draw (maxAmount.toInt.toNat + 1) k
  (⟨UInt64.ofNat id, source, target, Int64.ofNat amount⟩, k)

def transfersInto (accounts : Nat) (maxAmount : Int64) (out : Array Transfer) :
    Nat → Keystream → Array Transfer
  | 0, _ => out
  | n + 1, k =>
    let (t, k) := drawTransfer accounts maxAmount (out.size + 1) k
    transfersInto accounts maxAmount (out.push t) n k

/-- Transfers with ids from one. Without accounts there are none. -/
def randomTransfers (n accounts : Nat) (maxAmount : Int64) (seed : UInt64) : List Transfer :=
  if accounts = 0 then []
  else (transfersInto accounts maxAmount #[] n (.ofSeed seed)).toList

/-- Whether there is room for the transfers; for none there always is. -/
def transfersHaveRoom (n accounts : Nat) : Bool := accounts = 0 || hasRoom Transfer n

def randomTransfers? (n accounts : Nat) (maxAmount : Int64) (seed : UInt64) :
    Option (List Transfer) :=
  if transfersHaveRoom n accounts then some (randomTransfers n accounts maxAmount seed) else none

/-- A queue of random keys whose tokens are their positions. The seed depends on the length. -/
def sampleQueue (n : Nat) (modulo : UInt32) : List UInt32 × List UInt32 :=
  (randomKeys n modulo (0x4c414e4553434844 ^^^ UInt64.ofNat n), (List.range n).map UInt32.ofNat)

def sampleQueue? (n : Nat) (modulo : UInt32) : Option (List UInt32 × List UInt32) :=
  if hasRoom UInt32 n then some (sampleQueue n modulo) else none

end ConflictBatching
