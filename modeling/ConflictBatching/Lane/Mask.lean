/-! # Lane masks

A mask is a set of lanes below `maxLanes`, held as the bits of one word. Membership is
`contains`; every other operation is read through it. Lanes are visited from the lowest up by
clearing the lowest set bit of the word at each step.
-/
namespace ConflictBatching

/-- The widest lane set one mask describes. -/
def maxLanes : Nat := 64

@[ext] structure LaneMask where
  bits : BitVec 64
deriving DecidableEq

namespace LaneMask

def empty : LaneMask := ⟨0⟩

instance : Inhabited LaneMask := ⟨empty⟩

def contains (m : LaneMask) (lane : Nat) : Bool := m.bits.getLsbD lane

/-- The lanes below `n`, all of them from `maxLanes` on. -/
def firstN (n : Nat) : LaneMask :=
  if maxLanes ≤ n then ⟨BitVec.allOnes 64⟩ else ⟨BitVec.ofNat 64 (Nat.pow 2 n - 1)⟩

/-- A lane that no mask can hold is left out. -/
def insert (m : LaneMask) (lane : Nat) : LaneMask :=
  if lane < maxLanes then ⟨m.bits ||| BitVec.twoPow 64 lane⟩ else m

def erase (m : LaneMask) (lane : Nat) : LaneMask :=
  if lane < maxLanes then ⟨m.bits &&& ~~~(BitVec.twoPow 64 lane)⟩ else m

def inter (m k : LaneMask) : LaneMask := ⟨m.bits &&& k.bits⟩

def union (m k : LaneMask) : LaneMask := ⟨m.bits ||| k.bits⟩

def compl (m : LaneMask) : LaneMask := ⟨~~~m.bits⟩

instance : AndOp LaneMask := ⟨inter⟩
instance : OrOp LaneMask := ⟨union⟩
instance : Complement LaneMask := ⟨compl⟩

def isEmpty (m : LaneMask) : Bool := m.bits == 0

def count (m : LaneMask) : Nat := (List.range maxLanes).countP m.contains

def first? (m : LaneMask) : Option Nat := (List.range maxLanes).find? m.contains

def ofLanes (lanes : List Nat) : LaneMask := lanes.foldl insert empty

def binaryDigits (m : LaneMask) : String := String.ofList (Nat.toDigits 2 m.bits.toNat)

/-- The debugging text, with the lanes as binary digits and the highest lane first. -/
def describe (m : LaneMask) : String := "LaneMask(0b" ++ m.binaryDigits ++ ")"

/-- A walk over the lanes of a mask: the lanes still to come. -/
structure Walk where
  left : LaneMask

def walk (m : LaneMask) : Walk := ⟨m⟩

namespace Walk

/-- The lowest lane to come, and the walk after it: subtracting one from a word and keeping
the bits it shares with the word clears its lowest set bit. -/
def next? (w : Walk) : Option (Nat × Walk) :=
  w.left.first?.map fun lane => (lane, ⟨⟨w.left.bits &&& (w.left.bits - 1)⟩⟩)

def remaining (w : Walk) : Nat := w.left.count

def take : Nat → Walk → List Nat × Walk
  | 0, w => ([], w)
  | k + 1, w =>
    match w.next? with
    | none => ([], w)
    | some (lane, w) =>
      let (lanes, w) := take k w
      (lane :: lanes, w)

end Walk

/-- The lanes of a mask in ascending order: a full walk. -/
def lanes (m : LaneMask) : List Nat := (m.walk.take maxLanes).1

theorem lt_of_contains {m : LaneMask} {lane : Nat} (h : m.contains lane) : lane < maxLanes :=
  BitVec.lt_of_getLsbD h

theorem ext_contains {m k : LaneMask} (h : ∀ lane, m.contains lane = k.contains lane) : m = k :=
  LaneMask.ext (BitVec.eq_of_getLsbD_eq fun lane _ => h lane)

@[simp] theorem contains_empty (lane : Nat) : empty.contains lane = false := by
  simp [empty, contains]

theorem contains_firstN (n lane : Nat) :
    (firstN n).contains lane = decide (lane < maxLanes ∧ lane < n) := by
  unfold firstN contains
  split
  · next h =>
    simp only [BitVec.getLsbD_allOnes, maxLanes] at h ⊢
    grind
  · simp only [BitVec.getLsbD_ofNat, Nat.pow_eq, Nat.testBit_two_pow_sub_one, maxLanes]
    grind

theorem contains_insert (m : LaneMask) (lane i : Nat) :
    (m.insert lane).contains i = (m.contains i || decide (i < maxLanes ∧ i = lane)) := by
  unfold insert contains
  split
  · next h =>
    simp only [BitVec.getLsbD_or, BitVec.getLsbD_twoPow, maxLanes] at h ⊢
    grind
  · grind

theorem contains_erase (m : LaneMask) (lane i : Nat) :
    (m.erase lane).contains i = (m.contains i && decide (i ≠ lane)) := by
  have hi : m.bits.getLsbD i → i < maxLanes := lt_of_contains
  unfold erase contains
  split
  · next h =>
    simp only [BitVec.getLsbD_and, BitVec.getLsbD_not, BitVec.getLsbD_twoPow, maxLanes] at h hi ⊢
    grind
  · grind

@[simp] theorem contains_and (m k : LaneMask) (lane : Nat) :
    (m &&& k).contains lane = (m.contains lane && k.contains lane) := BitVec.getLsbD_and

@[simp] theorem contains_or (m k : LaneMask) (lane : Nat) :
    (m ||| k).contains lane = (m.contains lane || k.contains lane) := BitVec.getLsbD_or

theorem contains_compl (m : LaneMask) (lane : Nat) :
    (~~~m).contains lane = (decide (lane < maxLanes) && !m.contains lane) := BitVec.getLsbD_not

end LaneMask
end ConflictBatching
