import ConflictBatching.Config.Basic
import ConflictBatching.Json.Number
import ConflictBatching.Proofs.Json.Grammar

/-! # The leaves of a configuration

A configuration has leaves at the top and in its sections. Each has a name that no other name of
its level is equal to, and its value is a whole number or a text. A document gives some leaves of a
configuration if it shows them under their names and shows nothing else that is a field.
-/
namespace ConflictBatching

inductive Section where
  | schedule
  | accounts
  | conflict
  | flush
deriving DecidableEq

inductive Leaf where
  | seed
  | warmupRounds
  | logLevel
  | qlen
  | modulo
  | accounts
  | transfers
  | initialBalance
  | maxAmount
  | lanes
  | iterations
  | maxDeferrals
  | minBatch
deriving DecidableEq

namespace Section

def all : List Section := [schedule, accounts, conflict, flush]

def name : Section → String
  | schedule => "schedule"
  | accounts => "accounts"
  | conflict => "conflict"
  | flush => "flush"

theorem mem_all (s : Section) : s ∈ all := by
  cases s <;> decide

theorem eq_of_name_eq {s s' : Section} (hname : s.name = s'.name) : s = s' := by
  have hall : ∀ s ∈ all, ∀ s' ∈ all, s.name = s'.name → s = s' := by decide
  exact hall s s.mem_all s' s'.mem_all hname

end Section

namespace Leaf

def all : List Leaf :=
  [seed, warmupRounds, logLevel, qlen, modulo, accounts, transfers, initialBalance, maxAmount,
    lanes, iterations, maxDeferrals, minBatch]

def name : Leaf → String
  | seed => "seed"
  | warmupRounds => "warmup_rounds"
  | logLevel => "log_level"
  | qlen => "qlen"
  | modulo => "modulo"
  | accounts => "accounts"
  | transfers => "transfers"
  | initialBalance => "initial_balance"
  | maxAmount => "max_amount"
  | lanes => "lanes"
  | iterations => "iterations"
  | maxDeferrals => "max_deferrals"
  | minBatch => "min_batch"

/-- The section a leaf stands in, or none for one at the top. -/
def level : Leaf → Option Section
  | seed | warmupRounds | logLevel => none
  | qlen | modulo => some .schedule
  | accounts | transfers | initialBalance | maxAmount => some .accounts
  | lanes | iterations => some .conflict
  | maxDeferrals | minBatch => some .flush

/-- The name at the top of a document that a leaf is found under. -/
def topName (l : Leaf) : String := (l.level.map Section.name).getD l.name

theorem mem_all (l : Leaf) : l ∈ all := by
  cases l <;> decide

theorem eq_of_name_eq {l l' : Leaf} (hlevel : l.level = l'.level) (hname : l.name = l'.name) :
    l = l' := by
  have hall : ∀ l ∈ all, ∀ l' ∈ all, l.level = l'.level → l.name = l'.name → l = l' := by decide
  exact hall l l.mem_all l' l'.mem_all hlevel hname

theorem name_ne_section {l : Leaf} (hlevel : l.level = none) (s : Section) : l.name ≠ s.name := by
  have hall : ∀ l ∈ all, ∀ s ∈ Section.all, l.level = none → l.name ≠ s.name := by decide
  exact hall l l.mem_all s s.mem_all hlevel

end Leaf

inductive LeafValue where
  | whole (n : Int)
  | text (t : String)
deriving DecidableEq

def Config.leaf (c : Config) : Leaf → LeafValue
  | .seed => .whole c.seed.toNat
  | .warmupRounds => .whole c.warmupRounds.toNat
  | .logLevel => .text c.logLevel
  | .qlen => .whole c.schedule.qlen.toNat
  | .modulo => .whole c.schedule.modulo.toNat
  | .accounts => .whole c.accounts.accounts.toNat
  | .transfers => .whole c.accounts.transfers.toNat
  | .initialBalance => .whole c.accounts.initialBalance.toInt
  | .maxAmount => .whole c.accounts.maxAmount.toInt
  | .lanes => .whole c.conflict.lanes.toNat
  | .iterations => .whole c.conflict.iterations.toNat
  | .maxDeferrals => .whole c.flush.maxDeferrals.toNat
  | .minBatch => .whole c.flush.minBatch.toNat

/-- A configuration is nothing but its leaves. -/
theorem Config.eq_of_leaf_eq {c d : Config} (h : ∀ l, c.leaf l = d.leaf l) : c = d := by
  have hnat : ∀ {m n : Nat}, LeafValue.whole m = .whole n → m = n := by
    intro m n heq
    exact Int.ofNat.inj (LeafValue.whole.inj heq)
  obtain ⟨_, _, _, ⟨_, _⟩, ⟨_, _, _, _⟩, ⟨_, _⟩, ⟨_, _⟩⟩ := c
  obtain ⟨_, _, _, ⟨_, _⟩, ⟨_, _, _, _⟩, ⟨_, _⟩, ⟨_, _⟩⟩ := d
  obtain rfl := UInt64.toNat_inj.mp (hnat (h .seed))
  obtain rfl := UInt32.toNat_inj.mp (hnat (h .warmupRounds))
  obtain rfl := LeafValue.text.inj (h .logLevel)
  obtain rfl := UInt32.toNat_inj.mp (hnat (h .qlen))
  obtain rfl := UInt32.toNat_inj.mp (hnat (h .modulo))
  obtain rfl := UInt64.toNat_inj.mp (hnat (h .accounts))
  obtain rfl := UInt64.toNat_inj.mp (hnat (h .transfers))
  obtain rfl := Int64.toInt_inj.mp (LeafValue.whole.inj (h .initialBalance))
  obtain rfl := Int64.toInt_inj.mp (LeafValue.whole.inj (h .maxAmount))
  obtain rfl := UInt64.toNat_inj.mp (hnat (h .lanes))
  obtain rfl := UInt64.toNat_inj.mp (hnat (h .iterations))
  obtain rfl := UInt64.toNat_inj.mp (hnat (h .maxDeferrals))
  obtain rfl := UInt64.toNat_inj.mp (hnat (h .minBatch))
  rfl

/-- A whole number is spelled by its digits alone, a text in any way a string can be. -/
inductive LeafText : LeafValue → Bytes → Prop where
  | whole (n : Int) : LeafText (.whole n) (writeInt n)
  | text {t : String} {content : Bytes} : Spelled t.toList content →
      LeafText (.text t) (inQuotes content)

/-- Names, each with what may stand under it. -/
abbrev Shown := List (String × (Bytes → Prop))

/-- The members of an object that shows every one of these names once, in any order, and besides
them only names that are not known, with any values. -/
inductive Shows (known : List String) : Shown → List (Bytes × Bytes) → Prop where
  | nil : Shows known [] []
  | shown {name : String} {holds : Bytes → Prop} {before after : Shown} {key value : Bytes}
      {members : List (Bytes × Bytes)} : Spelled name.toList key → holds value →
      Shows known (before ++ after) members →
      Shows known (before ++ (name, holds) :: after) ((key, value) :: members)
  | extra {name : String} {shown : Shown} {key value : Bytes} {members : List (Bytes × Bytes)} :
      name ∉ known → Spelled name.toList key → ValueText value → Shows known shown members →
      Shows known shown ((key, value) :: members)

section Documents
variable (c : Config) (given : Leaf → Bool)

def leavesAt (level : Option Section) : List Leaf := Leaf.all.filter (·.level = level)

def givenAt (level : Option Section) : List Leaf := (leavesAt level).filter given

def shownLeaves (level : Option Section) : Shown :=
  (givenAt given level).map fun l => (l.name, LeafText (c.leaf l))

/-- The object of a section with the given leaves that stand in it. -/
def SectionText (s : Section) (w : Bytes) : Prop :=
  ∃ members, Shows ((leavesAt (some s)).map Leaf.name) (shownLeaves c given (some s)) members ∧
    ObjectText members w

/-- A document with the given leaves. A section none of whose leaves are given may be left out. -/
def DocumentText (document : Bytes) : Prop :=
  ∃ sections : List Section, sections.Nodup ∧
    (∀ l s, l.level = some s → given l = true → s ∈ sections) ∧
    ∃ members w, Shows ((leavesAt none).map Leaf.name ++ Section.all.map Section.name)
        (shownLeaves c given none ++ sections.map fun s => (s.name, SectionText c given s))
        members ∧
      ObjectText members w ∧ Padded w document

end Documents

end ConflictBatching
