import ConflictBatching.Ledger.Account

/-! # Arrival order

Every account keeps a line of the transfers that still have to run on it, in the order in which
they arrived. A transfer may run once it is first in line on both of its accounts.
-/
namespace ConflictBatching

structure ArrivalOrder where
  /-- For each account the transfers still to run, by arrival. -/
  lines : Array (List Nat)

namespace ArrivalOrder

/-- Transfer `i` goes to the front of the line of an account, which has to be there. -/
def join? (lines : Array (List Nat)) (account i : Nat) : Option (Array (List Nat)) :=
  if account < lines.size then some (lines.modify account (i :: ·)) else none

/-- A transfer within one account joins its line once. -/
def enter? (lines : Array (List Nat)) (i : Nat) (t : Transfer) : Option (Array (List Nat)) := do
  let lines ← join? lines t.source i
  if t.target = t.source then return lines
  join? lines t.target i

/-- The lines of numbered transfers, which enter from the last to the first. -/
def linesOf? (accounts : Nat) (numbered : List (Transfer × Nat)) : Option (Array (List Nat)) :=
  numbered.foldrM (fun (t, i) lines => enter? lines i t) (Array.replicate accounts [])

/-- The lines before any transfer ran; nothing once a transfer has no line to join. -/
def start? (accounts : Nat) (transfers : List Transfer) : Option ArrivalOrder :=
  (linesOf? accounts transfers.zipIdx).map .mk

def next? (o : ArrivalOrder) (account : Nat) : Option Nat := (o.lines[account]?).bind List.head?

/-- Takes the first out of the lines of a transfer. -/
def leave (o : ArrivalOrder) (t : Transfer) : ArrivalOrder :=
  let lines := o.lines.modify t.source List.tail
  ⟨if t.target = t.source then lines else lines.modify t.target List.tail⟩

def advance? (o : ArrivalOrder) (i : Nat) (t : Transfer) : Option ArrivalOrder :=
  if o.next? t.source = some i ∧ o.next? t.target = some i then some (o.leave t) else none

structure Released where
  order : ArrivalOrder
  ready : List Nat := []
  held : List Nat := []

/-- Runs through the held transfers in ascending order and releases those that may run. What
they wait for arrived earlier, so one pass releases all that can run. -/
def release (transfers : Array Transfer) (o : ArrivalOrder) : List Nat → Released
  | [] => { order := o }
  | i :: rest =>
    match (transfers[i]?).bind (o.advance? i) with
    | some o =>
      let r := release transfers o rest
      { r with ready := i :: r.ready }
    | none =>
      let r := release transfers o rest
      { r with held := i :: r.held }

end ArrivalOrder
end ConflictBatching
