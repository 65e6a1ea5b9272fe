import ConflictBatching.Text.Ligature
import ConflictBatching.Text.Picture

/-! # Width in a terminal

The columns that a text takes. Most characters take what they take alone, but the characters of a
picture and the letters of a ligature share their columns, and a selector changes the form of the
character before it. So a text is measured from its end, and each character is told what follows it.
-/
namespace ConflictBatching

/-- What a variation selector asks for. -/
inductive Selector where
  | text
  | emoji
  /-- A quotation mark as wide as an ideograph. -/
  | wide
deriving DecidableEq

def Selector.ofChar? (c : Char) : Option Selector :=
  if c = '\ufe0e' then some text
  else if c = '\ufe0f' then some emoji
  else if c = '\ufe01' then some wide
  else none

/-- Quotation marks that have a wide form. -/
def quotationMarks : CodeTable := [(0x2018, 0x2019), (0x201c, 0x201d)]

/-- What the character after another one is part of. -/
inductive Whole where
  | other
  | picture (p : Picture)
  | ligature (l : Ligature)
deriving DecidableEq

namespace Whole

def ofChar (c : Char) : Whole :=
  match Picture.ofChar? c, Ligature.ofChar? c with
  | some p, _ => picture p
  | none, some l => ligature l
  | none, none => other

def isJoined : Whole → Bool
  | picture p => p.isJoined
  | _ => false

/-- Whether selectors in front leave this open to the letter before them. -/
def outlastsSelectors : Whole → Bool
  | ligature l => l.isLoose || l = .alef
  | _ => false

/-- What one more character in front adds and leads to; nothing if it is no part of this. -/
def before? (c : Char) : Whole → Option (Int × Whole)
  | other => none
  | picture p => (p.before? c).map fun (n, p) => (n, picture p)
  | ligature l => (l.before? c).map fun (n, l) => (n, (l.map ligature).getD other)

end Whole

/-- What follows a character, as far as its width depends on it. -/
structure Follower where
  whole : Whole := .other
  /-- The selector in front of it. -/
  selector : Option Selector := none
deriving DecidableEq

namespace Follower

/-- What is left when the selector does not fit the character before it. -/
def withoutSelector (f : Follower) : Whole :=
  if f.selector.isNone || f.whole.outlastsSelectors then f.whole else .other

/-- With one more selector in front. -/
def select (s : Selector) (w : Whole) : Follower :=
  ⟨if w.outlastsSelectors || s = .emoji && w.isJoined then w else .other, some s⟩

/-- The columns of a character whose form the selector after it sets. -/
def selected? (c : Char) (f : Follower) : Option (Int × Follower) :=
  match f.selector with
  | some .emoji =>
    if selectable.holds c then
      some (if f.whole.isJoined then 0 else 2, ⟨.picture .complete, none⟩)
    else none
  | some .text => if isTextual c then some (1, {}) else none
  | some .wide => if quotationMarks.holds c then some (2, {}) else none
  | none => none

/-- The columns that a character adds, and what it is in turn to the one before it. -/
def before (c : Char) (f : Follower) : Int × Follower :=
  match f.selected? c with
  | some answer => answer
  | none =>
    if c.toNat ≤ 0xa0 then (1, {})
    else
      match Selector.ofChar? c with
      | some s => (0, select s f.withoutSelector)
      | none =>
        match f.withoutSelector.before? c with
        | some (n, w) => (n, ⟨w, none⟩)
        | none => (columnsOf c, ⟨.ofChar c, none⟩)

end Follower

/-- Measures a text from its end. -/
def measureText (cs : List Char) : Int × Follower :=
  cs.foldr (fun c (n, next) => let (k, this) := next.before c; (n + k, this)) (0, {})

def columns (text : String) : Nat := (measureText text.toList).1.toNat

end ConflictBatching
