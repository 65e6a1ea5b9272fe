import ConflictBatching.Config.Writer
import ConflictBatching.Proofs.Config.Document

/-! # Written configurations

An object is written member by member, each on a line of its own. A configuration is written as a
document that gives all of its leaves, up to the extremes of their types, so no default is left in
what is read from it.
-/
namespace ConflictBatching

/-- A written member as it is spelled. -/
def spelledMember (member : String × Bytes) : Bytes × Bytes :=
  ((ofText member.1).flatMap escapeByte, member.2)

theorem spaces_newline (indent : Nat) : Spaces (newline indent) := by
  intro b hb
  rcases List.mem_cons.mp hb with rfl | hb
  · rfl
  · rw [List.eq_of_mem_replicate hb]
    rfl

theorem memberText_writeMember (indent : Nat) (member : String × Bytes) {after : Bytes}
    (hafter : Spaces after) :
    MemberText (spelledMember member) (writeMember indent member ++ after) := by
  have hkey : Padded (inQuotes (spelledMember member).1) (newline indent ++ writeText member.1) :=
    ⟨newline indent, [], spaces_newline indent, by decide, by simp [inQuotes, writeText, spelledMember]⟩
  have hvalue : Padded (spelledMember member).2 (byte ' ' :: (member.2 ++ after)) :=
    ⟨[byte ' '], after, by decide, hafter, rfl⟩
  exact ⟨_, _, hkey, hvalue, by simp [writeMember]⟩

theorem separated_writeMember (indent : Nat) {members : List (String × Bytes)}
    (hmembers : members ≠ []) {after : Bytes} (hafter : Spaces after) :
    Separated MemberText (members.map spelledMember)
      ([byte ','].intercalate (members.map (writeMember indent)) ++ after) := by
  induction members with
  | nil => exact absurd rfl hmembers
  | cons member members ih =>
    cases members with
    | nil =>
      rw [List.map_singleton, List.map_singleton, List.intercalate_singleton]
      exact .last (memberText_writeMember indent member hafter)
    | cons next members =>
      have hfirst : MemberText (spelledMember member) (writeMember indent member ++ []) :=
        memberText_writeMember indent member (by decide)
      rw [List.append_nil] at hfirst
      have hparts := Separated.more hfirst (ih (List.cons_ne_nil next members))
      simpa [List.intercalate_cons_cons] using hparts

theorem objectText_writeObject (indent : Nat) {members : List (String × Bytes)}
    (hmembers : members ≠ []) :
    ObjectText (members.map spelledMember) (writeObject indent members) := by
  have hparts := separated_writeMember (indent + 2) hmembers (spaces_newline indent)
  have hobject : ObjectText (members.map spelledMember) _ := Bracketed.parts hparts
  simpa [writeObject] using hobject

/-- Written in their order, members show what they are written for. -/
theorem Shows.written {known : List String} {shown : Shown} {members : List (String × Bytes)}
    (h : List.Forall₂ (fun x member => x.1 = member.1 ∧ x.2 member.2) shown members) :
    Shows known shown (members.map spelledMember) := by
  induction h with
  | nil => exact .nil
  | @cons x member shown members hmember _ ih =>
    obtain ⟨hname, hvalue⟩ := hmember
    have hkey : Spelled x.1.toList (spelledMember member).1 := hname ▸ spelled_ofText x.1
    exact @Shows.shown _ x.1 x.2 [] shown _ _ _ hkey hvalue ih

/-! ## Sections -/

section Sections
variable (c : Config)

def everyLeaf (_ : Leaf) : Bool := true

theorem sectionText_schedule : SectionText c everyLeaf .schedule c.schedule.write :=
  ⟨_, .written <| .cons ⟨rfl, leafText_natCast.mpr rfl⟩ <|
      .cons ⟨rfl, leafText_natCast.mpr rfl⟩ .nil,
    objectText_writeObject 2 (List.cons_ne_nil _ _)⟩

theorem sectionText_accounts : SectionText c everyLeaf .accounts c.accounts.write := by
  have hbalance : LeafText (c.leaf .initialBalance) (writeInt c.accounts.initialBalance.toInt) :=
    .whole _
  have hamount : LeafText (c.leaf .maxAmount) (writeInt c.accounts.maxAmount.toInt) := .whole _
  exact ⟨_, .written <| .cons ⟨rfl, leafText_natCast.mpr rfl⟩ <|
      .cons ⟨rfl, leafText_natCast.mpr rfl⟩ <| .cons ⟨rfl, hbalance⟩ <| .cons ⟨rfl, hamount⟩ .nil,
    objectText_writeObject 2 (List.cons_ne_nil _ _)⟩

theorem sectionText_conflict : SectionText c everyLeaf .conflict c.conflict.write :=
  ⟨_, .written <| .cons ⟨rfl, leafText_natCast.mpr rfl⟩ <|
      .cons ⟨rfl, leafText_natCast.mpr rfl⟩ .nil,
    objectText_writeObject 2 (List.cons_ne_nil _ _)⟩

theorem sectionText_flush : SectionText c everyLeaf .flush c.flush.write :=
  ⟨_, .written <| .cons ⟨rfl, leafText_natCast.mpr rfl⟩ <|
      .cons ⟨rfl, leafText_natCast.mpr rfl⟩ .nil,
    objectText_writeObject 2 (List.cons_ne_nil _ _)⟩

end Sections

namespace Config

theorem documentText_write (c : Config) : DocumentText c everyLeaf c.write := by
  have hlevel : LeafText (c.leaf .logLevel) (writeText c.logLevel) := .text (spelled_ofText _)
  refine ⟨Section.all, by decide, fun _ s _ _ => s.mem_all, _, _, ?_,
    objectText_writeObject 0 (List.cons_ne_nil _ _), [], newline 0, by decide, by decide, rfl⟩
  exact .written <| .cons ⟨rfl, leafText_natCast.mpr rfl⟩ <|
    .cons ⟨rfl, leafText_natCast.mpr rfl⟩ <| .cons ⟨rfl, hlevel⟩ <|
    .cons ⟨rfl, sectionText_schedule c⟩ <| .cons ⟨rfl, sectionText_accounts c⟩ <|
    .cons ⟨rfl, sectionText_conflict c⟩ <| .cons ⟨rfl, sectionText_flush c⟩ .nil

theorem isBlank_write (c : Config) : isBlank c.write = false := c.documentText_write.isBlank

/-- What is written for a configuration is read as that configuration. -/
theorem ofBytes_write (c : Config) : ofBytes c.write = .ok c := by
  obtain ⟨r, hbytes, hleaf⟩ := ofBytes_partial c.documentText_write
  have heq : r = c := eq_of_leaf_eq fun l => (hleaf l).trans (if_pos rfl)
  rw [hbytes, heq]

end Config
end ConflictBatching
