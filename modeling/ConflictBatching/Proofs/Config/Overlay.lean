import ConflictBatching.Proofs.Config.Document

/-! # Partial configurations

A document may give any of the leaves of a configuration. What is read from it has these leaves as
they are in the configuration and all others as they are by default.
-/
namespace ConflictBatching

variable {σ : Type} {c : Config} {given : Leaf → Bool}

/-- Whatever leaves of a configuration a document gives, at the top and in sections, in any order
and among any others that are no fields, the configuration that is read has them and has all other
leaves by default. -/
theorem partial_document_overlays_defaults (store : ConfigStore σ) {world : σ} {document : Bytes}
    (hdocument : DocumentText c given document)
    (hread : store.read world = .ok (some document)) :
    ∃ r, store.readConfig world = .ok (some r) ∧
      ∀ l : Leaf, r.leaf l = if given l = true then c.leaf l else ({} : Config).leaf l := by
  obtain ⟨r, hbytes, hleaf⟩ := Config.ofBytes_partial hdocument
  exact ⟨r, ConfigStore.readConfig_of_ofBytes hread hdocument.isBlank hbytes, hleaf⟩

/-! A document with the seed and one leaf of a section. The name of the seed is spelled with an
escape, and the section has another member of that name. -/

def asciiBytes (text : String) : Bytes := text.toList.map byte

def partialSource : Config :=
  { seed := 7, warmupRounds := 1, logLevel := "debug", schedule := ⟨99, 3⟩, flush := ⟨0, 0⟩ }

def partialLeaves (l : Leaf) : Bool := l = .seed || l = .qlen

def partialExtra : Bytes :=
  byte '[' :: (asciiBytes "null " ++ byte ',' :: [byte '{', byte '}'] ++ [byte ']'])

def partialSection : Bytes :=
  byte '{' :: (inQuotes (asciiBytes "seed") ++ byte ':' :: partialExtra ++ byte ',' ::
    (asciiBytes " " ++ inQuotes (asciiBytes "qlen") ++ byte ':' :: asciiBytes " 99") ++ [byte '}'])

def partialDocument : Bytes :=
  byte '{' :: (inQuotes (asciiBytes "schedule") ++ byte ':' :: partialSection ++ byte ',' ::
    (inQuotes (asciiBytes "\\u0073eed") ++ byte ':' :: asciiBytes "7") ++ [byte '}']) ++
    asciiBytes "\n"

theorem valueText_partialExtra : ValueText partialExtra := by
  have hobject : ObjectText [] [byte '{', byte '}'] := .empty (w := []) (by decide)
  have hlist : ListText [asciiBytes "null", [byte '{', byte '}']] partialExtra :=
    .parts (.more ⟨[], asciiBytes " ", by decide, by decide, rfl⟩ (.last (padded_self _)))
  refine .list ?_ hlist
  intro item hitem
  simp only [List.mem_cons, List.not_mem_nil, or_false] at hitem
  rcases hitem with rfl | rfl
  · exact .null
  · exact .object (by simp) (by simp) hobject

theorem sectionText_partialSection :
    SectionText partialSource partialLeaves .schedule partialSection := by
  have hseed : MemberText (asciiBytes "seed", partialExtra)
      (inQuotes (asciiBytes "seed") ++ byte ':' :: partialExtra) :=
    ⟨_, _, padded_self _, padded_self _, rfl⟩
  have hqlen : MemberText (asciiBytes "qlen", asciiBytes "99")
      (asciiBytes " " ++ inQuotes (asciiBytes "qlen") ++ byte ':' :: asciiBytes " 99") :=
    ⟨_, _, ⟨asciiBytes " ", [], by decide, by decide, rfl⟩,
      ⟨asciiBytes " ", [], by decide, by decide, rfl⟩, rfl⟩
  have hextra : "seed" ∉ (leavesAt (some .schedule)).map Leaf.name := by decide
  have hvalue : LeafText (partialSource.leaf .qlen) (asciiBytes "99") := by
    have hdigits : writeInt 99 = asciiBytes "99" := by cbv
    rw [← hdigits]
    exact .whole 99
  refine ⟨_, .extra hextra (spelled_escaped _) valueText_partialExtra ?_,
    .parts (.more hseed (.last hqlen))⟩
  exact @Shows.shown _ "qlen" _ [] [] _ _ _ (spelled_escaped _) hvalue .nil

theorem documentText_partialDocument :
    DocumentText partialSource partialLeaves partialDocument := by
  have hschedule : MemberText (asciiBytes "schedule", partialSection)
      (inQuotes (asciiBytes "schedule") ++ byte ':' :: partialSection) :=
    ⟨_, _, padded_self _, padded_self _, rfl⟩
  have hseed : MemberText (asciiBytes "\\u0073eed", asciiBytes "7")
      (inQuotes (asciiBytes "\\u0073eed") ++ byte ':' :: asciiBytes "7") :=
    ⟨_, _, padded_self _, padded_self _, rfl⟩
  have hname : Spelled "seed".toList (asciiBytes "\\u0073eed") := by
    have hletter : HexText 's'.toNat (asciiBytes "0073") :=
      ⟨0, 0, 7, 3, _, _, _, _, .inl ⟨by decide, rfl⟩, .inl ⟨by decide, rfl⟩,
        .inl ⟨by decide, rfl⟩, .inl ⟨by decide, rfl⟩, rfl, rfl⟩
    exact .point hletter (spelled_escaped ['e', 'e', 'd'])
  have hvalue : LeafText (partialSource.leaf .seed) (asciiBytes "7") := by
    have hdigits : writeInt 7 = asciiBytes "7" := by cbv
    rw [← hdigits]
    exact .whole 7
  have hneeded : ∀ l ∈ Leaf.all, ∀ s ∈ Section.all, l.level = some s → partialLeaves l = true →
      s ∈ [Section.schedule] := by decide
  refine ⟨[.schedule], by decide, fun l s => hneeded l l.mem_all s s.mem_all, _, _, ?_,
    .parts (.more hschedule (.last hseed)), ⟨[], asciiBytes "\n", by decide, by decide, rfl⟩⟩
  refine @Shows.shown _ "schedule" _ [("seed", _)] [] _ _ _ (spelled_escaped _)
    sectionText_partialSection ?_
  exact @Shows.shown _ "seed" _ [] [] _ _ _ hname hvalue .nil

theorem partial_document_overlays_seed_and_length :
    DocumentText partialSource partialLeaves partialDocument ∧
      (ConfigStore.memory "mem/jig.json").readConfig (some partialDocument) =
        .ok (some { seed := 7, schedule := { qlen := 99 } }) := by
  have hdocument := documentText_partialDocument
  obtain ⟨r, hread, hleaf⟩ :=
    partial_document_overlays_defaults (ConfigStore.memory "mem/jig.json") hdocument rfl
  have hr : r = { seed := 7, schedule := { qlen := 99 } } := by
    refine Config.eq_of_leaf_eq fun l => ?_
    rw [hleaf l]
    cases l <;> rfl
  exact ⟨hdocument, hr ▸ hread⟩

end ConflictBatching
