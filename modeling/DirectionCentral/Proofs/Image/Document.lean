import DirectionCentral.Image.Json
import DirectionCentral.Proofs.CommandLine.Files
import DirectionCentral.Proofs.Json.Record

/-!
# The document of an image

Every image is read back from its document: its JSON value describes it (`ofJson?_toJson`) and is
read back from its text, since it is put together from integers, lists and records with different
names. So an image that has been saved is loaded as it was, if it has a word at all.
-/

namespace DirectionCentral

namespace Segment

/-- The JSON value of a segment is legible. -/
theorem legible_toJson (s : Segment) : s.toJson.Legible := by
  refine Json.legible_record (List.forall_mem_cons.2 ⟨Json.legible_ofNat _, ?_⟩)
  exact List.forall_mem_singleton.2 (Json.legible_ofList fun w _ => Json.legible_ofNat w.toNat)

/-- The JSON value of a segment describes it. -/
theorem ofJson?_toJson (s : Segment) : ofJson? s.toJson = some s := by
  have words : (Json.ofList (fun w : Word => .ofNat w.toNat) s.words).list? Json.uint32? =
      some s.words :=
    Json.list?_ofList fun w _ => Json.uint32?_ofNat w
  have fields : s.toJson.fields? fieldNames =
      some [some (.ofNat s.start.toNat), some (.ofList (fun w => .ofNat w.toNat) s.words)] :=
    Json.fields?_record (show fieldNames.Nodup by decide)
  rw [ofJson?, fields]
  simp only [Json.uint64?_ofNat, words, Option.bind_eq_bind, Option.bind_some]

end Segment

namespace Image

variable {image : Image}

/-- An image has no words if none of its segments has. -/
theorem isEmpty_iff : image.isEmpty = true ↔ ∀ s ∈ image.segments, s.words = [] := by
  rw [isEmpty, beq_iff_eq, size, List.length_eq_zero_iff, List.flatMap_eq_nil_iff]

/-- The JSON value of an image is legible. -/
theorem legible_toJson (image : Image) : image.toJson.Legible :=
  Json.legible_record
    (List.forall_mem_singleton.2 (Json.legible_ofList fun s _ => s.legible_toJson))

/-- The JSON value of an image describes it. -/
theorem ofJson?_toJson (image : Image) : ofJson? image.toJson = some image := by
  have segments : (Json.ofList Segment.toJson image.segments).list? Segment.ofJson? =
      some image.segments :=
    Json.list?_ofList fun s _ => s.ofJson?_toJson
  have fields : image.toJson.fields? fieldNames =
      some [some (.ofList Segment.toJson image.segments)] :=
    Json.fields?_record (show fieldNames.Nodup by decide)
  rw [ofJson?, fields]
  simp only [segments, Option.bind_eq_bind, Option.bind_some]

/-- The document of an image describes it. -/
theorem ofDocument?_toDocument (image : Image) : ofDocument? image.toDocument = some image := by
  rw [ofDocument?, toDocument, Json.parse?_indentedText image.legible_toJson, Option.bind_some,
    ofJson?_toJson]

/-- The document of an image is loaded as the image if there is a word in it. -/
theorem loadDocument_toDocument (image : Image) :
    loadDocument image.toDocument =
      if ∃ s ∈ image.segments, s.words ≠ [] then .ok image else .error .empty := by
  rw [loadDocument, ofDocument?_toDocument]
  by_cases inhabited : ∃ s ∈ image.segments, s.words ≠ []
  · have nonempty : ¬ image.isEmpty = true := by simpa [isEmpty_iff] using inhabited
    simp only [if_pos inhabited, if_neg nonempty]
  · have empty : image.isEmpty = true := by simpa [isEmpty_iff] using inhabited
    simp only [if_neg inhabited, if_pos empty]

/-- Every image, with any number of segments, any starts and any words, is read back from its
document. Where the document has been saved under a path, other than that of the null device, it is
loaded from the same path: as the same image if there is a word in it, else it is refused as
empty. -/
theorem document_round_trip (image : Image) :
    ofDocument? image.toDocument = some image ∧
      ∀ (files saved : Files) (path : String), files.isDevice path = false →
        files.write path image.toDocument = .ok saved →
          (saved.readText path).map loadDocument =
            .ok (if ∃ s ∈ image.segments, s.words ≠ [] then .ok image else .error .empty) := by
  refine ⟨ofDocument?_toDocument image, fun files saved path kept written => ?_⟩
  rw [Files.readText_write kept written, ← loadDocument_toDocument]
  rfl

/-- Images are saved under a name and loaded again: one with an empty segment and with the greatest
start and word, and one that has segments and no words. -/
theorem document_round_trip_limits :
    let limits : Image := ⟨[⟨5, []⟩, ⟨0xFFFFFFFFFFFFFFFF, [0, 0xFFFFFFFF]⟩]⟩
    let hollow : Image := ⟨[⟨5, []⟩]⟩
    let place : Place := { names := ["p".toList] }
    let saved (image : Image) : Files := { entries := [(place, image.toDocument.toUTF8)] }
    ({} : Files).isDevice "p" = false ∧
      ({} : Files).write "p" limits.toDocument = .ok (saved limits) ∧
      ((saved limits).readText "p").map loadDocument = .ok (.ok limits) ∧
      ({} : Files).write "p" hollow.toDocument = .ok (saved hollow) ∧
      ((saved hollow).readText "p").map loadDocument = .ok (.error .empty) := by
  intro limits hollow place saved
  have kept : ({} : Files).isDevice "p" = false := by decide +kernel
  have written (image : Image) :
      ({} : Files).write "p" image.toDocument = .ok (saved image) := by
    refine Files.write_eq_ok_iff.2 ⟨place, ?_, ?_, ?_, ?_⟩
    · rfl
    · decide +kernel
    · decide +kernel
    · rfl
  exact ⟨kept, written limits, (document_round_trip limits).2 _ _ _ kept (written limits),
    written hollow, (document_round_trip hollow).2 _ _ _ kept (written hollow)⟩

end Image

end DirectionCentral
