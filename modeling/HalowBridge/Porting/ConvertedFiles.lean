import HalowBridge.Mbin.RoundTrip
import HalowBridge.Porting.Acceptance

/-!
# Validation of converted files

What `convert-bin-to-mbin.py` writes for a firmware image is a file that the loader reads back,
whatever its length. The validation looks at 50 TLVs only: it passes the file if and only if there
are no more.
-/

namespace HalowBridge.Porting

open Mbin

/-- A file of a MAGIC TLV with the magic number, others, and the EOF TLV. -/
theorem validateFw_passes_iff {magic eof : Tlv} {more : List Tlv} {firmware : FileImage}
    (bytes : firmware.bytes = (magic :: (more ++ [eof])).flatMap Tlv.wire)
    (magicType : magic.type = fieldTypeMagic)
    (magicData : magic.data = packLe 4 mbinFwMagicNumber.toNat)
    (eofType : eof.type = fieldTypeEof) (types : ∀ t ∈ more, t.type ≠ fieldTypeEof) :
    testStepMmhalWlanValidateFw firmware = some ⟨.passed, []⟩ ↔ more.length ≤ 48 := by
  have walk : firmware.bytes = walked (magic :: more) (lengthField eof) ++ eof.data := by
    rw [bytes, walked, List.append_assoc, ← eofType, ← wire_eq, List.flatMap_cons,
      List.flatMap_append, List.flatMap_cons, List.flatMap_nil, List.append_nil, List.flatMap_cons,
      List.append_assoc]
  have allTypes : ∀ t ∈ magic :: more, t.type ≠ fieldTypeEof := by
    refine List.forall_mem_cons.mpr ⟨?_, types⟩
    rw [magicType]
    decide
  constructor
  · intro passes
    rcases executeFwBcfTest_cases "mmhal_wlan_read_fw_file" "Firmware" mbinFwMagicNumber
      (mmhalWlanReadFwFile_serves firmware) with ⟨texts, fails⟩ | ⟨image, same, -⟩
    · rw [testStepMmhalWlanValidateFw, fails] at passes
      cases passes
    · rw [walk] at same
      rcases walked_inj (fun _ => Image.type_ne_eof) allTypes same with ⟨tlvs, -⟩
      rw [← (List.cons.inj tlvs).2]
      exact image.length_more
  · intro few
    let image : Image := ⟨magic, more, lengthField eof, eof.data, magicType, types, few⟩
    have same : image.bytes = firmware.bytes := walk.symm
    have checked : MagicChecked mbinFwMagicNumber image.first.data := by
      refine .inr ?_
      show magic.data.take 4 = _
      rw [magicData, List.take_of_length_le (Nat.le_of_eq (length_packLe 4 _))]
    exact executeFwBcfTest_passes _ _ _ (mmhalWlanReadFwFile_serves firmware) same checked

theorem types_of_collect {decompress : List UInt8 → Option (List UInt8)} {kind : ImageKind}
    {segments : List Tlv} {writes : List (ℕ × UInt8)}
    (holds : collect (Tlv.segmentWrites decompress kind) segments = some writes) :
    ∀ t ∈ segments, t.type ≠ fieldTypeEof := by
  induction segments generalizing writes with
  | nil => exact fun _ member => (List.not_mem_nil member).elim
  | cons t segments ih =>
      rcases collect_cons_eq_some holds with ⟨_, _, head, tail, -⟩
      exact List.forall_mem_cons.mpr ⟨type_ne_eof_of_segmentWrites head, ih tail⟩

/-- **A converted firmware image is validated if and only if it has at most 50 TLVs.** -/
theorem converted_passes_iff {compress : List UInt8 → List UInt8}
    {decompress : List UInt8 → Option (List UInt8)} (zlib : IsZlib compress decompress)
    {elf : Elf} {info : List Tlv} (image : IsImage elf info) {args : Args}
    (allowed : args.Allowed) (isFw : args.kind = .fw)
    (infoTypes : ∀ t ∈ info, t.type ≠ fieldTypeEof) :
    ∃ tlvs : List Tlv, appMain compress args elf = some (tlvs.flatMap Tlv.wire) ∧
      ∀ firmware : FileImage, firmware.bytes = tlvs.flatMap Tlv.wire →
        (testStepMmhalWlanValidateFw firmware = some ⟨.passed, []⟩ ↔ tlvs.length ≤ maxTlvs) := by
  rcases appMain_of_isImage zlib image allowed with ⟨segments, written, writes⟩
  refine ⟨_, written, fun firmware bytes => ?_⟩
  rw [isFw, ← List.append_assoc] at bytes
  have length : (magicTlv args.kind :: (info ++ (segments ++ [eofTlv]))).length ≤ maxTlvs ↔
      (info ++ segments).length ≤ 48 := by
    have fifty : maxTlvs = 50 := rfl
    simp only [List.length_cons, List.length_append, List.length_nil]
    omega
  rw [length]
  refine validateFw_passes_iff bytes rfl rfl rfl fun t member => ?_
  rcases List.mem_append.mp member with inInfo | inSegments
  · exact infoTypes t inInfo
  · exact types_of_collect writes t inSegments

end HalowBridge.Porting
