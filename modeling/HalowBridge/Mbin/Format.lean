import HalowBridge.Lib.Struct

/-!
# The mbin format

An mbin file is a sequence of TLVs: a 16-bit type, the 16-bit length of the data, and the data. The
TLV of a segment holds the address to which the rest of it is loaded; that of a deflated segment
also holds the length of the inflated data, which the zlib stream behind it gives.

This is the reading side, by the layouts of `mbin.h`. `parseTlvs_wire` and `wire_of_parseTlvs` say
that it is inverse to the writing of TLVs.
-/

namespace HalowBridge.Mbin

/-! ## TLVs -/

/-- A TLV. Its length fits the 16-bit field of the header. -/
structure Tlv where
  type : UInt16
  data : List UInt8
  length_lt : data.length < 65536
  deriving DecidableEq

/-- A TLV in a file: `struct mbin_tlv_hdr` and the data. -/
def Tlv.wire (t : Tlv) : List UInt8 :=
  packLe 2 t.type.toNat ++ packLe 2 t.data.length ++ t.data

/-- The TLVs of a file, or of a block inside a file. -/
def parseTlvs : List UInt8 → Option (List Tlv)
  | [] => some []
  | t0 :: t1 :: l0 :: l1 :: rest =>
      if unpackLe [l0, l1] ≤ rest.length then
        (parseTlvs (rest.drop (unpackLe [l0, l1]))).map
          (⟨UInt16.ofNat (unpackLe [t0, t1]), rest.take (unpackLe [l0, l1]),
            Nat.lt_of_le_of_lt (List.length_take_le _ _) (unpackLe_lt [l0, l1])⟩ :: ·)
      else none
  | _ => none
termination_by bytes => bytes.length
decreasing_by
  rw [List.length_drop, List.length_cons, List.length_cons, List.length_cons, List.length_cons]
  omega

/-- The header of a TLV that was written: four bytes with its type and its length. -/
theorem Tlv.exists_header (t : Tlv) (rest : List UInt8) : ∃ t0 t1 l0 l1,
    t.wire ++ rest = t0 :: t1 :: l0 :: l1 :: (t.data ++ rest) ∧
      UInt16.ofNat (unpackLe [t0, t1]) = t.type ∧ unpackLe [l0, l1] = t.data.length := by
  refine ⟨UInt8.ofNat t.type.toNat, UInt8.ofNat (t.type.toNat / 256), UInt8.ofNat t.data.length,
    UInt8.ofNat (t.data.length / 256), ?_, ?_, ?_⟩
  · rw [Tlv.wire, List.append_assoc]
    rfl
  · have back : unpackLe (packLe 2 t.type.toNat) = t.type.toNat := unpackLe_packLe t.type.toNat_lt
    exact (congrArg UInt16.ofNat back).trans UInt16.ofNat_toNat
  · have back : unpackLe (packLe 2 t.data.length) = t.data.length := unpackLe_packLe t.length_lt
    exact back

theorem parseTlvs_cons (t : Tlv) (rest : List UInt8) :
    parseTlvs (t.wire ++ rest) = (parseTlvs rest).map (t :: ·) := by
  obtain ⟨t0, t1, l0, l1, bytes, type, length⟩ := t.exists_header rest
  rw [bytes, parseTlvs, if_pos (by rw [length, List.length_append]; omega)]
  simp only [length, type, List.take_left, List.drop_left]

/-- A file of TLVs is read back. -/
theorem parseTlvs_wire (tlvs : List Tlv) : parseTlvs (tlvs.flatMap Tlv.wire) = some tlvs := by
  induction tlvs with
  | nil => rw [List.flatMap_nil, parseTlvs]
  | cons t tlvs ih => rw [List.flatMap_cons, parseTlvs_cons, ih, Option.map_some]

/-- What was read is what is written for it. -/
theorem wire_of_parseTlvs {bytes : List UInt8} {tlvs : List Tlv}
    (parsed : parseTlvs bytes = some tlvs) : bytes = tlvs.flatMap Tlv.wire := by
  induction bytes using parseTlvs.induct generalizing tlvs with
  | case1 =>
      rw [parseTlvs] at parsed
      rw [← Option.some.inj parsed]
      rfl
  | case2 t0 t1 l0 l1 rest fits ih =>
      rw [parseTlvs, if_pos fits] at parsed
      obtain ⟨more, there, rfl⟩ := Option.map_eq_some_iff.mp parsed
      have taken : (rest.take (unpackLe [l0, l1])).length = unpackLe [l0, l1] := by
        rw [List.length_take]
        omega
      have typeBytes : packLe 2 (UInt16.ofNat (unpackLe [t0, t1])).toNat = [t0, t1] := by
        rw [UInt16.toNat_ofNat_of_lt' (unpackLe_lt [t0, t1])]
        exact packLe_unpackLe [t0, t1]
      have lengthBytes : packLe 2 (unpackLe [l0, l1]) = [l0, l1] := packLe_unpackLe [l0, l1]
      rw [List.flatMap_cons, ← ih there, Tlv.wire]
      simp only [taken, typeBytes, lengthBytes, List.cons_append, List.nil_append,
        List.take_append_drop]
  | case3 t0 t1 l0 l1 rest short =>
      rw [parseTlvs, if_neg short] at parsed
      cases parsed
  | case4 bytes nonempty noHeader =>
      rw [parseTlvs] at parsed
      · cases parsed
      · exact nonempty
      · exact noHeader

/-! ## Segments -/

/-- The kinds of image with segments. -/
inductive ImageKind where
  | fw
  | sw
  deriving DecidableEq

namespace ImageKind

/-- `MBIN_FW_MAGIC_NUMBER` and `MBIN_SW_MAGIC_NUMBER` -/
def magic : ImageKind → ℕ
  | .fw => 0x57464d4d
  | .sw => 0x57534d4d

/-- `FIELD_TYPE_FW_SEGMENT` and `FIELD_TYPE_SW_SEGMENT` -/
def segment : ImageKind → UInt16
  | .fw => 0x8001
  | .sw => 0x8201

/-- `FIELD_TYPE_FW_SEGMENT_DEFLATED` and `FIELD_TYPE_SW_SEGMENT_DEFLATED` -/
def deflated : ImageKind → UInt16
  | .fw => 0x8002
  | .sw => 0x8202

end ImageKind

def fieldTypeMagic : UInt16 := 0x8000

def fieldTypeEof : UInt16 := 0x8f00

/-- The bytes of the data with the addresses to which they are written. -/
def writesAt (addr : ℕ) : List UInt8 → List (ℕ × UInt8)
  | [] => []
  | b :: data => (addr, b) :: writesAt (addr + 1) data

/-- Cut anywhere, the second part is written behind the first one. -/
theorem writesAt_split (addr n : ℕ) (data : List UInt8) :
    writesAt addr data = writesAt addr (data.take n) ++ writesAt (addr + n) (data.drop n) := by
  induction n generalizing addr data with
  | zero => rfl
  | succ n ih =>
      cases data with
      | nil => rfl
      | cons b data =>
          have next : addr + 1 + n = addr + (n + 1) := by omega
          rw [List.take_succ_cons, List.drop_succ_cons, writesAt, writesAt, ih, next,
            List.cons_append]

section

variable (decompress : List UInt8 → Option (List UInt8)) (kind : ImageKind)

/-- What the TLV of a segment writes: `struct mbin_segment_hdr` and the data, or
`struct mbin_deflated_segment_hdr`, whose last field is the header of the zlib stream. -/
def Tlv.segmentWrites (t : Tlv) : Option (List (ℕ × UInt8)) :=
  if t.type = kind.segment ∧ 4 ≤ t.data.length then
    some (writesAt (unpackLe (t.data.take 4)) (t.data.drop 4))
  else if t.type = kind.deflated ∧ 6 ≤ t.data.length then
    match decompress (t.data.drop 6) with
    | some data =>
        if data.length = unpackLe ((t.data.drop 4).take 2) then
          some (writesAt (unpackLe (t.data.take 4)) data)
        else none
    | none => none
  else none

/-- What the loader writes: the segments up to the end of the file or the EOF, passing over other
TLVs. -/
def loadTlvs : List Tlv → Option (List (ℕ × UInt8))
  | [] => some []
  | t :: tlvs =>
      if t.type = fieldTypeEof then some []
      else if t.type = kind.segment ∨ t.type = kind.deflated then do
        let writes ← t.segmentWrites decompress kind
        let rest ← loadTlvs tlvs
        return writes ++ rest
      else loadTlvs tlvs

/-- The memory after the writes: the last one to an address counts. -/
def memory (writes : List (ℕ × UInt8)) (addr : ℕ) : Option UInt8 := writes.reverse.lookup addr

/-- The memory that a file loads, where it loads one. -/
def loadImage (file : List UInt8) : Option (ℕ → Option UInt8) := do
  let tlvs ← parseTlvs file
  let writes ← loadTlvs decompress kind tlvs
  return memory writes

variable {decompress kind}

theorem segmentWrites_plain {t : Tlv} {addr : ℕ} {chunk : List UInt8}
    (isSegment : t.type = kind.segment) (fits : addr < 4294967296)
    (holds : t.data = packLe 4 addr ++ chunk) :
    t.segmentWrites decompress kind = some (writesAt addr chunk) := by
  have long : 4 ≤ t.data.length := by
    rw [holds, List.length_append, length_packLe]
    omega
  rw [Tlv.segmentWrites, if_pos ⟨isSegment, long⟩, holds, List.take_left' (length_packLe 4 addr),
    List.drop_left' (length_packLe 4 addr), unpackLe_packLe fits]

theorem segmentWrites_deflated {t : Tlv} {addr : ℕ} {chunk stream : List UInt8}
    (isDeflated : t.type = kind.deflated) (fits : addr < 4294967296)
    (short : chunk.length < 65536) (inflates : decompress stream = some chunk)
    (holds : t.data = packLe 4 addr ++ (packLe 2 chunk.length ++ stream)) :
    t.segmentWrites decompress kind = some (writesAt addr chunk) := by
  have header : (packLe 4 addr ++ packLe 2 chunk.length).length = 6 := by
    rw [List.length_append, length_packLe, length_packLe]
  have long : 6 ≤ t.data.length := by
    rw [holds, ← List.append_assoc, List.length_append, header]
    omega
  have other : ¬ (t.type = kind.segment ∧ 4 ≤ t.data.length) := by
    rintro ⟨isSegment, -⟩
    have same : kind.deflated = kind.segment := isDeflated.symm.trans isSegment
    cases kind <;> exact absurd same (by decide)
  have addrBytes : t.data.take 4 = packLe 4 addr := by
    rw [holds, List.take_left' (length_packLe 4 addr)]
  have lengthBytes : (t.data.drop 4).take 2 = packLe 2 chunk.length := by
    rw [holds, List.drop_left' (length_packLe 4 addr), List.take_left' (length_packLe 2 _)]
  have streamBytes : t.data.drop 6 = stream := by
    rw [holds, ← List.append_assoc, List.drop_left' header]
  have addrBack : unpackLe (packLe 4 addr) = addr := unpackLe_packLe fits
  have lengthBack : unpackLe (packLe 2 chunk.length) = chunk.length := unpackLe_packLe short
  simp only [Tlv.segmentWrites, if_neg other, if_pos (And.intro isDeflated long), streamBytes,
    inflates, lengthBytes, lengthBack, if_true, addrBytes, addrBack]

theorem type_of_segmentWrites {t : Tlv} {writes : List (ℕ × UInt8)}
    (holds : t.segmentWrites decompress kind = some writes) :
    t.type = kind.segment ∨ t.type = kind.deflated := by
  rw [Tlv.segmentWrites] at holds
  split at holds
  · next plain => exact .inl plain.1
  · split at holds
    · next deflated => exact .inr deflated.1
    · cases holds

theorem type_ne_eof_of_segmentWrites {t : Tlv} {writes : List (ℕ × UInt8)}
    (holds : t.segmentWrites decompress kind = some writes) : t.type ≠ fieldTypeEof := by
  intro same
  have isSegment := type_of_segmentWrites holds
  rw [same] at isSegment
  cases kind <;> exact absurd isSegment (by decide)

/-- The loader does not take the TLV for a segment, nor for the end. -/
def Tlv.Inert (kind : ImageKind) (t : Tlv) : Prop :=
  t.type ≠ fieldTypeEof ∧ t.type ≠ kind.segment ∧ t.type ≠ kind.deflated

theorem loadTlvs_inert {front tlvs : List Tlv} (inert : ∀ t ∈ front, t.Inert kind) :
    loadTlvs decompress kind (front ++ tlvs) = loadTlvs decompress kind tlvs := by
  induction front with
  | nil => rfl
  | cons t front ih =>
      rw [List.forall_mem_cons] at inert
      obtain ⟨⟨notEof, notSegment, notDeflated⟩, others⟩ := inert
      rw [List.cons_append, loadTlvs, if_neg notEof, if_neg (by
        rintro (segment | deflated)
        · exact notSegment segment
        · exact notDeflated deflated), ih others]

/-- What is loaded after the same TLVs decides. -/
theorem loadTlvs_append_congr (front : List Tlv) {tlvs others : List Tlv}
    (same : loadTlvs decompress kind tlvs = loadTlvs decompress kind others) :
    loadTlvs decompress kind (front ++ tlvs) = loadTlvs decompress kind (front ++ others) := by
  induction front with
  | nil => exact same
  | cons t front ih => rw [List.cons_append, List.cons_append, loadTlvs, loadTlvs, ih]

/-- Segments up to the end are all loaded. -/
theorem loadTlvs_segments {segments : List Tlv} {eof : Tlv} {writes : List (ℕ × UInt8)}
    (isEof : eof.type = fieldTypeEof)
    (holds : collect (Tlv.segmentWrites decompress kind) segments = some writes) :
    loadTlvs decompress kind (segments ++ [eof]) = some writes := by
  induction segments generalizing writes with
  | nil =>
      rw [List.nil_append, loadTlvs, if_pos isEof]
      exact holds
  | cons t segments ih =>
      obtain ⟨first, rest, head, tail, rfl⟩ := collect_cons_eq_some holds
      rw [List.cons_append, loadTlvs, if_neg (type_ne_eof_of_segmentWrites head),
        if_pos (type_of_segmentWrites head), head, ih tail]
      rfl

end

end HalowBridge.Mbin
