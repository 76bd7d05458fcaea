import HalowBridge.Mbin.Convert

/-!
# Images are read back

`mbin_roundTrip` is about firmware and software images: the file that `convert-bin-to-mbin.py`
writes is read back as the magic number, the TLVs of `.fw_info`, segments that write the padded data
of every loadable segment and nothing else, and the end of the file. With and without compression,
and with any chunk size, the same memory is loaded.

What is assumed of zlib is that `decompress` is inverse to `compress`, and that compressing adds at
most 4096 bytes.
-/

namespace HalowBridge.Mbin

/-! ## What a file should hold -/

/-- The data and zeroes up to a multiple of four bytes. -/
def zeroPadded (data : List UInt8) : List UInt8 :=
  data ++ List.replicate ((4 - data.length % 4) % 4) 0

/-- The segment is loaded and its address is not one of those to skip. -/
def Segment.Loadable (seg : Segment) : Prop := seg.pType = .load ∧ seg.pPaddr ∉ skipAddresses

instance (seg : Segment) : Decidable seg.Loadable := inferInstanceAs (Decidable (_ ∧ _))

/-- The padded data of every loadable segment, at its address. -/
def imageWrites (elf : Elf) : List (ℕ × UInt8) :=
  (elf.segments.filter fun seg => decide seg.Loadable).flatMap fun seg =>
    writesAt seg.pPaddr (zeroPadded seg.data)

/-- The TLVs of `.fw_info`, where they are well formed. -/
def fwInfo (elf : Elf) : Option (List Tlv) :=
  collect (fun sec => if sec.name = ".fw_info" then parseTlvs sec.data else some []) elf.sections

/-- A firmware or software image: it has none of the sections of a BCF, the TLVs of `.fw_info` are
well formed, and every loadable segment ends within the 32-bit address space. -/
structure IsImage (elf : Elf) (info : List Tlv) : Prop where
  sections : ∀ sec ∈ elf.sections,
    sectionMapping sec.name = none ∧ regdomDomain sec.name = none
  info : fwInfo elf = some info
  segments : ∀ seg ∈ elf.segments, seg.Loadable →
    seg.pPaddr + (zeroPadded seg.data).length ≤ 4294967296

/-- Nothing of `.fw_info` is filtered out, and the chunks have a size that is allowed. -/
structure Args.Allowed (args : Args) : Prop where
  noFilter : args.fwInfoFilter = none
  positive : 1 ≤ args.compressChunkSize
  bounded : args.compressChunkSize ≤ 32768

/-- What is assumed of zlib. -/
structure IsZlib (compress : List UInt8 → List UInt8)
    (decompress : List UInt8 → Option (List UInt8)) : Prop where
  inverts : ∀ data, decompress (compress data) = some data
  expands : ∀ data, data.length ≤ 32768 → (compress data).length ≤ data.length + 4096

def Args.kind (args : Args) : ImageKind := if args.sw then .sw else .fw

def magicTlv (kind : ImageKind) : Tlv :=
  ⟨fieldTypeMagic, packLe 4 kind.magic, by rw [length_packLe]; decide⟩

def eofTlv : Tlv := ⟨fieldTypeEof, [], by decide⟩

/-- The file is read back as the magic number, the TLVs of `.fw_info`, segments that write what they
should, and the end. -/
def ReadsBack (decompress : List UInt8 → Option (List UInt8)) (kind : ImageKind)
    (info : List Tlv) (writes : List (ℕ × UInt8)) (file : List UInt8) : Prop :=
  ∃ segments, parseTlvs file = some (magicTlv kind :: (info ++ (segments ++ [eofTlv]))) ∧
    collect (Tlv.segmentWrites decompress kind) segments = some writes

/-! ## Padding -/

theorem padData_eq (data : List UInt8) : padData data = zeroPadded data := by
  induction data using padData.induct with
  | case1 data ragged ih =>
      have fewer : (4 - data.length % 4) % 4 = (4 - (data ++ [0]).length % 4) % 4 + 1 := by
        rw [List.length_append, List.length_singleton]
        omega
      rw [padData, if_pos ragged, ih, zeroPadded, zeroPadded, fewer, List.append_assoc,
        List.replicate_succ, List.singleton_append]
  | case2 data whole =>
      have none : (4 - data.length % 4) % 4 = 0 := by omega
      rw [padData, if_neg whole, zeroPadded, none, List.replicate_zero, List.append_nil]

/-! ## Writing TLVs -/

theorem addTlv_of_lt {type : UInt16} {data : List UInt8} (fits : data.length < 65536) :
    addTlv type data = some (Tlv.wire ⟨type, data, fits⟩) := dif_pos fits

theorem addTlvBlock_cons (t : Tlv) {rest out : List UInt8}
    (more : addTlvBlock none rest = some out) :
    addTlvBlock none (t.wire ++ rest) = some (t.wire ++ out) := by
  obtain ⟨t0, t1, l0, l1, bytes, type, length⟩ := t.exists_header rest
  rw [bytes]
  simp only [addTlvBlock, Option.all_none, if_true, length, type, List.take_left, List.drop_left,
    addTlv_of_lt t.length_lt, more]
  rfl

/-- A block is copied TLV by TLV. -/
theorem addTlvBlock_none {block : List UInt8} {tlvs : List Tlv}
    (parsed : parseTlvs block = some tlvs) :
    addTlvBlock none block = some (tlvs.flatMap Tlv.wire) := by
  obtain rfl := wire_of_parseTlvs parsed
  clear parsed
  induction tlvs with
  | nil => rw [List.flatMap_nil, addTlvBlock]
  | cons t tlvs ih =>
      rw [List.flatMap_cons]
      exact addTlvBlock_cons t ih

/-! ## Writing segments -/

/-- The TLVs that were written are segments that write `writes`. -/
def Emits (decompress : List UInt8 → Option (List UInt8)) (kind : ImageKind)
    (written : Option (List UInt8)) (writes : List (ℕ × UInt8)) : Prop :=
  ∃ tlvs : List Tlv, written = some (tlvs.flatMap Tlv.wire) ∧
    collect (Tlv.segmentWrites decompress kind) tlvs = some writes

section

variable {decompress : List UInt8 → Option (List UInt8)} {kind : ImageKind}

theorem emits_nil : Emits decompress kind (some []) [] := ⟨[], rfl, rfl⟩

theorem Emits.append {first second : Option (List UInt8)} {writes more : List (ℕ × UInt8)}
    (left : Emits decompress kind first writes) (right : Emits decompress kind second more) :
    Emits decompress kind (do let a ← first; let b ← second; return a ++ b) (writes ++ more) := by
  obtain ⟨tlvs, rfl, before⟩ := left
  obtain ⟨others, rfl, after⟩ := right
  refine ⟨tlvs ++ others, ?_, collect_append before after⟩
  rw [List.flatMap_append]
  rfl

theorem Emits.collect {α : Type} {f : α → Option (List UInt8)} {g : α → List (ℕ × UInt8)}
    {items : List α} (each : ∀ a ∈ items, Emits decompress kind (f a) (g a)) :
    Emits decompress kind (HalowBridge.collect f items) (items.flatMap g) := by
  induction items with
  | nil => exact emits_nil
  | cons a items ih =>
      rw [List.forall_mem_cons] at each
      rw [List.flatMap_cons]
      exact each.1.append (ih each.2)

/-- A single TLV. -/
theorem emits_addTlv {type : UInt16} {data : List UInt8} {writes : List (ℕ × UInt8)}
    (fits : data.length < 65536)
    (holds : Tlv.segmentWrites decompress kind ⟨type, data, fits⟩ = some writes) :
    Emits decompress kind (addTlv type data) writes := by
  refine ⟨[⟨type, data, fits⟩], ?_, ?_⟩
  · rw [addTlv_of_lt fits, List.flatMap_singleton]
  · have whole := collect_cons holds (rfl : HalowBridge.collect _ [] = some [])
    rwa [List.append_nil] at whole

/-- The loop without compression, chunk by chunk. -/
theorem emits_addChunks {destAddress : ℕ} {data : List UInt8}
    (fits : destAddress + data.length ≤ 4294967296) :
    Emits decompress kind (addChunks kind.segment destAddress data)
      (writesAt destAddress data) := by
  induction destAddress, data using addChunks.induct kind.segment with
  | case1 destAddress =>
      rw [addChunks]
      exact emits_nil
  | case2 destAddress b data chunkLen inside ih =>
      have bound : chunkLen ≤ (b :: data).length ∧ chunkLen ≤ 0x8000 :=
        ⟨Nat.min_le_left _ _, Nat.min_le_right _ _⟩
      have taken : ((b :: data).take chunkLen).length = chunkLen := by
        rw [List.length_take]
        exact Nat.min_eq_left bound.1
      have short : (packLe 4 destAddress ++ (b :: data).take chunkLen).length < 65536 := by
        rw [List.length_append, length_packLe, taken]
        omega
      have rest := ih (by rw [List.length_drop]; omega)
      have first : Emits decompress kind
          (addTlv kind.segment (packLe 4 destAddress ++ (b :: data).take chunkLen))
          (writesAt destAddress ((b :: data).take chunkLen)) :=
        emits_addTlv short (segmentWrites_plain rfl inside rfl)
      rw [addChunks, if_pos inside, writesAt_split destAddress chunkLen (b :: data)]
      exact first.append rest
  | case3 destAddress b data chunkLen outside ih =>
      rw [List.length_cons] at fits
      omega

/-! ## Chunks at the offsets of a range -/

theorem lt_of_mem_pyRange {n step offset : ℕ} (positive : 1 ≤ step)
    (member : offset ∈ pyRange n step) : offset < n := by
  obtain ⟨i, below, rfl⟩ := List.mem_range'.mp member
  have rounds : (i + 1) * step ≤ n + step - 1 := (Nat.le_div_iff_mul_le positive).mp below
  rw [Nat.add_mul] at rounds
  have same : step * i = i * step := Nat.mul_comm _ _
  omega

/-- The chunks of a range put together. -/
theorem flatMap_range' (addr : ℕ) (data : List UInt8) {step : ℕ} (count start : ℕ)
    (reaches : data.length ≤ start + count * step) :
    (List.range' start count step).flatMap
        (fun offset => writesAt (addr + offset) ((data.drop offset).take step)) =
      writesAt (addr + start) (data.drop start) := by
  induction count generalizing start with
  | zero =>
      have past : data.drop start = [] := List.drop_eq_nil_of_le (by omega)
      rw [past]
      rfl
  | succ count ih =>
      rw [Nat.succ_mul] at reaches
      rw [List.range'_succ, List.flatMap_cons, ih (start + step) (by omega),
        writesAt_split (addr + start) step (data.drop start), List.drop_drop, Nat.add_assoc]

theorem flatMap_pyRange (addr : ℕ) (data : List UInt8) {step : ℕ} (positive : 1 ≤ step) :
    (pyRange data.length step).flatMap
        (fun offset => writesAt (addr + offset) ((data.drop offset).take step)) =
      writesAt addr data := by
  refine flatMap_range' addr data _ 0 ?_
  have rounds := Nat.div_add_mod (data.length + step - 1) step
  have below := Nat.mod_lt (data.length + step - 1) positive
  rw [Nat.mul_comm] at rounds
  omega

/-! ## Segments of the ELF file -/

variable {compress : List UInt8 → List UInt8}

theorem emits_addDeflatedChunk (zlib : IsZlib compress decompress) {chunkAddr : ℕ}
    {chunk : List UInt8} (fits : chunkAddr < 4294967296) (bounded : chunk.length ≤ 32768) :
    Emits decompress kind (addDeflatedChunk compress kind.deflated chunkAddr chunk)
      (writesAt chunkAddr chunk) := by
  have short : chunk.length < 65536 := by omega
  have expands := zlib.expands chunk bounded
  have length : (packLe 4 chunkAddr ++ (packLe 2 chunk.length ++ compress chunk)).length <
      65536 := by
    rw [List.length_append, List.length_append, length_packLe, length_packLe]
    omega
  rw [addDeflatedChunk, if_pos ⟨fits, short⟩]
  exact emits_addTlv length
    (segmentWrites_deflated rfl fits short (zlib.inverts chunk) rfl)

/-- Both loops write the data at its address. -/
theorem emits_addSegment (zlib : IsZlib compress decompress) {args : Args} (allowed : args.Allowed)
    {destAddress : ℕ} {data : List UInt8} (fits : destAddress + data.length ≤ 4294967296) :
    Emits decompress kind (addSegment compress kind args destAddress data)
      (writesAt destAddress data) := by
  have positive := allowed.positive
  have bounded := allowed.bounded
  have step : 1 ≤ args.compressChunkSize.toNat := by omega
  by_cases compressed : args.compress
  · rw [addSegment, if_pos compressed, if_neg (by omega), ← flatMap_pyRange destAddress data step]
    apply Emits.collect
    intro offset member
    have inside := lt_of_mem_pyRange step member
    apply emits_addDeflatedChunk zlib
    · omega
    · have taken := List.length_take_le args.compressChunkSize.toNat (data.drop offset)
      omega
  · rw [addSegment, if_neg compressed]
    exact emits_addChunks fits

theorem addElfSegment_eq (args : Args) (seg : Segment) :
    addElfSegment compress kind args seg =
      if seg.Loadable then addSegment compress kind args seg.pPaddr (padData seg.data)
      else some [] := by
  by_cases load : seg.pType = .load
  · by_cases skipped : seg.pPaddr ∈ skipAddresses
    · have not : ¬ seg.Loadable := fun loadable => loadable.2 skipped
      rw [if_neg not]
      cases kind <;> simp only [addElfSegment, load, skipped, ne_eq, not_true, if_false, if_true]
    · have loadable : seg.Loadable := ⟨load, skipped⟩
      rw [if_pos loadable]
      cases kind <;> simp only [addElfSegment, load, skipped, ne_eq, not_true, if_false]
      · rfl
      · rfl
  · have not : ¬ seg.Loadable := fun loadable => load loadable.1
    rw [if_neg not]
    cases kind <;> simp only [addElfSegment, load, ne_eq, not_false_iff, if_true]

/-- A segment that is not loadable writes nothing. -/
theorem emits_addElfSegment (zlib : IsZlib compress decompress) {args : Args}
    (allowed : args.Allowed) {seg : Segment}
    (fits : seg.Loadable → seg.pPaddr + (zeroPadded seg.data).length ≤ 4294967296) :
    Emits decompress kind (addElfSegment compress kind args seg)
      (if seg.Loadable then writesAt seg.pPaddr (zeroPadded seg.data) else []) := by
  rw [addElfSegment_eq, padData_eq]
  split
  · next loadable => exact emits_addSegment zlib allowed (fits loadable)
  · exact emits_nil

theorem imageWrites_eq (elf : Elf) :
    imageWrites elf = elf.segments.flatMap fun seg =>
      if seg.Loadable then writesAt seg.pPaddr (zeroPadded seg.data) else [] := by
  rw [imageWrites]
  induction elf.segments with
  | nil => rfl
  | cons seg segments ih =>
      rw [List.flatMap_cons, ← ih, List.filter_cons]
      by_cases loadable : seg.Loadable
      · rw [if_pos (decide_eq_true loadable), if_pos loadable, List.flatMap_cons]
      · rw [if_neg (by rwa [decide_eq_true_iff]), if_neg loadable, List.nil_append]

end

/-! ## The file -/

/-- The sections of an image give the TLVs of `.fw_info`. -/
theorem collect_addSection {args : Args} (noFilter : args.fwInfoFilter = none)
    {sections : List Section} {info : List Tlv}
    (image : ∀ sec ∈ sections, sectionMapping sec.name = none ∧ regdomDomain sec.name = none)
    (parsed : collect (fun sec => if sec.name = ".fw_info" then parseTlvs sec.data else some [])
      sections = some info) :
    collect (addSection args) sections = some (info.flatMap Tlv.wire) := by
  induction sections generalizing info with
  | nil =>
      obtain rfl := Option.some.inj parsed
      rfl
  | cons sec sections ih =>
      obtain ⟨first, rest, head, tail, rfl⟩ := collect_cons_eq_some parsed
      rw [List.forall_mem_cons] at image
      rw [List.flatMap_append]
      refine collect_cons ?_ (ih image.2 tail)
      by_cases isInfo : sec.name = ".fw_info"
      · rw [if_pos isInfo] at head
        rw [addSection, if_pos isInfo, noFilter]
        exact addTlvBlock_none head
      · rw [if_neg isInfo] at head
        obtain rfl := Option.some.inj head
        simp only [addSection, if_neg isInfo, image.1.1, image.1.2, List.flatMap_nil]

theorem fileType_of_isImage {elf : Elf} {info : List Tlv} (image : IsImage elf info) (args : Args) :
    fileType args elf = .image args.kind := by
  have noBoard : ¬ (elf.sections.any fun sec => sec.name = ".board_config") = true := by
    rw [List.any_eq_true]
    rintro ⟨sec, member, board⟩
    have unmapped := (image.sections sec member).1
    rw [sectionMapping, if_pos (of_decide_eq_true board)] at unmapped
    cases unmapped
  rw [fileType, if_neg noBoard, Args.kind]
  split <;> rfl

/-- The file of an image, TLV by TLV. -/
theorem appMain_of_isImage {compress : List UInt8 → List UInt8}
    {decompress : List UInt8 → Option (List UInt8)} (zlib : IsZlib compress decompress)
    {elf : Elf} {info : List Tlv} (image : IsImage elf info) {args : Args}
    (allowed : args.Allowed) : ∃ segments,
      appMain compress args elf =
        some ((magicTlv args.kind :: (info ++ (segments ++ [eofTlv]))).flatMap Tlv.wire) ∧
      collect (Tlv.segmentWrites decompress args.kind) segments = some (imageWrites elf) := by
  obtain ⟨segments, written, writes⟩ : Emits decompress args.kind
      (collect (addElfSegment compress args.kind args) elf.segments) (imageWrites elf) := by
    rw [imageWrites_eq]
    exact Emits.collect fun seg member => emits_addElfSegment zlib allowed
      (image.segments seg member)
  have header : addHeaders args.kind.magic = some (magicTlv args.kind).wire :=
    addTlv_of_lt (magicTlv args.kind).length_lt
  have eof : addTlv fieldTypeEof [] = some eofTlv.wire := addTlv_of_lt eofTlv.length_lt
  have sections := collect_addSection allowed.noFilter image.sections image.info
  refine ⟨segments, ?_, writes⟩
  simp only [appMain, fileType_of_isImage image, magicNumber, header, sections, written, eof,
    List.flatMap_cons, List.flatMap_append, List.flatMap_nil, List.append_nil]
  rfl

theorem loadImage_wire {decompress : List UInt8 → Option (List UInt8)} {kind : ImageKind}
    (tlvs : List Tlv) :
    loadImage decompress kind (tlvs.flatMap Tlv.wire) =
      (loadTlvs decompress kind tlvs).map memory := by
  rw [loadImage, parseTlvs_wire, Option.map_eq_bind]
  rfl

/-- **The round trip.** The file of an image is read back. If the loader passes over `.fw_info`, it
loads the padded data of the loadable segments. Compressed or not, and whatever the size of the
chunks, the file loads the same memory. -/
theorem mbin_roundTrip {compress : List UInt8 → List UInt8}
    {decompress : List UInt8 → Option (List UInt8)} (zlib : IsZlib compress decompress)
    {elf : Elf} {info : List Tlv} (image : IsImage elf info) {args : Args}
    (allowed : args.Allowed) : ∃ file,
      appMain compress args elf = some file ∧
      ReadsBack decompress args.kind info (imageWrites elf) file ∧
      ((∀ t ∈ info, t.Inert args.kind) →
        loadImage decompress args.kind file = some (memory (imageWrites elf))) ∧
      ∀ other : Args, other.Allowed → other.sw = args.sw → ∃ file',
        appMain compress other elf = some file' ∧
        loadImage decompress args.kind file' = loadImage decompress args.kind file := by
  obtain ⟨segments, written, writes⟩ := appMain_of_isImage zlib image allowed
  have loads : loadTlvs decompress args.kind (segments ++ [eofTlv]) = some (imageWrites elf) :=
    loadTlvs_segments rfl writes
  refine ⟨_, written, ⟨segments, parseTlvs_wire _, writes⟩, ?_, ?_⟩
  · intro inert
    have magic : (magicTlv args.kind).Inert args.kind := by
      cases args.kind <;> exact ⟨by decide, by decide, by decide⟩
    rw [loadImage_wire, ← List.cons_append,
      loadTlvs_inert (List.forall_mem_cons.mpr ⟨magic, inert⟩), loads, Option.map_some]
  · intro other allowed' sw
    have kind : other.kind = args.kind := by rw [Args.kind, Args.kind, sw]
    obtain ⟨segments', written', writes'⟩ := appMain_of_isImage zlib image allowed'
    rw [kind] at written' writes'
    have loads' : loadTlvs decompress args.kind (segments' ++ [eofTlv]) =
        some (imageWrites elf) := loadTlvs_segments rfl writes'
    refine ⟨_, written', ?_⟩
    rw [loadImage_wire, loadImage_wire, ← List.cons_append, ← List.cons_append,
      loadTlvs_append_congr (magicTlv args.kind :: info) (loads'.trans loads.symm)]

/-- The chunk of the image below, and its zlib stream at level 1. -/
def exampleChunk : List UInt8 := [1, 2, 3, 4, 5, 0, 0, 0]

def exampleStream : List UInt8 :=
  [0x78, 0x01, 0x63, 0x64, 0x62, 0x66, 0x61, 0x65, 0x60, 0x60, 0x00, 0x00, 0x00, 0x58, 0x00, 0x10]

/-- zlib on the example, and a mark in front of any other data. -/
def exampleCompress (data : List UInt8) : List UInt8 :=
  if data = exampleChunk then exampleStream else 0 :: data

def exampleDecompress (stream : List UInt8) : Option (List UInt8) :=
  if stream = exampleStream then some exampleChunk
  else if stream.head? = some 0 then some stream.tail
  else none

theorem isZlib_example : IsZlib exampleCompress exampleDecompress where
  inverts data := by
    by_cases chunk : data = exampleChunk
    · rw [exampleCompress, if_pos chunk, chunk]
      rfl
    · have other : 0 :: data ≠ exampleStream := by
        intro same
        cases same
      rw [exampleCompress, if_neg chunk, exampleDecompress, if_neg other]
      rfl
  expands data _ := by
    rw [exampleCompress]
    split
    · show 16 ≤ _
      omega
    · rw [List.length_cons]
      omega

/-- A firmware with a TLV of information, a segment of five bytes and one to skip. -/
def exampleElf : Elf where
  sections := [⟨"", []⟩, ⟨".text", [1, 2, 3, 4, 5]⟩, ⟨".fw_info", [1, 0, 4, 0, 0, 0, 0x10, 0]⟩]
  segments := [⟨.load, 0x00100000, [1, 2, 3, 4, 5]⟩, ⟨.load, 0x00400000, [6]⟩]

/-- Compressed in chunks of the default size, the image is read back, and the same memory is loaded
from the file that is not compressed. -/
theorem mbin_roundTrip_compressed : ∃ file,
    appMain exampleCompress ⟨false, true, 8192, none, none⟩ exampleElf = some file ∧
    ReadsBack exampleDecompress .fw [⟨1, [0, 0, 0x10, 0], by decide⟩]
      (writesAt 0x00100000 exampleChunk) file ∧
    loadImage exampleDecompress .fw file = some (memory (writesAt 0x00100000 exampleChunk)) ∧
    ∃ file', appMain exampleCompress ⟨false, false, 8192, none, none⟩ exampleElf = some file' ∧
      loadImage exampleDecompress .fw file' = loadImage exampleDecompress .fw file := by
  have image : IsImage exampleElf [⟨1, [0, 0, 0x10, 0], by decide⟩] :=
    ⟨by decide +kernel, by decide +kernel, by decide +kernel⟩
  obtain ⟨file, written, back, loads, others⟩ := mbin_roundTrip isZlib_example image
    (⟨rfl, by decide, by decide⟩ : Args.Allowed ⟨false, true, 8192, none, none⟩)
  have inert : ∀ t ∈ [(⟨1, [0, 0, 0x10, 0], by decide⟩ : Tlv)], t.Inert .fw := by
    intro t member
    obtain rfl := List.mem_singleton.mp member
    exact ⟨by decide, by decide, by decide⟩
  exact ⟨file, written, back, loads inert,
    others ⟨false, false, 8192, none, none⟩ ⟨rfl, by decide, by decide⟩ rfl⟩

end HalowBridge.Mbin
