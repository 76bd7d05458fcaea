import HalowBridge.Mbin.Format
import Mathlib.Data.Int.Notation

/-!
# Writing mbin files

`convert-bin-to-mbin.py` turns an ELF file into an mbin file. The loadable segments are padded to a
multiple of four bytes and cut into chunks, which are stored as they are or compressed. What the
script writes is a list of bytes, and there is none when it raises an exception: a number does not
fit its field, or a block of TLVs ends inside a header.

The counters and the messages of the log are left out. `zlib.compress` is a parameter.
-/

namespace HalowBridge.Mbin

/-! ## The ELF file -/

structure Section where
  name : String
  data : List UInt8

/-- `p_type` of a segment. -/
inductive SegmentType where
  | load
  | other
  deriving DecidableEq

structure Segment where
  pType : SegmentType
  pPaddr : ℕ
  data : List UInt8

structure Elf where
  sections : List Section
  segments : List Segment

/-- The arguments of the script, with the filters split at their commas. -/
structure Args where
  sw : Bool
  compress : Bool
  compressChunkSize : ℤ
  regdomFilter : Option (List String)
  fwInfoFilter : Option (List ℤ)

def skipAddresses : List ℕ := [0x00400000, 0x00C00000, 0x08000000]

def maxSegmentDataSize : ℕ := 0x8000

def fieldTypeBcfRegdom : UInt16 := 0x8101

/-- `SECTION_MAPPINGS` -/
def sectionMapping (name : String) : Option UInt16 :=
  if name = ".board_config" then some 0x8100
  else if name = ".board_desc" then some 0x8102
  else if name = ".build_ver" then some 0x8103
  else if name = ".chips" then some 0x8104
  else none

/-- `REGDOM_RE`: the two letters of a domain behind any character and `regdom_`. -/
def regdomDomain (name : String) : Option (List Char) :=
  match name.toList with
  | c :: 'r' :: 'e' :: 'g' :: 'd' :: 'o' :: 'm' :: '_' :: a :: b :: _ =>
      if c ≠ '\n' ∧ ('A' ≤ a ∧ a ≤ 'Z') ∧ 'A' ≤ b ∧ b ≤ 'Z' then some [a, b] else none
  | _ => none

/-! ## `MbinFile` -/

/-- `add_tlv` -/
def addTlv (type : UInt16) (data : List UInt8) : Option (List UInt8) :=
  if fits : data.length < 65536 then some (Tlv.wire ⟨type, data, fits⟩) else none

/-- `add_tlv_block` -/
def addTlvBlock (filter : Option (List ℤ)) : List UInt8 → Option (List UInt8)
  | [] => some []
  | t0 :: t1 :: l0 :: l1 :: rest => do
      let type := UInt16.ofNat (unpackLe [t0, t1])
      let written ←
        if filter.all (fun types => (type.toNat : ℤ) ∈ types) then
          addTlv type (rest.take (unpackLe [l0, l1]))
        else some []
      let more ← addTlvBlock filter (rest.drop (unpackLe [l0, l1]))
      return written ++ more
  | _ => none
termination_by block => block.length
decreasing_by
  rw [List.length_drop, List.length_cons, List.length_cons, List.length_cons, List.length_cons]
  omega

/-- `add_headers` -/
def addHeaders (magicNumber : ℕ) : Option (List UInt8) :=
  addTlv fieldTypeMagic (packLe 4 magicNumber)

/-- `range(0, n, step)`, empty for a step of zero -/
def pyRange (n step : ℕ) : List ℕ := List.range' 0 ((n + step - 1) / step) step

section

variable (compress : List UInt8 → List UInt8)

/-- A chunk of the compressing loops of `add_fw_segment` and `add_sw_segment`. -/
def addDeflatedChunk (type : UInt16) (chunkAddr : ℕ) (chunk : List UInt8) : Option (List UInt8) :=
  if chunkAddr < 4294967296 ∧ chunk.length < 65536 then
    addTlv type (packLe 4 chunkAddr ++ (packLe 2 chunk.length ++ compress chunk))
  else none

/-- The other loop of `add_fw_segment` and `add_sw_segment`. -/
def addChunks (type : UInt16) : ℕ → List UInt8 → Option (List UInt8)
  | _, [] => some []
  | destAddress, b :: data => do
      let chunkLen := min (b :: data).length maxSegmentDataSize
      let written ←
        if destAddress < 4294967296 then
          addTlv type (packLe 4 destAddress ++ (b :: data).take chunkLen)
        else none
      let more ← addChunks type (destAddress + chunkLen) ((b :: data).drop chunkLen)
      return written ++ more
termination_by _ data => data.length
decreasing_by
  rw [List.length_drop, List.length_cons]
  show data.length + 1 - min (data.length + 1) 0x8000 < data.length + 1
  omega

/-- The two functions that add a segment, which differ in the types of their TLVs. -/
def addSegment (kind : ImageKind) (args : Args) (destAddress : ℕ) (data : List UInt8) :
    Option (List UInt8) :=
  if args.compress then
    -- `range` raises an exception when its step is zero, and is empty when it is negative.
    if args.compressChunkSize = 0 then none
    else
      collect
        (fun offset => addDeflatedChunk compress kind.deflated (destAddress + offset)
          ((data.drop offset).take args.compressChunkSize.toNat))
        (pyRange data.length args.compressChunkSize.toNat)
  else addChunks kind.segment destAddress data

def addFwSegment (args : Args) (destAddress : ℕ) (data : List UInt8) : Option (List UInt8) :=
  addSegment compress .fw args destAddress data

def addSwSegment (args : Args) (destAddress : ℕ) (data : List UInt8) : Option (List UInt8) :=
  addSegment compress .sw args destAddress data

end

/-- `_pad_data` -/
def padData (data : List UInt8) : List UInt8 :=
  if data.length % 4 ≠ 0 then padData (data ++ [0]) else data
termination_by (4 - data.length % 4) % 4
decreasing_by
  rw [List.length_append, List.length_singleton]
  omega

/-! ## `_app_main` -/

/-- `file_type` -/
inductive FileType where
  | image (kind : ImageKind)
  | bcf

def fileType (args : Args) (elf : Elf) : FileType :=
  if args.sw then .image .sw
  else if elf.sections.any fun sec => sec.name = ".board_config" then .bcf
  else .image .fw

def magicNumber : FileType → ℕ
  | .image kind => kind.magic
  | .bcf => 0x43424d4d

/-- A turn of the loop over the sections. -/
def addSection (args : Args) (sec : Section) : Option (List UInt8) :=
  if sec.name = ".fw_info" then addTlvBlock args.fwInfoFilter sec.data
  else
    match sectionMapping sec.name with
    | some type => addTlv type (padData sec.data)
    | none =>
        match regdomDomain sec.name with
        | some domain =>
            if args.regdomFilter.all (fun domains => String.ofList domain ∈ domains) then
              addTlv fieldTypeBcfRegdom
                (domain.map Char.toUInt8 ++ ([0, 0] ++ padData sec.data))
            else some []
        | none => some []

section

variable (compress : List UInt8 → List UInt8)

/-- A turn of the loop over the segments. -/
def addElfSegment (kind : ImageKind) (args : Args) (seg : Segment) : Option (List UInt8) :=
  if seg.pType ≠ .load then some []
  else if seg.pPaddr ∈ skipAddresses then some []
  else
    match kind with
    | .sw => addSwSegment compress args seg.pPaddr (padData seg.data)
    | .fw => addFwSegment compress args seg.pPaddr (padData seg.data)

/-- The file that `_app_main` writes. -/
def appMain (args : Args) (elf : Elf) : Option (List UInt8) := do
  let headers ← addHeaders (magicNumber (fileType args elf))
  let sections ← collect (addSection args) elf.sections
  let segments ←
    match fileType args elf with
    | .image kind => collect (addElfSegment compress kind args) elf.segments
    | .bcf => some []
  let eof ← addTlv fieldTypeEof []
  return headers ++ (sections ++ (segments ++ eof))

end

end HalowBridge.Mbin
