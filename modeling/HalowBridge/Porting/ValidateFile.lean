import HalowBridge.Mbin.Format

/-!
# Validation of firmware and BCF files

`execute_fw_bcf_test` walks over the TLVs of a file through the read function that an integrator
wrote. It looks for the magic number in the first TLV and for the EOF TLV within `MAX_TLVS` headers.
The magic number is compared where the value of the first TLV is read, in the loop over its parts: a
value without bytes has no parts, and nothing is compared.

A report has the texts that are appended to the log, not the buffer of the log. The callback that
frees a buffer is left out. An access outside a buffer ends the model without a report.
-/

namespace HalowBridge.Porting

open Mbin

/-- `enum test_result` -/
inductive TestResult where
  | noResult
  | passed
  | skipped
  | failed
  | failedNonCritical
  deriving DecidableEq

/-- What a test step returns, and what it appends to the log. -/
structure TestReport where
  result : TestResult
  log : List String

/-- `struct mmhal_robuf`: the memory from `buf` on, and the length. -/
structure Robuf where
  buf : Option (List UInt8)
  len : UInt32

/-- `robuf_cleanup`, and the value a `robuf` starts with. -/
def Robuf.zero : Robuf := ⟨none, 0⟩

/-- `file_read_fn_t`: it fills out the buffer that it is given. -/
abbrev FileReadFn := (offset requestedLen : UInt32) → Robuf → Robuf

/-- `struct tlv_header` -/
structure TlvHeader where
  type : UInt16
  len : UInt16

/-- `sizeof(struct tlv_header)` -/
def sizeofTlvHeader : UInt32 := 4

/-- `MAX_TLVS` -/
def maxTlvs : ℕ := 50

/-- `MMHAL_WLAN_FW_BCF_MIN_READ_LENGTH` -/
def mmhalWlanFwBcfMinReadLength : ℕ := 4

/-- `MBIN_FW_MAGIC_NUMBER` -/
def mbinFwMagicNumber : UInt32 := 0x57464d4d

/-- `MBIN_BCF_MAGIC_NUMBER` -/
def mbinBcfMagicNumber : UInt32 := 0x43424d4d

/-- How the test ends before it falls out of its loop. -/
inductive Exit where
  | report (report : TestReport)
  | outOfBounds

/-- `%08lx` -/
def hex8 (n : UInt32) : String := String.ofList ((Nat.toDigits 16 n.toNat).leftpad 8 '0')

/-- `return TEST_FAILED_NON_CRITICAL` after the texts. -/
def fail {α : Type} (texts : List String) : Except Exit α :=
  .error (.report ⟨.failedNonCritical, texts⟩)

section

variable (fileReadFn : FileReadFn) (fileReadFnName type : String) (expectedMagicNumber : UInt32)

/-! ### The texts of the log -/

def eofNotFound : String :=
  type ++ " invalid or ended too soon (EOF marker not found)\n" ++
    "Check that you have provided a valid " ++ type ++ " file and review your implementation\n" ++
    "of " ++ fileReadFnName ++ "().\n"

def nullBuffer : List String :=
  [fileReadFnName ++ " returned NULL buffer but non-zero length\n",
    "Review your implementation of " ++ fileReadFnName ++ "().\n"]

def headerTooShort : String :=
  "The length of data returned by " ++ fileReadFnName ++ "() was too short\n" ++
    fileReadFnName ++ "() is required to return a minimum of " ++
    "MMWLAN_FW_BCF_MIN_READ_LENGTH (" ++ toString mmhalWlanFwBcfMinReadLength ++ ") bytes.\n"

def noMagicNumber : String :=
  "The firware was corrupt (did not start with a magic number). \n" ++
    "Possible causes include using invalid (e.g., outdated) firmware, or a bug in\n" ++
    fileReadFnName ++ "()\n"

def endedTooSoon : String :=
  type ++ " ended too soon.\n" ++
    "Check that you have provided a valid firmware file and review " ++
    "your implementation of\n" ++ fileReadFnName ++ "().\n"

def tooLong : String :=
  "The length of data returned by " ++ fileReadFnName ++ "() was too great\n" ++
    fileReadFnName ++ "() should not return more than `requested_len` bytes.\n"

def magicTooShort : String :=
  "The length of data returned by " ++ fileReadFnName ++ "() was too short\n" ++
    fileReadFnName ++ "() is required to return a minimum of " ++
    "MMWLAN_FW_BCF_MIN_READ_LENGTH " ++ toString mmhalWlanFwBcfMinReadLength ++ ") bytes\n"

def wrongMagicNumber (magic : UInt32) : String :=
  "The " ++ type ++ " was corrupt (did not contain the correct magic number -- " ++
    "expect 0x" ++ hex8 expectedMagicNumber ++ ", got 0x" ++ hex8 magic ++ ").\n" ++
    "This is likey caused by using an invalid (e.g., outdated) version.\n"

/-! ### The test -/

/-- `memcpy(&hdr, robuf.buf, sizeof(hdr))` -/
def readHeader : List UInt8 → Except Exit TlvHeader
  | t0 :: t1 :: l0 :: l1 :: _ =>
      .ok ⟨UInt16.ofNat (unpackLe [t0, t1]), UInt16.ofNat (unpackLe [l0, l1])⟩
  | _ => .error .outOfBounds

/-- The comparison with the magic number. -/
def checkMagic (robuf : Robuf) : Except Exit Unit :=
  if robuf.len < 4 then fail [magicTooShort fileReadFnName]
  else
    match robuf.buf with
    | some (b0 :: b1 :: b2 :: b3 :: _) =>
        let magic := b0.toUInt32 ||| b1.toUInt32 <<< 8 ||| b2.toUInt32 <<< 16 |||
          b3.toUInt32 <<< 24
        if magic ≠ expectedMagicNumber then fail [wrongMagicNumber type expectedMagicNumber magic]
        else .ok ()
    | _ => .error .outOfBounds

/-- The loop over the parts of a value: the offset behind it. -/
def readValue (numTlvs : ℕ) (offset remainingLen : UInt32) (robuf : Robuf) : Except Exit UInt32 :=
  if remainingLen = 0 then .ok offset
  else
    let robuf := fileReadFn offset remainingLen robuf
    if robuf.len = 0 then fail [endedTooSoon fileReadFnName type]
    else if robuf.len > remainingLen then fail [tooLong fileReadFnName]
    else do
      if numTlvs = 0 then checkMagic fileReadFnName type expectedMagicNumber robuf
      readValue numTlvs (offset + robuf.len) (remainingLen - robuf.len) Robuf.zero
termination_by remainingLen.toNat
decreasing_by
  rename_i _ empty long
  -- Every part has a byte at least, and no more than are left.
  have positive := Nat.pos_of_ne_zero fun zero => empty (UInt32.toNat_inj.mp zero)
  rw [UInt32.toNat_sub_of_le _ _ (UInt32.not_lt.mp long)]
  have le := UInt32.le_iff_toNat_le.mp (UInt32.not_lt.mp long)
  omega

/-- One round of the loop over the TLVs: the offset behind a TLV. -/
def readTlv (numTlvs : ℕ) (offset : UInt32) : Except Exit UInt32 :=
  let robuf := fileReadFn offset sizeofTlvHeader Robuf.zero
  if robuf.len = 0 then fail [eofNotFound fileReadFnName type]
  else
    match robuf.buf with
    | none => fail (nullBuffer fileReadFnName)
    | some memory =>
        if robuf.len < sizeofTlvHeader then fail [headerTooShort fileReadFnName]
        else do
          let hdr ← readHeader memory
          if numTlvs = 0 ∧ hdr.type ≠ fieldTypeMagic then fail [noMagicNumber fileReadFnName]
          else if hdr.type = fieldTypeEof then .error (.report ⟨.passed, []⟩)
          else
            readValue fileReadFn fileReadFnName type expectedMagicNumber numTlvs
              (offset + sizeofTlvHeader) hdr.len.toUInt32 Robuf.zero

/-- The loop over the TLVs, with `left` rounds to come. -/
def tlvLoop (numTlvs : ℕ) : (left : ℕ) → (offset : UInt32) → Except Exit Unit
  | 0, _ => .ok ()
  | left + 1, offset => do
      let offset ← readTlv fileReadFn fileReadFnName type expectedMagicNumber numTlvs offset
      tlvLoop (numTlvs + 1) left offset

/-- `execute_fw_bcf_test` -/
def executeFwBcfTest : Option TestReport :=
  match tlvLoop fileReadFn fileReadFnName type expectedMagicNumber 0 maxTlvs 0 with
  | .ok () => some ⟨.failedNonCritical, [eofNotFound fileReadFnName type]⟩
  | .error (.report report) => some report
  | .error .outOfBounds => none

end

/-! ## The files -/

/-- The image of a file in memory. -/
structure FileImage where
  bytes : List UInt8
  length_lt : bytes.length < 2147483648

/-- `mmhal_wlan_read_fw_file` -/
def mmhalWlanReadFwFile (firmware : FileImage) : FileReadFn := fun offset requestedLen robuf =>
  let firmwareLen := UInt32.ofNat firmware.bytes.length
  if offset > firmwareLen then { robuf with buf := none }
  else
    let firmwareLen := firmwareLen - offset
    ⟨some (firmware.bytes.drop offset.toNat),
      if firmwareLen < requestedLen then firmwareLen else requestedLen⟩

/-- `mmhal_wlan_read_bcf_file` -/
def mmhalWlanReadBcfFile (bcf : FileImage) : FileReadFn := fun offset requestedLen _ =>
  let bcfLen := UInt32.ofNat bcf.bytes.length
  if bcfLen < offset then ⟨none, 0⟩
  else
    let len := bcfLen - offset
    ⟨some (bcf.bytes.drop offset.toNat), if len < requestedLen then len else requestedLen⟩

/-- `test_step_mmhal_wlan_validate_fw` -/
def testStepMmhalWlanValidateFw (firmware : FileImage) : Option TestReport :=
  executeFwBcfTest (mmhalWlanReadFwFile firmware) "mmhal_wlan_read_fw_file" "Firmware"
    mbinFwMagicNumber

/-- `test_step_mmhal_wlan_validate_bcf` -/
def testStepMmhalWlanValidateBcf (bcf : FileImage) : Option TestReport :=
  executeFwBcfTest (mmhalWlanReadBcfFile bcf) "mmhal_wlan_read_bcf_file" "BCF" mbinBcfMagicNumber

end HalowBridge.Porting
