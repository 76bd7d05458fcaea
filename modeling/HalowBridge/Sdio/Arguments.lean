import HalowBridge.Lib.BitField

/-!
# SDIO command arguments

`mmhal_make_cmd52_arg` and `mmhal_make_cmd53_arg` or the shifted numbers together and mask none of
them. The maxima that the header gives for the address and the count are those of fields that are
one bit wider than the fields it describes.

The arguments decode to what was given for an address of 17 bits and a count of 9 bits, and for no
other. `mmhalMakeCmd53Arg_address_spill` and `mmhalMakeCmd53Arg_count_spill` say what the extra bit
does: that of the address falls on the op code, that of the count on the lowest bit of the address.
-/

namespace HalowBridge.Sdio

open BitField

/-- `enum mmhal_sdio_rw` -/
inductive SdioRw where
  | read
  | write

/-- `enum mmhal_sdio_function` -/
inductive SdioFunction where
  | function0
  | function1
  | function2

/-- `enum mmhal_sdio_mode` -/
inductive SdioMode where
  | byte
  | block

/-- `enum mmhal_sdio_opcode` -/
inductive SdioOpcode where
  | fixedAddr
  | incAddr

def SdioRw.value : SdioRw → UInt32
  | read => 0
  | write => (1 : UInt32) <<< 31

def SdioFunction.value : SdioFunction → UInt32
  | function0 => 0
  | function1 => (1 : UInt32) <<< 28
  | function2 => (2 : UInt32) <<< 28

def SdioMode.value : SdioMode → UInt32
  | byte => 0
  | block => (1 : UInt32) <<< 27

def SdioOpcode.value : SdioOpcode → UInt32
  | fixedAddr => 0
  | incAddr => (1 : UInt32) <<< 26

/-- `MMHAL_SDIO_ADDRESS_OFFSET` -/
def mmhalSdioAddressOffset : UInt32 := 9

/-- `MMHAL_SDIO_ADDRESS_MAX` -/
def mmhalSdioAddressMax : UInt32 := ((1 : UInt32) <<< 18) - 1

/-- `MMHAL_SDIO_COUNT_OFFSET` -/
def mmhalSdioCountOffset : UInt32 := 0

/-- `MMHAL_SDIO_COUNT_MAX` -/
def mmhalSdioCountMax : UInt32 := ((1 : UInt32) <<< 10) - 1

/-- `MMHAL_SDIO_CMD52_DATA_OFFSET` -/
def mmhalSdioCmd52DataOffset : UInt32 := 0

/-- `mmhal_make_cmd52_arg` -/
def mmhalMakeCmd52Arg (rw : SdioRw) (fn : SdioFunction) (address : UInt32) (writeData : UInt8) :
    UInt32 :=
  let arg := rw.value ||| fn.value
  let arg := arg ||| (address <<< mmhalSdioAddressOffset)
  arg ||| (writeData.toUInt32 <<< mmhalSdioCmd52DataOffset)

/-- `mmhal_make_cmd53_arg` -/
def mmhalMakeCmd53Arg (rw : SdioRw) (fn : SdioFunction) (mode : SdioMode) (address : UInt32)
    (count : UInt16) : UInt32 :=
  let arg := rw.value ||| fn.value ||| SdioOpcode.incAddr.value ||| mode.value
  let arg := arg ||| (address <<< mmhalSdioAddressOffset)
  arg ||| (count.toUInt32 <<< mmhalSdioCountOffset)

/-! ## The fields as they are described -/

def directionField : BitField := ⟨31, 1⟩

def functionField : BitField := ⟨28, 3⟩

def modeField : BitField := ⟨27, 1⟩

def opcodeField : BitField := ⟨26, 1⟩

def addressField : BitField := ⟨9, 17⟩

def countField : BitField := ⟨0, 9⟩

def dataField : BitField := ⟨0, 8⟩

/-- The fields of a CMD52 argument. The bits of the op code and the mode of CMD53 are not used. -/
def cmd52Layout : List BitField :=
  [directionField, functionField, opcodeField, modeField, addressField, dataField]

/-- The fields of a CMD53 argument. -/
def cmd53Layout : List BitField :=
  [directionField, functionField, opcodeField, modeField, addressField, countField]

def SdioRw.code : SdioRw → ℕ
  | read => 0
  | write => 1

def SdioFunction.number : SdioFunction → ℕ
  | function0 => 0
  | function1 => 1
  | function2 => 2

def SdioMode.code : SdioMode → ℕ
  | byte => 0
  | block => 1

def SdioOpcode.code : SdioOpcode → ℕ
  | fixedAddr => 0
  | incAddr => 1

/-- What the fields of a CMD52 argument should hold. -/
def cmd52Values (rw : SdioRw) (fn : SdioFunction) (address : UInt32) (writeData : UInt8) : List ℕ :=
  [rw.code, fn.number, 0, 0, address.toNat, writeData.toNat]

/-- What the fields of a CMD53 argument should hold. -/
def cmd53Values (rw : SdioRw) (fn : SdioFunction) (mode : SdioMode) (address : UInt32)
    (count : UInt16) : List ℕ :=
  [rw.code, fn.number, SdioOpcode.incAddr.code, mode.code, address.toNat, count.toNat]

/-! ## The arguments as packed words -/

theorem toNat_shiftLeft_of_lt {value shift : UInt32} (shiftLt : shift.toNat < 32)
    (fits : value.toNat <<< shift.toNat < 4294967296) :
    (value <<< shift).toNat = value.toNat <<< shift.toNat := by
  rw [UInt32.toNat_shiftLeft, Nat.mod_eq_of_lt shiftLt]
  exact Nat.mod_eq_of_lt fits

theorem SdioRw.toNat_value (rw : SdioRw) : rw.value.toNat = directionField.place rw.code := by
  cases rw <;> rfl

theorem SdioRw.code_fits (rw : SdioRw) : directionField.Fits rw.code := by
  cases rw <;> decide

theorem SdioFunction.toNat_value (fn : SdioFunction) :
    fn.value.toNat = functionField.place fn.number := by
  cases fn <;> rfl

theorem SdioFunction.number_fits (fn : SdioFunction) : functionField.Fits fn.number := by
  cases fn <;> decide

theorem SdioMode.toNat_value (mode : SdioMode) : mode.value.toNat = modeField.place mode.code := by
  cases mode <;> rfl

theorem SdioMode.code_fits (mode : SdioMode) : modeField.Fits mode.code := by
  cases mode <;> decide

theorem SdioOpcode.toNat_value (opcode : SdioOpcode) :
    opcode.value.toNat = opcodeField.place opcode.code := by
  cases opcode <;> rfl

theorem SdioOpcode.code_fits (opcode : SdioOpcode) : opcodeField.Fits opcode.code := by
  cases opcode <;> decide

/-- The address is shifted without losing a bit. -/
theorem toNat_address {address : UInt32} (fits : addressField.Fits address.toNat) :
    (address <<< mmhalSdioAddressOffset).toNat = addressField.place address.toNat := by
  refine toNat_shiftLeft_of_lt (by decide) ?_
  have lt : address.toNat < 131072 := fits
  show address.toNat <<< 9 < 4294967296
  rw [Nat.shiftLeft_eq]
  omega

theorem toNat_mmhalMakeCmd52Arg (rw : SdioRw) (fn : SdioFunction) {address : UInt32}
    (writeData : UInt8) (fits : addressField.Fits address.toNat) :
    (mmhalMakeCmd52Arg rw fn address writeData).toNat =
      pack cmd52Layout (cmd52Values rw fn address writeData) := by
  have data : (writeData.toUInt32 <<< mmhalSdioCmd52DataOffset).toNat =
      dataField.place writeData.toNat := by
    have lt := writeData.toNat_lt
    exact toNat_shiftLeft_of_lt (by decide) (by show writeData.toNat < 4294967296; omega)
  rw [mmhalMakeCmd52Arg, UInt32.toNat_or, UInt32.toNat_or, UInt32.toNat_or, rw.toNat_value,
    fn.toNat_value, toNat_address fits, data]
  show _ = directionField.place rw.code ||| (functionField.place fn.number ||| (0 ||| (0 |||
    (addressField.place address.toNat ||| (dataField.place writeData.toNat ||| 0)))))
  rw [Nat.zero_or, Nat.zero_or, Nat.or_zero, Nat.or_assoc, Nat.or_assoc]

theorem toNat_mmhalMakeCmd53Arg (rw : SdioRw) (fn : SdioFunction) (mode : SdioMode)
    {address : UInt32} (count : UInt16) (fits : addressField.Fits address.toNat) :
    (mmhalMakeCmd53Arg rw fn mode address count).toNat =
      pack cmd53Layout (cmd53Values rw fn mode address count) := by
  have counted : (count.toUInt32 <<< mmhalSdioCountOffset).toNat =
      countField.place count.toNat := by
    have lt := count.toNat_lt
    exact toNat_shiftLeft_of_lt (by decide) (by show count.toNat < 4294967296; omega)
  rw [mmhalMakeCmd53Arg, UInt32.toNat_or, UInt32.toNat_or, UInt32.toNat_or, UInt32.toNat_or,
    UInt32.toNat_or, rw.toNat_value, fn.toNat_value, mode.toNat_value, SdioOpcode.toNat_value,
    toNat_address fits, counted]
  show _ = directionField.place rw.code ||| (functionField.place fn.number |||
    (opcodeField.place SdioOpcode.incAddr.code ||| (modeField.place mode.code |||
      (addressField.place address.toNat ||| (countField.place count.toNat ||| 0)))))
  rw [Nat.or_zero, Nat.or_assoc, Nat.or_assoc, Nat.or_assoc, Nat.or_assoc]

/-! ## What the arguments decode to -/

theorem cmd52Values_fit_iff (rw : SdioRw) (fn : SdioFunction) (address : UInt32)
    (writeData : UInt8) :
    List.Forall₂ Fits cmd52Layout (cmd52Values rw fn address writeData) ↔
      addressField.Fits address.toNat := by
  have zero : opcodeField.Fits 0 ∧ modeField.Fits 0 := by decide
  have data : dataField.Fits writeData.toNat := writeData.toNat_lt
  simp only [cmd52Layout, cmd52Values, List.forall₂_cons, List.forall₂_nil_left_iff, rw.code_fits,
    fn.number_fits, zero, data, true_and, and_true]

theorem cmd53Values_fit_iff (rw : SdioRw) (fn : SdioFunction) (mode : SdioMode)
    (address : UInt32) (count : UInt16) :
    List.Forall₂ Fits cmd53Layout (cmd53Values rw fn mode address count) ↔
      addressField.Fits address.toNat ∧ countField.Fits count.toNat := by
  simp only [cmd53Layout, cmd53Values, List.forall₂_cons, List.forall₂_nil_left_iff, rw.code_fits,
    fn.number_fits, mode.code_fits, SdioOpcode.code_fits, true_and, and_true]

/-- The arguments of CMD52 and CMD53 decode to what was given for an address of 17 bits and, for
CMD53, a count of 9 bits, and for no other. -/
theorem makeArgs_decode_iff (rw : SdioRw) (fn : SdioFunction) (mode : SdioMode) (address : UInt32)
    (count : UInt16) (writeData : UInt8) :
    (unpack cmd52Layout (mmhalMakeCmd52Arg rw fn address writeData).toNat =
        cmd52Values rw fn address writeData ↔
      addressField.Fits address.toNat) ∧
    (unpack cmd53Layout (mmhalMakeCmd53Arg rw fn mode address count).toNat =
        cmd53Values rw fn mode address count ↔
      addressField.Fits address.toNat ∧ countField.Fits count.toNat) := by
  have apart52 : cmd52Layout.Pairwise Apart := by decide
  have apart53 : cmd53Layout.Pairwise Apart := by decide
  constructor
  · rw [← cmd52Values_fit_iff rw fn address writeData]
    refine unpack_eq_iff apart52 fun fits => ?_
    exact toNat_mmhalMakeCmd52Arg rw fn writeData ((cmd52Values_fit_iff ..).mp fits)
  · rw [← cmd53Values_fit_iff rw fn mode address count]
    refine unpack_eq_iff apart53 fun fits => ?_
    exact toNat_mmhalMakeCmd53Arg rw fn mode count ((cmd53Values_fit_iff ..).mp fits).1

/-- A count of 512 is within the maximum, and decodes to the count 0 at the next address. -/
theorem makeArgs_decode_fails :
    ¬∀ (rw : SdioRw) (fn : SdioFunction) (mode : SdioMode) (address : UInt32) (count : UInt16)
      (writeData : UInt8), address ≤ mmhalSdioAddressMax → count.toUInt32 ≤ mmhalSdioCountMax →
      unpack cmd52Layout (mmhalMakeCmd52Arg rw fn address writeData).toNat =
          cmd52Values rw fn address writeData ∧
        unpack cmd53Layout (mmhalMakeCmd53Arg rw fn mode address count).toNat =
          cmd53Values rw fn mode address count := by
  intro decodes
  have decoded := (decodes .read .function1 .byte 0 512 0 (by decide) (by decide)).2
  revert decoded
  decide

/-! ## Beyond the widths -/

theorem or_shiftLeft (a b k : UInt32) : (a ||| b) <<< k = a <<< k ||| b <<< k := by
  rw [← UInt32.toBitVec_inj, UInt32.toBitVec_shiftLeft, UInt32.toBitVec_or, UInt32.toBitVec_or,
    UInt32.toBitVec_shiftLeft, UInt32.toBitVec_shiftLeft]
  exact BitVec.shiftLeft_or_distrib _ _ _

/-- The address bit that only the maximum allows falls on the op code. -/
theorem address_spill (address : UInt32) :
    (address ||| 0x20000) <<< mmhalSdioAddressOffset =
      address <<< mmhalSdioAddressOffset ||| SdioOpcode.incAddr.value := by
  rw [or_shiftLeft]
  rfl

/-- In CMD52, it sets the bit that is not used. -/
theorem mmhalMakeCmd52Arg_address_spill (rw : SdioRw) (fn : SdioFunction) (address : UInt32)
    (writeData : UInt8) :
    mmhalMakeCmd52Arg rw fn (address ||| 0x20000) writeData =
      mmhalMakeCmd52Arg rw fn address writeData ||| SdioOpcode.incAddr.value := by
  rw [mmhalMakeCmd52Arg, mmhalMakeCmd52Arg, address_spill]
  ac_rfl

/-- In CMD53, where the op code is set already, the command is the one for the address without
it. -/
theorem mmhalMakeCmd53Arg_address_spill (rw : SdioRw) (fn : SdioFunction) (mode : SdioMode)
    (address : UInt32) (count : UInt16) :
    mmhalMakeCmd53Arg rw fn mode (address ||| 0x20000) count =
      mmhalMakeCmd53Arg rw fn mode address count := by
  have twice (arg : UInt32) : SdioOpcode.incAddr.value ||| (SdioOpcode.incAddr.value ||| arg) =
      SdioOpcode.incAddr.value ||| arg := by
    rw [← UInt32.or_assoc, UInt32.or_self]
  rw [mmhalMakeCmd53Arg, mmhalMakeCmd53Arg, address_spill]
  calc _ = SdioOpcode.incAddr.value ||| (SdioOpcode.incAddr.value ||| (rw.value ||| fn.value |||
        mode.value ||| address <<< mmhalSdioAddressOffset |||
          count.toUInt32 <<< mmhalSdioCountOffset)) := by ac_rfl
    _ = _ := by
        rw [twice]
        ac_rfl

/-- The count bit that only the maximum allows falls on the lowest bit of the address. -/
theorem mmhalMakeCmd53Arg_count_spill (rw : SdioRw) (fn : SdioFunction) (mode : SdioMode)
    (address : UInt32) (count : UInt16) :
    mmhalMakeCmd53Arg rw fn mode address (count ||| 0x200) =
      mmhalMakeCmd53Arg rw fn mode (address ||| 1) count := by
  have lowest : (0x200 : UInt32) <<< mmhalSdioCountOffset = 1 <<< mmhalSdioAddressOffset := rfl
  have counted : (count ||| 0x200).toUInt32 = count.toUInt32 ||| 0x200 := rfl
  rw [mmhalMakeCmd53Arg, mmhalMakeCmd53Arg, counted, or_shiftLeft, or_shiftLeft, lowest]
  ac_rfl

end HalowBridge.Sdio
