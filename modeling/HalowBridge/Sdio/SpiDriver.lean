import HalowBridge.Lib.Keystream
import HalowBridge.Lib.Routine
import HalowBridge.Mmutils.Crc
import HalowBridge.Sdio.Arguments

/-!
# SDIO over SPI

The transfers of `sdio_spi.c` on any transceiver: a `SpiBus` says what it does when it is selected,
deselected and when a byte is exchanged with it, and a routine moves its state and the memory of the
host. The C driver prints a text where it fails, which is left out.

A function that returns a code other than `RC_SUCCESS` stops with it. Failed assertions, accesses
outside the CRC-7 table and loops that outlast their fuel halt a routine for good: nothing behind
the label `exit` is done.
-/

namespace HalowBridge.Sdio

open Keystream Mmutils

/-- `enum sdio_spi_rc` but for `RC_SUCCESS`, and the -1 some results start with. -/
inductive SdioSpiRc where
  | unspecifiedError
  | deviceNotReady
  | invalidResponse
  | invalidResponseData
  | invalidCrcRecieved
  | responseTimeout
  | invalidInput
  | minusOne
  deriving DecidableEq

/-- Why a routine stops. -/
inductive Stop where
  | exit (rc : SdioSpiRc)
  | assertion
  | outOfBounds
  | outOfFuel
  deriving DecidableEq

def Stop.halts : Stop → Bool
  | exit _ => false
  | _ => true

/-- A transceiver on the bus. A byte is exchanged without a MOSI phase where the host has none to
send. -/
structure SpiBus (σ : Type) where
  csAssert : σ → σ
  csDeassert : σ → σ
  exchange : σ → (mosi : Option UInt8) → UInt8 × σ

/-- The memory of the host, and the transceiver. -/
structure World (σ : Type) where
  mem : ℕ → UInt8
  device : σ

abbrev Spi (σ α : Type) : Type := Routine (World σ) Stop α

/-- `goto exit` with a code. -/
abbrev fail {σ α : Type} (rc : SdioSpiRc) : Spi σ α := .stop (.exit rc)

/-- `MMOSAL_ASSERT` -/
abbrev mmosalAssert {σ : Type} (condition : Prop) [Decidable condition] : Spi σ Unit :=
  .require condition .assertion

/-- The bytes from an address on. -/
def load (mem : ℕ → UInt8) (addr n : ℕ) : List UInt8 := (List.range n).map fun i => mem (addr + i)

/-- `memcpy` to the memory of the host. -/
def copyTo {σ : Type} (addr : ℕ) (bytes : List UInt8) : Spi σ Unit :=
  .modify fun w => { w with mem := store w.mem addr bytes }

/-! ## Constants -/

/-- `MORSE_REG_ADDRESS_WINDOW_0` -/
def morseRegAddressWindow0 : UInt32 := 0x10000

/-- `MORSE_REG_ADDRESS_WINDOW_1` -/
def morseRegAddressWindow1 : UInt32 := morseRegAddressWindow0 + 1

/-- `MORSE_REG_ADDRESS_CONFIG` -/
def morseRegAddressConfig : UInt32 := morseRegAddressWindow0 + 2

/-- `MORSE_CONFIG_ACCESS_4BYTE` -/
def morseConfigAccess4Byte : UInt8 := 2

/-- `MAX_BUS_ATTEMPTS` -/
def maxBusAttempts : ℕ := 200

/-- `enum block_size`, by the function that has it. -/
inductive BlockSize where
  | fn1
  | fn2

def BlockSize.value : BlockSize → ℕ
  | fn1 => 8
  | fn2 => 512

def BlockSize.log2 : BlockSize → ℕ
  | fn1 => 3
  | fn2 => 9

/-- `MAX_BLOCK_TRANSFER_SIZE_FN2`, 128 blocks. -/
def maxBlockTransferSizeFn2 : UInt32 := 65536

/-- `SDIO_SPI_TKN_MULTI_WRITE` -/
def tknMultiWrite : UInt8 := 0xfc

/-- `SDIO_SPI_TKN_READ_SINGLE_WRITE` -/
def tknReadSingleWrite : UInt8 := 0xfe

/-- `SDIO_SPI_TKN_STOP_TRANSACTION` -/
def tknStopTransaction : UInt8 := 0xfd

/-- `SDIO_SPI_TKN_DATA_RSP_ACCEPTED` -/
def tknDataRspAccepted : UInt8 := (0xe1 : UInt8) ||| (0x02 : UInt8) <<< 1

/-- `SDIO_SPI_TKN_DATA_RSP_REJ_CRC` -/
def tknDataRspRejCrc : UInt8 := (0xe1 : UInt8) ||| (0x05 : UInt8) <<< 1

/-! ## Checksums -/

set_option maxRecDepth 2048 in
def crc7LookupTable : Vector UInt8 256 := #v[
  0x00, 0x09, 0x12, 0x1b, 0x24, 0x2d, 0x36, 0x3f, 0x48, 0x41, 0x5a, 0x53, 0x6c, 0x65, 0x7e, 0x77,
  0x19, 0x10, 0x0b, 0x02, 0x3d, 0x34, 0x2f, 0x26, 0x51, 0x58, 0x43, 0x4a, 0x75, 0x7c, 0x67, 0x6e,
  0x32, 0x3b, 0x20, 0x29, 0x16, 0x1f, 0x04, 0x0d, 0x7a, 0x73, 0x68, 0x61, 0x5e, 0x57, 0x4c, 0x45,
  0x2b, 0x22, 0x39, 0x30, 0x0f, 0x06, 0x1d, 0x14, 0x63, 0x6a, 0x71, 0x78, 0x47, 0x4e, 0x55, 0x5c,
  0x64, 0x6d, 0x76, 0x7f, 0x40, 0x49, 0x52, 0x5b, 0x2c, 0x25, 0x3e, 0x37, 0x08, 0x01, 0x1a, 0x13,
  0x7d, 0x74, 0x6f, 0x66, 0x59, 0x50, 0x4b, 0x42, 0x35, 0x3c, 0x27, 0x2e, 0x11, 0x18, 0x03, 0x0a,
  0x56, 0x5f, 0x44, 0x4d, 0x72, 0x7b, 0x60, 0x69, 0x1e, 0x17, 0x0c, 0x05, 0x3a, 0x33, 0x28, 0x21,
  0x4f, 0x46, 0x5d, 0x54, 0x6b, 0x62, 0x79, 0x70, 0x07, 0x0e, 0x15, 0x1c, 0x23, 0x2a, 0x31, 0x38,
  0x41, 0x48, 0x53, 0x5a, 0x65, 0x6c, 0x77, 0x7e, 0x09, 0x00, 0x1b, 0x12, 0x2d, 0x24, 0x3f, 0x36,
  0x58, 0x51, 0x4a, 0x43, 0x7c, 0x75, 0x6e, 0x67, 0x10, 0x19, 0x02, 0x0b, 0x34, 0x3d, 0x26, 0x2f,
  0x73, 0x7a, 0x61, 0x68, 0x57, 0x5e, 0x45, 0x4c, 0x3b, 0x32, 0x29, 0x20, 0x1f, 0x16, 0x0d, 0x04,
  0x6a, 0x63, 0x78, 0x71, 0x4e, 0x47, 0x5c, 0x55, 0x22, 0x2b, 0x30, 0x39, 0x06, 0x0f, 0x14, 0x1d,
  0x25, 0x2c, 0x37, 0x3e, 0x01, 0x08, 0x13, 0x1a, 0x6d, 0x64, 0x7f, 0x76, 0x49, 0x40, 0x5b, 0x52,
  0x3c, 0x35, 0x2e, 0x27, 0x18, 0x11, 0x0a, 0x03, 0x74, 0x7d, 0x66, 0x6f, 0x50, 0x59, 0x42, 0x4b,
  0x17, 0x1e, 0x05, 0x0c, 0x33, 0x3a, 0x21, 0x28, 0x5f, 0x56, 0x4d, 0x44, 0x7b, 0x72, 0x69, 0x60,
  0x0e, 0x07, 0x1c, 0x15, 0x2a, 0x23, 0x38, 0x31, 0x46, 0x4f, 0x54, 0x5d, 0x62, 0x6b, 0x70, 0x79]

/-- `morse_crc7`, or nothing where the index leaves the table: it is an `int`, and may have nine
bits. -/
def morseCrc7 (crc : UInt8) : List UInt8 → Option UInt8
  | [] => some crc
  | d :: data => do
      let crc ← crc7LookupTable[crc.toNat <<< 1 ^^^ d.toNat]?
      morseCrc7 crc data

/-- `morse_crc16`: the same loop over the same table as that of `mmcrc_16_xmodem`. -/
def morseCrc16 (crc : UInt16) (data : List UInt8) : UInt16 := mmcrc16Xmodem crc data

section

variable {σ : Type} (bus : SpiBus σ)

/-! ## The bus -/

/-- `mmhal_wlan_spi_cs_assert` -/
def mmhalWlanSpiCsAssert : Spi σ Unit := .modify fun w => { w with device := bus.csAssert w.device }

/-- `mmhal_wlan_spi_cs_deassert` -/
def mmhalWlanSpiCsDeassert : Spi σ Unit :=
  .modify fun w => { w with device := bus.csDeassert w.device }

/-- A byte is exchanged. -/
def exchange (mosi : Option UInt8) : Spi σ UInt8 := fun w =>
  let (readval, device) := bus.exchange w.device mosi
  (.ok readval, { w with device })

/-- `mmhal_wlan_spi_rw` -/
def mmhalWlanSpiRw (data : UInt8) : Spi σ UInt8 := exchange bus (some data)

/-- The bytes of a transaction without a MOSI phase. -/
def readBytes : ℕ → Spi σ (List UInt8)
  | 0 => pure []
  | n + 1 => do
      let first ← exchange bus none
      let rest ← readBytes n
      pure (first :: rest)

/-- `mmhal_wlan_spi_read_buf` -/
def mmhalWlanSpiReadBuf (buf len : ℕ) : Spi σ Unit := do
  let bytes ← readBytes bus len
  copyTo buf bytes

/-- `mmhal_wlan_spi_write_buf` -/
def mmhalWlanSpiWriteBuf : (buf : List UInt8) → Spi σ Unit
  | [] => pure ()
  | b :: buf => do
      let _ ← exchange bus (some b)
      mmhalWlanSpiWriteBuf buf

/-- `morse_receive_spi` -/
def morseReceiveSpi : Spi σ UInt8 := mmhalWlanSpiRw bus 0xff

/-- The loop of `morse_wait_ready`. -/
def waitReadyLoop : (attempt : ℕ) → Spi σ Bool
  | 0 => pure false
  | attempt + 1 => do
      let result ← morseReceiveSpi bus
      if result = 0xff then pure true else waitReadyLoop attempt

/-- `morse_wait_ready` -/
def morseWaitReady : Spi σ Bool := waitReadyLoop bus maxBusAttempts

/-! ## Commands -/

/-- `UNPACK_BE32` -/
def unpackBe32 (src : UInt32) : List UInt8 :=
  [(src >>> 24).toUInt8, (src >>> 16).toUInt8, (src >>> 8).toUInt8, src.toUInt8]

/-- The command packet, or nothing where its CRC cannot be computed. -/
def commandPacket (cmdIdx : UInt8) (arg : UInt32) : Option (List UInt8) := do
  let buf := (cmdIdx ||| 0x40) :: unpackBe32 arg
  if cmdIdx = 52 ∨ cmdIdx = 53 then
    let crc ← morseCrc7 0x00 buf
    some (buf ++ [crc <<< 1 ||| 0x1])
  else some (buf ++ [0xff])

/-- The loop that waits for a valid status byte: the status and the data of the response. -/
def responseLoop (rsp : Option ℕ) : (attempts : ℕ) → (status data : UInt8) → Spi σ (UInt8 × UInt8)
  | 0, status, data => pure (status, data)
  | attempts + 1, _, data => do
      let status := data
      let data ← morseReceiveSpi bus
      match rsp with
      | some rsp => copyTo rsp [status]
      | none => pure ()
      if status ≠ 0xff then pure (status, data) else responseLoop rsp attempts status data

/-- `sdio_spi_send_cmd` -/
def sdioSpiSendCmd (cmdIdx : UInt8) (arg : UInt32) (rsp : Option ℕ) : Spi σ Unit := do
  mmhalWlanSpiCsAssert bus
  Routine.atExit Stop.halts
    (do
      if cmdIdx ≠ 63 then
        let ready ← morseWaitReady bus
        Routine.require (ready = true) (.exit .deviceNotReady)
      match commandPacket cmdIdx arg with
      | none => Routine.stop .outOfBounds
      | some buf => mmhalWlanSpiWriteBuf bus buf
      let data ← morseReceiveSpi bus
      let (status, data) ← responseLoop bus rsp maxBusAttempts 0xff data
      Routine.require (¬(cmdIdx = 53 ∧ data ≠ 0x00)) (.exit .invalidResponseData)
      Routine.require (status = 0x00) (.exit .invalidResponse))
    (mmhalWlanSpiCsDeassert bus)

/-- `morse_cmd53_send_cmd` -/
def morseCmd53SendCmd (rwFlag : SdioRw) (function : SdioFunction) (mode : SdioMode)
    (address : UInt32) (count : UInt16) : Spi σ Unit := do
  let arg := rwFlag.value ||| function.value ||| mode.value ||| SdioOpcode.incAddr.value
  mmosalAssert (address ≤ mmhalSdioAddressMax)
  mmosalAssert (count.toUInt32 ≤ mmhalSdioCountMax)
  let arg := arg ||| address <<< mmhalSdioAddressOffset
  let arg := arg ||| count.toUInt32 <<< mmhalSdioCountOffset
  sdioSpiSendCmd bus 53 arg none

/-- `morse_cmd52_write` -/
def morseCmd52Write (address : UInt32) (data : UInt8) (function : SdioFunction) : Spi σ Unit := do
  let arg := SdioRw.write.value ||| function.value ||| SdioMode.byte.value
  mmosalAssert (address ≤ mmhalSdioAddressMax)
  let arg := arg ||| address <<< mmhalSdioAddressOffset
  let arg := arg ||| data.toUInt32 <<< mmhalSdioCmd52DataOffset
  sdioSpiSendCmd bus 52 arg none

/-- `morse_address_base_set` -/
def morseAddressBaseSet (address : UInt32) (access : UInt8) (function : SdioFunction) :
    Spi σ Unit := do
  let address := address &&& 0xffff0000
  mmosalAssert (access ≤ morseConfigAccess4Byte)
  morseCmd52Write bus morseRegAddressWindow0 (address >>> 16).toUInt8 function
  morseCmd52Write bus morseRegAddressWindow1 (address >>> 24).toUInt8 function
  morseCmd52Write bus morseRegAddressConfig access function

/-! ## Data -/

/-- The loop that waits for the start of a block: the last byte it received. -/
def startTokenLoop : (attempts : ℕ) → (rcvData : UInt8) → Spi σ UInt8
  | 0, rcvData => pure rcvData
  | attempts + 1, _ => do
      let rcvData ← morseReceiveSpi bus
      if rcvData = tknReadSingleWrite then pure rcvData else startTokenLoop attempts rcvData

/-- The loop of `morse_cmd53_get_data` over the blocks. -/
def getDataLoop (blockSize : BlockSize) (byteCnt : UInt16) (data : ℕ) : Spi σ Unit :=
  if byteCnt = 0 then pure ()
  else do
    let rcvData ← startTokenLoop bus maxBusAttempts 0
    Routine.require (rcvData = tknReadSingleWrite) (.exit .responseTimeout)
    let size := min byteCnt.toNat blockSize.value
    mmhalWlanSpiReadBuf bus data size
    let high ← morseReceiveSpi bus
    let low ← morseReceiveSpi bus
    let rxCrc16 := high.toUInt16 <<< 8 ||| low.toUInt16
    let w ← Routine.get
    let crc16 := morseCrc16 0 (load w.mem data size)
    Routine.require (crc16 = rxCrc16) (.exit .invalidCrcRecieved)
    getDataLoop blockSize (byteCnt - UInt16.ofNat size) (data + size)
termination_by byteCnt.toNat
decreasing_by
  rename_i more
  -- A block has a byte at least, and no more than are left.
  have positive := Nat.pos_of_ne_zero fun zero => more (UInt16.toNat_inj.mp zero)
  have block : 0 < blockSize.value := by cases blockSize <;> decide
  have lt : min byteCnt.toNat blockSize.value < UInt16.size :=
    Nat.lt_of_le_of_lt (Nat.min_le_left _ _) byteCnt.toNat_lt
  have size : (UInt16.ofNat (min byteCnt.toNat blockSize.value)).toNat =
      min byteCnt.toNat blockSize.value := UInt16.toNat_ofNat_of_lt lt
  rw [UInt16.toNat_sub_of_le _ _ (UInt16.le_iff_toNat_le.mpr (by omega)), size]
  omega

/-- `morse_cmd53_get_data` -/
def morseCmd53GetData (byteCnt : UInt16) (data : ℕ) (blockSize : BlockSize) : Spi σ Unit := do
  mmhalWlanSpiCsAssert bus
  Routine.atExit Stop.halts (getDataLoop bus blockSize byteCnt data) (mmhalWlanSpiCsDeassert bus)

/-- `morse_test_data_rsp_token` -/
def morseTestDataRspToken (token : UInt8) : Spi σ Unit :=
  .require (token = tknDataRspAccepted) (.exit .invalidResponse)

/-- The loop that waits for the response to a block: the last byte it received. -/
def dataResponseLoop : (attempts : ℕ) → (rcvData : UInt8) → Spi σ UInt8
  | 0, rcvData => pure rcvData
  | attempts + 1, _ => do
      let rcvData ← morseReceiveSpi bus
      if rcvData ≠ 0xff then pure rcvData else dataResponseLoop attempts rcvData

/-- A block of `morse_cmd53_put_data`. -/
def putBlock (startTkn : UInt8) (data size : ℕ) : Spi σ Unit := do
  let w ← Routine.get
  let block := load w.mem data size
  let crc16 := morseCrc16 0 block
  let busReady ← morseWaitReady bus
  Routine.require (busReady = true) (.exit .unspecifiedError)
  let _ ← mmhalWlanSpiRw bus startTkn
  mmhalWlanSpiWriteBuf bus block
  let _ ← mmhalWlanSpiRw bus (crc16 >>> 8).toUInt8
  let _ ← mmhalWlanSpiRw bus crc16.toUInt8
  let rcvData ← dataResponseLoop bus 4 0
  morseTestDataRspToken rcvData

/-- The loop of `morse_cmd53_put_data` in block mode. -/
def putBlocks (startTkn : UInt8) (blockSize : BlockSize) : (cnt data : ℕ) → Spi σ Unit
  | 0, _ => pure ()
  | cnt + 1, data => do
      putBlock bus startTkn data blockSize.value
      putBlocks startTkn blockSize cnt (data + blockSize.value)

/-- The loop of `morse_cmd53_put_data`: in byte mode it has one round at most, and its result
without a round is the one it starts with. -/
def putDataLoop (startTkn : UInt8) (cnt : UInt16) (data : ℕ) (mode : SdioMode)
    (blockSize : BlockSize) : Spi σ Unit :=
  if cnt = 0 then fail .unspecifiedError
  else
    match mode with
    | .block => putBlocks bus startTkn blockSize cnt.toNat data
    | .byte => do
        mmosalAssert (cnt.toNat ≤ blockSize.value)
        putBlock bus startTkn data cnt.toNat

/-- `morse_cmd53_put_data` -/
def morseCmd53PutData (cnt : UInt16) (data : ℕ) (mode : SdioMode) (blockSize : BlockSize) :
    Spi σ Unit := do
  let startTkn :=
    match mode with
    | .block => if cnt > 1 then tknMultiWrite else tknReadSingleWrite
    | .byte => tknReadSingleWrite
  mmhalWlanSpiCsAssert bus
  Routine.atExit Stop.halts (putDataLoop bus startTkn cnt data mode blockSize) (do
    if startTkn = tknMultiWrite then
      let _ ← mmhalWlanSpiRw bus tknStopTransaction
    let _ ← morseWaitReady bus
    mmhalWlanSpiCsDeassert bus)

/-- The block size of a function. -/
def blockSizeOf : SdioFunction → BlockSize
  | .function1 => .fn1
  | _ => .fn2

/-- `morse_cmd53_read` -/
def morseCmd53Read (function : SdioFunction) (address : UInt32) (data : ℕ) (len : UInt32) :
    Spi σ Unit := do
  let blockSize := blockSizeOf function
  let numBlocks := UInt16.ofNat (len.toNat >>> blockSize.log2)
  let transferSize : UInt32 :=
    if numBlocks > 0 then UInt32.ofNat (numBlocks.toNat * blockSize.value) else 0
  if numBlocks > 0 then
    morseCmd53SendCmd bus .read function .block (address &&& 0x0000ffff) numBlocks
    morseCmd53GetData bus transferSize.toUInt16 data blockSize
  let rest := len - transferSize
  if rest > 0 then
    morseCmd53SendCmd bus .read function .byte ((address + transferSize) &&& 0x0000ffff)
      rest.toUInt16
    morseCmd53GetData bus rest.toUInt16 (data + transferSize.toNat) blockSize
  Routine.require (¬(numBlocks = 0 ∧ rest = 0)) (.exit .minusOne)

/-- `morse_cmd53_write` -/
def morseCmd53Write (function : SdioFunction) (address : UInt32) (data : ℕ) (len : UInt32) :
    Spi σ Unit := do
  let blockSize := blockSizeOf function
  let numBlocks := UInt16.ofNat (len.toNat >>> blockSize.log2)
  let transferSize : UInt32 :=
    if numBlocks > 0 then UInt32.ofNat (numBlocks.toNat * blockSize.value) else 0
  if numBlocks > 0 then
    morseCmd53SendCmd bus .write function .block (address &&& 0x0000ffff) numBlocks
    morseCmd53PutData bus numBlocks data .block blockSize
  let rest := len - transferSize
  if rest > 0 then
    morseCmd53SendCmd bus .write function .byte ((address + transferSize) &&& 0x0000ffff)
      rest.toUInt16
    morseCmd53PutData bus rest.toUInt16 (data + transferSize.toNat) .byte blockSize
  Routine.require (¬(numBlocks = 0 ∧ rest = 0)) (.exit .unspecifiedError)

/-! ## Transfers -/

/-- The bytes to transfer next: no more than a transfer may have, and none behind a 64K boundary. -/
def transferSize (address len : UInt32) : UInt32 :=
  let size := if maxBlockTransferSizeFn2 < len then maxBlockTransferSizeFn2 else len
  let nextBoundary := (address &&& 0xffff0000) + 0x10000
  if address + size > nextBoundary then nextBoundary - address else size

/-- A round of the loop of `sdio_spi_read_multi_byte`. -/
def readRound (address : UInt32) (data : ℕ) (size : UInt32) : Spi σ Unit := do
  morseAddressBaseSet bus address morseConfigAccess4Byte .function2
  morseCmd53Read bus .function2 address data size
  let w ← Routine.get
  -- The first word is the same as the second: the two are read again.
  if load w.mem data 4 = load w.mem (data + 4) 4 then
    morseCmd53Read bus .function2 address data 8

/-- The loop of `sdio_spi_read_multi_byte`. -/
def readLoop : (fuel : ℕ) → (address : UInt32) → (data : ℕ) → (len : UInt32) → Spi σ Unit
  | 0, _, _, _ => .stop .outOfFuel
  | fuel + 1, address, data, len =>
      if len = 0 then pure ()
      else do
        let size := transferSize address len
        readRound bus address data size
        readLoop fuel (address + size) (data + size.toNat) (len - size)

/-- `sdio_spi_read_multi_byte` -/
def sdioSpiReadMultiByte (fuel : ℕ) (address : UInt32) (data : ℕ) (len : UInt32) :
    Spi σ Unit := do
  Routine.require (¬(len = 0 ∨ len &&& 0x03 ≠ 0)) (.exit .invalidInput)
  readLoop bus fuel address data len

/-- A round of the loop of `sdio_spi_write_multi_byte`. The result of the write is not looked at. -/
def writeRound (address : UInt32) (data : ℕ) (size : UInt32) : Spi σ Unit := do
  morseAddressBaseSet bus address morseConfigAccess4Byte .function2
  Routine.ignore Stop.halts (morseCmd53Write bus .function2 address data size)

/-- The loop of `sdio_spi_write_multi_byte`. -/
def writeLoop : (fuel : ℕ) → (address : UInt32) → (data : ℕ) → (len : UInt32) → Spi σ Unit
  | 0, _, _, _ => .stop .outOfFuel
  | fuel + 1, address, data, len =>
      if len = 0 then pure ()
      else do
        let size := transferSize address len
        writeRound bus address data size
        writeLoop fuel (address + size) (data + size.toNat) (len - size)

/-- `sdio_spi_write_multi_byte` -/
def sdioSpiWriteMultiByte (fuel : ℕ) (address : UInt32) (data : ℕ) (len : UInt32) :
    Spi σ Unit := do
  Routine.require (¬(len = 0 ∨ len &&& 0x03 ≠ 0)) (.exit .invalidInput)
  writeLoop bus fuel address data len

/-- `sdio_spi_read_le32`, to the local bytes at `receiveData`: the number. -/
def sdioSpiReadLe32 (address : UInt32) (receiveData : ℕ) : Spi σ UInt32 := do
  morseAddressBaseSet bus address morseConfigAccess4Byte .function1
  morseCmd53Read bus .function1 address receiveData 4
  let w ← Routine.get
  let byte (i : ℕ) : UInt32 := (w.mem (receiveData + i)).toUInt32
  pure (byte 0 ||| byte 1 <<< 8 ||| byte 2 <<< 16 ||| byte 3 <<< 24)

end

end HalowBridge.Sdio
