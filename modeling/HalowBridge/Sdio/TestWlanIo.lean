import HalowBridge.Sdio.CardTransfers

/-!
# The test steps on the driver

The steps of `test_wlan_io.c` that read the chip id and that write a packet and read it back. The
texts for the log are left out.

With a card, the packet is there in the end and the step passes, whatever was in the two buffers. On
the bus of any device, the verdict depends on nothing but what is in the second buffer at the end:
the function that judges the return codes takes each of them for a good one.
-/

namespace HalowBridge.Sdio

open BitField Keystream Mmutils Routine

/-- `MM6108_REG_CHIP_ID` -/
def mm6108RegChipId : UInt32 := 0x10054d20

/-- `MM6108_BENCHMARK_ADDR_START` -/
def mm6108BenchmarkAddrStart : UInt32 := 0x80100000

/-- `BULK_RW_PACKET_LEN_BYTES` -/
def bulkRwPacketLenBytes : UInt32 := 1496

def validChipIds : List UInt32 := [0x206, 0x306, 0x406]

/-- `enum test_result` -/
inductive TestResult where
  | noResult
  | passed
  | skipped
  | failed
  | failedNonCritical
  deriving DecidableEq

def TestResult.value : TestResult → ℕ
  | noResult => 0
  | passed => 1
  | skipped => 2
  | failed => 3
  | failedNonCritical => 4

/-- `valid_chip_id` -/
def validChipId (chipId : UInt32) : Bool := validChipIds.contains chipId

/-- `process_sdio_spi_multi_byte_return`. The result of the failing branches is of another type, and
made a `bool`. -/
def processSdioSpiMultiByteReturn : Except Stop Unit → Bool
  | .ok _ => true
  | .error _ => decide (TestResult.failed.value ≠ 0)

section

variable {σ : Type}

/-- The loop of `populate_buffer`. -/
def populateLoop (data : ℕ) : (length : ℕ) → (value : UInt8) → Spi σ Unit
  | 0, _ => pure ()
  | length + 1, value => do
      copyTo (data + length) [value]
      populateLoop data length (value + 1)

/-- `populate_buffer` -/
def populateBuffer (data : ℕ) (length : UInt32) : Spi σ Unit := populateLoop data length.toNat 0

/-- The loop of `valid_buffer`. -/
def validLoop (mem : ℕ → UInt8) (data : ℕ) : (length : ℕ) → (value : UInt8) → Bool
  | 0, _ => true
  | length + 1, value =>
      if mem (data + length) ≠ value then false else validLoop mem data length (value + 1)

/-- `valid_buffer` -/
def validBuffer (mem : ℕ → UInt8) (data : ℕ) (length : UInt32) : Bool :=
  validLoop mem data length.toNat 0

variable (bus : SpiBus σ)

/-- The loop of `test_step_read_chip_id`: the chip id, if one of the attempts has read it. -/
def readChipIdLoop (receiveData : ℕ) : (attempts : ℕ) → Spi σ (Option UInt32)
  | 0 => pure none
  | attempts + 1 => do
      let ret ← attempt Stop.halts (sdioSpiReadLe32 bus mm6108RegChipId receiveData)
      match ret with
      | .ok data => pure (some data)
      | .error _ => readChipIdLoop receiveData attempts

/-- `test_step_read_chip_id`, with the local bytes of `sdio_spi_read_le32` at `receiveData`. -/
def testStepReadChipId (receiveData : ℕ) : Spi σ TestResult := do
  let ret ← readChipIdLoop bus receiveData 3
  match ret with
  | some data => if validChipId data then pure .passed else pure .failed
  | none => pure .failed

/-- `test_step_bulk_write_read`, with what `mmosal_malloc` has returned for the two buffers. -/
def testStepBulkWriteRead (fuel : ℕ) (txData rxData : Option ℕ) : Spi σ TestResult :=
  match txData, rxData with
  | some txData, some rxData => do
      populateBuffer txData bulkRwPacketLenBytes
      let ret ← attempt Stop.halts
        (sdioSpiWriteMultiByte bus fuel mm6108BenchmarkAddrStart txData bulkRwPacketLenBytes)
      if processSdioSpiMultiByteReturn ret = false then pure .failed
      else do
        let ret ← attempt Stop.halts
          (sdioSpiReadMultiByte bus fuel mm6108BenchmarkAddrStart rxData bulkRwPacketLenBytes)
        if processSdioSpiMultiByteReturn ret = false then pure .failed
        else do
          let w ← Routine.get
          if validBuffer w.mem rxData bulkRwPacketLenBytes = false then pure .failed
          else pure .passed
  | _, _ => pure .failed

end

/-! ## The pattern -/

/-- What `populate_buffer` writes. -/
def pattern (length : ℕ) (value : UInt8) (i : ℕ) : UInt8 := value + UInt8.ofNat (length - 1 - i)

variable {σ : Type}

theorem pattern_succ (length : ℕ) (value : UInt8) {i : ℕ} (lt : i < length) :
    pattern (length + 1) value i = pattern length (value + 1) i := by
  have one : UInt8.ofNat (length + 1 - 1 - i) = 1 + UInt8.ofNat (length - 1 - i) := by
    rw [show length + 1 - 1 - i = 1 + (length - 1 - i) by omega, UInt8.ofNat_add]
    rfl
  rw [pattern, pattern, one, UInt8.add_assoc]

theorem pattern_last (length : ℕ) (value : UInt8) : pattern (length + 1) value length = value := by
  rw [pattern, show length + 1 - 1 - length = 0 by omega]
  exact UInt8.add_zero value

theorem populateLoop_returns (data length : ℕ) (value : UInt8) (w : World σ) :
    (populateLoop data length value).Returns w ()
      { w with mem := fill w.mem data length (pattern length value) } := by
  induction length generalizing value w with
  | zero =>
      rw [fill_zero]
      exact returns_pure _ _
  | succ length ih =>
      have rest := ih (value + 1) { w with mem := store w.mem (data + length) [value] }
      have same : fill (store w.mem (data + length) [value]) data length
          (pattern length (value + 1)) =
            fill w.mem data (length + 1) (pattern (length + 1) value) := by
        funext a
        rw [fill, fill, store_single]
        split
        next inside =>
          rw [if_pos (by omega), pattern_succ length value (by omega)]
        next outside =>
          split
          next here => rw [if_pos (by omega), here, Nat.add_sub_cancel_left, pattern_last]
          next => rw [if_neg (by omega)]
      rw [same] at rest
      exact (returns_modify _ _).bind rest

theorem populateBuffer_returns (data : ℕ) (length : UInt32) (w : World σ) :
    (populateBuffer data length).Returns w ()
      { w with mem := fill w.mem data length.toNat (pattern length.toNat 0) } :=
  populateLoop_returns data length.toNat 0 w

theorem validLoop_iff (mem : ℕ → UInt8) (data length : ℕ) (value : UInt8) :
    validLoop mem data length value = true ↔
      ∀ i < length, mem (data + i) = pattern length value i := by
  induction length generalizing value with
  | zero => exact ⟨fun _ i lt => absurd lt i.not_lt_zero, fun _ => rfl⟩
  | succ length ih =>
      have last := pattern_last length value
      rw [validLoop]
      split
      next differs =>
        refine ⟨fun no => absurd no (by decide), fun all => ?_⟩
        exact absurd ((all length (Nat.lt_succ_self length)).trans last) differs
      next same =>
        rw [ih]
        constructor
        · intro all i lt
          rcases Nat.lt_succ_iff_lt_or_eq.mp lt with before | rfl
          · rw [all i before, pattern_succ length value before]
          · rw [last]
            exact not_not.mp same
        · intro all i lt
          rw [all i (Nat.lt_succ_of_lt lt), pattern_succ length value lt]

theorem validBuffer_iff (mem : ℕ → UInt8) (data : ℕ) (length : UInt32) :
    validBuffer mem data length = true ↔
      ∀ i < length.toNat, mem (data + i) = pattern length.toNat 0 i :=
  validLoop_iff mem data length.toNat 0

/-! ## With a card -/

variable {lat : Latency} {mem cells : ℕ → UInt8} {window : SdioFunction → UInt8 × UInt8}

/-- **A packet is written and read back**: the step passes, and the card holds the pattern. -/
theorem testStepBulkWriteRead_returns (short : lat.Short) (n txData rxData : ℕ) :
    ∃ after window',
      (testStepBulkWriteRead (cardBus lat) (n + 2) (some txData) (some rxData)).Returns
        ⟨mem, Card.rest cells window⟩ .passed
        ⟨after, Card.rest (fill cells mm6108BenchmarkAddrStart.toNat bulkRwPacketLenBytes.toNat
          (pattern bulkRwPacketLenBytes.toNat 0)) window'⟩ := by
  have start : mm6108BenchmarkAddrStart.toNat = 2148532224 := rfl
  have length : bulkRwPacketLenBytes.toNat = 1496 := rfl
  have populated := populateBuffer_returns txData bulkRwPacketLenBytes
    (⟨mem, Card.rest cells window⟩ : World Card)
  generalize filled : fill mem txData bulkRwPacketLenBytes.toNat
    (pattern bulkRwPacketLenBytes.toNat 0) = before at populated
  obtain ⟨window', written⟩ := sdioSpiWriteMultiByte_returns before cells window short
    (n := n + 1) mm6108BenchmarkAddrStart bulkRwPacketLenBytes txData (by decide) (by decide)
    (by decide) (by omega)
  have sent : fill cells mm6108BenchmarkAddrStart.toNat bulkRwPacketLenBytes.toNat
      (fun i => before (txData + i)) = fill cells mm6108BenchmarkAddrStart.toNat
        bulkRwPacketLenBytes.toNat (pattern bulkRwPacketLenBytes.toNat 0) := by
    refine fill_congr fun i lt => ?_
    rw [← filled, fill_inside lt]
  rw [sent] at written
  obtain ⟨after, window'', read, outcome⟩ := sdioSpiReadMultiByte_returns before
    (fill cells mm6108BenchmarkAddrStart.toNat
      bulkRwPacketLenBytes.toNat (pattern bulkRwPacketLenBytes.toNat 0)) window' short
    (n := n + 1) mm6108BenchmarkAddrStart bulkRwPacketLenBytes rxData (by decide) (by decide)
    (by decide) (by omega)
  have valid : validBuffer after rxData bulkRwPacketLenBytes = true := by
    rw [validBuffer_iff]
    intro i lt
    rw [outcome.exact i lt (by rw [InWhole]; omega), fill_inside lt]
  refine ⟨after, window'', ?_⟩
  rw [testStepBulkWriteRead]
  refine populated.bind (written.attempt.bind ?_)
  refine read.attempt.bind ((returns_get _).bind ?_)
  show Returns (if validBuffer after rxData bulkRwPacketLenBytes = false then _ else _) _ _ _
  rw [valid, if_neg (by decide)]
  exact returns_pure _ _

/-- The step with a card whose cells are all zero. -/
theorem testStepBulkWriteRead_returns_zero : ∃ after window',
    (testStepBulkWriteRead (cardBus ⟨1, 2, 3, 1⟩) 2 (some 0) (some 2000)).Returns
      ⟨fun _ => 0, Card.rest (fun _ => 0) fun _ => (0, 0)⟩ .passed
      ⟨after, Card.rest (fill (fun _ => 0) mm6108BenchmarkAddrStart.toNat
        bulkRwPacketLenBytes.toNat (pattern bulkRwPacketLenBytes.toNat 0)) window'⟩ :=
  testStepBulkWriteRead_returns ⟨by decide, by decide, by decide, by decide⟩ 0 0 2000

/-- The chip id is the word of the card at its address. -/
theorem testStepReadChipId_returns (short : lat.Short) (receiveData : ℕ) :
    ∃ after window' result, (testStepReadChipId (cardBus lat) receiveData).Returns
        ⟨mem, Card.rest cells window⟩ result ⟨after, Card.rest cells window'⟩ ∧
      (result = .passed ↔
        unpackLe (load cells mm6108RegChipId.toNat 4) ∈ validChipIds.map UInt32.toNat) := by
  obtain ⟨data, after, window', read, word⟩ := sdioSpiReadLe32_returns mem cells window short
    mm6108RegChipId receiveData
  have chipId : validChipId data = true ↔
      unpackLe (load cells mm6108RegChipId.toNat 4) ∈ validChipIds.map UInt32.toNat := by
    rw [← word, validChipId, List.contains_iff_mem]
    exact (List.mem_map_of_injective fun _ _ => UInt32.toNat_inj.mp).symm
  have first : (readChipIdLoop (cardBus lat) receiveData 3).Returns ⟨mem, Card.rest cells window⟩
      (some data) ⟨after, Card.rest cells window'⟩ := by
    rw [readChipIdLoop]
    exact read.attempt.bind (returns_pure _ _)
  refine ⟨after, window', if validChipId data then TestResult.passed else TestResult.failed, ?_, ?_⟩
  · refine first.bind ?_
    show Returns (if validChipId data then pure TestResult.passed else pure TestResult.failed) _ _ _
    split
    · exact returns_pure _ _
    · exact returns_pure _ _
  · rw [← chipId]
    split
    next valid => exact ⟨fun _ => valid, fun _ => rfl⟩
    next invalid => exact ⟨fun passed => (nomatch passed), fun valid => absurd valid invalid⟩

/-- The step with a card whose cells are all zero. -/
theorem testStepReadChipId_returns_zero : ∃ after window' result,
    (testStepReadChipId (cardBus ⟨1, 2, 3, 1⟩) 0).Returns
        ⟨fun _ => 0, Card.rest (fun _ => 0) fun _ => (0, 0)⟩ result
        ⟨after, Card.rest (fun _ => 0) window'⟩ ∧
      (result = .passed ↔
        unpackLe (load (fun _ => 0) mm6108RegChipId.toNat 4) ∈ validChipIds.map UInt32.toNat) :=
  testStepReadChipId_returns ⟨by decide, by decide, by decide, by decide⟩ 0

/-! ## With any device -/

/-- Every code goes through: with `RC_SUCCESS` or not, the test goes on. -/
theorem processSdioSpiMultiByteReturn_true (ret : Except Stop Unit) :
    processSdioSpiMultiByteReturn ret = true := by
  cases ret <;> rfl

/-- A verdict depends on the second buffer alone: on what it holds at the end. -/
theorem testStepBulkWriteRead_passed_iff {bus : SpiBus σ} {fuel txData rxData : ℕ} {w w' : World σ}
    {result : TestResult}
    (done : (testStepBulkWriteRead bus fuel (some txData) (some rxData)).Returns w result w') :
    result = .passed ↔ ∀ i < bulkRwPacketLenBytes.toNat,
      w'.mem (rxData + i) = pattern bulkRwPacketLenBytes.toNat 0 i := by
  rw [testStepBulkWriteRead, returns_bind_iff] at done
  obtain ⟨-, w₁, -, writes⟩ := done
  obtain ⟨written, w₂, -, reads⟩ := returns_bind_iff.mp writes
  rw [processSdioSpiMultiByteReturn_true, if_neg (by decide)] at reads
  obtain ⟨read, w₃, -, validates⟩ := returns_bind_iff.mp reads
  rw [processSdioSpiMultiByteReturn_true, if_neg (by decide)] at validates
  obtain ⟨w₄, w₅, got, verdict⟩ := returns_bind_iff.mp validates
  obtain ⟨rfl, rfl⟩ := returns_get_iff.mp got
  rw [← validBuffer_iff]
  split at verdict
  next invalid =>
    obtain ⟨rfl, rfl⟩ := returns_pure_iff.mp verdict
    rw [invalid]
    exact ⟨fun passed => absurd passed (by decide), fun valid => absurd valid (by decide)⟩
  next valid =>
    obtain ⟨rfl, rfl⟩ := returns_pure_iff.mp verdict
    exact ⟨fun _ => Bool.not_eq_false _ ▸ valid, fun _ => rfl⟩

end HalowBridge.Sdio
