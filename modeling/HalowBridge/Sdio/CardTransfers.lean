import HalowBridge.Sdio.CardBlocks

/-!
# Transfers of any length

A CMD53 takes the blocks of a transfer, and another one the bytes that are left; the loops around
them move the window for every 64 KiB. Whatever the length, the card has the bytes of a write in the
end. A read leaves windows out that it takes as a whole: the byte count of its blocks has 16 bits,
and is zero for 64 KiB (`morseCmd53Read_whole`).
-/

namespace HalowBridge.Sdio

open BitField Keystream Mmutils Routine

variable {lat : Latency} {mem cells : ℕ → UInt8} {window : SdioFunction → UInt8 × UInt8}

/-! ## A single transfer -/

/-- The number of blocks, as it is computed. -/
abbrev numBlocksOf (blockSize : BlockSize) (len : UInt32) : UInt16 :=
  UInt16.ofNat (len.toNat >>> blockSize.log2)

/-- The bytes in the blocks, as they are computed. -/
abbrev blockBytesOf (blockSize : BlockSize) (len : UInt32) : UInt32 :=
  if numBlocksOf blockSize len > 0 then
    UInt32.ofNat ((numBlocksOf blockSize len).toNat * blockSize.value)
  else 0

theorem BlockSize.value_eq (blockSize : BlockSize) : blockSize.value = 2 ^ blockSize.log2 := by
  cases blockSize <;> rfl

theorem toNat_numBlocksOf (blockSize : BlockSize) {len : UInt32} (le : len.toNat ≤ 65536) :
    (numBlocksOf blockSize len).toNat = len.toNat / blockSize.value := by
  rw [UInt16.toNat_ofNat', Nat.shiftRight_eq_div_pow, ← blockSize.value_eq]
  have few : len.toNat / blockSize.value ≤ len.toNat / 8 :=
    Nat.div_le_div_left (by cases blockSize <;> decide) (by decide)
  exact Nat.mod_eq_of_lt (Nat.lt_of_le_of_lt few (by omega))

theorem numBlocksOf_pos (blockSize : BlockSize) {len : UInt32} (le : len.toNat ≤ 65536) :
    numBlocksOf blockSize len > 0 ↔ 0 < len.toNat / blockSize.value := by
  rw [← toNat_numBlocksOf blockSize le]
  exact UInt16.lt_iff_toNat_lt

theorem toNat_blockBytesOf (blockSize : BlockSize) {len : UInt32} (le : len.toNat ≤ 65536) :
    (blockBytesOf blockSize len).toNat = len.toNat / blockSize.value * blockSize.value := by
  have within := Nat.div_mul_le_self len.toNat blockSize.value
  rw [blockBytesOf]
  split
  next =>
    rw [toNat_numBlocksOf blockSize le, UInt32.toNat_ofNat']
    omega
  next none =>
    rw [numBlocksOf_pos blockSize le, Nat.not_lt, Nat.le_zero] at none
    rw [none, Nat.zero_mul]
    rfl

theorem toNat_restOf (blockSize : BlockSize) {len : UInt32} (le : len.toNat ≤ 65536) :
    (len - blockBytesOf blockSize len).toNat = len.toNat % blockSize.value := by
  have within := Nat.div_mul_le_self len.toNat blockSize.value
  have split := Nat.div_add_mod' len.toNat blockSize.value
  rw [UInt32.toNat_sub_of_le _ _ (UInt32.le_iff_toNat_le.mpr
    (by rw [toNat_blockBytesOf blockSize le]; exact within)), toNat_blockBytesOf blockSize le]
  omega

theorem restOf_pos (blockSize : BlockSize) {len : UInt32} (le : len.toNat ≤ 65536) :
    len - blockBytesOf blockSize len > 0 ↔ 0 < len.toNat % blockSize.value := by
  rw [← toNat_restOf blockSize le]
  exact UInt32.lt_iff_toNat_lt

/-- The lower half of the address at which the bytes that are left begin. -/
theorem toNat_restAddress (address : UInt32) {transfer : UInt32}
    (inside : address.toNat % 65536 + transfer.toNat < 65536) :
    ((address + transfer) &&& 0x0000ffff).toNat = address.toNat % 65536 + transfer.toNat := by
  rw [toNat_and_low, UInt32.toNat_add]
  omega

variable (mem cells window) in
theorem morseCmd53Read_returns (short : lat.Short) (fn : SdioFunction) (address len : UInt32)
    (data : ℕ) (positive : 0 < len.toNat) (lt : len.toNat < 65536)
    (counted : len.toNat / (blockSizeOf fn).value < 512)
    (inside : 0 < len.toNat % (blockSizeOf fn).value → address.toNat % 65536 +
      len.toNat / (blockSizeOf fn).value * (blockSizeOf fn).value < 65536)
    (placed : (Card.rest cells window).base fn = address.toNat / 65536 * 65536) :
    (morseCmd53Read (cardBus lat) fn address data len).Returns ⟨mem, Card.rest cells window⟩ ()
      ⟨fill mem data len.toNat fun i => cells (address.toNat + i), Card.rest cells window⟩ := by
  have le : len.toNat ≤ 65536 := Nat.le_of_lt lt
  have bound : 0 < (blockSizeOf fn).value ∧ (blockSizeOf fn).value ≤ 512 := by
    cases fn <;> decide
  have count := toNat_numBlocksOf (blockSizeOf fn) le
  have countPos := numBlocksOf_pos (blockSizeOf fn) le
  have bytes := toNat_blockBytesOf (blockSizeOf fn) le
  have rest := toNat_restOf (blockSizeOf fn) le
  have restPos := restOf_pos (blockSizeOf fn) le
  have restLt := Nat.mod_lt len.toNat bound.1
  have split := Nat.div_add_mod' len.toNat (blockSizeOf fn).value
  have start : (Card.rest cells window).base fn + address.toNat % 65536 = address.toNat := by
    rw [placed]
    omega
  generalize len.toNat / (blockSizeOf fn).value = k at *
  generalize len.toNat % (blockSizeOf fn).value = r at *
  -- The bytes that are left, behind the blocks.
  have tail : (do
      if len - blockBytesOf (blockSizeOf fn) len > 0 then
        morseCmd53SendCmd (cardBus lat) .read fn .byte
          ((address + blockBytesOf (blockSizeOf fn) len) &&& 0x0000ffff)
          (len - blockBytesOf (blockSizeOf fn) len).toUInt16
        morseCmd53GetData (cardBus lat) (len - blockBytesOf (blockSizeOf fn) len).toUInt16
          (data + (blockBytesOf (blockSizeOf fn) len).toNat) (blockSizeOf fn)
      Routine.require (¬(numBlocksOf (blockSizeOf fn) len = 0 ∧
        len - blockBytesOf (blockSizeOf fn) len = 0)) (.exit .minusOne) : Spi Card Unit).Returns
      ⟨fill mem data (k * (blockSizeOf fn).value) fun i => cells (address.toNat + i),
        Card.rest cells window⟩ ()
      ⟨fill mem data len.toNat fun i => cells (address.toNat + i), Card.rest cells window⟩ := by
    by_cases more : len - blockBytesOf (blockSizeOf fn) len > 0
    · have some := restPos.mp more
      have byteCnt : (len - blockBytesOf (blockSizeOf fn) len).toUInt16.toNat = r := by
        rw [UInt32.toNat_toUInt16, rest]
        omega
      have below := inside some
      have behind := toNat_restAddress address (by rw [bytes]; exact below)
      have sent := morseCmd53SendCmd_read
        (fill mem data (k * (blockSizeOf fn).value) fun i => cells (address.toNat + i)) short fn
        .byte ((address + blockBytesOf (blockSizeOf fn) len) &&& 0x0000ffff)
        ((len - blockBytesOf (blockSizeOf fn) len).toUInt16)
        (by rw [behind, bytes]; exact Nat.lt_trans below (by decide))
        (by rw [byteCnt]; exact Nat.lt_of_lt_of_le restLt bound.2) cells window
      have got := morseCmd53GetData_returns mem cells short (blockSizeOf fn) data address.toNat
        (k * (blockSizeOf fn).value) ((len - blockBytesOf (blockSizeOf fn) len).toUInt16)
        (by rw [byteCnt]; exact splits_rest (blockSizeOf fn) some restLt) window
      rw [behind, bytes, ← Nat.add_assoc, start, byteCnt] at sent
      rw [byteCnt, split] at got
      rw [if_pos more, bytes]
      refine sent.bind (got.bind (returns_require _ ?_))
      rintro ⟨-, none⟩
      rw [none] at more
      exact absurd more (by decide)
    · have none : r = 0 := Nat.eq_zero_of_not_pos (mt restPos.mpr more)
      rw [none, Nat.add_zero] at split
      rw [if_neg more, split]
      refine returns_require _ ?_
      rintro ⟨noBlocks, -⟩
      rw [noBlocks] at count
      rw [← count] at split
      rw [← split] at positive
      exact absurd positive (by rw [show (0 : UInt16).toNat = 0 from rfl, Nat.zero_mul]; decide)
  unfold morseCmd53Read
  by_cases blocks : numBlocksOf (blockSizeOf fn) len > 0
  · have byteCnt : (blockBytesOf (blockSizeOf fn) len).toUInt16.toNat =
        k * (blockSizeOf fn).value := by
      rw [UInt32.toNat_toUInt16, bytes]
      omega
    have sent := morseCmd53SendCmd_read mem short fn .block (address &&& 0x0000ffff)
      (numBlocksOf (blockSizeOf fn) len)
      (by rw [toNat_and_low]; exact Nat.lt_trans (Nat.mod_lt _ (by decide)) (by decide))
      (by rw [count]; exact counted) cells window
    have got := morseCmd53GetData_returns mem cells short (blockSizeOf fn) data address.toNat 0
      ((blockBytesOf (blockSizeOf fn) len).toUInt16)
      (by rw [byteCnt]; exact splits_blocks (blockSizeOf fn) k) window
    rw [toNat_and_low, start, count] at sent
    rw [byteCnt, Nat.zero_add] at got
    rw [fill_zero] at got
    rw [if_pos blocks]
    exact sent.bind (got.bind tail)
  · have none : k = 0 := Nat.eq_zero_of_not_pos (mt countPos.mpr blocks)
    rw [none, Nat.zero_mul, fill_zero] at tail
    rw [if_neg blocks]
    exact tail

variable (mem cells window) in
/-- **A write reaches the card.** -/
theorem morseCmd53Write_returns (short : lat.Short) (fn : SdioFunction) (address len : UInt32)
    (data : ℕ) (positive : 0 < len.toNat) (le : len.toNat ≤ 65536)
    (counted : len.toNat / (blockSizeOf fn).value < 512)
    (inside : 0 < len.toNat % (blockSizeOf fn).value → address.toNat % 65536 +
      len.toNat / (blockSizeOf fn).value * (blockSizeOf fn).value < 65536)
    (placed : (Card.rest cells window).base fn = address.toNat / 65536 * 65536) :
    (morseCmd53Write (cardBus lat) fn address data len).Returns ⟨mem, Card.rest cells window⟩ ()
      ⟨mem, Card.rest (fill cells address.toNat len.toNat fun i => mem (data + i)) window⟩ := by
  have bound : 0 < (blockSizeOf fn).value ∧ (blockSizeOf fn).value ≤ 512 := by
    cases fn <;> decide
  have count := toNat_numBlocksOf (blockSizeOf fn) le
  have countPos := numBlocksOf_pos (blockSizeOf fn) le
  have bytes := toNat_blockBytesOf (blockSizeOf fn) le
  have rest := toNat_restOf (blockSizeOf fn) le
  have restPos := restOf_pos (blockSizeOf fn) le
  have restLt := Nat.mod_lt len.toNat bound.1
  have split := Nat.div_add_mod' len.toNat (blockSizeOf fn).value
  have start (cells : ℕ → UInt8) :
      (Card.rest cells window).base fn + address.toNat % 65536 = address.toNat := by
    rw [show (Card.rest cells window).base fn = address.toNat / 65536 * 65536 from placed]
    omega
  generalize len.toNat / (blockSizeOf fn).value = k at *
  generalize len.toNat % (blockSizeOf fn).value = r at *
  have tail : (do
      if len - blockBytesOf (blockSizeOf fn) len > 0 then
        morseCmd53SendCmd (cardBus lat) .write fn .byte
          ((address + blockBytesOf (blockSizeOf fn) len) &&& 0x0000ffff)
          (len - blockBytesOf (blockSizeOf fn) len).toUInt16
        morseCmd53PutData (cardBus lat) (len - blockBytesOf (blockSizeOf fn) len).toUInt16
          (data + (blockBytesOf (blockSizeOf fn) len).toNat) .byte (blockSizeOf fn)
      Routine.require (¬(numBlocksOf (blockSizeOf fn) len = 0 ∧
        len - blockBytesOf (blockSizeOf fn) len = 0)) (.exit .unspecifiedError) :
        Spi Card Unit).Returns
      ⟨mem, Card.rest (fill cells address.toNat (k * (blockSizeOf fn).value) fun i =>
        mem (data + i)) window⟩ ()
      ⟨mem, Card.rest (fill cells address.toNat len.toNat fun i => mem (data + i)) window⟩ := by
    by_cases more : len - blockBytesOf (blockSizeOf fn) len > 0
    · have some := restPos.mp more
      have byteCnt : (len - blockBytesOf (blockSizeOf fn) len).toUInt16.toNat = r := by
        rw [UInt32.toNat_toUInt16, rest]
        omega
      have below := inside some
      have behind := toNat_restAddress address (by rw [bytes]; exact below)
      have sent := morseCmd53SendCmd_write mem short fn .byte
        ((address + blockBytesOf (blockSizeOf fn) len) &&& 0x0000ffff)
        ((len - blockBytesOf (blockSizeOf fn) len).toUInt16)
        (by rw [behind, bytes]; exact Nat.lt_trans below (by decide))
        (by rw [byteCnt]; exact Nat.lt_of_lt_of_le restLt bound.2)
        (fill cells address.toNat (k * (blockSizeOf fn).value) fun i => mem (data + i)) window _ _
        rfl
      have put := morseCmd53PutData_byte mem
        (fill cells address.toNat (k * (blockSizeOf fn).value) fun i => mem (data + i)) short
        (blockSizeOf fn) (data + k * (blockSizeOf fn).value)
        (address.toNat + k * (blockSizeOf fn).value)
        ((len - blockBytesOf (blockSizeOf fn) len).toUInt16) (by rw [byteCnt]; exact some)
        (by rw [byteCnt]; exact Nat.le_of_lt restLt) window
      rw [behind, bytes, ← Nat.add_assoc, start] at sent
      rw [byteCnt, store_load, split] at put
      rw [if_pos more, bytes]
      rw [byteCnt] at sent
      refine sent.bind (put.bind (returns_require _ ?_))
      rintro ⟨-, none⟩
      rw [none] at more
      exact absurd more (by decide)
    · have none : r = 0 := Nat.eq_zero_of_not_pos (mt restPos.mpr more)
      rw [none, Nat.add_zero] at split
      rw [if_neg more, split]
      refine returns_require _ ?_
      rintro ⟨noBlocks, -⟩
      rw [noBlocks] at count
      rw [← count] at split
      rw [← split] at positive
      exact absurd positive (by rw [show (0 : UInt16).toNat = 0 from rfl, Nat.zero_mul]; decide)
  unfold morseCmd53Write
  by_cases blocks : numBlocksOf (blockSizeOf fn) len > 0
  · obtain ⟨j, rfl⟩ : ∃ j, k = j + 1 := ⟨k - 1, by have := countPos.mp blocks; omega⟩
    have sent := morseCmd53SendCmd_write mem short fn .block (address &&& 0x0000ffff)
      (numBlocksOf (blockSizeOf fn) len)
      (by rw [toNat_and_low]; exact Nat.lt_trans (Nat.mod_lt _ (by decide)) (by decide))
      (by rw [count]; exact counted) cells window ((blockSizeOf fn).value)
      (List.replicate j (blockSizeOf fn).value) (by rw [count]; rfl)
    have put := morseCmd53PutData_block mem cells short (blockSizeOf fn) data address.toNat count
      window
    rw [toNat_and_low, start, List.length_replicate] at sent
    rw [count] at put
    rw [if_pos blocks]
    exact sent.bind (put.bind tail)
  · have none : k = 0 := Nat.eq_zero_of_not_pos (mt countPos.mpr blocks)
    rw [none, Nat.zero_mul, fill_zero] at tail
    rw [if_neg blocks]
    exact tail

/-- A read of 64 KiB succeeds and reads nothing: the byte count of the blocks is cut to zero. -/
theorem morseCmd53Read_whole (short : lat.Short) {address len : UInt32} (data : ℕ)
    (whole : len.toNat = 65536) :
    (morseCmd53Read (cardBus lat) .function2 address data len).Returns
      ⟨mem, Card.rest cells window⟩ () ⟨mem, Card.rest cells window⟩ := by
  obtain rfl : len = 65536 := UInt32.toNat_inj.mp whole
  have sent := morseCmd53SendCmd_read mem short .function2 .block (address &&& 0x0000ffff) 128
    (by rw [toNat_and_low]; exact Nat.lt_trans (Nat.mod_lt _ (by decide)) (by decide)) (by decide)
    cells window
  have nothing : getDataLoop (cardBus lat) .fn2 0 data = pure () := by
    rw [getDataLoop, if_pos rfl]
  have got : (morseCmd53GetData (cardBus lat) 0 data .fn2).Returns
      ⟨mem, { Card.rest cells window with
        phase := .reading (cut cells
          ((Card.rest cells window).base .function2 + (address &&& 0x0000ffff).toNat)
            (transferSizes .function2 SdioMode.block.code (128 : UInt16).toNat)) }⟩ ()
      ⟨mem, Card.rest cells window⟩ := by
    rw [morseCmd53GetData, nothing]
    exact Returns.bind (a := ()) rfl ((returns_pure () _).atExit rfl)
  refine sent.bind (got.bind ?_)
  show Returns (if (65536 : UInt32) - blockBytesOf .fn2 65536 > 0 then _ else Routine.require
    (¬(numBlocksOf .fn2 65536 = 0 ∧ (65536 : UInt32) - blockBytesOf .fn2 65536 = 0)) _) _ _ _
  rw [if_neg (by decide)]
  exact returns_require _ (by decide)

/-! ## The parts of a transfer -/

/-- A part ends with the transfer, or at the next boundary. -/
theorem toNat_transferSize {address len : UInt32}
    (below : address.toNat + len.toNat ≤ 0xffff0000) (positive : 0 < len.toNat) :
    (transferSize address len).toNat = min len.toNat (65536 - address.toNat % 65536) := by
  have base := toNat_and_high address
  have max : maxBlockTransferSizeFn2.toNat = 65536 := rfl
  have size : (if maxBlockTransferSizeFn2 < len then maxBlockTransferSizeFn2 else len).toNat =
      min len.toNat 65536 := by
    split
    next more =>
      rw [UInt32.lt_iff_toNat_lt] at more
      omega
    next few =>
      rw [UInt32.lt_iff_toNat_lt] at few
      omega
  have boundary : ((address &&& 0xffff0000) + 0x10000).toNat =
      address.toNat / 65536 * 65536 + 65536 := by
    rw [UInt32.toNat_add, base]
    show (_ + 65536) % 4294967296 = _
    omega
  rw [transferSize]
  generalize (if maxBlockTransferSizeFn2 < len then maxBlockTransferSizeFn2 else len) = size' at *
  generalize (address &&& 0xffff0000) + 0x10000 = boundary' at *
  have stop : (address + size').toNat = address.toNat + size'.toNat := by
    rw [UInt32.toNat_add]
    omega
  show (if address + size' > boundary' then boundary' - address else size').toNat = _
  split
  next beyond =>
    rw [gt_iff_lt, UInt32.lt_iff_toNat_lt] at beyond
    rw [UInt32.toNat_sub_of_le _ _ (UInt32.le_iff_toNat_le.mpr (by omega))]
    omega
  next within =>
    rw [gt_iff_lt, UInt32.lt_iff_toNat_lt] at within
    omega

/-- What is behind a part of a transfer. -/
theorem transferSize_step {address len : UInt32}
    (below : address.toNat + len.toNat ≤ 0xffff0000) (positive : 0 < len.toNat) {size : ℕ}
    (part : (transferSize address len).toNat = size) :
    (address + transferSize address len).toNat = address.toNat + size ∧
      (len - transferSize address len).toNat = len.toNat - size ∧
      0 < size ∧ size ≤ len.toNat ∧ address.toNat % 65536 + size ≤ 65536 ∧
      (size < len.toNat → address.toNat % 65536 + size = 65536) := by
  have taken := toNat_transferSize below positive
  rw [part] at taken
  refine ⟨?_, ?_, by omega, by omega, by omega, by omega⟩
  · rw [UInt32.toNat_add, part]
    omega
  · rw [UInt32.toNat_sub_of_le _ _ (UInt32.le_iff_toNat_le.mpr (by omega)), part]

/-- The blocks of a part have a number that fits its field. -/
theorem blocks_few {size : ℕ} (le : size ≤ 65536) : size / 512 < 512 :=
  Nat.div_lt_of_lt_mul (Nat.lt_of_le_of_lt le (by decide))

/-- The bytes that are left begin in the window. -/
theorem blocks_inside {a size : ℕ} (inside : a % 65536 + size ≤ 65536) (some : 0 < size % 512) :
    a % 65536 + size / 512 * 512 < 65536 := by
  omega

/-- The parts that are left. -/
theorem enough_step {a l size n : ℕ} (enough : l = 0 ∨ a % 65536 + l ≤ 65536 * (n + 1))
    (within : size ≤ l) (full : size < l → a % 65536 + size = 65536) :
    l - size = 0 ∨ (a + size) % 65536 + (l - size) ≤ 65536 * n := by
  omega

variable (mem cells window) in
theorem writeRound_returns (short : lat.Short) (address size : UInt32) (data : ℕ)
    (positive : 0 < size.toNat) (inside : address.toNat % 65536 + size.toNat ≤ 65536) :
    (writeRound (cardBus lat) address data size).Returns ⟨mem, Card.rest cells window⟩ ()
      ⟨mem, Card.rest (fill cells address.toNat size.toNat fun i => mem (data + i))
        (moveWindow window .function2 address)⟩ := by
  have moved := morseAddressBaseSet_returns mem short address morseConfigAccess4Byte (by decide)
    .function2 cells window
  have written := morseCmd53Write_returns mem cells (moveWindow window .function2 address) short
    .function2 address size data positive (by omega) (blocks_few (by omega))
    (blocks_inside inside) (base_moveWindow cells window .function2 address)
  exact moved.bind written.ignore

variable (mem cells window) in
theorem writeLoop_returns (short : lat.Short) {n : ℕ} (address len : UInt32) (data : ℕ)
    (below : address.toNat + len.toNat ≤ 0xffff0000)
    (enough : len.toNat = 0 ∨ address.toNat % 65536 + len.toNat ≤ 65536 * n) :
    ∃ window', (writeLoop (cardBus lat) (n + 1) address data len).Returns
      ⟨mem, Card.rest cells window⟩ ()
      ⟨mem, Card.rest (fill cells address.toNat len.toNat fun i => mem (data + i)) window'⟩ := by
  induction n generalizing address data len cells window with
  | zero =>
      have none : len = 0 := UInt32.toNat_inj.mp (by show len.toNat = 0; omega)
      subst none
      refine ⟨window, ?_⟩
      rw [writeLoop, if_pos rfl, show (0 : UInt32).toNat = 0 from rfl, fill_zero]
      exact returns_pure _ _
  | succ n ih =>
      by_cases none : len = 0
      · subst none
        refine ⟨window, ?_⟩
        rw [writeLoop, if_pos rfl, show (0 : UInt32).toNat = 0 from rfl, fill_zero]
        exact returns_pure _ _
      · have positive : 0 < len.toNat :=
          Nat.pos_of_ne_zero fun zero => none (UInt32.toNat_inj.mp zero)
        generalize part : (transferSize address len).toNat = size
        obtain ⟨next, left, some, within, inside, full⟩ := transferSize_step below positive part
        have round := writeRound_returns mem cells window short address (transferSize address len)
          data (by rw [part]; exact some) (by rw [part]; exact inside)
        obtain ⟨window', rest⟩ := ih (fill cells address.toNat size fun i => mem (data + i))
          (moveWindow window .function2 address) (address + transferSize address len)
          (len - transferSize address len) (data + size) (by omega)
          (by rw [next, left]; exact enough_step enough within full)
        refine ⟨window', ?_⟩
        simp only [next, left, Nat.add_assoc data] at rest
        rw [fill_fill (f := fun i => mem (data + i)), Nat.add_sub_cancel' within] at rest
        rw [part] at round
        rw [writeLoop, if_neg none]
        refine round.bind ?_
        rw [part]
        exact rest

/-! ## What a read leaves in the memory of the host -/

/-- The byte lies in a window that is read as a whole. -/
def InWhole (address len i : ℕ) : Prop :=
  address ≤ (address + i) / 65536 * 65536 ∧ (address + i) / 65536 * 65536 + 65536 ≤ address + len

/-- How long the last part is. -/
def lastPart (address len : ℕ) : ℕ := (address + len - 1) % 65536 + 1

/-- The memory of the host before and after a read. Windows that are read as a whole are left out.
The first eight bytes of a part may be read again, which goes beyond the end where the part is
shorter. -/
structure ReadOutcome (cells before after : ℕ → UInt8) (address data len : ℕ) : Prop where
  below : ∀ a < data, after a = before a
  exact : ∀ i < len, ¬InWhole address len i → after (data + i) = cells (address + i)
  whole : ∀ i < len, InWhole address len i → after (data + i) = before (data + i) ∨
    (address + i) % 65536 < 8 ∧ after (data + i) = cells (address + i)
  above : ∀ i, len ≤ i → after (data + i) = before (data + i) ∨
    (0 < len ∧ (i < 8 ∨ i + lastPart address len < len + 8)) ∧
      after (data + i) = cells (address + i)

/-- Nothing is read. -/
theorem ReadOutcome.nothing (cells before : ℕ → UInt8) (address data : ℕ) :
    ReadOutcome cells before before address data 0 where
  below _ _ := rfl
  exact i lt := absurd lt i.not_lt_zero
  whole i lt := absurd lt i.not_lt_zero
  above _ _ := .inl rfl

/-- A part that was read, and the others. A part of 64 KiB is left out, but for the bytes that are
read again. -/
theorem ReadOutcome.part {cells before after : ℕ → UInt8} {address data len size m : ℕ}
    (positive : 0 < size) (within : size ≤ len) (inside : address % 65536 + size ≤ 65536)
    (full : size < len → address % 65536 + size = 65536) (again : m ≤ max size 8)
    (read : size < 65536 → size ≤ m) (skipped : size = 65536 → m ≤ 8)
    (others : ReadOutcome cells (fill before data m fun i => cells (address + i)) after
      (address + size) (data + size) (len - size)) :
    ReadOutcome cells before after address data len where
  below a lt := by
    rw [others.below a (by omega), fill_outside (.inl lt)]
  exact i lt outside := by
    rw [InWhole] at outside
    by_cases first : i < size
    · rw [others.below _ (by omega), fill_inside (by omega)]
    · have rest := others.exact (i - size) (by omega) (by rw [InWhole]; omega)
      rwa [show data + size + (i - size) = data + i by omega,
        show address + size + (i - size) = address + i by omega] at rest
  whole i lt inWhole := by
    rw [InWhole] at inWhole
    by_cases first : i < size
    · -- The part is the window.
      rw [others.below _ (by omega)]
      by_cases reread : i < m
      · exact .inr ⟨by omega, fill_inside reread⟩
      · exact .inl (fill_outside (by omega))
    · have rest := others.whole (i - size) (by omega) (by rw [InWhole]; omega)
      rw [show data + size + (i - size) = data + i by omega,
        show address + size + (i - size) = address + i by omega] at rest
      rcases rest with same | ⟨early, read⟩
      · rw [same]
        by_cases reread : i < m
        · exact .inr ⟨by omega, fill_inside reread⟩
        · exact .inl (fill_outside (by omega))
      · exact .inr ⟨early, read⟩
  above i beyond := by
    have rest := others.above (i - size) (by omega)
    rw [show data + size + (i - size) = data + i by omega,
      show address + size + (i - size) = address + i by omega] at rest
    have same : size < len → lastPart (address + size) (len - size) = lastPart address len := by
      intro more
      rw [lastPart, lastPart, show address + size + (len - size) = address + len by omega]
    have short : size < len → lastPart address len ≤ len - size := by
      intro more
      have boundary := full more
      rw [lastPart]
      omega
    rcases rest with kept | ⟨early, read⟩
    · rw [kept]
      by_cases reread : i < m
      · exact .inr ⟨⟨by omega, by omega⟩, fill_inside reread⟩
      · exact .inl (fill_outside (by omega))
    · refine .inr ⟨?_, read⟩
      have equal := same (by omega)
      have bound := short (by omega)
      omega

variable (mem cells window) in
/-- A part is read, and its first eight bytes again where the first two words are the same. -/
theorem readRound_returns (short : lat.Short) (address size : UInt32) (data : ℕ)
    (positive : 0 < size.toNat) (inside : address.toNat % 65536 + size.toNat ≤ 65536) :
    ∃ m, m ≤ max size.toNat 8 ∧ (size.toNat < 65536 → size.toNat ≤ m) ∧
      (size.toNat = 65536 → m ≤ 8) ∧
      (readRound (cardBus lat) address data size).Returns ⟨mem, Card.rest cells window⟩ ()
        ⟨fill mem data m fun i => cells (address.toNat + i),
          Card.rest cells (moveWindow window .function2 address)⟩ := by
  have moved := morseAddressBaseSet_returns mem short address morseConfigAccess4Byte (by decide)
    .function2 cells window
  have placed := base_moveWindow cells window .function2 address
  generalize moveWindow window .function2 address = window' at *
  have first : ∃ m, m ≤ size.toNat ∧ (size.toNat < 65536 → size.toNat = m) ∧
      (size.toNat = 65536 → m = 0) ∧
      (morseCmd53Read (cardBus lat) .function2 address data size).Returns
        ⟨mem, Card.rest cells window'⟩ ()
        ⟨fill mem data m fun i => cells (address.toNat + i), Card.rest cells window'⟩ := by
    by_cases whole : size.toNat = 65536
    · refine ⟨0, by omega, by omega, fun _ => rfl, ?_⟩
      rw [fill_zero]
      exact morseCmd53Read_whole short data whole
    · refine ⟨size.toNat, Nat.le_refl _, fun _ => rfl, fun is => absurd is whole, ?_⟩
      exact morseCmd53Read_returns _ _ _ short _ _ _ data positive (by omega)
        (blocks_few (by omega)) (blocks_inside inside) placed
  obtain ⟨m, le, read, skipped, returns⟩ := first
  have again := morseCmd53Read_returns (fill mem data m fun i => cells (address.toNat + i)) cells
    window' short .function2 address 8 data (by decide) (by decide) (by decide)
    (fun _ => Nat.mod_lt _ (by decide)) placed
  rw [show (8 : UInt32).toNat = 8 from rfl, fill_again] at again
  by_cases same : load (fill mem data m fun i => cells (address.toNat + i)) data 4 =
      load (fill mem data m fun i => cells (address.toNat + i)) (data + 4) 4
  · refine ⟨max m 8, by omega, by omega, by omega, ?_⟩
    refine moved.bind (returns.bind ((returns_get _).bind ?_))
    rw [if_pos same]
    exact again
  · refine ⟨m, by omega, by omega, by omega, ?_⟩
    refine moved.bind (returns.bind ((returns_get _).bind ?_))
    rw [if_neg same]
    exact returns_pure _ _

variable (mem cells window) in
theorem readLoop_returns (short : lat.Short) {n : ℕ} (address len : UInt32) (data : ℕ)
    (below : address.toNat + len.toNat ≤ 0xffff0000)
    (enough : len.toNat = 0 ∨ address.toNat % 65536 + len.toNat ≤ 65536 * n) :
    ∃ after window', (readLoop (cardBus lat) (n + 1) address data len).Returns
        ⟨mem, Card.rest cells window⟩ () ⟨after, Card.rest cells window'⟩ ∧
      ReadOutcome cells mem after address.toNat data len.toNat := by
  induction n generalizing address data len mem window with
  | zero =>
      have none : len = 0 := UInt32.toNat_inj.mp (by show len.toNat = 0; omega)
      subst none
      refine ⟨mem, window, ?_, .nothing cells mem address.toNat data⟩
      rw [readLoop, if_pos rfl]
      exact returns_pure _ _
  | succ n ih =>
      by_cases none : len = 0
      · subst none
        refine ⟨mem, window, ?_, .nothing cells mem address.toNat data⟩
        rw [readLoop, if_pos rfl]
        exact returns_pure _ _
      · have positive : 0 < len.toNat :=
          Nat.pos_of_ne_zero fun zero => none (UInt32.toNat_inj.mp zero)
        generalize part : (transferSize address len).toNat = size
        obtain ⟨next, left, some, within, inside, full⟩ := transferSize_step below positive part
        obtain ⟨m, again, read, skipped, round⟩ := readRound_returns mem cells window short
          address (transferSize address len) data (by rw [part]; exact some)
          (by rw [part]; exact inside)
        obtain ⟨after, window', rest, outcome⟩ := ih
          (fill mem data m fun i => cells (address.toNat + i))
          (moveWindow window .function2 address) (address + transferSize address len)
          (len - transferSize address len) (data + size) (by omega)
          (by rw [next, left]; exact enough_step enough within full)
        rw [part] at again read skipped
        rw [next, left] at outcome
        refine ⟨after, window', ?_, .part some within inside full again read skipped outcome⟩
        rw [readLoop, if_neg none]
        subst part
        exact round.bind rest

/-! ## Whole transfers -/

/-- A length that the driver takes. -/
theorem valid_len {len : UInt32} (some : 0 < len.toNat) (aligned : len.toNat % 4 = 0) :
    ¬(len = 0 ∨ len &&& 0x03 ≠ 0) := by
  have low : (len &&& 0x03).toNat = len.toNat % 4 := by
    have mask : (0x03 : UInt32).toNat = 2 ^ 2 - 1 := rfl
    rw [UInt32.toNat_and, mask, Nat.and_two_pow_sub_one_eq_mod]
  rintro (rfl | odd)
  · exact absurd some (by decide)
  · exact odd (UInt32.toNat_inj.mp (low.trans aligned))

variable (mem cells window) in
/-- **A write of any length reaches the card**: the cells from the address on hold the bytes of the
host, and no others have changed. -/
theorem sdioSpiWriteMultiByte_returns (short : lat.Short) {n : ℕ} (address len : UInt32) (data : ℕ)
    (some : 0 < len.toNat) (aligned : len.toNat % 4 = 0)
    (below : address.toNat + len.toNat ≤ 0xffff0000)
    (enough : address.toNat % 65536 + len.toNat ≤ 65536 * n) :
    ∃ window', (sdioSpiWriteMultiByte (cardBus lat) (n + 1) address data len).Returns
      ⟨mem, Card.rest cells window⟩ ()
      ⟨mem, Card.rest (fill cells address.toNat len.toNat fun i => mem (data + i)) window'⟩ := by
  obtain ⟨window', written⟩ :=
    writeLoop_returns mem cells window short address len data below (.inr enough)
  exact ⟨window', (returns_require _ (valid_len some aligned)).bind written⟩

/-- A write across the end of a window, to a card that was never written. -/
theorem sdioSpiWriteMultiByte_returns_across : ∃ window',
    (sdioSpiWriteMultiByte (cardBus ⟨1, 2, 3, 1⟩) 3 0x8010fff8 4 16).Returns
      ⟨fun a => UInt8.ofNat a, Card.rest (fun _ => 0) fun _ => (0, 0)⟩ ()
      ⟨fun a => UInt8.ofNat a,
        Card.rest (fill (fun _ => 0) 0x8010fff8 16 fun i => UInt8.ofNat (4 + i)) window'⟩ :=
  sdioSpiWriteMultiByte_returns _ _ _ ⟨by decide, by decide, by decide, by decide⟩ 0x8010fff8 16 4
    (by decide) (by decide) (by decide) (by decide)

variable (mem cells window) in
/-- **A read of any length** leaves the cells of the card in the memory of the host, but for the
windows that it reads as a whole: of these, nothing arrives but the first eight bytes, and these
only if they are read again. -/
theorem sdioSpiReadMultiByte_returns (short : lat.Short) {n : ℕ} (address len : UInt32) (data : ℕ)
    (some : 0 < len.toNat) (aligned : len.toNat % 4 = 0)
    (below : address.toNat + len.toNat ≤ 0xffff0000)
    (enough : address.toNat % 65536 + len.toNat ≤ 65536 * n) :
    ∃ after window', (sdioSpiReadMultiByte (cardBus lat) (n + 1) address data len).Returns
        ⟨mem, Card.rest cells window⟩ () ⟨after, Card.rest cells window'⟩ ∧
      ReadOutcome cells mem after address.toNat data len.toNat := by
  obtain ⟨after, window', read, outcome⟩ :=
    readLoop_returns mem cells window short address len data below (.inr enough)
  exact ⟨after, window', (returns_require _ (valid_len some aligned)).bind read, outcome⟩

/-- A read of two words and of a whole window behind them. -/
theorem sdioSpiReadMultiByte_returns_whole : ∃ after window',
    (sdioSpiReadMultiByte (cardBus ⟨1, 2, 3, 1⟩) 3 0x8010fff8 4 65544).Returns
        ⟨fun _ => 0, Card.rest (fun a => UInt8.ofNat a) fun _ => (0, 0)⟩ ()
        ⟨after, Card.rest (fun a => UInt8.ofNat a) window'⟩ ∧
      ReadOutcome (fun a => UInt8.ofNat a) (fun _ => 0) after 0x8010fff8 4 65544 :=
  sdioSpiReadMultiByte_returns _ _ _ ⟨by decide, by decide, by decide, by decide⟩ 0x8010fff8 65544 4
    (by decide) (by decide) (by decide) (by decide)

variable (mem cells window) in
/-- The word that is read is that of the card. -/
theorem sdioSpiReadLe32_returns (short : lat.Short) (address : UInt32) (receiveData : ℕ) :
    ∃ data after window', (sdioSpiReadLe32 (cardBus lat) address receiveData).Returns
        ⟨mem, Card.rest cells window⟩ data ⟨after, Card.rest cells window'⟩ ∧
      data.toNat = unpackLe (load cells address.toNat 4) := by
  have moved := morseAddressBaseSet_returns mem short address morseConfigAccess4Byte (by decide)
    .function1 cells window
  have read := morseCmd53Read_returns mem cells (moveWindow window .function1 address) short
    .function1 address 4 receiveData (by decide) (by decide) (by decide)
    (fun _ => Nat.mod_lt _ (by decide)) (base_moveWindow cells window .function1 address)
  refine ⟨_, _, _, moved.bind (read.bind ((returns_get _).bind (returns_pure _ _))), ?_⟩
  have byte {i : ℕ} (lt : i < 4) : fill mem receiveData (4 : UInt32).toNat
      (fun i => cells (address.toNat + i)) (receiveData + i) = cells (address.toNat + i) :=
    fill_inside lt
  have order (a b c d : UInt32) : a ||| b ||| c ||| d = d ||| c ||| b ||| a := by ac_rfl
  rw [order]
  dsimp only
  rw [byte (i := 0) (by decide), byte (i := 1) (by decide), byte (i := 2) (by decide),
    byte (i := 3) (by decide), toNat_four_bytes]
  rfl

end HalowBridge.Sdio
