import HalowBridge.Sdio.TestWlanIo

/-!
# The driver on the bus of any device

What a device sends decides what a transfer is worth, but not what it may do to the host. Whatever
is on the bus, and however a transfer ends, nothing but the buffer is written, no assertion fails,
the index of the CRC-7 table stays inside, the loops come to their ends, and the device is
deselected.
-/

namespace HalowBridge.Sdio

open BitField Keystream Mmutils Routine

variable {σ : Type} {bus : SpiBus σ} {S : ℕ → Prop}

/-- The memory is the same but for the given addresses. -/
def Writes (S : ℕ → Prop) (w w' : World σ) : Prop := ∀ a, ¬S a → w'.mem a = w.mem a

instance : IsPreorder (World σ) (Writes S) where
  refl _ _ _ := rfl
  trans _ _ _ first second a outside := (second a outside).trans (first a outside)

/-- The memory is the same but for the given addresses, and a device that is deselected is
deselected again. -/
def Finishes (S : ℕ → Prop) (deselected : σ → Prop) (w w' : World σ) : Prop :=
  Writes S w w' ∧ (deselected w.device → deselected w'.device)

instance (deselected : σ → Prop) : IsPreorder (World σ) (Finishes S deselected) where
  refl _ := ⟨refl_of _ _, id⟩
  trans _ _ _ first second := ⟨trans_of _ first.1 second.1, second.2 ∘ first.2⟩

/-- The routine goes on behind its label, or has come to its end. -/
def GoesOn (stop : Stop) : Prop := stop.halts = false

/-! ## Commands -/

theorem keeps_exchange {allowed : Stop → Prop} (mosi : Option UInt8) :
    (exchange bus mosi).Keeps (Writes S) allowed := fun _ =>
  ⟨fun _ _ => rfl, fun _ stopped => nomatch stopped⟩

theorem keeps_csDeassert : (mmhalWlanSpiCsDeassert bus).Keeps (Writes S) GoesOn :=
  keeps_modify fun _ _ _ => rfl

theorem keeps_fail {α : Type} (rc : SdioSpiRc) :
    (fail rc : Spi σ α).Keeps (Writes S) GoesOn :=
  keeps_stop rfl

theorem keeps_waitReadyLoop {allowed : Stop → Prop} (attempt : ℕ) :
    (waitReadyLoop bus attempt).Keeps (Writes S) allowed := by
  induction attempt with
  | zero => exact keeps_pure false
  | succ attempt ih =>
      rw [waitReadyLoop]
      refine keeps_bind (keeps_exchange _) fun result => ?_
      split
      · exact keeps_pure true
      · exact ih

theorem keeps_writeBuf (buf : List UInt8) :
    (mmhalWlanSpiWriteBuf bus buf).Keeps (Writes S) GoesOn := by
  induction buf with
  | nil => exact keeps_pure ()
  | cons b buf ih =>
      rw [mmhalWlanSpiWriteBuf]
      exact keeps_bind (keeps_exchange _) fun _ => ih

theorem keeps_responseLoop (attempts : ℕ) (status data : UInt8) :
    (responseLoop bus none attempts status data).Keeps (Writes S) GoesOn := by
  induction attempts generalizing status data with
  | zero => exact keeps_pure _
  | succ attempts ih =>
      rw [responseLoop]
      refine keeps_bind (keeps_exchange _) fun next => ?_
      show (if data ≠ 0xff then _ else responseLoop bus none attempts data next).Keeps _ _
      split
      · exact keeps_pure _
      · exact ih data next

/-- What is done between selecting and deselecting the device. -/
theorem keeps_selected {body last : Spi σ Unit} {deselected : σ → Prop}
    (keeps : body.Keeps (Writes S) GoesOn) (ends : last.Keeps (Writes S) GoesOn)
    (closes : ∀ w, deselected (last w).2.device) :
    (do
      mmhalWlanSpiCsAssert bus
      Routine.atExit Stop.halts body last : Spi σ Unit).Keeps (Finishes S deselected) GoesOn := by
  have closed : (Routine.atExit Stop.halts body last).Keeps
      (fun w w' => Writes S w w' ∧ deselected w'.device) GoesOn :=
    keeps_atExit keeps (fun _ goesOn => goesOn) ends fun w w' moved =>
      ⟨trans_of (Writes S) moved (ends w').1, closes w'⟩
  intro w
  have done := closed { w with device := bus.csAssert w.device }
  exact ⟨⟨fun a outside => done.1.1 a outside, fun _ => done.1.2⟩, done.2⟩

variable {deselected : σ → Prop} (closes : ∀ s, deselected (bus.csDeassert s))

include closes

/-- The packet of a command has a CRC. -/
theorem keeps_sendCmd {cmdIdx : UInt8} (checked : cmdIdx = 52 ∨ cmdIdx = 53) (arg : UInt32) :
    (sdioSpiSendCmd bus cmdIdx arg none).Keeps (Finishes S deselected) GoesOn := by
  have notInit : cmdIdx ≠ 63 := by
    rcases checked with rfl | rfl <;> decide
  rw [sdioSpiSendCmd, if_pos notInit, commandPacket_eq checked]
  refine keeps_selected ?_ keeps_csDeassert fun w => closes w.device
  refine keeps_bind (keeps_waitReadyLoop _) fun _ =>
    keeps_bind (keeps_require fun _ => rfl) fun _ => ?_
  refine keeps_bind (keeps_writeBuf _) fun _ => keeps_bind (keeps_exchange _) fun data => ?_
  refine keeps_bind (keeps_responseLoop _ _ _) fun response => ?_
  exact keeps_bind (keeps_require fun _ => rfl) fun _ => keeps_require fun _ => rfl

theorem keeps_cmd52Write {address : UInt32} (below : address ≤ mmhalSdioAddressMax) (data : UInt8)
    (fn : SdioFunction) :
    (morseCmd52Write bus address data fn).Keeps (Finishes S deselected) GoesOn :=
  keeps_bind (keeps_require (absurd below)) fun _ => keeps_sendCmd closes (.inl rfl) _

theorem keeps_addressBaseSet (address : UInt32) {access : UInt8}
    (allowed : access ≤ morseConfigAccess4Byte) (fn : SdioFunction) :
    (morseAddressBaseSet bus address access fn).Keeps (Finishes S deselected) GoesOn :=
  keeps_bind (keeps_require (absurd allowed)) fun _ =>
    keeps_bind (keeps_cmd52Write closes (by decide) _ fn) fun _ =>
      keeps_bind (keeps_cmd52Write closes (by decide) _ fn) fun _ =>
        keeps_cmd52Write closes (by decide) _ fn

theorem keeps_cmd53SendCmd (rw : SdioRw) (fn : SdioFunction) (mode : SdioMode) (address : UInt32)
    {count : UInt16} (counted : count.toNat < 1024) :
    (morseCmd53SendCmd bus rw fn mode (address &&& 0x0000ffff) count).Keeps
      (Finishes S deselected) GoesOn := by
  have addressBelow : (address &&& 0x0000ffff) ≤ mmhalSdioAddressMax := by
    rw [UInt32.le_iff_toNat_le, toNat_and_low]
    exact Nat.le_of_lt (Nat.lt_trans (Nat.mod_lt _ (by decide)) (by decide))
  have countBelow : count.toUInt32 ≤ mmhalSdioCountMax :=
    UInt32.le_iff_toNat_le.mpr (Nat.le_of_lt_succ counted)
  exact keeps_bind (keeps_require (absurd addressBelow)) fun _ =>
    keeps_bind (keeps_require (absurd countBelow)) fun _ => keeps_sendCmd closes (.inr rfl) _

/-! ## Data -/

omit closes in
theorem keeps_startTokenLoop (attempts : ℕ) (rcvData : UInt8) :
    (startTokenLoop bus attempts rcvData).Keeps (Writes S) GoesOn := by
  induction attempts generalizing rcvData with
  | zero => exact keeps_pure _
  | succ attempts ih =>
      rw [startTokenLoop]
      refine keeps_bind (keeps_exchange _) fun next => ?_
      split
      · exact keeps_pure _
      · exact ih next

omit closes in
variable (bus) in
theorem keeps_readBytes (n : ℕ) : (readBytes bus n).Keeps (Writes S) GoesOn := by
  induction n with
  | zero => exact keeps_pure _
  | succ n ih =>
      rw [readBytes]
      exact keeps_bind (keeps_exchange _) fun _ => keeps_bind ih fun _ => keeps_pure _

omit closes in
/-- As many bytes as were asked for. -/
theorem length_of_readBytes {n : ℕ} {w w' : World σ} {bytes : List UInt8}
    (read : (readBytes bus n).Returns w bytes w') : bytes.length = n := by
  induction n generalizing w bytes w' with
  | zero =>
      obtain ⟨rfl, -⟩ := returns_pure_iff.mp read
      rfl
  | succ n ih =>
      rw [readBytes] at read
      obtain ⟨first, w₁, -, others⟩ := returns_bind_iff.mp read
      obtain ⟨rest, w₂, more, whole⟩ := returns_bind_iff.mp others
      obtain ⟨rfl, -⟩ := returns_pure_iff.mp whole
      rw [List.length_cons, ih more]

omit closes in
theorem keeps_readBuf {buf len : ℕ} (inside : ∀ i < len, S (buf + i)) :
    (mmhalWlanSpiReadBuf bus buf len).Keeps (Writes S) GoesOn := fun w => by
  have kept := keeps_readBytes bus (S := S) len w
  rw [mmhalWlanSpiReadBuf, bind_apply]
  rcases result : readBytes bus len w with ⟨reason | bytes, w'⟩
  · rw [result] at kept
    refine ⟨kept.1, fun reason' stopped => ?_⟩
    cases stopped
    exact kept.2 _ rfl
  · rw [result] at kept
    have length := length_of_readBytes result
    refine ⟨trans_of (Writes S) kept.1 fun a outside => ?_, fun _ stopped => nomatch stopped⟩
    show store w'.mem buf bytes a = w'.mem a
    rw [store]
    split
    next above =>
      refine List.getD_eq_default _ _ (Nat.not_lt.mp fun lt => outside ?_)
      rw [← Nat.add_sub_cancel' above]
      exact inside _ (length ▸ lt)
    next => rfl

omit closes in
theorem keeps_getDataLoop (blockSize : BlockSize) {byteCnt : UInt16} {data : ℕ}
    (inside : ∀ i < byteCnt.toNat, S (data + i)) :
    (getDataLoop bus blockSize byteCnt data).Keeps (Writes S) GoesOn := by
  generalize whole : byteCnt.toNat = n
  induction n using Nat.strong_induction_on generalizing byteCnt data with
  | h n ih =>
      rw [getDataLoop]
      split
      · exact keeps_pure ()
      next more =>
        have positive := Nat.pos_of_ne_zero fun zero => more (UInt16.toNat_inj.mp zero)
        have block : 0 < blockSize.value := by cases blockSize <;> decide
        have bound := byteCnt.toNat_lt
        generalize taken : min byteCnt.toNat blockSize.value = size
        have size16 : (UInt16.ofNat size).toNat = size := by
          rw [UInt16.toNat_ofNat']
          omega
        have left : (byteCnt - UInt16.ofNat size).toNat = byteCnt.toNat - size := by
          rw [UInt16.toNat_sub_of_le _ _ (UInt16.le_iff_toNat_le.mpr (by omega)), size16]
        refine keeps_bind (keeps_startTokenLoop _ _) fun _ =>
          keeps_bind (keeps_require fun _ => rfl) fun _ => ?_
        refine keeps_bind (keeps_readBuf fun i lt => inside i (by omega)) fun _ => ?_
        refine keeps_bind (keeps_exchange _) fun _ => keeps_bind (keeps_exchange _) fun _ => ?_
        refine keeps_bind keeps_get fun _ => keeps_bind (keeps_require fun _ => rfl) fun _ => ?_
        refine ih (byteCnt.toNat - size) (by omega) (fun i lt => ?_) left
        rw [Nat.add_assoc]
        exact inside (size + i) (by omega)

theorem keeps_getData (blockSize : BlockSize) {byteCnt : UInt16} {data : ℕ}
    (inside : ∀ i < byteCnt.toNat, S (data + i)) :
    (morseCmd53GetData bus byteCnt data blockSize).Keeps (Finishes S deselected) GoesOn :=
  keeps_selected (keeps_getDataLoop blockSize inside) keeps_csDeassert fun w => closes w.device

omit closes in
theorem keeps_dataResponseLoop (attempts : ℕ) (rcvData : UInt8) :
    (dataResponseLoop bus attempts rcvData).Keeps (Writes S) GoesOn := by
  induction attempts generalizing rcvData with
  | zero => exact keeps_pure _
  | succ attempts ih =>
      rw [dataResponseLoop]
      refine keeps_bind (keeps_exchange _) fun next => ?_
      split
      · exact keeps_pure _
      · exact ih next

omit closes in
theorem keeps_putBlock (startTkn : UInt8) (data size : ℕ) :
    (putBlock bus startTkn data size).Keeps (Writes S) GoesOn := by
  refine keeps_bind keeps_get fun _ => keeps_bind (keeps_waitReadyLoop _) fun _ => ?_
  refine keeps_bind (keeps_require fun _ => rfl) fun _ => keeps_bind (keeps_exchange _) fun _ => ?_
  refine keeps_bind (keeps_writeBuf _) fun _ => keeps_bind (keeps_exchange _) fun _ => ?_
  refine keeps_bind (keeps_exchange _) fun _ => keeps_bind (keeps_dataResponseLoop _ _) fun _ => ?_
  exact keeps_require fun _ => rfl

omit closes in
theorem keeps_putBlocks (startTkn : UInt8) (blockSize : BlockSize) (cnt data : ℕ) :
    (putBlocks bus startTkn blockSize cnt data).Keeps (Writes S) GoesOn := by
  induction cnt generalizing data with
  | zero => exact keeps_pure ()
  | succ cnt ih =>
      rw [putBlocks]
      exact keeps_bind (keeps_putBlock _ _ _) fun _ => ih _

omit closes in
theorem keeps_putDataLoop (startTkn : UInt8) {cnt : UInt16} (data : ℕ) {mode : SdioMode}
    {blockSize : BlockSize} (fits : mode = .byte → cnt.toNat ≤ blockSize.value) :
    (putDataLoop bus startTkn cnt data mode blockSize).Keeps (Writes S) GoesOn := by
  rw [putDataLoop.eq_def]
  split
  · exact keeps_fail _
  · split
    · exact keeps_putBlocks _ _ _ _
    · exact keeps_bind (keeps_require (absurd (fits rfl))) fun _ => keeps_putBlock _ _ _

omit closes in
/-- The device is deselected behind a routine that never stops. -/
theorem deselected_behind {α : Type} {x : Spi σ α} {f : α → Spi σ Unit}
    (never : x.Keeps (Writes fun _ => False) fun _ => False)
    (behind : ∀ a w, deselected (f a w).2.device) (w : World σ) :
    deselected ((x >>= f) w).2.device := by
  obtain ⟨a, w', returned⟩ := never.returns w
  rw [bind_apply, returned]
  exact behind a w'

omit closes in
theorem keeps_putEnd (startTkn : UInt8) :
    (do
      if startTkn = tknMultiWrite then
        let _ ← mmhalWlanSpiRw bus tknStopTransaction
      let _ ← morseWaitReady bus
      mmhalWlanSpiCsDeassert bus : Spi σ Unit).Keeps (Writes S) GoesOn := by
  split
  · exact keeps_bind (keeps_exchange _) fun _ =>
      keeps_bind (keeps_waitReadyLoop _) fun _ => keeps_csDeassert
  · exact keeps_bind (keeps_waitReadyLoop _) fun _ => keeps_csDeassert

theorem deselected_putEnd (startTkn : UInt8) (w : World σ) :
    deselected ((do
      if startTkn = tknMultiWrite then
        let _ ← mmhalWlanSpiRw bus tknStopTransaction
      let _ ← morseWaitReady bus
      mmhalWlanSpiCsDeassert bus : Spi σ Unit) w).2.device := by
  have waited (w : World σ) : deselected ((do
      let _ ← morseWaitReady bus
      mmhalWlanSpiCsDeassert bus : Spi σ Unit) w).2.device :=
    deselected_behind (keeps_waitReadyLoop _) (fun _ w => closes w.device) w
  split
  · exact deselected_behind (keeps_exchange _) (fun _ => waited) w
  · exact waited w

theorem keeps_putData {cnt : UInt16} (data : ℕ) {mode : SdioMode} {blockSize : BlockSize}
    (fits : mode = .byte → cnt.toNat ≤ blockSize.value) :
    (morseCmd53PutData bus cnt data mode blockSize).Keeps (Finishes S deselected) GoesOn :=
  keeps_selected (keeps_putDataLoop _ data fits) (keeps_putEnd _) (deselected_putEnd closes _)

/-! ## Transfers -/

theorem keeps_cmd53Read (fn : SdioFunction) (address : UInt32) {data : ℕ} {len : UInt32}
    (le : len.toNat ≤ 65536) (counted : len.toNat / (blockSizeOf fn).value < 1024)
    (inside : ∀ i < len.toNat, S (data + i)) :
    (morseCmd53Read bus fn address data len).Keeps (Finishes S deselected) GoesOn := by
  have bound : 0 < (blockSizeOf fn).value ∧ (blockSizeOf fn).value ≤ 512 := by
    cases fn <;> decide
  have count := toNat_numBlocksOf (blockSizeOf fn) le
  have bytes := toNat_blockBytesOf (blockSizeOf fn) le
  have rest := toNat_restOf (blockSizeOf fn) le
  have split := Nat.div_add_mod' len.toNat (blockSizeOf fn).value
  have restLt := Nat.mod_lt len.toNat bound.1
  generalize len.toNat / (blockSizeOf fn).value = k at *
  generalize len.toNat % (blockSizeOf fn).value = r at *
  have tail : (do
      if len - blockBytesOf (blockSizeOf fn) len > 0 then
        morseCmd53SendCmd bus .read fn .byte
          ((address + blockBytesOf (blockSizeOf fn) len) &&& 0x0000ffff)
          (len - blockBytesOf (blockSizeOf fn) len).toUInt16
        morseCmd53GetData bus (len - blockBytesOf (blockSizeOf fn) len).toUInt16
          (data + (blockBytesOf (blockSizeOf fn) len).toNat) (blockSizeOf fn)
      Routine.require (¬(numBlocksOf (blockSizeOf fn) len = 0 ∧
        len - blockBytesOf (blockSizeOf fn) len = 0)) (.exit .minusOne) : Spi σ Unit).Keeps
      (Finishes S deselected) GoesOn := by
    have restBytes : (len - blockBytesOf (blockSizeOf fn) len).toUInt16.toNat = r := by
      rw [UInt32.toNat_toUInt16, rest]
      omega
    split
    · refine keeps_bind (keeps_cmd53SendCmd closes _ _ _ _ (by omega)) fun _ =>
        keeps_bind (keeps_getData closes _ fun i lt => ?_) fun _ => keeps_require fun _ => rfl
      rw [bytes, Nat.add_assoc]
      exact inside _ (by omega)
    · exact keeps_require fun _ => rfl
  unfold morseCmd53Read
  by_cases blocks : numBlocksOf (blockSizeOf fn) len > 0
  · rw [if_pos blocks]
    refine keeps_bind (keeps_cmd53SendCmd closes _ _ _ _ (by rw [count]; exact counted)) fun _ =>
      keeps_bind (keeps_getData closes _ fun i lt => inside i ?_) fun _ => tail
    have cutOff : (blockBytesOf (blockSizeOf fn) len).toUInt16.toNat ≤
        (blockBytesOf (blockSizeOf fn) len).toNat := by
      rw [UInt32.toNat_toUInt16]
      exact Nat.mod_le _ _
    exact Nat.lt_of_lt_of_le lt (Nat.le_trans cutOff (by rw [bytes]; omega))
  · rw [if_neg blocks]
    exact tail

theorem keeps_cmd53Write (fn : SdioFunction) (address : UInt32) (data : ℕ) {len : UInt32}
    (le : len.toNat ≤ 65536) (counted : len.toNat / (blockSizeOf fn).value < 1024) :
    (morseCmd53Write bus fn address data len).Keeps (Finishes S deselected) GoesOn := by
  have bound : 0 < (blockSizeOf fn).value ∧ (blockSizeOf fn).value ≤ 512 := by
    cases fn <;> decide
  have count := toNat_numBlocksOf (blockSizeOf fn) le
  have rest := toNat_restOf (blockSizeOf fn) le
  have restLt := Nat.mod_lt len.toNat bound.1
  have tail : (do
      if len - blockBytesOf (blockSizeOf fn) len > 0 then
        morseCmd53SendCmd bus .write fn .byte
          ((address + blockBytesOf (blockSizeOf fn) len) &&& 0x0000ffff)
          (len - blockBytesOf (blockSizeOf fn) len).toUInt16
        morseCmd53PutData bus (len - blockBytesOf (blockSizeOf fn) len).toUInt16
          (data + (blockBytesOf (blockSizeOf fn) len).toNat) .byte (blockSizeOf fn)
      Routine.require (¬(numBlocksOf (blockSizeOf fn) len = 0 ∧
        len - blockBytesOf (blockSizeOf fn) len = 0)) (.exit .unspecifiedError) :
        Spi σ Unit).Keeps (Finishes S deselected) GoesOn := by
    have restBytes : (len - blockBytesOf (blockSizeOf fn) len).toUInt16.toNat =
        len.toNat % (blockSizeOf fn).value := by
      rw [UInt32.toNat_toUInt16, rest]
      exact Nat.mod_eq_of_lt (Nat.lt_of_lt_of_le restLt (Nat.le_trans bound.2 (by decide)))
    split
    · exact keeps_bind (keeps_cmd53SendCmd closes _ _ _ _ (by omega)) fun _ =>
        keeps_bind (keeps_putData closes _ fun _ => by omega) fun _ => keeps_require fun _ => rfl
    · exact keeps_require fun _ => rfl
  unfold morseCmd53Write
  by_cases blocks : numBlocksOf (blockSizeOf fn) len > 0
  · rw [if_pos blocks]
    exact keeps_bind (keeps_cmd53SendCmd closes _ _ _ _ (by rw [count]; exact counted)) fun _ =>
      keeps_bind (keeps_putData closes _ fun byte => nomatch byte) fun _ => tail
  · rw [if_neg blocks]
    exact tail

theorem keeps_readRound (address : UInt32) {data : ℕ} {size : UInt32} (le : size.toNat ≤ 65536)
    (inside : ∀ i < max size.toNat 8, S (data + i)) :
    (readRound bus address data size).Keeps (Finishes S deselected) GoesOn := by
  have few : size.toNat / 512 < 1024 := Nat.lt_trans (blocks_few le) (by decide)
  refine keeps_bind (keeps_addressBaseSet closes address (by decide) _) fun _ => ?_
  refine keeps_bind (keeps_cmd53Read closes .function2 address le few fun i lt =>
    inside i (by omega)) fun _ => keeps_bind keeps_get fun w => ?_
  split
  · exact keeps_cmd53Read closes .function2 address (by decide) (by decide)
      fun i lt => inside i (Nat.lt_of_lt_of_le lt (Nat.le_max_right _ _))
  · exact keeps_pure ()

theorem keeps_writeRound (address : UInt32) (data : ℕ) {size : UInt32} (le : size.toNat ≤ 65536) :
    (writeRound bus address data size).Keeps (Finishes S deselected) GoesOn :=
  keeps_bind (keeps_addressBaseSet closes address (by decide) _) fun _ =>
    (keeps_cmd53Write closes .function2 address data le
      (Nat.lt_trans (blocks_few le) (by decide))).ignore

/-- The places of the buffer, from its start on, that a read may write: its own, and those behind it
that belong to the first eight bytes of a part. -/
def Touched (address len i : ℕ) : Prop :=
  i < len ∨ 0 < len ∧ (i < 8 ∨ i + lastPart address len < len + 8)

omit closes in
theorem touched_step {address len size i : ℕ} (some : 0 < size) (within : size ≤ len)
    (full : size < len → address % 65536 + size = 65536)
    (touched : Touched (address + size) (len - size) i) : Touched address len (size + i) := by
  have rest : 0 < len - size := by
    rw [Touched] at touched
    omega
  have boundary := full (by omega)
  have same : lastPart (address + size) (len - size) = lastPart address len := by
    rw [lastPart, lastPart, show address + size + (len - size) = address + len by omega]
  have short : lastPart address len ≤ len - size := by
    rw [lastPart]
    omega
  rw [Touched, same] at touched
  rw [Touched]
  omega

theorem keeps_readLoop {n : ℕ} {address len : UInt32} {data : ℕ}
    (below : address.toNat + len.toNat ≤ 0xffff0000)
    (enough : len.toNat = 0 ∨ address.toNat % 65536 + len.toNat ≤ 65536 * n)
    (inside : ∀ i, Touched address.toNat len.toNat i → S (data + i)) :
    (readLoop bus (n + 1) address data len).Keeps (Finishes S deselected) GoesOn := by
  induction n generalizing address data len with
  | zero =>
      have none : len = 0 := UInt32.toNat_inj.mp (by show len.toNat = 0; omega)
      rw [readLoop, if_pos none]
      exact keeps_pure ()
  | succ n ih =>
      rw [readLoop]
      split
      next => exact keeps_pure ()
      next more =>
        have positive : 0 < len.toNat :=
          Nat.pos_of_ne_zero fun zero => more (UInt32.toNat_inj.mp zero)
        generalize part : (transferSize address len).toNat = size
        obtain ⟨next, left, some, within, within64K, full⟩ :=
          transferSize_step below positive part
        refine keeps_bind (keeps_readRound closes address (by omega) fun i lt =>
          inside i ?_) fun _ => ?_
        · rw [Touched]
          omega
        · rw [part]
          refine ih (by omega) (by rw [next, left]; exact enough_step enough within full) ?_
          intro i touched
          rw [next, left] at touched
          rw [Nat.add_assoc]
          exact inside _ (touched_step some within full touched)

theorem keeps_writeLoop {n : ℕ} {address len : UInt32} (data : ℕ)
    (below : address.toNat + len.toNat ≤ 0xffff0000)
    (enough : len.toNat = 0 ∨ address.toNat % 65536 + len.toNat ≤ 65536 * n) :
    (writeLoop bus (n + 1) address data len).Keeps (Finishes S deselected) GoesOn := by
  induction n generalizing address data len with
  | zero =>
      have none : len = 0 := UInt32.toNat_inj.mp (by show len.toNat = 0; omega)
      rw [writeLoop, if_pos none]
      exact keeps_pure ()
  | succ n ih =>
      rw [writeLoop]
      split
      next => exact keeps_pure ()
      next more =>
        have positive : 0 < len.toNat :=
          Nat.pos_of_ne_zero fun zero => more (UInt32.toNat_inj.mp zero)
        generalize part : (transferSize address len).toNat = size
        obtain ⟨next, left, some, within, within64K, full⟩ :=
          transferSize_step below positive part
        refine keeps_bind (keeps_writeRound closes address data (by omega)) fun _ => ?_
        exact ih _ (by omega) (by rw [next, left]; exact enough_step enough within full)

theorem keeps_readMultiByte {n : ℕ} {address len : UInt32} (data : ℕ)
    (below : address.toNat + len.toNat ≤ 0xffff0000)
    (enough : address.toNat % 65536 + len.toNat ≤ 65536 * n) :
    (sdioSpiReadMultiByte bus (n + 1) address data len).Keeps
      (Finishes (fun a => data ≤ a ∧ Touched address.toNat len.toNat (a - data)) deselected)
      GoesOn := by
  refine keeps_bind (keeps_require fun _ => rfl) fun _ =>
    keeps_readLoop closes below (.inr enough) ?_
  intro i touched
  rw [Nat.add_sub_cancel_left]
  exact ⟨Nat.le_add_right data i, touched⟩

theorem keeps_writeMultiByte {n : ℕ} {address len : UInt32} (data : ℕ)
    (below : address.toNat + len.toNat ≤ 0xffff0000)
    (enough : address.toNat % 65536 + len.toNat ≤ 65536 * n) :
    (sdioSpiWriteMultiByte bus (n + 1) address data len).Keeps
      (Finishes (fun _ => False) deselected) GoesOn :=
  keeps_bind (keeps_require fun _ => rfl) fun _ => keeps_writeLoop closes data below (.inr enough)

omit closes in
/-- **The bulk test comes to a verdict** on any device, which depends on the second buffer alone: on
what it holds at the end, wherever that came from. -/
theorem testStepBulkWriteRead_verdict (bus : SpiBus σ) (n txData rxData : ℕ) (w : World σ) :
    ∃ result w', (testStepBulkWriteRead bus (n + 2) (some txData) (some rxData)).Returns w result w' ∧
      (result = .passed ↔ ∀ i < bulkRwPacketLenBytes.toNat,
        w'.mem (rxData + i) = pattern bulkRwPacketLenBytes.toNat 0 i) := by
  have exits (reason : Stop) (may : GoesOn reason) : reason.halts = false := may
  have enough : mm6108BenchmarkAddrStart.toNat % 65536 + bulkRwPacketLenBytes.toNat ≤
      65536 * (n + 1) := Nat.le_trans (by decide) (Nat.le_mul_of_pos_right 65536 n.succ_pos)
  have below : mm6108BenchmarkAddrStart.toNat + bulkRwPacketLenBytes.toNat ≤ 0xffff0000 := by
    decide
  have ends (s : σ) : Function.const σ True (bus.csDeassert s) := trivial
  have reads := keeps_readMultiByte ends rxData below enough
  have writes := keeps_writeMultiByte ends txData below enough
  have populated := populateBuffer_returns txData bulkRwPacketLenBytes w
  obtain ⟨written, w₁, wrote⟩ := writes.attempt_returns exits _
  obtain ⟨read, w₂, readBack⟩ := reads.attempt_returns exits w₁
  have done : ∃ result, (testStepBulkWriteRead bus (n + 2) (some txData) (some rxData)).Returns w
      result w₂ := by
    refine ⟨if validBuffer w₂.mem rxData bulkRwPacketLenBytes = false then .failed else .passed, ?_⟩
    rw [testStepBulkWriteRead]
    refine populated.bind (wrote.bind ?_)
    rw [processSdioSpiMultiByteReturn_true, if_neg (by decide)]
    refine readBack.bind ?_
    rw [processSdioSpiMultiByteReturn_true, if_neg (by decide)]
    refine (returns_get _).bind ?_
    split
    next => exact returns_pure _ _
    next => exact returns_pure _ _
  obtain ⟨result, done⟩ := done
  exact ⟨result, w₂, done, testStepBulkWriteRead_passed_iff done⟩

end HalowBridge.Sdio
