import HalowBridge.Sdio.CardCommands

/-!
# Blocks between the driver and a card

A block that the card sends is stored in the memory of the host, and a block that the driver sends
in that of the card. In both directions, the cells behind those that are there already are filled
block by block, so that a transfer as a whole is a `fill`.
-/

namespace HalowBridge.Sdio

open BitField Keystream Mmutils Routine

variable {lat : Latency} {mem cells : ℕ → UInt8} {c : Card}

/-! ## Memory -/

@[simp] theorem length_load (mem : ℕ → UInt8) (addr n : ℕ) : (load mem addr n).length = n := by
  rw [load, List.length_map, List.length_range]

theorem getElem_load (mem : ℕ → UInt8) (addr n i : ℕ) (lt : i < (load mem addr n).length) :
    (load mem addr n)[i] = mem (addr + i) := by
  simp only [load, List.getElem_map, List.getElem_range]

/-- What was copied is loaded. -/
theorem load_store (mem : ℕ → UInt8) (addr : ℕ) (bytes : List UInt8) :
    load (store mem addr bytes) addr bytes.length = bytes := by
  refine List.ext_getElem (length_load _ _ _) fun i left right => ?_
  rw [getElem_load, store, if_pos (Nat.le_add_right addr i), Nat.add_sub_cancel_left,
    List.getD_eq_getElem _ _ right]

/-- The cells that follow are copied from another memory. -/
theorem store_load (mem other : ℕ → UInt8) (addr start n size : ℕ) :
    store (fill mem addr n fun i => other (start + i)) (addr + n) (load other (start + n) size) =
      fill mem addr (n + size) fun i => other (start + i) := by
  rw [store_fill, length_load]
  intro i lt
  rw [getElem_load, Nat.add_assoc]

/-! ## Blocks to the host -/

theorem readBytes_returns {bytes out : List UInt8} (sends : c.out = bytes ++ out) :
    (readBytes (cardBus lat) bytes.length).Returns ⟨mem, c⟩ bytes ⟨mem, { c with out }⟩ := by
  induction bytes generalizing c with
  | nil =>
      have same : { c with out } = c := by
        rw [← show c.out = out from sends]
      rw [same]
      exact returns_pure _ _
  | cons b bytes ih =>
      have sent := exchange_sent lat mem none sends
      rw [List.length_cons, readBytes]
      exact sent.bind ((ih (c := { c with out := bytes ++ out }) rfl).bind (returns_pure _ _))

variable (lat mem) in
theorem mmhalWlanSpiReadBuf_returns (buf : ℕ) {bytes out : List UInt8}
    (sends : c.out = bytes ++ out) :
    (mmhalWlanSpiReadBuf (cardBus lat) buf bytes.length).Returns ⟨mem, c⟩ ()
      ⟨store mem buf bytes, { c with out }⟩ :=
  (readBytes_returns sends).bind (returns_modify _ _)

variable (lat mem) in
theorem startTokenLoop_returns {wait attempts : ℕ} (short : wait < attempts) (before : UInt8)
    {out : List UInt8}
    (sends : c.out = List.replicate wait 0xff ++ tknReadSingleWrite :: out) :
    (startTokenLoop (cardBus lat) attempts before).Returns ⟨mem, c⟩ tknReadSingleWrite
      ⟨mem, { c with out }⟩ := by
  induction wait generalizing c attempts before with
  | zero =>
      obtain ⟨attempts, rfl⟩ : ∃ n, attempts = n + 1 := ⟨attempts - 1, by omega⟩
      have sent := exchange_sent lat mem (some 0xff) sends
      rw [startTokenLoop]
      exact sent.bind (returns_pure _ _)
  | succ wait ih =>
      obtain ⟨attempts, rfl⟩ : ∃ n, attempts = n + 1 := ⟨attempts - 1, by omega⟩
      have sent := exchange_sent lat mem (some 0xff) sends
      rw [startTokenLoop]
      exact sent.bind (ih (by omega) 0xff rfl)

/-- The two bytes of a CRC are put together again. -/
theorem halves_crc (crc : UInt16) :
    (crc >>> 8).toUInt8.toUInt16 <<< 8 ||| crc.toUInt8.toUInt16 = crc := by
  have lt := crc.toNat_lt
  have high : (crc >>> 8).toUInt8.toNat = crc.toNat / 256 := by
    rw [UInt16.toNat_toUInt8, UInt16.toNat_shiftRight]
    show crc.toNat >>> 8 % 256 = _
    rw [Nat.shiftRight_eq_div_pow]
    omega
  rw [← UInt16.toNat_inj, UInt16.or_comm, toNat_two_bytes, unpackLe, unpackLe, unpackLe, high,
    UInt16.toNat_toUInt8]
  omega

/-- The blocks that the driver takes a number of bytes for. -/
inductive Splits (blockSize : BlockSize) : ℕ → List ℕ → Prop
  | done : Splits blockSize 0 []
  | block {n : ℕ} {sizes : List ℕ} (positive : 0 < n)
      (others : Splits blockSize (n - min n blockSize.value) sizes) :
      Splits blockSize n (min n blockSize.value :: sizes)

theorem Splits.cons {blockSize : BlockSize} {n size : ℕ} {sizes : List ℕ}
    (split : Splits blockSize n (size :: sizes)) :
    0 < size ∧ min n blockSize.value = size ∧ Splits blockSize (n - size) sizes := by
  cases split with
  | block positive others =>
      have unit : 0 < blockSize.value := by cases blockSize <;> decide
      exact ⟨by omega, rfl, others⟩

theorem splits_blocks (blockSize : BlockSize) (k : ℕ) :
    Splits blockSize (k * blockSize.value) (List.replicate k blockSize.value) := by
  have positive : 0 < blockSize.value := by cases blockSize <;> decide
  induction k with
  | zero =>
      rw [Nat.zero_mul]
      exact .done
  | succ k ih =>
      have size : min ((k + 1) * blockSize.value) blockSize.value = blockSize.value :=
        Nat.min_eq_right (Nat.le_mul_of_pos_left _ k.succ_pos)
      have others : (k + 1) * blockSize.value - blockSize.value = k * blockSize.value := by
        rw [Nat.succ_mul, Nat.add_sub_cancel]
      have split : Splits blockSize ((k + 1) * blockSize.value)
          (min ((k + 1) * blockSize.value) blockSize.value :: List.replicate k blockSize.value) :=
        .block (Nat.mul_pos k.succ_pos positive) (by rw [size, others]; exact ih)
      rw [size] at split
      exact split

theorem splits_rest (blockSize : BlockSize) {r : ℕ} (positive : 0 < r)
    (lt : r < blockSize.value) : Splits blockSize r [r] := by
  have size : min r blockSize.value = r := Nat.min_eq_left (Nat.le_of_lt lt)
  have split : Splits blockSize r (min r blockSize.value :: []) :=
    .block positive (by rw [size, Nat.sub_self]; exact .done)
  rwa [size] at split

/-- The bytes that are left behind a block. -/
theorem toNat_sub_block {byteCnt : UInt16} {size : ℕ} (le : size ≤ byteCnt.toNat) :
    (byteCnt - UInt16.ofNat size).toNat = byteCnt.toNat - size := by
  have bound := byteCnt.toNat_lt
  have size16 : (UInt16.ofNat size).toNat = size := by
    rw [UInt16.toNat_ofNat']
    omega
  rw [UInt16.toNat_sub_of_le _ _ (UInt16.le_iff_toNat_le.mpr (by omega)), size16]

/-- **A block is stored, and its CRC decides** whether the driver goes on. -/
theorem getDataLoop_block (short : lat.Short) (blockSize : BlockSize) {byteCnt : UInt16} (data : ℕ)
    {block out : List UInt8} {high low : UInt8} (positive : 0 < block.length)
    (size : min byteCnt.toNat blockSize.value = block.length)
    (sends : c.out = List.replicate lat.token 0xff ++
      tknReadSingleWrite :: (block ++ high :: low :: out)) :
    getDataLoop (cardBus lat) blockSize byteCnt data ⟨mem, c⟩ =
      if morseCrc16 0 block = high.toUInt16 <<< 8 ||| low.toUInt16 then
        getDataLoop (cardBus lat) blockSize (byteCnt - UInt16.ofNat block.length)
          (data + block.length) ⟨store mem data block, { c with out }⟩
      else (.error (.exit .invalidCrcRecieved), ⟨store mem data block, { c with out }⟩) := by
  have more : byteCnt ≠ 0 := by
    rintro rfl
    rw [show (0 : UInt16).toNat = 0 from rfl, Nat.zero_min] at size
    exact absurd size (Nat.ne_of_lt positive)
  have token := startTokenLoop_returns lat mem short.token 0 sends
  have read := mmhalWlanSpiReadBuf_returns lat mem (c := { c with
    out := block ++ high :: low :: out }) data rfl
  have first := exchange_sent lat (store mem data block) (c := { c with
    out := high :: low :: out }) (some 0xff) rfl
  have second := exchange_sent lat (store mem data block) (c := { c with
    out := low :: out }) (some 0xff) rfl
  rw [getDataLoop, if_neg more, size, token.bind_eq, (returns_require _ rfl).bind_eq, read.bind_eq]
  refine first.bind_eq.trans (second.bind_eq.trans ((returns_get _).bind_eq.trans ?_))
  dsimp only
  rw [load_store]
  split
  next same => exact (returns_require _ same).bind_eq
  next differs => exact (stops_require _ differs).bind

variable (mem cells) in
/-- **The blocks of a card reach the memory of the host**, behind those that are there. -/
theorem getDataLoop_returns (short : lat.Short) (blockSize : BlockSize) (data start : ℕ)
    {byteCnt : UInt16} {n : ℕ} {sizes : List ℕ} (split : Splits blockSize byteCnt.toNat sizes)
    (sends : c.out = (cut cells (start + n) sizes).flatMap (sendBlock lat)) :
    (getDataLoop (cardBus lat) blockSize byteCnt (data + n)).Returns
      ⟨fill mem data n fun i => cells (start + i), c⟩ ()
      ⟨fill mem data (n + byteCnt.toNat) fun i => cells (start + i), { c with out := [] }⟩ := by
  generalize whole : byteCnt.toNat = total at split
  induction split generalizing byteCnt n c with
  | done =>
      have zero : byteCnt = 0 := UInt16.toNat_inj.mp whole
      have same : { c with out := [] } = c := by
        rw [← show c.out = [] from sends]
      rw [getDataLoop, if_pos zero, same]
      exact returns_pure _ _
  | @block total sizes positive others ih =>
      have unit : 0 < blockSize.value := by cases blockSize <;> decide
      generalize taken : min total blockSize.value = size at *
      have left : (byteCnt - UInt16.ofNat size).toNat = total - size := by
        rw [toNat_sub_block (by omega), whole]
      have length := length_load cells (start + n) size
      have stored := store_load mem cells data start n size
      rw [cut, List.flatMap_cons] at sends
      generalize load cells (start + n) size = block at *
      have framed : c.out = List.replicate lat.token (0xff : UInt8) ++ tknReadSingleWrite ::
          (block ++ (crc16Xmodem 0 block >>> 8).toUInt8 :: (crc16Xmodem 0 block).toUInt8 ::
            (cut cells (start + n + size) sizes).flatMap (sendBlock lat)) := by
        rw [sends, sendBlock, blockCrc, List.append_assoc, List.cons_append, List.append_assoc,
          List.cons_append, List.singleton_append]
      have rest := ih (c := { c with
        out := (cut cells (start + n + size) sizes).flatMap (sendBlock lat) }) (n := n + size)
        (by rw [Nat.add_assoc]) left
      rw [Returns, getDataLoop_block short blockSize (data + n) (by omega)
        (by rw [whole, taken, length]) framed, morseCrc16, mmcrc16Xmodem_eq, halves_crc,
        if_pos rfl, length, stored, Nat.add_assoc, rest,
        show n + size + (total - size) = n + total by omega]

variable (mem cells) in
/-- The data of a CMD53, with the card told to send. -/
theorem morseCmd53GetData_returns (short : lat.Short) (blockSize : BlockSize) (data start n : ℕ)
    (byteCnt : UInt16) {sizes : List ℕ} (split : Splits blockSize byteCnt.toNat sizes)
    (window : SdioFunction → UInt8 × UInt8) :
    (morseCmd53GetData (cardBus lat) byteCnt (data + n) blockSize).Returns
      ⟨fill mem data n fun i => cells (start + i), { Card.rest cells window with
        phase := .reading (cut cells (start + n) sizes) }⟩ ()
      ⟨fill mem data (n + byteCnt.toNat) fun i => cells (start + i), Card.rest cells window⟩ := by
  have received := getDataLoop_returns mem cells (c := { Card.rest cells window with
      out := (cut cells (start + n) sizes).flatMap (sendBlock lat) }) short blockSize data start
    (n := n) split rfl
  exact Returns.bind (a := ()) rfl (received.atExit rfl)

/-! ## Blocks to the card -/

variable (lat mem) in
/-- The bytes of a block and the first of its CRC. -/
theorem writeBlock_returns {address size more : ℕ} (buf received : List UInt8)
    (fits : received.length + buf.length ≤ size + 1) (silent : c.out = [])
    (phase : c.phase = .writing address size more (some received)) :
    (mmhalWlanSpiWriteBuf (cardBus lat) buf).Returns ⟨mem, c⟩ ()
      ⟨mem, { c with phase := .writing address size more (some (received ++ buf)) }⟩ := by
  induction buf generalizing c received with
  | nil =>
      rw [List.append_nil, ← phase]
      exact returns_pure _ _
  | cons b buf ih =>
      rw [List.length_cons] at fits
      have listens := exchange_received lat mem b silent
      have taken : c.receive lat b =
          { c with phase := .writing address size more (some (received ++ [b])) } := by
        simp only [Card.receive, phase]
        rw [if_pos (by omega)]
      have rest := ih (c := { c with
          phase := .writing address size more (some (received ++ [b])) }) (received ++ [b])
        (by rw [List.length_append, List.length_singleton]; omega) silent rfl
      rw [List.append_assoc] at rest
      rw [taken] at listens
      rw [mmhalWlanSpiWriteBuf]
      exact listens.bind rest

/-- What the card is about after a block. -/
def nextBlock (address size : ℕ) : (more : ℕ) → Phase
  | 0 => .command []
  | more + 1 => .writing (address + size) size more none

/-- The card takes the block that the driver frames. -/
theorem accept_block (c : Card) (address more : ℕ) (block : List UInt8) :
    c.accept lat address block.length more
        (block ++ [(crc16Xmodem 0 block >>> 8).toUInt8] ++ [(crc16Xmodem 0 block).toUInt8]) =
      { c with
        mem := store c.mem address block
        out := List.replicate lat.acceptance 0xff ++
          tknDataRspAccepted :: List.replicate lat.busy 0x00
        phase := nextBlock address block.length more } := by
  have taken : (block ++ ([(crc16Xmodem 0 block >>> 8).toUInt8] ++
      [(crc16Xmodem 0 block).toUInt8])).take block.length = block := List.take_left
  have dropped : (block ++ ([(crc16Xmodem 0 block >>> 8).toUInt8] ++
      [(crc16Xmodem 0 block).toUInt8])).drop block.length = blockCrc block := List.drop_left
  cases more <;> simp only [List.append_assoc, Card.accept, taken, dropped, if_true, nextBlock]

variable (lat mem) in
theorem dataResponseLoop_returns {wait attempts : ℕ} (short : wait < attempts) (before : UInt8)
    {out : List UInt8}
    (sends : c.out = List.replicate wait 0xff ++ tknDataRspAccepted :: out) :
    (dataResponseLoop (cardBus lat) attempts before).Returns ⟨mem, c⟩ tknDataRspAccepted
      ⟨mem, { c with out }⟩ := by
  induction wait generalizing c attempts before with
  | zero =>
      obtain ⟨attempts, rfl⟩ : ∃ n, attempts = n + 1 := ⟨attempts - 1, by omega⟩
      have sent := exchange_sent lat mem (some 0xff) sends
      rw [dataResponseLoop]
      exact sent.bind (returns_pure _ _)
  | succ wait ih =>
      obtain ⟨attempts, rfl⟩ : ∃ n, attempts = n + 1 := ⟨attempts - 1, by omega⟩
      have sent := exchange_sent lat mem (some 0xff) sends
      rw [dataResponseLoop]
      exact sent.bind (ih (by omega) 0xff rfl)

variable (mem) in
/-- **A block reaches the memory of the card.** -/
theorem putBlock_returns (short : lat.Short) {startTkn : UInt8}
    (token : startTkn = tknReadSingleWrite ∨ startTkn = tknMultiWrite)
    (data : ℕ) {address size more busy : ℕ} (patient : busy < maxBusAttempts)
    (out : c.out = List.replicate busy 0x00)
    (phase : c.phase = .writing address size more none) :
    (putBlock (cardBus lat) startTkn data size).Returns ⟨mem, c⟩ ()
      ⟨mem, { c with
        mem := store c.mem address (load mem data size)
        out := List.replicate lat.busy 0x00
        phase := nextBlock address size more }⟩ := by
  have length := length_load mem data size
  have waiting : c.phase.Waiting := by
    rw [phase]
    exact .writing address size more
  have ready := morseWaitReady_returns lat mem waiting patient out
  generalize loaded : load mem data size = block at *
  have isToken : ({ c with out := [] } : Card).receive lat startTkn =
      { c with out := [], phase := .writing address size more (some []) } := by
    simp only [Card.receive, phase, token, if_true]
  have start := exchange_received lat mem (c := { c with out := [] }) startTkn rfl
  have written := writeBlock_returns lat mem
    (c := { c with out := [], phase := .writing address size more (some []) }) block []
    (by rw [List.length_nil]; omega) rfl rfl
  have inside : block.length < size + 1 := by omega
  have outside : ¬(block ++ [(crc16Xmodem 0 block >>> 8).toUInt8]).length < size + 1 := by
    rw [List.length_append, List.length_singleton]
    omega
  have highTaken : ({ c with
        out := [], phase := .writing address size more (some block) } : Card).receive lat
          (crc16Xmodem 0 block >>> 8).toUInt8 = { c with
        out := []
        phase := .writing address size more
          (some (block ++ [(crc16Xmodem 0 block >>> 8).toUInt8])) } := by
    simp only [Card.receive, inside, if_true]
  have accepted : ({ c with
        out := []
        phase := .writing address size more
          (some (block ++ [(crc16Xmodem 0 block >>> 8).toUInt8])) } : Card).receive lat
          (crc16Xmodem 0 block).toUInt8 = { c with
        mem := store c.mem address block
        out := List.replicate lat.acceptance 0xff ++
          tknDataRspAccepted :: List.replicate lat.busy 0x00
        phase := nextBlock address size more } := by
    simp only [Card.receive, outside, if_false]
    rw [← length]
    exact accept_block _ address more block
  have high := exchange_received lat mem
    (c := { c with out := [], phase := .writing address size more (some block) })
    (crc16Xmodem 0 block >>> 8).toUInt8 rfl
  have low := exchange_received lat mem (c := { c with
      out := []
      phase := .writing address size more
        (some (block ++ [(crc16Xmodem 0 block >>> 8).toUInt8])) }) (crc16Xmodem 0 block).toUInt8
    rfl
  have response := dataResponseLoop_returns lat mem (c := { c with
        mem := store c.mem address block
        out := List.replicate lat.acceptance 0xff ++
          tknDataRspAccepted :: List.replicate lat.busy 0x00
        phase := nextBlock address size more }) short.acceptance 0 rfl
  rw [isToken] at start
  rw [highTaken] at high
  rw [accepted] at low
  rw [putBlock]
  refine (returns_get _).bind (ready.bind ((returns_require _ rfl).bind (start.bind ?_)))
  rw [loaded, morseCrc16, mmcrc16Xmodem_eq]
  exact written.bind (high.bind (low.bind (response.bind (returns_require _ rfl))))

variable (mem cells) in
/-- Blocks of one size, behind those that the card has. -/
theorem putBlocks_returns (short : lat.Short) {startTkn : UInt8}
    (token : startTkn = tknReadSingleWrite ∨ startTkn = tknMultiWrite) (blockSize : BlockSize)
    (data start : ℕ) {k n busy : ℕ} (patient : busy < maxBusAttempts)
    (out : c.out = List.replicate busy 0x00)
    (phase : c.phase = .writing (start + n) blockSize.value k none)
    (filled : c.mem = fill cells start n fun i => mem (data + i)) :
    (putBlocks (cardBus lat) startTkn blockSize (k + 1) (data + n)).Returns ⟨mem, c⟩ ()
      ⟨mem, { c with
        mem := fill cells start (n + (k + 1) * blockSize.value) fun i => mem (data + i)
        out := List.replicate lat.busy 0x00
        phase := .command [] }⟩ := by
  have stored := store_load cells mem start data n blockSize.value
  induction k generalizing c n busy with
  | zero =>
      have last := putBlock_returns mem short token (data + n) patient out phase
      rw [filled, stored] at last
      rw [Nat.zero_add, Nat.one_mul]
      exact last.bind (returns_pure _ _)
  | succ k ih =>
      have first := putBlock_returns mem short token (data + n) patient out phase
      have rest := ih (n := n + blockSize.value) short.busy (c := { c with
          mem := fill cells start (n + blockSize.value) fun i => mem (data + i)
          out := List.replicate lat.busy 0x00
          phase := nextBlock (start + n) blockSize.value (k + 1) }) rfl
        (by rw [← Nat.add_assoc]; rfl) rfl (store_load _ _ _ _ _ _)
      have size : n + blockSize.value + (k + 1) * blockSize.value =
          n + (k + 1 + 1) * blockSize.value := by
        rw [Nat.succ_mul (k + 1)]
        omega
      rw [size, ← Nat.add_assoc] at rest
      rw [filled, stored] at first
      exact first.bind rest

/-- What the driver does behind the blocks. -/
theorem putEnd_returns (short : lat.Short) (startTkn : UInt8)
    {window : SdioFunction → UInt8 × UInt8} :
    (do
      if startTkn = tknMultiWrite then
        let _ ← mmhalWlanSpiRw (cardBus lat) tknStopTransaction
      let _ ← morseWaitReady (cardBus lat)
      mmhalWlanSpiCsDeassert (cardBus lat) : Spi Card Unit).Returns
      ⟨mem, { Card.rest cells window with out := List.replicate lat.busy 0x00 }⟩ ()
      ⟨mem, Card.rest cells window⟩ := by
  have waited {busy : ℕ} (patient : busy < maxBusAttempts) :
      (do
        let _ ← morseWaitReady (cardBus lat)
        mmhalWlanSpiCsDeassert (cardBus lat) : Spi Card Unit).Returns
        ⟨mem, { Card.rest cells window with out := List.replicate busy 0x00 }⟩ ()
        ⟨mem, Card.rest cells window⟩ := by
    have ready := morseWaitReady_returns lat mem (c := { Card.rest cells window with
      out := List.replicate busy 0x00 }) .command patient rfl
    exact ready.bind rfl
  split
  next =>
    -- The stop token is sent while the card is busy, or it is ignored.
    have stopped : ∃ b, (mmhalWlanSpiRw (cardBus lat) tknStopTransaction).Returns
        ⟨mem, { Card.rest cells window with out := List.replicate lat.busy 0x00 }⟩ b
        ⟨mem, { Card.rest cells window with out := List.replicate (lat.busy - 1) 0x00 }⟩ := by
      rcases busy : lat.busy with _ | n
      · exact ⟨_, exchange_received _ _ _ rfl⟩
      · exact ⟨_, exchange_sent _ _ _ rfl⟩
    obtain ⟨b, stop⟩ := stopped
    exact stop.bind (waited (Nat.lt_of_le_of_lt (Nat.sub_le _ 1) short.busy))
  next => exact waited short.busy

variable (mem cells) in
theorem morseCmd53PutData_block (short : lat.Short) (blockSize : BlockSize) (data start : ℕ)
    {cnt : UInt16} {k : ℕ} (count : cnt.toNat = k + 1) (window : SdioFunction → UInt8 × UInt8) :
    (morseCmd53PutData (cardBus lat) cnt data .block blockSize).Returns
      ⟨mem, { Card.rest cells window with phase := .writing start blockSize.value k none }⟩ ()
      ⟨mem, Card.rest (fill cells start (cnt.toNat * blockSize.value) fun i => mem (data + i))
        window⟩ := by
  have more : cnt ≠ 0 := by
    rintro rfl
    cases count
  have token : (if cnt > 1 then tknMultiWrite else tknReadSingleWrite) = tknReadSingleWrite ∨
      (if cnt > 1 then tknMultiWrite else tknReadSingleWrite) = tknMultiWrite := by
    split
    · exact .inr rfl
    · exact .inl rfl
  have blocks := putBlocks_returns mem cells (c := { Card.rest cells window with
      out := List.replicate lat.busy 0x00
      phase := .writing start blockSize.value k none }) short token blockSize data start (k := k)
    (n := 0) short.busy rfl rfl fill_zero.symm
  rw [Nat.zero_add, ← count] at blocks
  rw [morseCmd53PutData]
  refine Returns.bind (a := ()) rfl (Returns.atExit ?_ (putEnd_returns short _))
  rw [putDataLoop, if_neg more]
  exact blocks

variable (mem cells) in
theorem morseCmd53PutData_byte (short : lat.Short) (blockSize : BlockSize) (data start : ℕ)
    (cnt : UInt16) (positive : 0 < cnt.toNat) (fits : cnt.toNat ≤ blockSize.value)
    (window : SdioFunction → UInt8 × UInt8) :
    (morseCmd53PutData (cardBus lat) cnt data .byte blockSize).Returns
      ⟨mem, { Card.rest cells window with phase := .writing start cnt.toNat 0 none }⟩ ()
      ⟨mem, Card.rest (store cells start (load mem data cnt.toNat)) window⟩ := by
  have more : cnt ≠ 0 := by
    rintro rfl
    cases positive
  have block := putBlock_returns mem (c := { Card.rest cells window with
      out := List.replicate lat.busy 0x00
      phase := .writing start cnt.toNat 0 none }) short (.inl rfl) data short.busy rfl rfl
  rw [morseCmd53PutData]
  refine Returns.bind (a := ()) rfl (Returns.atExit ?_ (putEnd_returns short _))
  rw [putDataLoop, if_neg more]
  exact (returns_require _ fits).bind block

end HalowBridge.Sdio
