import HalowBridge.Mmutils.RoundUp
import HalowBridge.Sdio.Checksums

/-!
# Commands to a card

What the driver and a card do together, from the exchange of one byte to the command that leaves the
card with blocks to send or to receive. A card that is not longer silent than the driver is patient
is at rest after each CMD52, and the window of the function has moved.
-/

namespace HalowBridge.Sdio

open BitField Keystream Mmutils Routine

variable {lat : Latency} {mem : ℕ → UInt8} {c : Card}

/-! ## Bytes -/

variable (lat mem) in
theorem exchange_sent (mosi : Option UInt8) {b : UInt8} {out : List UInt8}
    (sends : c.out = b :: out) :
    (exchange (cardBus lat) mosi).Returns ⟨mem, c⟩ b ⟨mem, { c with out }⟩ := by
  show (let (readval, device) := (cardBus lat).exchange c mosi
    ((.ok readval, ⟨mem, device⟩) : Except Stop UInt8 × World Card)) = _
  simp only [cardBus, sends]

variable (lat mem) in
theorem exchange_received (b : UInt8) (silent : c.out = []) :
    (exchange (cardBus lat) (some b)).Returns ⟨mem, c⟩ 0xff ⟨mem, c.receive lat b⟩ := by
  show (let (readval, device) := (cardBus lat).exchange c (some b)
    ((.ok readval, ⟨mem, device⟩) : Except Stop UInt8 × World Card)) = _
  simp only [cardBus, silent]

/-- The card waits for a command or the start of a block. -/
inductive Phase.Waiting : Phase → Prop
  | command : Waiting (.command [])
  | writing (address size more : ℕ) : Waiting (.writing address size more none)

/-- What is sent to a card only to receive is no command and no block. -/
theorem receive_ff (waiting : c.phase.Waiting) : c.receive lat 0xff = c := by
  rcases c with ⟨cells, window, out, phase⟩
  cases waiting <;> rfl

theorem waitReadyLoop_returns (waiting : c.phase.Waiting) {busy attempt : ℕ}
    (short : busy < attempt) (out : c.out = List.replicate busy 0x00) :
    (waitReadyLoop (cardBus lat) attempt).Returns ⟨mem, c⟩ true ⟨mem, { c with out := [] }⟩ := by
  induction busy generalizing c attempt with
  | zero =>
      obtain ⟨attempt, rfl⟩ : ∃ n, attempt = n + 1 := ⟨attempt - 1, by omega⟩
      have listens := exchange_received lat mem 0xff out
      rw [receive_ff waiting] at listens
      have silent : { c with out := [] } = c := by
        rw [← show c.out = [] from out]
      rw [waitReadyLoop, silent]
      exact listens.bind (returns_pure true _)
  | succ busy ih =>
      obtain ⟨attempt, rfl⟩ : ∃ n, attempt = n + 1 := ⟨attempt - 1, by omega⟩
      have sent := exchange_sent lat mem (some 0xff) out
      rw [waitReadyLoop]
      exact sent.bind (ih (c := { c with out := List.replicate busy 0x00 }) waiting (by omega) rfl)

variable (lat mem) in
/-- The host waits for as long as the card is busy. -/
theorem morseWaitReady_returns (waiting : c.phase.Waiting) {busy : ℕ}
    (short : busy < maxBusAttempts) (out : c.out = List.replicate busy 0x00) :
    (morseWaitReady (cardBus lat)).Returns ⟨mem, c⟩ true ⟨mem, { c with out := [] }⟩ :=
  waitReadyLoop_returns waiting short out

/-! ## Packets -/

variable (lat mem) in
/-- The bytes of a packet, behind those that the card has received. -/
theorem writePacket_returns (packet buf : List UInt8) (started : packet ≠ []) (more : buf ≠ [])
    (length : packet.length + buf.length = 6) (silent : c.out = [])
    (phase : c.phase = .command packet) :
    (mmhalWlanSpiWriteBuf (cardBus lat) buf).Returns ⟨mem, c⟩ ()
      ⟨mem, c.execute lat (packet ++ buf)⟩ := by
  induction buf generalizing c packet with
  | nil => exact absurd rfl more
  | cons b buf ih =>
      obtain ⟨first, others, rfl⟩ := List.exists_cons_of_ne_nil started
      have listens := exchange_received lat mem b silent
      rw [mmhalWlanSpiWriteBuf]
      cases buf with
      | nil =>
          -- The last byte.
          have received : c.receive lat b = c.execute lat (first :: others ++ [b]) := by
            rw [List.length_singleton] at length
            simp only [Card.receive, phase]
            rw [if_neg (by omega)]
          rw [← received]
          exact listens.bind (returns_pure () _)
      | cons b' buf =>
          have early : (first :: others).length < 5 := by
            simp only [List.length_cons] at length ⊢
            omega
          have received : c.receive lat b =
              { c with phase := .command (first :: others ++ [b]) } := by
            simp only [Card.receive, phase]
            rw [if_pos early]
          rw [received] at listens
          have rest := ih (c := { c with phase := .command (first :: others ++ [b]) })
            (first :: others ++ [b]) (List.cons_ne_nil _ _) (List.cons_ne_nil _ _)
            (by
              simp only [List.length_append, List.length_cons, List.length_nil] at length ⊢
              omega)
            silent rfl
          rw [List.append_assoc] at rest
          exact listens.bind rest

variable (lat mem) in
/-- The status and the data of a response, behind the bytes for which the card lets the host
wait. `data` is the byte that was received last. -/
theorem responseLoop_returns {wait attempts : ℕ} (short : wait < attempts) {status info : UInt8}
    (valid : status ≠ 0xff) (before data : UInt8)
    (out : data :: c.out = List.replicate wait 0xff ++ [status, info]) :
    (responseLoop (cardBus lat) none attempts before data).Returns ⟨mem, c⟩ (status, info)
      ⟨mem, { c with out := [] }⟩ := by
  induction wait generalizing c attempts before data with
  | zero =>
      obtain ⟨attempts, rfl⟩ : ∃ n, attempts = n + 1 := ⟨attempts - 1, by omega⟩
      obtain ⟨rfl, sends⟩ := List.cons.inj out
      have sent := exchange_sent lat mem (some 0xff) sends
      rw [responseLoop]
      refine sent.bind ?_
      show Returns (if data ≠ 0xff then pure (data, info) else _) _ _ _
      rw [if_pos valid]
      exact returns_pure _ _
  | succ wait ih =>
      obtain ⟨attempts, rfl⟩ : ∃ n, attempts = n + 1 := ⟨attempts - 1, by omega⟩
      obtain ⟨rfl, sends⟩ := List.cons.inj out
      obtain ⟨next, others, same⟩ :
          ∃ next others, List.replicate wait 0xff ++ [status, info] = next :: others := by
        cases wait
        · exact ⟨_, _, rfl⟩
        · exact ⟨_, _, rfl⟩
      have sent := exchange_sent lat mem (some 0xff) (sends.trans same)
      rw [responseLoop]
      refine sent.bind ?_
      show Returns (if (0xff : UInt8) ≠ 0xff then _
        else responseLoop (cardBus lat) none attempts 0xff next) _ _ _
      rw [if_neg (not_not.mpr rfl)]
      exact ih (c := { c with out := others }) (by omega) 0xff next same.symm

/-- The packet that the driver sends. -/
theorem commandPacket_eq {cmdIdx : UInt8} (checked : cmdIdx = 52 ∨ cmdIdx = 53) (arg : UInt32) :
    commandPacket cmdIdx arg =
      some ((cmdIdx ||| 0x40) :: unpackBe32 arg ++
        [packetEnd ((cmdIdx ||| 0x40) :: unpackBe32 arg)]) := by
  rw [commandPacket, if_pos checked, morseCrc7_eq, ← packetEnd_eq]
  rfl

theorem toNat_toUInt8_shiftRight (src : UInt32) {k : UInt32} {n : ℕ} (lt : k.toNat < 32)
    (power : 2 ^ k.toNat = n) : (src >>> k).toUInt8.toNat = src.toNat / n % 256 := by
  rw [UInt32.toNat_toUInt8, UInt32.toNat_shiftRight, Nat.mod_eq_of_lt lt,
    Nat.shiftRight_eq_div_pow, power]

/-- The card reads the argument that was packed. -/
theorem unpackLe_unpackBe32 (src : UInt32) :
    unpackLe [src.toUInt8, (src >>> 8).toUInt8, (src >>> 16).toUInt8, (src >>> 24).toUInt8] =
      src.toNat := by
  have lt := src.toNat_lt
  rw [unpackLe, unpackLe, unpackLe, unpackLe, unpackLe, UInt32.toNat_toUInt8,
    toNat_toUInt8_shiftRight src (n := 256) (by decide) rfl,
    toNat_toUInt8_shiftRight src (n := 65536) (by decide) rfl,
    toNat_toUInt8_shiftRight src (n := 16777216) (by decide) rfl]
  omega

/-- The card obeys the packet of the driver. -/
theorem execute_commandPacket (c : Card) {cmdIdx : UInt8} (checked : cmdIdx = 52 ∨ cmdIdx = 53)
    (arg : UInt32) {status info : UInt8} {next : Card}
    (obeyed : ({ c with phase := .command [] }).obey cmdIdx.toNat arg.toNat =
      (status, info, next)) :
    c.execute lat ((cmdIdx ||| 0x40) :: unpackBe32 arg ++
        [packetEnd ((cmdIdx ||| 0x40) :: unpackBe32 arg)]) =
      { next with out := List.replicate lat.response 0xff ++ [status, info] } := by
  have index : (cmdIdx ||| 0x40).toNat % 64 = cmdIdx.toNat := by
    rcases checked with rfl | rfl <;> rfl
  simp only [Card.execute, unpackBe32, List.cons_append, List.nil_append, if_true, index,
    unpackLe_unpackBe32, obeyed]

variable (lat mem) in
theorem writeCommand_returns {cmdIdx : UInt8} (checked : cmdIdx = 52 ∨ cmdIdx = 53) (arg : UInt32)
    (silent : c.out = []) (idle : c.phase = .command []) {status info : UInt8} {next : Card}
    (obeyed : c.obey cmdIdx.toNat arg.toNat = (status, info, next)) :
    (mmhalWlanSpiWriteBuf (cardBus lat) ((cmdIdx ||| 0x40) :: unpackBe32 arg ++
        [packetEnd ((cmdIdx ||| 0x40) :: unpackBe32 arg)])).Returns ⟨mem, c⟩ ()
      ⟨mem, { next with out := List.replicate lat.response 0xff ++ [status, info] }⟩ := by
  have start : (cmdIdx ||| 0x40) >>> 6 = 1 := by
    rcases checked with rfl | rfl <;> rfl
  have received : c.receive lat (cmdIdx ||| 0x40) =
      { c with phase := .command [cmdIdx ||| 0x40] } := by
    simp only [Card.receive, idle, start, if_true]
  have listens := exchange_received lat mem (cmdIdx ||| 0x40) silent
  have obeyedIdle : ({ c with phase := .command [] } : Card).obey cmdIdx.toNat arg.toNat =
      (status, info, next) := by
    rw [← idle]
    exact obeyed
  have rest := writePacket_returns lat mem (c := { c with phase := .command [cmdIdx ||| 0x40] })
    [cmdIdx ||| 0x40] (unpackBe32 arg ++ [packetEnd ((cmdIdx ||| 0x40) :: unpackBe32 arg)])
    (List.cons_ne_nil _ _) (List.cons_ne_nil _ _) rfl silent rfl
  rw [← List.append_assoc, List.singleton_append,
    execute_commandPacket { c with phase := .command [cmdIdx ||| 0x40] } checked arg
      obeyedIdle] at rest
  rw [received] at listens
  exact listens.bind rest

variable (mem) in
/-- **A command is obeyed**: the driver waits for the card, sends the packet, and takes the response
for a good one. -/
theorem sdioSpiSendCmd_returns (short : lat.Short) {cmdIdx : UInt8}
    (checked : cmdIdx = 52 ∨ cmdIdx = 53) (arg : UInt32) {cells : ℕ → UInt8}
    {window : SdioFunction → UInt8 × UInt8} {info : UInt8} {next : Card}
    (obeyed : (Card.rest cells window).obey cmdIdx.toNat arg.toNat = (0x00, info, next))
    (clear : cmdIdx = 53 → info = 0x00) :
    (sdioSpiSendCmd (cardBus lat) cmdIdx arg none).Returns ⟨mem, Card.rest cells window⟩ ()
      ⟨mem, (cardBus lat).csDeassert next⟩ := by
  have selected : (mmhalWlanSpiCsAssert (cardBus lat)).Returns ⟨mem, Card.rest cells window⟩ ()
      ⟨mem, { Card.rest cells window with out := List.replicate lat.busy 0x00 }⟩ := rfl
  have ready := morseWaitReady_returns lat mem
    (c := { Card.rest cells window with out := List.replicate lat.busy 0x00 }) .command short.busy
    rfl
  have notInit : cmdIdx ≠ 63 := by
    rcases checked with rfl | rfl <;> decide
  have written := writeCommand_returns lat mem checked arg rfl rfl obeyed
  obtain ⟨first, others, out⟩ :
      ∃ first others, List.replicate lat.response 0xff ++ [0x00, info] = first :: others :=
    List.exists_cons_of_ne_nil (List.append_ne_nil_of_right_ne_nil _ (List.cons_ne_nil _ _))
  have sent := exchange_sent lat mem
    (c := { next with out := List.replicate lat.response 0xff ++ [0x00, info] }) (some 0xff) out
  have response := responseLoop_returns lat mem (c := { next with out := others }) short.response
    (by decide : (0x00 : UInt8) ≠ 0xff) 0xff first out.symm
  have left : (mmhalWlanSpiCsDeassert (cardBus lat)).Returns ⟨mem, { next with out := [] }⟩ ()
      ⟨mem, (cardBus lat).csDeassert next⟩ := rfl
  rw [sdioSpiSendCmd, if_pos notInit, commandPacket_eq checked]
  refine selected.bind (Returns.atExit ?_ left)
  refine ready.bind ((returns_require _ rfl).bind (written.bind (sent.bind (response.bind ?_))))
  refine (returns_require _ ?_).bind (returns_require _ rfl)
  rintro ⟨is53, data⟩
  exact data (clear is53)

/-! ## What the card reads in an argument -/

theorem functionOfNumber_number (fn : SdioFunction) : functionOfNumber fn.number = some fn := by
  cases fn <;> rfl

theorem obey_cmd52 (c : Card) (fn : SdioFunction) {address : UInt32} (data : UInt8)
    (fits : addressField.Fits address.toNat) :
    c.obey 52 (mmhalMakeCmd52Arg .write fn address data).toNat =
      (0x00, data, c.writeRegister fn address.toNat data) := by
  have fields := unpack_pack (by decide) ((cmd52Values_fit_iff .write fn address data).mpr fits)
  rw [← toNat_mmhalMakeCmd52Arg .write fn data fits] at fields
  simp only [unpack, cmd52Layout, List.map_cons, List.map_nil, cmd52Values, SdioRw.code,
    List.cons.injEq] at fields
  obtain ⟨direction, function, -, -, register, value, -⟩ := fields
  simp only [Card.obey, direction, function, functionOfNumber_number, register, value,
    UInt8.ofNat_toNat]

theorem cmd53_fields (rw : SdioRw) (fn : SdioFunction) (mode : SdioMode) {address : UInt32}
    {count : UInt16} (fits : addressField.Fits address.toNat)
    (counted : countField.Fits count.toNat) :
    unpack cmd53Layout (mmhalMakeCmd53Arg rw fn mode address count).toNat =
      cmd53Values rw fn mode address count := by
  rw [toNat_mmhalMakeCmd53Arg rw fn mode count fits]
  exact unpack_pack (by decide) ((cmd53Values_fit_iff rw fn mode address count).mpr ⟨fits, counted⟩)

theorem obey_cmd53_read (c : Card) (fn : SdioFunction) (mode : SdioMode) {address : UInt32}
    {count : UInt16} (fits : addressField.Fits address.toNat)
    (counted : countField.Fits count.toNat) :
    c.obey 53 (mmhalMakeCmd53Arg .read fn mode address count).toNat =
      (0x00, 0x00, { c with
        phase := .reading (cut c.mem (c.base fn + address.toNat)
          (transferSizes fn mode.code count.toNat)) }) := by
  have fields := cmd53_fields .read fn mode fits counted
  simp only [unpack, cmd53Layout, List.map_cons, List.map_nil, cmd53Values, SdioRw.code,
    List.cons.injEq] at fields
  obtain ⟨direction, function, -, blocks, start, number, -⟩ := fields
  simp only [Card.obey, direction, function, functionOfNumber_number, blocks, start, number,
    if_true]

theorem obey_cmd53_write (c : Card) (fn : SdioFunction) (mode : SdioMode) {address : UInt32}
    {count : UInt16} (fits : addressField.Fits address.toNat)
    (counted : countField.Fits count.toNat) {size : ℕ} {sizes : List ℕ}
    (some : transferSizes fn mode.code count.toNat = size :: sizes) :
    c.obey 53 (mmhalMakeCmd53Arg .write fn mode address count).toNat =
      (0x00, 0x00, { c with
        phase := .writing (c.base fn + address.toNat) size sizes.length none }) := by
  have fields := cmd53_fields .write fn mode fits counted
  simp only [unpack, cmd53Layout, List.map_cons, List.map_nil, cmd53Values, SdioRw.code,
    List.cons.injEq] at fields
  obtain ⟨direction, function, -, blocks, start, number, -⟩ := fields
  simp only [Card.obey, direction, function, functionOfNumber_number, blocks, start, number, some,
    Nat.one_ne_zero, if_false]

/-! ## The window -/

variable (mem) in
theorem morseCmd52Write_returns (short : lat.Short) (address : UInt32) (data : UInt8)
    (fn : SdioFunction) (fits : addressField.Fits address.toNat) (cells : ℕ → UInt8)
    (window window' : SdioFunction → UInt8 × UInt8)
    (written : (Card.rest cells window).writeRegister fn address.toNat data =
      Card.rest cells window') :
    (morseCmd52Write (cardBus lat) address data fn).Returns ⟨mem, Card.rest cells window⟩ ()
      ⟨mem, Card.rest cells window'⟩ := by
  have below : address ≤ mmhalSdioAddressMax :=
    UInt32.le_iff_toNat_le.mpr (Nat.le_of_lt (Nat.lt_trans fits (by decide)))
  have obeyed := obey_cmd52 (Card.rest cells window) fn data fits
  have packed : SdioRw.write.value ||| fn.value ||| SdioMode.byte.value |||
      address <<< mmhalSdioAddressOffset ||| data.toUInt32 <<< mmhalSdioCmd52DataOffset =
        mmhalMakeCmd52Arg .write fn address data := by
    rw [mmhalMakeCmd52Arg, show SdioMode.byte.value = 0 from rfl, UInt32.or_zero]
  have sent := sdioSpiSendCmd_returns mem short (.inl rfl) _ (obeyed.trans (by rw [written]))
    fun is53 => absurd is53 (by decide)
  rw [← packed] at sent
  exact (returns_require _ below).bind sent

/-- The windows after that of a function was moved to an address. -/
def moveWindow (window : SdioFunction → UInt8 × UInt8) (function : SdioFunction)
    (address : UInt32) : SdioFunction → UInt8 × UInt8 := fun f =>
  if f = function then ((address >>> 16).toUInt8, (address >>> 24).toUInt8) else window f

theorem toNat_and_high (x : UInt32) : (x &&& 0xffff0000).toNat = x.toNat / 65536 * 65536 := by
  have lt := x.toNat_lt
  have mask : (0xffff0000 : UInt32).toNat = (2 ^ 16 - 1) <<< 16 := rfl
  rw [UInt32.toNat_and, mask, and_shiftLeft, Nat.and_two_pow_sub_one_eq_mod,
    Nat.shiftRight_eq_div_pow, Nat.shiftLeft_eq]
  omega

theorem toNat_and_low (x : UInt32) : (x &&& 0x0000ffff).toNat = x.toNat % 65536 := by
  have mask : (0x0000ffff : UInt32).toNat = 2 ^ 16 - 1 := rfl
  rw [UInt32.toNat_and, mask, Nat.and_two_pow_sub_one_eq_mod]

theorem base_moveWindow (cells : ℕ → UInt8) (window : SdioFunction → UInt8 × UInt8)
    (fn : SdioFunction) (address : UInt32) :
    (Card.rest cells (moveWindow window fn address)).base fn = address.toNat / 65536 * 65536 := by
  have lt := address.toNat_lt
  show (moveWindow window fn address fn).2.toNat * 16777216 +
    (moveWindow window fn address fn).1.toNat * 65536 = _
  rw [moveWindow, if_pos rfl,
    toNat_toUInt8_shiftRight address (k := 16) (n := 65536) (by decide) rfl,
    toNat_toUInt8_shiftRight address (k := 24) (n := 16777216) (by decide) rfl]
  omega

variable (mem) in
/-- **The window of a function is moved.** -/
theorem morseAddressBaseSet_returns (short : lat.Short) (address : UInt32) (access : UInt8)
    (allowed : access ≤ morseConfigAccess4Byte) (fn : SdioFunction) (cells : ℕ → UInt8)
    (window : SdioFunction → UInt8 × UInt8) :
    (morseAddressBaseSet (cardBus lat) address access fn).Returns ⟨mem, Card.rest cells window⟩ ()
      ⟨mem, Card.rest cells (moveWindow window fn address)⟩ := by
  have byte {k : UInt32} {n : ℕ} (lt : k.toNat < 32) (power : 2 ^ k.toNat = n)
      (high : 65536 ∣ n) :
      ((address &&& 0xffff0000) >>> k).toUInt8 = (address >>> k).toUInt8 := by
    obtain ⟨m, rfl⟩ := high
    rw [← UInt8.toNat_inj, toNat_toUInt8_shiftRight _ lt power, toNat_toUInt8_shiftRight _ lt power,
      toNat_and_high, ← Nat.div_div_eq_div_mul, ← Nat.div_div_eq_div_mul,
      Nat.mul_div_cancel _ (by decide)]
  have low := byte (k := 16) (by decide) rfl ⟨1, rfl⟩
  have high := byte (k := 24) (by decide) rfl ⟨256, rfl⟩
  have first := morseCmd52Write_returns mem short morseRegAddressWindow0
    ((address &&& 0xffff0000) >>> 16).toUInt8 fn (by decide) cells window
    (fun f => if f = fn then ((address >>> 16).toUInt8, (window f).2) else window f)
    (by rw [low]; rfl)
  have second := morseCmd52Write_returns mem short morseRegAddressWindow1
    ((address &&& 0xffff0000) >>> 24).toUInt8 fn (by decide) cells
    (fun f => if f = fn then ((address >>> 16).toUInt8, (window f).2) else window f)
    (moveWindow window fn address) (by
      rw [high]
      refine congrArg (Card.rest cells) (funext fun f => ?_)
      show (if f = fn then ((if f = fn then _ else window f).1, _)
        else if f = fn then _ else window f) = moveWindow window fn address f
      rw [moveWindow]
      exact ite_congr rfl (fun same => by rw [if_pos same]) fun other => if_neg other)
  have third := morseCmd52Write_returns mem short morseRegAddressConfig access fn (by decide)
    cells (moveWindow window fn address) (moveWindow window fn address) rfl
  exact (returns_require _ allowed).bind (first.bind (second.bind third))

/-! ## The start of a transfer -/

/-- The argument that the driver puts together for CMD53. -/
theorem cmd53_packed (rw : SdioRw) (fn : SdioFunction) (mode : SdioMode) (address : UInt32)
    (count : UInt16) :
    rw.value ||| fn.value ||| mode.value ||| SdioOpcode.incAddr.value |||
        address <<< mmhalSdioAddressOffset ||| count.toUInt32 <<< mmhalSdioCountOffset =
      mmhalMakeCmd53Arg rw fn mode address count := by
  rw [mmhalMakeCmd53Arg]
  ac_rfl

theorem morseCmd53SendCmd_returns (short : lat.Short) {rw : SdioRw} {fn : SdioFunction}
    {mode : SdioMode} {address : UInt32} {count : UInt16} (fits : addressField.Fits address.toNat)
    (counted : countField.Fits count.toNat) {cells : ℕ → UInt8}
    {window : SdioFunction → UInt8 × UInt8} {next : Card}
    (obeyed : (Card.rest cells window).obey 53 (mmhalMakeCmd53Arg rw fn mode address count).toNat =
      (0x00, 0x00, next)) :
    (morseCmd53SendCmd (cardBus lat) rw fn mode address count).Returns
      ⟨mem, Card.rest cells window⟩ () ⟨mem, (cardBus lat).csDeassert next⟩ := by
  have addressBelow : address ≤ mmhalSdioAddressMax :=
    UInt32.le_iff_toNat_le.mpr (Nat.le_of_lt (Nat.lt_trans fits (by decide)))
  have countBelow : count.toUInt32 ≤ mmhalSdioCountMax :=
    UInt32.le_iff_toNat_le.mpr (Nat.le_of_lt (Nat.lt_trans counted (by decide)))
  have sent := sdioSpiSendCmd_returns mem short (.inr rfl) _ obeyed fun _ => rfl
  rw [← cmd53_packed] at sent
  exact (returns_require _ addressBelow).bind ((returns_require _ countBelow).bind sent)

variable (mem) in
/-- A card that is told to send cuts its blocks. -/
theorem morseCmd53SendCmd_read (short : lat.Short) (fn : SdioFunction) (mode : SdioMode)
    (address : UInt32) (count : UInt16) (fits : addressField.Fits address.toNat)
    (counted : countField.Fits count.toNat) (cells : ℕ → UInt8)
    (window : SdioFunction → UInt8 × UInt8) :
    (morseCmd53SendCmd (cardBus lat) .read fn mode address count).Returns
      ⟨mem, Card.rest cells window⟩ ()
      ⟨mem, { Card.rest cells window with
        phase := .reading (cut cells ((Card.rest cells window).base fn + address.toNat)
          (transferSizes fn mode.code count.toNat)) }⟩ :=
  morseCmd53SendCmd_returns short fits counted (obey_cmd53_read _ fn mode fits counted)

variable (mem) in
/-- A card that is told to receive waits for its first block. -/
theorem morseCmd53SendCmd_write (short : lat.Short) (fn : SdioFunction) (mode : SdioMode)
    (address : UInt32) (count : UInt16) (fits : addressField.Fits address.toNat)
    (counted : countField.Fits count.toNat) (cells : ℕ → UInt8)
    (window : SdioFunction → UInt8 × UInt8) (size : ℕ) (sizes : List ℕ)
    (some : transferSizes fn mode.code count.toNat = size :: sizes) :
    (morseCmd53SendCmd (cardBus lat) .write fn mode address count).Returns
      ⟨mem, Card.rest cells window⟩ ()
      ⟨mem, { Card.rest cells window with
        phase := .writing ((Card.rest cells window).base fn + address.toNat) size sizes.length
          none }⟩ :=
  morseCmd53SendCmd_returns short fits counted (obey_cmd53_write _ fn mode fits counted some)

end HalowBridge.Sdio
