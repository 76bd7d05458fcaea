import HalowBridge.Sdio.AnyDevice

/-!
# Noise on the bus

A card sends the CRC of a block behind it, the high byte first, so that the block and the CRC
together are a message the CRC covers as a whole. A burst of errors of up to 16 bits, in the block,
in the CRC or across both, is found, in whatever block it is: the transfer ends with the code for
it.
-/

namespace HalowBridge.Sdio

open BitField Keystream Mmutils Routine

variable {lat : Latency} {mem cells : ℕ → UInt8} {c : Card}

/-- The bits of two bytes. -/
theorem topBits_two_bytes (high low : UInt8) :
    topBits 16 (high.toUInt16 <<< 8 ||| low.toUInt16).toBitVec = byteBits high ++ byteBits low := by
  have first : topBits 8 (high.toUInt16 <<< 8 ||| low.toUInt16).toBitVec = byteBits high := by
    refine topBits_congr fun i lt => ?_
    simp only [UInt16.toBitVec_or, UInt16.toBitVec_shiftLeft, UInt8.toBitVec_toUInt16,
      BitVec.getMsbD_or, BitVec.getMsbD_setWidth]
    simp
    intro above
    omega
  have second : topBits 8 ((high.toUInt16 <<< 8 ||| low.toUInt16).toBitVec <<< 8) =
      byteBits low := by
    refine topBits_congr fun i lt => ?_
    simp [BitVec.getMsbD_or, BitVec.getMsbD_shiftLeft, BitVec.getMsbD_setWidth]
  rw [topBits_add 8 8, first, second]

/-- The driver accepts a block if the register is empty behind the CRC. -/
theorem blockCheck_iff (block : List UInt8) (high low : UInt8) :
    morseCrc16 0 block = high.toUInt16 <<< 8 ||| low.toUInt16 ↔
      crcBits 0x1021 0#16 (bitsOf (block ++ [high, low])) = 0#16 := by
  have bits : bitsOf (block ++ [high, low]) =
      bitsOf block ++ topBits 16 (high.toUInt16 <<< 8 ||| low.toUInt16).toBitVec := by
    rw [topBits_two_bytes, bitsOf, List.flatMap_append, List.flatMap_cons, List.flatMap_singleton]
  rw [bits, crcBits_codeword_iff (by decide), morseCrc16, mmcrc16Xmodem_eq, crc16Xmodem, eq_comm,
    ← UInt16.toBitVec_inj]
  rfl

/-- The block that a card sends leaves the register empty. -/
theorem crcBits_block (block : List UInt8) :
    crcBits 0x1021 0#16 (bitsOf (block ++ blockCrc block)) = 0#16 := by
  refine (blockCheck_iff block _ _).mp ?_
  rw [halves_crc, morseCrc16, mmcrc16Xmodem_eq]

/-- A block and its CRC. -/
abbrev frame (block : List UInt8) : List UInt8 := block ++ blockCrc block

/-- What is received for a block ends with two bytes for its CRC. -/
theorem exists_crc {block received : List UInt8}
    (burst : Burst 16 (bitsOf (frame block)) (bitsOf received)) :
    ∃ bytes high low, received = bytes ++ [high, low] := by
  have length := burst.length
  rw [length_bitsOf, length_bitsOf, List.length_append, blockCrc] at length
  simp only [List.length_cons, List.length_nil] at length
  have crc : (received.drop block.length).length = 2 := by
    rw [List.length_drop]
    omega
  obtain ⟨high, low, tail⟩ := List.length_eq_two.mp crc
  exact ⟨received.take block.length, high, low, by rw [← tail, List.take_append_drop]⟩

/-- **A block with a burst of errors is not accepted.** -/
theorem blockCheck_burst {block received : List UInt8} {high low : UInt8}
    (burst : Burst 16 (bitsOf (block ++ blockCrc block)) (bitsOf (received ++ [high, low]))) :
    received.length = block.length ∧
      morseCrc16 0 received ≠ high.toUInt16 <<< 8 ||| low.toUInt16 := by
  constructor
  · have length := burst.length
    rw [length_bitsOf, length_bitsOf, List.length_append, List.length_append, blockCrc] at length
    simp only [List.length_cons, List.length_nil] at length
    omega
  · have odd : (0x1021 : BitVec 16).getLsbD 0 = true := by decide
    rw [Ne, blockCheck_iff]
    intro empty
    exact crcBits_burst odd 0#16 burst ((crcBits_block block).trans empty.symm)

/-! ## Reading through noise -/

/-- What a card sends of a block, with the frame that is received. -/
def sendFrame (lat : Latency) (received : List UInt8) : List UInt8 :=
  List.replicate lat.token 0xff ++ tknReadSingleWrite :: received

theorem sendFrame_append (lat : Latency) (bytes : List UInt8) (high low : UInt8)
    (out : List UInt8) :
    sendFrame lat (bytes ++ [high, low]) ++ out =
      List.replicate lat.token 0xff ++ tknReadSingleWrite :: (bytes ++ high :: low :: out) := by
  simp only [sendFrame, List.append_assoc, List.cons_append, List.nil_append]

/-- The card on a bus on which the frames of a read are disturbed. -/
def noisyBus (lat : Latency) (noise : List (List UInt8) → List (List UInt8)) : SpiBus Card where
  csAssert c :=
    match c.phase with
    | .reading blocks =>
        { c with
          out := (noise (blocks.map frame)).flatMap (sendFrame lat)
          phase := .command [] }
    | _ => (cardBus lat).csAssert c
  csDeassert := (cardBus lat).csDeassert
  exchange := (cardBus lat).exchange

theorem noisyBus_csAssert (lat : Latency) (noise : List (List UInt8) → List (List UInt8))
    {blocks : List (List UInt8)} (reading : c.phase = .reading blocks) :
    (noisyBus lat noise).csAssert c = { c with
      out := (noise (blocks.map frame)).flatMap (sendFrame lat)
      phase := .command [] } := by
  simp only [noisyBus, reading]

section Exchange

variable {σ : Type} {bus other : SpiBus σ}

theorem startTokenLoop_congr (same : exchange bus = exchange other) (attempts : ℕ)
    (before : UInt8) : startTokenLoop bus attempts before = startTokenLoop other attempts before := by
  induction attempts generalizing before with
  | zero => rfl
  | succ attempts ih =>
      simp only [startTokenLoop, morseReceiveSpi, mmhalWlanSpiRw, same, ih]

theorem readBytes_congr (same : exchange bus = exchange other) (n : ℕ) :
    readBytes bus n = readBytes other n := by
  induction n with
  | zero => rfl
  | succ n ih => simp only [readBytes, same, ih]

/-- While a block is read, the bus only exchanges bytes. -/
theorem getDataLoop_congr (same : exchange bus = exchange other) (w : World σ)
    (blockSize : BlockSize) (byteCnt : UInt16) (data : ℕ) :
    getDataLoop bus blockSize byteCnt data = getDataLoop other blockSize byteCnt data := by
  fun_induction getDataLoop bus blockSize byteCnt data with
  | case1 => rw [getDataLoop, if_pos rfl]
  | case2 byteCnt data more ih =>
      have rest := ih w
      rw [getDataLoop.eq_1 other, if_neg more]
      simp only [startTokenLoop_congr same, mmhalWlanSpiReadBuf, readBytes_congr same,
        morseReceiveSpi, mmhalWlanSpiRw, same, rest]

end Exchange

variable (mem) in
/-- The loop stops at the first block that is hit. -/
theorem getDataLoop_burst (short : lat.Short) (blockSize : BlockSize) (data : ℕ)
    {byteCnt : UInt16} {before after rest : List (List UInt8)} {block received : List UInt8}
    (split : Splits blockSize byteCnt.toNat ((before ++ block :: after).map List.length))
    (burst : Burst 16 (bitsOf (frame block)) (bitsOf received))
    (sends : c.out = (before.map frame ++ received :: rest).flatMap (sendFrame lat)) :
    ∃ mem' out, (getDataLoop (cardBus lat) blockSize byteCnt data).Stops ⟨mem, c⟩
      (.exit .invalidCrcRecieved) ⟨mem', { c with out }⟩ := by
  induction before generalizing mem c byteCnt data with
  | nil =>
      rw [List.nil_append, List.map_cons] at split
      obtain ⟨positive, size, -⟩ := split.cons
      obtain ⟨bytes, high, low, rfl⟩ := exists_crc burst
      obtain ⟨length, differs⟩ := blockCheck_burst burst
      rw [← length] at positive size
      rw [List.map_nil, List.nil_append, List.flatMap_cons, sendFrame_append] at sends
      exact ⟨_, _, (getDataLoop_block short blockSize data positive size sends).trans
        (if_neg differs)⟩
  | cons first before ih =>
      rw [List.cons_append, List.map_cons] at split
      obtain ⟨positive, size, others⟩ := split.cons
      rw [← toNat_sub_block (by omega)] at others
      obtain ⟨mem', out, stopped⟩ := ih (store mem data first)
        (c := { c with out := (before.map frame ++ received :: rest).flatMap (sendFrame lat) })
        (data + first.length) others rfl
      rw [List.map_cons, List.cons_append, List.flatMap_cons, frame, blockCrc,
        sendFrame_append] at sends
      refine ⟨mem', out, (getDataLoop_block short blockSize data positive size sends).trans ?_⟩
      rw [morseCrc16, mmcrc16Xmodem_eq, halves_crc, if_pos rfl]
      exact stopped

/-- **A read in which a block is hit by a burst of errors fails** with the code for a wrong CRC,
and the card is deselected. -/
theorem morseCmd53GetData_burst (short : lat.Short) (noise : List (List UInt8) → List (List UInt8))
    (blockSize : BlockSize) (data : ℕ) {byteCnt : UInt16} (before after : List (List UInt8))
    {rest : List (List UInt8)} {block received : List UInt8}
    (split : Splits blockSize byteCnt.toNat ((before ++ block :: after).map List.length))
    (reading : c.phase = .reading (before ++ block :: after))
    (hit : noise ((before ++ block :: after).map frame) = before.map frame ++ received :: rest)
    (burst : Burst 16 (bitsOf (frame block)) (bitsOf received)) :
    ∃ mem', (morseCmd53GetData (noisyBus lat noise) byteCnt data blockSize).Stops ⟨mem, c⟩
      (.exit .invalidCrcRecieved) ⟨mem', { c with out := [], phase := .command [] }⟩ := by
  obtain ⟨mem', out, stopped⟩ := getDataLoop_burst mem (c := { c with
      out := (before.map frame ++ received :: rest).flatMap (sendFrame lat)
      phase := .command [] }) short blockSize data split burst rfl
  have sent := noisyBus_csAssert lat noise reading
  rw [hit] at sent
  have selected : (mmhalWlanSpiCsAssert (noisyBus lat noise)).Returns ⟨mem, c⟩ ()
      ⟨mem, { c with
        out := (before.map frame ++ received :: rest).flatMap (sendFrame lat)
        phase := .command [] }⟩ := by
    rw [← sent]
    rfl
  have same : exchange (noisyBus lat noise) = exchange (cardBus lat) := rfl
  rw [← getDataLoop_congr same ⟨mem, c⟩] at stopped
  exact ⟨mem', selected.bind_stops (stopped.atExit rfl rfl)⟩

/-- The second of two blocks, with a bit that was flipped in its CRC. -/
theorem morseCmd53GetData_burst_second : ∃ mem',
    (morseCmd53GetData (noisyBus ⟨1, 1, 1, 1⟩ fun frames => frames.take 1 ++ [[0, 0, 1]]) 9 0
      .fn1).Stops
      ⟨fun _ => 0, ⟨fun _ => 0, fun _ => (0, 0), [], .reading [List.replicate 8 0, [0]]⟩⟩
      (.exit .invalidCrcRecieved)
      ⟨mem', ⟨fun _ => 0, fun _ => (0, 0), [], .command []⟩⟩ := by
  have split : Splits .fn1 (9 : UInt16).toNat
      (([List.replicate 8 (0 : UInt8)] ++ [0] :: []).map List.length) :=
    .block (by decide) (.block (by decide) .done)
  have hit : [frame (List.replicate 8 0), frame [0]].take 1 ++ [[0, 0, 1]] =
      [List.replicate 8 0].map frame ++ [0, 0, 1] :: [] := rfl
  have burst : Burst 16 (bitsOf (frame [0])) (bitsOf [0, 0, 1]) :=
    ⟨List.replicate 23 false, [false], [true], [], rfl, rfl, rfl, by decide, by decide⟩
  exact morseCmd53GetData_burst ⟨by decide, by decide, by decide, by decide⟩ _ .fn1 0
    [List.replicate 8 0] [] split rfl hit burst

end HalowBridge.Sdio
