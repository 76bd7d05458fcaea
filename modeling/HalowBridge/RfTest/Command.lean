import HalowBridge.Mmutils.Crc
import HalowBridge.Mmutils.MmbufRegion
import HalowBridge.Slip.Codec

/-!
# Commands for the RF test

The RF test gets its commands over a UART, each in a SLIP frame with a CRC behind it.
`uart_rx_handler` feeds what has arrived to `slip_rx`, and hands the bytes before the CRC to
`rf_test_handle_command` when a frame is complete and the CRC is right. It forgets the frame by
setting its length to zero, except where the frame has a single byte: this byte stays in the buffer
and stands in front of the next packet. Of a packet that is too long the beginning stays, and is
taken for the frame.

`commands_iff` says for which streams of packets, cut anywhere, every packet is handled as if it
were alone: wherever a byte has stayed or the beginning of a long packet, neither the packet nor
what is taken for it is a command.
-/

namespace HalowBridge.RfTest

open Mmutils Slip

/-- `SLIP_RX_BUFFER_SIZE` -/
abbrev slipRxBufferSize : ℕ := 2000

/-- `htole16` -/
def htole16 (word : UInt16) : List UInt8 := [word.toUInt8, (word >>> 8).toUInt8]

/-- The CRC at the end of a frame is that of the bytes before it. -/
def CrcMatches (frame : List UInt8) : Prop :=
  let crc := mmcrc16Xmodem 0 (frame.take (frame.length - 2))
  frame.getD (frame.length - 2) 0 = (crc &&& 0xff).toUInt8 ∧
    frame.getD (frame.length - 1) 0 = (crc >>> 8).toUInt8

instance (frame : List UInt8) : Decidable (CrcMatches frame) :=
  inferInstanceAs (Decidable (_ ∧ _))

/-- The buffer with the command, for a frame with a CRC. -/
def commandBuffer (outcome : Option (ℕ → UInt8)) (frame : Source) :
    Except Fault (Option Mmbuf) :=
  match mmbufAllocOnHeap 0 frame.len outcome with
  | none => .ok none
  | some mmbuf => do
      let mmbuf ← mmbuf.appendData frame
      return some (mmbuf.removeFromEnd 2).1

/-- The bytes in the buffer of the receiver. -/
def frameSource (s : SlipRxState slipRxBufferSize) : Source where
  bytes := s.frame
  length_lt := by
    rw [s.length_frame]
    exact Nat.lt_of_le_of_lt s.length_le (by decide)

/-- The turn of `uart_rx_handler` for a byte, with the buffer that is handed to
`rf_test_handle_command`, if it is called. -/
def uartRxByte (outcome : Option (ℕ → UInt8)) (s : SlipRxState slipRxBufferSize) (c : UInt8) :
    Except Fault (SlipRxState slipRxBufferSize × Option Mmbuf) :=
  let (s, status) := slipRx s c
  if status = .complete then
    if s.length < 2 then .ok (s, none)
    else do
      let command ← if CrcMatches s.frame then commandBuffer outcome (frameSource s) else .ok none
      return ({ s with length := 0, length_le := Nat.zero_le _ }, command)
  else .ok (s, none)

/-- `uart_rx_handler`, with the buffers that are handed to `rf_test_handle_command`. -/
def uartRxHandler (outcome : Option (ℕ → UInt8)) (s : SlipRxState slipRxBufferSize) :
    List UInt8 → Except Fault (SlipRxState slipRxBufferSize × List Mmbuf)
  | [] => .ok (s, [])
  | c :: data => do
      let (s, command) ← uartRxByte outcome s c
      let (s, commands) ← uartRxHandler outcome s data
      return (s, command.toList ++ commands)

/-- The calls of `uart_rx_handler` for data that arrives in pieces. -/
def uartRxChunks (outcome : Option (ℕ → UInt8)) (s : SlipRxState slipRxBufferSize) :
    List (List UInt8) → Except Fault (SlipRxState slipRxBufferSize × List Mmbuf)
  | [] => .ok (s, [])
  | data :: chunks => do
      let (s, commands) ← uartRxHandler outcome s data
      let (s, others) ← uartRxChunks outcome s chunks
      return (s, commands ++ others)

/-! ## What should be handled -/

/-- The packet is a command with its CRC. -/
def IsCommand (packet : List UInt8) : Prop :=
  2 ≤ packet.length ∧ packet.length ≤ slipRxBufferSize ∧
    packet.drop (packet.length - 2) =
      htole16 (mmcrc16Xmodem 0 (packet.take (packet.length - 2)))

instance (packet : List UInt8) : Decidable (IsCommand packet) :=
  inferInstanceAs (Decidable (_ ∧ _ ∧ _))

/-- The command of a packet, without the CRC. -/
def command (packet : List UInt8) : Option (List UInt8) :=
  if IsCommand packet then some (packet.take (packet.length - 2)) else none

/-- What is taken for a packet when some bytes have stayed in the buffer. -/
def received (stayed packet : List UInt8) : List UInt8 := (stayed ++ packet).take slipRxBufferSize

/-- The handler at a time at which no packet is under way: what has stayed, and the command of the
next packet. -/
def framing : Machine (List UInt8) (List UInt8) (Option (List UInt8)) where
  step stayed packet :=
    (if (received stayed packet).length = 1 then received stayed packet else [],
      command (received stayed packet))

/-- The packet is taken for what it is, or neither it nor what is taken for it is a command. -/
def Undisturbed (stayed packet : List UInt8) : Prop :=
  received stayed packet = packet ∨ ¬ IsCommand (received stayed packet) ∧ ¬ IsCommand packet

instance (stayed packet : List UInt8) : Decidable (Undisturbed stayed packet) :=
  inferInstanceAs (Decidable (_ ∨ _))

/-! ## Runs of the handler -/

section

variable {contents : ℕ → UInt8} {r s t : SlipRxState slipRxBufferSize} {c : UInt8}

theorem uartRxHandler_append (outcome : Option (ℕ → UInt8)) (s : SlipRxState slipRxBufferSize)
    (first second : List UInt8) :
    uartRxHandler outcome s (first ++ second) = (do
      let (s, commands) ← uartRxHandler outcome s first
      let (s, others) ← uartRxHandler outcome s second
      return (s, commands ++ others)) := by
  induction first generalizing s with
  | nil =>
      show uartRxHandler outcome s second = _
      simp only [uartRxHandler, bind, Except.bind, List.nil_append]
      cases uartRxHandler outcome s second <;> rfl
  | cons c first ih =>
      rw [List.cons_append, uartRxHandler, uartRxHandler]
      cases uartRxByte outcome s c with
      | error fault => rfl
      | ok out =>
          simp only [bind, Except.bind, ih]
          cases uartRxHandler outcome out.1 first with
          | error fault => rfl
          | ok next =>
              simp only [pure, Except.pure]
              cases uartRxHandler outcome next.1 second with
              | error fault => rfl
              | ok last => simp only [List.append_assoc]

/-- How the data is cut does not matter. -/
theorem uartRxChunks_eq (outcome : Option (ℕ → UInt8)) (s : SlipRxState slipRxBufferSize)
    (chunks : List (List UInt8)) :
    uartRxChunks outcome s chunks = uartRxHandler outcome s chunks.flatten := by
  induction chunks generalizing s with
  | nil => rfl
  | cons data chunks ih =>
      rw [List.flatten_cons, uartRxHandler_append, uartRxChunks]
      simp only [ih]

/-- The bytes take the receiver from `s` to `t`, and the commands are handled, without a fault. -/
def Handles (contents : ℕ → UInt8) (s : SlipRxState slipRxBufferSize) (bytes : List UInt8)
    (commands : List (List UInt8)) (t : SlipRxState slipRxBufferSize) : Prop :=
  ∃ buffers, uartRxHandler (some contents) s bytes = .ok (t, buffers) ∧
    buffers.map (fun mmbuf => mmbuf.view.data) = commands

theorem Handles.nil (s : SlipRxState slipRxBufferSize) : Handles contents s [] [] s :=
  ⟨[], rfl, rfl⟩

theorem Handles.append {first second : List UInt8} {commands others : List (List UInt8)}
    (left : Handles contents r first commands s) (right : Handles contents s second others t) :
    Handles contents r (first ++ second) (commands ++ others) t := by
  obtain ⟨buffers, left, rfl⟩ := left
  obtain ⟨more, right, rfl⟩ := right
  refine ⟨buffers ++ more, ?_, List.map_append⟩
  rw [uartRxHandler_append, left]
  simp only [bind, Except.bind, right]
  rfl

theorem Handles.byte {buffer : Option Mmbuf}
    (step : uartRxByte (some contents) s c = .ok (t, buffer)) :
    Handles contents s [c] (buffer.toList.map fun mmbuf => mmbuf.view.data) t := by
  refine ⟨buffer.toList, ?_, rfl⟩
  rw [uartRxHandler, step]
  simp only [bind, Except.bind, uartRxHandler, pure, Except.pure, List.append_nil]

theorem Handles.silent (step : uartRxByte (some contents) s c = .ok (t, none)) :
    Handles contents s [c] [] t :=
  Handles.byte step

/-- A byte that does not complete a frame. -/
theorem Handles.moves {status : SlipRxStatus} (step : slipRx s c = (t, status))
    (inside : status ≠ .complete) : Handles contents s [c] [] t := by
  apply Handles.silent
  rw [uartRxByte, step]
  exact if_neg inside

/-! ## The bytes of a packet -/

/-- A frame is under way, and the buffer has the bytes `acc` of it, as far as they fit. -/
structure Within (s : SlipRxState slipRxBufferSize) (acc : List UInt8) : Prop where
  escape : s.escape = false
  frame : s.frame = acc.take slipRxBufferSize
  started : acc.length ≤ slipRxBufferSize → s.frameStarted = true

/-- A byte is appended, or refused by a full buffer. -/
theorem Within.append {acc : List UInt8} (within : Within s acc) (c : UInt8) :
    ∃ t status, slipRxAppend s c = (t, status) ∧ status ≠ .complete ∧ Within t (acc ++ [c]) := by
  have length : s.length = min slipRxBufferSize acc.length := by
    rw [← s.length_frame, within.frame, List.length_take]
  by_cases room : acc.length < slipRxBufferSize
  · rw [Nat.min_eq_right room.le] at length
    obtain ⟨t, appended, frame, started, escape⟩ := slipRxAppend_room (length ▸ room) c
    refine ⟨t, _, appended, nofun, escape.trans within.escape, ?_, fun _ => ?_⟩
    · rw [frame, within.frame, List.take_of_length_le room.le, List.take_of_length_le]
      rw [List.length_append]
      exact room
    · exact started.trans (within.started room.le)
  · have le := Nat.not_lt.mp room
    rw [Nat.min_eq_left le] at length
    refine ⟨_, _, dif_pos length, nofun, within.escape, ?_, fun short => ?_⟩
    · rw [List.take_append_of_le_length le]
      exact within.frame
    · rw [List.length_append, List.length_singleton] at short
      exact (room short).elim

/-- One byte of a packet. -/
theorem Within.escaped {acc : List UInt8} (within : Within s acc) (contents : ℕ → UInt8)
    (c : UInt8) : ∃ t, Handles contents s (escaped c) [] t ∧ Within t (acc ++ [c]) := by
  have sequence {code : UInt8} (stands : StandsFor code c) :
      ∃ t, Handles contents s [slipFrameEsc, code] [] t ∧ Within t (acc ++ [c]) := by
    have first : Handles contents s [slipFrameEsc] [] { s with escape := true } :=
      .moves (slipRx_esc within.escape) nofun
    have unescaped : Within { s with escape := false } acc := ⟨rfl, within.frame, within.started⟩
    obtain ⟨t, status, appended, inside, next⟩ := unescaped.append c
    have second : Handles contents { s with escape := true } [code] [] t :=
      .moves ((slipRx_escaped rfl stands).trans appended) inside
    exact ⟨t, first.append second, next⟩
  by_cases isEsc : c = slipFrameEsc
  · rw [Slip.escaped, if_pos isEsc]
    exact sequence (.inr ⟨rfl, isEsc⟩)
  by_cases isEnd : c = slipFrameEnd
  · rw [Slip.escaped, if_neg isEsc, if_pos isEnd]
    exact sequence (.inl ⟨rfl, isEnd⟩)
  rw [Slip.escaped, if_neg isEsc, if_neg isEnd]
  have plain : slipRx s c = if s.frameStarted then slipRxAppend s c else (s, .inProgress) := by
    rw [slipRx, if_neg isEnd, if_neg (by simp [within.escape]), if_neg isEsc]
  cases started : s.frameStarted with
  | true =>
      rw [started, if_pos rfl] at plain
      obtain ⟨t, status, appended, inside, next⟩ := within.append c
      exact ⟨t, .moves (plain.trans appended) inside, next⟩
  | false =>
      have long : ¬ acc.length ≤ slipRxBufferSize := by
        intro short
        rw [within.started short] at started
        cases started
      rw [started, if_neg Bool.false_ne_true] at plain
      refine ⟨s, .moves plain nofun, within.escape, ?_, fun short => ?_⟩
      · rw [List.take_append_of_le_length (Nat.not_le.mp long).le]
        exact within.frame
      · rw [List.length_append] at short
        exact (long (Nat.le_of_add_right_le short)).elim

theorem Within.packet {acc : List UInt8} (within : Within s acc) (contents : ℕ → UInt8)
    (packet : List UInt8) :
    ∃ t, Handles contents s (packet.flatMap Slip.escaped) [] t ∧ Within t (acc ++ packet) := by
  induction packet generalizing s acc with
  | nil => exact ⟨s, .nil s, by rwa [List.append_nil]⟩
  | cons c packet ih =>
      obtain ⟨r, head, next⟩ := within.escaped contents c
      obtain ⟨t, rest, last⟩ := ih next
      refine ⟨t, head.append rest, ?_⟩
      rwa [List.append_assoc] at last

/-! ## The buffer for a command -/

/-- The handler is given the bytes before the CRC. -/
theorem commandBuffer_eq (contents : ℕ → UInt8) (frame : Source) (long : 2 ≤ frame.bytes.length)
    (fits : frame.bytes.length ≤ slipRxBufferSize) :
    ∃ mmbuf, commandBuffer (some contents) frame = .ok (some mmbuf) ∧
      mmbuf.view.data = frame.bytes.take (frame.bytes.length - 2) := by
  unfold slipRxBufferSize at fits
  have len := frame.toNat_len
  obtain ⟨empty, allocated, valid, view⟩ := exists_mmbufAllocOnHeap 0 frame.len contents (by
    rw [UInt32.toNat_zero]
    omega)
  have room : frame.bytes.length ≤ empty.view.tailroom := by
    simp only [view, Region.initial, UInt32.toNat_zero, len, roundUp4]
    omega
  obtain ⟨full, appended, valid, view'⟩ := valid.appends frame room
  have data : full.view.data = frame.bytes := by
    rw [view', view]
    rfl
  have enough : (2 : UInt32).toNat ≤ full.view.data.length := by
    rw [data]
    exact long
  obtain ⟨rest, removed, -, body, -⟩ := valid.removes 2 enough
  refine ⟨rest, ?_, ?_⟩
  · rw [commandBuffer, allocated]
    simp only [appended, bind, Except.bind, removed]
    rfl
  · rw [body, data]
    rfl

/-- The two bytes are compared with the CRC in little-endian order. -/
theorem crcMatches_iff {frame : List UInt8} (long : 2 ≤ frame.length) :
    CrcMatches frame ↔ frame.drop (frame.length - 2) =
      htole16 (mmcrc16Xmodem 0 (frame.take (frame.length - 2))) := by
  have last : frame.drop (frame.length - 2) =
      [frame.getD (frame.length - 2) 0, frame.getD (frame.length - 1) 0] := by
    have next : frame.length - 2 + 1 = frame.length - 1 := by omega
    have all : frame.length - 1 + 1 = frame.length := by omega
    rw [List.drop_eq_getElem_cons (by omega), next, List.drop_eq_getElem_cons (by omega), all,
      List.drop_length, List.getD_eq_getElem _ _ (by omega), List.getD_eq_getElem _ _ (by omega)]
  have low (crc : UInt16) : (crc &&& 0xff).toUInt8 = crc.toUInt8 := by
    have mask : (0xff : UInt16).toNat = 2 ^ 8 - 1 := rfl
    apply UInt8.toNat_inj.mp
    rw [UInt16.toNat_toUInt8, UInt16.toNat_toUInt8, UInt16.toNat_and, mask,
      Nat.and_two_pow_sub_one_eq_mod, Nat.mod_mod]
  rw [last, CrcMatches, htole16, List.cons.injEq, List.cons.injEq, low]
  simp only [and_true]

theorem crcMatches_iff_isCommand {frame : List UInt8} (long : 2 ≤ frame.length)
    (fits : frame.length ≤ slipRxBufferSize) : CrcMatches frame ↔ IsCommand frame := by
  rw [crcMatches_iff long, IsCommand]
  simp only [long, fits, true_and]

/-! ## Between the packets -/

/-- No packet is under way, and these bytes have stayed in the buffer. -/
structure Between (s : SlipRxState slipRxBufferSize) (stayed : List UInt8) : Prop where
  escape : s.escape = false
  frame : s.frame = stayed
  short : stayed.length ≤ 1
  started : stayed ≠ [] → s.frameStarted = true

theorem between_empty (escape : s.escape = false) (empty : s.length = 0) : Between s [] :=
  ⟨escape, SlipRxState.frame_eq_nil.mpr empty, Nat.zero_le _, fun other => (other rfl).elim⟩

/-- An END in a receiver that has a single byte completes a frame that is too short, and changes
nothing. -/
theorem Handles.tooShort (escape : s.escape = false) (single : s.length = 1) :
    Handles contents s [slipFrameEnd] [] s := by
  apply Handles.silent
  rw [uartRxByte, slipRx_end_of_pos escape (by omega)]
  simp only [if_true]
  exact if_pos (by omega)

/-- An END in a receiver that has no bytes starts a frame. -/
theorem Handles.starts (escape : s.escape = false) (empty : s.length = 0) :
    Handles contents s [slipFrameEnd] [] { s with frameStarted := true } :=
  .moves (slipRx_end_of_empty escape empty) (by decide)

/-- An END in a receiver that has more than one byte completes a frame, and empties the buffer. -/
theorem Handles.completes (escape : s.escape = false) (long : 2 ≤ s.length) :
    Handles contents s [slipFrameEnd] (command s.frame).toList
      { s with length := 0, length_le := Nat.zero_le _ } := by
  have complete := slipRx_end_of_pos escape (by omega)
  have long' : 2 ≤ s.frame.length := by rwa [s.length_frame]
  have fits : s.frame.length ≤ slipRxBufferSize := by
    rw [s.length_frame]
    exact s.length_le
  obtain ⟨mmbuf, allocated, data⟩ := commandBuffer_eq contents (frameSource s) long' fits
  have matching := crcMatches_iff_isCommand long' fits
  by_cases isCommand : IsCommand s.frame
  · rw [command, if_pos isCommand]
    have step : uartRxByte (some contents) s slipFrameEnd =
        .ok ({ s with length := 0, length_le := Nat.zero_le _ }, some mmbuf) := by
      rw [uartRxByte, complete]
      simp only [if_true, if_neg (Nat.not_lt.mpr long), if_pos (matching.mpr isCommand), allocated]
      rfl
    have handled := Handles.byte step
    rw [Option.toList_some, List.map_singleton, data] at handled
    exact handled
  · rw [command, if_neg isCommand]
    apply Handles.silent
    rw [uartRxByte, complete]
    simp only [if_true, if_neg (Nat.not_lt.mpr long), if_neg (mt matching.mp isCommand)]
    rfl

/-- The END before a packet. -/
theorem Between.opens {stayed : List UInt8} (between : Between s stayed) (contents : ℕ → UInt8) :
    ∃ t, Handles contents s [slipFrameEnd] [] t ∧ Within t stayed := by
  have length : s.length = stayed.length := by rw [← s.length_frame, between.frame]
  have all : stayed.take slipRxBufferSize = stayed :=
    List.take_of_length_le (le_trans between.short (by decide))
  by_cases none : stayed = []
  · have empty : s.length = 0 := by rw [length, none, List.length_nil]
    refine ⟨_, .starts between.escape empty, between.escape, ?_, fun _ => rfl⟩
    rw [all]
    exact between.frame
  · have single : s.length = 1 := by
      have positive := List.length_pos_iff.mpr none
      have short := between.short
      omega
    refine ⟨s, .tooShort between.escape single, between.escape, ?_, fun _ => between.started none⟩
    rw [all, between.frame]

/-- The END after a packet. -/
theorem Within.closes {acc : List UInt8} (within : Within s acc) (contents : ℕ → UInt8) :
    ∃ t, Handles contents s [slipFrameEnd] (command (acc.take slipRxBufferSize)).toList t ∧
      Between t (if (acc.take slipRxBufferSize).length = 1 then acc.take slipRxBufferSize
        else []) := by
  rw [← within.frame]
  have short (few : s.frame.length < 2) : command s.frame = none :=
    if_neg fun isCommand => Nat.not_le.mpr few isCommand.1
  have length := s.length_frame
  rcases Nat.lt_trichotomy s.length 1 with less | single | more
  · have empty : s.length = 0 := Nat.lt_one_iff.mp less
    rw [short (by omega), if_neg (by omega)]
    exact ⟨_, .starts within.escape empty, between_empty within.escape empty⟩
  · rw [short (by omega), if_pos (by omega)]
    refine ⟨s, .tooShort within.escape single, within.escape, rfl, by omega, fun _ => ?_⟩
    apply within.started
    have taken := congrArg List.length within.frame
    rw [List.length_take] at taken
    unfold slipRxBufferSize at taken ⊢
    omega
  · rw [if_neg (by omega)]
    exact ⟨_, .completes within.escape more, between_empty within.escape rfl⟩

/-- A packet, from its first END to its last. -/
theorem Between.packet {stayed : List UInt8} (between : Between s stayed) (contents : ℕ → UInt8)
    (packet : List UInt8) :
    ∃ t, Handles contents s (slipFrame packet) (framing.step stayed packet).2.toList t ∧
      Between t (framing.step stayed packet).1 := by
  obtain ⟨opened, first, within⟩ := between.opens contents
  obtain ⟨full, body, within⟩ := within.packet contents packet
  obtain ⟨t, last, between⟩ := within.closes contents
  rw [slipFrame_eq]
  exact ⟨t, first.append (body.append last), between⟩

/-- The calls for a stream of packets. -/
theorem Between.stream {stayed : List UInt8} (between : Between s stayed) (contents : ℕ → UInt8)
    (packets : List (List UInt8)) :
    ∃ t, Handles contents s (slipStream packets)
      ((framing.trace stayed packets).filterMap Prod.snd) t := by
  rw [slipStream_eq]
  induction packets generalizing s stayed with
  | nil => exact ⟨s, .nil s⟩
  | cons packet packets ih =>
      obtain ⟨r, head, between⟩ := between.packet contents packet
      obtain ⟨t, rest⟩ := ih between
      refine ⟨t, ?_⟩
      have both := head.append rest
      rw [List.flatMap_cons, Machine.trace_cons, List.filterMap_cons]
      cases output : (framing.step stayed packet).2 with
      | none =>
          rw [output] at both
          exact both
      | some body =>
          rw [output] at both
          exact both

end

/-! ## Every packet for itself -/

/-- `rf_test_handle_command` is called for the packets that are commands, once each, in their order
and with the bytes before the CRC, however the stream is cut; also as far as it was sent. -/
def HandlesCommands (contents : ℕ → UInt8) (buffer : Table UInt8 slipRxBufferSize)
    (packets : List (List UInt8)) : Prop :=
  ∀ sent, sent <+: packets → ∀ chunks : List (List UInt8), chunks.flatten = slipStream sent →
    (uartRxChunks (some contents) (.init buffer) chunks).map
      (fun out => out.2.map fun mmbuf => mmbuf.view.data) = .ok (sent.filterMap command)

theorem map_uartRxChunks (contents : ℕ → UInt8) (buffer : Table UInt8 slipRxBufferSize)
    {packets chunks : List (List UInt8)} (cut : chunks.flatten = slipStream packets) :
    (uartRxChunks (some contents) (.init buffer) chunks).map
      (fun out => out.2.map fun mmbuf => mmbuf.view.data) =
        .ok ((framing.trace [] packets).filterMap Prod.snd) := by
  obtain ⟨t, buffers, handled, data⟩ :=
    (between_empty rfl rfl : Between (.init buffer) []).stream contents packets
  rw [uartRxChunks_eq, cut, handled, ← data]
  rfl

/-- Two commands with the same body have the same CRC. -/
theorem command_inj {first second : List UInt8} (isCommand : IsCommand first)
    (same : command first = command second) : first = second := by
  rw [command, command, if_pos isCommand] at same
  by_cases also : IsCommand second
  · rw [if_pos also, Option.some_inj] at same
    rw [← List.take_append_drop (first.length - 2) first, isCommand.2.2, same, ← also.2.2,
      List.take_append_drop]
  · rw [if_neg also] at same
    cases same

theorem undisturbed_iff {stayed packet : List UInt8} :
    (framing.step stayed packet).2 = command packet ↔ Undisturbed stayed packet := by
  show command (received stayed packet) = command packet ↔ _
  constructor
  · intro same
    by_cases taken : IsCommand (received stayed packet)
    · exact .inl (command_inj taken same)
    by_cases sent : IsCommand packet
    · exact .inl (command_inj sent same.symm).symm
    · exact .inr ⟨taken, sent⟩
  · rintro (same | ⟨taken, sent⟩)
    · rw [same]
    · rw [command, command, if_neg taken, if_neg sent]

/-- **Every packet is handled as if it were alone exactly where each of them is taken for what it
is**, or neither it nor what is taken for it is a command. -/
theorem commands_iff (contents : ℕ → UInt8) (buffer : Table UInt8 slipRxBufferSize)
    (packets : List (List UInt8)) :
    HandlesCommands contents buffer packets ↔
      framing.Guarded (fun _ => Undisturbed) [] packets := by
  have calls : HandlesCommands contents buffer packets ↔
      ∀ sent, sent <+: packets →
        (framing.trace [] sent).filterMap Prod.snd = sent.filterMap command := by
    refine forall₂_congr fun sent _ => ?_
    constructor
    · intro every
      have single := every [slipStream sent] (List.flatten_singleton)
      rw [map_uartRxChunks contents buffer (List.flatten_singleton)] at single
      exact Except.ok.inj single
    · intro same chunks cut
      rw [map_uartRxChunks contents buffer cut, same]
  rw [calls, framing.filterMap_trace_eq_iff]
  simp only [undisturbed_iff]

/-- **A packet of one byte, and a command**: the byte stands in front of the command, whose CRC is
then wrong. -/
theorem not_handlesCommands_singleByte :
    ¬ HandlesCommands (fun _ => 0) (.fill slipRxBufferSize 0)
      [[0x55], [1, 2, 3, 4, 0x03, 0x0d]] := by
  intro handles
  have sent := handles _ (List.prefix_refl _) [slipStream _] List.flatten_singleton
  rw [map_uartRxChunks _ _ List.flatten_singleton] at sent
  exact absurd (Except.ok.inj sent) (by decide +kernel)

end HalowBridge.RfTest
