import HalowBridge.Lib.Machine
import HalowBridge.Lib.Table

/-!
# SLIP frames

`slip_tx` sends a packet between two END bytes and escapes the bytes that stand for END and for the
escape itself. `slip_rx` takes the stream byte by byte and writes the frame into a buffer. The
transport is a function on a state of its own that returns a result for each byte, so that a
transport that fails is one more function.

The `receiver` is `slip_rx` as its callers use it: the state is reinitialised after every complete
frame. `Reads` says that a run of it over some bytes delivers some packets without a fault, and
these runs compose. `receiver_roundTrip` is their result for a stream of frames: every packet that
is not empty arrives, once and in order.
-/

namespace HalowBridge.Slip

def slipFrameEnd : UInt8 := 0xc0

def slipFrameEsc : UInt8 := 0xdb

def slipFrameEscEnd : UInt8 := 0xdc

def slipFrameEscEsc : UInt8 := 0xdd

/-! ## Sending -/

section Transmit

variable {σ : Type*} (transportTxFn : σ → UInt8 → σ × ℤ)

/-- An escaped byte; the second half is not sent when the first fails. -/
def slipTxEscaped (arg : σ) (code : UInt8) : σ × ℤ :=
  let (arg, ret) := transportTxFn arg slipFrameEsc
  if ret ≠ 0 then (arg, ret) else transportTxFn arg code

/-- One byte of the packet. -/
def slipTxByte (arg : σ) (c : UInt8) : σ × ℤ :=
  if c = slipFrameEsc then slipTxEscaped transportTxFn arg slipFrameEscEsc
  else if c = slipFrameEnd then slipTxEscaped transportTxFn arg slipFrameEscEnd
  else transportTxFn arg c

/-- The loop of `slip_tx`: each byte overwrites the result of the one before. -/
def slipTxLoop : σ × ℤ → List UInt8 → σ × ℤ
  | (arg, ret), [] => (arg, ret)
  | (arg, _), c :: packet => slipTxLoop (slipTxByte transportTxFn arg c) packet

/-- `slip_tx`: the transport afterwards, and the result of the last byte. -/
def slipTx (arg : σ) (packet : List UInt8) : σ × ℤ :=
  let arg := (transportTxFn arg slipFrameEnd).1
  let (arg, ret) := slipTxLoop transportTxFn (arg, 0) packet
  ((transportTxFn arg slipFrameEnd).1, ret)

end Transmit

/-- A transport that never fails and keeps what was sent. -/
def wire (sent : List UInt8) (c : UInt8) : List UInt8 × ℤ := (sent ++ [c], 0)

/-- The bytes that stand for a byte of the packet. -/
def escaped (c : UInt8) : List UInt8 :=
  if c = slipFrameEsc then [slipFrameEsc, slipFrameEscEsc]
  else if c = slipFrameEnd then [slipFrameEsc, slipFrameEscEnd]
  else [c]

theorem slipTxByte_wire (sent : List UInt8) (c : UInt8) :
    slipTxByte wire sent c = (sent ++ escaped c, 0) := by
  rw [slipTxByte, escaped]
  split_ifs <;> simp [slipTxEscaped, wire]

theorem slipTxLoop_wire (sent packet : List UInt8) :
    slipTxLoop wire (sent, 0) packet = (sent ++ packet.flatMap escaped, 0) := by
  induction packet generalizing sent with
  | nil => simp [slipTxLoop]
  | cons c packet ih =>
      rw [slipTxLoop, slipTxByte_wire, ih, List.flatMap_cons, List.append_assoc]

/-- What `slip_tx` puts on a wire. -/
theorem slipTx_wire (sent packet : List UInt8) :
    slipTx wire sent packet =
      (sent ++ slipFrameEnd :: (packet.flatMap escaped ++ [slipFrameEnd]), 0) := by
  simp [slipTx, wire, slipTxLoop_wire]

/-- The frame of a packet on the wire. -/
def slipFrame (packet : List UInt8) : List UInt8 := (slipTx wire [] packet).1

theorem slipFrame_eq (packet : List UInt8) :
    slipFrame packet = slipFrameEnd :: (packet.flatMap escaped ++ [slipFrameEnd]) := by
  rw [slipFrame, slipTx_wire, List.nil_append]

/-! ## Receiving -/

inductive SlipRxStatus where
  | complete
  | inProgress
  | bufferLimit
  | error
  deriving DecidableEq

/-- The state of a receiver with a buffer of `n` bytes. -/
structure SlipRxState (n : ℕ) where
  buffer : Table UInt8 n
  length : ℕ
  escape : Bool
  frameStarted : Bool
  length_le : length ≤ n

namespace SlipRxState

variable {n : ℕ}

/-- `SLIP_RX_STATE_INIT` -/
def init (buffer : Table UInt8 n) : SlipRxState n := ⟨buffer, 0, false, false, Nat.zero_le n⟩

/-- `slip_rx_state_reinit` with the receiver's own buffer. -/
def reinit (s : SlipRxState n) : SlipRxState n := init s.buffer

/-- The bytes received so far. -/
def frame (s : SlipRxState n) : List UInt8 := s.buffer.slots.take s.length

theorem length_frame (s : SlipRxState n) : s.frame.length = s.length := by
  have := s.length_le
  rw [frame, List.length_take, s.buffer.length_eq]
  omega

theorem frame_eq_nil {s : SlipRxState n} : s.frame = [] ↔ s.length = 0 := by
  rw [← List.length_eq_zero_iff, length_frame]

end SlipRxState

variable {n : ℕ}

def slipRxAppend (s : SlipRxState n) (c : UInt8) : SlipRxState n × SlipRxStatus :=
  if full : s.length = n then ({ s with frameStarted := false }, .bufferLimit)
  else
    ({ s with
        buffer := s.buffer.set s.length c
        length := s.length + 1
        length_le := Nat.lt_of_le_of_ne s.length_le full }, .inProgress)

def slipRx (s : SlipRxState n) (c : UInt8) : SlipRxState n × SlipRxStatus :=
  if c = slipFrameEnd then
    if s.escape then (s.reinit, .error)
    else if s.length > 0 then (s, .complete)
    else ({ s with frameStarted := true }, .inProgress)
  else if s.escape then
    let s := { s with escape := false }
    if c = slipFrameEscEnd then slipRxAppend s slipFrameEnd
    else if c = slipFrameEscEsc then slipRxAppend s slipFrameEsc
    else (s.reinit, .error)
  else if c = slipFrameEsc then ({ s with escape := true }, .inProgress)
  else if s.frameStarted then slipRxAppend s c
  else (s, .inProgress)

/-- The receiver as its callers drive it. The output of a byte is the status and the frame that
stands in the buffer. -/
def receiver (n : ℕ) : Machine (SlipRxState n) UInt8 (SlipRxStatus × List UInt8) where
  step s c :=
    let (s, status) := slipRx s c
    (if status = .complete then s.reinit else s, status, s.frame)

/-- The frames a run delivers. -/
def delivered (trace : List (UInt8 × SlipRxStatus × List UInt8)) : List (List UInt8) :=
  trace.filterMap fun event => if event.2.1 = .complete then some event.2.2 else none

/-- No byte was answered with an error or with the limit of the buffer. -/
def Faultless (trace : List (UInt8 × SlipRxStatus × List UInt8)) : Prop :=
  ∀ event ∈ trace, event.2.1 ≠ .error ∧ event.2.1 ≠ .bufferLimit

theorem delivered_append (first second : List (UInt8 × SlipRxStatus × List UInt8)) :
    delivered (first ++ second) = delivered first ++ delivered second :=
  List.filterMap_append

/-! ## Runs without a fault -/

/-- The bytes take the receiver from `s` to `t`, deliver the packets and cause no fault. -/
structure Reads (s : SlipRxState n) (bytes : List UInt8) (packets : List (List UInt8))
    (t : SlipRxState n) : Prop where
  exec : (receiver n).exec s bytes = t
  delivered : delivered ((receiver n).trace s bytes) = packets
  faultless : Faultless ((receiver n).trace s bytes)

theorem Reads.nil (s : SlipRxState n) : Reads s [] [] s where
  exec := rfl
  delivered := rfl
  faultless := fun _ member => (List.not_mem_nil member).elim

theorem Reads.append {r s t : SlipRxState n} {first second : List UInt8}
    {packets others : List (List UInt8)} (left : Reads r first packets s)
    (right : Reads s second others t) :
    Reads r (first ++ second) (packets ++ others) t where
  exec := by rw [Machine.exec_append, left.exec, right.exec]
  delivered := by
    rw [Machine.trace_append, delivered_append, left.exec, left.delivered, right.delivered]
  faultless := by
    rw [Machine.trace_append, left.exec]
    exact List.forall_mem_append.mpr ⟨left.faultless, right.faultless⟩

/-- A byte that only moves the state. -/
theorem Reads.inProgress {s t : SlipRxState n} {c : UInt8} (step : slipRx s c = (t, .inProgress)) :
    Reads s [c] [] t := by
  refine ⟨?_, ?_, ?_⟩
  · simp [receiver, step]
  · simp [receiver, step, HalowBridge.Slip.delivered]
  · simp [receiver, step, Faultless]

/-- A byte that completes a frame. -/
theorem Reads.complete {s t : SlipRxState n} {c : UInt8} (step : slipRx s c = (t, .complete)) :
    Reads s [c] [t.frame] t.reinit := by
  refine ⟨?_, ?_, ?_⟩
  · simp [receiver, step]
  · simp [receiver, step, HalowBridge.Slip.delivered]
  · simp [receiver, step, Faultless]

/-! ## One frame -/

/-- A frame has started and the bytes `acc` have arrived. -/
structure InFrame (s : SlipRxState n) (acc : List UInt8) : Prop where
  frameStarted : s.frameStarted = true
  escape : s.escape = false
  frame : s.frame = acc

/-- Between two frames. An empty frame leaves the receiver with a frame started. -/
structure Idle (s : SlipRxState n) : Prop where
  escape : s.escape = false
  length : s.length = 0

theorem idle_init (buffer : Table UInt8 n) : Idle (.init buffer) := ⟨rfl, rfl⟩

/-- A byte is appended while there is room. -/
theorem slipRxAppend_room {s : SlipRxState n} (room : s.length < n) (c : UInt8) :
    ∃ t, slipRxAppend s c = (t, .inProgress) ∧ t.frame = s.frame ++ [c] ∧
      t.frameStarted = s.frameStarted ∧ t.escape = s.escape := by
  rw [slipRxAppend, dif_neg room.ne]
  refine ⟨_, rfl, ?_, rfl, rfl⟩
  have inside : s.length < s.buffer.slots.length := by rwa [s.buffer.length_eq]
  simp only [SlipRxState.frame, Table.set_slots]
  rw [List.set_eq_take_append_cons_drop, if_pos inside, List.take_append, List.take_take,
    List.length_take]
  simp [Nat.min_eq_left inside.le]

/-- An END with nothing received starts a frame. -/
theorem slipRx_end_of_empty {s : SlipRxState n} (escape : s.escape = false)
    (empty : s.length = 0) :
    slipRx s slipFrameEnd = ({ s with frameStarted := true }, .inProgress) := by
  rw [slipRx, if_pos rfl, if_neg (by simp [escape]), if_neg (by omega)]

/-- An END with something received completes a frame. -/
theorem slipRx_end_of_pos {s : SlipRxState n} (escape : s.escape = false)
    (received : 0 < s.length) : slipRx s slipFrameEnd = (s, .complete) := by
  rw [slipRx, if_pos rfl, if_neg (by simp [escape]), if_pos received]

/-- An escape byte outside an escape sequence. -/
theorem slipRx_esc {s : SlipRxState n} (escape : s.escape = false) :
    slipRx s slipFrameEsc = ({ s with escape := true }, .inProgress) := by
  rw [slipRx, if_neg (by decide), if_neg (by simp [escape]), if_pos rfl]

/-- The second byte of an escape sequence, and the byte the sequence stands for. -/
def StandsFor (code c : UInt8) : Prop :=
  code = slipFrameEscEnd ∧ c = slipFrameEnd ∨ code = slipFrameEscEsc ∧ c = slipFrameEsc

/-- The second byte of an escape sequence appends the byte it stands for, also when no frame has
started. -/
theorem slipRx_escaped {s : SlipRxState n} (escape : s.escape = true) {code c : UInt8}
    (stands : StandsFor code c) : slipRx s code = slipRxAppend { s with escape := false } c := by
  rcases stands with ⟨rfl, rfl⟩ | ⟨rfl, rfl⟩
  · rw [slipRx, if_neg (by decide), if_pos escape, if_pos rfl]
  · rw [slipRx, if_neg (by decide), if_pos escape, if_neg (by decide), if_pos rfl]

/-- An escape sequence is read as the byte it stands for. -/
theorem reads_sequence {s : SlipRxState n} (escape : s.escape = false) (room : s.length < n)
    {code c : UInt8} (stands : StandsFor code c) :
    ∃ t, Reads s [slipFrameEsc, code] [] t ∧ t.frame = s.frame ++ [c] ∧
      t.frameStarted = s.frameStarted ∧ t.escape = false := by
  have first := Reads.inProgress (slipRx_esc escape)
  rcases slipRxAppend_room (s := { s with escape := false }) room c with
    ⟨t, appended, frame, started, clear⟩
  have second : Reads { s with escape := true } [code] [] t :=
    Reads.inProgress ((slipRx_escaped rfl stands).trans appended)
  exact ⟨t, first.append second, frame, started, clear⟩

/-- One byte of the packet, inside a frame. -/
theorem reads_escaped {s : SlipRxState n} {acc : List UInt8} (inFrame : InFrame s acc)
    (room : acc.length < n) (c : UInt8) :
    ∃ t, Reads s (escaped c) [] t ∧ InFrame t (acc ++ [c]) := by
  have space : s.length < n := by rwa [← s.length_frame, inFrame.frame]
  by_cases isEsc : c = slipFrameEsc
  · rcases reads_sequence inFrame.escape space (Or.inr ⟨rfl, isEsc⟩) with
      ⟨t, reads, frame, started, clear⟩
    rw [escaped, if_pos isEsc]
    exact ⟨t, reads, started.trans inFrame.frameStarted, clear, by rw [frame, inFrame.frame]⟩
  · by_cases isEnd : c = slipFrameEnd
    · rcases reads_sequence inFrame.escape space (Or.inl ⟨rfl, isEnd⟩) with
        ⟨t, reads, frame, started, clear⟩
      rw [escaped, if_neg isEsc, if_pos isEnd]
      exact ⟨t, reads, started.trans inFrame.frameStarted, clear, by rw [frame, inFrame.frame]⟩
    · rcases slipRxAppend_room space c with ⟨t, appended, frame, started, clear⟩
      have step : slipRx s c = (t, .inProgress) := by
        rw [slipRx, if_neg isEnd, if_neg (by simp [inFrame.escape]), if_neg isEsc,
          if_pos inFrame.frameStarted, appended]
      rw [escaped, if_neg isEsc, if_neg isEnd]
      exact ⟨t, .inProgress step, started.trans inFrame.frameStarted,
        clear.trans inFrame.escape, by rw [frame, inFrame.frame]⟩

/-- The bytes of a packet that fits, inside a frame. -/
theorem reads_packet {s : SlipRxState n} {acc : List UInt8} (inFrame : InFrame s acc)
    (packet : List UInt8) (fits : acc.length + packet.length ≤ n) :
    ∃ t, Reads s (packet.flatMap escaped) [] t ∧ InFrame t (acc ++ packet) := by
  induction packet generalizing s acc with
  | nil => exact ⟨s, .nil s, by rwa [List.append_nil]⟩
  | cons c packet ih =>
      rw [List.length_cons] at fits
      rcases reads_escaped inFrame (by omega) c with ⟨r, head, started⟩
      rcases ih started (by rw [List.length_append, List.length_singleton]; omega) with
        ⟨t, rest, finished⟩
      refine ⟨t, head.append rest, ?_⟩
      rwa [List.append_assoc] at finished

/-- The END that opens a frame. -/
theorem reads_open {s : SlipRxState n} (idle : Idle s) :
    ∃ t, Reads s [slipFrameEnd] [] t ∧ InFrame t [] := by
  refine ⟨{ s with frameStarted := true }, ?_, rfl, idle.escape, ?_⟩
  · exact .inProgress (slipRx_end_of_empty idle.escape idle.length)
  · exact SlipRxState.frame_eq_nil.mpr idle.length

/-- The END that closes a frame delivers what has arrived, if anything has. -/
theorem reads_close {s : SlipRxState n} {acc : List UInt8} (escape : s.escape = false)
    (frame : s.frame = acc) :
    ∃ t, Reads s [slipFrameEnd] ([acc].filter (· ≠ [])) t ∧ Idle t := by
  by_cases empty : acc = []
  · have length : s.length = 0 := SlipRxState.frame_eq_nil.mp (frame.trans empty)
    refine ⟨{ s with frameStarted := true }, ?_, escape, length⟩
    rw [List.filter_cons_of_neg (by simp [empty]), List.filter_nil]
    exact .inProgress (slipRx_end_of_empty escape length)
  · have length : 0 < s.length := by
      apply Nat.pos_of_ne_zero
      intro zero
      exact empty (frame.symm.trans (SlipRxState.frame_eq_nil.mpr zero))
    refine ⟨s.reinit, ?_, rfl, rfl⟩
    rw [List.filter_cons_of_pos (by simp [empty]), List.filter_nil, ← frame]
    exact .complete (slipRx_end_of_pos escape length)

/-- A whole frame, between two frames. -/
theorem reads_slipFrame {s : SlipRxState n} (idle : Idle s) {packet : List UInt8}
    (fits : packet.length ≤ n) :
    ∃ t, Reads s (slipFrame packet) ([packet].filter (· ≠ [])) t ∧ Idle t := by
  rcases reads_open idle with ⟨opened, first, started⟩
  rcases reads_packet started packet (by simpa using fits) with ⟨full, body, finished⟩
  rcases reads_close finished.escape finished.frame with ⟨t, last, idle⟩
  rw [slipFrame_eq]
  exact ⟨t, first.append (body.append last), idle⟩

/-! ## A stream of frames -/

theorem reads_stream {s : SlipRxState n} (idle : Idle s) {packets : List (List UInt8)}
    (fit : ∀ packet ∈ packets, packet.length ≤ n) :
    ∃ t, Reads s (packets.flatMap slipFrame) (packets.filter (· ≠ [])) t ∧ Idle t := by
  induction packets generalizing s with
  | nil => exact ⟨s, .nil s, idle⟩
  | cons packet packets ih =>
      obtain ⟨fits, fit⟩ := List.forall_mem_cons.mp fit
      rcases reads_slipFrame idle fits with ⟨r, head, between⟩
      rcases ih between fit with ⟨t, rest, idle⟩
      refine ⟨t, ?_, idle⟩
      have whole := head.append rest
      rwa [← List.filter_append] at whole

/-- The frames of the packets, one after the other on the wire. -/
def slipStream (packets : List (List UInt8)) : List UInt8 :=
  packets.foldl (fun sent packet => (slipTx wire sent packet).1) []

theorem slipStream_eq (packets : List (List UInt8)) :
    slipStream packets = packets.flatMap slipFrame := by
  have sending (sent : List UInt8) :
      packets.foldl (fun sent packet => (slipTx wire sent packet).1) sent =
        sent ++ packets.flatMap slipFrame := by
    induction packets generalizing sent with
    | nil => simp
    | cons packet packets ih =>
        rw [List.foldl_cons, ih, slipTx_wire, List.flatMap_cons, slipFrame_eq, List.append_assoc]
  exact sending []

/-- **A stream of frames round-trips**: every packet that is not empty is delivered, once and in
order, and no byte causes a fault. -/
theorem receiver_roundTrip (buffer : Table UInt8 n) (packets : List (List UInt8))
    (fit : ∀ packet ∈ packets, packet.length ≤ n) :
    delivered ((receiver n).trace (.init buffer) (slipStream packets)) =
        packets.filter (· ≠ []) ∧
      Faultless ((receiver n).trace (.init buffer) (slipStream packets)) := by
  rcases reads_stream (idle_init buffer) fit with ⟨t, reads, -⟩
  rw [slipStream_eq]
  exact ⟨reads.delivered, reads.faultless⟩

/-- Packets of special bytes, an empty one between them, and one that fills the buffer. -/
theorem receiver_roundTrip_specialBytes :
    (∀ packet ∈ ([[0xc0, 0xdb], [], [1, 0xdc, 0xdd]] : List (List UInt8)), packet.length ≤ 3) ∧
      delivered ((receiver 3).trace (.init (.fill 3 0xa5))
        (slipStream [[0xc0, 0xdb], [], [1, 0xdc, 0xdd]])) = [[0xc0, 0xdb], [1, 0xdc, 0xdd]] := by
  refine ⟨by decide, ?_⟩
  exact (receiver_roundTrip (.fill 3 0xa5) [[0xc0, 0xdb], [], [1, 0xdc, 0xdd]] (by decide)).1

end HalowBridge.Slip
