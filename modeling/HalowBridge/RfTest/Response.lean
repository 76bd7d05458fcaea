import HalowBridge.RfTest.Command

/-!
# Responses of the RF test

`rf_test_handle_command` takes the sequence number off a command, has the rest executed and sends
what came of it: the response, or the code of an error behind an empty header, with the sequence
number and a CRC behind it. The buffer for this is allocated once, for a sequence number and the
longest response. Nothing is reserved for the CRC.

The execution is a parameter, as the code for it is not here. `answers_iff` says for which responses
the command is answered: those that leave room for the two bytes of the CRC.
-/

namespace HalowBridge.RfTest

open Mmutils Slip

/-- `enum mmwlan_status` -/
inductive MmwlanStatus where
  | success
  | error
  | invalidArgument
  | unavailable
  | channelListNotSet
  | noMem
  | timedOut
  | shutdownBlocked
  | channelInvalid
  | notFound
  | notRunning
  | notInitialized
  | vifError
  deriving DecidableEq

/-- `SEQ_NUM_LEN` -/
def seqNumLen : UInt32 := 4

/-- `RESPONSE_MAX_LEN` -/
def responseMaxLen : UInt32 := 2048

/-- `RESPONSE_HDR_LEN` -/
def responseHdrLen : UInt32 := 12

def mmEnomem : UInt8 := 12

def mmEfault : UInt8 := 14

def mmEnodev : UInt8 := 19

def mmEinval : UInt8 := 22

def mmEtimedout : UInt8 := 110

/-- `result_code` -/
def resultCode (status : MmwlanStatus) : List UInt8 :=
  let errno :=
    match status with
    | .noMem => mmEnomem
    | .unavailable => mmEnodev
    | .invalidArgument => mmEinval
    | .timedOut => mmEtimedout
    | _ => mmEfault
  [errno, 0, 0, 0]

/-- What `mmwlan_ate_execute_command` leaves of a command of `n` bytes: it may have changed the
command, and has put some bytes into the response buffer. On success `response_len` is their
number. -/
structure Execution (n : ℕ) where
  status : MmwlanStatus
  command : Table UInt8 n
  response : List UInt8
  length_le : response.length ≤ responseMaxLen.toNat

/-- Bytes of a memory that are appended to a buffer. -/
def readSource (memory : List UInt8) (src : ℕ) (len : UInt32) : Except Fault Source :=
  if src + len.toNat ≤ memory.length then
    .ok ⟨window memory src len.toNat, by
      rw [window, List.length_take]
      exact lt_of_le_of_lt (Nat.min_le_left _ _) len.toNat_lt⟩
  else .error .outOfBounds

/-- The header of a response to a command that failed. -/
def emptyHdr : Source := ⟨List.replicate responseHdrLen.toNat 0, by decide⟩

def resultSource (status : MmwlanStatus) : Source := ⟨resultCode status, by
  show 4 < 4294967296
  decide⟩

/-- The CRC behind the data. -/
def crcSource (data : List UInt8) : Source := ⟨htole16 (mmcrc16Xmodem 0 data), by
  show 2 < 4294967296
  decide⟩

/-- The two ways to a response. -/
def appendResponse {n : ℕ} (rspBuf : Mmbuf) (execution : Execution n) : Except Fault Mmbuf :=
  if execution.status = .success then do
    let (rspBuf, _) ← rspBuf.append (UInt32.ofNat execution.response.length)
    return rspBuf
  else do
    let (rspBuf, hdr) ← rspBuf.append responseHdrLen
    let buf ← writeBytes rspBuf.buf hdr emptyHdr.bytes
    ({ rspBuf with buf := buf } : Mmbuf).appendData (resultSource execution.status)

/-- `rf_test_handle_command`, with the bytes that go out over the UART. -/
def rfTestHandleCommand
    (mmwlanAteExecuteCommand : (command : List UInt8) → Execution command.length)
    (outcome : Option (ℕ → UInt8)) (cmdBuf : Mmbuf) : Except Fault (List UInt8) :=
  match cmdBuf.removeFromEnd seqNumLen with
  | (_, none) => .ok []
  | (cmdBuf, some seqNum) =>
      match mmbufAllocOnHeap 0 (seqNumLen + responseMaxLen) outcome with
      -- The allocation is not checked, and the append goes through the null pointer.
      | none => .error .outOfBounds
      | some rspBuf => do
          let command ← readBytes cmdBuf.buf cmdBuf.getDataStart cmdBuf.dataLen.toNat
          let (rspBuf, dest) ← rspBuf.append 0
          let execution := mmwlanAteExecuteCommand command
          let cmd ← writeBytes cmdBuf.buf cmdBuf.getDataStart execution.command.slots
          let rsp ← writeBytes rspBuf.buf dest execution.response
          let rspBuf ← appendResponse { rspBuf with buf := rsp } execution
          let seq ← readSource cmd seqNum seqNumLen
          let rspBuf ← rspBuf.appendData seq
          let data ← readBytes rspBuf.buf rspBuf.getDataStart rspBuf.dataLen.toNat
          let rspBuf ← rspBuf.appendData (crcSource data)
          let packet ← readBytes rspBuf.buf rspBuf.getDataStart rspBuf.dataLen.toNat
          return slipFrame packet

/-! ## What should be sent -/

/-- What came of the execution, as it is sent. -/
def Execution.answer {n : ℕ} (execution : Execution n) : List UInt8 :=
  if execution.status = .success then execution.response
  else emptyHdr.bytes ++ resultCode execution.status

/-- The CRC behind a body. -/
def withCrc (body : List UInt8) : List UInt8 := body ++ htole16 (mmcrc16Xmodem 0 body)

variable (mmwlanAteExecuteCommand : (command : List UInt8) → Execution command.length)

/-- The bytes before the sequence number of a command are executed. -/
def execution (data : List UInt8) : Execution (data.take (data.length - 4)).length :=
  mmwlanAteExecuteCommand (data.take (data.length - 4))

/-- The response and the sequence number of a command. -/
def responseBody (data : List UInt8) : List UInt8 :=
  (execution mmwlanAteExecuteCommand data).answer ++ data.drop (data.length - 4)

/-- The command is answered without a fault, and every receiver with a buffer that is long enough
gets the response, the sequence number and the CRC, as one packet. -/
def Answers (contents : ℕ → UInt8) (cmdBuf : Mmbuf) : Prop :=
  let packet := withCrc (responseBody mmwlanAteExecuteCommand cmdBuf.view.data)
  ∃ sent, rfTestHandleCommand mmwlanAteExecuteCommand (some contents) cmdBuf = .ok sent ∧
    ∀ (n : ℕ) (buffer : Table UInt8 n), packet.length ≤ n →
      delivered ((receiver n).trace (.init buffer) sent) = [packet]

/-! ## The pieces of a response -/

section

variable {n : ℕ} {rspBuf cmdBuf : Mmbuf}

theorem length_failure (status : MmwlanStatus) :
    (emptyHdr.bytes ++ resultCode status).length = 16 := rfl

theorem Execution.length_answer_le (execution : Execution n) : execution.answer.length ≤ 2048 := by
  rw [answer]
  split
  · exact execution.length_le
  · rw [length_failure]
    omega

/-- The header is appended and zeroed, as data would be. -/
theorem append_hdr {headed : Mmbuf} (appended : rspBuf.appendData emptyHdr = .ok headed)
    (code : Source) :
    (do let (rspBuf, hdr) ← rspBuf.append responseHdrLen
        let buf ← writeBytes rspBuf.buf hdr emptyHdr.bytes
        ({ rspBuf with buf := buf } : Mmbuf).appendData code) = headed.appendData code := by
  have len : responseHdrLen = emptyHdr.len := rfl
  rw [Mmbuf.appendData] at appended
  rw [len]
  cases reserved : rspBuf.append emptyHdr.len with
  | error fault =>
      rw [reserved] at appended
      cases appended
  | ok out =>
      rw [reserved] at appended
      simp only [bind, Except.bind, pure, Except.pure] at appended ⊢
      cases zeroed : writeBytes out.1.buf out.2 emptyHdr.bytes with
      | error fault =>
          rw [zeroed] at appended
          cases appended
      | ok buf =>
          rw [zeroed] at appended
          cases appended
          rfl

/-- The first piece, behind what the execution has written. -/
theorem appendResponse_eq (execution : Execution n) (valid : rspBuf.Valid)
    (room : 2048 ≤ rspBuf.view.tailroom) :
    ∃ next, appendResponse { rspBuf with
        buf := splice rspBuf.buf rspBuf.getDataEnd execution.response } execution = .ok next ∧
      next.Valid ∧
      next.view = ⟨rspBuf.view.headroom, rspBuf.view.data ++ execution.answer,
        rspBuf.view.tailroom - execution.answer.length⟩ := by
  have length : execution.response.length ≤ 2048 := execution.length_le
  by_cases status : execution.status = .success
  · let response : Source := ⟨execution.response, by omega⟩
    obtain ⟨next, appended, valid, view⟩ :=
      valid.appends response (le_trans length room)
    have written : Mmbuf.append { rspBuf with
        buf := splice rspBuf.buf rspBuf.getDataEnd execution.response }
          (UInt32.ofNat execution.response.length) = .ok (next, rspBuf.getDataEnd) :=
      Mmbuf.append_written appended
    refine ⟨next, ?_, valid, ?_⟩
    · rw [appendResponse, if_pos status, written]
      rfl
    · rw [view, Execution.answer, if_pos status]
  · obtain ⟨-, overwritten, same⟩ := valid.writes execution.response (le_trans length room)
    have hdr : emptyHdr.bytes.length = 12 := rfl
    have code : (resultSource execution.status).bytes.length = 4 := rfl
    obtain ⟨headed, first, headedValid, headedView⟩ :=
      overwritten.appends emptyHdr (by rw [same, hdr]; omega)
    obtain ⟨next, second, valid, view⟩ :=
      headedValid.appends (resultSource execution.status)
        (by rw [headedView, same, hdr, code]; dsimp only; omega)
    refine ⟨next, ?_, valid, ?_⟩
    · rw [appendResponse, if_neg status, ← second]
      exact append_hdr first _
    · rw [view, headedView, same, Execution.answer, if_neg status]
      simp only [List.append_assoc, List.length_append, Nat.sub_sub]
      rfl

/-- The execution writes over the command, and the sequence number behind it stays. -/
theorem readSource_written (valid : cmdBuf.Valid) (command : List UInt8)
    (length : command.length = cmdBuf.view.data.length) {len : UInt32}
    (inside : cmdBuf.getDataEnd + len.toNat ≤ cmdBuf.buf.length) :
    ∃ cmd seq, writeBytes cmdBuf.buf cmdBuf.getDataStart command = .ok cmd ∧
      readSource cmd cmdBuf.getDataEnd len = .ok seq ∧
      seq.bytes = window cmdBuf.buf cmdBuf.getDataEnd len.toNat := by
  rw [valid.length_data] at length
  have ending : cmdBuf.getDataStart + command.length = cmdBuf.getDataEnd := by rw [length]; rfl
  have fits : cmdBuf.getDataStart + command.length ≤ cmdBuf.buf.length := by omega
  have still : cmdBuf.getDataEnd + len.toNat ≤
      (splice cmdBuf.buf cmdBuf.getDataStart command).length := by rwa [length_splice fits]
  refine ⟨_, _, if_pos fits, if_pos still, ?_⟩
  exact window_splice_of_ge fits ending.le

/-- The second piece and the CRC. -/
theorem append_crc (valid : rspBuf.Valid) (seq : Source)
    (room : seq.bytes.length ≤ rspBuf.view.tailroom) :
    (do let rspBuf ← rspBuf.appendData seq
        let data ← readBytes rspBuf.buf rspBuf.getDataStart rspBuf.dataLen.toNat
        let rspBuf ← rspBuf.appendData (crcSource data)
        let packet ← readBytes rspBuf.buf rspBuf.getDataStart rspBuf.dataLen.toNat
        return slipFrame packet) =
      if seq.bytes.length + 2 ≤ rspBuf.view.tailroom then
        .ok (slipFrame (withCrc (rspBuf.view.data ++ seq.bytes)))
      else .error .assertion := by
  obtain ⟨next, appended, valid, view⟩ := valid.appends seq room
  have crc : (crcSource next.view.data).bytes.length = 2 := rfl
  simp only [appended, bind, Except.bind, valid.reads]
  by_cases fits : seq.bytes.length + 2 ≤ rspBuf.view.tailroom
  · obtain ⟨last, closed, valid, whole⟩ := valid.appends (crcSource next.view.data) (by
      rw [crc, view]
      dsimp only
      omega)
    rw [if_pos fits, closed]
    simp only [valid.reads, whole, view]
    rfl
  · rw [if_neg fits, valid.overflows]
    rw [crc, view]
    dsimp only
    omega

/-- What `rf_test_handle_command` does with a command that has a sequence number: the CRC is
appended if there is room for it. -/
theorem rfTestHandleCommand_eq (contents : ℕ → UInt8) (valid : cmdBuf.Valid)
    (long : 4 ≤ cmdBuf.view.data.length) :
    rfTestHandleCommand mmwlanAteExecuteCommand (some contents) cmdBuf =
      let body := responseBody mmwlanAteExecuteCommand cmdBuf.view.data
      if body.length + 2 ≤ 2052 then .ok (slipFrame (withCrc body)) else .error .assertion := by
  obtain ⟨rest, removed, restValid, command, seqInside, seqBytes⟩ :=
    valid.removes seqNumLen long
  obtain ⟨empty, allocated, emptyValid, view⟩ :=
    exists_mmbufAllocOnHeap 0 (seqNumLen + responseMaxLen) contents (by decide)
  have read := restValid.reads
  rw [command] at read
  obtain ⟨ex, executed⟩ : ∃ ex, mmwlanAteExecuteCommand
      (cmdBuf.view.data.take (cmdBuf.view.data.length - seqNumLen.toNat)) = ex := ⟨_, rfl⟩
  obtain ⟨cmd, seq, overwritten, sequence, bytes⟩ := readSource_written restValid
    ex.command.slots (by rw [ex.command.length_eq, command]) seqInside
  have tailroom : empty.view.tailroom = 2052 := by
    rw [view]
    decide
  have nothing : empty.view.data = [] := by rw [view]; rfl
  have responseLength : ex.response.length ≤ 2048 := ex.length_le
  obtain ⟨written, -, -⟩ := emptyValid.writes ex.response (by omega)
  obtain ⟨answered, first, answeredValid, answeredView⟩ :=
    appendResponse_eq ex emptyValid (by omega)
  have seqLength : seq.bytes.length = 4 := by
    rw [bytes, length_window seqInside]
    rfl
  have body : responseBody mmwlanAteExecuteCommand cmdBuf.view.data = ex.answer ++ seq.bytes := by
    rw [bytes, seqBytes, ← executed]
    rfl
  have answerLength := ex.length_answer_le
  have finish := append_crc answeredValid seq (by
    rw [answeredView, tailroom, seqLength]
    dsimp only
    omega)
  rw [rfTestHandleCommand, removed, body]
  simp only [allocated, read, Mmbuf.append_zero, bind, Except.bind] at finish ⊢
  rw [executed]
  simp only [overwritten, written, first, sequence, finish, answeredView, nothing, tailroom,
    List.nil_append, List.length_append, seqLength]
  congr 1
  apply propext
  omega

theorem length_withCrc (body : List UInt8) : (withCrc body).length = body.length + 2 :=
  List.length_append

/-- A receiver with a buffer that is long enough gets the packet with the CRC. -/
theorem delivered_withCrc (buffer : Table UInt8 n) {body : List UInt8}
    (fits : (withCrc body).length ≤ n) :
    delivered ((receiver n).trace (.init buffer) (slipFrame (withCrc body))) = [withCrc body] := by
  have nonempty : withCrc body ≠ [] := by
    apply List.ne_nil_of_length_pos
    rw [length_withCrc]
    omega
  obtain ⟨t, reads, -⟩ := reads_slipFrame (idle_init buffer) fits
  rw [reads.delivered, List.filter_cons_of_pos (by simp [nonempty]), List.filter_nil]

end

/-! ## Room for the CRC -/

/-- **A command is answered unless the response leaves no room for the CRC**: the execution failed,
or its response is at least two bytes shorter than the longest. -/
theorem answers_iff (contents : ℕ → UInt8) {cmdBuf : Mmbuf} (valid : cmdBuf.Valid)
    (long : 4 ≤ cmdBuf.view.data.length) :
    Answers mmwlanAteExecuteCommand contents cmdBuf ↔
      ((execution mmwlanAteExecuteCommand cmdBuf.view.data).status = .success →
        (execution mmwlanAteExecuteCommand cmdBuf.view.data).response.length ≤ 2046) := by
  have handled := rfTestHandleCommand_eq mmwlanAteExecuteCommand contents valid long
  have bodyLength : (responseBody mmwlanAteExecuteCommand cmdBuf.view.data).length =
      (execution mmwlanAteExecuteCommand cmdBuf.view.data).answer.length + 4 := by
    rw [responseBody, List.length_append, List.length_drop]
    omega
  have room : (responseBody mmwlanAteExecuteCommand cmdBuf.view.data).length + 2 ≤ 2052 ↔
      ((execution mmwlanAteExecuteCommand cmdBuf.view.data).status = .success →
        (execution mmwlanAteExecuteCommand cmdBuf.view.data).response.length ≤ 2046) := by
    rw [bodyLength, Execution.answer]
    by_cases status : (execution mmwlanAteExecuteCommand cmdBuf.view.data).status = .success
    · rw [if_pos status]
      simp only [status, true_imp_iff]
      omega
    · rw [if_neg status]
      exact iff_of_true (by rw [length_failure]; omega) (fun success => (status success).elim)
  rw [← room]
  constructor
  · rintro ⟨sent, ok, -⟩
    rw [handled] at ok
    by_contra full
    rw [if_neg full] at ok
    cases ok
  · intro fits
    rw [if_pos fits] at handled
    exact ⟨_, handled, fun n buffer => delivered_withCrc buffer⟩

/-- A command of two bytes with its sequence number. -/
def twoByteCommand : Mmbuf := ⟨[1, 2, 9, 0, 0, 0, 0, 0], 8, 0, 6⟩

/-- A command that is sent back as its own response. -/
def echo (command : List UInt8) : Execution command.length where
  status := .success
  command := ⟨command, rfl⟩
  response := command.take 2048
  length_le := List.length_take_le 2048 command

theorem answers_iff_echo :
    Answers echo (fun _ => 0xEE) twoByteCommand ∧
      responseBody echo twoByteCommand.view.data = [1, 2, 9, 0, 0, 0] := by
  refine ⟨?_, by decide⟩
  exact (answers_iff echo (fun _ => 0xEE) ⟨by decide, by decide, by decide⟩ (by decide)).mpr
    fun _ => by decide

/-- Every command gets the longest response that is allowed. -/
def longest (command : List UInt8) : Execution command.length where
  status := .success
  command := ⟨command, rfl⟩
  response := List.replicate 2048 7
  length_le := List.length_replicate.le

/-- **The longest response**: the append of the CRC fails its assertion. -/
theorem not_answers_longest : ¬ Answers longest (fun _ => 0xEE) twoByteCommand := by
  rintro ⟨sent, ok, -⟩
  have full : ¬ (responseBody longest twoByteCommand.view.data).length + 2 ≤ 2052 := by
    have response : (execution longest twoByteCommand.view.data).answer =
        List.replicate 2048 7 := rfl
    have seq : twoByteCommand.view.data.drop (twoByteCommand.view.data.length - 4) =
        [9, 0, 0, 0] := by decide
    rw [responseBody, response, seq, List.length_append, List.length_replicate]
    decide
  rw [rfTestHandleCommand_eq longest _ ⟨by decide, by decide, by decide⟩ (by decide)] at ok
  rw [if_neg full] at ok
  cases ok

end HalowBridge.RfTest
