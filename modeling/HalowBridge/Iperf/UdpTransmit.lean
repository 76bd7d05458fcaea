import HalowBridge.Iperf.UdpClient

/-!
# The transmit loop of a UDP client

`iperf_udp_client_task` sends datagrams until one is marked as the last one, or until 60 of them
could not be sent one after the other. A session is limited by a number of bytes or by a time, and
its rate by a number of bytes for each block of 200 ms.

The mark is set at the head of a turn, before the limit of the block is looked at and before the
datagram is sent. A turn that sets it ends the loop, whether its datagram goes out or not.
`endsWell_iff` gives the runs of a session with a limit of bytes that end as they should: the turn
that sets the mark is not held back by the limit of the block, and it sends, or fails as the 60th.
-/

namespace HalowBridge.Iperf

/-- `struct mmiperf_client_args`, as far as the loop depends on it. -/
structure UdpClientArgs where
  targetBw : UInt32
  packetSize : UInt32
  amount : Int32

/-- `struct iperf_client_state_udp`, as far as the loop depends on it. -/
structure UdpClientSession where
  args : UdpClientArgs
  blockTxAmount : UInt32
  timeStartedMs : UInt32

/-- `mmiperf_start_udp_client`: the defaults and the check of the bandwidth limit. -/
def mmiperfStartUdpClient (args : UdpClientArgs) (ipv6 : Bool) (now : UInt32) :
    Option UdpClientSession :=
  let packetSize :=
    if args.packetSize = 0 then if ipv6 then 1440 else 1460 else args.packetSize
  let amount := if args.amount = 0 then -1000 else args.amount
  let pktSize := args.targetBw * 1000 / 8
  if args.targetBw ≠ 0 ∧ packetSize > pktSize then none
  else
    some
      { args := { args with packetSize := packetSize, amount := amount }
        blockTxAmount := args.targetBw * 200 / 8
        timeStartedMs := now }

/-- `IPERF_UDP_CLIENT_MAX_CONSEC_FAILURES` -/
def maxConsecFailures : ℕ := 60

/-- The variables of the loop. -/
structure UdpTransmit where
  remainingAmount : UInt64
  final : Bool
  failureCnt : ℕ
  blockEndTime : UInt32
  blockRemainingTxAmount : UInt32
  bytesTransferred : UInt64
  txFrames : UInt32

/-- What a turn of the loop meets: the times at which it reads the clock, in the order of the
source, and whether a datagram could be sent. -/
structure Turn where
  checked : ℕ
  blockChecked : ℕ
  blockStarted : ℕ
  sendChecked : ℕ
  sent : Bool

/-- A call of `iperf_udp_client_send_packet`. -/
structure Attempt where
  txFrames : UInt32
  txAmount : UInt32
  final : Bool
  ok : Bool
  deriving DecidableEq

namespace UdpTransmit

/-- The condition of the loop. -/
def Running (s : UdpTransmit) : Prop := s.final = false ∧ s.failureCnt < maxConsecFailures

instance (s : UdpTransmit) : Decidable s.Running := inferInstanceAs (Decidable (_ ∧ _))

/-- After a datagram was sent. -/
def countSent (s : UdpTransmit) (txAmount : UInt32) : UdpTransmit :=
  { s with
    bytesTransferred := s.bytesTransferred + txAmount.toUInt64
    txFrames := s.txFrames + 1
    remainingAmount := s.remainingAmount - txAmount.toUInt64
    blockRemainingTxAmount := s.blockRemainingTxAmount - txAmount
    failureCnt := 0 }

/-- After a datagram could not be sent. -/
def countFailure (s : UdpTransmit) : UdpTransmit := { s with failureCnt := s.failureCnt + 1 }

end UdpTransmit

namespace UdpClientSession

variable (session : UdpClientSession) (s : UdpTransmit) (turn : Turn)

/-- `end_time` -/
def endTime : UInt32 :=
  if session.args.amount < 0 then session.timeStartedMs + (-session.args.amount * 10).toUInt32
  else 4294967295

/-- `bw_limit` -/
def bwLimit : Bool := session.args.targetBw != 0

/-- The variables before the first turn. -/
def start (time : ℕ) : UdpTransmit where
  remainingAmount :=
    if session.args.amount < 0 then 18446744073709551615 else session.args.amount.toInt64.toUInt64
  final := false
  failureCnt := 0
  blockEndTime := sysNow time + 200
  blockRemainingTxAmount := session.blockTxAmount
  bytesTransferred := 0
  txFrames := 0

/-- The turn is the last one. -/
def IsLast : Prop :=
  sysNow turn.checked > session.endTime ∨
    s.remainingAmount ≤ session.args.packetSize.toUInt64 ∨ s.txFrames ≥ 4294967295 - 10

instance : Decidable (session.IsLast s turn) := inferInstanceAs (Decidable (_ ∨ _ ∨ _))

/-- `tx_amount` -/
def txAmount : UInt32 := (min s.remainingAmount session.args.packetSize.toUInt64).toUInt32

/-- The variables when the turn comes to the limit of the block. -/
def enter : UdpTransmit :=
  let s := if session.IsLast s turn then { s with final := true } else s
  if session.bwLimit ∧ s.blockEndTime < sysNow turn.blockChecked then
    { s with
      blockEndTime := sysNow turn.blockStarted + 200
      blockRemainingTxAmount := s.blockRemainingTxAmount + session.blockTxAmount }
  else s

/-- The limit of the block lets the turn send. -/
def Sends : Prop :=
  session.bwLimit = false ∨
    (session.enter s turn).blockRemainingTxAmount ≥ session.txAmount s ∨
      sysNow turn.sendChecked > session.endTime

instance : Decidable (session.Sends s turn) := inferInstanceAs (Decidable (_ ∨ _ ∨ _))

/-- A turn of the loop. -/
def runTurn : UdpTransmit × Option Attempt :=
  let entered := session.enter s turn
  let attempt := Attempt.mk entered.txFrames (session.txAmount s) entered.final turn.sent
  if session.Sends s turn then
    if turn.sent then (entered.countSent (session.txAmount s), some attempt)
    else (entered.countFailure, some attempt)
  else (entered, none)

/-- The loop of `iperf_udp_client_task`. -/
def transmit : Machine UdpTransmit Turn (Option Attempt) where
  step s turn := if s.Running then session.runTurn s turn else (s, none)

end UdpClientSession

/-- The calls of a run. -/
def attempts (trace : List (Turn × Option Attempt)) : List Attempt := trace.filterMap Prod.snd

/-- How many of the last calls failed. -/
def trailingFailures (attempts : List Attempt) : ℕ :=
  (attempts.reverse.takeWhile fun attempt => !attempt.ok).length

/-- The bytes of a session that is limited by them. -/
def UdpClientSession.bytes (session : UdpClientSession) : ℕ := session.args.amount.toInt.toNat

/-- When the loop has ended, a datagram with the mark was sent, or the last 60 could not be sent. A
session without failures has then sent its bytes, in as many datagrams as they need. -/
def EndsWell (session : UdpClientSession) (attempts : List Attempt) (s : UdpTransmit) : Prop :=
  ¬ s.Running →
    ((∃ attempt ∈ attempts, attempt.final = true ∧ attempt.ok = true) ∨
        maxConsecFailures ≤ trailingFailures attempts) ∧
      ((∀ attempt ∈ attempts, attempt.ok = true) →
        attempts.length =
            (session.bytes + session.args.packetSize.toNat - 1) / session.args.packetSize.toNat ∧
          s.bytesTransferred.toNat = session.bytes)

/-- The turn that sets the mark sends its datagram, or fails as the 60th. -/
def KeepsLast (session : UdpClientSession) (s : UdpTransmit) (turn : Turn) : Prop :=
  s.Running → session.IsLast s turn →
    session.Sends s turn ∧ (turn.sent = true ∨ s.failureCnt + 1 = maxConsecFailures)

instance (session : UdpClientSession) (s : UdpTransmit) (turn : Turn) :
    Decidable (KeepsLast session s turn) := inferInstanceAs (Decidable (_ → _ → _))

/-! ## Failures at the end -/

theorem trailingFailures_sent (attempts : List Attempt) {attempt : Attempt}
    (ok : attempt.ok = true) : trailingFailures (attempts ++ [attempt]) = 0 := by
  rw [trailingFailures, List.reverse_concat, List.takeWhile_cons_of_neg (by simp [ok])]
  rfl

theorem trailingFailures_failed (attempts : List Attempt) {attempt : Attempt}
    (ok : attempt.ok = false) :
    trailingFailures (attempts ++ [attempt]) = trailingFailures attempts + 1 := by
  rw [trailingFailures, List.reverse_concat, List.takeWhile_cons_of_pos (by simp [ok]),
    List.length_cons]
  rfl

/-! ## A turn -/

section

variable {session : UdpClientSession} {s : UdpTransmit} {turn : Turn}

theorem enter_mark (session : UdpClientSession) (s : UdpTransmit) (turn : Turn) :
    (session.enter s turn).final = (decide (session.IsLast s turn) || s.final) := by
  unfold UdpClientSession.enter
  by_cases last : session.IsLast s turn
  · rw [if_pos last, decide_eq_true last]
    dsimp only
    split <;> rfl
  · rw [if_neg last, decide_eq_false last]
    dsimp only
    split <;> rfl

/-- What does not change before a turn sends. -/
theorem enter_eq (session : UdpClientSession) (s : UdpTransmit) (turn : Turn) :
    (session.enter s turn).remainingAmount = s.remainingAmount ∧
      (session.enter s turn).bytesTransferred = s.bytesTransferred ∧
      (session.enter s turn).txFrames = s.txFrames ∧
      (session.enter s turn).failureCnt = s.failureCnt := by
  unfold UdpClientSession.enter
  dsimp only
  split_ifs <;> exact ⟨rfl, rfl, rfl, rfl⟩

theorem toNat_txAmount (session : UdpClientSession) (s : UdpTransmit) :
    (session.txAmount s).toNat = min s.remainingAmount.toNat session.args.packetSize.toNat := by
  have small := session.args.packetSize.toNat_lt
  have size := UInt32.toNat_toUInt64 session.args.packetSize
  have least : (min s.remainingAmount session.args.packetSize.toUInt64).toNat =
      min s.remainingAmount.toNat session.args.packetSize.toNat := by
    show (if s.remainingAmount ≤ session.args.packetSize.toUInt64 then s.remainingAmount
      else session.args.packetSize.toUInt64).toNat = _
    split
    · next le =>
        rw [UInt64.le_iff_toNat_le, size] at le
        exact (Nat.min_eq_left le).symm
    · next gt =>
        rw [UInt64.le_iff_toNat_le, size] at gt
        rw [size, Nat.min_eq_right (by omega)]
  rw [UdpClientSession.txAmount, UInt64.toNat_toUInt32, least]
  omega

end

/-! ## Sessions with a limit of bytes -/

/-- A session that is limited by bytes. -/
structure ByteLimited (session : UdpClientSession) : Prop where
  amount : 0 < session.args.amount
  packetSize : 0 < session.args.packetSize.toNat

/-- The number of datagrams that were sent. -/
def sentCount (attempts : List Attempt) : ℕ := attempts.countP Attempt.ok

/-- A loop that goes on has sent whole packets, none of them with the mark, and has more to send. -/
structure GoesOn (session : UdpClientSession) (attempts : List Attempt) (s : UdpTransmit) :
    Prop where
  final : s.final = false
  few : s.failureCnt < maxConsecFailures
  failures : s.failureCnt = trailingFailures attempts
  plain : ∀ attempt ∈ attempts, attempt.final = false
  frames : s.txFrames.toNat = sentCount attempts
  bytes : s.bytesTransferred.toNat = sentCount attempts * session.args.packetSize.toNat
  left : s.bytesTransferred.toNat + s.remainingAmount.toNat = session.bytes
  more : 0 < s.remainingAmount.toNat

section

variable {session : UdpClientSession} {s : UdpTransmit} {attempts : List Attempt}

theorem ByteLimited.bytes (limited : ByteLimited session) :
    session.args.amount.toInt64.toUInt64.toNat = session.bytes ∧ 0 < session.bytes ∧
      session.bytes < 2147483648 := by
  have positive : 0 < session.args.amount.toInt := Int32.lt_iff_toInt_lt.mp limited.amount
  have small : session.args.amount.toInt < 2147483648 := session.args.amount.toInt_lt
  have word := toInt_eq_bmod session.args.amount.toInt64
  have lt := session.args.amount.toInt64.toUInt64.toNat_lt
  have bytes : session.bytes = session.args.amount.toInt.toNat := rfl
  rw [Int32.toInt_toInt64, Int.bmod_def] at word
  split at word <;> omega

theorem ByteLimited.not_time (limited : ByteLimited session) : ¬ session.args.amount < 0 := by
  have positive : 0 < session.args.amount.toInt := Int32.lt_iff_toInt_lt.mp limited.amount
  rw [Int32.lt_iff_toInt_lt]
  show ¬ session.args.amount.toInt < 0
  omega

theorem goesOn_start (limited : ByteLimited session) (time : ℕ) :
    GoesOn session [] (session.start time) := by
  obtain ⟨amount, positive, -⟩ := limited.bytes
  have remaining : (session.start time).remainingAmount.toNat = session.bytes := by
    rw [UdpClientSession.start]
    dsimp only
    rw [if_neg limited.not_time, amount]
  refine ⟨rfl, Nat.succ_pos 59, rfl, nofun, rfl, (Nat.zero_mul _).symm, ?_, ?_⟩
  · exact (Nat.zero_add _).trans remaining
  · rw [remaining]
    exact positive

theorem GoesOn.isLast_iff (goesOn : GoesOn session attempts s) (limited : ByteLimited session)
    (turn : Turn) :
    session.IsLast s turn ↔ s.remainingAmount.toNat ≤ session.args.packetSize.toNat := by
  obtain ⟨-, -, small⟩ := limited.bytes
  have size := UInt32.toNat_toUInt64 session.args.packetSize
  have never : ¬ sysNow turn.checked > session.endTime := by
    rw [UdpClientSession.endTime, if_neg limited.not_time, gt_iff_lt, UInt32.lt_iff_toNat_lt]
    have := (sysNow turn.checked).toNat_lt
    show ¬ 4294967295 < (sysNow turn.checked).toNat
    omega
  have few : ¬ s.txFrames ≥ 4294967295 - 10 := by
    have frames := goesOn.frames
    have bytes := goesOn.bytes
    have left := goesOn.left
    have packets : sentCount attempts ≤
        sentCount attempts * session.args.packetSize.toNat :=
      Nat.le_mul_of_pos_right _ limited.packetSize
    rw [ge_iff_le, UInt32.le_iff_toNat_le]
    show ¬ 4294967285 ≤ s.txFrames.toNat
    omega
  rw [UdpClientSession.IsLast, or_iff_right never, or_iff_left few, UInt64.le_iff_toNat_le, size]

theorem GoesOn.enter (goesOn : GoesOn session attempts s) {turn : Turn}
    (last : ¬ session.IsLast s turn) : GoesOn session attempts (session.enter s turn) := by
  obtain ⟨remaining, bytes, frames, failures⟩ := enter_eq session s turn
  refine ⟨?_, ?_, ?_, goesOn.plain, ?_, ?_, ?_, ?_⟩
  · rw [enter_mark, decide_eq_false last, goesOn.final]
    rfl
  · rw [failures]
    exact goesOn.few
  · rw [failures]
    exact goesOn.failures
  · rw [frames]
    exact goesOn.frames
  · rw [bytes]
    exact goesOn.bytes
  · rw [bytes, remaining]
    exact goesOn.left
  · rw [remaining]
    exact goesOn.more

/-- A packet that is not the last one. -/
theorem GoesOn.countSent (goesOn : GoesOn session attempts s) (limited : ByteLimited session)
    {attempt : Attempt} (ok : attempt.ok = true) (plain : attempt.final = false)
    {txAmount : UInt32} (whole : txAmount.toNat = session.args.packetSize.toNat)
    (inside : txAmount.toNat < s.remainingAmount.toNat) :
    GoesOn session (attempts ++ [attempt]) (s.countSent txAmount) := by
  obtain ⟨-, -, small⟩ := limited.bytes
  have left := goesOn.left
  have count : sentCount (attempts ++ [attempt]) = sentCount attempts + 1 := by
    rw [sentCount, List.countP_append, List.countP_singleton, if_pos ok]
    rfl
  have packets : sentCount attempts ≤ sentCount attempts * session.args.packetSize.toNat :=
    Nat.le_mul_of_pos_right _ limited.packetSize
  have bytes : (s.bytesTransferred + txAmount.toUInt64).toNat =
      s.bytesTransferred.toNat + txAmount.toNat := by
    rw [UInt64.toNat_add, UInt32.toNat_toUInt64]
    omega
  have remaining : (s.remainingAmount - txAmount.toUInt64).toNat =
      s.remainingAmount.toNat - txAmount.toNat := by
    have lt := s.remainingAmount.toNat_lt
    rw [UInt64.toNat_sub, UInt32.toNat_toUInt64]
    omega
  refine ⟨goesOn.final, Nat.succ_pos 59, (trailingFailures_sent attempts ok).symm, ?_, ?_, ?_, ?_,
    ?_⟩
  · intro other member
    rcases List.mem_append.mp member with old | new
    · exact goesOn.plain other old
    · rw [List.mem_singleton.mp new]
      exact plain
  · have frames := goesOn.frames
    have sent := goesOn.bytes
    have one : (1 : UInt32).toNat = 1 := rfl
    show (s.txFrames + 1).toNat = _
    rw [count, UInt32.toNat_add, one]
    omega
  · show (s.bytesTransferred + txAmount.toUInt64).toNat = _
    rw [bytes, goesOn.bytes, count, whole, Nat.succ_mul]
  · show (s.bytesTransferred + txAmount.toUInt64).toNat +
      (s.remainingAmount - txAmount.toUInt64).toNat = _
    omega
  · show 0 < (s.remainingAmount - txAmount.toUInt64).toNat
    omega

theorem GoesOn.countFailure (goesOn : GoesOn session attempts s) {attempt : Attempt}
    (failed : attempt.ok = false) (plain : attempt.final = false)
    (few : s.failureCnt + 1 < maxConsecFailures) :
    GoesOn session (attempts ++ [attempt]) s.countFailure := by
  have count : sentCount (attempts ++ [attempt]) = sentCount attempts := by
    rw [sentCount, List.countP_append, List.countP_singleton, failed]
    rfl
  refine ⟨goesOn.final, few, ?_, ?_, ?_, ?_, goesOn.left, goesOn.more⟩
  · rw [trailingFailures_failed attempts failed, ← goesOn.failures]
    rfl
  · intro other member
    rcases List.mem_append.mp member with old | new
    · exact goesOn.plain other old
    · rw [List.mem_singleton.mp new]
      exact plain
  · rw [count]
    exact goesOn.frames
  · rw [count]
    exact goesOn.bytes

/-! ## The end of the loop -/

theorem trailingFailures_eq_zero (sent : ∀ attempt ∈ attempts, attempt.ok = true) :
    trailingFailures attempts = 0 := by
  induction attempts using List.reverseRecOn with
  | nil => rfl
  | append_singleton attempts attempt =>
      exact trailingFailures_sent attempts (sent attempt List.mem_concat_self)

theorem endsWell_failures (failures : maxConsecFailures ≤ trailingFailures attempts) :
    EndsWell session attempts s := by
  intro _
  refine ⟨.inr failures, fun sent => ?_⟩
  rw [trailingFailures_eq_zero sent] at failures
  cases failures

theorem ceil_eq {n p r b : ℕ} (sum : n * p + r = b) (positive : 0 < r) (le : r ≤ p) :
    (b + p - 1) / p = n + 1 := by
  apply Nat.div_eq_of_lt_le
  · rw [Nat.succ_mul]
    omega
  · rw [Nat.succ_mul, Nat.succ_mul]
    omega

/-- The last packet has what is left. -/
theorem GoesOn.endsWell_sent (goesOn : GoesOn session attempts s) (limited : ByteLimited session)
    {attempt : Attempt} (ok : attempt.ok = true) (final : attempt.final = true)
    {txAmount : UInt32} (whole : txAmount.toNat = s.remainingAmount.toNat)
    (last : s.remainingAmount.toNat ≤ session.args.packetSize.toNat) {after : UdpTransmit}
    (bytes : after.bytesTransferred = s.bytesTransferred + txAmount.toUInt64) :
    EndsWell session (attempts ++ [attempt]) after := by
  obtain ⟨-, -, small⟩ := limited.bytes
  have left := goesOn.left
  intro _
  refine ⟨.inl ⟨attempt, List.mem_concat_self, final, ok⟩, fun sent => ⟨?_, ?_⟩⟩
  · have all : sentCount attempts = attempts.length :=
      List.countP_eq_length.mpr fun other member =>
        sent other (List.mem_append_left [attempt] member)
    have sum := goesOn.left
    rw [goesOn.bytes, all] at sum
    rw [List.length_append, List.length_singleton, ceil_eq sum goesOn.more last]
  · rw [bytes, UInt64.toNat_add, UInt32.toNat_toUInt64]
    omega

/-- A loop that is ended without its last packet. -/
theorem not_endsWell (ended : ¬ s.Running)
    (plain : ∀ attempt ∈ attempts, attempt.final = true → attempt.ok = false)
    (few : trailingFailures attempts < maxConsecFailures) : ¬ EndsWell session attempts s := by
  intro well
  rcases (well ended).1 with ⟨attempt, member, final, ok⟩ | failures
  · rw [plain attempt member final] at ok
    cases ok
  · exact absurd failures (Nat.not_le.mpr few)

/-- No datagram with the mark was sent before, and a failure is none. -/
theorem GoesOn.not_sent (goesOn : GoesOn session attempts s) {last : List Attempt}
    (failed : ∀ attempt ∈ last, attempt.ok = false) :
    ∀ attempt ∈ attempts ++ last, attempt.final = true → attempt.ok = false := by
  intro attempt member final
  rcases List.mem_append.mp member with old | new
  · rw [goesOn.plain attempt old] at final
    cases final
  · exact failed attempt new

/-- A last datagram that is not sent ends the loop well if it is the 60th in a row. -/
theorem GoesOn.endsWell_failed_iff (goesOn : GoesOn session attempts s) {attempt : Attempt}
    (failed : attempt.ok = false) {after : UdpTransmit} (ended : ¬ after.Running) :
    EndsWell session (attempts ++ [attempt]) after ↔ s.failureCnt + 1 = maxConsecFailures := by
  have few := goesOn.few
  have trailing : trailingFailures (attempts ++ [attempt]) = s.failureCnt + 1 := by
    rw [trailingFailures_failed attempts failed, goesOn.failures]
  constructor
  · intro well
    by_contra other
    refine not_endsWell ended (goesOn.not_sent fun other member => ?_) ?_ well
    · rw [List.mem_singleton.mp member]
      exact failed
    · rw [trailing]
      omega
  · intro full
    apply endsWell_failures
    rw [trailing, full]

/-- What the last turn leaves. -/
theorem GoesOn.last_turn (goesOn : GoesOn session attempts s) (limited : ByteLimited session)
    {turn : Turn} (last : session.IsLast s turn) :
    ¬ (session.runTurn s turn).1.Running ∧
      (EndsWell session (attempts ++ (session.runTurn s turn).2.toList)
          (session.runTurn s turn).1 ↔ KeepsLast session s turn) := by
  have running : s.Running := ⟨goesOn.final, goesOn.few⟩
  have keeps_iff : KeepsLast session s turn ↔
      session.Sends s turn ∧ (turn.sent = true ∨ s.failureCnt + 1 = maxConsecFailures) :=
    ⟨fun keeps => keeps running last, fun keeps _ _ => keeps⟩
  have marked : (session.enter s turn).final = true := by
    rw [enter_mark, decide_eq_true last]
    rfl
  have ended {after : UdpTransmit} (final : after.final = true) : ¬ after.Running := by
    rintro ⟨unmarked, -⟩
    rw [final] at unmarked
    cases unmarked
  obtain ⟨remaining, bytes, -, failures⟩ := enter_eq session s turn
  have le := (goesOn.isLast_iff limited turn).mp last
  rw [keeps_iff, UdpClientSession.runTurn]
  by_cases sends : session.Sends s turn
  · rw [if_pos sends]
    cases sent : turn.sent with
    | true =>
        refine ⟨ended marked, iff_of_true ?_ ⟨sends, .inl rfl⟩⟩
        apply goesOn.endsWell_sent limited rfl marked _ le
        · show (session.enter s turn).bytesTransferred + _ = _
          rw [bytes]
        · rw [toNat_txAmount, Nat.min_eq_left le]
    | false =>
        rw [if_neg Bool.false_ne_true, and_iff_right sends, or_iff_right Bool.false_ne_true]
        have stopped : ¬ (session.enter s turn).countFailure.Running := ended marked
        exact ⟨stopped, goesOn.endsWell_failed_iff rfl stopped⟩
  · rw [if_neg sends]
    refine ⟨ended marked, iff_of_false ?_ fun keeps => sends keeps.1⟩
    have few : trailingFailures (attempts ++ []) < maxConsecFailures := by
      rw [List.append_nil, ← goesOn.failures]
      exact goesOn.few
    exact not_endsWell (ended marked) (goesOn.not_sent nofun) few

/-- What any other turn leaves. -/
theorem GoesOn.next_turn (goesOn : GoesOn session attempts s) (limited : ByteLimited session)
    {turn : Turn} (next : ¬ session.IsLast s turn) :
    GoesOn session (attempts ++ (session.runTurn s turn).2.toList) (session.runTurn s turn).1 ∨
      ¬ (session.runTurn s turn).1.Running ∧
        EndsWell session (attempts ++ (session.runTurn s turn).2.toList)
          (session.runTurn s turn).1 := by
  have entered := goesOn.enter next
  obtain ⟨remaining, -, -, failures⟩ := enter_eq session s turn
  have gt := mt (goesOn.isLast_iff limited turn).mpr next
  have whole : (session.txAmount s).toNat = session.args.packetSize.toNat := by
    rw [toNat_txAmount, Nat.min_eq_right (by omega)]
  rw [UdpClientSession.runTurn]
  by_cases sends : session.Sends s turn
  · rw [if_pos sends]
    cases sent : turn.sent with
    | true =>
        left
        apply entered.countSent limited rfl entered.final whole
        rw [remaining]
        omega
    | false =>
        rw [if_neg Bool.false_ne_true]
        by_cases few : (session.enter s turn).failureCnt + 1 < maxConsecFailures
        · exact .inl (entered.countFailure rfl entered.final few)
        · right
          refine ⟨fun running => few running.2, endsWell_failures ?_⟩
          rw [Option.toList_some, trailingFailures_failed attempts rfl, ← entered.failures]
          omega
  · rw [if_neg sends, Option.toList_none, List.append_nil]
    exact .inl entered

end

/-! ## Runs -/

theorem attempts_concat (trace : List (Turn × Option Attempt)) (turn : Turn)
    (output : Option Attempt) :
    attempts (trace ++ [(turn, output)]) = attempts trace ++ output.toList := by
  rw [attempts, List.filterMap_append]
  cases output <;> rfl

/-- A session that was started with an amount of bytes is limited by them. -/
theorem byteLimited_of_started {args : UdpClientArgs} {ipv6 : Bool} {now : UInt32}
    {session : UdpClientSession} (started : mmiperfStartUdpClient args ipv6 now = some session)
    (amount : 0 < args.amount) : ByteLimited session := by
  have nonzero : args.amount ≠ 0 := by
    rintro zero
    rw [zero] at amount
    exact absurd amount (by decide)
  have default_pos : 0 < (if ipv6 then 1440 else 1460 : UInt32).toNat := by
    cases ipv6 <;> decide
  rw [mmiperfStartUdpClient, Option.ite_none_left_eq_some] at started
  obtain rfl := Option.some.inj started.2
  refine ⟨?_, ?_⟩
  · dsimp only
    rw [if_neg nonzero]
    exact amount
  · dsimp only
    split
    · exact default_pos
    · next given => exact Nat.pos_of_ne_zero fun zero => given (UInt32.toNat_inj.mp zero)

section

variable {session : UdpClientSession}

/-- A run has not ended yet, or it has ended, well or not. -/
theorem goesOn_or_over (limited : ByteLimited session) (time : ℕ) (turns : List Turn) :
    GoesOn session (attempts (session.transmit.trace (session.start time) turns))
        (session.transmit.exec (session.start time) turns) ∧
        session.transmit.Guarded (fun _ => KeepsLast session) (session.start time) turns ∨
      ¬ (session.transmit.exec (session.start time) turns).Running ∧
        (EndsWell session (attempts (session.transmit.trace (session.start time) turns))
            (session.transmit.exec (session.start time) turns) ↔
          session.transmit.Guarded (fun _ => KeepsLast session) (session.start time) turns) := by
  induction turns using List.reverseRecOn with
  | nil => exact .inl ⟨goesOn_start limited time, session.transmit.guarded_nil⟩
  | append_singleton turns turn ih =>
      rw [Machine.trace_concat, Machine.exec_concat, attempts_concat, Machine.guarded_concat_iff]
      rcases ih with ⟨goesOn, kept⟩ | ⟨ended, well_iff⟩
      · have running : (session.transmit.exec (session.start time) turns).Running :=
          ⟨goesOn.final, goesOn.few⟩
        rw [and_iff_right kept, show session.transmit.step _ turn = _ from if_pos running]
        by_cases last : session.IsLast (session.transmit.exec (session.start time) turns) turn
        · exact .inr (goesOn.last_turn limited last)
        · have kept : KeepsLast session (session.transmit.exec (session.start time) turns) turn :=
            fun _ other => (last other).elim
          rcases goesOn.next_turn limited last with next | ⟨ended, well⟩
          · exact .inl ⟨next, kept⟩
          · exact .inr ⟨ended, iff_of_true well kept⟩
      · have kept : KeepsLast session (session.transmit.exec (session.start time) turns) turn :=
          fun running => (ended running).elim
        rw [and_iff_left kept]
        right
        rw [show session.transmit.step _ turn = (_, none) from if_neg ended, Option.toList_none,
          List.append_nil]
        exact ⟨ended, well_iff⟩

/-- **When a session with an amount of bytes ends well**: if and only if the turn that sets the mark
is not held back by the limit of the block, and its datagram is sent or fails as the 60th. -/
theorem endsWell_iff {args : UdpClientArgs} {ipv6 : Bool} {now : UInt32}
    (started : mmiperfStartUdpClient args ipv6 now = some session) (amount : 0 < args.amount)
    (time : ℕ) (turns : List Turn) :
    EndsWell session (attempts (session.transmit.trace (session.start time) turns))
        (session.transmit.exec (session.start time) turns) ↔
      session.transmit.Guarded (fun _ => KeepsLast session) (session.start time) turns := by
  rcases goesOn_or_over (byteLimited_of_started started amount) time turns with
    ⟨goesOn, kept⟩ | ⟨-, well_iff⟩
  · exact iff_of_true (fun ended => (ended ⟨goesOn.final, goesOn.few⟩).elim) kept
  · exact well_iff

end

/-- A turn in which nothing takes any time. -/
def turnAt (time : ℕ) (sent : Bool) : Turn := ⟨time, time, time, time, sent⟩

/-- 3000 bytes in packets of the default size, and the second is sent again. -/
theorem endsWell_iff_retry :
    EndsWell ⟨⟨0, 1460, 3000⟩, 0, 5000⟩
      (attempts ((UdpClientSession.transmit ⟨⟨0, 1460, 3000⟩, 0, 5000⟩).trace
        (UdpClientSession.start ⟨⟨0, 1460, 3000⟩, 0, 5000⟩ 5000)
        [turnAt 5000 true, turnAt 5001 false, turnAt 5011 true, turnAt 5012 true]))
      ((UdpClientSession.transmit ⟨⟨0, 1460, 3000⟩, 0, 5000⟩).exec
        (UdpClientSession.start ⟨⟨0, 1460, 3000⟩, 0, 5000⟩ 5000)
        [turnAt 5000 true, turnAt 5001 false, turnAt 5011 true, turnAt 5012 true]) := by
  have started : mmiperfStartUdpClient ⟨0, 0, 3000⟩ false 5000 =
      some ⟨⟨0, 1460, 3000⟩, 0, 5000⟩ := rfl
  exact (endsWell_iff started (by decide) 5000 _).mpr (by decide)

/-- **One packet at 12 kbit/s**: a block allows 300 bytes, so that the only turn of the session
marks the packet of 1460 bytes as the last one and does not send it. -/
theorem not_endsWell_slow : ¬ ∀ (args : UdpClientArgs) (ipv6 : Bool) (now : UInt32)
    (session : UdpClientSession), mmiperfStartUdpClient args ipv6 now = some session →
      0 < args.amount → ∀ (time : ℕ) (turns : List Turn),
        EndsWell session (attempts (session.transmit.trace (session.start time) turns))
          (session.transmit.exec (session.start time) turns) := by
  intro always
  have well := always ⟨12, 1460, 1460⟩ false 5000 ⟨⟨12, 1460, 1460⟩, 300, 5000⟩ rfl (by decide) 5000
    [turnAt 5000 true]
  rcases (well (by decide)).1 with ⟨attempt, sent, -⟩ | failures
  · cases sent
  · exact absurd failures (by decide)

end HalowBridge.Iperf
