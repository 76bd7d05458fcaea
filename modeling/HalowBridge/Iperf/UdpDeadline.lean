import HalowBridge.Iperf.UdpTransmit

/-!
# The deadline of a UDP client

The clock counts milliseconds in 32 bits. `iperf_udp_client_task` adds the duration of a session to
the time it was started at, and compares every reading of the clock with this sum. The TCP client
subtracts the time it was started at from the reading, which is right whatever the clock does.

`marksInTime_iff` says when the comparison is right: while the reading and the end of the session
are in the same round of the clock, and after the end as long as the clock has wrapped once for
every full round since. A session that is started less than its duration before the clock wraps
ends with its first datagram.
-/

namespace HalowBridge.Iperf

/-- One round of the clock. -/
def clockRound : ℕ := 4294967296

/-- A turn with few frames sent marks its datagram as the last one after the end, and not before. -/
def MarksInTime (session : UdpClientSession) (finish : ℕ) (s : UdpTransmit) (turn : Turn) : Prop :=
  s.Running → s.txFrames < 4294967295 - 10 →
    ((session.runTurn s turn).1.final = true ↔ finish < turn.checked)

/-- The reading is in the round of the clock that the end is in, or as many rounds behind it as have
passed since. -/
def InRound (finish : ℕ) (s : UdpTransmit) (turn : Turn) : Prop :=
  s.Running → s.txFrames < 4294967295 - 10 →
    turn.checked / clockRound = finish / clockRound + (turn.checked - finish - 1) / clockRound

instance (finish : ℕ) (s : UdpTransmit) (turn : Turn) : Decidable (InRound finish s turn) :=
  inferInstanceAs (Decidable (_ → _ → _))

/-! ## The end of the session -/

/-- The session was started at a time with a duration, both in milliseconds. -/
structure TimeLimited (session : UdpClientSession) (started duration : ℕ) : Prop where
  amount : session.args.amount < 0
  hundredths : (duration : ℤ) = -session.args.amount.toInt * 10
  short : duration < 2147483648
  started : session.timeStartedMs = sysNow started

section

variable {session : UdpClientSession} {started duration : ℕ}

/-- The duration in milliseconds, in the words of the source. -/
theorem TimeLimited.toNat_duration (limited : TimeLimited session started duration) :
    (-session.args.amount * 10).toUInt32.toNat = duration := by
  have negative : session.args.amount.toInt < 0 := Int32.lt_iff_toInt_lt.mp limited.amount
  have hundredths := limited.hundredths
  have short := limited.short
  have ten : (10 : Int32).toInt = 10 := rfl
  have product : (-session.args.amount * 10).toInt = duration := by
    rw [Int32.toInt_mul, Int32.toInt_neg, ten, Int.bmod_eq_of_le (n := -_) (by omega) (by omega),
      Int.bmod_eq_of_le (by omega) (by omega), hundredths]
  rw [Int32.toNat_toUInt32_of_le, ← Int32.toNat_toInt, product]
  · rfl
  · rw [Int32.le_iff_toInt_le, product]
    exact Int.natCast_nonneg duration

theorem TimeLimited.toNat_endTime (limited : TimeLimited session started duration) :
    session.endTime.toNat = (started + duration) % clockRound := by
  rw [UdpClientSession.endTime, if_pos limited.amount, limited.started, UInt32.toNat_add,
    limited.toNat_duration, sysNow, UInt32.toNat_ofNat']
  exact Nat.mod_add_mod started clockRound duration

/-- **When the comparison with the end time is right.** -/
theorem clock_gt_iff {started duration now : ℕ} (short : duration < 2147483648)
    (later : started ≤ now) :
    ((started + duration) % clockRound < now % clockRound ↔ started + duration < now) ↔
      now / clockRound =
        (started + duration) / clockRound + (now - (started + duration) - 1) / clockRound := by
  unfold clockRound
  omega

/-! ## What is left to send -/

/-- A loop that goes on has sent whole packets, and has more left than the number of frames
allows. -/
def Timed (session : UdpClientSession) (s : UdpTransmit) : Prop :=
  s.final = false →
    s.remainingAmount.toNat + s.txFrames.toNat * session.args.packetSize.toNat =
      18446744073709551615

variable {s : UdpTransmit}

theorem timed_start (limited : TimeLimited session started duration) (time : ℕ) :
    Timed session (session.start time) := by
  intro _
  rw [UdpClientSession.start]
  dsimp only
  rw [if_pos limited.amount]
  exact Nat.zero_mul _ ▸ rfl

/-- The number of bytes does not end the session before the number of frames does. -/
theorem Timed.many (timed : Timed session s) (unmarked : s.final = false)
    (few : s.txFrames < 4294967295 - 10) :
    session.args.packetSize.toNat < s.remainingAmount.toNat := by
  have sum := timed unmarked
  have size := session.args.packetSize.toNat_lt
  have frames : s.txFrames.toNat < 4294967285 := UInt32.lt_iff_toNat_lt.mp few
  have bytes : s.txFrames.toNat * session.args.packetSize.toNat ≤ 4294967284 * 4294967295 :=
    Nat.mul_le_mul (by omega) (by omega)
  omega

theorem Timed.isLast_iff (timed : Timed session s) (unmarked : s.final = false)
    (few : s.txFrames < 4294967295 - 10) (turn : Turn) :
    session.IsLast s turn ↔ session.endTime < sysNow turn.checked := by
  have many := timed.many unmarked few
  have size := UInt32.toNat_toUInt64 session.args.packetSize
  have bytes : ¬ s.remainingAmount ≤ session.args.packetSize.toUInt64 := by
    rw [UInt64.le_iff_toNat_le, size]
    omega
  have frames : ¬ s.txFrames ≥ 4294967295 - 10 := by
    rw [ge_iff_le, UInt32.le_iff_toNat_le]
    have := UInt32.lt_iff_toNat_lt.mp few
    omega
  rw [UdpClientSession.IsLast, or_iff_left (not_or.mpr ⟨bytes, frames⟩)]

theorem runTurn_mark (session : UdpClientSession) (s : UdpTransmit) (turn : Turn) :
    (session.runTurn s turn).1.final = (session.enter s turn).final := by
  unfold UdpClientSession.runTurn
  dsimp only
  split_ifs <;> rfl

theorem Timed.turn (timed : Timed session s) (unmarked : s.final = false) (turn : Turn) :
    Timed session (session.runTurn s turn).1 := by
  intro goesOn
  rw [runTurn_mark, enter_mark, Bool.or_eq_false_iff, decide_eq_false_iff_not] at goesOn
  obtain ⟨next, -⟩ := goesOn
  obtain ⟨remaining, -, frames, -⟩ := enter_eq session s turn
  have few : s.txFrames < 4294967295 - 10 := by
    by_contra many
    exact next (.inr (.inr (UInt32.not_lt.mp many)))
  have many := timed.many unmarked few
  have sum := timed unmarked
  have whole : (session.txAmount s).toNat = session.args.packetSize.toNat := by
    rw [toNat_txAmount, Nat.min_eq_right many.le]
  unfold UdpClientSession.runTurn
  dsimp only
  split_ifs
  · have left : (s.remainingAmount - (session.txAmount s).toUInt64).toNat =
        s.remainingAmount.toNat - session.args.packetSize.toNat := by
      have lt := s.remainingAmount.toNat_lt
      rw [UInt64.toNat_sub, UInt32.toNat_toUInt64, whole]
      omega
    have count : (s.txFrames + 1).toNat = s.txFrames.toNat + 1 := by
      have small : s.txFrames.toNat < 4294967285 := UInt32.lt_iff_toNat_lt.mp few
      have one : (1 : UInt32).toNat = 1 := rfl
      rw [UInt32.toNat_add, one]
      omega
    show ((session.enter s turn).remainingAmount - _).toNat +
      ((session.enter s turn).txFrames + 1).toNat * _ = _
    rw [remaining, frames, left, count, Nat.succ_mul]
    omega
  · show (session.enter s turn).remainingAmount.toNat +
      (session.enter s turn).txFrames.toNat * _ = _
    rw [remaining, frames]
    exact sum
  · rw [remaining, frames]
    exact sum

/-! ## Runs -/

theorem timed_exec (limited : TimeLimited session started duration) (time : ℕ)
    (turns : List Turn) : Timed session (session.transmit.exec (session.start time) turns) := by
  refine session.transmit.exec_invariant (timed_start limited time) (fun s turn timed => ?_) turns
  by_cases running : s.Running
  · rw [show session.transmit.step s turn = _ from if_pos running]
    exact timed.turn running.1 turn
  · rw [show session.transmit.step s turn = _ from if_neg running]
    exact timed

theorem marksInTime_turn_iff (limited : TimeLimited session started duration)
    (timed : Timed session s) {turn : Turn} (later : started ≤ turn.checked) :
    MarksInTime session (started + duration) s turn ↔ InRound (started + duration) s turn := by
  refine forall₂_congr fun running few => ?_
  rw [runTurn_mark, enter_mark, running.1, Bool.or_false, decide_eq_true_iff,
    timed.isLast_iff running.1 few, UInt32.lt_iff_toNat_lt, limited.toNat_endTime,
    ← clock_gt_iff limited.short later, sysNow, UInt32.toNat_ofNat']
  rfl

/-- **When a time-limited session marks its last datagram in time**: as long as the clock reads the
round that the end is in, or as many rounds behind it as have passed since. -/
theorem marksInTime_iff (limited : TimeLimited session started duration) (time : ℕ)
    {turns : List Turn} (later : ∀ turn ∈ turns, started ≤ turn.checked) :
    session.transmit.Guarded (fun _ => MarksInTime session (started + duration))
        (session.start time) turns ↔
      session.transmit.Guarded (fun _ => InRound (started + duration)) (session.start time) turns :=
  forall₂_congr fun before turn => imp_congr_right fun here =>
    marksInTime_turn_iff limited (timed_exec limited time before)
      (later turn (here.subset (List.mem_append_right before (List.mem_singleton_self turn))))

end

/-- A session of ten seconds. -/
def tenSeconds (started : ℕ) : UdpClientSession := ⟨⟨0, 1460, -1000⟩, 0, sysNow started⟩

theorem timeLimited_tenSeconds (started : ℕ) : TimeLimited (tenSeconds started) started 10000 where
  amount := show (-1000 : Int32) < 0 by decide
  hundredths := show ((10000 : ℕ) : ℤ) = -(-1000 : Int32).toInt * 10 by decide
  short := by decide
  started := rfl

/-- Ten seconds in the first round of the clock. -/
theorem marksInTime_iff_early :
    (tenSeconds 5000).transmit.Guarded (fun _ => MarksInTime (tenSeconds 5000) (5000 + 10000))
      ((tenSeconds 5000).start 5000) [turnAt 5001 true, turnAt 15000 false, turnAt 15001 true] :=
  (marksInTime_iff (timeLimited_tenSeconds 5000) 5000 (by decide)).mpr (by decide)

/-- The times of a turn. -/
def Turn.readings (turn : Turn) : List ℕ :=
  [turn.checked, turn.blockChecked, turn.blockStarted, turn.sendChecked]

/-- **A session of ten seconds, started one second before the clock wraps, ends at once.** -/
theorem not_marksInTime_wrap : ¬ ∀ (session : UdpClientSession) (started duration time : ℕ)
    (turns : List Turn), TimeLimited session started duration →
      ((started :: time :: turns.flatMap Turn.readings).IsChain fun earlier later =>
        earlier < later ∧ later < earlier + 2147483648) →
      session.transmit.Guarded (fun _ => MarksInTime session (started + duration))
        (session.start time) turns := by
  intro always
  have marks := always (tenSeconds 4294966296) 4294966296 10000 4294966297
    [⟨4294966298, 4294966299, 4294966300, 4294966301, true⟩] (timeLimited_tenSeconds _) (by decide)
    [] _ (List.prefix_refl _) (by decide) (by decide)
  exact absurd (marks.mp (by decide)) (by decide)

end HalowBridge.Iperf
