import HalowBridge.Iperf.TcpClient

/-!
# The bandwidth limit of a TCP client

With FreeRTOS+TCP a client sends in a task of its own, in one loop. A limit of the bandwidth allows
it a number of bytes for each block of 200 ms. What is left of them is an unsigned number, from
which each turn of the loop takes what the socket has accepted, and which ends the loop when it is
zero. With lwIP it is a signed number, and the client goes on when the block is over.

`keepsBandwidth` says when the limit works: while the socket accepts less than what is left. If it
accepts all of it, the loop ends before the session does. If it accepts more, the number wraps and
there is no limit any more.
-/

namespace HalowBridge.Iperf

/-- With FreeRTOS+TCP what is left of a block is an unsigned number. -/
structure FreertosTcpClient extends TcpSession where
  blockRemainingTxlen : UInt32

/-- What `FreeRTOS_send` answers: it takes as much as there is room for, or nothing. -/
inductive SendAnswer where
  | accepted (room : ℕ)
  | notConnected
  | error
  deriving DecidableEq

/-- What a turn of the loop meets: the times at which it reads the clock, and an answer. -/
structure BlockTurn where
  now : ℕ
  blockNow : ℕ
  answer : SendAnswer

/-- What a turn of the loop does: the bytes that were accepted, and how the session was closed. -/
structure BlockOutput where
  sent : ℕ
  closed : Option MmiperfReportType

/-- The start of a client with FreeRTOS+TCP. `ipconfigTCP_MSS` less what an IPv6 header has more is
`mss`. -/
def startFreertosClient (settings : Table UInt8 settingsLen)
    (mss targetBw started blockStarted : UInt32) : Option FreertosTcpClient :=
  (iperfTxStartImpl settings mss targetBw started blockStarted).map fun session =>
    { session with blockRemainingTxlen := session.blockTxlen }

namespace FreertosTcpClient

/-- The budget of the next block. -/
def topUp (conn : FreertosTcpClient) (now : UInt32) : FreertosTcpClient :=
  if conn.bwLimit ∧ conn.blockEndTime < now then
    { conn with
      blockEndTime := conn.blockEndTime + 200
      blockRemainingTxlen := conn.blockRemainingTxlen + conn.blockTxlen }
  else conn

/-- The bytes that are accepted of a send. -/
def sent (conn : FreertosTcpClient) : SendAnswer → ℕ
  | .accepted room => min room conn.txlenMax.toNat
  | .notConnected | .error => 0

/-- After some bytes were accepted. -/
def count (conn : FreertosTcpClient) (ret : ℕ) : FreertosTcpClient :=
  { conn with
    bytesTransferred := conn.bytesTransferred + UInt64.ofNat ret
    blockRemainingTxlen := conn.blockRemainingTxlen - UInt32.ofNat ret }

/-- A turn of `iperf_tcp_client_send_more`. The client is gone when the loop has ended. -/
def sendTurn (conn : FreertosTcpClient) (turn : BlockTurn) :
    Option FreertosTcpClient × BlockOutput :=
  if conn.limitReached (sysNow turn.now) then (none, ⟨0, some .tcpDoneClient⟩)
  else
    let next := conn.topUp (sysNow turn.blockNow)
    if turn.answer = .notConnected then (none, ⟨0, some .tcpAbortedRemote⟩)
    else
      let after := next.count (next.sent turn.answer)
      if after.bwLimit ∧ after.blockRemainingTxlen ≤ 0 then
        (none, ⟨next.sent turn.answer, some .tcpDoneClient⟩)
      else (some after, ⟨next.sent turn.answer, none⟩)

end FreertosTcpClient

/-- The loop of `iperf_tcp_client_send_more`. -/
def freertosTcpClient : Machine (Option FreertosTcpClient) BlockTurn BlockOutput where
  step
    | some conn, turn => conn.sendTurn turn
    | none, _ => (none, ⟨0, none⟩)

/-! ## What the limits mean -/

/-- The time of a session in milliseconds. -/
def TcpSession.duration (conn : TcpSession) : ℕ := (-conn.amount).toNat * 10

/-- The session has sent its bytes. -/
def TcpSession.AmountSent (conn : TcpSession) (bytes : ℕ) : Prop :=
  ¬ conn.TimeLimited ∧ conn.amount.toNat ≤ bytes

instance (conn : TcpSession) (bytes : ℕ) : Decidable (conn.AmountSent bytes) :=
  inferInstanceAs (Decidable (_ ∧ _))

/-- The bytes that were accepted in a run. -/
def bytesSent : List (BlockTurn × BlockOutput) → ℕ
  | [] => 0
  | (_, output) :: trace => output.sent + bytesSent trace

/-- A turn that ends the loop does so at the limit of the session, or without a connection. -/
def EndsAtLimit (started : ℕ) : Option FreertosTcpClient → BlockTurn → Prop
  | none, _ => True
  | some conn, turn =>
      (conn.sendTurn turn).1 = none →
        conn.TimeLimited ∧ conn.duration ≤ turn.now - started ∨
          conn.AmountSent (conn.bytesTransferred.toNat + (conn.sendTurn turn).2.sent) ∨
            turn.answer = .notConnected

/-- After a turn the bytes that were accepted are no more than those of the blocks so far. -/
def WithinBlocks (started blockTxlen mss : ℕ) (trace : List (BlockTurn × BlockOutput))
    (s : Option FreertosTcpClient) (turn : BlockTurn) : Prop :=
  bytesSent (trace ++ [(turn, (freertosTcpClient.step s turn).2)]) ≤
    blockTxlen * (1 + (turn.blockNow - started) / 200) + mss

/-- The socket accepts less than what is left of the block, unless the bytes of the session are sent
with it. The end of the block and the time of the session are numbers of 32 bits. -/
def KeepsBudget : Option FreertosTcpClient → BlockTurn → Prop
  | none, _ => True
  | some conn, turn =>
      let next := conn.topUp (sysNow turn.blockNow)
      if conn.limitReached (sysNow turn.now) then conn.TimeLimited → conn.duration < 4294967296
      else
        turn.answer = .notConnected ∨
          (conn.blockEndTime < sysNow turn.blockNow →
              conn.blockEndTime.toNat + 200 < 4294967296) ∧
            (next.sent turn.answer < next.blockRemainingTxlen.toNat ∨
              conn.AmountSent (conn.bytesTransferred.toNat + next.sent turn.answer))

instance : (s : Option FreertosTcpClient) → (turn : BlockTurn) → Decidable (KeepsBudget s turn)
  | none, _ => inferInstanceAs (Decidable True)
  | some conn, turn =>
      if limit : conn.limitReached (sysNow turn.now) then
        decidable_of_iff (conn.TimeLimited → conn.duration < 4294967296)
          (by rw [KeepsBudget, if_pos limit])
      else
        decidable_of_iff (_ ∨ (_ → _) ∧ (_ ∨ _)) (by rw [KeepsBudget, if_neg limit])

/-! ## What is left of the blocks -/

/-- What stays the same in a session. -/
structure SameSession (session conn : TcpSession) : Prop where
  settings : conn.settings = session.settings
  mss : conn.mss = session.mss
  started : conn.timeStartedMs = session.timeStartedMs
  bwLimit : conn.bwLimit = session.bwLimit
  blockTxlen : conn.blockTxlen = session.blockTxlen

/-- The account of a client that has sent `n` bytes and has begun `k` blocks after the first one. -/
structure Budgeted (session : TcpSession) (blockStarted n k : ℕ) (conn : FreertosTcpClient) :
    Prop where
  same : SameSession session conn.toTcpSession
  blockEnd : conn.blockEndTime.toNat = blockStarted + 200 * (k + 1)
  bytes : conn.bytesTransferred.toNat = n
  budget : n + conn.blockRemainingTxlen.toNat ≤ session.blockTxlen.toNat * (k + 1) ∨
    session.AmountSent n

section

variable {session : TcpSession} {conn : FreertosTcpClient} {blockStarted n k : ℕ}

theorem toNat_txlenMax_le (conn : TcpSession) (segment : 24 ≤ conn.mss.toNat) :
    conn.txlenMax.toNat ≤ conn.mss.toNat := by
  have first_iff : conn.bytesTransferred < 24 ↔ conn.bytesTransferred.toNat < 24 :=
    UInt64.lt_iff_toNat_lt
  have second_iff : conn.bytesTransferred < 48 ↔ conn.bytesTransferred.toNat < 48 :=
    UInt64.lt_iff_toNat_lt
  have n24 : (24 : UInt64).toNat = 24 := rfl
  have n48 : (48 : UInt64).toNat = 48 := rfl
  have m24 : (24 : UInt32).toNat = 24 := rfl
  have lt := conn.bytesTransferred.toNat_lt
  have small := conn.mss.toNat_lt
  rw [TcpSession.txlenMax]
  split_ifs with first second third
  · rw [first_iff] at first
    rw [UInt64.toNat_toUInt16, UInt64.toNat_sub, n24]
    omega
  · rw [first_iff] at first
    rw [second_iff] at second
    rw [UInt64.toNat_toUInt16, UInt64.toNat_sub, n48]
    omega
  · rw [UInt32.toNat_toUInt16, UInt32.toNat_sub, m24]
    omega
  · rw [UInt32.toNat_toUInt16]
    omega

theorem sent_le (conn : FreertosTcpClient) (answer : SendAnswer) :
    conn.sent answer ≤ conn.txlenMax.toNat := by
  cases answer with
  | accepted room => exact Nat.min_le_right _ _
  | notConnected => exact Nat.zero_le _
  | error => exact Nat.zero_le _

/-- A new block begins when the one before is over, and adds its budget. -/
theorem Budgeted.topUp (budgeted : Budgeted session blockStarted n k conn)
    (limited : session.bwLimit = true) (left : n + conn.blockRemainingTxlen.toNat ≤
      session.blockTxlen.toNat * (k + 1)) {now : ℕ} (small : now < 4294967296)
    (fits : conn.blockEndTime < sysNow now → conn.blockEndTime.toNat + 200 < 4294967296) :
    ∃ k', (k' = k ∨ blockStarted + 200 * k' < now) ∧
      Budgeted session blockStarted n k' (conn.topUp (sysNow now)) ∧
        n + (conn.topUp (sysNow now)).blockRemainingTxlen.toNat ≤
          session.blockTxlen.toNat * (k' + 1) := by
  have reading : (sysNow now).toNat = now := UInt32.toNat_ofNat_of_lt' small
  have same := budgeted.same
  rw [FreertosTcpClient.topUp]
  by_cases past : conn.blockEndTime < sysNow now
  · have fits := fits past
    have blockEnd := budgeted.blockEnd
    rw [if_pos ⟨same.bwLimit.trans limited, past⟩]
    rw [UInt32.lt_iff_toNat_lt, reading, blockEnd] at past
    have budget : n + (conn.blockRemainingTxlen + conn.blockTxlen).toNat ≤
        session.blockTxlen.toNat * (k + 1 + 1) := by
      have modulo := Nat.mod_le (conn.blockRemainingTxlen.toNat + session.blockTxlen.toNat)
        (2 ^ 32)
      rw [UInt32.toNat_add, same.blockTxlen, Nat.mul_succ]
      omega
    have next : (conn.blockEndTime + 200).toNat = blockStarted + 200 * (k + 1 + 1) := by
      have n200 : (200 : UInt32).toNat = 200 := rfl
      rw [UInt32.toNat_add, n200]
      omega
    exact ⟨k + 1, .inr past, ⟨⟨same.settings, same.mss, same.started, same.bwLimit,
      same.blockTxlen⟩, next, budgeted.bytes, .inl budget⟩, budget⟩
  · rw [if_neg (fun both => past both.2)]
    exact ⟨k, .inl rfl, budgeted, left⟩

/-- What is accepted is taken from what is left. -/
theorem Budgeted.count (budgeted : Budgeted session blockStarted n k conn)
    (left : n + conn.blockRemainingTxlen.toNat ≤ session.blockTxlen.toNat * (k + 1)) {ret : ℕ}
    (short : ret < 65536) (few : n < 9223372036854775808)
    (keeps : ret < conn.blockRemainingTxlen.toNat ∨ session.AmountSent (n + ret)) :
    Budgeted session blockStarted (n + ret) k (conn.count ret) := by
  have same := budgeted.same
  refine ⟨⟨same.settings, same.mss, same.started, same.bwLimit, same.blockTxlen⟩,
    budgeted.blockEnd, ?_, ?_⟩
  · show (conn.bytesTransferred + UInt64.ofNat ret).toNat = _
    rw [UInt64.toNat_add, UInt64.toNat_ofNat', budgeted.bytes]
    omega
  · rcases keeps with inside | all
    · left
      show _ + (conn.blockRemainingTxlen - UInt32.ofNat ret).toNat ≤ _
      have lt := conn.blockRemainingTxlen.toNat_lt
      rw [UInt32.toNat_sub, UInt32.toNat_ofNat']
      omega
    · exact .inr all

/-! ## Runs -/

/-- The times at which the blocks were looked at. -/
def blockTimes (trace : List (BlockTurn × BlockOutput)) : List ℕ :=
  trace.map fun entry => entry.1.blockNow

/-- What a client has sent in a run that has begun `k` blocks after the first one. -/
structure Spends (session : TcpSession) (blockStarted : ℕ) (trace : List (BlockTurn × BlockOutput))
    (s : Option FreertosTcpClient) (k : ℕ) : Prop where
  begun : k = 0 ∨ ∃ time ∈ blockTimes trace, blockStarted + 200 * k < time
  sent : bytesSent trace ≤ session.blockTxlen.toNat * (k + 1) + session.mss.toNat
  budgeted : ∀ conn, s = some conn → Budgeted session blockStarted (bytesSent trace) k conn

/-- The clock goes on and has not wrapped. -/
structure ClockBefore (trace : List (BlockTurn × BlockOutput)) (started blockStarted : ℕ)
    (turn : BlockTurn) : Prop where
  order : started ≤ blockStarted
  times : ∀ time ∈ blockTimes trace, time ≤ turn.blockNow
  now : started ≤ turn.now ∧ turn.now ≤ turn.blockNow
  small : turn.blockNow < 4294967296

variable {trace : List (BlockTurn × BlockOutput)} {s : Option FreertosTcpClient} {started : ℕ}
  {turn : BlockTurn}

theorem bytesSent_concat (trace : List (BlockTurn × BlockOutput)) (turn : BlockTurn)
    (output : BlockOutput) :
    bytesSent (trace ++ [(turn, output)]) = bytesSent trace + output.sent := by
  induction trace with
  | nil => exact Nat.add_comm _ _
  | cons entry trace ih => rw [List.cons_append, bytesSent, bytesSent, ih, Nat.add_assoc]

theorem mem_blockTimes_concat {output : BlockOutput} {time : ℕ} :
    time ∈ blockTimes (trace ++ [(turn, output)]) ↔
      time ∈ blockTimes trace ∨ time = turn.blockNow := by
  rw [blockTimes, List.map_append, List.mem_append, List.map_singleton, List.mem_singleton]
  rfl

/-- The blocks that have begun are over, but for the last one. -/
theorem Spends.blocks_le (spends : Spends session blockStarted trace s k)
    (clock : ∀ time ∈ blockTimes trace, time ≤ n) : 200 * k ≤ n - blockStarted := by
  rcases spends.begun with rfl | ⟨time, member, begun⟩
  · exact Nat.zero_le _
  · have := clock time member
    omega

/-- The blocks that have begun stay so. -/
theorem Spends.begun_concat (spends : Spends session blockStarted trace s k) (turn : BlockTurn)
    (output : BlockOutput) :
    k = 0 ∨ ∃ time ∈ blockTimes (trace ++ [(turn, output)]), blockStarted + 200 * k < time := by
  rcases spends.begun with zero | ⟨time, member, begun⟩
  · exact .inl zero
  · exact .inr ⟨time, mem_blockTimes_concat.mpr (.inl member), begun⟩

/-- A turn that ends the loop, or finds it ended, sends nothing more. -/
theorem Spends.ended (spends : Spends session blockStarted trace s k) {output : BlockOutput}
    (nothing : output.sent = 0) :
    Spends session blockStarted (trace ++ [(turn, output)]) none k := by
  refine ⟨spends.begun_concat turn output, ?_, nofun⟩
  rw [bytesSent_concat, nothing]
  exact spends.sent

/-- What a turn that sends comes to. -/
theorem sendTurn_eq (goesOn : conn.limitReached (sysNow turn.now) = false)
    (connected : turn.answer ≠ .notConnected) {next : FreertosTcpClient}
    (topUp : conn.topUp (sysNow turn.blockNow) = next) {ret : ℕ}
    (sent : next.sent turn.answer = ret) :
    (conn.sendTurn turn).1 =
        (if (next.count ret).bwLimit ∧ (next.count ret).blockRemainingTxlen ≤ 0 then none
          else some (next.count ret)) ∧
      (conn.sendTurn turn).2.sent = ret := by
  subst topUp sent
  rw [FreertosTcpClient.sendTurn, goesOn, if_neg Bool.false_ne_true]
  dsimp only
  rw [if_neg connected]
  split_ifs <;> exact ⟨rfl, rfl⟩

theorem amountSent_iff (same : SameSession session conn.toTcpSession) (bytes : ℕ) :
    conn.AmountSent bytes ↔ session.AmountSent bytes := by
  unfold TcpSession.AmountSent TcpSession.TimeLimited TcpSession.amount
  rw [same.settings]

theorem limitReached_of_amountSent {conn : TcpSession}
    (all : conn.AmountSent conn.bytesTransferred.toNat) (now : UInt32) :
    conn.limitReached now = true := by
  rw [TcpSession.limitReached, if_neg all.1, decide_eq_true_iff, UInt64.le_iff_toNat_le,
    UInt32.toNat_toUInt64]
  exact all.2

/-- A client that goes on has its budget. -/
theorem Budgeted.left (budgeted : Budgeted session blockStarted n k conn) {now : UInt32}
    (goesOn : conn.limitReached now = false) :
    n + conn.blockRemainingTxlen.toNat ≤ session.blockTxlen.toNat * (k + 1) := by
  refine budgeted.budget.resolve_right fun all => ?_
  rw [← amountSent_iff budgeted.same, ← budgeted.bytes] at all
  rw [limitReached_of_amountSent all] at goesOn
  cases goesOn

/-- A send takes a segment at most. -/
theorem Budgeted.sent_short (budgeted : Budgeted session blockStarted n k conn)
    (segment : 24 ≤ session.mss.toNat) (answer : SendAnswer) :
    conn.sent answer ≤ session.mss.toNat ∧ conn.sent answer < 65536 := by
  have same := budgeted.same.mss
  have le := toNat_txlenMax_le conn.toTcpSession (same ▸ segment)
  have taken := sent_le conn answer
  have lt := conn.txlenMax.toNat_lt
  rw [same] at le
  omega

/-- The blocks of 32 bits of time do not allow more than a counter of 64 bits holds. -/
theorem blocks_small (blockTxlen : UInt32) {time : ℕ} (blocks : 200 * k ≤ time)
    (small : time < 4294967296) :
    blockTxlen.toNat * (k + 1) < 9223372036854775808 := by
  have product : blockTxlen.toNat * (k + 1) ≤ 4294967296 * 33554432 :=
    Nat.mul_le_mul blockTxlen.toNat_lt.le (by omega)
  omega

/-- Something is left of the block after a smaller send. -/
theorem not_count_le_zero {ret : ℕ} (inside : ret < conn.blockRemainingTxlen.toNat) :
    ¬ (conn.count ret).blockRemainingTxlen ≤ 0 := by
  have lt := conn.blockRemainingTxlen.toNat_lt
  have zero : (0 : UInt32).toNat = 0 := rfl
  rw [UInt32.le_iff_toNat_le, FreertosTcpClient.count, UInt32.toNat_sub, UInt32.toNat_ofNat', zero]
  omega

/-- A turn that sends. -/
theorem Spends.sends (spends : Spends session blockStarted trace (some conn) k)
    (limited : session.bwLimit = true) (segment : 24 ≤ session.mss.toNat)
    (clock : ClockBefore trace started blockStarted turn)
    (goesOn : conn.limitReached (sysNow turn.now) = false)
    (connected : turn.answer ≠ .notConnected) (keeps : KeepsBudget (some conn) turn) :
    EndsAtLimit started (some conn) turn ∧
      ∃ k', Spends session blockStarted (trace ++ [(turn, (conn.sendTurn turn).2)])
        (conn.sendTurn turn).1 k' := by
  have budgeted := spends.budgeted conn rfl
  have same := budgeted.same
  rw [KeepsBudget, goesOn, if_neg Bool.false_ne_true, or_iff_right connected] at keeps
  obtain ⟨fits, budget⟩ := keeps
  obtain ⟨k', begun, topped, left⟩ :=
    budgeted.topUp limited (budgeted.left goesOn) clock.small fits
  have short := topped.sent_short segment turn.answer
  generalize topUp : conn.topUp (sysNow turn.blockNow) = next at *
  generalize sent : next.sent turn.answer = ret at *
  obtain ⟨result, output⟩ := sendTurn_eq goesOn connected topUp sent
  rw [amountSent_iff same, budgeted.bytes] at budget
  have blocks : 200 * k' ≤ turn.blockNow := by
    rcases begun with rfl | begun
    · exact (spends.blocks_le clock.times).trans (Nat.sub_le _ _)
    · omega
  have few : bytesSent trace < 9223372036854775808 := by
    have small := blocks_small session.blockTxlen blocks clock.small
    omega
  have counted := topped.count left short.2 few budget
  rw [EndsAtLimit, result, output]
  refine ⟨fun ended => .inr (.inl ?_), k', ?_, ?_, ?_⟩
  · rcases budget with inside | all
    · rw [if_neg (fun both => not_count_le_zero inside both.2)] at ended
      cases ended
    · rw [amountSent_iff same, budgeted.bytes]
      exact all
  · rcases begun with rfl | begun
    · exact spends.begun_concat turn _
    · exact .inr ⟨turn.blockNow, mem_blockTimes_concat.mpr (.inr rfl), begun⟩
  · rw [bytesSent_concat, output]
    have := short.1
    omega
  · intro after goesOn
    rw [bytesSent_concat, output]
    split at goesOn
    · cases goesOn
    · obtain rfl := Option.some.inj goesOn
      exact counted

/-- The check of the limit is right while the time of the session is a number of 32 bits. -/
theorem limit_of_limitReached {conn : TcpSession} {now : ℕ}
    (reached : conn.limitReached (sysNow now) = true)
    (short : conn.TimeLimited → conn.duration < 4294967296)
    (since : conn.timeStartedMs = sysNow started) (order : started ≤ now)
    (small : now < 4294967296) :
    conn.TimeLimited ∧ conn.duration ≤ now - started ∨
      conn.AmountSent conn.bytesTransferred.toNat := by
  have reading : (sysNow now).toNat = now := UInt32.toNat_ofNat_of_lt' small
  have beginning : (sysNow started).toNat = started :=
    UInt32.toNat_ofNat_of_lt' (Nat.lt_of_le_of_lt order small)
  have ten : (10 : UInt32).toNat = 10 := rfl
  rw [TcpSession.limitReached] at reached
  split at reached
  · next timeLimited =>
      have fits : (-conn.amount).toNat * 10 < 4294967296 := short timeLimited
      rw [decide_eq_true_iff, ge_iff_le, UInt32.le_iff_toNat_le, since, UInt32.toNat_sub, reading,
        beginning, UInt32.toNat_mul, ten, Nat.mod_eq_of_lt fits] at reached
      left
      refine ⟨timeLimited, ?_⟩
      show (-conn.amount).toNat * 10 ≤ now - started
      omega
  · next byteLimited =>
      rw [decide_eq_true_iff, UInt64.le_iff_toNat_le, UInt32.toNat_toUInt64] at reached
      exact .inr ⟨byteLimited, reached⟩

/-- **A turn that keeps the budget.** -/
theorem Spends.next (spends : Spends session blockStarted trace s k)
    (limited : session.bwLimit = true) (segment : 24 ≤ session.mss.toNat)
    (since : session.timeStartedMs = sysNow started)
    (clock : ClockBefore trace started blockStarted turn) (keeps : KeepsBudget s turn) :
    EndsAtLimit started s turn ∧
      ∃ k', Spends session blockStarted (trace ++ [(turn, (freertosTcpClient.step s turn).2)])
        (freertosTcpClient.step s turn).1 k' := by
  cases s with
  | none => exact ⟨trivial, k, spends.ended rfl⟩
  | some conn =>
      show _ ∧ ∃ k', Spends session blockStarted (trace ++ [(turn, (conn.sendTurn turn).2)])
        (conn.sendTurn turn).1 k'
      have same := (spends.budgeted conn rfl).same
      cases goesOn : conn.limitReached (sysNow turn.now) with
      | true =>
          have ended : conn.sendTurn turn = (none, ⟨0, some .tcpDoneClient⟩) := by
            rw [FreertosTcpClient.sendTurn, goesOn, if_pos rfl]
          rw [KeepsBudget, goesOn, if_pos rfl] at keeps
          rw [EndsAtLimit, ended]
          refine ⟨fun _ => ?_, k, spends.ended rfl⟩
          rcases limit_of_limitReached goesOn keeps (same.started.trans since) clock.now.1
            (Nat.lt_of_le_of_lt clock.now.2 clock.small) with time | all
          · exact .inl time
          · exact .inr (.inl all)
      | false =>
          by_cases connected : turn.answer = .notConnected
          · have ended : conn.sendTurn turn = (none, ⟨0, some .tcpAbortedRemote⟩) := by
              rw [FreertosTcpClient.sendTurn, goesOn, if_neg Bool.false_ne_true]
              exact if_pos connected
            rw [EndsAtLimit, ended]
            exact ⟨fun _ => .inr (.inr connected), k, spends.ended rfl⟩
          · exact spends.sends limited segment clock goesOn connected keeps

theorem Spends.withinBlocks
    (spends : Spends session blockStarted
      (trace ++ [(turn, (freertosTcpClient.step s turn).2)]) (freertosTcpClient.step s turn).1 k)
    (clock : ClockBefore trace started blockStarted turn) :
    WithinBlocks started session.blockTxlen.toNat session.mss.toNat trace s turn := by
  have blocks : 200 * k ≤ turn.blockNow - blockStarted := by
    apply spends.blocks_le
    intro time member
    rcases mem_blockTimes_concat.mp member with earlier | rfl
    · exact clock.times time earlier
    · exact Nat.le_refl _
  have order := clock.order
  have budget : session.blockTxlen.toNat * (k + 1) ≤
      session.blockTxlen.toNat * (1 + (turn.blockNow - started) / 200) :=
    Nat.mul_le_mul_left _ (by omega)
  exact spends.sent.trans (Nat.add_le_add_right budget _)

/-- The times of a turn. -/
def BlockTurn.readings (turn : BlockTurn) : List ℕ := [turn.now, turn.blockNow]

/-- The clock of a session goes on, and does not wrap. -/
structure ClockGoesOn (started blockStarted : ℕ) (turns : List BlockTurn) : Prop where
  order : (started :: blockStarted :: turns.flatMap BlockTurn.readings).Pairwise (· ≤ ·)
  small : ∀ turn ∈ turns, turn.blockNow < 4294967296

theorem ClockGoesOn.before {turns before : List BlockTurn}
    (clock : ClockGoesOn started blockStarted turns) (here : before ++ [turn] <+: turns)
    (init : Option FreertosTcpClient) :
    ClockBefore (freertosTcpClient.trace init before) started blockStarted turn := by
  obtain ⟨after, rfl⟩ := here
  obtain ⟨fromStart, order⟩ := List.pairwise_cons.mp clock.order
  obtain ⟨-, order⟩ := List.pairwise_cons.mp order
  have split : (before ++ [turn] ++ after).flatMap BlockTurn.readings =
      before.flatMap BlockTurn.readings ++ (turn.readings ++ after.flatMap BlockTurn.readings) := by
    rw [List.append_assoc, List.flatMap_append, List.flatMap_append, List.flatMap_singleton]
  rw [split] at order fromStart
  obtain ⟨-, rest, earlier⟩ := List.pairwise_append.mp order
  obtain ⟨inTurn, -, -⟩ := List.pairwise_append.mp rest
  refine ⟨fromStart _ List.mem_cons_self, ?_, ⟨?_, ?_⟩, clock.small turn ?_⟩
  · intro time member
    obtain ⟨entry, old, rfl⟩ := List.mem_map.mp member
    have old : entry.1 ∈ before := freertosTcpClient.mem_of_mem_trace old
    apply earlier
    · exact List.mem_flatMap.mpr ⟨entry.1, old, List.mem_cons_of_mem _ (List.mem_singleton_self _)⟩
    · exact List.mem_append_left _ (List.mem_cons_of_mem _ (List.mem_singleton_self _))
  · apply fromStart
    exact List.mem_cons_of_mem _ (List.mem_append_right _ (List.mem_append_left _
      List.mem_cons_self))
  · exact (List.pairwise_cons.mp inTurn).1 _ (List.mem_singleton_self _)
  · exact List.mem_append_left _ (List.mem_append_right _ (List.mem_singleton_self _))

end

section

variable {settings : Table UInt8 settingsLen} {mss targetBw : UInt32} {started blockStarted : ℕ}
  {conn : FreertosTcpClient} {turns : List BlockTurn}

/-- A client that was started with a bandwidth limit. -/
theorem startFreertosClient_eq
    (start : startFreertosClient settings mss targetBw (sysNow started) (sysNow blockStarted) =
      some conn) :
    conn.mss = mss ∧ conn.timeStartedMs = sysNow started ∧ conn.bytesTransferred = 0 ∧
      conn.bwLimit = (targetBw != 0) ∧ conn.blockEndTime = sysNow blockStarted + 200 ∧
        conn.blockRemainingTxlen = conn.blockTxlen := by
  obtain ⟨session, accepted, rfl⟩ := Option.map_eq_some_iff.mp start
  rw [iperfTxStartImpl, Option.ite_none_left_eq_some] at accepted
  obtain rfl := Option.some.inj accepted.2
  exact ⟨rfl, rfl, rfl, rfl, rfl, rfl⟩

theorem spends_start
    (start : startFreertosClient settings mss targetBw (sysNow started) (sysNow blockStarted) =
      some conn) (fits : blockStarted + 200 < 4294967296) :
    Spends conn.toTcpSession blockStarted [] (some conn) 0 := by
  obtain ⟨-, -, bytes, -, blockEnd, budget⟩ := startFreertosClient_eq start
  refine ⟨.inl rfl, Nat.zero_le _, ?_⟩
  rintro _ ⟨⟩
  refine ⟨⟨rfl, rfl, rfl, rfl, rfl⟩, ?_, ?_, .inl ?_⟩
  · have n200 : (200 : UInt32).toNat = 200 := rfl
    rw [blockEnd, UInt32.toNat_add, sysNow, UInt32.toNat_ofNat', n200]
    omega
  · rw [bytes]
    rfl
  · rw [budget, Nat.zero_add, Nat.mul_one]
    exact (Nat.zero_add _).le

/-- **When the bandwidth limit works**: in a run in which the socket always accepts less than what
is left of the block, or the last bytes of the session, the loop ends only at the limit of the
session or without a connection, and no more is sent than the blocks allow. -/
theorem keepsBandwidth
    (start : startFreertosClient settings mss targetBw (sysNow started) (sysNow blockStarted) =
      some conn) (limited : targetBw ≠ 0) (segment : 24 ≤ mss.toNat)
    (clock : ClockGoesOn started blockStarted turns) (fits : blockStarted + 200 < 4294967296)
    (keeps : freertosTcpClient.Guarded (fun _ => KeepsBudget) (some conn) turns) :
    freertosTcpClient.Guarded (fun trace s turn => EndsAtLimit started s turn ∧
      WithinBlocks started conn.blockTxlen.toNat mss.toNat trace s turn) (some conn) turns := by
  obtain ⟨sameMss, since, -, bwLimit, -⟩ := startFreertosClient_eq start
  have bwLimit : conn.bwLimit = true := bwLimit.trans (bne_iff_ne.mpr limited)
  have segment : 24 ≤ conn.mss.toNat := sameMss ▸ segment
  have steady : freertosTcpClient.Guarded
      (fun trace s turn => KeepsBudget s turn ∧ ClockBefore trace started blockStarted turn)
      (some conn) turns :=
    fun before turn here => ⟨keeps before turn here, clock.before here _⟩
  intro before turn here
  have spends : ∃ k, Spends conn.toTcpSession blockStarted
      (freertosTcpClient.trace (some conn) before)
      (freertosTcpClient.exec (some conn) before) k := by
    have earlier := steady.of_prefix _ ((List.prefix_append before [turn]).trans here)
    refine freertosTcpClient.exec_guarded (P := fun trace s => ∃ k, Spends conn.toTcpSession
      blockStarted trace s k) ⟨0, spends_start start fits⟩ ?_ earlier
    rintro trace s turn ⟨k, spends⟩ ⟨keeps, clock⟩
    exact (spends.next bwLimit segment since clock keeps).2
  obtain ⟨k, spends⟩ := spends
  obtain ⟨atLimit, k', after⟩ := spends.next bwLimit segment since (clock.before here _)
    (keeps before turn here)
  have within := after.withinBlocks (clock.before here _)
  rw [sameMss] at within
  exact ⟨atLimit, within⟩

end

/-- Settings of a session of ten seconds. -/
def tenSecondSettings : Table UInt8 settingsLen :=
  ⟨List.replicate 20 0 ++ [0xff, 0xff, 0xfc, 0x18], rfl⟩

/-- Its client at 60 kbit/s, with 1500 bytes for each block. -/
def slowClient : FreertosTcpClient where
  settings := tenSecondSettings
  mss := 1460
  timeStartedMs := 5000
  bytesTransferred := 0
  bwLimit := true
  blockEndTime := 5200
  blockTxlen := 1500
  blockRemainingTxlen := 1500

/-- Two blocks, and a connection that is lost. -/
theorem keepsBandwidth_twoBlocks :
    freertosTcpClient.Guarded (fun trace s turn => EndsAtLimit 5000 s turn ∧
      WithinBlocks 5000 1500 1460 trace s turn) (some slowClient)
      [⟨5001, 5001, .accepted 1460⟩, ⟨5002, 5002, .accepted 1460⟩, ⟨5003, 5003, .accepted 1400⟩,
        ⟨5004, 5004, .error⟩, ⟨5201, 5201, .accepted 1460⟩, ⟨5202, 5202, .notConnected⟩] := by
  have start : startFreertosClient tenSecondSettings 1460 60 (sysNow 5000) (sysNow 5000) =
      some slowClient := rfl
  exact keepsBandwidth start (by decide) (by decide) ⟨by decide, by decide⟩ (by decide) (by decide)

/-- **A block that is used up ends the session**: after 1500 bytes in 4 milliseconds the client of a
session of ten seconds leaves its loop. -/
theorem not_keepsBandwidth_block : ¬ ∀ (settings : Table UInt8 settingsLen) (mss targetBw : UInt32)
    (started blockStarted : ℕ) (conn : FreertosTcpClient) (turns : List BlockTurn),
      startFreertosClient settings mss targetBw (sysNow started) (sysNow blockStarted) = some conn →
        targetBw ≠ 0 → 24 ≤ mss.toNat → ClockGoesOn started blockStarted turns →
          freertosTcpClient.Guarded (fun trace s turn => EndsAtLimit started s turn ∧
            WithinBlocks started conn.blockTxlen.toNat mss.toNat trace s turn) (some conn)
            turns := by
  intro always
  have keeps := always tenSecondSettings 1460 60 5000 5000 slowClient
    [⟨5001, 5001, .accepted 1460⟩, ⟨5002, 5002, .accepted 1460⟩, ⟨5003, 5003, .accepted 1460⟩,
      ⟨5004, 5004, .accepted 16⟩] rfl (by decide) (by decide) ⟨by decide, by decide⟩
  have last := keeps [⟨5001, 5001, .accepted 1460⟩, ⟨5002, 5002, .accepted 1460⟩,
    ⟨5003, 5003, .accepted 1460⟩] ⟨5004, 5004, .accepted 16⟩ (List.prefix_refl _)
  rcases last.1 rfl with time | amount | lost
  · exact absurd time (by decide)
  · exact absurd amount (by decide)
  · cases lost

end HalowBridge.Iperf
