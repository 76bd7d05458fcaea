import HalowBridge.Iperf.Data
import HalowBridge.Iperf.TcpServer
import HalowBridge.Lib.Window

/-!
# The stream of a TCP client

`iperf_tcp_client_send_more` hands bytes to TCP: the settings, the settings again, and the table of
digits from then on. Each turn of its loop finds the place to go on from in `bytes_transferred`,
which has 64 bits. The table is read through a parameter of 32 bits.

`isStream_iff` says when the bytes of a session are the ones they should be: as long as no write is
accepted behind 2 ^ 32 bytes, where the digits start again at the wrong one. A session with an
amount of bytes never gets there. Every slice lies in the object that it is taken from.
-/

namespace HalowBridge.Iperf

/-- The objects that bytes are taken from. -/
inductive TcpSource where
  | settings (object : Table UInt8 settingsLen)
  | data

/-- A call of `tcp_write`. -/
structure TcpWrite where
  source : TcpSource
  slice : Slice
  accepted : Bool

/-- What a turn of the loop meets: the clock, which it reads twice, the room that TCP has, and
whether a write is accepted. -/
structure SendTurn where
  now : UInt32
  blockNow : UInt32
  sndBuf : ℕ
  queueRoom : Bool
  accepted : Bool

/-- `struct iperf_state_tcp` of both network stacks, as far as a client that sends depends on it. -/
structure TcpSession where
  settings : Table UInt8 settingsLen
  mss : UInt32
  timeStartedMs : UInt32
  bytesTransferred : UInt64
  bwLimit : Bool
  blockEndTime : UInt32
  blockTxlen : UInt32

/-- With lwIP what is left of a block is a signed number. -/
structure TcpClient extends TcpSession where
  blockRemainingTxlen : Int32

/-- `TCP_MSS` less what an IPv6 header has more. -/
def tcpMss (ipv6 : Bool) : UInt32 := if ipv6 then 1460 - 20 else 1460

/-- `iperf_tx_start_impl` of both stacks and the times that the connected client sets, unless the
bandwidth limit is too low. -/
def iperfTxStartImpl (settings : Table UInt8 settingsLen)
    (mss targetBw started blockStarted : UInt32) : Option TcpSession :=
  let blockTxlen := targetBw * 200 / 8
  if targetBw ≠ 0 ∧ mss > blockTxlen then none
  else
    some
      { settings := settings
        mss := mss
        timeStartedMs := started
        bytesTransferred := 0
        bwLimit := targetBw != 0
        blockEndTime := blockStarted + 200
        blockTxlen := blockTxlen }

/-- The start of a client with lwIP. -/
def iperfTxStart (settings : Table UInt8 settingsLen) (ipv6 : Bool)
    (targetBw started blockStarted : UInt32) : Option TcpClient :=
  (iperfTxStartImpl settings (tcpMss ipv6) targetBw started blockStarted).map fun session =>
    { session with blockRemainingTxlen := session.blockTxlen.toInt32 }

namespace TcpSession

/-- `settings.amount`, in the order of the host. -/
def amount (conn : TcpSession) : UInt32 := ntohl conn.settings.slots 20

/-- The amount is a time. -/
def TimeLimited (conn : TcpSession) : Prop := conn.amount &&& 0x80000000 ≠ 0

instance (conn : TcpSession) : Decidable conn.TimeLimited := inferInstanceAs (Decidable (_ ≠ _))

/-- The time or the bytes of the session have been used up. -/
def limitReached (conn : TcpSession) (now : UInt32) : Bool :=
  if conn.TimeLimited then now - conn.timeStartedMs ≥ -conn.amount * 10
  else conn.amount.toUInt64 ≤ conn.bytesTransferred

/-- `txptr`, as a source and an offset. -/
def txptr (conn : TcpSession) : TcpSource × ℕ :=
  if conn.bytesTransferred < 24 then (.settings conn.settings, conn.bytesTransferred.toNat)
  else if conn.bytesTransferred < 48 then
    (.settings conn.settings, (conn.bytesTransferred - 24).toNat)
  else (.data, iperfGetData conn.bytesTransferred.toUInt32)

/-- `txlen_max` -/
def txlenMax (conn : TcpSession) : UInt16 :=
  if conn.bytesTransferred < 24 then (24 - conn.bytesTransferred).toUInt16
  else if conn.bytesTransferred < 48 then (48 - conn.bytesTransferred).toUInt16
  else if conn.bytesTransferred = 48 then (conn.mss - 24).toUInt16
  else conn.mss.toUInt16

end TcpSession

namespace TcpClient

/-- The budget of the next block. -/
def topUp (conn : TcpClient) (now : UInt32) : TcpClient :=
  if conn.bwLimit ∧ conn.blockEndTime < now then
    { conn with
      blockEndTime := conn.blockEndTime + 200
      blockRemainingTxlen := conn.blockRemainingTxlen + conn.blockTxlen.toInt32 }
  else conn

/-- `txlen` -/
def txlen (conn : TcpClient) (sndBuf : ℕ) : UInt16 :=
  if conn.txlenMax.toNat > sndBuf then UInt16.ofNat sndBuf else conn.txlenMax

/-- TCP has room for a write. -/
def CanWrite (conn : TcpClient) (turn : SendTurn) : Prop :=
  (conn.mss / 2).toNat ≤ turn.sndBuf ∧ turn.queueRoom = true

instance (conn : TcpClient) (turn : SendTurn) : Decidable (conn.CanWrite turn) :=
  inferInstanceAs (Decidable (_ ∧ _))

/-- The call of `tcp_write` in a turn. -/
def write (conn : TcpClient) (turn : SendTurn) : TcpWrite where
  source := conn.txptr.1
  slice := ⟨conn.txptr.2, (conn.txlen turn.sndBuf).toNat⟩
  accepted := turn.accepted

/-- After a write was accepted. -/
def count (conn : TcpClient) (txlen : UInt16) : TcpClient :=
  { conn with
    bytesTransferred := conn.bytesTransferred + txlen.toUInt64
    blockRemainingTxlen := conn.blockRemainingTxlen - txlen.toUInt32.toInt32 }

/-- A turn of `iperf_tcp_client_send_more`, with its call of `tcp_write` and `send_more`. The client
is gone when its limit is reached. -/
def sendTurn (conn : TcpClient) (turn : SendTurn) :
    Option TcpClient × Option TcpWrite × Bool :=
  if conn.limitReached turn.now then (none, none, false)
  else
    let next := conn.topUp turn.blockNow
    if next.CanWrite turn then
      if turn.accepted then
        let after := next.count (next.txlen turn.sndBuf)
        (some after, some (next.write turn),
          24 ≤ next.bytesTransferred && !(after.bwLimit && after.blockRemainingTxlen ≤ 0))
      else (some next, some (next.write turn), false)
    else (some next, none, false)

end TcpClient

/-- The turns of all calls, one after the other. A call takes turns until one does not set
`send_more`. -/
def tcpClient : Machine (Option TcpClient) SendTurn (Option TcpWrite × Bool) where
  step
    | some conn, turn => conn.sendTurn turn
    | none, _ => (none, none, false)

/-! ## The stream -/

/-- The bytes of a source. -/
def TcpSource.bytes : TcpSource → List UInt8
  | .settings object => object.slots
  | .data => (List.range iperfDataLen).map iperfData

/-- What a write hands to TCP. -/
def TcpWrite.handed (write : TcpWrite) : List UInt8 :=
  if write.accepted then window write.source.bytes write.slice.offset write.slice.len else []

/-- The writes of a run. -/
def writes (trace : List (SendTurn × Option TcpWrite × Bool)) : List TcpWrite :=
  trace.filterMap fun entry => entry.2.1

/-- All that is handed to TCP. -/
def handed (writes : List TcpWrite) : List UInt8 := writes.flatMap TcpWrite.handed

/-- The byte at a position of the stream: the settings twice, and the digits. -/
def streamByte (settings : Table UInt8 settingsLen) (k : ℕ) : UInt8 :=
  if k < 48 then settings.slots.getD (k % 24) 0 else iperfData k

/-- The writes hand over the stream, from slices inside their sources. -/
structure IsStream (settings : Table UInt8 settingsLen) (writes : List TcpWrite) : Prop where
  bytes : handed writes = (List.range (handed writes).length).map (streamByte settings)
  inside : ∀ write ∈ writes, write.slice.Inside write.source.bytes.length

/-- No write is accepted behind 2 ^ 32 bytes. -/
def WritesEarly : Option TcpClient → SendTurn → Prop
  | some conn, turn =>
      conn.limitReached turn.now = false → conn.CanWrite turn → turn.accepted = true →
        conn.bytesTransferred < 4294967296
  | none, _ => True

instance : (s : Option TcpClient) → (turn : SendTurn) → Decidable (WritesEarly s turn)
  | some _, _ => inferInstanceAs (Decidable (_ → _ → _ → _))
  | none, _ => inferInstanceAs (Decidable True)

/-! ## The bytes of a write -/

section

variable {conn : TcpClient} {turn : SendTurn}

theorem length_bytes (source : TcpSource) :
    source.bytes.length =
      match source with
      | .settings _ => settingsLen
      | .data => iperfDataLen := by
  cases source with
  | settings object => exact object.length_eq
  | data => rw [TcpSource.bytes, List.length_map, List.length_range]

theorem iperfData_eq_iff {i j : ℕ} : iperfData i = iperfData j ↔ i % 10 = j % 10 := by
  rw [iperfData, iperfData, ← UInt8.toNat_inj, UInt8.toNat_ofNat', UInt8.toNat_ofNat']
  omega

/-- A block of the stream. -/
def block (settings : Table UInt8 settingsLen) (k n : ℕ) : List UInt8 :=
  (List.range n).map fun i => streamByte settings (k + i)

/-- The segment size is one of TCP. -/
def TcpClient.SegmentSize (conn : TcpClient) : Prop := ∃ ipv6, conn.mss = tcpMss ipv6

/-- Where a write is taken from and how long it can be. -/
inductive WriteFrom (conn : TcpClient) : Prop
  | settings (inside : conn.bytesTransferred.toNat < 48)
      (txptr : conn.txptr = (.settings conn.settings, conn.bytesTransferred.toNat % 24))
      (txlenMax : conn.txlenMax.toNat = 24 - conn.bytesTransferred.toNat % 24)
  | data (behind : 48 ≤ conn.bytesTransferred.toNat)
      (txptr : conn.txptr = (.data, conn.bytesTransferred.toNat % 4294967296 % 10))
      (positive : 0 < conn.txlenMax.toNat) (txlenMax : conn.txlenMax.toNat ≤ 1460)

theorem writeFrom (mss : conn.SegmentSize) : WriteFrom conn := by
  have lt := conn.bytesTransferred.toNat_lt
  have n24 : (24 : UInt64).toNat = 24 := rfl
  have n48 : (48 : UInt64).toNat = 48 := rfl
  have first_iff : conn.bytesTransferred < 24 ↔ conn.bytesTransferred.toNat < 24 :=
    UInt64.lt_iff_toNat_lt
  have second_iff : conn.bytesTransferred < 48 ↔ conn.bytesTransferred.toNat < 48 :=
    UInt64.lt_iff_toNat_lt
  by_cases first : conn.bytesTransferred < 24
  · have small := first_iff.mp first
    refine .settings (by omega) ?_ ?_
    · rw [TcpSession.txptr, if_pos first, Nat.mod_eq_of_lt small]
    · rw [TcpSession.txlenMax, if_pos first, UInt64.toNat_toUInt16, UInt64.toNat_sub, n24]
      omega
  by_cases second : conn.bytesTransferred < 48
  · have large := mt first_iff.mpr first
    have small := second_iff.mp second
    refine .settings small ?_ ?_
    · have offset : (conn.bytesTransferred - 24).toNat = conn.bytesTransferred.toNat % 24 := by
        rw [UInt64.toNat_sub, n24]
        omega
      rw [TcpSession.txptr, if_neg first, if_pos second, offset]
    · rw [TcpSession.txlenMax, if_neg first, if_pos second, UInt64.toNat_toUInt16,
        UInt64.toNat_sub, n48]
      omega
  · have large := mt second_iff.mpr second
    refine .data (by omega) ?_ ?_ ?_
    · rw [TcpSession.txptr, if_neg first, if_neg second, iperfGetData, UInt32.toNat_mod,
        UInt64.toNat_toUInt32]
      rfl
    all_goals
      obtain ⟨ipv6, mss⟩ := mss
      rw [TcpSession.txlenMax, if_neg first, if_neg second, mss]
      cases ipv6 <;> split <;> decide

theorem toNat_txlen_le (sndBuf : ℕ) :
    (conn.txlen sndBuf).toNat ≤ conn.txlenMax.toNat := by
  rw [TcpClient.txlen]
  split
  · next more =>
      rw [UInt16.toNat_ofNat']
      have := conn.txlenMax.toNat_lt
      omega
  · exact Nat.le_refl _

theorem toNat_txlen_pos (mss : conn.SegmentSize) (room : conn.CanWrite turn) :
    0 < (conn.txlen turn.sndBuf).toNat := by
  have half : 0 < (conn.mss / 2).toNat := by
    obtain ⟨ipv6, mss⟩ := mss
    rw [mss]
    cases ipv6 <;> decide
  have some : 0 < conn.txlenMax.toNat := by
    cases writeFrom mss with
    | settings _ _ txlenMax => omega
    | data _ _ positive _ => exact positive
  have lt := conn.txlenMax.toNat_lt
  have buffer := room.1
  rw [TcpClient.txlen]
  split
  · rw [UInt16.toNat_ofNat']
    omega
  · exact some

/-- A write stays inside its source. -/
theorem write_inside (mss : conn.SegmentSize) :
    (conn.write turn).slice.Inside (conn.write turn).source.bytes.length := by
  have le : (conn.txlen turn.sndBuf).toNat ≤ conn.txlenMax.toNat := toNat_txlen_le turn.sndBuf
  cases writeFrom mss with
  | settings _ txptr txlenMax =>
      rw [length_bytes]
      simp only [TcpClient.write, Slice.Inside, txptr, settingsLen]
      omega
  | data _ txptr _ txlenMax =>
      rw [length_bytes]
      simp only [TcpClient.write, Slice.Inside, txptr, iperfDataLen]
      omega

/-- A write that begins early hands over the next block of the stream. -/
theorem window_write (mss : conn.SegmentSize)
    (early : conn.bytesTransferred < 4294967296) :
    window (conn.write turn).source.bytes (conn.write turn).slice.offset
        (conn.write turn).slice.len =
      block conn.settings conn.bytesTransferred.toNat (conn.txlen turn.sndBuf).toNat := by
  have small : conn.bytesTransferred.toNat < 4294967296 := UInt64.lt_iff_toNat_lt.mp early
  have le : (conn.txlen turn.sndBuf).toNat ≤ conn.txlenMax.toNat := toNat_txlen_le turn.sndBuf
  rw [window_eq_map (write_inside mss) 0, block]
  apply List.map_congr_left
  intro i inside
  have inside : i < (conn.txlen turn.sndBuf).toNat := List.mem_range.mp inside
  rw [streamByte]
  cases writeFrom mss with
  | settings first txptr txlenMax =>
      have place : (conn.bytesTransferred.toNat + i) % 24 =
          conn.bytesTransferred.toNat % 24 + i := by
        omega
      rw [if_pos (by omega), place]
      simp only [TcpClient.write, txptr, TcpSource.bytes]
  | data behind txptr _ txlenMax =>
      have table : conn.bytesTransferred.toNat % 4294967296 % 10 + i < iperfDataLen := by
        show _ < 1600
        omega
      rw [if_neg (by omega)]
      simp only [TcpClient.write, txptr, TcpSource.bytes]
      rw [List.getD_eq_getElem?_getD, List.getElem?_map, List.getElem?_range table, Option.map_some,
        Option.getD_some, iperfData_eq_iff]
      omega

/-! ## A turn -/

variable {settings : Table UInt8 settingsLen} {calls : List TcpWrite} {s : Option TcpClient}

/-- What the budget of a block does not change. -/
theorem topUp_eq (conn : TcpClient) (now : UInt32) :
    (conn.topUp now).settings = conn.settings ∧ (conn.topUp now).mss = conn.mss ∧
      (conn.topUp now).bytesTransferred = conn.bytesTransferred := by
  unfold TcpClient.topUp
  split <;> exact ⟨rfl, rfl, rfl⟩

theorem canWrite_topUp_iff (conn : TcpClient) (turn : SendTurn) (now : UInt32) :
    (conn.topUp now).CanWrite turn ↔ conn.CanWrite turn := by
  rw [TcpClient.CanWrite, (topUp_eq conn now).2.1, TcpClient.CanWrite]

theorem handed_concat (calls : List TcpWrite) (write : TcpWrite) :
    handed (calls ++ [write]) = handed calls ++ write.handed := by
  rw [handed, handed, List.flatMap_append, List.flatMap_singleton]

theorem range_append_block (settings : Table UInt8 settingsLen) (k n : ℕ) :
    (List.range k).map (streamByte settings) ++ block settings k n =
      (List.range (k + n)).map (streamByte settings) := by
  rw [List.range_add, List.map_append, List.map_map]
  rfl

/-- The beginning of the stream is the stream. -/
theorem IsStream.of_append {more : List TcpWrite} (stream : IsStream settings (calls ++ more)) :
    IsStream settings calls := by
  refine ⟨?_, fun write member => stream.inside write (List.mem_append_left more member)⟩
  have bytes := stream.bytes
  have split : handed (calls ++ more) = handed calls ++ handed more := List.flatMap_append
  rw [split, List.length_append, ← range_append_block] at bytes
  exact (List.append_inj bytes (by rw [List.length_map, List.length_range])).1

/-- A client and what it has written. -/
structure SendsStream (settings : Table UInt8 settingsLen) (calls : List TcpWrite)
    (s : Option TcpClient) : Prop where
  stream : IsStream settings calls
  conn : ∀ conn, s = some conn → conn.settings = settings ∧ conn.SegmentSize ∧
    conn.bytesTransferred.toNat = (handed calls).length ∧
      conn.bytesTransferred.toNat < 4294967296 + 65536

/-- A write of the client has its slice inside, like those before it. -/
theorem SendsStream.inside_concat (sends : SendsStream settings calls (some conn))
    (turn : SendTurn) :
    ∀ write ∈ calls ++ [conn.write turn], write.slice.Inside write.source.bytes.length := by
  obtain ⟨-, mss, -⟩ := sends.conn conn rfl
  intro write member
  rcases List.mem_append.mp member with old | new
  · exact sends.stream.inside write old
  · rw [List.mem_singleton.mp new]
    exact write_inside mss

/-- A write that is accepted. -/
theorem SendsStream.accepted (sends : SendsStream settings calls (some conn))
    (early : conn.bytesTransferred < 4294967296) (accepted : turn.accepted = true) :
    SendsStream settings (calls ++ [conn.write turn])
      (some (conn.count (conn.txlen turn.sndBuf))) := by
  obtain ⟨same, mss, length, -⟩ := sends.conn conn rfl
  have small : conn.bytesTransferred.toNat < 4294967296 := UInt64.lt_iff_toNat_lt.mp early
  have handed_eq : (conn.write turn).handed =
      block settings (handed calls).length (conn.txlen turn.sndBuf).toNat := by
    have accepts : (conn.write turn).accepted = true := accepted
    rw [TcpWrite.handed, if_pos accepts, window_write mss early, same, length]
  have next : (handed (calls ++ [conn.write turn])).length =
      (handed calls).length + (conn.txlen turn.sndBuf).toNat := by
    rw [handed_concat, List.length_append, handed_eq, block, List.length_map, List.length_range]
  have lt := (conn.txlen turn.sndBuf).toNat_lt
  have bytes : (conn.bytesTransferred + (conn.txlen turn.sndBuf).toUInt64).toNat =
      conn.bytesTransferred.toNat + (conn.txlen turn.sndBuf).toNat := by
    rw [UInt64.toNat_add, UInt16.toNat_toUInt64]
    omega
  refine ⟨⟨?_, ?_⟩, ?_⟩
  · rw [next, handed_concat, handed_eq, ← range_append_block, ← sends.stream.bytes]
  · exact sends.inside_concat turn
  · rintro after ⟨⟩
    refine ⟨same, mss, ?_, ?_⟩
    · rw [next, ← length]
      exact bytes
    · show (conn.bytesTransferred + (conn.txlen turn.sndBuf).toUInt64).toNat < _
      omega

/-- A write that is refused. -/
theorem SendsStream.refused (sends : SendsStream settings calls (some conn))
    (refused : turn.accepted = false) :
    SendsStream settings (calls ++ [conn.write turn]) (some conn) := by
  have refuses : (conn.write turn).accepted = false := refused
  have same : handed (calls ++ [conn.write turn]) = handed calls := by
    rw [handed_concat, TcpWrite.handed, refuses, if_neg Bool.false_ne_true, List.append_nil]
  refine ⟨⟨?_, ?_⟩, ?_⟩
  · rw [same]
    exact sends.stream.bytes
  · exact sends.inside_concat turn
  · rw [same]
    exact sends.conn

theorem SendsStream.topUp (sends : SendsStream settings calls (some conn)) (now : UInt32) :
    SendsStream settings calls (some (conn.topUp now)) := by
  refine ⟨sends.stream, ?_⟩
  rintro next ⟨⟩
  obtain ⟨same, mss, bytes⟩ := topUp_eq conn now
  rw [same, bytes, TcpClient.SegmentSize, mss]
  exact sends.conn conn rfl

theorem SendsStream.next (sends : SendsStream settings calls s) (early : WritesEarly s turn) :
    SendsStream settings (calls ++ (tcpClient.step s turn).2.1.toList)
      (tcpClient.step s turn).1 := by
  cases s with
  | none =>
      show SendsStream settings (calls ++ []) none
      rw [List.append_nil]
      exact sends
  | some conn =>
      obtain ⟨-, -, bytes⟩ := topUp_eq conn turn.blockNow
      have next := sends.topUp turn.blockNow
      show SendsStream settings (calls ++ (conn.sendTurn turn).2.1.toList) (conn.sendTurn turn).1
      rw [TcpClient.sendTurn]
      cases limit : conn.limitReached turn.now with
      | true =>
          rw [if_pos rfl, Option.toList_none, List.append_nil]
          exact ⟨sends.stream, nofun⟩
      | false =>
          rw [if_neg Bool.false_ne_true]
          dsimp only
          by_cases room : (conn.topUp turn.blockNow).CanWrite turn
          · rw [if_pos room]
            cases accepted : turn.accepted with
            | true =>
                refine next.accepted ?_ accepted
                rw [bytes]
                exact early limit ((canWrite_topUp_iff conn turn _).mp room) accepted
            | false =>
                rw [if_neg Bool.false_ne_true]
                exact next.refused accepted
          · rw [if_neg room, Option.toList_none, List.append_nil]
            exact next

/-- The digits that start again behind 2 ^ 32 bytes. -/
theorem digit_ne {p : ℕ} (large : ¬ p < 4294967296) (near : p < 4294967296 + 65536) :
    (p % 4294967296 % 10 + 0) % 10 ≠ (p + 0) % 10 := by
  obtain ⟨q, rfl⟩ := Nat.exists_eq_add_of_le (Nat.not_lt.mp large)
  have low : (4294967296 + q) % 4294967296 = q := by omega
  have six : (4294967296 + q) % 10 = (6 + q) % 10 := by
    rw [Nat.add_mod, Nat.add_mod 6 q]
  rw [low, Nat.add_zero, Nat.add_zero, six]
  omega

/-- A write that is accepted behind 2 ^ 32 bytes begins with the wrong one. -/
theorem SendsStream.not_accepted (sends : SendsStream settings calls (some conn))
    (late : ¬ conn.bytesTransferred < 4294967296) (accepted : turn.accepted = true)
    (room : conn.CanWrite turn) : ¬ IsStream settings (calls ++ [conn.write turn]) := by
  intro stream
  obtain ⟨-, mss, length, near⟩ := sends.conn conn rfl
  have large : ¬ conn.bytesTransferred.toNat < 4294967296 :=
    fun small => late (UInt64.lt_iff_toNat_lt.mpr small)
  have some := toNat_txlen_pos mss room
  have le : (conn.txlen turn.sndBuf).toNat ≤ conn.txlenMax.toNat := toNat_txlen_le turn.sndBuf
  have accepts : (conn.write turn).accepted = true := accepted
  have bytes := stream.bytes
  rw [handed_concat, List.length_append, ← range_append_block] at bytes
  have last : (conn.write turn).handed = block settings _ _ :=
    (List.append_inj bytes (by rw [List.length_map, List.length_range])).2
  have first := congrArg (fun l => l[0]?) last
  cases writeFrom mss with
  | settings inside _ _ => omega
  | data behind txptr _ txlenMax =>
      have slice : (conn.write turn).slice.len = (conn.txlen turn.sndBuf).toNat := rfl
      have long : (conn.write turn).handed.length = (conn.txlen turn.sndBuf).toNat := by
        rw [TcpWrite.handed, if_pos accepts, length_window (write_inside mss), slice]
      have table : conn.bytesTransferred.toNat % 4294967296 % 10 + 0 < iperfDataLen := by
        show _ < 1600
        omega
      rw [block, long, List.getElem?_map, List.getElem?_range some, Option.map_some,
        TcpWrite.handed, if_pos accepts, window_eq_map (write_inside mss) 0, slice,
        List.getElem?_map, List.getElem?_range some, Option.map_some, Option.some.injEq, streamByte,
        if_neg (by omega)] at first
      simp only [TcpClient.write, txptr, TcpSource.bytes] at first
      rw [List.getD_eq_getElem?_getD, List.getElem?_map, List.getElem?_range table, Option.map_some,
        Option.getD_some, iperfData_eq_iff, ← length] at first
      exact digit_ne large near first

theorem SendsStream.not_next (sends : SendsStream settings calls s)
    (late : ¬ WritesEarly s turn) :
    ¬ IsStream settings (calls ++ (tcpClient.step s turn).2.1.toList) := by
  cases s with
  | none => exact (late trivial).elim
  | some conn =>
      obtain ⟨-, -, bytes⟩ := topUp_eq conn turn.blockNow
      simp only [WritesEarly, Classical.not_imp] at late
      obtain ⟨limit, room, accepted, late⟩ := late
      rw [← bytes] at late
      rw [← canWrite_topUp_iff conn turn turn.blockNow] at room
      have call : (conn.sendTurn turn).2.1 = some ((conn.topUp turn.blockNow).write turn) := by
        rw [TcpClient.sendTurn, limit, if_neg Bool.false_ne_true]
        dsimp only
        rw [if_pos room, if_pos accepted]
      show ¬ IsStream settings (calls ++ (conn.sendTurn turn).2.1.toList)
      rw [call]
      exact (sends.topUp turn.blockNow).not_accepted late accepted room

end

/-! ## Runs -/

theorem writes_concat (trace : List (SendTurn × Option TcpWrite × Bool)) (turn : SendTurn)
    (output : Option TcpWrite × Bool) :
    writes (trace ++ [(turn, output)]) = writes trace ++ output.1.toList := by
  rw [writes, List.filterMap_append]
  obtain ⟨call, sendMore⟩ := output
  cases call <;> rfl

section

variable {settings : Table UInt8 settingsLen} {ipv6 : Bool} {targetBw started blockStarted : UInt32}
  {conn : TcpClient}

theorem sendsStream_start
    (start : iperfTxStart settings ipv6 targetBw started blockStarted = some conn) :
    SendsStream settings [] (some conn) := by
  obtain ⟨session, accepted, rfl⟩ := Option.map_eq_some_iff.mp start
  rw [iperfTxStartImpl, Option.ite_none_left_eq_some] at accepted
  obtain rfl := Option.some.inj accepted.2
  refine ⟨⟨rfl, nofun⟩, ?_⟩
  rintro _ ⟨⟩
  exact ⟨rfl, ⟨ipv6, rfl⟩, rfl, Nat.succ_pos _⟩

theorem sendsStream_run (init : SendsStream settings [] (some conn)) {turns : List SendTurn}
    (early : tcpClient.Guarded (fun _ => WritesEarly) (some conn) turns) :
    SendsStream settings (writes (tcpClient.trace (some conn) turns))
      (tcpClient.exec (some conn) turns) := by
  refine tcpClient.exec_guarded (P := fun tr s => SendsStream settings (writes tr) s) init ?_ early
  intro tr s turn sends early
  rw [writes_concat]
  exact sends.next early

theorem isStream_run_iff (init : SendsStream settings [] (some conn)) (turns : List SendTurn) :
    IsStream settings (writes (tcpClient.trace (some conn) turns)) ↔
      tcpClient.Guarded (fun _ => WritesEarly) (some conn) turns := by
  refine ⟨fun stream => ?_, fun early => (sendsStream_run init early).stream⟩
  induction turns using List.reverseRecOn with
  | nil => exact tcpClient.guarded_nil
  | append_singleton turns turn ih =>
      rw [Machine.trace_concat, writes_concat] at stream
      have early := ih stream.of_append
      refine early.concat tcpClient ?_
      by_contra late
      exact (sendsStream_run init early).not_next late stream

/-- **When a client sends the stream**: the bytes that a session hands to TCP are the settings twice
and the digits, from slices inside their sources, if and only if no write is accepted behind 2 ^ 32
bytes. -/
theorem isStream_iff
    (start : iperfTxStart settings ipv6 targetBw started blockStarted = some conn)
    (turns : List SendTurn) :
    IsStream settings (writes (tcpClient.trace (some conn) turns)) ↔
      tcpClient.Guarded (fun _ => WritesEarly) (some conn) turns :=
  isStream_run_iff (sendsStream_start start) turns

end

/-- The settings of a session of 100 minutes. -/
def longSettings : Table UInt8 settingsLen := ⟨List.replicate 20 0 ++ [0xff, 0xf6, 0xd8, 0x40], rfl⟩

/-- Its client, without a bandwidth limit. -/
def longClient : TcpClient where
  settings := longSettings
  mss := 1460
  timeStartedMs := 0
  bytesTransferred := 0
  bwLimit := false
  blockEndTime := 200
  blockTxlen := 0
  blockRemainingTxlen := 0

/-- The settings in two parts, a refusal, and some digits. -/
theorem isStream_iff_parts :
    IsStream longSettings (writes (tcpClient.trace (some longClient)
      [⟨1, 1, 2000, true, true⟩, ⟨2, 2, 900, true, false⟩, ⟨3, 3, 800, true, true⟩,
        ⟨4, 4, 100, true, true⟩, ⟨5, 5, 2000, true, true⟩])) := by
  have start : iperfTxStart longSettings false 0 0 0 = some longClient := rfl
  exact (isStream_iff start _).mpr (by decide)

/-- A segment of 1460 bytes every other millisecond. -/
def steadyTurn (k : ℕ) : SendTurn := ⟨UInt32.ofNat (2 * k), UInt32.ofNat (2 * k), 65535, true, true⟩

def steadyTurns (n : ℕ) : List SendTurn := (List.range n).map steadyTurn

/-- The client of the session after some turns. -/
def Steady (n : ℕ) (s : Option TcpClient) : Prop :=
  ∃ conn, s = some conn ∧ conn.settings = longSettings ∧ conn.mss = 1460 ∧
    conn.timeStartedMs = 0 ∧ conn.bwLimit = false ∧
      conn.bytesTransferred.toNat = 1460 * n - 2896

theorem limitReached_steady {conn : TcpClient} (settings : conn.settings = longSettings)
    (started : conn.timeStartedMs = 0) {n : ℕ} (inside : 2 * n < 6000000) :
    conn.limitReached (steadyTurn n).now = false := by
  have amount : conn.amount = 4294367296 := by
    rw [TcpSession.amount, settings]
    decide
  have timeLimited : conn.TimeLimited := by
    rw [TcpSession.TimeLimited, amount]
    decide
  have now : (UInt32.ofNat (2 * n) - 0).toNat = 2 * n := by
    rw [UInt32.sub_zero, UInt32.toNat_ofNat']
    omega
  rw [TcpSession.limitReached, if_pos timeLimited, amount, started, decide_eq_false_iff_not,
    ge_iff_le, UInt32.le_iff_toNat_le]
  show ¬ 6000000 ≤ (UInt32.ofNat (2 * n) - 0).toNat
  omega

/-- A whole segment, behind the settings and the first segment. -/
theorem txlenMax_steady {conn : TcpClient} (mss : conn.mss = 1460)
    (behind : 48 < conn.bytesTransferred.toNat) : conn.txlenMax = 1460 := by
  have first : ¬ conn.bytesTransferred < 24 := by
    rw [UInt64.lt_iff_toNat_lt]
    show ¬ conn.bytesTransferred.toNat < 24
    omega
  have second : ¬ conn.bytesTransferred < 48 := by
    rw [UInt64.lt_iff_toNat_lt]
    show ¬ conn.bytesTransferred.toNat < 48
    omega
  have third : conn.bytesTransferred ≠ 48 := by
    intro same
    rw [same] at behind
    exact absurd behind (by decide)
  rw [TcpSession.txlenMax, if_neg first, if_neg second, if_neg third, mss]
  rfl

theorem canWrite_steady {conn : TcpClient} (mss : conn.mss = 1460) (n : ℕ) :
    conn.CanWrite (steadyTurn n) := by
  have half : (1460 / 2 : UInt32).toNat = 730 := by decide
  rw [TcpClient.CanWrite, mss, half]
  refine ⟨?_, rfl⟩
  show 730 ≤ 65535
  omega

/-- What an accepted write does not change. -/
theorem count_eq (conn : TcpClient) (txlen : UInt16) :
    (conn.count txlen).settings = conn.settings ∧ (conn.count txlen).mss = conn.mss ∧
      (conn.count txlen).timeStartedMs = conn.timeStartedMs ∧
        (conn.count txlen).bwLimit = conn.bwLimit :=
  ⟨rfl, rfl, rfl, rfl⟩

theorem Steady.next {n : ℕ} {s : Option TcpClient} (steady : Steady n s) (behind : 3 ≤ n)
    (inside : 2 * n < 6000000) : Steady (n + 1) (tcpClient.step s (steadyTurn n)).1 := by
  obtain ⟨conn, rfl, settings, mss, started, unlimited, bytes⟩ := steady
  have topUp : conn.topUp (steadyTurn n).blockNow = conn := by
    rw [TcpClient.topUp, unlimited, if_neg]
    exact fun limited => Bool.false_ne_true limited.1
  have txlen : conn.txlen (steadyTurn n).sndBuf = 1460 := by
    rw [TcpClient.txlen, txlenMax_steady mss (by omega)]
    apply if_neg
    show ¬ 1460 > 65535
    omega
  have turn : (conn.sendTurn (steadyTurn n)).1 = some (conn.count 1460) := by
    rw [TcpClient.sendTurn, limitReached_steady settings started inside,
      if_neg Bool.false_ne_true, topUp]
    dsimp only
    rw [if_pos (canWrite_steady mss n), if_pos (show (steadyTurn n).accepted = true from rfl),
      txlen]
  obtain ⟨sameSettings, sameMss, sameStarted, sameLimit⟩ := count_eq conn 1460
  refine ⟨conn.count 1460, turn, sameSettings.trans settings, sameMss.trans mss,
    sameStarted.trans started, sameLimit.trans unlimited, ?_⟩
  have segment : (1460 : UInt16).toUInt64.toNat = 1460 := rfl
  rw [TcpClient.count, UInt64.toNat_add, segment]
  omega

theorem steady_exec {n : ℕ} (behind : 3 ≤ n) (inside : 2 * n < 6000000) :
    Steady n (tcpClient.exec (some longClient) (steadyTurns n)) := by
  induction n, behind using Nat.le_induction with
  | base => exact ⟨_, rfl, rfl, rfl, rfl, rfl, rfl⟩
  | succ n behind ih =>
      rw [steadyTurns, List.range_succ, List.map_append, List.map_singleton, Machine.exec_concat]
      exact (ih (by omega)).next behind (by omega)

theorem not_early_steady {n : ℕ} (inside : 2 * n < 6000000) (late : 4294967296 ≤ 1460 * n - 2896) :
    ¬ tcpClient.Guarded (fun _ => WritesEarly) (some longClient) (steadyTurns (n + 1)) := by
  intro early
  rw [steadyTurns, List.range_succ, List.map_append, List.map_singleton,
    Machine.guarded_concat_iff] at early
  obtain ⟨conn, reached, settings, mss, started, -, bytes⟩ :=
    steady_exec (n := n) (by omega) inside
  have last : WritesEarly (tcpClient.exec (some longClient) (steadyTurns n)) (steadyTurn n) :=
    early.2
  rw [reached] at last
  have below := last (limitReached_steady settings started inside) (canWrite_steady mss n) rfl
  have below : conn.bytesTransferred.toNat < 4294967296 := UInt64.lt_iff_toNat_lt.mp below
  omega

/-- **A session that sends 4 GiB**: in 98 minutes at 5.8 Mbit/s the digits begin again at the wrong
one. -/
theorem not_isStream_steady : ¬ ∀ (settings : Table UInt8 settingsLen) (ipv6 : Bool)
    (targetBw started blockStarted : UInt32) (conn : TcpClient) (turns : List SendTurn),
      iperfTxStart settings ipv6 targetBw started blockStarted = some conn →
        IsStream settings (writes (tcpClient.trace (some conn) turns)) := by
  intro always
  have start : iperfTxStart longSettings false 0 0 0 = some longClient := rfl
  have stream := always longSettings false 0 0 0 longClient (steadyTurns (2941761 + 1)) start
  rw [isStream_run_iff (sendsStream_start start)] at stream
  exact not_early_steady (n := 2941761) (by omega) (by omega) stream

end HalowBridge.Iperf
