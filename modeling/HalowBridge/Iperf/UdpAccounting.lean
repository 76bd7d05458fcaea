import HalowBridge.Iperf.UdpServer
import Mathlib.Order.Lattice

/-!
# Lost and repeated datagrams

The lwIP server counts the datagrams of a session (`rx_frames`), those whose number is behind the
next one (`out_of_sequence_frames`) and the numbers that were skipped (`error_count`). Whatever is
lost, repeated or reordered, the three counters add up to the numbers up to the largest one that was
seen. `session_accounts` proves it for every session up to its final datagram, and that the final
datagram closes the books: one report to the user, the same answer to every further final datagram,
and counters that stay as they are.

A session begins at a datagram that finds none of its own and none that is active (`Starts`), and it
lasts until the next datagram of this kind.
-/

namespace HalowBridge.Iperf

/-! ## What a session should count -/

/-- The size of the number in the header. -/
def Datagram.number (d : Datagram) (version : IperfVersion) : ℕ :=
  (d.signedId version).toInt.natAbs

/-- A datagram of a client that is long enough to count. -/
def Datagram.Of (d : Datagram) (client : Client) : Prop := d.Complete ∧ d.client = client

instance (d : Datagram) (client : Client) : Decidable (d.Of client) :=
  inferInstanceAs (Decidable (_ ∧ _))

/-- The datagrams of a client. -/
def ofClient (client : Client) (datagrams : List Datagram) : List Datagram :=
  datagrams.filter fun d => decide (d.Of client)

section

variable (version : IperfVersion)

/-- The datagrams up to the first final one, and that one. -/
def upToFinal : List Datagram → List Datagram
  | [] => []
  | d :: datagrams => if d.finalPacket version then [d] else d :: upToFinal datagrams

/-- The largest number. -/
def largest : List Datagram → ℕ
  | [] => 0
  | d :: datagrams => max (d.number version) (largest datagrams)

/-- The number behind the largest one, and zero without datagrams. -/
def nextNumber : List Datagram → ℕ
  | [] => 0
  | d :: datagrams => max (d.number version + 1) (nextNumber datagrams)

end

/-- The bytes of all datagrams. -/
def totalLength : List Datagram → ℕ
  | [] => 0
  | d :: datagrams => d.payload.length + totalLength datagrams

/-- The datagram begins a session. -/
def Starts (s : UdpServer Client) (d : Datagram) : Prop :=
  d.Complete ∧ ¬ (s.client = d.client ∧ s.hasTimedOut d.now = false) ∧
    ¬ (s.nextPacketId ≥ 0 ∧ s.hasTimedOut d.now = false)

instance (s : UdpServer Client) (d : Datagram) : Decidable (Starts s d) :=
  inferInstanceAs (Decidable (_ ∧ _))

/-- The reports that were handed to the user. -/
def callbacks (tr : List (Datagram × UdpOutput)) : List MmiperfReport :=
  tr.filterMap fun entry => entry.2.callback

/-- The final datagrams of the client were answered with the header they had and the server report
of the state `s`. -/
def Answered (version : IperfVersion) (client : Client) (tr : List (Datagram × UdpOutput))
    (s : UdpServer Client) : Prop :=
  ∀ d out, (d, out) ∈ tr → d.Of client → d.finalPacket version = true →
    out.reply = some (client, s.answer d)

/-- The books of a session of a client after a run: `counted` are its datagrams up to the final
one. -/
structure Accounts (args : UdpServerArgs) (client : Client) (tr : List (Datagram × UdpOutput))
    (s : UdpServer Client) : Prop where
  sequence : s.report.rxFrames - s.report.outOfSequenceFrames + s.report.errorCount =
    UInt32.ofNat (1 + largest args.version
      (upToFinal args.version (ofClient client (tr.map Prod.fst))))
  bytes : s.report.bytesTransferred = UInt64.ofNat (totalLength
    (upToFinal args.version (ofClient client (tr.map Prod.fst))))
  reported : (∃ d ∈ ofClient client (tr.map Prod.fst), d.finalPacket args.version = true) →
    callbacks tr = [s.report]
  unreported : (∀ d ∈ ofClient client (tr.map Prod.fst), d.finalPacket args.version = false) →
    callbacks tr = []
  answered : Lwip.ipAddrIsMulticast args.localAddr = false → Answered args.version client tr s
  unanswered : Lwip.ipAddrIsMulticast args.localAddr = true →
    ∀ entry ∈ tr, entry.2.reply = none

/-! ## Lists of datagrams -/

theorem ofClient_concat_of {client : Client} {d : Datagram} (own : d.Of client)
    (datagrams : List Datagram) :
    ofClient client (datagrams ++ [d]) = ofClient client datagrams ++ [d] := by
  rw [ofClient, List.filter_append, List.filter_singleton, decide_eq_true own]
  rfl

theorem ofClient_concat_of_not {client : Client} {d : Datagram} (other : ¬ d.Of client)
    (datagrams : List Datagram) :
    ofClient client (datagrams ++ [d]) = ofClient client datagrams := by
  rw [ofClient, List.filter_append, List.filter_singleton, decide_eq_false other]
  exact List.append_nil _

section

variable {version : IperfVersion}

theorem upToFinal_eq_self {datagrams : List Datagram}
    (unfinished : ∀ d ∈ datagrams, d.finalPacket version = false) :
    upToFinal version datagrams = datagrams := by
  induction datagrams with
  | nil => rfl
  | cons d datagrams ih =>
      rw [List.forall_mem_cons] at unfinished
      rw [upToFinal, unfinished.1, ih unfinished.2]
      rfl

theorem upToFinal_append {datagrams : List Datagram}
    (finished : ∃ d ∈ datagrams, d.finalPacket version = true) (more : List Datagram) :
    upToFinal version (datagrams ++ more) = upToFinal version datagrams := by
  induction datagrams with
  | nil =>
      obtain ⟨_, member, _⟩ := finished
      cases member
  | cons d datagrams ih =>
      rw [List.cons_append, upToFinal, upToFinal]
      cases final : d.finalPacket version with
      | true => rfl
      | false =>
          obtain ⟨e, member, isFinal⟩ := finished
          rcases List.mem_cons.mp member with rfl | tail
          · rw [final] at isFinal
            cases isFinal
          · rw [ih ⟨e, tail, isFinal⟩]

/-- A datagram behind others none of which is final. -/
theorem upToFinal_concat {datagrams : List Datagram}
    (unfinished : ∀ d ∈ datagrams, d.finalPacket version = false) (d : Datagram) :
    upToFinal version (datagrams ++ [d]) = datagrams ++ [d] := by
  induction datagrams with
  | nil =>
      rw [List.nil_append, upToFinal, upToFinal, ite_self]
  | cons e datagrams ih =>
      rw [List.forall_mem_cons] at unfinished
      rw [List.cons_append, upToFinal, unfinished.1, ih unfinished.2]
      rfl

theorem nextNumber_concat (datagrams : List Datagram) (d : Datagram) :
    nextNumber version (datagrams ++ [d]) =
      max (nextNumber version datagrams) (d.number version + 1) := by
  induction datagrams with
  | nil =>
      rw [List.nil_append, nextNumber, nextNumber]
      exact Nat.max_comm _ _
  | cons e datagrams ih => rw [List.cons_append, nextNumber, nextNumber, ih, Nat.max_assoc]

theorem nextNumber_eq {datagrams : List Datagram} (nonempty : datagrams ≠ []) :
    nextNumber version datagrams = 1 + largest version datagrams := by
  induction datagrams with
  | nil => exact absurd rfl nonempty
  | cons d datagrams ih =>
      rw [nextNumber, largest]
      cases datagrams with
      | nil =>
          rw [nextNumber, largest]
          omega
      | cons e datagrams =>
          rw [ih (List.cons_ne_nil _ _)]
          omega

end

theorem totalLength_concat (datagrams : List Datagram) (d : Datagram) :
    totalLength (datagrams ++ [d]) = totalLength datagrams + d.payload.length := by
  induction datagrams with
  | nil =>
      rw [List.nil_append, totalLength, totalLength]
      exact Nat.add_comm _ _
  | cons e datagrams ih => rw [List.cons_append, totalLength, totalLength, ih, Nat.add_assoc]

/-! ## Numbers -/

section

variable {packetId : Int64} {next : Int32} {k m : ℕ}

/-- Which numbers leave room for the next one in `next_packet_id`. -/
theorem toInt_next_iff (value : packetId.toInt = k) (small : k < 9223372036854775807) :
    (packetId + 1).toInt32.toInt = ((k + 1 : ℕ) : ℤ) ↔ k ≤ 2147483646 := by
  have sum : (packetId + 1).toInt = (k : ℤ) + 1 := by
    rw [Int64.toInt_add, value]
    exact Int.bmod_eq_of_le (by simp only [Int64.reduceToInt]; omega)
      (by simp only [Int64.reduceToInt]; omega)
  rw [Int64.toInt_toInt32, sum]
  constructor
  · intro same
    have below : ((k : ℤ) + 1).bmod (2 ^ 32) < (2 ^ 32 + 1) / 2 := Int.bmod_lt (by decide)
    omega
  · intro le
    rw [Int.bmod_eq_of_le (by omega) (by omega)]
    omega

/-- The numbers that were skipped, in 32 bits. -/
theorem skipped_eq (value : packetId.toInt = k) (nextValue : next.toInt = m) :
    (packetId - next.toInt64).toUInt64.toUInt32 = UInt32.ofNat k - UInt32.ofNat m := by
  have first : packetId = Int64.ofNat k := by
    rw [← Int64.ofInt_toInt packetId, value]
    rfl
  have second : next.toInt64 = Int64.ofNat m := by
    rw [← Int64.ofInt_toInt next.toInt64, Int32.toInt_toInt64, nextValue]
    rfl
  rw [first, second, Int64.toUInt64_sub, UInt64.toUInt32_sub, Int64.toUInt64_ofNat',
    Int64.toUInt64_ofNat', UInt64.toUInt32_ofNat', UInt64.toUInt32_ofNat']

theorem lt_next_iff (value : packetId.toInt = k) (nextValue : next.toInt = m) :
    packetId < next.toInt64 ↔ k < m := by
  rw [Int64.lt_iff_toInt_lt, Int32.toInt_toInt64, value, nextValue, Int.ofNat_lt]

theorem next_lt_iff (value : packetId.toInt = k) (nextValue : next.toInt = m) :
    next.toInt64 < packetId ↔ m < k := by
  rw [Int64.lt_iff_toInt_lt, Int32.toInt_toInt64, value, nextValue, Int.ofNat_lt]

theorem next_le_iff (value : packetId.toInt = k) (nextValue : next.toInt = m) :
    next.toInt64 ≤ packetId ↔ m ≤ k := by
  rw [Int64.le_iff_toInt_le, Int32.toInt_toInt64, value, nextValue, Int.ofNat_le]

end

theorem finalPacket_iff {d : Datagram} {version : IperfVersion} :
    d.finalPacket version = true ↔ (d.signedId version).toInt < 0 := by
  rw [Datagram.finalPacket, decide_eq_true_iff, Int64.lt_iff_toInt_lt, Int64.toInt_zero]

theorem toInt_packetId {d : Datagram} {version : IperfVersion}
    (small : d.number version < 9223372036854775808) :
    (d.packetId version).toInt = (d.number version : ℤ) := by
  unfold Datagram.number at small ⊢
  unfold Datagram.packetId
  by_cases final : d.finalPacket version = true
  · have negative := finalPacket_iff.mp final
    rw [if_pos final, Int64.toInt_neg, Int.bmod_eq_of_le (by omega) (by omega)]
    omega
  · have nonnegative := mt finalPacket_iff.mpr final
    rw [if_neg final]
    omega

/-! ## One datagram of the session -/

/-- The three counters add up to the next number. -/
def Balanced (s : UdpServer Client) (next : ℕ) : Prop :=
  s.report.rxFrames - s.report.outOfSequenceFrames + s.report.errorCount = UInt32.ofNat next

theorem update_of_neg {s : UdpServer Client} (closed : s.nextPacketId < 0) (d : Datagram)
    (packetId : Int64) : s.update d packetId = s := by
  rw [UdpServer.update, if_neg (Int32.not_le.mpr closed)]

theorem finish_of_neg {s : UdpServer Client} (closed : s.nextPacketId < 0) :
    s.finish = (s, none) := by
  rw [UdpServer.finish, if_neg (Int32.not_le.mpr closed)]

section

variable {s : UdpServer Client} {d : Datagram} {version : IperfVersion} {next : ℕ}

theorem nonneg_of_toInt (value : s.nextPacketId.toInt = next) : s.nextPacketId ≥ 0 := by
  show (0 : Int32) ≤ s.nextPacketId
  rw [Int32.le_iff_toInt_le, value, Int32.toInt_zero]
  exact Int.natCast_nonneg next

/-- The next number after a datagram. -/
theorem toInt_nextPacketId_update (value : s.nextPacketId.toInt = next)
    (small : d.number version ≤ 2147483646) :
    (s.update d (d.packetId version)).nextPacketId.toInt =
      ((max next (d.number version + 1) : ℕ) : ℤ) := by
  have number : (d.packetId version).toInt = (d.number version : ℤ) := toInt_packetId (by omega)
  rw [UdpServer.update, if_pos (nonneg_of_toInt value)]
  show (if d.packetId version ≥ s.nextPacketId.toInt64 then (d.packetId version + 1).toInt32
    else s.nextPacketId).toInt = _
  by_cases reaches : next ≤ d.number version
  · rw [if_pos ((next_le_iff number value).mpr reaches),
      (toInt_next_iff number (by omega)).mpr small, Nat.max_eq_right (by omega)]
  · rw [if_neg (mt (next_le_iff number value).mp reaches), value, Nat.max_eq_left (by omega)]

/-- The counters after a datagram: one behind is out of sequence, what was skipped is missing. -/
theorem balanced_update (value : s.nextPacketId.toInt = next)
    (small : d.number version ≤ 2147483646) (balanced : Balanced s next) :
    Balanced (s.update d (d.packetId version)) (max next (d.number version + 1)) := by
  have number : (d.packetId version).toInt = (d.number version : ℤ) := toInt_packetId (by omega)
  unfold Balanced at balanced ⊢
  rw [UdpServer.update, if_pos (nonneg_of_toInt value)]
  show s.report.rxFrames + 1 -
      (if d.packetId version < s.nextPacketId.toInt64 then s.report.outOfSequenceFrames + 1
        else s.report.outOfSequenceFrames) +
      (if d.packetId version > s.nextPacketId.toInt64 then
        s.report.errorCount + (d.packetId version - s.nextPacketId.toInt64).toUInt64.toUInt32
      else s.report.errorCount) = _
  rw [skipped_eq number value]
  rcases Nat.lt_trichotomy (d.number version) next with behind | same | ahead
  · rw [if_pos ((lt_next_iff number value).mpr behind),
      if_neg (mt (next_lt_iff number value).mp (by omega)), Nat.max_eq_left (by omega)]
    grind
  · rw [if_neg (mt (lt_next_iff number value).mp (by omega)),
      if_neg (mt (next_lt_iff number value).mp (by omega)), Nat.max_eq_right (by omega), same,
      UInt32.ofNat_add]
    grind
  · rw [if_neg (mt (lt_next_iff number value).mp (by omega)),
      if_pos ((next_lt_iff number value).mpr ahead), Nat.max_eq_right (by omega),
      UInt32.ofNat_add]
    grind

/-- The counters of a session that has counted `own`. -/
structure Tally (version : IperfVersion) (client : Client) (own : List Datagram)
    (s : UdpServer Client) : Prop where
  client_eq : s.client = client
  balanced : Balanced s (nextNumber version own)
  bytes : s.report.bytesTransferred = UInt64.ofNat (totalLength own)

theorem Tally.update {client : Client} {own : List Datagram} (tally : Tally version client own s)
    (value : s.nextPacketId.toInt = nextNumber version own)
    (small : d.number version ≤ 2147483646) :
    Tally version client (own ++ [d]) (s.update d (d.packetId version)) := by
  refine ⟨?_, ?_, ?_⟩
  · rw [UdpServer.update, if_pos (nonneg_of_toInt value)]
    exact tally.client_eq
  · rw [nextNumber_concat]
    exact balanced_update value small tally.balanced
  · rw [UdpServer.update, if_pos (nonneg_of_toInt value), totalLength_concat, UInt64.ofNat_add,
      ← tally.bytes]
    rfl

theorem finish_of_nonneg (active : s.nextPacketId ≥ 0) :
    s.finish.2 = some s.finish.1.report ∧ s.finish.1.nextPacketId < 0 := by
  have ended : (-1 : Int32) < 0 := by decide
  rw [UdpServer.finish, if_pos active]
  exact ⟨rfl, ended⟩

theorem Tally.finish {client : Client} {own : List Datagram}
    (tally : Tally version client own s) : Tally version client own s.finish.1 := by
  unfold UdpServer.finish
  split
  · refine ⟨tally.client_eq, ?_, ?_⟩
    · have balanced := tally.balanced
      unfold Balanced at balanced ⊢
      simpa using balanced
    · simpa using tally.bytes
  · exact tally

end

/-! ## The books of a session -/

/-- What the server does with a datagram once it has the session. -/
def receive (args : UdpServerArgs) (session : UdpServer Client) (d : Datagram) :
    UdpServer Client × UdpOutput :=
  let s := session.update d (d.packetId args.version)
  if d.finalPacket args.version then
    (s.finish.1, ⟨s.finish.2, Lwip.iperfUdpServerHandleFinalPacket args s.finish.1 d⟩)
  else (s, silent)

/-- The answer that is due for a datagram when the session stands at `s`. -/
def replyDue (args : UdpServerArgs) (client : Client) (s : UdpServer Client) (d : Datagram) :
    Option (Client × List UInt8) :=
  if d.Of client ∧ d.finalPacket args.version = true ∧
    Lwip.ipAddrIsMulticast args.localAddr = false then some (client, s.answer d) else none

/-- The session is open, and no final datagram has come. -/
structure Open (args : UdpServerArgs) (own : List Datagram) (s : UdpServer Client)
    (reports : List MmiperfReport) : Prop where
  unfinished : ∀ d ∈ own, d.finalPacket args.version = false
  next : s.nextPacketId.toInt = nextNumber args.version own
  reports : reports = []

/-- The session is closed, and its report was handed out. -/
structure Closed (args : UdpServerArgs) (own : List Datagram) (s : UdpServer Client)
    (reports : List MmiperfReport) : Prop where
  finished : ∃ d ∈ own, d.finalPacket args.version = true
  next : s.nextPacketId < 0
  reports : reports = [s.report]

/-- **The books of a session**, from its start to its end and after it. -/
structure Books (args : UdpServerArgs) (client : Client) (tr : List (Datagram × UdpOutput))
    (s : UdpServer Client) : Prop where
  tally : Tally args.version client
    (upToFinal args.version (ofClient client (tr.map Prod.fst))) s
  phase : Open args (ofClient client (tr.map Prod.fst)) s (callbacks tr) ∨
    Closed args (ofClient client (tr.map Prod.fst)) s (callbacks tr)
  replies : ∀ entry ∈ tr, entry.2.reply = replyDue args client s entry.1

theorem callbacks_concat (tr : List (Datagram × UdpOutput)) (entry : Datagram × UdpOutput) :
    callbacks (tr ++ [entry]) = callbacks tr ++ entry.2.callback.toList := by
  rw [callbacks, List.filterMap_append, callbacks]
  cases here : entry.2.callback <;> simp [here]

section

variable {args : UdpServerArgs} {client : Client} {tr : List (Datagram × UdpOutput)}
  {s : UdpServer Client} {d : Datagram}

/-- A session that was just started has empty books. -/
theorem books_restart (s : UdpServer Client) (client : Client) (now : UInt32) :
    Books args client [] (s.restart client now) where
  tally := ⟨rfl, (rfl : (0 : UInt32) - 0 + 0 = UInt32.ofNat 0), rfl⟩
  phase := .inl ⟨fun _ member => absurd member List.not_mem_nil, rfl, rfl⟩
  replies := fun _ member => absurd member List.not_mem_nil

/-- A datagram that is not of the session does not enter the books. -/
theorem Books.other (books : Books args client tr s) (other : ¬ d.Of client) :
    Books args client (tr ++ [(d, silent)]) s := by
  have same : ofClient client ((tr ++ [(d, silent)]).map Prod.fst) =
      ofClient client (tr.map Prod.fst) := by
    rw [List.map_append]
    exact ofClient_concat_of_not other _
  have reports : callbacks (tr ++ [(d, silent)]) = callbacks tr := by
    rw [callbacks_concat]
    exact List.append_nil _
  refine ⟨?_, ?_, ?_⟩
  · rw [same]
    exact books.tally
  · rw [same, reports]
    exact books.phase
  · refine List.forall_mem_append.mpr ⟨books.replies, List.forall_mem_singleton.mpr ?_⟩
    rw [replyDue, if_neg fun due => other due.1]
    rfl

/-- No answer was due before the final datagram, at any state. -/
theorem Books.replies_of_unfinished (books : Books args client tr s)
    (unfinished : ∀ d ∈ ofClient client (tr.map Prod.fst), d.finalPacket args.version = false)
    (s' : UdpServer Client) : ∀ entry ∈ tr, entry.2.reply = replyDue args client s' entry.1 := by
  intro entry member
  rw [books.replies entry member]
  unfold replyDue
  by_cases due : entry.1.Of client ∧ entry.1.finalPacket args.version = true ∧
    Lwip.ipAddrIsMulticast args.localAddr = false
  · have listed : entry.1 ∈ ofClient client (tr.map Prod.fst) :=
      List.mem_filter.mpr ⟨List.mem_map_of_mem member, decide_eq_true due.1⟩
    rw [unfinished _ listed] at due
    exact absurd due.2.1 Bool.false_ne_true
  · rw [if_neg due, if_neg due]

/-- The answer to a final datagram of the session. -/
theorem handleFinalPacket_eq (own : d.Of client) (final : d.finalPacket args.version = true)
    (s : UdpServer Client) :
    Lwip.iperfUdpServerHandleFinalPacket args s d = replyDue args client s d := by
  unfold Lwip.iperfUdpServerHandleFinalPacket replyDue
  rw [own.2]
  cases multicast : Lwip.ipAddrIsMulticast args.localAddr <;> simp [own, final]

theorem replyDue_of_not_final (notFinal : d.finalPacket args.version = false)
    (s : UdpServer Client) : replyDue args client s d = none := by
  rw [replyDue, if_neg]
  rintro ⟨-, final, -⟩
  rw [notFinal] at final
  cases final

/-- A closed session answers and changes nothing. -/
theorem receive_of_neg (closed : s.nextPacketId < 0) (own : d.Of client) :
    receive args s d = (s, ⟨none, replyDue args client s d⟩) := by
  simp only [receive, update_of_neg closed, finish_of_neg closed]
  cases final : d.finalPacket args.version with
  | true =>
      rw [if_pos rfl, handleFinalPacket_eq own final]
  | false =>
      rw [replyDue_of_not_final final]
      rfl

/-- A datagram of an open session: it is counted, and a final one closes the session. -/
theorem Books.receive_open (books : Books args client tr s)
    (isOpen : Open args (ofClient client (tr.map Prod.fst)) s (callbacks tr)) (own : d.Of client)
    (small : d.number args.version ≤ 2147483646) :
    Books args client (tr ++ [(d, (receive args s d).2)]) (receive args s d).1 := by
  obtain ⟨unfinished, next, noReports⟩ := isOpen
  have listed : ofClient client ((tr ++ [(d, (receive args s d).2)]).map Prod.fst) =
      ofClient client (tr.map Prod.fst) ++ [d] := by
    rw [List.map_append]
    exact ofClient_concat_of own _
  have tally := books.tally
  rw [upToFinal_eq_self unfinished] at tally
  have counted := tally.update next small
  have nextUpdate := toInt_nextPacketId_update next small
  rw [← nextNumber_concat] at nextUpdate
  have earlier := books.replies_of_unfinished unfinished
  cases final : d.finalPacket args.version with
  | false =>
      have received : receive args s d = (s.update d (d.packetId args.version), silent) := by
        simp only [receive, final, Bool.false_eq_true, if_false]
      have stillUnfinished : ∀ e ∈ ofClient client (tr.map Prod.fst) ++ [d],
          e.finalPacket args.version = false :=
        List.forall_mem_append.mpr ⟨unfinished, List.forall_mem_singleton.mpr final⟩
      rw [received] at listed ⊢
      refine ⟨?_, .inl ?_, ?_⟩
      · rw [listed, upToFinal_concat unfinished]
        exact counted
      · rw [listed, callbacks_concat, noReports]
        exact ⟨stillUnfinished, nextUpdate, rfl⟩
      · refine List.forall_mem_append.mpr ⟨earlier _, List.forall_mem_singleton.mpr ?_⟩
        rw [replyDue_of_not_final final]
        rfl
  | true =>
      obtain ⟨handed, closed⟩ := finish_of_nonneg (nonneg_of_toInt nextUpdate)
      have received : receive args s d =
          ((s.update d (d.packetId args.version)).finish.1,
            ⟨some (s.update d (d.packetId args.version)).finish.1.report,
              replyDue args client (s.update d (d.packetId args.version)).finish.1 d⟩) := by
        simp only [receive, final, if_true, handed, handleFinalPacket_eq own final]
      rw [received] at listed ⊢
      refine ⟨?_, .inr ?_, ?_⟩
      · rw [listed, upToFinal_concat unfinished]
        exact counted.finish
      · rw [listed, callbacks_concat, noReports]
        exact ⟨⟨d, List.mem_append_right _ List.mem_cons_self, final⟩, closed, rfl⟩
      · exact List.forall_mem_append.mpr ⟨earlier _, List.forall_mem_singleton.mpr rfl⟩

/-- A datagram of a closed session: nothing changes, and a final one is answered again. -/
theorem Books.receive_closed (books : Books args client tr s)
    (closed : Closed args (ofClient client (tr.map Prod.fst)) s (callbacks tr))
    (own : d.Of client) :
    Books args client (tr ++ [(d, (receive args s d).2)]) (receive args s d).1 := by
  obtain ⟨finished, next, reports⟩ := closed
  rw [receive_of_neg next own]
  have listed : ofClient client ((tr ++ [(d, (⟨none, replyDue args client s d⟩ : UdpOutput))]).map
      Prod.fst) = ofClient client (tr.map Prod.fst) ++ [d] := by
    rw [List.map_append]
    exact ofClient_concat_of own _
  have stillFinished : ∃ e ∈ ofClient client (tr.map Prod.fst) ++ [d],
      e.finalPacket args.version = true := by
    obtain ⟨e, member, final⟩ := finished
    exact ⟨e, List.mem_append_left _ member, final⟩
  refine ⟨?_, .inr ?_, ?_⟩
  · rw [listed, upToFinal_append finished]
    exact books.tally
  · rw [listed, callbacks_concat, reports]
    exact ⟨stillFinished, next, rfl⟩
  · exact List.forall_mem_append.mpr ⟨books.replies, List.forall_mem_singleton.mpr rfl⟩

/-- A finished session is closed. -/
theorem Books.closed (books : Books args client tr s)
    (finished : ∃ d ∈ ofClient client (tr.map Prod.fst), d.finalPacket args.version = true) :
    Closed args (ofClient client (tr.map Prod.fst)) s (callbacks tr) := by
  refine books.phase.resolve_left fun isOpen => ?_
  obtain ⟨d, member, final⟩ := finished
  rw [isOpen.unfinished d member] at final
  cases final

theorem upToFinal_ne_nil {version : IperfVersion} {datagrams : List Datagram}
    (nonempty : datagrams ≠ []) : upToFinal version datagrams ≠ [] := by
  cases datagrams with
  | nil => exact absurd rfl nonempty
  | cons d datagrams =>
      rw [upToFinal]
      split <;> exact List.cons_ne_nil _ _

theorem Books.accounts (books : Books args client tr s)
    (nonempty : ofClient client (tr.map Prod.fst) ≠ []) : Accounts args client tr s where
  sequence := by
    rw [← nextNumber_eq (upToFinal_ne_nil nonempty)]
    exact books.tally.balanced
  bytes := books.tally.bytes
  reported := fun finished => (books.closed finished).reports
  unreported := fun unfinished => by
    rcases books.phase with isOpen | ⟨⟨d, member, final⟩, -⟩
    · exact isOpen.reports
    · rw [unfinished d member] at final
      cases final
  answered := fun unicast d out member own final => by
    rw [books.replies _ member, replyDue, if_pos ⟨own, final, unicast⟩]
  unanswered := fun multicast entry member => by
    rw [books.replies _ member, replyDue, if_neg]
    rw [multicast]
    exact fun due => Bool.false_ne_true due.2.2.symm

theorem Books.receive (books : Books args client tr s) (own : d.Of client)
    (small : d.number args.version ≤ 2147483646) :
    Books args client (tr ++ [(d, (receive args s d).2)]) (receive args s d).1 := by
  rcases books.phase with isOpen | closed
  · exact books.receive_open isOpen own small
  · exact books.receive_closed closed own

end

/-! ## Sessions -/

section

variable {args : UdpServerArgs} {s : UdpServer Client} {d : Datagram}

/-- The first datagram of a session. -/
theorem recv_of_starts (starts : Starts s d) :
    Lwip.iperfUdpServerRecv args s d = receive args (s.restart d.client d.now) d := by
  obtain ⟨complete, unknown, idle⟩ := starts
  rw [Lwip.iperfUdpServerRecv, if_pos complete, Lwip.getSession, if_neg unknown,
    Lwip.udpServerStartSession, if_neg idle]
  rfl

/-- A later datagram of the session. -/
theorem recv_of_own (continues : ¬ Starts s d) (own : d.Of s.client) :
    Lwip.iperfUdpServerRecv args s d = receive args s d := by
  obtain ⟨complete, same⟩ := own
  have known : s.client = d.client ∧ s.hasTimedOut d.now = false := by
    by_contra unknown
    refine continues ⟨complete, unknown, fun active => unknown ⟨same.symm, active.2⟩⟩
  rw [Lwip.iperfUdpServerRecv, if_pos complete, Lwip.getSession, if_pos known]
  rfl

/-- A datagram that is too short or is refused. -/
theorem recv_of_other (continues : ¬ Starts s d) (other : ¬ d.Of s.client) :
    Lwip.iperfUdpServerRecv args s d = (s, silent) := by
  by_cases complete : d.Complete
  · have unknown : ¬ (s.client = d.client ∧ s.hasTimedOut d.now = false) :=
      fun known => other ⟨complete, known.1.symm⟩
    have active : s.nextPacketId ≥ 0 ∧ s.hasTimedOut d.now = false := by
      by_contra idle
      exact continues ⟨complete, unknown, idle⟩
    rw [Lwip.iperfUdpServerRecv, if_pos complete, Lwip.getSession, if_neg unknown,
      Lwip.udpServerStartSession, if_pos active]
  · rw [Lwip.iperfUdpServerRecv, if_neg complete]

/-- The books of a session after any further datagrams that start no other one. -/
theorem books_of_run {first : Datagram} (starts : Starts s first) {rest : List Datagram}
    (oneSession : (Lwip.server args).Guarded (fun _ s d => ¬ Starts s d)
      ((Lwip.server args).step s first).1 rest)
    (small : ∀ d ∈ ofClient first.client (first :: rest), d.number args.version ≤ 2147483646) :
    Books args first.client ((Lwip.server args).trace s (first :: rest))
      ((Lwip.server args).exec s (first :: rest)) := by
  have firstOwn : first.Of first.client := ⟨starts.1, rfl⟩
  have bound {d : Datagram} (member : d ∈ first :: rest) (own : d.Of first.client) :
      d.number args.version ≤ 2147483646 :=
    small d (List.mem_filter.mpr ⟨member, decide_eq_true own⟩)
  have begun : Books args first.client [(first, ((Lwip.server args).step s first).2)]
      ((Lwip.server args).step s first).1 := by
    show Books args first.client [(first, (Lwip.iperfUdpServerRecv args s first).2)]
      (Lwip.iperfUdpServerRecv args s first).1
    rw [recv_of_starts starts]
    exact (books_restart s first.client first.now).receive firstOwn
      (bound List.mem_cons_self firstOwn)
  have guarded : (Lwip.server args).Guarded
      (fun _ s d => ¬ Starts s d ∧ (d.Of first.client → d.number args.version ≤ 2147483646))
      ((Lwip.server args).step s first).1 rest := fun before d here =>
    ⟨oneSession before d here, bound (List.mem_cons_of_mem _
      (here.subset (List.mem_append_right _ List.mem_cons_self)))⟩
  refine (Lwip.server args).exec_guarded (P := fun tr s => Books args first.client
    ((first, ((Lwip.server args).step _ first).2) :: tr) s) begun ?_ guarded
  rintro tr t d books ⟨continues, number⟩
  show Books args first.client (_ :: (tr ++ [(d, (Lwip.iperfUdpServerRecv args t d).2)]))
    (Lwip.iperfUdpServerRecv args t d).1
  rw [← List.cons_append]
  by_cases own : d.Of first.client
  · rw [recv_of_own continues (books.tally.client_eq ▸ own)]
    exact books.receive own (number own)
  · rw [recv_of_other continues (books.tally.client_eq ▸ own)]
    exact books.other own

/-- Nothing moves a closed session. -/
theorem recv_of_neg (closed : s.nextPacketId < 0) (continues : ¬ Starts s d) :
    (Lwip.iperfUdpServerRecv args s d).1 = s := by
  by_cases own : d.Of s.client
  · rw [recv_of_own continues own, receive_of_neg closed own]
  · rw [recv_of_other continues own]

/-- **The books of every session balance**, whatever is lost, repeated or reordered: up to its final
datagram the counters add up to the numbers seen, which it then hands to the user once. After that
the server does not move, and answers every further final datagram with the same report, unless its
local address is a multicast one. -/
theorem session_accounts (args : UdpServerArgs) (s : UdpServer Client) (first : Datagram)
    (rest : List Datagram) (starts : Starts s first)
    (oneSession : (Lwip.server args).Guarded (fun _ s d => ¬ Starts s d)
      ((Lwip.server args).step s first).1 rest)
    (small : ∀ d ∈ ofClient first.client (first :: rest), d.number args.version ≤ 2147483646) :
    Accounts args first.client ((Lwip.server args).trace s (first :: rest))
        ((Lwip.server args).exec s (first :: rest)) ∧
      ∀ before, before <+: rest →
        (∃ d ∈ ofClient first.client (first :: before), d.finalPacket args.version = true) →
        (Lwip.server args).exec s (first :: rest) =
          (Lwip.server args).exec s (first :: before) := by
  have firstOwn : first.Of first.client := ⟨starts.1, rfl⟩
  constructor
  · refine (books_of_run starts oneSession small).accounts ?_
    rw [Machine.map_fst_trace]
    exact List.ne_nil_of_mem
      (List.mem_filter.mpr ⟨List.mem_cons_self, decide_eq_true firstOwn⟩)
  · rintro before ⟨more, rfl⟩ finished
    have le : first :: before <+: first :: (before ++ more) := List.prefix_append _ more
    have books := books_of_run starts
      (oneSession.of_prefix (Lwip.server args) (List.prefix_append before more))
      fun d member => small d ((le.filter _).subset member)
    have ended := (books.closed (by rwa [Machine.map_fst_trace])).next
    rw [← List.cons_append, Machine.exec_append]
    refine (Lwip.server args).exec_guarded (P := fun _ t => t = _) rfl ?_
      (oneSession.of_append (Lwip.server args))
    rintro tr t d rfl continues
    exact recv_of_neg ended continues

end

/-- A gap, a refused client, a repeated datagram and two final ones. -/
def gapAndRepeat : List Datagram :=
  [numbered (.v4 192 168 1 7) 0 2 11, numbered (.v4 192 168 1 8) 0 0 12,
    numbered (.v4 192 168 1 7) 0 2 13, numbered (.v4 192 168 1 7) 0xffffffff 0xfffffffd 14,
    numbered (.v4 192 168 1 7) 0xffffffff 0xfffffffd 15]

theorem session_accounts_gapAndRepeat :
    Accounts ⟨.v4 192 168 1 1, .v2_0_13⟩ ⟨.v4 192 168 1 7, 5001⟩
      ((Lwip.server ⟨.v4 192 168 1 1, .v2_0_13⟩).trace (startUdpServer Lwip.zeroClient)
        (numbered (.v4 192 168 1 7) 0 0 10 :: gapAndRepeat))
      ((Lwip.server ⟨.v4 192 168 1 1, .v2_0_13⟩).exec (startUdpServer Lwip.zeroClient)
        (numbered (.v4 192 168 1 7) 0 0 10 :: gapAndRepeat)) :=
  (session_accounts ⟨.v4 192 168 1 1, .v2_0_13⟩ (startUdpServer Lwip.zeroClient)
    (numbered (.v4 192 168 1 7) 0 0 10) gapAndRepeat (by decide +kernel) (by decide +kernel)
    (by decide +kernel)).1

/-- **A server on a multicast address answers no final datagram.** -/
theorem not_answered_multicast :
    Starts (startUdpServer Lwip.zeroClient) (numbered (.v4 192 168 1 7) 0 0 10) ∧
      (Lwip.server ⟨.v4 224 0 1 1, .v2_0_13⟩).Guarded (fun _ s d => ¬ Starts s d)
        ((Lwip.server ⟨.v4 224 0 1 1, .v2_0_13⟩).step (startUdpServer Lwip.zeroClient)
          (numbered (.v4 192 168 1 7) 0 0 10)).1 gapAndRepeat ∧
      ¬ Answered .v2_0_13 ⟨.v4 192 168 1 7, 5001⟩
        ((Lwip.server ⟨.v4 224 0 1 1, .v2_0_13⟩).trace (startUdpServer Lwip.zeroClient)
          (numbered (.v4 192 168 1 7) 0 0 10 :: gapAndRepeat))
        ((Lwip.server ⟨.v4 224 0 1 1, .v2_0_13⟩).exec (startUdpServer Lwip.zeroClient)
          (numbered (.v4 192 168 1 7) 0 0 10 :: gapAndRepeat)) := by
  refine ⟨by decide +kernel, by decide +kernel, fun answered => ?_⟩
  have reply := answered (numbered (.v4 192 168 1 7) 0xffffffff 0xfffffffd 15) ⟨none, none⟩
    (by decide +kernel) (by decide +kernel) (by decide +kernel)
  cases reply

end HalowBridge.Iperf
