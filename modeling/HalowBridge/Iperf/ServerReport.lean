import HalowBridge.Iperf.UdpClient

/-!
# The report a UDP server sends back

`iperf_populate_udp_server_report` writes the counters of a server into big-endian words, and
`iperf_parse_udp_server_report` takes them into the report of a client, where the header before them
has a number that is not positive. The durations are split into seconds and microseconds on the way.

`parse_populate` says that the counters and the duration come back as they were, for every state of
the server.
-/

namespace HalowBridge.Iperf

/-- `struct mmiperf_state`, as far as the reports of UDP need it. -/
structure MmiperfState where
  timeStartedMs : UInt32
  lastRxTimeMs : UInt32
  report : MmiperfReport
  deriving DecidableEq

/-- `iperf_populate_udp_server_report` -/
def MmiperfState.populate (s : MmiperfState) : List UInt8 :=
  populateUdpServerReport s.report s.lastRxTimeMs s.timeStartedMs

/-- The number in a header is positive, as `iperf_parse_udp_server_report` asks it. A word is zero
in any order of its bytes. -/
def notAReport (hdr : List UInt8) : IperfVersion → Bool
  | .v2_0_9 => (ntohl hdr 0).toInt32 > 0
  | .v2_0_13 => (ntohl hdr 12).toInt32 > 0 || (ntohl hdr 12 == 0 && ntohl hdr 0 != 0)

/-- `iperf_parse_udp_server_report` -/
def parseUdpServerReport (s : MmiperfState) (hdr report : List UInt8) (version : IperfVersion) :
    MmiperfState × Bool :=
  if notAReport hdr version then (s, false)
  else
    ({ s with
        report.bytesTransferred :=
          (ntohl report 4).toUInt64 <<< 32 ||| (ntohl report 8).toUInt64
        report.errorCount := ntohl report 20
        report.outOfSequenceFrames := ntohl report 24
        report.rxFrames := ntohl report 28
        report.durationMs := ntohl report 12 * 1000 + ntohl report 16 / 1000
        report.bandwidthKbitpsec := 0 }, true)

/-- The number in a header, as a signed one of 32 or 64 bits. -/
def headerId (hdr : List UInt8) : IperfVersion → ℤ
  | .v2_0_9 => (ntohl hdr 0).toInt32.toInt
  | .v2_0_13 => ((ntohl hdr 12).toUInt64 <<< 32 ||| (ntohl hdr 0).toUInt64).toInt64.toInt

/-- The client's state with the counters and the duration of the server. -/
def MmiperfState.withServer (client server : MmiperfState) : MmiperfState :=
  { client with
    report.bytesTransferred := server.report.bytesTransferred
    report.errorCount := server.report.errorCount
    report.outOfSequenceFrames := server.report.outOfSequenceFrames
    report.rxFrames := server.report.rxFrames
    report.durationMs := server.lastRxTimeMs - server.timeStartedMs
    report.bandwidthKbitpsec := 0 }

/-! ## The words of the report -/

/-- Behind a word. -/
theorem ntohl_behind (word : UInt32) (rest : List UInt8) (offset : ℕ) :
    ntohl (htobe32 word ++ rest) (offset + 4) = ntohl rest offset := by
  rw [Nat.add_comm]
  exact ntohl_append (htobe32 word) rest offset

/-- Milliseconds as seconds and microseconds. -/
theorem seconds_add_micros (durationMs : UInt32) :
    durationMs / 1000 * 1000 + durationMs % 1000 * 1000 / 1000 = durationMs := by
  have lt := durationMs.toNat_lt
  have micros : durationMs.toNat % 1000 * 1000 % 2 ^ 32 = durationMs.toNat % 1000 * 1000 :=
    Nat.mod_eq_of_lt (by omega)
  rw [← UInt32.toNat_inj]
  simp only [UInt32.toNat_add, UInt32.toNat_mul, UInt32.toNat_div, UInt32.toNat_mod,
    UInt32.reduceToNat, micros, Nat.mul_div_cancel _ (Nat.succ_pos 999)]
  omega

/-- The words that are read from a populated report. -/
theorem ntohl_populate (s : MmiperfState) :
    ntohl s.populate 4 = (s.report.bytesTransferred >>> 32).toUInt32 ∧
      ntohl s.populate 8 = s.report.bytesTransferred.toUInt32 ∧
      ntohl s.populate 12 = (s.lastRxTimeMs - s.timeStartedMs) / 1000 ∧
      ntohl s.populate 16 = (s.lastRxTimeMs - s.timeStartedMs) % 1000 * 1000 ∧
      ntohl s.populate 20 = s.report.errorCount ∧
      ntohl s.populate 24 = s.report.outOfSequenceFrames ∧
      ntohl s.populate 28 = s.report.rxFrames := by
  unfold MmiperfState.populate populateUdpServerReport
  simp only [List.append_assoc, ntohl_behind, ntohl_htobe32, and_self]

/-! ## The header -/

/-- The sign of a number of two words is that of the high one, and zero is zero in both. -/
theorem toInt_halves_le_zero_iff (high low : UInt32) :
    (high.toUInt64 <<< 32 ||| low.toUInt64).toInt64.toInt ≤ 0 ↔
      high.toInt32.toInt < 0 ∨ high = 0 ∧ low = 0 := by
  have highLt := high.toNat_lt
  have lowLt := low.toNat_lt
  have whole : (high.toUInt64 <<< 32 ||| low.toUInt64).toNat =
      high.toNat * 4294967296 + low.toNat := by
    simp only [UInt64.toNat_or, UInt64.toNat_shiftLeft, UInt32.toNat_toUInt64,
      UInt64.reduceToNat, Nat.reduceMod]
    have fits : high.toNat <<< 32 < 2 ^ 64 := by
      rw [Nat.shiftLeft_eq]
      omega
    rw [Nat.mod_eq_of_lt fits, ← Nat.shiftLeft_add_eq_or_of_lt (by omega), Nat.shiftLeft_eq]
  rw [toInt_eq_bmod, UInt64.toUInt64_toInt64, whole, toInt_toInt32, ← UInt32.toNat_inj,
    ← UInt32.toNat_inj, UInt32.toNat_zero, Int.bmod_def, Int.bmod_def]
  split_ifs <;> omega

theorem notAReport_iff (hdr : List UInt8) (version : IperfVersion) :
    notAReport hdr version = false ↔ headerId hdr version ≤ 0 := by
  have positive (word : Int32) : word > 0 ↔ 0 < word.toInt := Int32.lt_iff_toInt_lt
  cases version with
  | v2_0_9 =>
      rw [notAReport, headerId, decide_eq_false_iff_not, positive]
      omega
  | v2_0_13 =>
      rw [headerId, toInt_halves_le_zero_iff]
      have zero : ntohl hdr 12 = 0 ↔ (ntohl hdr 12).toInt32.toInt = 0 := by
        have lt := (ntohl hdr 12).toNat_lt
        rw [toInt_toInt32, ← UInt32.toNat_inj, UInt32.toNat_zero, Int.bmod_def]
        split_ifs <;> omega
      rw [zero]
      simp only [notAReport, Bool.or_eq_false_iff, decide_eq_false_iff_not, positive,
        Bool.and_eq_false_iff, beq_eq_false_iff_ne, bne_eq_false_iff_eq, ne_eq, zero]
      by_cases low : ntohl hdr 0 = 0
      · simp only [low, or_true, and_true]
        omega
      · simp only [low, or_false, and_false]
        omega

/-! ## The round trip -/

/-- **The report of a UDP server comes back**: the client has the counters and the duration of the
server, where the number in the header is at most zero, and the state it had, where it is not. -/
theorem parse_populate (client server : MmiperfState) (hdr : List UInt8) (version : IperfVersion) :
    parseUdpServerReport client hdr server.populate version =
      if headerId hdr version ≤ 0 then (client.withServer server, true) else (client, false) := by
  obtain ⟨high, low, seconds, micros, errors, outOfSequence, frames⟩ := ntohl_populate server
  rw [parseUdpServerReport]
  cases rejected : notAReport hdr version with
  | true =>
      have positive : ¬ headerId hdr version ≤ 0 := by
        rw [← notAReport_iff, rejected]
        exact Bool.true_eq_false.mp
      rw [if_pos rfl, if_neg positive]
  | false =>
      rw [if_neg Bool.false_ne_true, if_pos ((notAReport_iff hdr version).mp rejected), high, low,
        seconds, micros, errors, outOfSequence, frames, halves_eq, seconds_add_micros]
      rfl

end HalowBridge.Iperf
