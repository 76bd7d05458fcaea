import HalowBridge.Lib.Struct

/-!
# Iperf reports

The reports that iperf sessions of both protocols and both network stacks produce. A session keeps
its counters in a `MmiperfReport`, which the callback receives at the end of the session, and a UDP
server also sends them to its client in big-endian words.
-/

namespace HalowBridge.Iperf

/-- `enum mmiperf_report_type` -/
inductive MmiperfReportType where
  | tcpDoneServer
  | tcpDoneClient
  | tcpAbortedLocal
  | tcpAbortedLocalDataerror
  | tcpAbortedLocalTxerror
  | tcpAbortedRemote
  | udpDoneServer
  | udpDoneClient
  | interrimReport
  deriving DecidableEq

/-- `struct mmiperf_report` without the addresses, as far as a server writes it. -/
structure MmiperfReport where
  reportType : MmiperfReportType
  bytesTransferred : UInt64
  durationMs : UInt32
  bandwidthKbitpsec : UInt32
  rxFrames : UInt32
  outOfSequenceFrames : UInt32
  errorCount : UInt32
  ipgCount : UInt32
  ipgSumMs : UInt32
  deriving DecidableEq

/-- The report of a session that begins. -/
def interrimReport : MmiperfReport := ⟨.interrimReport, 0, 0, 0, 0, 0, 0, 0, 0⟩

/-- The report that `iperf_finalize_report_and_invoke_callback` hands to the callback. -/
def finalizeReport (report : MmiperfReport) (durationMs : UInt32)
    (reportType : MmiperfReportType) : MmiperfReport :=
  if durationMs.toInt32 ≤ 0 then
    { report with reportType := reportType, durationMs := 0, bandwidthKbitpsec := 0 }
  else
    { report with
      reportType := reportType
      durationMs := durationMs
      bandwidthKbitpsec := (report.bytesTransferred * 8 / durationMs.toUInt64).toUInt32 }

@[simp] theorem finalizeReport_reportType (report : MmiperfReport) (durationMs : UInt32)
    (reportType : MmiperfReportType) :
    (finalizeReport report durationMs reportType).reportType = reportType := by
  unfold finalizeReport
  split <;> rfl

@[simp] theorem finalizeReport_bytesTransferred (report : MmiperfReport) (durationMs : UInt32)
    (reportType : MmiperfReportType) :
    (finalizeReport report durationMs reportType).bytesTransferred = report.bytesTransferred := by
  unfold finalizeReport
  split <;> rfl

@[simp] theorem finalizeReport_rxFrames (report : MmiperfReport) (durationMs : UInt32)
    (reportType : MmiperfReportType) :
    (finalizeReport report durationMs reportType).rxFrames = report.rxFrames := by
  unfold finalizeReport
  split <;> rfl

@[simp] theorem finalizeReport_outOfSequenceFrames (report : MmiperfReport) (durationMs : UInt32)
    (reportType : MmiperfReportType) :
    (finalizeReport report durationMs reportType).outOfSequenceFrames =
      report.outOfSequenceFrames := by
  unfold finalizeReport
  split <;> rfl

@[simp] theorem finalizeReport_errorCount (report : MmiperfReport) (durationMs : UInt32)
    (reportType : MmiperfReportType) :
    (finalizeReport report durationMs reportType).errorCount = report.errorCount := by
  unfold finalizeReport
  split <;> rfl

/-! ## Times and words -/

/-- `mmosal_time_le` -/
def mmosalTimeLe (a b : UInt32) : Bool := (a - b).toInt32 ≤ 0

/-- The bytes of `htobe32`. -/
def htobe32 (word : UInt32) : List UInt8 :=
  [(word >>> 24).toUInt8, (word >>> 16).toUInt8, (word >>> 8).toUInt8, word.toUInt8]

@[simp] theorem length_htobe32 (word : UInt32) : (htobe32 word).length = 4 := rfl

/-- `ntohl` on the four bytes from an offset. -/
def ntohl (bytes : List UInt8) (offset : ℕ) : UInt32 :=
  (bytes.getD offset 0).toUInt32 <<< 24 ||| (bytes.getD (offset + 1) 0).toUInt32 <<< 16 |||
    (bytes.getD (offset + 2) 0).toUInt32 <<< 8 ||| (bytes.getD (offset + 3) 0).toUInt32

/-- A word that was written is read back. -/
theorem ntohl_htobe32 (word : UInt32) (rest : List UInt8) :
    ntohl (htobe32 word ++ rest) 0 = word := by
  have lt := word.toNat_lt
  show (word >>> 24).toUInt8.toUInt32 <<< 24 ||| (word >>> 16).toUInt8.toUInt32 <<< 16 |||
    (word >>> 8).toUInt8.toUInt32 <<< 8 ||| word.toUInt8.toUInt32 = word
  rw [← UInt32.toNat_inj, toNat_bytes]
  simp only [UInt32.toNat_toUInt8, UInt32.toNat_shiftRight, Nat.shiftRight_eq_div_pow,
    UInt32.reduceToNat, Nat.reduceMod, Nat.reducePow]
  omega

/-- Words behind other bytes. -/
theorem ntohl_append (before rest : List UInt8) (offset : ℕ) :
    ntohl (before ++ rest) (before.length + offset) = ntohl rest offset := by
  have shifted (k : ℕ) : (before ++ rest).getD (before.length + offset + k) 0 =
      rest.getD (offset + k) 0 := by
    rw [Nat.add_assoc, List.getD_eq_getElem?_getD,
      List.getElem?_append_right (Nat.le_add_right _ _), Nat.add_sub_cancel_left,
      List.getD_eq_getElem?_getD]
  have first := shifted 0
  rw [Nat.add_zero, Nat.add_zero] at first
  rw [ntohl, ntohl, first, shifted 1, shifted 2, shifted 3]

def iperfHeaderVersion1 : UInt32 := 0x80000000

/-- `iperf_populate_udp_server_report`: the bytes of the report. The fields between `datagrams` and
`IPGcnt` stay zero. -/
def populateUdpServerReport (report : MmiperfReport) (lastRxTimeMs timeStartedMs : UInt32) :
    List UInt8 :=
  let durationMs := lastRxTimeMs - timeStartedMs
  htobe32 iperfHeaderVersion1 ++ htobe32 (report.bytesTransferred >>> 32).toUInt32 ++
    htobe32 report.bytesTransferred.toUInt32 ++ htobe32 (durationMs / 1000) ++
    htobe32 (durationMs % 1000 * 1000) ++ htobe32 report.errorCount ++
    htobe32 report.outOfSequenceFrames ++ htobe32 report.rxFrames ++
    (List.replicate 15 (htobe32 0)).flatten ++ htobe32 report.ipgCount ++ htobe32 report.ipgSumMs

end HalowBridge.Iperf
