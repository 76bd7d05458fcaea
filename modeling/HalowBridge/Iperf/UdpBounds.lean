import HalowBridge.Iperf.UdpClient
import HalowBridge.Lib.Window

/-!
# Where a UDP client writes

`iperf_udp_client_send_packet` writes the words of a header and, behind it, the settings, into a
block of `hdrs_len` bytes, and takes the payload from the table of digits. `hdrs_len` is four bytes
shorter for iperf 2.0.9, whose header has no `id_hi`. But the settings stand behind the whole
`struct iperf_udp_header` for both versions: for 2.0.9 they reach four bytes beyond the block, and
nothing writes the four bytes of `id_hi`, which are sent. The size of a packet is limited nowhere,
and that of the table is.

Both network stacks do the same, one in a pbuf and one in a block of the heap.
`staysInBounds_iff` says which datagrams are written and read inside their memory.
`image_headerWrites` connects the writes to the datagram that is sent.
-/

namespace HalowBridge.Iperf

inductive NetStack where
  | lwip
  | freertosplustcp
  deriving DecidableEq

/-- Some bytes that are written to the block, and where. -/
structure HeaderWrite where
  offset : ℕ
  bytes : List UInt8

/-- `datagrams_cnt` of both stacks: with FreeRTOS+TCP the number of frames is a signed one. -/
def datagramsCntOn : NetStack → UInt32 → Bool → Int64
  | .lwip, txFrames, final => datagramsCnt txFrames final
  | .freertosplustcp, txFrames, final =>
      if final then -txFrames.toInt32.toInt64 else txFrames.toInt32.toInt64

/-- What is written to the block, in the order of the source. -/
def headerWrites (stack : NetStack) (version : IperfVersion) (txFrames : UInt32) (final : Bool)
    (now : UInt32) : List HeaderWrite :=
  let count := (datagramsCntOn stack txFrames final).toUInt64
  let number := match version with
    | .v2_0_9 => [⟨0, htobe32 count.toUInt32⟩]
    | .v2_0_13 => [⟨0, htobe32 count.toUInt32⟩, ⟨12, htobe32 (count >>> 32).toUInt32⟩]
  number ++ [⟨8, htobe32 (now % 1000 * 1000)⟩, ⟨4, htobe32 (now / 1000)⟩,
    ⟨udpHeaderLen, List.replicate iperfSettingsLen 0⟩]

/-- `payload_len` -/
def payloadLen (version : IperfVersion) (txAmount : UInt32) : ℕ :=
  if hdrsLen version < txAmount.toNat then txAmount.toNat - hdrsLen version else 0

/-- The part of the table that is sent. The length of a pbuf has 16 bits. -/
def payloadSlice (stack : NetStack) (version : IperfVersion) (txAmount : UInt32) : Slice where
  offset := iperfGetData 0
  len := match stack with
    | .lwip => payloadLen version txAmount % 65536
    | .freertosplustcp => payloadLen version txAmount

/-- The datagram is written and read inside its memory. -/
structure StaysInBounds (stack : NetStack) (version : IperfVersion)
    (txFrames txAmount : UInt32) (final : Bool) (now : UInt32) : Prop where
  inside : ∀ write ∈ headerWrites stack version txFrames final now,
    write.offset + write.bytes.length ≤ hdrsLen version
  written : ∀ i < hdrsLen version, ∃ write ∈ headerWrites stack version txFrames final now,
    write.offset ≤ i ∧ i < write.offset + write.bytes.length
  payload : (payloadSlice stack version txAmount).len = payloadLen version txAmount ∧
    (payloadSlice stack version txAmount).Inside iperfDataLen

/-! ## The datagram that is sent -/

/-- The block after some writes. -/
def image (block : List UInt8) (writes : List HeaderWrite) : List UInt8 :=
  writes.foldl (fun block write => splice block write.offset write.bytes) block

theorem payloadLen_eq (version : IperfVersion) (txAmount : UInt32) :
    payloadLen version txAmount = txAmount.toNat - hdrsLen version := by
  rw [payloadLen]
  split <;> omega

section

variable {stack : NetStack} {version : IperfVersion} {txFrames txAmount : UInt32} {final : Bool}
  {now : UInt32} {block : List UInt8}

/-- A block of five parts. -/
theorem take_eq_windows {n : ℕ} (long : 16 ≤ n) :
    block.take n = window block 0 4 ++ window block 4 4 ++ window block 8 4 ++ window block 12 4 ++
      window block 16 (n - 16) := by
  rw [← window_add, ← window_add, ← window_add, ← window_add, window, List.drop_zero]
  congr 1
  omega

/-- A write to the block is read where it was made, and leaves the rest alone. -/
theorem splice_write (size : block.length = 40) (offset : ℕ) {n : ℕ} {bytes : List UInt8}
    (length : bytes.length = n) (fits : offset + n ≤ 40) :
    (splice block offset bytes).length = 40 ∧ window (splice block offset bytes) offset n = bytes ∧
      ∀ o m, o + m ≤ offset ∨ offset + n ≤ o →
        window (splice block offset bytes) o m = window block o m := by
  subst length
  rw [← size] at fits
  refine ⟨(length_splice fits).trans size, window_splice fits, ?_⟩
  rintro o m (before | behind)
  · exact window_splice_of_le fits before
  · exact window_splice_of_ge fits behind

/-- The block behind the number: the times, the settings, and the number as it was. -/
theorem take_image_times (size : block.length = 40) (now : UInt32) {n : ℕ} (long : 16 ≤ n)
    (short : n ≤ 40) :
    (image block [⟨8, htobe32 (now % 1000 * 1000)⟩, ⟨4, htobe32 (now / 1000)⟩,
        ⟨udpHeaderLen, List.replicate iperfSettingsLen 0⟩]).take n =
      window block 0 4 ++ htobe32 (now / 1000) ++ htobe32 (now % 1000 * 1000) ++
        window block 12 4 ++ List.replicate (n - udpHeaderLen) 0 := by
  obtain ⟨usecSize, usec, usecRest⟩ := splice_write size 8
    (length_htobe32 (now % 1000 * 1000)) (by decide)
  obtain ⟨secSize, sec, secRest⟩ := splice_write usecSize 4
    (length_htobe32 (now / 1000)) (by decide)
  obtain ⟨-, settings, settingsRest⟩ := splice_write secSize 16
    (List.length_replicate (n := iperfSettingsLen) (a := (0 : UInt8))) (by decide)
  simp only [image, List.foldl_cons, List.foldl_nil, udpHeaderLen]
  rw [take_eq_windows long, settingsRest 0 4 (by decide), secRest 0 4 (by decide),
    usecRest 0 4 (by decide), settingsRest 4 4 (by decide), sec, settingsRest 8 4 (by decide),
    secRest 8 4 (by decide), usec, settingsRest 12 4 (by decide), secRest 12 4 (by decide),
    usecRest 12 4 (by decide), ← take_window _ 16 (show n - 16 ≤ iperfSettingsLen by
      rw [iperfSettingsLen]; omega), settings, List.take_replicate,
    Nat.min_eq_left (by rw [iperfSettingsLen]; omega)]

/-- The writes make the datagram that is sent. In iperf 2.0.9 the word behind the times is what it
was, and the last four bytes of the settings are not sent. -/
theorem image_headerWrites (size : block.length = 40) {stale : UInt32}
    (left : window block 12 4 = htobe32 stale) (data : ℕ → UInt8) :
    (image block (headerWrites .lwip version txFrames final now)).take (hdrsLen version) ++
        (List.range (payloadSlice .lwip version txAmount).len).map data =
      iperfUdpClientSendPacket version txFrames txAmount final now stale data := by
  have payload : (payloadSlice .lwip version txAmount).len =
      (txAmount.toNat - hdrsLen version) % 65536 := congrArg (· % 65536) (payloadLen_eq _ _)
  obtain ⟨lowSize, low, lowRest⟩ := splice_write size 0
    (length_htobe32 (datagramsCnt txFrames final).toUInt64.toUInt32) (by decide)
  rw [payload]
  cases version with
  | v2_0_9 =>
      have times := take_image_times lowSize now (n := hdrsLen .v2_0_9) (by decide) (by decide)
      rw [low, lowRest 12 4 (by decide), left] at times
      exact congrArg (· ++ _) times
  | v2_0_13 =>
      obtain ⟨highSize, high, highRest⟩ := splice_write lowSize 12
        (length_htobe32 ((datagramsCnt txFrames final).toUInt64 >>> 32).toUInt32) (by decide)
      have times := take_image_times highSize now (n := hdrsLen .v2_0_13) (by decide) (by decide)
      rw [highRest 0 4 (by decide), low, high] at times
      exact congrArg (· ++ _) times

end

/-! ## Bounds -/

/-- **Which datagrams stay in their memory**: those of iperf 2.0.13 with at most 1640 bytes. -/
theorem staysInBounds_iff (stack : NetStack) (version : IperfVersion) (txFrames txAmount : UInt32)
    (final : Bool) (now : UInt32) :
    StaysInBounds stack version txFrames txAmount final now ↔
      version = .v2_0_13 ∧ txAmount ≤ 1640 := by
  have amount : txAmount ≤ 1640 ↔ txAmount.toNat ≤ 1640 := UInt32.le_iff_toNat_le
  cases version with
  | v2_0_9 =>
      -- The settings end at 40, and the block at 36.
      refine iff_of_false ?_ (by simp)
      intro bounds
      have settings := bounds.inside ⟨udpHeaderLen, List.replicate iperfSettingsLen 0⟩
        (by simp [headerWrites])
      rw [List.length_replicate] at settings
      revert settings
      decide
  | v2_0_13 =>
      have sliceInside : (payloadSlice stack .v2_0_13 txAmount).len =
            payloadLen .v2_0_13 txAmount ∧
          (payloadSlice stack .v2_0_13 txAmount).Inside iperfDataLen ↔
          txAmount.toNat ≤ 1640 := by
        have first : iperfGetData 0 = 0 := rfl
        have hdrs : hdrsLen .v2_0_13 = 40 := rfl
        simp only [Slice.Inside, payloadSlice, payloadLen_eq, first, hdrs, iperfDataLen]
        cases stack with
        | lwip =>
            dsimp only
            omega
        | freertosplustcp =>
            dsimp only
            omega
      rw [amount, ← sliceInside]
      constructor
      · exact fun bounds => ⟨rfl, bounds.payload⟩
      · rintro ⟨-, payload⟩
        refine ⟨?_, ?_, payload⟩
        · simp only [headerWrites, List.cons_append, List.nil_append, List.forall_mem_cons,
            length_htobe32, List.length_replicate, List.not_mem_nil, false_imp_iff,
            implies_true, and_true]
          decide
        · intro i inside
          have hdrs : i < 40 := inside
          simp only [headerWrites, List.cons_append, List.nil_append, List.exists_mem_cons_iff,
            length_htobe32, List.length_replicate, List.not_mem_nil, false_and, exists_false,
            or_false, udpHeaderLen, iperfSettingsLen]
          omega

/-- **Two datagrams that do not**: the settings of iperf 2.0.9 reach beyond the block, and a
datagram of 1641 bytes asks for more digits than there are. -/
theorem not_staysInBounds_settings :
    ¬ StaysInBounds .lwip .v2_0_9 0 1460 false 0 ∧
      ¬ StaysInBounds .freertosplustcp .v2_0_13 0 1641 false 0 := by
  constructor
  · intro bounds
    have settings := bounds.inside ⟨udpHeaderLen, List.replicate iperfSettingsLen 0⟩
      (by simp [headerWrites])
    revert settings
    decide
  · intro bounds
    exact absurd bounds.payload (by decide)

end HalowBridge.Iperf
