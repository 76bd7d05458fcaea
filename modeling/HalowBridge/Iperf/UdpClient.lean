import HalowBridge.Iperf.UdpAccounting
import HalowBridge.Iperf.Data

/-!
# The numbers of a UDP client on the wire

`iperf_udp_client_send_packet` writes the number of a datagram into its header, negative when the
datagram is the last one. The server reads it back as `final_packet` and `packet_id`, and stores the
number behind it in the 32 bits of `next_packet_id`.

`survivesWire_iff` says for which datagrams this works. It does not for a final datagram with the
number zero, whose sign is lost, for numbers from 2^31 - 1 on, which `next_packet_id` does not hold
(and which iperf 2.0.9 sends as negative ones), and for the short datagrams of iperf 2.0.9, which
the server drops because its header has a word less than the server asks for.
-/

namespace HalowBridge.Iperf

/-- `hdrs_len`: the header and the settings. -/
def hdrsLen : IperfVersion → ℕ
  | .v2_0_13 => udpHeaderLen + iperfSettingsLen
  | .v2_0_9 => udpHeaderLen + iperfSettingsLen - 4

/-- `datagrams_cnt` -/
def datagramsCnt (txFrames : UInt32) (final : Bool) : Int64 :=
  if final then -txFrames.toUInt64.toInt64 else txFrames.toUInt64.toInt64

/-- The bytes that `iperf_udp_client_send_packet` hands to `udp_sendto`. In iperf 2.0.9 the word
`id_hi` is left as it was in the pbuf (`stale`). The payload is read from `iperf_get_data`, with the
16 bits that `pbuf_alloc` takes of its length. -/
def iperfUdpClientSendPacket (version : IperfVersion) (txFrames txAmount : UInt32) (final : Bool)
    (now stale : UInt32) (data : ℕ → UInt8) : List UInt8 :=
  let count := (datagramsCnt txFrames final).toUInt64
  let idHi := match version with
    | .v2_0_9 => stale
    | .v2_0_13 => (count >>> 32).toUInt32
  let payloadLen := (txAmount.toNat - hdrsLen version) % 65536
  htobe32 count.toUInt32 ++ htobe32 (now / 1000) ++ htobe32 (now % 1000 * 1000) ++ htobe32 idHi ++
    List.replicate (hdrsLen version - udpHeaderLen) 0 ++ (List.range payloadLen).map data

/-- The server takes the datagram for what it is, and has room for the next number. -/
structure SurvivesWire (version : IperfVersion) (txFrames : UInt32) (final : Bool)
    (d : Datagram) : Prop where
  complete : d.Complete
  final : d.finalPacket version = final
  number : (d.packetId version).toInt = txFrames.toNat
  next : (d.packetId version + 1).toInt32.toInt = (d.packetId version).toInt + 1

/-! ## Machine words -/

theorem toInt_toInt32 (word : UInt32) :
    word.toInt32.toInt = (word.toNat : ℤ).bmod 4294967296 :=
  BitVec.toInt_eq_toNat_bmod _

theorem toInt_eq_bmod (count : Int64) :
    count.toInt = (count.toUInt64.toNat : ℤ).bmod 18446744073709551616 :=
  BitVec.toInt_eq_toNat_bmod _

/-- The low half of a number, read as a signed one. -/
theorem toInt_low (count : Int64) :
    count.toUInt64.toUInt32.toInt32.toInt = count.toInt.bmod 4294967296 := by
  have low : (count.toUInt64.toNat % 4294967296 : ℕ) =
      (count.toUInt64.toNat : ℤ) % ((4294967296 : ℕ) : ℤ) := Int.natCast_emod _ _
  rw [toInt_eq_bmod, toInt_toInt32, UInt64.toNat_toUInt32, Int.bmod_bmod_of_dvd (by decide), low,
    Int.emod_bmod]

/-- The two halves of a word. -/
theorem halves_eq (word : UInt64) :
    (word >>> 32).toUInt32.toUInt64 <<< 32 ||| word.toUInt32.toUInt64 = word := by
  have lt := word.toNat_lt
  rw [← UInt64.toNat_inj]
  simp only [UInt64.toNat_or, UInt64.toNat_shiftLeft, UInt32.toNat_toUInt64,
    UInt64.toNat_toUInt32, UInt64.toNat_shiftRight, UInt64.reduceToNat, Nat.reduceMod,
    Nat.shiftRight_eq_div_pow]
  have high : (word.toNat / 2 ^ 32 % 2 ^ 32) <<< 32 < 2 ^ 64 := by
    rw [Nat.shiftLeft_eq]
    omega
  rw [Nat.mod_eq_of_lt high, ← Nat.shiftLeft_add_eq_or_of_lt (by omega), Nat.shiftLeft_eq]
  omega

/-! ## What is read back -/

theorem toInt_datagramsCnt (txFrames : UInt32) (final : Bool) :
    (datagramsCnt txFrames final).toInt =
      if final then -(txFrames.toNat : ℤ) else (txFrames.toNat : ℤ) := by
  have lt := txFrames.toNat_lt
  have plain : txFrames.toUInt64.toInt64.toInt = (txFrames.toNat : ℤ) := by
    rw [toInt_eq_bmod, UInt64.toUInt64_toInt64, UInt32.toNat_toUInt64,
      Int.bmod_eq_of_le (by omega) (by omega)]
  cases final with
  | false => exact plain
  | true =>
      show (-txFrames.toUInt64.toInt64).toInt = -(txFrames.toNat : ℤ)
      rw [Int64.toInt_neg, plain, Int.bmod_eq_of_le (by omega) (by omega)]

section

variable {version : IperfVersion} {txFrames txAmount : UInt32} {final : Bool} {now stale : UInt32}
  {data : ℕ → UInt8} {d : Datagram}

theorem ntohl_idLo
    (sent : d.payload = iperfUdpClientSendPacket version txFrames txAmount final now stale data) :
    ntohl d.payload 0 = (datagramsCnt txFrames final).toUInt64.toUInt32 := by
  rw [sent]
  unfold iperfUdpClientSendPacket
  simp only [List.append_assoc]
  exact ntohl_htobe32 _ _

theorem ntohl_idHi
    (sent : d.payload = iperfUdpClientSendPacket .v2_0_13 txFrames txAmount final now stale data) :
    ntohl d.payload 12 = ((datagramsCnt txFrames final).toUInt64 >>> 32).toUInt32 := by
  rw [sent]
  unfold iperfUdpClientSendPacket
  rw [List.append_assoc, List.append_assoc]
  exact (ntohl_append _ _ 0).trans (ntohl_htobe32 _ _)

/-- The number in the header is the one that was written, while 31 bits hold it: iperf 2.0.9 sends
its low half only. -/
theorem toInt_signedId
    (sent : d.payload = iperfUdpClientSendPacket version txFrames txAmount final now stale data)
    (small : txFrames.toNat < 2147483648) :
    (d.signedId version).toInt =
      if final then -(txFrames.toNat : ℤ) else (txFrames.toNat : ℤ) := by
  rw [← toInt_datagramsCnt]
  cases version with
  | v2_0_13 =>
      rw [Datagram.signedId, ntohl_idLo sent, ntohl_idHi sent, halves_eq, Int64.toInt64_toUInt64]
  | v2_0_9 =>
      have count := toInt_datagramsCnt txFrames final
      have bound : -2147483648 < (datagramsCnt txFrames final).toInt ∧
          (datagramsCnt txFrames final).toInt < 2147483648 := by
        rw [count]
        split <;> omega
      rw [Datagram.signedId, ntohl_idLo sent, Int32.toInt_toInt64, toInt_low,
        Int.bmod_eq_of_le (by omega) (by omega)]

theorem length_iperfUdpClientSendPacket :
    (iperfUdpClientSendPacket version txFrames txAmount final now stale data).length =
      hdrsLen version + (txAmount.toNat - hdrsLen version) % 65536 := by
  unfold iperfUdpClientSendPacket
  simp only [List.length_append, List.length_map, List.length_range, List.length_replicate,
    length_htobe32]
  cases version <;> simp only [hdrsLen, udpHeaderLen, iperfSettingsLen]

/-- Which datagrams have the header and the settings that the server asks for. -/
theorem complete_iff
    (sent : d.payload = iperfUdpClientSendPacket version txFrames txAmount final now stale data) :
    d.Complete ↔ version = .v2_0_13 ∨ 4 ≤ (txAmount.toNat - 36) % 65536 := by
  have length := congrArg List.length sent
  rw [length_iperfUdpClientSendPacket] at length
  unfold Datagram.Complete
  cases version with
  | v2_0_13 =>
      simp only [hdrsLen, udpHeaderLen, iperfSettingsLen] at length
      refine iff_of_true ?_ (.inl rfl)
      simp only [udpHeaderLen, iperfSettingsLen]
      omega
  | v2_0_9 =>
      simp only [hdrsLen, udpHeaderLen, iperfSettingsLen] at length ⊢
      constructor
      · exact fun long => .inr (by omega)
      · rintro (other | long)
        · cases other
        · omega

/-- **Which datagrams survive the wire**: those whose number is at most 2^31 - 2, is not zero in the
final datagram, and comes with the bytes that the server asks for. -/
theorem survivesWire_iff
    (sent : d.payload = iperfUdpClientSendPacket version txFrames txAmount final now stale data) :
    SurvivesWire version txFrames final d ↔
      txFrames ≤ 2147483646 ∧ ¬ (final = true ∧ txFrames = 0) ∧
        (version = .v2_0_13 ∨ 4 ≤ (txAmount.toNat - 36) % 65536) := by
  have lt := txFrames.toNat_lt
  have zero_iff : txFrames = 0 ↔ txFrames.toNat = 0 := UInt32.toNat_inj.symm
  rw [zero_iff, UInt32.le_iff_toNat_le, ← complete_iff sent]
  constructor
  · rintro ⟨complete, isFinal, number, next⟩
    refine ⟨?_, ?_, complete⟩
    · rw [number] at next
      exact (toInt_next_iff number (by omega)).mp next
    · rintro ⟨rfl, zero⟩
      have negative := finalPacket_iff.mp isFinal
      rw [toInt_signedId sent (by omega), if_pos rfl] at negative
      omega
  · rintro ⟨small, nonzero, complete⟩
    have small : txFrames.toNat ≤ 2147483646 := small
    have signed := toInt_signedId sent (by omega)
    have number : d.number version = txFrames.toNat := by
      rw [Datagram.number, signed]
      split <;> omega
    have packetId : (d.packetId version).toInt = (txFrames.toNat : ℤ) := by
      rw [toInt_packetId (by omega), number]
    refine ⟨complete, ?_, packetId, ?_⟩
    · rw [Bool.eq_iff_iff, finalPacket_iff, signed]
      cases final with
      | true =>
          have positive : txFrames.toNat ≠ 0 := fun zero => nonzero ⟨rfl, zero⟩
          exact iff_of_true (by rw [if_pos rfl]; omega) rfl
      | false => exact iff_of_false (by rw [if_neg Bool.false_ne_true]; omega) Bool.false_ne_true
    · rw [packetId]
      exact (toInt_next_iff packetId (by omega)).mpr small

end

/-- A datagram that the client has sent, with the number `txFrames` and 40 bytes. -/
def clientDatagram (version : IperfVersion) (txFrames : UInt32) (final : Bool) : Datagram where
  client := ⟨.v4 192 168 1 7, 50000⟩
  payload := iperfUdpClientSendPacket version txFrames 40 final 1500 0 iperfData
  now := 1500
  length_le := by
    rw [length_iperfUdpClientSendPacket]
    cases version <;> decide

/-- The last datagram of iperf 2.0.9, with the number 7. -/
theorem survivesWire_iff_final :
    SurvivesWire .v2_0_9 7 true (clientDatagram .v2_0_9 7 true) :=
  (survivesWire_iff rfl).mpr (by decide)

/-- **The sign of zero is lost**: a client whose first datagram is its last one sends the number
zero, and the server waits for more. -/
theorem not_survivesWire_zero :
    ¬ SurvivesWire .v2_0_13 0 true (clientDatagram .v2_0_13 0 true) := by
  intro survives
  have final := survives.final
  revert final
  decide +kernel

end HalowBridge.Iperf
