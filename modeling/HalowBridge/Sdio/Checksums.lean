import HalowBridge.Sdio.Card

/-!
# The checksums of the driver

The CRC-7 of a command packet is looked up with an index that has nine bits in general. It stays
inside the table because no entry of it has more than seven, and the register holds entries only.
`morseCrc7_eq` says that the driver computes the CRC-7 the card checks bit by bit.
-/

namespace HalowBridge.Sdio

open Mmutils

/-- The register of the driver for a register of seven bits. -/
def crcByte (crc : BitVec 7) : UInt8 := UInt8.ofNat crc.toNat

theorem toNat_crcByte (crc : BitVec 7) : (crcByte crc).toNat = crc.toNat := by
  have lt := crc.isLt
  rw [crcByte, UInt8.toNat_ofNat']
  omega

/-- The constants of the table. -/
theorem toList_crc7LookupTable : crc7LookupTable.toList =
    (List.range 256).map fun i => crcByte (crcBits 0x09 0#7 (topBits 8 (BitVec.ofNat 8 i))) := by
  decide +kernel

/-- The index of the table. -/
def crc7Index (crc : BitVec 7) (d : UInt8) : ℕ := crc.toNat <<< 1 ^^^ d.toNat

theorem crc7Index_lt (crc : BitVec 7) (d : UInt8) : crc7Index crc d < 256 := by
  have register : crc.toNat <<< 1 < 256 := by
    have lt := crc.isLt
    rw [Nat.shiftLeft_eq]
    omega
  exact Nat.xor_lt_two_pow (n := 8) register d.toNat_lt

/-- The index is made of the register and the byte. -/
theorem topBits_crc7Index (crc : BitVec 7) (d : UInt8) :
    topBits 8 (BitVec.ofNat 8 (crc7Index crc d)) =
      List.zipWith xor (topBits 8 crc) (byteBits d) := by
  have index : BitVec.ofNat 8 (crc7Index crc d) = (crc.setWidth 8 <<< 1) ^^^ d.toBitVec := by
    apply BitVec.eq_of_toNat_eq
    have lt := crc.isLt
    have shifted : crc.toNat <<< 1 < 256 := by
      rw [Nat.shiftLeft_eq]
      omega
    rw [BitVec.toNat_ofNat, Nat.mod_eq_of_lt (crc7Index_lt crc d), BitVec.toNat_xor,
      BitVec.toNat_shiftLeft, BitVec.toNat_setWidth, Nat.mod_eq_of_lt (a := crc.toNat) (by omega),
      Nat.mod_eq_of_lt shifted]
    rfl
  have top : topBits 8 (crc.setWidth 8 <<< 1) = topBits 8 crc := by
    apply topBits_congr
    intro i below
    simp [BitVec.getMsbD_shiftLeft, BitVec.getMsbD_setWidth]
  rw [index, topBits_xor, top, byteBits]

/-- A byte is looked up inside the table. -/
theorem lookup_crc7 (crc : BitVec 7) (d : UInt8) :
    crc7LookupTable[crc7Index crc d]? = some (crcByte (crcBits 0x09 crc (byteBits d))) := by
  have length : (byteBits d).length = 8 := length_topBits 8 _
  have shifted : crc <<< 8 = 0#7 := BitVec.shiftLeft_eq_zero (by decide)
  rw [← Vector.getElem?_toList, toList_crc7LookupTable, List.getElem?_map,
    List.getElem?_range (crc7Index_lt crc d), Option.map_some, topBits_crc7Index,
    crcBits_eq 0x09 crc length, shifted, BitVec.xor_zero]

theorem morseCrc7_crcByte (crc : BitVec 7) (data : List UInt8) :
    morseCrc7 (crcByte crc) data = some (crcByte (crcBits 0x09 crc (data.flatMap byteBits))) := by
  induction data generalizing crc with
  | nil => rfl
  | cons d data ih =>
      have entry := lookup_crc7 crc d
      rw [crc7Index, ← toNat_crcByte crc] at entry
      rw [morseCrc7, entry, List.flatMap_cons, crcBits_append]
      exact ih _

/-- **The driver computes the CRC-7**, and the index stays inside the table. -/
theorem morseCrc7_eq (data : List UInt8) : morseCrc7 0x00 data = some (crcByte (crc7 data)) :=
  morseCrc7_crcByte 0 data

/-- The last byte of a packet, as the driver puts it together. -/
theorem packetEnd_eq (data : List UInt8) :
    crcByte (crc7 data) <<< 1 ||| 0x1 = packetEnd data := by
  have lt := (crc7 data).isLt
  rw [← UInt8.toNat_inj, UInt8.toNat_or, UInt8.toNat_shiftLeft, toNat_crcByte, packetEnd,
    UInt8.toNat_ofNat']
  have small : (crc7 data).toNat <<< 1 < 256 := by
    rw [Nat.shiftLeft_eq]
    omega
  show (crc7 data).toNat <<< 1 % 256 ||| 1 = _
  rw [Nat.mod_eq_of_lt small, ← Nat.shiftLeft_add_eq_or_of_lt (by decide), Nat.shiftLeft_eq]
  omega

end HalowBridge.Sdio
