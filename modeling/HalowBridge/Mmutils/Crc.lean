import HalowBridge.Lib.Burst

/-!
# CRC-16 by table

`mmcrc_16_xmodem` takes a byte at a time and looks the effect of eight bits up in a table of 256
constants. `mmcrc16Xmodem_correct` compares it with the register that takes the message bit by bit,
for every message and every starting value, and says how a message may be taken in parts.
-/

namespace HalowBridge.Mmutils

set_option maxRecDepth 2048 in
def crc16XmodemLookupTable : Vector UInt16 256 := #v[
  0x0000, 0x1021, 0x2042, 0x3063, 0x4084, 0x50a5, 0x60c6, 0x70e7, 0x8108, 0x9129, 0xa14a, 0xb16b,
  0xc18c, 0xd1ad, 0xe1ce, 0xf1ef, 0x1231, 0x0210, 0x3273, 0x2252, 0x52b5, 0x4294, 0x72f7, 0x62d6,
  0x9339, 0x8318, 0xb37b, 0xa35a, 0xd3bd, 0xc39c, 0xf3ff, 0xe3de, 0x2462, 0x3443, 0x0420, 0x1401,
  0x64e6, 0x74c7, 0x44a4, 0x5485, 0xa56a, 0xb54b, 0x8528, 0x9509, 0xe5ee, 0xf5cf, 0xc5ac, 0xd58d,
  0x3653, 0x2672, 0x1611, 0x0630, 0x76d7, 0x66f6, 0x5695, 0x46b4, 0xb75b, 0xa77a, 0x9719, 0x8738,
  0xf7df, 0xe7fe, 0xd79d, 0xc7bc, 0x48c4, 0x58e5, 0x6886, 0x78a7, 0x0840, 0x1861, 0x2802, 0x3823,
  0xc9cc, 0xd9ed, 0xe98e, 0xf9af, 0x8948, 0x9969, 0xa90a, 0xb92b, 0x5af5, 0x4ad4, 0x7ab7, 0x6a96,
  0x1a71, 0x0a50, 0x3a33, 0x2a12, 0xdbfd, 0xcbdc, 0xfbbf, 0xeb9e, 0x9b79, 0x8b58, 0xbb3b, 0xab1a,
  0x6ca6, 0x7c87, 0x4ce4, 0x5cc5, 0x2c22, 0x3c03, 0x0c60, 0x1c41, 0xedae, 0xfd8f, 0xcdec, 0xddcd,
  0xad2a, 0xbd0b, 0x8d68, 0x9d49, 0x7e97, 0x6eb6, 0x5ed5, 0x4ef4, 0x3e13, 0x2e32, 0x1e51, 0x0e70,
  0xff9f, 0xefbe, 0xdfdd, 0xcffc, 0xbf1b, 0xaf3a, 0x9f59, 0x8f78, 0x9188, 0x81a9, 0xb1ca, 0xa1eb,
  0xd10c, 0xc12d, 0xf14e, 0xe16f, 0x1080, 0x00a1, 0x30c2, 0x20e3, 0x5004, 0x4025, 0x7046, 0x6067,
  0x83b9, 0x9398, 0xa3fb, 0xb3da, 0xc33d, 0xd31c, 0xe37f, 0xf35e, 0x02b1, 0x1290, 0x22f3, 0x32d2,
  0x4235, 0x5214, 0x6277, 0x7256, 0xb5ea, 0xa5cb, 0x95a8, 0x8589, 0xf56e, 0xe54f, 0xd52c, 0xc50d,
  0x34e2, 0x24c3, 0x14a0, 0x0481, 0x7466, 0x6447, 0x5424, 0x4405, 0xa7db, 0xb7fa, 0x8799, 0x97b8,
  0xe75f, 0xf77e, 0xc71d, 0xd73c, 0x26d3, 0x36f2, 0x0691, 0x16b0, 0x6657, 0x7676, 0x4615, 0x5634,
  0xd94c, 0xc96d, 0xf90e, 0xe92f, 0x99c8, 0x89e9, 0xb98a, 0xa9ab, 0x5844, 0x4865, 0x7806, 0x6827,
  0x18c0, 0x08e1, 0x3882, 0x28a3, 0xcb7d, 0xdb5c, 0xeb3f, 0xfb1e, 0x8bf9, 0x9bd8, 0xabbb, 0xbb9a,
  0x4a75, 0x5a54, 0x6a37, 0x7a16, 0x0af1, 0x1ad0, 0x2ab3, 0x3a92, 0xfd2e, 0xed0f, 0xdd6c, 0xcd4d,
  0xbdaa, 0xad8b, 0x9de8, 0x8dc9, 0x7c26, 0x6c07, 0x5c64, 0x4c45, 0x3ca2, 0x2c83, 0x1ce0, 0x0cc1,
  0xef1f, 0xff3e, 0xcf5d, 0xdf7c, 0xaf9b, 0xbfba, 0x8fd9, 0x9ff8, 0x6e17, 0x7e36, 0x4e55, 0x5e74,
  0x2e93, 0x3eb2, 0x0ed1, 0x1ef0]

theorem index_lt (crc : UInt16) (d : UInt8) : (crc >>> 8).toNat ^^^ d.toNat < 256 := by
  have high : (crc >>> 8).toNat < 256 := by
    have word := crc.toNat_lt
    rw [UInt16.toNat_shiftRight, Nat.shiftRight_eq_div_pow]
    exact Nat.div_lt_of_lt_mul word
  exact Nat.xor_lt_two_pow high d.toNat_lt

/-- `mmcrc_16_xmodem` -/
def mmcrc16Xmodem (crc : UInt16) : List UInt8 → UInt16
  | [] => crc
  | d :: data =>
      mmcrc16Xmodem
        (crc16XmodemLookupTable.get ⟨(crc >>> 8).toNat ^^^ d.toNat, index_lt crc d⟩ ^^^ (crc <<< 8))
        data

/-! ## Bit by bit -/

/-- The bits of a byte in the order in which they are sent. -/
def byteBits (d : UInt8) : List Bool := topBits 8 d.toBitVec

/-- CRC-16 with the polynomial 0x1021, bit by bit. -/
def crc16Xmodem (crc : UInt16) (data : List UInt8) : UInt16 :=
  ⟨crcBits 0x1021 crc.toBitVec (data.flatMap byteBits)⟩

/-- The constants of the table. -/
theorem toList_lookupTable : crc16XmodemLookupTable.toList =
    (List.range 256).map fun i => ⟨crcBits 0x1021 0#16 (topBits 8 (BitVec.ofNat 8 i))⟩ := by
  decide +kernel

theorem getElem?_toList_val {α : Type*} {n : ℕ} (xs : Vector α n) (i : Fin n) :
    xs.toList[i.val]? = some (xs.get i) := by
  rw [Vector.getElem?_toList, Vector.getElem?_eq_getElem i.isLt]
  rfl

/-- An entry of the table is what eight bits leave in an empty register. -/
theorem lookupTable_eq (i : Fin 256) :
    (crc16XmodemLookupTable.get i).toBitVec =
      crcBits 0x1021 0#16 (topBits 8 (BitVec.ofNat 8 i)) := by
  have entry := getElem?_toList_val crc16XmodemLookupTable i
  rw [toList_lookupTable, List.getElem?_map, List.getElem?_range i.isLt, Option.map_some,
    Option.some_inj] at entry
  rw [← entry]

/-- The index is made of the top of the register and the byte. -/
theorem topBits_index (crc : UInt16) (d : UInt8) :
    topBits 8 (BitVec.ofNat 8 ((crc >>> 8).toNat ^^^ d.toNat)) =
      List.zipWith xor (topBits 8 crc.toBitVec) (byteBits d) := by
  have index : BitVec.ofNat 8 ((crc >>> 8).toNat ^^^ d.toNat) =
      (crc.toBitVec >>> 8).setWidth 8 ^^^ d.toBitVec := by
    apply BitVec.eq_of_toNat_eq
    simp
  have top : topBits 8 ((crc.toBitVec >>> 8).setWidth 8) = topBits 8 crc.toBitVec := by
    apply topBits_congr
    intro i below
    have place : 8 + (8 - 1 - i) = 16 - 1 - i := by omega
    have inside : 8 - 1 - i < 8 := by omega
    have behind : i < 16 := by omega
    rw [BitVec.getMsbD_eq_getLsbD, BitVec.getMsbD_eq_getLsbD, BitVec.getLsbD_setWidth,
      BitVec.getLsbD_ushiftRight, place]
    simp only [below, inside, behind, decide_true, Bool.true_and]
  rw [index, topBits_xor, top, byteBits]

theorem mmcrc16Xmodem_eq (crc : UInt16) (data : List UInt8) :
    mmcrc16Xmodem crc data = crc16Xmodem crc data := by
  induction data generalizing crc with
  | nil => rfl
  | cons d data ih =>
      have byte : crcBits 0x1021 crc.toBitVec (byteBits d) =
          (crc16XmodemLookupTable.get ⟨_, index_lt crc d⟩ ^^^ (crc <<< 8)).toBitVec := by
        have length : (byteBits d).length = 8 := length_topBits 8 _
        rw [crcBits_eq _ _ length, UInt16.toBitVec_xor, lookupTable_eq, topBits_index]
        rfl
      rw [mmcrc16Xmodem, ih, crc16Xmodem, crc16Xmodem, List.flatMap_cons, crcBits, crcBits,
        List.foldl_append, ← byte]
      rfl

theorem mmcrc16Xmodem_append (crc : UInt16) (first second : List UInt8) :
    mmcrc16Xmodem crc (first ++ second) = mmcrc16Xmodem (mmcrc16Xmodem crc first) second := by
  induction first generalizing crc with
  | nil => rfl
  | cons d first ih => exact ih _

/-- **The table-driven loop is the bit-serial CRC**, and a message may be taken in parts. -/
theorem mmcrc16Xmodem_correct (crc : UInt16) :
    (∀ data, mmcrc16Xmodem crc data = crc16Xmodem crc data) ∧
      ∀ first second, mmcrc16Xmodem crc (first ++ second) =
        mmcrc16Xmodem (mmcrc16Xmodem crc first) second :=
  ⟨mmcrc16Xmodem_eq crc, mmcrc16Xmodem_append crc⟩

-- The check value of the model: the CRC of the text "123456789".
example : mmcrc16Xmodem 0 [0x31, 0x32, 0x33, 0x34, 0x35, 0x36, 0x37, 0x38, 0x39] = 0x31c3 := by
  decide +kernel

/-! ## Bursts of errors -/

/-- The bits of a message in the order in which they are sent. -/
abbrev bitsOf (bytes : List UInt8) : List Bool := bytes.flatMap byteBits

/-- Bytes have as many bits as others if they are as many. -/
theorem length_bitsOf (bytes : List UInt8) : (bitsOf bytes).length = 8 * bytes.length := by
  induction bytes with
  | nil => rfl
  | cons b bytes ih =>
      have byte : (byteBits b).length = 8 := length_topBits 8 _
      rw [bitsOf, List.flatMap_cons, List.length_append, byte, ih, List.length_cons]
      omega

/-- A burst of errors in a message changes its CRC. -/
theorem mmcrc16Xmodem_burst (crc : UInt16) {sent received : List UInt8}
    (burst : Burst 16 (bitsOf sent) (bitsOf received)) :
    mmcrc16Xmodem crc sent ≠ mmcrc16Xmodem crc received := by
  have odd : (0x1021 : BitVec 16).getLsbD 0 = true := by decide
  intro same
  rw [mmcrc16Xmodem_eq, mmcrc16Xmodem_eq, crc16Xmodem, crc16Xmodem] at same
  exact crcBits_burst odd crc.toBitVec burst (congrArg UInt16.toBitVec same)

end HalowBridge.Mmutils
