import HalowBridge.Mmutils.RoundUp

/-!
# A packet in a block

`mmpkt_init_buf` divides a block of memory into the header of a packet, its data buffer and its
metadata, and refuses when the block is too short. The pools have no other check that an allocation
fits a block.

The lengths are 32-bit numbers that the caller chooses, and both the rounding and the sums wrap.
`layoutFits_iff` says for which lengths a packet that is returned lies inside its block: a sum that
wraps must leave a total that the block is too short for. In the special case where the data buffer
takes what the block has left, the comparison with the space at the start is one of signed numbers,
and a space from 2 ^ 31 on is a negative one.
-/

namespace HalowBridge.Pktmem

open Mmutils

/-- `UINT32_MAX` -/
def uint32Max : UInt32 := 0xFFFFFFFF

/-- `struct mmpkt`, in a block. A pointer is an offset into the block. -/
structure Mmpkt where
  buf : UInt32
  bufLen : UInt32
  startOffset : UInt32
  dataLen : UInt32
  metadata : Option UInt32
  deriving DecidableEq

/-- `mmpkt_init` -/
def mmpktInit (buf bufLen dataStartOffset : UInt32) : Mmpkt :=
  ⟨buf, bufLen, dataStartOffset, 0, none⟩

/-- The arguments of `mmpkt_init_buf`, and the size of `struct mmpkt` in the build. -/
structure InitBufArgs where
  sizeofMmpkt : UInt32
  bufLen : UInt32
  spaceAtStart : UInt32
  spaceAtEnd : UInt32
  metadataSize : UInt32

namespace InitBufArgs

variable (args : InitBufArgs)

/-- `header_size` -/
def headerSize : UInt32 := mmFastRoundUp args.sizeofMmpkt 4

/-- `metadata_size`, rounded -/
def roundedMetadataSize : UInt32 := mmFastRoundUp args.metadataSize 4

/-- `data_len`, if it is not already too short. -/
def dataLen : Option UInt32 :=
  if args.spaceAtEnd ≠ uint32Max then
    some (mmFastRoundUp (args.spaceAtStart + args.spaceAtEnd) 4)
  else
    let dataLen := (args.bufLen - args.headerSize - args.roundedMetadataSize) &&& ~~~3
    if dataLen.toInt32 < args.spaceAtStart.toInt32 then none else some dataLen

end InitBufArgs

/-- `mmpkt_init_buf` -/
def mmpktInitBuf (args : InitBufArgs) : Option Mmpkt :=
  match args.dataLen with
  | none => none
  | some dataLen =>
      if args.headerSize + dataLen + args.roundedMetadataSize > args.bufLen then none
      else
        let mmpkt := mmpktInit args.headerSize dataLen args.spaceAtStart
        if args.roundedMetadataSize ≠ 0 then
          some { mmpkt with metadata := some (args.headerSize + dataLen) }
        else some mmpkt

/-- A packet that is returned lies inside the block, and its data inside its buffer. -/
def LayoutFits (args : InitBufArgs) : Prop :=
  ∀ mmpkt, mmpktInitBuf args = some mmpkt →
    args.headerSize.toNat + mmpkt.bufLen.toNat + args.roundedMetadataSize.toNat ≤
        args.bufLen.toNat ∧
      mmpkt.startOffset.toNat ≤ mmpkt.bufLen.toNat ∧
      (args.spaceAtEnd ≠ uint32Max →
        args.spaceAtStart.toNat + args.spaceAtEnd.toNat ≤ mmpkt.bufLen.toNat)

/-- The header and the metadata, in numbers. -/
def overhead (args : InitBufArgs) : ℕ :=
  roundUp4 args.sizeofMmpkt.toNat + roundUp4 args.metadataSize.toNat

/-- The data buffer for a number of bytes makes the whole no longer than 32 bits, or so long
after a wrap that the block is too short. -/
def SumsFit (args : InitBufArgs) : Prop :=
  let space := args.spaceAtStart.toNat + args.spaceAtEnd.toNat
  let whole := overhead args + roundUp4 (space % 4294967296)
  args.bufLen.toNat < whole % 4294967296 ∨ (space ≤ 4294967292 ∧ whole < 4294967296)

/-- What the header and the metadata leave of the block is not negative and neither is the space at
the start; or the first is, and as a signed number it is the smaller one. -/
def RestFits (args : InitBufArgs) : Prop :=
  if overhead args ≤ args.bufLen.toNat then args.spaceAtStart.toNat < 2147483648
  else
    (((args.bufLen.toNat : ℤ) - overhead args) / 4 * 4).bmod 4294967296 <
      (args.spaceAtStart.toNat : ℤ).bmod 4294967296

theorem layoutFits_of_none {args : InitBufArgs} (short : args.dataLen = none) :
    LayoutFits args := by
  intro mmpkt some
  rw [mmpktInitBuf, short] at some
  cases some

/-- The packet that is returned, if the block is long enough. -/
theorem mmpktInitBuf_of_some {args : InitBufArgs} {dataLen : UInt32}
    (length : args.dataLen = some dataLen) :
    (args.bufLen.toNat < (overhead args + dataLen.toNat) % 4294967296 →
      mmpktInitBuf args = none) ∧
      ((overhead args + dataLen.toNat) % 4294967296 ≤ args.bufLen.toNat →
        ∃ mmpkt, mmpktInitBuf args = some mmpkt ∧ mmpkt.bufLen = dataLen ∧
          mmpkt.startOffset = args.spaceAtStart) := by
  have sum : (args.headerSize + dataLen + args.roundedMetadataSize).toNat =
      (overhead args + dataLen.toNat) % 4294967296 := by
    rw [UInt32.toNat_add, UInt32.toNat_add, InitBufArgs.headerSize,
      InitBufArgs.roundedMetadataSize, toNat_mmFastRoundUp, toNat_mmFastRoundUp, overhead]
    omega
  rw [mmpktInitBuf, length]
  dsimp only
  constructor
  · intro short
    rw [if_pos]
    exact UInt32.lt_iff_toNat_lt.mpr (sum ▸ short)
  · intro enough
    rw [if_neg]
    · split
      · exact ⟨_, rfl, rfl, rfl⟩
      · exact ⟨_, rfl, rfl, rfl⟩
    · intro short
      have := UInt32.lt_iff_toNat_lt.mp short
      omega

/-- What is to be shown about a length of the data buffer. -/
theorem layoutFits_iff_of_some {args : InitBufArgs} {dataLen : UInt32}
    (length : args.dataLen = some dataLen) :
    LayoutFits args ↔
      args.bufLen.toNat < (overhead args + dataLen.toNat) % 4294967296 ∨
        (overhead args + dataLen.toNat ≤ args.bufLen.toNat ∧
          args.spaceAtStart.toNat ≤ dataLen.toNat ∧
          (args.spaceAtEnd ≠ uint32Max →
            args.spaceAtStart.toNat + args.spaceAtEnd.toNat ≤ dataLen.toNat)) := by
  have whole : overhead args = args.headerSize.toNat + args.roundedMetadataSize.toNat := by
    rw [InitBufArgs.headerSize, InitBufArgs.roundedMetadataSize, toNat_mmFastRoundUp,
      toNat_mmFastRoundUp, overhead]
  have order : args.headerSize.toNat + dataLen.toNat + args.roundedMetadataSize.toNat =
      overhead args + dataLen.toNat := by omega
  obtain ⟨refused, returned⟩ := mmpktInitBuf_of_some length
  rcases Nat.lt_or_ge args.bufLen.toNat ((overhead args + dataLen.toNat) % 4294967296)
    with short | enough
  · refine iff_of_true (fun mmpkt some => ?_) (.inl short)
    rw [refused short] at some
    cases some
  · obtain ⟨mmpkt, same, rfl, start⟩ := returned enough
    have only : LayoutFits args ↔ _ := ⟨fun fits => fits mmpkt same, fun fits other some => by
      rw [same, Option.some_inj] at some
      exact some ▸ fits⟩
    rw [only, order, start]
    exact (or_iff_right (Nat.not_lt.mpr enough)).symm

/-- The length that was asked for. -/
theorem layoutFits_iff_sumsFit {args : InitBufArgs} (asked : args.spaceAtEnd ≠ uint32Max) :
    LayoutFits args ↔ SumsFit args := by
  have length : args.dataLen =
      some (mmFastRoundUp (args.spaceAtStart + args.spaceAtEnd) 4) := if_pos asked
  have rounded : (mmFastRoundUp (args.spaceAtStart + args.spaceAtEnd) 4).toNat =
      roundUp4 ((args.spaceAtStart.toNat + args.spaceAtEnd.toNat) % 4294967296) := by
    rw [toNat_mmFastRoundUp, UInt32.toNat_add]
  have block := args.bufLen.toNat_lt
  have start := args.spaceAtStart.toNat_lt
  rw [layoutFits_iff_of_some length, rounded, SumsFit]
  refine or_congr_right' fun enough => ?_
  have sum := le_roundUp4_iff (args.spaceAtStart.toNat + args.spaceAtEnd.toNat)
  simp only [asked, ne_eq, not_false_eq_true, true_implies]
  rw [sum]
  constructor
  · rintro ⟨inside, -, space⟩
    exact ⟨space, by omega⟩
  · rintro ⟨space, whole⟩
    have buffer := sum.mpr space
    rw [Nat.mod_eq_of_lt whole] at enough
    exact ⟨Nat.not_lt.mp enough, by omega, space⟩

theorem toInt32_lt_iff (x y : UInt32) :
    x.toInt32 < y.toInt32 ↔
      (x.toNat : ℤ).bmod 4294967296 < (y.toNat : ℤ).bmod 4294967296 := by
  rw [Int32.lt_iff_toInt_lt]
  have signed (z : UInt32) : z.toInt32.toInt = (z.toNat : ℤ).bmod 4294967296 :=
    BitVec.toInt_eq_toNat_bmod z.toBitVec
  rw [signed, signed]

/-- The number that the bits of another stand for when one of them is the sign. -/
theorem bmod_of_lt {n : ℕ} (inside : n < 4294967296) :
    (n : ℤ).bmod 4294967296 = if n < 2147483648 then (n : ℤ) else n - 4294967296 := by
  split
  · exact Int.bmod_eq_of_le (by omega) (by omega)
  · rw [← Int.sub_bmod_right]
    exact Int.bmod_eq_of_le (by omega) (by omega)

/-- What the block has left, on 32 bits and rounded down. -/
def rest (args : InitBufArgs) : UInt32 :=
  (args.bufLen - args.headerSize - args.roundedMetadataSize) &&& ~~~3

theorem toNat_rest (args : InitBufArgs) :
    ((rest args).toNat : ℤ) = ((args.bufLen.toNat : ℤ) - overhead args) / 4 * 4 % 4294967296 := by
  have header := toNat_mmFastRoundUp args.sizeofMmpkt
  have metadata := toNat_mmFastRoundUp args.metadataSize
  have block := args.bufLen.toNat_lt
  rw [rest, toNat_and_not_three, UInt32.toNat_sub, UInt32.toNat_sub, InitBufArgs.headerSize,
    InitBufArgs.roundedMetadataSize, header, metadata, overhead]
  simp only [roundUp4]
  omega

/-- The length that the block has left. -/
theorem layoutFits_iff_restFits {args : InitBufArgs} (whole : args.spaceAtEnd = uint32Max)
    (block : args.bufLen.toNat ≤ 2147483647) : LayoutFits args ↔ RestFits args := by
  have number := toNat_rest args
  have start := args.spaceAtStart.toNat_lt
  have aligned : overhead args % 4 = 0 := by
    simp only [overhead, roundUp4]
    omega
  have signed : ((rest args).toNat : ℤ).bmod 4294967296 =
      (((args.bufLen.toNat : ℤ) - overhead args) / 4 * 4).bmod 4294967296 := by
    rw [number]
    exact Int.emod_bmod _ 4294967296
  have compared := toInt32_lt_iff (rest args) args.spaceAtStart
  rw [RestFits]
  by_cases less : (rest args).toInt32 < args.spaceAtStart.toInt32
  · have short : args.dataLen = none := by
      rw [InitBufArgs.dataLen, if_neg (not_not.mpr whole)]
      exact if_pos less
    refine iff_of_true (layoutFits_of_none short) ?_
    rw [compared] at less
    split
    · rw [bmod_of_lt (rest args).toNat_lt, bmod_of_lt start] at less
      omega
    · rwa [← signed]
  · have length : args.dataLen = some (rest args) := by
      rw [InitBufArgs.dataLen, if_neg (not_not.mpr whole)]
      exact if_neg less
    rw [layoutFits_iff_of_some length]
    rw [compared] at less
    split
    · rw [bmod_of_lt (rest args).toNat_lt, bmod_of_lt start] at less
      simp only [whole, ne_eq, not_true_eq_false, false_implies, and_true]
      omega
    · rw [← signed]
      refine iff_of_false ?_ less
      omega

/-- **When a packet that is returned lies inside its block.** -/
theorem layoutFits_iff (args : InitBufArgs) (block : args.bufLen.toNat ≤ 2147483647) :
    LayoutFits args ↔ if args.spaceAtEnd = uint32Max then RestFits args else SumsFit args := by
  split
  · exact layoutFits_iff_restFits ‹_› block
  · exact layoutFits_iff_sumsFit ‹_›

/-- A block of 64 bytes for a packet of 20 with 6 in front and 8 bytes of metadata. -/
theorem layoutFits_command : LayoutFits ⟨28, 64, 6, 14, 8⟩ := by
  rw [layoutFits_iff _ (by decide), if_neg (by decide)]
  exact .inr (by decide)

/-- The space at the start and the space at the end add up to four bytes, after a wrap. -/
theorem not_layoutFits_wrapped : ¬ LayoutFits ⟨28, 64, 0xFFFFFFFF, 5, 0⟩ := by
  intro fits
  obtain ⟨-, start, -⟩ := fits ⟨28, 4, 0xFFFFFFFF, 0, none⟩ (by decide)
  exact absurd start (by decide)

end HalowBridge.Pktmem
