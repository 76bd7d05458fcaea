import HalowBridge.Lib.Crc
import Mathlib.Data.List.GetD

/-!
# Errors that a CRC finds

What is sent is a message with its own CRC behind it, highest bit first: the register that takes in
both is empty in the end, and it is for no other CRC (`crcBits_codeword_iff`). Where the polynomial
has a lowest bit, no two registers become the same by the same bits (`crcBits_injective`), and a run
of bits that is not longer than the register leaves something in it (`crcBits_short`). So errors that
lie within the width of the register are found, wherever they are (`crcBits_burst`).
-/

namespace HalowBridge

variable {w : ℕ} {poly : BitVec w}

theorem crcBits_zero_xor (poly crc other : BitVec w) (bits : List Bool) :
    crcBits poly crc bits ^^^ crcBits poly other bits =
      crcBits poly (crc ^^^ other) (List.replicate bits.length false) := by
  have same : List.zipWith xor bits bits = List.replicate bits.length false := by
    induction bits with
    | nil => rfl
    | cons bit bits ih => rw [List.zipWith_cons_cons, Bool.xor_self, ih]; rfl
  rw [← same, crcBits_xor poly crc other rfl]

/-- A bit that is fed to a register does not empty it. -/
theorem crcBit_ne_zero (odd : poly.getLsbD 0 = true) {crc : BitVec w} (some : crc ≠ 0#w) :
    crcBit poly crc false ≠ 0#w := by
  intro zero
  have width : 0 < w := BitVec.lt_of_getLsbD odd
  have bit (i : ℕ) : (crcBit poly crc false).getLsbD i = false := by
    rw [zero, BitVec.getLsbD_zero]
  rw [crcBit, Bool.xor_false] at bit
  cases top : crc.msb with
  | true =>
      -- The lowest bit of the polynomial is added to one that was shifted in.
      have lowest := bit 0
      rw [top, if_pos rfl, BitVec.getLsbD_xor, odd, BitVec.getLsbD_shiftLeft] at lowest
      simp at lowest
  | false =>
      rw [top, if_neg Bool.false_ne_true, BitVec.xor_zero] at bit
      refine some (BitVec.eq_of_getLsbD_eq fun i lt => ?_)
      rw [BitVec.getLsbD_zero]
      rcases Nat.lt_or_ge (i + 1) w with inside | last
      · have shifted := bit (i + 1)
        rw [BitVec.getLsbD_shiftLeft] at shifted
        simpa [inside] using shifted
      · rw [BitVec.msb_eq_getLsbD_last] at top
        rwa [show w - 1 = i by omega] at top

theorem crcBits_zeros_ne_zero (odd : poly.getLsbD 0 = true) {crc : BitVec w} (some : crc ≠ 0#w)
    (n : ℕ) : crcBits poly crc (List.replicate n false) ≠ 0#w := by
  induction n generalizing crc with
  | zero => exact some
  | succ n ih => exact ih (crcBit_ne_zero odd some)

/-- **Registers that are not the same do not become the same** by the same bits. -/
theorem crcBits_injective (odd : poly.getLsbD 0 = true) {crc other : BitVec w} {bits : List Bool}
    (same : crcBits poly crc bits = crcBits poly other bits) : crc = other := by
  have zero : crcBits poly (crc ^^^ other) (List.replicate bits.length false) = 0#w := by
    rw [← crcBits_zero_xor, same, BitVec.xor_self]
  refine Decidable.byContradiction fun differ => ?_
  exact crcBits_zeros_ne_zero odd (fun equal => differ (BitVec.xor_eq_zero_iff.mp equal)) _ zero

theorem crcBits_zeros (n : ℕ) : crcBits poly 0#w (List.replicate n false) = 0#w := by
  induction n with
  | zero => rfl
  | succ n ih =>
      have zero : crcBit poly 0#w false = 0#w := by
        rw [crcBit, BitVec.msb_zero, Bool.xor_false, if_neg Bool.false_ne_true, BitVec.xor_zero,
          BitVec.zero_shiftLeft]
      rw [List.replicate_succ, crcBits, List.foldl_cons, zero]
      exact ih

theorem topBits_add (n m : ℕ) (x : BitVec w) :
    topBits (n + m) x = topBits n x ++ topBits m (x <<< n) := by
  induction n generalizing x with
  | zero => rw [Nat.zero_add, BitVec.shiftLeft_zero]; rfl
  | succ n ih =>
      rw [Nat.succ_add, topBits, ih, ← BitVec.shiftLeft_add, Nat.add_comm 1 n]
      rfl

theorem topBits_eq_map (n : ℕ) (x : BitVec w) : topBits n x = (List.range n).map x.getMsbD := by
  induction n generalizing x with
  | zero => rfl
  | succ n ih =>
      have shifted : (x <<< 1).getMsbD = x.getMsbD ∘ Nat.succ := by
        funext i
        rw [BitVec.getMsbD_shiftLeft]
        rfl
      rw [topBits, ih, List.range_succ_eq_map, List.map_cons, List.map_map, shifted, BitVec.msb]

/-- Any bits are a word. -/
theorem exists_topBits {bits : List Bool} (length : bits.length = w) :
    ∃ x : BitVec w, topBits w x = bits := by
  subst length
  refine ⟨BitVec.ofBoolListBE bits, ?_⟩
  rw [topBits_eq_map]
  refine List.ext_getElem (by rw [List.length_map, List.length_range]) fun i _ lt => ?_
  rw [List.getElem_map, List.getElem_range, BitVec.getMsbD_ofBoolListBE,
    List.getD_eq_getElem _ _ lt]

/-- A register that takes in a word has taken in the zeros of what the word differs in. -/
theorem crcBits_word (crc y : BitVec w) :
    crcBits poly crc (topBits w y) = crcBits poly (crc ^^^ y) (List.replicate w false) := by
  have whole := crcBits_zero_xor poly crc y (topBits w y)
  rw [crcBits_topBits, BitVec.shiftLeft_eq_zero (Nat.le_refl w), BitVec.xor_zero,
    length_topBits] at whole
  exact whole

/-- **The register is empty behind its own word**, and behind no other. -/
theorem crcBits_codeword_iff (odd : poly.getLsbD 0 = true) (crc y : BitVec w) (bits : List Bool) :
    crcBits poly crc (bits ++ topBits w y) = 0#w ↔ y = crcBits poly crc bits := by
  rw [crcBits_append, crcBits_word]
  constructor
  · intro zero
    refine Decidable.byContradiction fun differ => ?_
    refine crcBits_zeros_ne_zero odd (fun equal => differ ?_) w zero
    exact (BitVec.xor_eq_zero_iff.mp equal).symm
  · rintro rfl
    rw [BitVec.xor_self]
    exact crcBits_zeros w

/-- **A short run of bits leaves something** in an empty register. -/
theorem crcBits_short (odd : poly.getLsbD 0 = true) {bits : List Bool} (fits : bits.length ≤ w)
    (zero : crcBits poly 0#w bits = 0#w) : bits = List.replicate bits.length false := by
  have whole : (List.replicate (w - bits.length) false ++ bits).length = w := by
    rw [List.length_append, List.length_replicate]
    omega
  obtain ⟨x, top⟩ := exists_topBits whole
  have empty : crcBits poly (0#w ^^^ x) (List.replicate w false) = 0#w := by
    rw [← crcBits_word, top, crcBits_append, crcBits_zeros]
    exact zero
  have none : x = 0#w := by
    refine Decidable.byContradiction fun some => ?_
    rw [BitVec.zero_xor] at empty
    exact crcBits_zeros_ne_zero odd some w empty
  have zeros : topBits w (0#w) = List.replicate w false := by
    rw [topBits_eq_map]
    refine List.eq_replicate_iff.mpr ⟨by rw [List.length_map, List.length_range], ?_⟩
    intro bit member
    obtain ⟨i, -, rfl⟩ := List.mem_map.mp member
    exact BitVec.getMsbD_zero
  rw [none, zeros] at top
  refine List.eq_replicate_iff.mpr ⟨rfl, fun bit member => ?_⟩
  have inside : bit ∈ List.replicate w false := by
    rw [top]
    exact List.mem_append_right _ member
  exact List.eq_of_mem_replicate inside

theorem eq_of_zipWith_xor {first second : List Bool} (length : first.length = second.length)
    (same : List.zipWith xor first second = List.replicate first.length false) :
    first = second := by
  induction first generalizing second with
  | nil => exact (List.length_eq_zero_iff.mp length.symm).symm
  | cons bit first ih =>
      cases second with
      | nil => cases length
      | cons other second =>
          rw [List.length_cons, List.length_cons, Nat.succ_inj] at length
          obtain ⟨head, tail⟩ := List.cons.inj same
          rw [bne_eq_false_iff_eq.mp head, ih length tail]

/-- What was received differs from what was sent within `n` bits in a row. -/
def Burst (n : ℕ) (sent received : List Bool) : Prop :=
  ∃ before first second after, sent = before ++ first ++ after ∧
    received = before ++ second ++ after ∧ first.length = second.length ∧ first.length ≤ n ∧
    first ≠ second

theorem Burst.length {n : ℕ} {sent received : List Bool} (burst : Burst n sent received) :
    received.length = sent.length := by
  obtain ⟨before, first, second, after, rfl, rfl, length, -, -⟩ := burst
  simp only [List.length_append, length]

/-- **Errors within the width of the register are found**, wherever they are. -/
theorem crcBits_burst (odd : poly.getLsbD 0 = true) (crc : BitVec w) {sent received : List Bool}
    (burst : Burst w sent received) : crcBits poly crc sent ≠ crcBits poly crc received := by
  obtain ⟨before, first, second, after, rfl, rfl, length, fits, differ⟩ := burst
  intro same
  rw [crcBits_append, crcBits_append, crcBits_append, crcBits_append] at same
  have equal := crcBits_injective odd same
  have zero := crcBits_xor poly (crcBits poly crc before) (crcBits poly crc before) length
  rw [equal, BitVec.xor_self, BitVec.xor_self] at zero
  have short := crcBits_short odd (by rw [List.length_zipWith]; omega) zero
  rw [List.length_zipWith, length, Nat.min_self, ← length] at short
  exact differ (eq_of_zipWith_xor length short)

end HalowBridge
