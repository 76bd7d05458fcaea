import Mathlib.Data.Nat.Notation

/-!
# Cyclic redundancy checks

The register of a CRC of any width, to which the bits of the message are fed one by one, the highest
bit of a byte first. There is no reflection and no final xor.

The register is linear in what it holds and what it is fed (`crcBits_xor`), and the bits that stand
at its own top only shift it (`crcBits_topBits`). `crcBits_eq` puts both together: a register takes
in any bits by a shift and a value that depends on the bits and on its own top alone, which can be
looked up in a table.
-/

namespace HalowBridge

variable {w : ℕ}

/-- The register takes in a bit of the message. -/
def crcBit (poly crc : BitVec w) (bit : Bool) : BitVec w :=
  (crc <<< 1) ^^^ if crc.msb ^^ bit then poly else 0#w

def crcBits (poly crc : BitVec w) (bits : List Bool) : BitVec w := bits.foldl (crcBit poly) crc

/-- A message may be taken in parts. -/
theorem crcBits_append (poly crc : BitVec w) (first second : List Bool) :
    crcBits poly crc (first ++ second) = crcBits poly (crcBits poly crc first) second :=
  List.foldl_append

/-- The highest bits of a word, the top one first. -/
def topBits : ℕ → BitVec w → List Bool
  | 0, _ => []
  | n + 1, x => x.msb :: topBits n (x <<< 1)

@[simp] theorem length_topBits (n : ℕ) (x : BitVec w) : (topBits n x).length = n := by
  induction n generalizing x with
  | zero => rfl
  | succ n ih => rw [topBits, List.length_cons, ih]

/-- Words with the same bits at the top, whatever their widths. -/
theorem topBits_congr {v n : ℕ} {x : BitVec w} {y : BitVec v}
    (same : ∀ i < n, x.getMsbD i = y.getMsbD i) : topBits n x = topBits n y := by
  induction n generalizing x y with
  | zero => rfl
  | succ n ih =>
      have first := same 0 n.succ_pos
      have others : ∀ i < n, (x <<< 1).getMsbD i = (y <<< 1).getMsbD i := by
        intro i below
        rw [BitVec.getMsbD_shiftLeft, BitVec.getMsbD_shiftLeft]
        exact same (i + 1) (Nat.succ_lt_succ below)
      rw [topBits, topBits, BitVec.msb, BitVec.msb, first, ih others]

theorem topBits_xor (n : ℕ) (x y : BitVec w) :
    topBits n (x ^^^ y) = List.zipWith xor (topBits n x) (topBits n y) := by
  induction n generalizing x y with
  | zero => rfl
  | succ n ih =>
      rw [topBits, topBits, topBits, List.zipWith_cons_cons, BitVec.msb_xor,
        BitVec.shiftLeft_xor_distrib, ih]

theorem zipWith_xor_cancel {first second : List Bool} (length : first.length = second.length) :
    List.zipWith xor (List.zipWith xor first second) first = second := by
  induction first generalizing second with
  | nil => exact (List.length_eq_zero_iff.mp length.symm).symm
  | cons bit first ih =>
      cases second with
      | nil => cases length
      | cons other second =>
          rw [List.length_cons, List.length_cons, Nat.succ_inj] at length
          rw [List.zipWith_cons_cons, List.zipWith_cons_cons, ih length, Bool.xor_comm bit,
            Bool.xor_assoc, Bool.xor_self, Bool.xor_false]

/-- The polynomial is added for both or for neither. -/
theorem crcBit_xor (poly x y : BitVec w) (first second : Bool) :
    crcBit poly (x ^^^ y) (first ^^ second) = crcBit poly x first ^^^ crcBit poly y second := by
  have added (p q : Bool) : (if p ^^ q then poly else 0#w) =
      (if p then poly else 0#w) ^^^ (if q then poly else 0#w) := by
    cases p <;> cases q <;> simp
  have tops :
      ((x.msb ^^ y.msb) ^^ (first ^^ second)) = ((x.msb ^^ first) ^^ (y.msb ^^ second)) := by
    rw [Bool.xor_assoc, Bool.xor_assoc, Bool.xor_left_comm y.msb]
  rw [crcBit, crcBit, crcBit, BitVec.msb_xor, BitVec.shiftLeft_xor_distrib, tops, added]
  ac_rfl

/-- **The register is linear** in its content and the message. -/
theorem crcBits_xor (poly x y : BitVec w) {first second : List Bool}
    (length : first.length = second.length) :
    crcBits poly (x ^^^ y) (List.zipWith xor first second) =
      crcBits poly x first ^^^ crcBits poly y second := by
  induction first generalizing x y second with
  | nil =>
      obtain rfl := List.length_eq_zero_iff.mp length.symm
      rfl
  | cons bit first ih =>
      cases second with
      | nil => cases length
      | cons other second =>
          rw [List.length_cons, List.length_cons, Nat.succ_inj] at length
          rw [List.zipWith_cons_cons, crcBits, List.foldl_cons, crcBit_xor]
          exact ih _ _ length

/-- The bits at its own top are shifted out of the register and leave nothing behind. -/
theorem crcBits_topBits (poly crc : BitVec w) (n : ℕ) :
    crcBits poly crc (topBits n crc) = crc <<< n := by
  induction n generalizing crc with
  | zero => exact (BitVec.shiftLeft_zero crc).symm
  | succ n ih =>
      have shifted : crcBit poly crc crc.msb = crc <<< 1 := by
        rw [crcBit, Bool.xor_self, if_neg Bool.false_ne_true]
        exact BitVec.xor_zero
      rw [topBits, crcBits, List.foldl_cons, shifted]
      exact (ih (crc <<< 1)).trans (by rw [← BitVec.shiftLeft_add, Nat.add_comm])

/-- **A shift and a value to look up.** -/
theorem crcBits_eq (poly crc : BitVec w) {n : ℕ} {bits : List Bool} (length : bits.length = n) :
    crcBits poly crc bits =
      crcBits poly 0#w (List.zipWith xor (topBits n crc) bits) ^^^ crc <<< n := by
  have tops : (topBits n crc).length = bits.length := (length_topBits n crc).trans length.symm
  have whole := crcBits_xor poly 0#w crc
    (show (List.zipWith xor (topBits n crc) bits).length = (topBits n crc).length by
      rw [List.length_zipWith, tops, Nat.min_self])
  rwa [zipWith_xor_cancel tops, crcBits_topBits, BitVec.zero_xor] at whole

end HalowBridge
