import Mathlib.Data.Nat.Notation

/-!
# Packed numbers and collected output

`packLe` and `unpackLe` are the little-endian fields of a binary format, of any width in bytes; a
number below the `capacity` of its field is read back. The words that C puts together with shifts
are these numbers. `collect` puts together what a loop writes, where a step may fail.
-/

namespace HalowBridge

/-- The number in `width` bytes, the lowest first. -/
def packLe : ℕ → ℕ → List UInt8
  | 0, _ => []
  | width + 1, n => UInt8.ofNat n :: packLe width (n / 256)

def unpackLe : List UInt8 → ℕ
  | [] => 0
  | b :: bytes => b.toNat + 256 * unpackLe bytes

/-- How many numbers there are in `width` bytes. -/
def capacity : ℕ → ℕ
  | 0 => 1
  | width + 1 => 256 * capacity width

@[simp] theorem length_packLe (width n : ℕ) : (packLe width n).length = width := by
  induction width generalizing n with
  | zero => rfl
  | succ width ih => rw [packLe, List.length_cons, ih]

theorem unpackLe_packLe {width n : ℕ} (fits : n < capacity width) :
    unpackLe (packLe width n) = n := by
  induction width generalizing n with
  | zero =>
      rw [capacity] at fits
      rw [packLe, unpackLe]
      omega
  | succ width ih =>
      rw [capacity] at fits
      rw [packLe, unpackLe, ih (by omega), UInt8.toNat_ofNat']
      omega

theorem unpackLe_lt (bytes : List UInt8) : unpackLe bytes < capacity bytes.length := by
  induction bytes with
  | nil => exact Nat.one_pos
  | cons b bytes ih =>
      have byte := b.toNat_lt
      rw [unpackLe, List.length_cons, capacity]
      omega

/-- What is read is packed to the same bytes. -/
theorem packLe_unpackLe (bytes : List UInt8) : packLe bytes.length (unpackLe bytes) = bytes := by
  induction bytes with
  | nil => rfl
  | cons b bytes ih =>
      have byte := b.toNat_lt
      have low : UInt8.ofNat (unpackLe (b :: bytes)) = b := by
        rw [← UInt8.toNat_inj, UInt8.toNat_ofNat', unpackLe]
        omega
      have high : unpackLe (b :: bytes) / 256 = unpackLe bytes := by
        rw [unpackLe]
        omega
      rw [List.length_cons, packLe, low, high, ih]

/-- The number in `width` bytes, the highest first. -/
def packBe (width n : ℕ) : List UInt8 := (packLe width n).reverse

@[simp] theorem length_packBe (width n : ℕ) : (packBe width n).length = width := by
  rw [packBe, List.length_reverse, length_packLe]

theorem exists_packLe {width : ℕ} {bytes : List UInt8} (long : width ≤ bytes.length) :
    ∃ n < capacity width, ∃ rest, bytes = packLe width n ++ rest := by
  have length : (bytes.take width).length = width := by
    rw [List.length_take]
    omega
  have bound := unpackLe_lt (bytes.take width)
  have packed := packLe_unpackLe (bytes.take width)
  rw [length] at bound packed
  refine ⟨unpackLe (bytes.take width), bound, bytes.drop width, ?_⟩
  rw [packed, List.take_append_drop]

theorem exists_packBe {width : ℕ} {bytes : List UInt8} (long : width ≤ bytes.length) :
    ∃ n < capacity width, ∃ rest, bytes = packBe width n ++ rest := by
  have length : (bytes.take width).reverse.length = width := by
    rw [List.length_reverse, List.length_take]
    omega
  have bound := unpackLe_lt (bytes.take width).reverse
  have packed := packLe_unpackLe (bytes.take width).reverse
  rw [length] at bound packed
  refine ⟨unpackLe (bytes.take width).reverse, bound, bytes.drop width, ?_⟩
  rw [packBe, packed, List.reverse_reverse, List.take_append_drop]

/-! ## Words put together from bytes -/

theorem toNat_byte_shiftLeft (byte : UInt8) {k : UInt32} (le : k.toNat ≤ 24) :
    (byte.toUInt32 <<< k).toNat = byte.toNat <<< k.toNat := by
  have lt := byte.toNat_lt
  have small : byte.toNat <<< k.toNat < 4294967296 := by
    rw [Nat.shiftLeft_eq]
    calc byte.toNat * 2 ^ k.toNat ≤ 255 * 2 ^ 24 :=
          Nat.mul_le_mul (by omega) (Nat.pow_le_pow_right (by decide) le)
      _ < 4294967296 := by decide
  rw [UInt32.toNat_shiftLeft, UInt8.toNat_toUInt32, Nat.mod_eq_of_lt (a := k.toNat) (by omega)]
  exact Nat.mod_eq_of_lt small

theorem toNat_bytes (a b c d : UInt8) :
    (a.toUInt32 <<< 24 ||| b.toUInt32 <<< 16 ||| c.toUInt32 <<< 8 ||| d.toUInt32).toNat =
      a.toNat * 16777216 + b.toNat * 65536 + c.toNat * 256 + d.toNat := by
  have bLt := b.toNat_lt
  have cLt := c.toNat_lt
  have dLt := d.toNat_lt
  rw [UInt32.toNat_or, UInt32.toNat_or, UInt32.toNat_or, toNat_byte_shiftLeft a (by decide),
    toNat_byte_shiftLeft b (by decide), toNat_byte_shiftLeft c (by decide), UInt8.toNat_toUInt32]
  show a.toNat <<< 24 ||| b.toNat <<< 16 ||| c.toNat <<< 8 ||| d.toNat = _
  -- From the right, each byte lies below the bits of the one before it.
  rw [Nat.or_assoc, Nat.or_assoc, ← Nat.shiftLeft_add_eq_or_of_lt (by omega) c.toNat,
    ← Nat.shiftLeft_add_eq_or_of_lt (by omega) b.toNat,
    ← Nat.shiftLeft_add_eq_or_of_lt (by omega) a.toNat]
  omega

theorem toNat_two_bytes (a b : UInt8) :
    (a.toUInt16 ||| b.toUInt16 <<< 8).toNat = unpackLe [a, b] := by
  have aLt := a.toNat_lt
  have bLt := b.toNat_lt
  have small : b.toNat <<< 8 < 65536 := by
    rw [Nat.shiftLeft_eq]
    omega
  have shifted : (b.toUInt16 <<< 8).toNat = b.toNat <<< 8 := by
    rw [UInt16.toNat_shiftLeft, UInt8.toNat_toUInt16]
    exact Nat.mod_eq_of_lt small
  rw [UInt16.toNat_or, shifted, UInt8.toNat_toUInt16, Nat.or_comm,
    ← Nat.shiftLeft_add_eq_or_of_lt (by omega) b.toNat, Nat.shiftLeft_eq, unpackLe, unpackLe,
    unpackLe]
  omega

/-- Four bytes that are read with the highest first. -/
theorem toNat_four_bytes (a b c d : UInt8) :
    (a.toUInt32 <<< 24 ||| b.toUInt32 <<< 16 ||| c.toUInt32 <<< 8 ||| d.toUInt32).toNat =
      unpackLe [d, c, b, a] := by
  rw [toNat_bytes]
  simp only [unpackLe]
  omega

/-! ## Output that may fail -/

/-- The output of all steps, unless one fails. -/
def collect {α β : Type*} (f : α → Option (List β)) : List α → Option (List β)
  | [] => some []
  | a :: as => do
      let first ← f a
      let rest ← collect f as
      return first ++ rest

theorem collect_cons {α β : Type*} {f : α → Option (List β)} {a : α} {as : List α}
    {first rest : List β} (head : f a = some first) (tail : collect f as = some rest) :
    collect f (a :: as) = some (first ++ rest) := by
  rw [collect, head, tail]
  rfl

theorem collect_cons_eq_some {α β : Type*} {f : α → Option (List β)} {a : α} {as : List α}
    {out : List β} (collected : collect f (a :: as) = some out) :
    ∃ first rest, f a = some first ∧ collect f as = some rest ∧ out = first ++ rest := by
  rw [collect] at collected
  obtain ⟨first, head, more⟩ := Option.bind_eq_some_iff.mp collected
  obtain ⟨rest, tail, done⟩ := Option.bind_eq_some_iff.mp more
  exact ⟨first, rest, head, tail, (Option.some.inj done).symm⟩

theorem collect_append {α β : Type*} {f : α → Option (List β)} {as bs : List α}
    {first second : List β} (left : collect f as = some first)
    (right : collect f bs = some second) : collect f (as ++ bs) = some (first ++ second) := by
  induction as generalizing first with
  | nil =>
      obtain rfl := Option.some.inj left
      exact right
  | cons a as ih =>
      obtain ⟨block, rest, head, tail, rfl⟩ := collect_cons_eq_some left
      rw [List.cons_append, List.append_assoc]
      exact collect_cons head (ih tail)

end HalowBridge
