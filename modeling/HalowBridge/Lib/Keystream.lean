import Mathlib.Algebra.Group.Nat.Defs
import Mathlib.Data.List.GetD

/-!
# Output of a block function

A function that expands a key writes the values of a block function one after the other, cuts the
last of them, and may clear some bits at the end. What it should write is the beginning of a
`stream`.

`store` is a `memcpy` to an address and `fill` a memory with the first cells of a function at an
address: `store_block` puts one block, or the front of one, behind those that are there.
`bitAt_firstBits` counts the bits of the bytes from the highest.
-/

namespace HalowBridge.Keystream

section

variable {α : Type*}

/-- The memory after some cells were copied to an address. -/
def store (mem : ℕ → α) (addr : ℕ) (cells : List α) : ℕ → α := fun a =>
  if addr ≤ a then cells.getD (a - addr) (mem a) else mem a

/-- The memory with the first `n` values of `f` at an address. -/
def fill (mem : ℕ → α) (addr n : ℕ) (f : ℕ → α) : ℕ → α := fun a =>
  if addr ≤ a ∧ a < addr + n then f (a - addr) else mem a

variable {mem : ℕ → α} {addr n : ℕ} {f : ℕ → α}

@[simp] theorem fill_zero : fill mem addr 0 f = mem := by
  funext a
  rw [fill, if_neg (by omega)]

theorem fill_inside {i : ℕ} (lt : i < n) : fill mem addr n f (addr + i) = f i := by
  rw [fill, if_pos ⟨Nat.le_add_right addr i, Nat.add_lt_add_left lt addr⟩, Nat.add_sub_cancel_left]

theorem fill_outside {a : ℕ} (outside : a < addr ∨ addr + n ≤ a) :
    fill mem addr n f a = mem a := by
  rw [fill, if_neg (by omega)]

theorem fill_congr {g : ℕ → α} (same : ∀ i < n, f i = g i) :
    fill mem addr n f = fill mem addr n g := by
  funext a
  rw [fill, fill]
  split
  next inside => exact same _ (by omega)
  next => rfl

/-- Cells that go on where the ones that are there end. -/
theorem store_fill {cells : List α} (same : ∀ i (h : i < cells.length), cells[i] = f (n + i)) :
    store (fill mem addr n f) (addr + n) cells = fill mem addr (n + cells.length) f := by
  funext a
  rw [store]
  split
  next above =>
    by_cases inside : a - (addr + n) < cells.length
    · rw [List.getD_eq_getElem _ _ inside, same, fill, if_pos (by omega)]
      congr 1
      omega
    · rw [List.getD_eq_default _ _ (Nat.not_lt.mp inside), fill_outside (.inr above),
        fill_outside (.inr (by omega))]
  next below =>
    rw [fill, fill]
    exact if_congr (by omega) rfl rfl

/-- Values that go on where those that are there end. -/
theorem fill_fill {m : ℕ} :
    fill (fill mem addr n f) (addr + n) m (fun i => f (n + i)) = fill mem addr (n + m) f := by
  funext a
  rw [fill, fill, fill]
  split
  next second =>
    rw [if_pos (by omega)]
    congr 1
    omega
  next other => exact if_congr (by omega) rfl rfl

/-- The first values that are written again. -/
theorem fill_again {m : ℕ} : fill (fill mem addr n f) addr m f = fill mem addr (max n m) f := by
  funext a
  rw [fill, fill, fill]
  split
  next second => rw [if_pos (by omega)]
  next other => exact if_congr (by omega) rfl rfl

theorem store_single (mem : ℕ → α) (addr : ℕ) (b : α) (a : ℕ) :
    store mem addr [b] a = if a = addr then b else mem a := by
  rw [store]
  split
  next above =>
    split
    next here => rw [here, Nat.sub_self, List.getD_cons_zero]
    next => exact List.getD_eq_default _ _ (by show 1 ≤ _; omega)
  next below => rw [if_neg (by omega)]

/-- A cell that is written again. -/
theorem store_fill_cell {i : ℕ} (lt : i < n) (b : α) :
    store (fill mem addr n f) (addr + i) [b] =
      fill mem addr n (fun j => if j = i then b else f j) := by
  funext a
  rw [store_single]
  by_cases outside : a < addr ∨ addr + n ≤ a
  · rw [fill_outside outside, fill_outside outside, if_neg (by omega)]
  · obtain ⟨j, rfl⟩ : ∃ j, a = addr + j := ⟨a - addr, by omega⟩
    rw [fill_inside (by omega), fill_inside (by omega)]
    exact if_congr (by omega) rfl rfl

end

/-! ## Streams of blocks -/

section

variable {α : Type*} [Inhabited α]

/-- The values of a block function, one after the other. -/
def stream (block : ℕ → List α) (size : ℕ) (j : ℕ) : α :=
  (block (j / size)).getD (j % size) default

variable {block : ℕ → List α} {size : ℕ}

theorem stream_block (i : ℕ) {j : ℕ} (lt : j < size) :
    stream block size (size * i + j) = (block i).getD j default := by
  rw [stream, Nat.mul_add_div (by omega), Nat.div_eq_of_lt lt, Nat.add_zero, Nat.mul_add_mod,
    Nat.mod_eq_of_lt lt]

/-- The front of the next block is the next part of the stream. -/
theorem store_block {mem : ℕ → α} {addr : ℕ} (i : ℕ) (length : (block i).length = size) {k : ℕ}
    (le : k ≤ size) :
    store (fill mem addr (size * i) (stream block size)) (addr + size * i) ((block i).take k) =
      fill mem addr (size * i + k) (stream block size) := by
  have taken : ((block i).take k).length = k := by
    rw [List.length_take]
    omega
  rw [store_fill, taken]
  intro j inside
  rw [taken] at inside
  rw [stream_block i (by omega), List.getElem_take, List.getD_eq_getElem _ _ (by omega)]

end

/-! ## Bits -/

/-- The bits of bytes in order, from the highest bit of the first byte. -/
def bitAt (f : ℕ → UInt8) (k : ℕ) : Bool := (f (k / 8)).toNat.testBit (7 - k % 8)

/-- The byte with all but its `r` highest bits cleared. -/
def keepHigh (r : ℕ) (b : UInt8) : UInt8 := b &&& UInt8.ofNat (0xff <<< (8 - r))

theorem testBit_keepHigh {r : ℕ} (le : r ≤ 8) (b : UInt8) {i : ℕ} (lt : i < 8) :
    (keepHigh r b).toNat.testBit (7 - i) = (decide (i < r) && b.toNat.testBit (7 - i)) := by
  have ones : 255 = 2 ^ 8 - 1 := rfl
  have mask : (0xff <<< (8 - r) % 2 ^ 8).testBit (7 - i) = decide (i < r) := by
    rw [Nat.testBit_mod_two_pow, Nat.testBit_shiftLeft, ones, Nat.testBit_two_pow_sub_one,
      decide_eq_true (by omega : 7 - i < 8), decide_eq_true (by omega : 7 - i - (8 - r) < 8),
      Bool.true_and, Bool.and_true]
    exact decide_eq_decide.mpr (by omega)
  rw [keepHigh, UInt8.toNat_and, UInt8.toNat_ofNat', Nat.testBit_and, mask, Bool.and_comm]

/-- The bytes of `f` up to a number of bits. The bits of the last byte that are not used are
zero. -/
def firstBits (bits : ℕ) (f : ℕ → UInt8) (j : ℕ) : UInt8 :=
  if j = bits / 8 then keepHigh (bits % 8) (f j) else f j

theorem bitAt_firstBits (bits : ℕ) (f : ℕ → UInt8) {k : ℕ} (lt : k < 8 * ((bits + 7) / 8)) :
    bitAt (firstBits bits f) k = (decide (k < bits) && bitAt f k) := by
  rw [bitAt, bitAt, firstBits]
  split
  next last =>
    rw [testBit_keepHigh (by omega) _ (Nat.mod_lt k (by decide))]
    congr 1
    exact decide_eq_decide.mpr (by omega)
  next earlier => rw [decide_eq_true (by omega : k < bits), Bool.true_and]

end HalowBridge.Keystream
