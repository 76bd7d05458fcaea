import Mathlib.Data.List.Basic

/-!
# Windows of a memory

A memory is a list of cells, a window of it the cells from an offset on, as many as a length says,
and a `splice` writes a block at an offset. What a program reads after a write is a window of a
splice: the block where the window is that of the block, and the old window where the two do not
overlap. Other windows are put together from these by `window_add`.
-/

namespace HalowBridge

variable {α : Type*}

/-- The cells from an offset on. -/
def window (l : List α) (offset n : ℕ) : List α := (l.drop offset).take n

/-- A block is written at an offset. -/
def splice (l : List α) (offset : ℕ) (block : List α) : List α :=
  l.take offset ++ block ++ l.drop (offset + block.length)

variable {l : List α} {offset : ℕ} {block : List α}

theorem length_window {n : ℕ} (inside : offset + n ≤ l.length) :
    (window l offset n).length = n := by
  rw [window, List.length_take, List.length_drop]
  omega

theorem window_zero (l : List α) (offset : ℕ) : window l offset 0 = [] := List.take_zero

/-- A window, cell by cell. -/
theorem window_eq_map {n : ℕ} (inside : offset + n ≤ l.length) (a : α) :
    window l offset n = (List.range n).map fun i => l.getD (offset + i) a := by
  apply List.ext_getElem?
  intro i
  rw [List.getElem?_map]
  by_cases cell : i < n
  · rw [window, List.getElem?_take_of_lt cell, List.getElem?_drop, List.getElem?_range cell,
      Option.map_some, List.getD_eq_getElem?_getD, List.getElem?_eq_getElem (by omega),
      Option.getD_some]
  · rw [List.getElem?_eq_none (by rw [length_window inside]; omega),
      List.getElem?_eq_none (by rw [List.length_range]; omega)]
    rfl

/-- A window in two parts. -/
theorem window_add (l : List α) (offset m n : ℕ) :
    window l offset (m + n) = window l offset m ++ window l (offset + m) n := by
  rw [window, window, window, List.take_add, List.drop_drop]

theorem take_window (l : List α) (offset : ℕ) {m n : ℕ} (le : m ≤ n) :
    (window l offset n).take m = window l offset m := by
  rw [window, window, List.take_take, Nat.min_eq_left le]

theorem drop_window (l : List α) (offset m n : ℕ) :
    (window l offset n).drop m = window l (offset + m) (n - m) := by
  rw [window, window, List.drop_take, List.drop_drop]

theorem length_splice (inside : offset + block.length ≤ l.length) :
    (splice l offset block).length = l.length := by
  rw [splice, List.length_append, List.length_append, List.length_take, List.length_drop]
  omega

/-- A block is read where it was written. -/
theorem window_splice (inside : offset + block.length ≤ l.length) :
    window (splice l offset block) offset block.length = block := by
  have start : (l.take offset).length = offset := by
    rw [List.length_take]
    omega
  rw [window, splice, List.append_assoc, List.drop_left' start, List.take_left]

/-- A window in front of the block. -/
theorem window_splice_of_le {o n : ℕ} (inside : offset + block.length ≤ l.length)
    (before : o + n ≤ offset) : window (splice l offset block) o n = window l o n := by
  have start : (l.take offset).length = offset := by
    rw [List.length_take]
    omega
  rw [window, splice, List.append_assoc, List.drop_append_of_le_length (by omega),
    List.take_append_of_le_length (by rw [List.length_drop]; omega), List.drop_take, List.take_take,
    window, Nat.min_eq_left (by omega)]

/-- A window behind the block. -/
theorem window_splice_of_ge {o n : ℕ} (inside : offset + block.length ≤ l.length)
    (behind : offset + block.length ≤ o) :
    window (splice l offset block) o n = window l o n := by
  have start : (l.take offset ++ block).length = offset + block.length := by
    rw [List.length_append, List.length_take]
    omega
  rw [window, splice, List.drop_append, List.drop_of_length_le (by omega), List.nil_append, start,
    List.drop_drop, Nat.add_sub_cancel' behind, window]

end HalowBridge
