import HalowBridge.Lib.Table
import Mathlib.Algebra.Group.Int.Defs
import Mathlib.Data.List.TakeWhile

/-!
# Strings in byte arrays

A C string is the part of an array before its first NUL, `cstr`. The operations of the C library
are stated on the array, with the padding and the truncation the standard gives them: `strncpy`
pads with NUL bytes and need not terminate, `snprintf` terminates and may cut, and `atoi` skips
blanks, takes a sign and stops at the first byte that is no digit.

Reading a string back after a write is what their lemmas are about. `strncpyTerminated` is the idiom
that copies into all but the last byte of an array and terminates it there.
-/

namespace HalowBridge

/-- The bytes of an ASCII literal. -/
def ascii (text : String) : List UInt8 := text.toList.map Char.toUInt8

/-- Reading up to a separator stops at the first one. -/
theorem takeWhile_append_cons {text : List UInt8} {stop : UInt8} (absent : stop ∉ text)
    (rest : List UInt8) : (text ++ stop :: rest).takeWhile (· != stop) = text := by
  rw [List.takeWhile_append_of_pos]
  · simp
  · intro c member
    simpa using fun same : c = stop => absent (same ▸ member)

/-- The string an array holds: its bytes before the first NUL. -/
def cstr (bytes : List UInt8) : List UInt8 := bytes.takeWhile (· != 0)

theorem cstr_append_zero {text : List UInt8} (clean : 0 ∉ text) (rest : List UInt8) :
    cstr (text ++ 0 :: rest) = text :=
  takeWhile_append_cons clean rest

theorem cstr_eq_self {text : List UInt8} (clean : 0 ∉ text) : cstr text = text := by
  refine List.takeWhile_eq_self_iff.mpr fun c member => ?_
  simpa using fun zero : c = 0 => clean (zero ▸ member)

theorem cstr_cons {c : UInt8} (nonzero : c ≠ 0) (bytes : List UInt8) :
    cstr (c :: bytes) = c :: cstr bytes :=
  List.takeWhile_cons_of_pos (by simpa using nonzero)

theorem cstr_append_cons_zero (bytes rest : List UInt8) :
    cstr (bytes ++ 0 :: rest) = cstr bytes := by
  induction bytes with
  | nil => rfl
  | cons c bytes ih =>
      by_cases zero : c = 0
      · subst zero
        rfl
      · rw [List.cons_append, cstr_cons zero, cstr_cons zero, ih]

theorem zero_not_mem_cstr (bytes : List UInt8) : 0 ∉ cstr bytes := by
  intro member
  simpa using List.mem_takeWhile_imp member

theorem zero_not_mem_take_cstr (bytes : List UInt8) (n : ℕ) : 0 ∉ (cstr bytes).take n :=
  fun member => zero_not_mem_cstr bytes (List.mem_of_mem_take member)

/-- A terminated array holds its string, a NUL, and whatever follows. -/
theorem exists_cstr_append {bytes : List UInt8} (terminated : 0 ∈ bytes) :
    ∃ rest, bytes = cstr bytes ++ 0 :: rest := by
  induction bytes with
  | nil => cases terminated
  | cons c bytes ih =>
      by_cases zero : c = 0
      · subst zero
        exact ⟨bytes, rfl⟩
      · rcases ih ((List.mem_cons.mp terminated).resolve_left (Ne.symm zero)) with ⟨rest, split⟩
        refine ⟨rest, ?_⟩
        rw [cstr_cons zero, List.cons_append, ← split]

theorem length_cstr_lt {n : ℕ} {t : Table UInt8 n} (terminated : 0 ∈ t.slots) :
    (cstr t.slots).length < n := by
  rcases exists_cstr_append terminated with ⟨rest, split⟩
  have := congrArg List.length split
  rw [t.length_eq, List.length_append, List.length_cons] at this
  omega

/-- The test of the first byte is a test for the empty string. -/
theorem headD_eq_zero_iff {bytes : List UInt8} : bytes.headD 0 = 0 ↔ cstr bytes = [] := by
  cases bytes with
  | nil => simp [cstr]
  | cons c bytes => by_cases zero : c = 0 <;> simp [cstr, zero]

/-! ## Copying -/

/-- The `n` bytes `strncpy` writes: the string cut to `n`, padded with NUL bytes. -/
def padded (text : List UInt8) (n : ℕ) : List UInt8 :=
  (cstr text).take n ++ List.replicate (n - (cstr text).length) 0

def strncpy {m : ℕ} (dst : Table UInt8 m) (src : List UInt8) (n : ℕ) : Table UInt8 m :=
  dst.overwrite (padded src n)

theorem length_padded (text : List UInt8) (n : ℕ) : (padded text n).length = n := by
  rw [padded, List.length_append, List.length_take, List.length_replicate]
  omega

/-- The padding reads as the NUL behind the string does. -/
theorem getD_padded (text : List UInt8) {n i : ℕ} (inside : i < n) :
    (padded text n).getD i 0 = (cstr text).getD i 0 := by
  rw [padded, List.getD_eq_getElem?_getD, List.getD_eq_getElem?_getD]
  by_cases short : i < (cstr text).length
  · rw [List.getElem?_append_left (by rw [List.length_take]; omega),
      List.getElem?_take_of_lt inside]
  · have past : (cstr text)[i]? = none := List.getElem?_eq_none (by omega)
    rw [past, List.getElem?_append_right (by rw [List.length_take]; omega),
      List.getElem?_replicate]
    split <;> rfl

/-- Copy into all but the last byte, and terminate there. -/
def strncpyTerminated {m : ℕ} (dst : Table UInt8 m) (src : List UInt8) : Table UInt8 m :=
  (strncpy dst src (m - 1)).set (m - 1) 0

theorem strncpyTerminated_slots {m : ℕ} (nonempty : 0 < m) (dst : Table UInt8 m)
    (src : List UInt8) : (strncpyTerminated dst src).slots = padded src (m - 1) ++ [0] := by
  have block := length_padded src (m - 1)
  have fits : (padded src (m - 1)).length ≤ m := by omega
  obtain ⟨last, tail⟩ : ∃ c, dst.slots.drop (m - 1) = [c] := by
    apply List.length_eq_one_iff.mp
    rw [List.length_drop, dst.length_eq]
    omega
  rw [strncpyTerminated, Table.set_slots, strncpy, Table.overwrite_slots fits, block, tail]
  nth_rewrite 2 [← block]
  rw [List.set_append_right _ _ (Nat.le_refl _), Nat.sub_self]
  rfl

/-- The copied string is the source cut to fit. -/
theorem cstr_strncpyTerminated {m : ℕ} (nonempty : 0 < m) (dst : Table UInt8 m)
    (src : List UInt8) : cstr (strncpyTerminated dst src).slots = (cstr src).take (m - 1) := by
  have clean := zero_not_mem_take_cstr src (m - 1)
  rw [strncpyTerminated_slots nonempty, padded, List.append_assoc]
  cases pad : m - 1 - (cstr src).length with
  | zero => exact cstr_append_zero clean []
  | succ k => exact cstr_append_zero clean _

theorem zero_mem_strncpyTerminated {m : ℕ} (nonempty : 0 < m) (dst : Table UInt8 m)
    (src : List UInt8) : 0 ∈ (strncpyTerminated dst src).slots := by
  rw [strncpyTerminated_slots nonempty]
  exact List.mem_append_right _ (List.mem_singleton_self _)

/-! ## Formatting -/

/-- Copy a block over the bytes from `n` on. -/
def poke (out : List UInt8) (n : ℕ) (block : List UInt8) : List UInt8 :=
  out.take n ++ block ++ out.drop (n + block.length)

/-- `snprintf(out + n, size, text)` for a text without conversions: the text cut to `size - 1`
bytes, and a NUL. It returns the length of the whole text. -/
def snprintf (out : List UInt8) (n size : ℕ) (text : List UInt8) : List UInt8 × ℕ :=
  (if size = 0 then out else poke out n (text.take (size - 1) ++ [0]), text.length)

theorem length_poke {out block : List UInt8} {n : ℕ} (fits : n + block.length ≤ out.length) :
    (poke out n block).length = out.length := by
  simp only [poke, List.length_append, List.length_take, List.length_drop]
  omega

theorem take_poke {out block : List UInt8} {n : ℕ} (fits : n + block.length ≤ out.length)
    {k : ℕ} (le : k ≤ block.length) :
    (poke out n block).take (n + k) = out.take n ++ block.take k := by
  have before : (out.take n).length = n := List.length_take_of_le (by omega)
  rw [poke, List.append_assoc]
  nth_rewrite 1 [← before]
  rw [List.take_length_add_append, List.take_append_of_le_length le]

/-- A text that fits is written whole. -/
theorem snprintf_of_lt {out text : List UInt8} {n size : ℕ} (fits : text.length < size)
    (inside : n + size ≤ out.length) :
    (snprintf out n size text).1.length = out.length ∧
      (snprintf out n size text).1.take (n + text.length) = out.take n ++ text := by
  have whole : text.take (size - 1) = text := List.take_of_length_le (by omega)
  have room : n + (text ++ [0]).length ≤ out.length := by
    rw [List.length_append, List.length_singleton]
    omega
  have nonzero : size ≠ 0 := by omega
  simp only [snprintf, nonzero, ↓reduceIte, whole]
  refine ⟨length_poke room, ?_⟩
  rw [take_poke room (by simp), List.take_left]

/-! ## Numbers -/

def isspace (c : UInt8) : Bool := c == 0x20 || (9 ≤ c && c ≤ 13)

def isdigit (c : UInt8) : Bool := 0x30 ≤ c && c ≤ 0x39

/-- The value of the leading digits. -/
def digitsValue (text : List UInt8) : ℕ :=
  (text.takeWhile isdigit).foldl (fun value c => 10 * value + (c.toNat - 0x30)) 0

/-- `strtol` in base 10 with a 32-bit `long`: a value out of range is the bound it passed. -/
def atoi (bytes : List UInt8) : ℤ :=
  let value : ℤ :=
    match (cstr bytes).dropWhile isspace with
    | [] => 0
    | c :: text =>
        if c = 0x2d then -(digitsValue text : ℤ)
        else if c = 0x2b then digitsValue text
        else digitsValue (c :: text)
  max (-2 ^ 31) (min (2 ^ 31 - 1) value)

end HalowBridge
