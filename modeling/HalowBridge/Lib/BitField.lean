import Mathlib.Algebra.Group.Nat.Defs
import Mathlib.Data.List.Forall2

/-!
# Fields of a word

A word with a layout is put together from numbers that are shifted to the offsets of their fields,
and or-ed. Nothing masks a number to the width of its field. `unpack_eq_iff` says when this is good
enough: where no two fields share a bit, the numbers are read back if and only if each of them fits
its field.
-/

namespace HalowBridge

/-- The bits `offset` to `offset + width - 1` of a word. -/
structure BitField where
  offset : ℕ
  width : ℕ

namespace BitField

variable (f g : BitField)

/-- The number that a word has in a field. -/
def get (word : ℕ) : ℕ := (word >>> f.offset) % 2 ^ f.width

/-- A number, shifted to its field. -/
def place (value : ℕ) : ℕ := value <<< f.offset

/-- A number of no more bits than the field has. -/
def Fits (value : ℕ) : Prop := value < 2 ^ f.width

instance (value : ℕ) : Decidable (f.Fits value) := inferInstanceAs (Decidable (value < 2 ^ f.width))

/-- Two fields without a common bit. -/
def Apart : Prop := f.offset + f.width ≤ g.offset ∨ g.offset + g.width ≤ f.offset

instance : Decidable (f.Apart g) :=
  inferInstanceAs (Decidable (f.offset + f.width ≤ g.offset ∨ g.offset + g.width ≤ f.offset))

variable {f g}

theorem Apart.symm (apart : f.Apart g) : g.Apart f := Or.symm apart

theorem get_fits (word : ℕ) : f.Fits (f.get word) := Nat.mod_lt _ (Nat.two_pow_pos _)

theorem testBit_get (word i : ℕ) :
    (f.get word).testBit i = (decide (i < f.width) && word.testBit (f.offset + i)) := by
  rw [get, Nat.testBit_mod_two_pow, Nat.testBit_shiftRight]

theorem testBit_place (value i : ℕ) :
    (f.place value).testBit i = (decide (f.offset ≤ i) && value.testBit (i - f.offset)) := by
  rw [place, Nat.testBit_shiftLeft]

theorem get_or (a b : ℕ) : f.get (a ||| b) = f.get a ||| f.get b := by
  refine Nat.eq_of_testBit_eq fun i => ?_
  rw [testBit_get, Nat.testBit_or, Nat.testBit_or, testBit_get, testBit_get,
    Bool.and_or_distrib_left]

theorem get_place {value : ℕ} (fits : f.Fits value) : f.get (f.place value) = value := by
  rw [get, place, Nat.shiftLeft_shiftRight]
  exact Nat.mod_eq_of_lt fits

/-- A number that fits its field leaves the bits of the other fields clear. -/
theorem get_place_of_apart {value : ℕ} (apart : f.Apart g) (fits : g.Fits value) :
    f.get (g.place value) = 0 := by
  refine Nat.eq_of_testBit_eq fun i => ?_
  rw [testBit_get, testBit_place, Nat.zero_testBit]
  rcases apart with below | above
  · -- The bits of `f` lie below those to which the number is shifted.
    by_cases inside : i < f.width
    · rw [decide_eq_false (by omega : ¬g.offset ≤ f.offset + i), Bool.false_and, Bool.and_false]
    · rw [decide_eq_false inside, Bool.false_and]
  · -- Above its field, the number has no bits.
    have high : value < 2 ^ (f.offset + i - g.offset) :=
      Nat.lt_of_lt_of_le fits (Nat.pow_le_pow_right Nat.two_pos (by omega))
    rw [Nat.testBit_lt_two_pow high, Bool.and_false, Bool.and_false]

/-! ## Layouts -/

/-- The word of some numbers, each in its field. -/
def pack : List BitField → List ℕ → ℕ
  | f :: fields, value :: values => f.place value ||| pack fields values
  | _, _ => 0

/-- The numbers in the fields of a word. -/
def unpack (fields : List BitField) (word : ℕ) : List ℕ := fields.map (·.get word)

theorem get_pack_of_apart {fields : List BitField} {values : List ℕ}
    (apart : ∀ g ∈ fields, f.Apart g) (fits : List.Forall₂ Fits fields values) :
    f.get (pack fields values) = 0 := by
  induction fits with
  | nil =>
      show f.get 0 = 0
      rw [get, Nat.zero_shiftRight, Nat.zero_mod]
  | cons first _ ih =>
      rw [pack, get_or, get_place_of_apart (apart _ List.mem_cons_self) first,
        ih fun g member => apart g (List.mem_cons_of_mem _ member), Nat.or_zero]

theorem unpack_place_or {fields : List BitField} {value : ℕ} (apart : ∀ g ∈ fields, f.Apart g)
    (fits : f.Fits value) (word : ℕ) :
    unpack fields (f.place value ||| word) = unpack fields word := by
  refine List.map_congr_left fun g member => ?_
  rw [get_or, get_place_of_apart (apart g member).symm fits, Nat.zero_or]

/-- No word gives a number back that does not fit its field. -/
theorem fits_of_unpack {fields : List BitField} {values : List ℕ} {word : ℕ}
    (same : unpack fields word = values) : List.Forall₂ Fits fields values := by
  rw [← same, unpack, List.forall₂_map_right_iff, List.forall₂_same]
  exact fun f _ => get_fits _

/-- Numbers that fit are read back. -/
theorem unpack_pack {fields : List BitField} {values : List ℕ} (apart : fields.Pairwise Apart)
    (fits : List.Forall₂ Fits fields values) : unpack fields (pack fields values) = values := by
  induction fits with
  | nil => rfl
  | cons first rest ih =>
      rw [List.pairwise_cons] at apart
      rw [pack, unpack, List.map_cons, get_or, get_place first, get_pack_of_apart apart.1 rest,
        Nat.or_zero]
      exact congrArg _ ((unpack_place_or apart.1 first _).trans (ih apart.2))

/-- A word that is put together right as long as the numbers fit gives them back if and only if they
do. -/
theorem unpack_eq_iff {fields : List BitField} {values : List ℕ} {word : ℕ}
    (apart : fields.Pairwise Apart)
    (packed : List.Forall₂ Fits fields values → word = pack fields values) :
    unpack fields word = values ↔ List.Forall₂ Fits fields values := by
  refine ⟨fits_of_unpack, fun fits => ?_⟩
  rw [packed fits]
  exact unpack_pack apart fits

end BitField

end HalowBridge
