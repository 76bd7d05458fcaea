import HalowBridge.Lib.Reversible
import Mathlib.Data.List.FinRange
import Mathlib.Logic.Equiv.Defs
import Mathlib.Logic.Function.Basic

/-!
# Key wrap

`aes_unwrap` takes six rounds over the 64-bit units of a wrapped key, from the last to the first,
and compares what is left in front of them with a constant. `aes_wrap` is the algorithm it inverts.
The block cipher is any permutation of pairs of units.

`aesUnwrap_eq_some_iff` says that what `aes_unwrap` accepts is what `aes_wrap` makes, and that it
returns what went into it.
-/

namespace HalowBridge.Crypto

/-- 64 bits, in the order of their bytes. -/
abbrev Unit64 := Vector UInt8 8

/-- AES with a key. `aes_encrypt` is the permutation, `aes_decrypt` its inverse. -/
abbrev Aes := Equiv.Perm (Unit64 × Unit64)

/-- `b[7] ^= t`, `b[6] ^= t >> 8`, `b[5] ^= t >> 16`, `b[4] ^= t >> 24` -/
def xorCounter (b : Unit64) (t : UInt32) : Unit64 :=
  #v[b[0], b[1], b[2], b[3], b[4] ^^^ (t >>> 24).toUInt8, b[5] ^^^ (t >>> 16).toUInt8,
    b[6] ^^^ (t >>> 8).toUInt8, b[7] ^^^ t.toUInt8]

/-- The registers `A` and `R[1]` to `R[n]`. -/
structure Registers (n : ℕ) where
  a : Unit64
  r : Fin n → Unit64

/-- The counter of a step, for `R[i + 1]`. -/
def counter {n : ℕ} (j : ℕ) (i : Fin n) : UInt32 := UInt32.ofNat (n * j + (i + 1))

section

variable (aes : Aes) {n : ℕ}

/-- A step of `aes_unwrap`. -/
def unwrapStep (j : ℕ) (s : Registers n) (i : Fin n) : Registers n :=
  let b := aes.symm (xorCounter s.a (counter j i), s.r i)
  ⟨b.1, Function.update s.r i b.2⟩

/-- A step of `aes_wrap`. -/
def wrapStep (j : ℕ) (s : Registers n) (i : Fin n) : Registers n :=
  let b := aes (s.a, s.r i)
  ⟨xorCounter b.1 (counter j i), Function.update s.r i b.2⟩

/-- The six rounds of `aes_unwrap`, with the units from the last to the first. -/
def unwrapRounds (s : Registers n) : Registers n :=
  [5, 4, 3, 2, 1, 0].foldl (fun s j => (List.finRange n).reverse.foldl (unwrapStep aes j) s) s

/-- The six rounds of `aes_wrap`. -/
def wrapRounds (s : Registers n) : Registers n :=
  [0, 1, 2, 3, 4, 5].foldl (fun s j => (List.finRange n).foldl (wrapStep aes j) s) s

end

/-- The value of `A` before the rounds. -/
def initialValue : Unit64 := Vector.replicate 8 0xa6

variable {n : ℕ}

/-- `aes_unwrap`, with the context that `aes_decrypt_init` returns: the key, or nothing where the
result is -1. -/
def aesUnwrap (ctx : Option Aes) (cipher : Registers n) : Option (Fin n → Unit64) :=
  match ctx with
  | none => none
  | some aes =>
      let s := unwrapRounds aes cipher
      if ∀ i : Fin 8, s.a.get i = 0xa6 then some s.r else none

/-- `aes_wrap` -/
def aesWrap (aes : Aes) (plain : Fin n → Unit64) : Registers n :=
  wrapRounds aes ⟨initialValue, plain⟩

/-! ## What one does the other undoes -/

theorem xorCounter_xorCounter (b : Unit64) (t : UInt32) : xorCounter (xorCounter b t) t = b := by
  have back (x y : UInt8) : x ^^^ y ^^^ y = x := by
    rw [UInt8.xor_assoc, UInt8.xor_self, UInt8.xor_zero]
  refine Vector.ext fun i lt => ?_
  match i, lt with
  | 0, _ | 1, _ | 2, _ | 3, _ => rfl
  | 4, _ => exact back b[4] _
  | 5, _ => exact back b[5] _
  | 6, _ => exact back b[6] _
  | 7, _ => exact back b[7] _

variable (aes : Aes)

theorem unwrapStep_undoes (j : ℕ) : Undoes (unwrapStep aes j (n := n)) (wrapStep aes j) := by
  intro s i
  simp only [unwrapStep, wrapStep, Function.update_self, xorCounter_xorCounter, Prod.mk.eta,
    Equiv.symm_apply_apply, Function.update_idem, Function.update_eq_self]

theorem wrapStep_undoes (j : ℕ) : Undoes (wrapStep aes j (n := n)) (unwrapStep aes j) := by
  intro s i
  simp only [unwrapStep, wrapStep, Function.update_self, Prod.mk.eta, Equiv.apply_symm_apply,
    xorCounter_xorCounter, Function.update_idem, Function.update_eq_self]

theorem unwrapRounds_wrapRounds (s : Registers n) : unwrapRounds aes (wrapRounds aes s) = s :=
  (Undoes.loop (unwrapStep_undoes aes) (List.finRange n)).foldl_reverse [0, 1, 2, 3, 4, 5] s

theorem wrapRounds_unwrapRounds (s : Registers n) : wrapRounds aes (unwrapRounds aes s) = s := by
  have undoes := Undoes.loop (wrapStep_undoes aes) (List.finRange n).reverse
  rw [List.reverse_reverse] at undoes
  exact undoes.foldl_reverse [5, 4, 3, 2, 1, 0] s

/-- **What is accepted is what was wrapped**, whatever the cipher is. -/
theorem aesUnwrap_eq_some_iff {cipher : Registers n} {plain : Fin n → Unit64} :
    aesUnwrap (some aes) cipher = some plain ↔ cipher = aesWrap aes plain := by
  have value (a : Unit64) : (∀ i : Fin 8, a.get i = 0xa6) ↔ a = initialValue := by
    constructor
    · intro all
      exact Vector.ext fun i lt => (all ⟨i, lt⟩).trans (Vector.getElem_replicate lt).symm
    · rintro rfl i
      exact Vector.getElem_replicate i.isLt
  rw [aesUnwrap]
  constructor
  · intro accepted
    split at accepted
    next same =>
      rw [aesWrap, ← (value _).mp same, ← Option.some_inj.mp accepted]
      exact (wrapRounds_unwrapRounds aes cipher).symm
    next => cases accepted
  · rintro rfl
    rw [aesWrap, unwrapRounds_wrapRounds]
    exact if_pos ((value _).mpr rfl)

end HalowBridge.Crypto
