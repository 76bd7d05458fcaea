import HalowBridge.Crypto.KeyWrap
import Mathlib.Data.List.Basic

/-!
# Pairwise keys

`wpa_pmk_to_ptk` expands a PMK to the keys of a connection: the KCK, which the MIC of EAPOL-Key
frames is made with, the KEK, which their key data is wrapped with, and the TK, which goes to the
driver. Both sides call it with the two addresses and the two nonces, each with its own first; the
order in which they go into the hash is that of `os_memcmp`, so that both sides come to the same
keys (`wpaPmkToPtk_comm`).

The hashes and AES are those of the build. They are the fields of `Primitives`, and any of them may
fail. The AKMs and ciphers are those that the build can negotiate.
-/

namespace HalowBridge.Wpa

open Crypto

/-- `WPA_KEY_MGMT_*`, without those for which the build has no code: FT, FILS, Suite B, DPP, OSEN. -/
inductive KeyMgmt
  | ieee8021x | psk | ieee8021xSha256 | pskSha256 | sae | saeExtKey | owe
  deriving DecidableEq, Repr

/-- `WPA_CIPHER_*` -/
inductive Cipher
  | none | tkip | ccmp | gcmp | gcmp256 | ccmp256
  | aes128Cmac | bipGmac128 | bipGmac256 | bipCmac256 | gtkNotUsed
  deriving DecidableEq, Repr

/-- `enum wpa_alg` -/
inductive Alg
  | none | tkip | ccmp | gcmp | gcmp256 | ccmp256
  | bipCmac128 | bipGmac128 | bipGmac256 | bipCmac256
  deriving DecidableEq, Repr

/-- `wpa_key_mgmt_wpa_psk` -/
def KeyMgmt.isPsk : KeyMgmt → Bool
  | psk | pskSha256 | sae | saeExtKey => true
  | _ => false

/-- `wpa_key_mgmt_sae` -/
def KeyMgmt.isSae : KeyMgmt → Bool
  | sae | saeExtKey => true
  | _ => false

/-- `wpa_key_mgmt_sha256` -/
def KeyMgmt.isSha256 : KeyMgmt → Bool
  | pskSha256 | ieee8021xSha256 | sae => true
  | _ => false

/-- `wpa_use_akm_defined` -/
def wpaUseAkmDefined (akmp : KeyMgmt) : Bool := akmp = .owe || akmp.isSae

/-- `wpa_use_cmac` -/
def wpaUseCmac (akmp : KeyMgmt) : Bool :=
  akmp = .owe || akmp.isSha256 || (akmp.isSae && akmp ≠ .saeExtKey)

/-- `wpa_use_aes_key_wrap` -/
def wpaUseAesKeyWrap (akmp : KeyMgmt) : Bool := akmp = .owe || akmp.isSha256 || akmp.isSae

/-- `wpa_kck_len` -/
def wpaKckLen (akmp : KeyMgmt) (pmkLen : ℕ) : ℕ :=
  match akmp with
  | .owe | .saeExtKey => pmkLen / 2
  | _ => 16

/-- `wpa_kek_len` -/
def wpaKekLen (akmp : KeyMgmt) (pmkLen : ℕ) : ℕ :=
  match akmp with
  | .owe | .saeExtKey => if pmkLen ≤ 32 then 16 else 32
  | _ => 16

/-- `wpa_mic_len` -/
def wpaMicLen (akmp : KeyMgmt) (pmkLen : ℕ) : ℕ :=
  match akmp with
  | .owe | .saeExtKey => pmkLen / 2
  | _ => 16

/-- `wpa_cipher_key_len` -/
def wpaCipherKeyLen : Cipher → ℕ
  | .ccmp256 | .gcmp256 | .bipGmac256 | .bipCmac256 | .tkip => 32
  | .ccmp | .gcmp | .aes128Cmac | .bipGmac128 => 16
  | _ => 0

/-- `wpa_cipher_rsc_len` -/
def wpaCipherRscLen : Cipher → ℕ
  | .ccmp256 | .gcmp256 | .ccmp | .gcmp | .tkip => 6
  | _ => 0

/-- `wpa_cipher_to_alg` -/
def wpaCipherToAlg : Cipher → Alg
  | .ccmp256 => .ccmp256
  | .gcmp256 => .gcmp256
  | .ccmp => .ccmp
  | .gcmp => .gcmp
  | .tkip => .tkip
  | .aes128Cmac => .bipCmac128
  | .bipGmac128 => .bipGmac128
  | .bipGmac256 => .bipGmac256
  | .bipCmac256 => .bipCmac256
  | _ => .none

/-- `wpa_cipher_valid_pairwise` -/
def wpaCipherValidPairwise : Cipher → Bool
  | .ccmp256 | .gcmp256 | .ccmp | .gcmp | .tkip => true
  | _ => false

/-- `wpa_cipher_valid_mgmt_group` -/
def wpaCipherValidMgmtGroup : Cipher → Bool
  | .gtkNotUsed | .aes128Cmac | .bipGmac128 | .bipGmac256 | .bipCmac256 => true
  | _ => false

/-- The cryptography of the build. A function that fails has no result. -/
structure Primitives where
  hmacSha1 : (key data : List UInt8) → Option (List UInt8)
  hmacSha256 : (key data : List UInt8) → Option (List UInt8)
  hmacSha384 : (key data : List UInt8) → Option (List UInt8)
  hmacSha512 : (key data : List UInt8) → Option (List UInt8)
  omac1Aes128 : (key data : List UInt8) → Option (List UInt8)
  sha1Prf : (key label data : List UInt8) → ℕ → Option (List UInt8)
  sha256Prf : (key label data : List UInt8) → ℕ → Option (List UInt8)
  sha384Prf : (key label data : List UInt8) → ℕ → Option (List UInt8)
  sha512Prf : (key label data : List UInt8) → ℕ → Option (List UInt8)
  /-- AES with a key, or nothing where the key cannot be set. -/
  aes : (kek : List UInt8) → Option Aes

/-- `struct wpa_ptk`: arrays with the lengths that are in use, and whether the driver has the key. -/
structure WpaPtk where
  kck : List UInt8
  kek : List UInt8
  tk : List UInt8
  kdk : List UInt8
  kckLen : ℕ
  kekLen : ℕ
  tkLen : ℕ
  kdkLen : ℕ
  installed : Bool
  deriving DecidableEq, Repr

/-- A `struct wpa_ptk` of zeros. -/
def WpaPtk.zero : WpaPtk where
  kck := List.replicate 32 0
  kek := List.replicate 64 0
  tk := List.replicate 32 0
  kdk := List.replicate 32 0
  kckLen := 0
  kekLen := 0
  tkLen := 0
  kdkLen := 0
  installed := false

/-- `memcpy` to the front of an array. -/
def copyFront (array bytes : List UInt8) : List UInt8 := bytes ++ array.drop bytes.length

/-- The digest that `wpa_pmk_to_ptk` expands the PMK with, or nothing for a PMK of a length that the
AKM does not have. -/
def ptkPrf (p : Primitives) (akmp : KeyMgmt) (owePtkWorkaround : Bool) (pmkLen : ℕ) :
    Option ((key label data : List UInt8) → ℕ → Option (List UInt8)) :=
  if akmp.isSha256 then some p.sha256Prf
  else if akmp = .owe then
    if pmkLen = 32 ∨ owePtkWorkaround then some p.sha256Prf
    else if pmkLen = 48 then some p.sha384Prf
    else if pmkLen = 64 then some p.sha512Prf
    else none
  else if akmp = .saeExtKey then
    if pmkLen = 32 then some p.sha256Prf
    else if pmkLen = 48 then some p.sha384Prf
    else if pmkLen = 64 then some p.sha512Prf
    else none
  else some p.sha1Prf

/-- The two strings in the order of `os_memcmp`. -/
def minMax (x y : List UInt8) : List UInt8 := if x < y then x ++ y else y ++ x

/-- `wpa_pmk_to_ptk`: whether it succeeds, and the structure it leaves. -/
def wpaPmkToPtk (p : Primitives) (pmk label addr1 addr2 nonce1 nonce2 : List UInt8) (ptk : WpaPtk)
    (akmp : KeyMgmt) (owePtkWorkaround : Bool) (cipher : Cipher) (kdkLen : ℕ) : Bool × WpaPtk :=
  if pmk.length = 0 then (false, ptk)
  else
    let data := minMax addr1 addr2 ++ minMax nonce1 nonce2
    let kckLen := wpaKckLen akmp pmk.length
    let kekLen := wpaKekLen akmp pmk.length
    let tkLen := wpaCipherKeyLen cipher
    let ptk := { ptk with kckLen := kckLen, kekLen := kekLen, tkLen := tkLen, kdkLen := kdkLen }
    if tkLen = 0 then (false, ptk)
    else
      match (ptkPrf p akmp owePtkWorkaround pmk.length).bind
          fun prf => prf pmk label data (kckLen + kekLen + tkLen + kdkLen) with
      | none => (false, ptk)
      | some tmp =>
          (true,
            { ptk with
              kck := copyFront ptk.kck (tmp.take kckLen)
              kek := copyFront ptk.kek ((tmp.drop kckLen).take kekLen)
              tk := copyFront ptk.tk ((tmp.drop (kckLen + kekLen)).take tkLen)
              kdk := copyFront ptk.kdk ((tmp.drop (kckLen + kekLen + tkLen)).take kdkLen) })

/-- The label `"Pairwise key expansion"`. -/
def pairwiseKeyExpansion : List UInt8 := "Pairwise key expansion".toUTF8.toList

theorem minMax_comm (x y : List UInt8) : minMax x y = minMax y x := by
  rw [minMax, minMax]
  rcases Decidable.em (x < y) with lt | le
  · rw [if_pos lt, if_neg (List.lt_asymm lt)]
  · rw [if_neg le]
    rcases Decidable.em (y < x) with gt | ge
    · rw [if_pos gt]
    · rw [if_neg ge, List.le_antisymm (List.not_lt.mp le) (List.not_lt.mp ge)]

/-- **Both sides derive the same keys**, each with its own address and nonce first. -/
theorem wpaPmkToPtk_comm (p : Primitives) (pmk label own other nonce nonce' : List UInt8)
    (ptk : WpaPtk) (akmp : KeyMgmt) (owePtkWorkaround : Bool) (cipher : Cipher) (kdkLen : ℕ) :
    wpaPmkToPtk p pmk label own other nonce nonce' ptk akmp owePtkWorkaround cipher kdkLen =
      wpaPmkToPtk p pmk label other own nonce' nonce ptk akmp owePtkWorkaround cipher kdkLen := by
  rw [wpaPmkToPtk, wpaPmkToPtk, minMax_comm own other, minMax_comm nonce nonce']

/-- A PRF fills the buffer it is given. -/
def Exact (prf : (key label data : List UInt8) → ℕ → Option (List UInt8)) : Prop :=
  ∀ key label data n out, prf key label data n = some out → out.length = n

/-- The PRFs of the build do. -/
structure Primitives.PrfExact (p : Primitives) : Prop where
  sha1 : Exact p.sha1Prf
  sha256 : Exact p.sha256Prf
  sha384 : Exact p.sha384Prf
  sha512 : Exact p.sha512Prf

theorem ptkPrf_exact {p : Primitives} (exact' : p.PrfExact) {akmp : KeyMgmt} {workaround : Bool}
    {pmkLen : ℕ} {prf : (key label data : List UInt8) → ℕ → Option (List UInt8)}
    (chosen : ptkPrf p akmp workaround pmkLen = some prf) : Exact prf := by
  unfold ptkPrf at chosen
  split_ifs at chosen <;> cases chosen
  all_goals first
    | exact exact'.sha256
    | exact exact'.sha384
    | exact exact'.sha512
    | exact exact'.sha1

/-- The keys in use are the same. -/
structure SameKeys (a b : WpaPtk) : Prop where
  kck : a.kck.take a.kckLen = b.kck.take b.kckLen
  kek : a.kek.take a.kekLen = b.kek.take b.kekLen
  tk : a.tk.take a.tkLen = b.tk.take b.tkLen

/-- What is copied to the front of an array is there, whatever was in it. -/
theorem take_copyFront {array bytes : List UInt8} {n : ℕ} (len : bytes.length = n) :
    (copyFront array bytes).take n = bytes := by
  rw [copyFront, List.take_left' len]

variable {p : Primitives} {pmk label own other nonce nonce' : List UInt8} {ptk ptk' a b : WpaPtk}
  {akmp : KeyMgmt} {owePtkWorkaround : Bool} {cipher : Cipher} {kdkLen : ℕ}

/-- The keys of a derivation do not depend on what was in the structure. -/
theorem wpaPmkToPtk_sameKeys (exact' : p.PrfExact)
    (first : wpaPmkToPtk p pmk label own other nonce nonce' ptk akmp owePtkWorkaround cipher
      kdkLen = (true, a))
    (second : wpaPmkToPtk p pmk label own other nonce nonce' ptk' akmp owePtkWorkaround cipher
      kdkLen = (true, b)) : SameKeys a b := by
  unfold wpaPmkToPtk at first second
  split at first
  next => cases first
  next some' =>
    rw [if_neg some'] at second
    dsimp only at first second
    split at first
    next => cases first
    next cipher' =>
      rw [if_neg cipher'] at second
      rcases chosen : ptkPrf p akmp owePtkWorkaround pmk.length with _ | prf
      · rw [chosen] at first
        cases first
      · rw [chosen, Option.bind_some] at first second
        split at first
        next => cases first
        next tmp expanded =>
          rw [expanded, Prod.mk.injEq] at second
          rw [Prod.mk.injEq] at first
          have len := ptkPrf_exact exact' chosen _ _ _ _ _ expanded
          rw [← first.2, ← second.2]
          constructor
          all_goals
            dsimp only
            rw [take_copyFront, take_copyFront]
            all_goals
              simp only [List.length_take, List.length_drop, len]
              omega

/-- **Both sides have the same keys**, each with its own address and nonce first, and whatever was
in their structures before. -/
theorem wpaPmkToPtk_agree (exact' : p.PrfExact)
    (station : wpaPmkToPtk p pmk label own other nonce nonce' ptk akmp owePtkWorkaround cipher
      kdkLen = (true, a))
    (authenticator : wpaPmkToPtk p pmk label other own nonce' nonce ptk' akmp owePtkWorkaround
      cipher kdkLen = (true, b)) : SameKeys a b := by
  rw [wpaPmkToPtk_comm] at authenticator
  exact wpaPmkToPtk_sameKeys exact' station authenticator

/-- Cryptography in which AES is the identity and every digest is zero. -/
def constantPrimitives : Primitives where
  hmacSha1 := fun _ _ => some (List.replicate 20 0)
  hmacSha256 := fun _ _ => some (List.replicate 32 0)
  hmacSha384 := fun _ _ => some (List.replicate 48 0)
  hmacSha512 := fun _ _ => some (List.replicate 64 0)
  omac1Aes128 := fun _ _ => some (List.replicate 16 0)
  sha1Prf := fun _ _ _ n => some (List.replicate n 0)
  sha256Prf := fun _ _ _ n => some (List.replicate n 0)
  sha384Prf := fun _ _ _ n => some (List.replicate n 0)
  sha512Prf := fun _ _ _ n => some (List.replicate n 0)
  aes := fun _ => some (Equiv.refl _)

theorem wpaPmkToPtk_agree_constant :
    SameKeys
      (wpaPmkToPtk constantPrimitives (List.replicate 32 1) pairwiseKeyExpansion [2] [4] [5] [3]
        .zero .psk false .ccmp 0).2
      (wpaPmkToPtk constantPrimitives (List.replicate 32 1) pairwiseKeyExpansion [4] [2] [3] [5]
        { WpaPtk.zero with tk := List.replicate 32 9 } .psk false .ccmp 0).2 := by
  have exact' : constantPrimitives.PrfExact := by
    constructor
    all_goals
      intro key label data n out answered
      rw [← Option.some_inj.mp answered, List.length_replicate]
  exact wpaPmkToPtk_agree exact' (Prod.ext rfl rfl) (Prod.ext rfl rfl)

/-- The derivation does not touch the flag of the driver. -/
theorem wpaPmkToPtk_installed (p : Primitives) (pmk label own other nonce nonce' : List UInt8)
    (ptk : WpaPtk) (akmp : KeyMgmt) (owePtkWorkaround : Bool) (cipher : Cipher) (kdkLen : ℕ) :
    (wpaPmkToPtk p pmk label own other nonce nonce' ptk akmp owePtkWorkaround cipher
      kdkLen).2.installed = ptk.installed := by
  rw [wpaPmkToPtk]
  split
  next => rfl
  next =>
    dsimp only
    split
    next => rfl
    next => split <;> rfl

/-- `wpa_eapol_key_mic`: the MIC of a frame whose MIC field is zero. -/
def wpaEapolKeyMic (p : Primitives) (kck : List UInt8) (akmp : KeyMgmt) (ver : UInt16)
    (buf : List UInt8) : Option (List UInt8) :=
  if kck.length = 0 then none
  else if ver = 2 then (p.hmacSha1 kck buf).map (List.take 16)
  else if ver = 3 then p.omac1Aes128 kck buf
  else if ver = 0 then
    match akmp with
    | .sae => p.omac1Aes128 kck buf
    | .saeExtKey | .owe =>
        if kck.length = 16 then (p.hmacSha256 kck buf).map (List.take kck.length)
        else if kck.length = 24 then (p.hmacSha384 kck buf).map (List.take kck.length)
        else if kck.length = 32 then (p.hmacSha512 kck buf).map (List.take kck.length)
        else none
    | _ => none
  else none

end HalowBridge.Wpa
