import HalowBridge.Wpa.Ptk
import Mathlib.Data.List.GetD
import Mathlib.Data.List.OfFn
import Mathlib.Data.Fin.Tuple.Basic

/-!
# Key data

The key data of an EAPOL-Key frame is a sequence of elements: an identifier, a length and up to 255
bytes. An authenticator that encrypts it appends 0xdd and zeros up to a multiple of eight and wraps
it with the KEK; a supplicant unwraps it and walks over the elements, up to the padding.

`wpaSupplicantDecryptKeyData_wrap` and `wpaParseKdeIes_elements` put the two together: the
supplicant sees the elements the authenticator put in, all of them and no others.
-/

namespace HalowBridge.Wpa

open Crypto

/-! ## The parser -/

/-- The part of `struct wpa_eapol_ie_parse` that the supplicant reads. -/
structure Ies where
  rsnIe : Option (List UInt8)
  rsnxe : Option (List UInt8)
  wpaIe : Option (List UInt8)
  pmkid : Option (List UInt8)
  keyId : Option (List UInt8)
  gtk : Option (List UInt8)
  macAddr : Option (List UInt8)
  igtk : Option (List UInt8)
  bigtk : Option (List UInt8)
  ssid : Option (List UInt8)
  transitionDisable : Option (List UInt8)
  rsneOverride : Option (List UInt8)
  rsneOverride2 : Option (List UInt8)
  rsnxeOverride : Option (List UInt8)
  deriving DecidableEq, Repr

/-- The structure after `memset`. -/
def Ies.empty : Ies := ⟨none, none, none, none, none, none, none, none, none, none, none, none, none,
  none⟩

/-- `RSN_KEY_DATA_GROUPKEY` -/
def rsnKeyDataGroupkey : List UInt8 := [0x00, 0x0f, 0xac, 1]
/-- `RSN_KEY_DATA_MAC_ADDR` -/
def rsnKeyDataMacAddr : List UInt8 := [0x00, 0x0f, 0xac, 3]
/-- `RSN_KEY_DATA_PMKID` -/
def rsnKeyDataPmkid : List UInt8 := [0x00, 0x0f, 0xac, 4]
/-- `RSN_KEY_DATA_IGTK` -/
def rsnKeyDataIgtk : List UInt8 := [0x00, 0x0f, 0xac, 9]
/-- `RSN_KEY_DATA_KEYID` -/
def rsnKeyDataKeyid : List UInt8 := [0x00, 0x0f, 0xac, 10]
/-- `RSN_KEY_DATA_BIGTK` -/
def rsnKeyDataBigtk : List UInt8 := [0x00, 0x0f, 0xac, 14]
/-- `WFA_KEY_DATA_TRANSITION_DISABLE` -/
def wfaKeyDataTransitionDisable : List UInt8 := [0x50, 0x6f, 0x9a, 0x20]
/-- `WPA_OUI_TYPE` -/
def wpaOuiType : List UInt8 := [0x00, 0x50, 0xf2, 1]
/-- `RSNE_OVERRIDE_IE_VENDOR_TYPE` -/
def rsneOverrideIeVendorType : List UInt8 := [0x50, 0x6f, 0x9a, 0x29]
/-- `RSNE_OVERRIDE_2_IE_VENDOR_TYPE` -/
def rsneOverride2IeVendorType : List UInt8 := [0x50, 0x6f, 0x9a, 0x2a]
/-- `RSNXE_OVERRIDE_IE_VENDOR_TYPE` -/
def rsnxeOverrideIeVendorType : List UInt8 := [0x50, 0x6f, 0x9a, 0x2b]

/-- `wpa_parse_generic` behind the test for the end mark, on the body of an element with the
identifier 0xdd. KDEs that are not recognized, result 2, do not change the fields of `Ies`. -/
def recordKde (body : List UInt8) (ie : Ies) : Ies :=
  let element := 0xdd :: UInt8.ofNat body.length :: body
  let selector := body.take 4
  let p := body.drop 4
  let left := body.length - 4
  if body.length < 4 then ie
  else if left ≥ 2 ∧ selector = wpaOuiType ∧ p.take 2 = [1, 0] then
    { ie with wpaIe := some element }
  else if left ≥ 16 ∧ selector = rsnKeyDataPmkid then { ie with pmkid := some (p.take 16) }
  else if left ≥ 2 ∧ selector = rsnKeyDataKeyid then { ie with keyId := some (p.take 2) }
  else if left > 2 ∧ selector = rsnKeyDataGroupkey then { ie with gtk := some p }
  else if left ≥ 6 ∧ selector = rsnKeyDataMacAddr then { ie with macAddr := some (p.take 6) }
  else if left > 2 ∧ selector = rsnKeyDataIgtk then { ie with igtk := some p }
  else if left > 2 ∧ selector = rsnKeyDataBigtk then { ie with bigtk := some p }
  else if left ≥ 1 ∧ selector = wfaKeyDataTransitionDisable then
    { ie with transitionDisable := some p }
  else if selector = rsneOverrideIeVendorType then { ie with rsneOverride := some element }
  else if selector = rsneOverride2IeVendorType then { ie with rsneOverride2 := some element }
  else if selector = rsnxeOverrideIeVendorType then { ie with rsnxeOverride := some element }
  else ie

/-- `wpa_parse_generic`, or nothing at the end mark. -/
def wpaParseGeneric (body : List UInt8) (ie : Ies) : Option Ies :=
  if body.length = 0 then none else some (recordKde body ie)

/-- What `wpa_parse_kde_ies` does with an element, or nothing at the end mark. -/
def parseElement (id : UInt8) (body : List UInt8) (ie : Ies) : Option Ies :=
  let element := id :: UInt8.ofNat body.length :: body
  if id = 48 then some { ie with rsnIe := some element }
  else if id = 244 then some { ie with rsnxe := some element }
  else if id = 0 then some { ie with ssid := some body }
  else if id = 0xdd then wpaParseGeneric body ie
  else some ie

/-- The loop of `wpa_parse_kde_ies`. -/
def wpaParseKdeIesLoop (pos : List UInt8) (ie : Ies) : Option Ies :=
  match pos with
  | id :: len :: rest =>
      -- padding
      if id = 0xdd ∧ len = 0 then some ie
      -- underflow
      else if rest.length < len.toNat then none
      else
        match parseElement id (rest.take len.toNat) ie with
        | none => some ie
        | some ie => wpaParseKdeIesLoop (rest.drop len.toNat) ie
  | _ => some ie
termination_by pos.length
decreasing_by
  rw [List.length_drop, List.length_cons, List.length_cons]
  omega

/-- `wpa_parse_kde_ies`, or nothing where the result is -1. -/
def wpaParseKdeIes (buf : List UInt8) : Option Ies := wpaParseKdeIesLoop buf Ies.empty

/-! ## What an authenticator puts in -/

/-- An element that fits its length byte and does not look like padding. -/
structure Element where
  id : UInt8
  body : List UInt8
  fits : body.length < 256
  solid : ¬(id = 0xdd ∧ body = [])

/-- An element as it is sent. -/
def Element.bytes (e : Element) : List UInt8 := e.id :: UInt8.ofNat e.body.length :: e.body

/-- `wpa_add_kde`, and the bytes of an element with the identifier 0xdd. -/
def wpaAddKde (kde data data2 : List UInt8) : List UInt8 :=
  0xdd :: UInt8.ofNat (4 + data.length + data2.length) :: (kde ++ data ++ data2)

/-- The element that it is. -/
def kdeElement (kde data data2 : List UInt8) (selector : kde.length = 4)
    (fits : 4 + data.length + data2.length < 256) : Element where
  id := 0xdd
  body := kde ++ data ++ data2
  fits := by rwa [List.length_append, List.length_append, selector]
  solid := by
    rintro ⟨-, empty⟩
    have len := congrArg List.length empty
    rw [List.length_append, List.length_append, selector, List.length_nil] at len
    omega

theorem bytes_kdeElement {kde data data2 : List UInt8} (selector : kde.length = 4)
    (fits : 4 + data.length + data2.length < 256) :
    (kdeElement kde data data2 selector fits).bytes = wpaAddKde kde data data2 := by
  rw [Element.bytes, wpaAddKde, kdeElement, List.length_append, List.length_append, selector]

/-- The key data of a frame that is encrypted, with the padding of `__wpa_send_eapol`. -/
def padKeyData (kde : List UInt8) : List UInt8 :=
  let rest := kde.length % 8
  if rest = 0 then kde else kde ++ 0xdd :: List.replicate (7 - rest) 0

/-- An element with what the parser makes of it. An element that is not the end mark is never
taken for it. -/
def Element.record (e : Element) (ie : Ies) : Ies := (parseElement e.id e.body ie).getD ie

theorem Element.parse_eq_record (e : Element) (ie : Ies) :
    parseElement e.id e.body ie = some (e.record ie) := by
  have found : (parseElement e.id e.body ie).isSome := by
    unfold parseElement wpaParseGeneric
    dsimp only
    split_ifs with _ _ _ vendor empty
    on_goal 4 => exact absurd ⟨vendor, List.length_eq_zero_iff.mp empty⟩ e.solid
    all_goals rfl
  rcases Option.isSome_iff_exists.mp found with ⟨ie', parsed⟩
  rw [record, parsed]
  rfl

/-- The loop takes an element off. -/
theorem wpaParseKdeIesLoop_element (e : Element) (rest : List UInt8) (ie : Ies) :
    wpaParseKdeIesLoop (e.bytes ++ rest) ie = wpaParseKdeIesLoop rest (e.record ie) := by
  have len : (UInt8.ofNat e.body.length).toNat = e.body.length := by
    rw [UInt8.toNat_ofNat', Nat.mod_eq_of_lt e.fits]
  have solid : ¬(e.id = 0xdd ∧ UInt8.ofNat e.body.length = 0) := by
    rintro ⟨vendor, empty⟩
    rw [empty] at len
    exact e.solid ⟨vendor, List.length_eq_zero_iff.mp len.symm⟩
  rw [Element.bytes, List.cons_append, List.cons_append, wpaParseKdeIesLoop, if_neg solid, len,
    if_neg (by rw [List.length_append]; omega), List.take_left, List.drop_left,
    e.parse_eq_record]

/-- The loop ends at what is left behind the last element, or at the padding. -/
theorem wpaParseKdeIesLoop_padding (n : ℕ) (ie : Ies) :
    wpaParseKdeIesLoop (0xdd :: List.replicate n 0) ie = some ie := by
  cases n with
  | zero => rw [List.replicate_zero, wpaParseKdeIesLoop]; nofun
  | succ n => rw [List.replicate_succ, wpaParseKdeIesLoop, if_pos ⟨rfl, rfl⟩]

/-- **The parser sees the elements**, one after the other, with or without padding. -/
theorem wpaParseKdeIes_elements (es : List Element) :
    wpaParseKdeIes (padKeyData (es.flatMap Element.bytes)) =
      some (es.foldl (fun ie e => e.record ie) Ies.empty) := by
  have walk (rest : List UInt8) (ie : Ies) :
      wpaParseKdeIesLoop (es.flatMap Element.bytes ++ rest) ie =
        wpaParseKdeIesLoop rest (es.foldl (fun ie e => e.record ie) ie) := by
    induction es generalizing ie with
    | nil => rfl
    | cons e es ih =>
        rw [List.flatMap_cons, List.append_assoc, wpaParseKdeIesLoop_element, ih, List.foldl_cons]
  unfold wpaParseKdeIes padKeyData
  dsimp only
  split
  next =>
    have plain := walk [] Ies.empty
    rw [List.append_nil] at plain
    rw [plain, wpaParseKdeIesLoop]
    nofun
  next => rw [walk, wpaParseKdeIesLoop_padding]

/-! ## Encryption -/

section

variable {n : ℕ}

/-- The 64-bit units of a buffer. -/
def unitsOf (n : ℕ) (bytes : List UInt8) : Fin n → Unit64 :=
  fun i => Vector.ofFn fun k : Fin 8 => bytes.getD (8 * i + k) 0

/-- A buffer of 64-bit units. -/
def unitsBytes (units : Fin n → Unit64) : List UInt8 :=
  List.ofFn fun k : Fin (8 * n) => (units ⟨k / 8, Nat.div_lt_of_lt_mul k.isLt⟩)[k.val % 8]

/-- `aes_wrap`: `mbedtls_nist_kw_wrap` takes at least two units. Nothing stands for a failure. -/
def aesWrapBytes (aes : Option Aes) (n : ℕ) (plain : List UInt8) : Option (List UInt8) :=
  match aes with
  | none => none
  | some aes =>
      if n < 2 then none
      else
        let s := aesWrap aes (unitsOf n plain)
        some (unitsBytes (Fin.cons s.a s.r : Fin (n + 1) → Unit64))

/-- `aes_unwrap` on buffers. -/
def aesUnwrapBytes (aes : Option Aes) (n : ℕ) (cipher : List UInt8) : Option (List UInt8) :=
  let units := unitsOf (n + 1) cipher
  (aesUnwrap aes ⟨units 0, fun i => units i.succ⟩).map unitsBytes

/-- The key data that `__wpa_send_eapol` encrypts with AES key wrap. -/
def wrapKeyData (p : Primitives) (kek kde : List UInt8) : Option (List UInt8) :=
  let plain := padKeyData kde
  aesWrapBytes (p.aes kek) (plain.length / 8) plain

/-- `wpa_supplicant_decrypt_key_data`, or nothing where the result is -1. The build has no RC4. -/
def wpaSupplicantDecryptKeyData (p : Primitives) (akmp : KeyMgmt) (ptkSet : Bool) (ptk : WpaPtk)
    (ver : UInt16) (keyData : List UInt8) : Option (List UInt8) :=
  if ¬ptkSet then none
  else if ver = 1 ∧ ptk.kekLen = 16 then none
  else if ver = 2 ∨ ver = 3 ∨ wpaUseAesKeyWrap akmp then
    if keyData.length < 8 ∨ keyData.length % 8 ≠ 0 then none
    else aesUnwrapBytes (p.aes (ptk.kek.take ptk.kekLen)) ((keyData.length - 8) / 8) keyData
  else none

theorem unitsOf_unitsBytes (units : Fin n → Unit64) : unitsOf n (unitsBytes units) = units := by
  funext i
  refine Vector.ext fun k lt => ?_
  have inside : 8 * i.val + k < 8 * n := by omega
  have unit : (8 * i.val + k) / 8 = i.val := by omega
  have byte : (8 * i.val + k) % 8 = k := by omega
  rw [unitsOf, Vector.getElem_ofFn, unitsBytes, List.getD_eq_getElem _ _ (by simpa using inside),
    List.getElem_ofFn]
  simp only [unit, byte, Fin.eta]

theorem unitsBytes_unitsOf {bytes : List UInt8} (len : bytes.length = 8 * n) :
    unitsBytes (unitsOf n bytes) = bytes := by
  refine List.ext_getElem (by rw [unitsBytes, List.length_ofFn, len]) fun k lt lt' => ?_
  have same : 8 * (k / 8) + k % 8 = k := Nat.div_add_mod k 8
  simp only [unitsBytes, List.getElem_ofFn, unitsOf, Vector.getElem_ofFn, same]
  exact List.getD_eq_getElem _ _ lt'

/-- On whole units, what is wrapped is unwrapped again. -/
theorem aesUnwrapBytes_aesWrapBytes {aes : Option Aes} {plain cipher : List UInt8}
    (len : plain.length = 8 * n) (wrapped : aesWrapBytes aes n plain = some cipher) :
    cipher.length = 8 * (n + 1) ∧ aesUnwrapBytes aes n cipher = some plain := by
  rcases aes with _ | aes
  · cases wrapped
  · unfold aesWrapBytes at wrapped
    dsimp only at wrapped
    split at wrapped
    next => cases wrapped
    next =>
      obtain rfl := Option.some_inj.mp wrapped
      refine ⟨by rw [unitsBytes, List.length_ofFn], ?_⟩
      have back := (aesUnwrap_eq_some_iff aes (n := n)).mpr
        (rfl : aesWrap aes (unitsOf n plain) = aesWrap aes (unitsOf n plain))
      rw [aesUnwrapBytes, unitsOf_unitsBytes]
      show (aesUnwrap (some aes) (aesWrap aes (unitsOf n plain))).map unitsBytes = some plain
      rw [back, Option.map_some, unitsBytes_unitsOf len]

end

theorem length_padKeyData (kde : List UInt8) :
    (padKeyData kde).length = 8 * ((padKeyData kde).length / 8) := by
  unfold padKeyData
  dsimp only
  split
  next whole => omega
  next =>
    rw [List.length_append, List.length_cons, List.length_replicate]
    omega

theorem length_padKeyData_le (kde : List UInt8) : (padKeyData kde).length ≤ kde.length + 7 := by
  unfold padKeyData
  dsimp only
  split
  next => omega
  next =>
    rw [List.length_append, List.length_cons, List.length_replicate]
    omega

/-- **The key data arrives.** What an authenticator wraps with a KEK is decrypted by the supplicant
that has the KEK in its PTK, up to the padding. -/
theorem wpaSupplicantDecryptKeyData_wrap {p : Primitives} {akmp : KeyMgmt} {ptk : WpaPtk}
    {ver : UInt16} {kde cipher : List UInt8}
    (wraps : ver = 2 ∨ ver = 3 ∨ wpaUseAesKeyWrap akmp = true) (not_rc4 : ver ≠ 1)
    (wrapped : wrapKeyData p (ptk.kek.take ptk.kekLen) kde = some cipher) :
    wpaSupplicantDecryptKeyData p akmp true ptk ver cipher = some (padKeyData kde) := by
  rcases aesUnwrapBytes_aesWrapBytes (length_padKeyData kde) wrapped with ⟨len, unwrapped⟩
  have units : (cipher.length - 8) / 8 = (padKeyData kde).length / 8 := by omega
  rw [wpaSupplicantDecryptKeyData, if_neg (by simp), if_neg (fun rc4 => not_rc4 rc4.1),
    if_pos wraps, if_neg (by omega), units, unwrapped]

end HalowBridge.Wpa
