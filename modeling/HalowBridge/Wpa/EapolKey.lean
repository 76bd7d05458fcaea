import HalowBridge.Lib.Struct
import HalowBridge.Wpa.Ptk

/-!
# EAPOL-Key frames

An EAPOL-Key frame has an EAPOL header, the fields of `struct wpa_eapol_key`, a MIC whose length
depends on the AKM, and the key data. `EapolKey.bytes` writes such a frame, `receiveEapolKey` reads
one as `wpa_sm_rx_eapol` does, with its checks of the lengths, and `receiveEapolKey_bytes` says that
a frame is read as it was written.

The MIC is computed over the frame with zeros in the place of the MIC.
-/

namespace HalowBridge.Wpa

/-- `WPA_KEY_INFO_*` -/
def KeyInfo.keyType : UInt16 := 0x0008
def KeyInfo.keyIndexMask : UInt16 := 0x0030
def KeyInfo.install : UInt16 := 0x0040
def KeyInfo.ack : UInt16 := 0x0080
def KeyInfo.mic : UInt16 := 0x0100
def KeyInfo.secure : UInt16 := 0x0200
def KeyInfo.request : UInt16 := 0x0800
def KeyInfo.encrKeyData : UInt16 := 0x1000
def KeyInfo.smkMessage : UInt16 := 0x2000
def KeyInfo.typeMask : UInt16 := 0x0007

/-- `key_info & bits` -/
def hasBits (info bits : UInt16) : Bool := info &&& bits != 0

/-- `EAPOL_KEY_TYPE_RSN` -/
def eapolKeyTypeRsn : UInt8 := 2
/-- `EAPOL_KEY_TYPE_WPA` -/
def eapolKeyTypeWpa : UInt8 := 254

/-- `struct wpa_eapol_key` with the MIC and the key data behind it. -/
structure EapolKey where
  type : UInt8
  keyInfo : UInt16
  keyLength : UInt16
  replayCounter : List UInt8
  keyNonce : List UInt8
  keyIv : List UInt8
  keyRsc : List UInt8
  keyId : List UInt8
  mic : List UInt8
  keyData : List UInt8
  deriving DecidableEq, Repr

/-- The fields have the lengths of the structure. -/
structure EapolKey.Sized (key : EapolKey) (micLen : ℕ) : Prop where
  replayCounter : key.replayCounter.length = 8
  keyNonce : key.keyNonce.length = 32
  keyIv : key.keyIv.length = 16
  keyRsc : key.keyRsc.length = 8
  keyId : key.keyId.length = 8
  mic : key.mic.length = micLen
  /-- The length of the EAPOL header has 16 bits. -/
  fits : 79 + micLen + key.keyData.length < 65536

/-- A frame whose reserved fields and MIC are zero. -/
def EapolKey.blank (micLen : ℕ) : EapolKey where
  type := 0
  keyInfo := 0
  keyLength := 0
  replayCounter := List.replicate 8 0
  keyNonce := List.replicate 32 0
  keyIv := List.replicate 16 0
  keyRsc := List.replicate 8 0
  keyId := List.replicate 8 0
  mic := List.replicate micLen 0
  keyData := []

/-- What stands behind the EAPOL header. -/
def EapolKey.payload (key : EapolKey) : List UInt8 :=
  [key.type] ++ packBe 2 key.keyInfo.toNat ++ packBe 2 key.keyLength.toNat ++ key.replayCounter ++
    key.keyNonce ++ key.keyIv ++ key.keyRsc ++ key.keyId ++ key.mic ++
    packBe 2 key.keyData.length ++ key.keyData

/-- A frame with its EAPOL header, of the type `IEEE802_1X_TYPE_EAPOL_KEY`. -/
def EapolKey.bytes (version : UInt8) (key : EapolKey) : List UInt8 :=
  [version, 3] ++ packBe 2 key.payload.length ++ key.payload

/-- `WPA_GET_BE16` -/
def wpaGetBe16 (bytes : List UInt8) : UInt16 := UInt16.ofNat (unpackLe bytes.reverse)

/-- The length of `struct ieee802_1x_hdr`, and of `struct wpa_eapol_key`. -/
def hdrSize : ℕ := 4
def keySize : ℕ := 77

/-- The frame of `tmp`, with zeros in the place of the MIC. -/
def zeroMic (micLen : ℕ) (frame : List UInt8) : List UInt8 :=
  frame.take (hdrSize + keySize) ++ List.replicate micLen 0 ++
    frame.drop (hdrSize + keySize + micLen)

/-- The fields of `struct wpa_eapol_key` at the front of a payload, with a MIC of `micLen` bytes. -/
def readEapolKey (micLen : ℕ) (payload : List UInt8) : EapolKey :=
  let r1 := payload.drop 1
  let r2 := r1.drop 2
  let r3 := r2.drop 2
  let r4 := r3.drop 8
  let r5 := r4.drop 32
  let r6 := r5.drop 16
  let r7 := r6.drop 8
  let r8 := r7.drop 8
  let r9 := r8.drop micLen
  let r10 := r9.drop 2
  { type := payload.headD 0
    keyInfo := wpaGetBe16 (r1.take 2)
    keyLength := wpaGetBe16 (r2.take 2)
    replayCounter := r3.take 8
    keyNonce := r4.take 32
    keyIv := r5.take 16
    keyRsc := r6.take 8
    keyId := r7.take 8
    mic := r8.take micLen
    keyData := r10.take (wpaGetBe16 (r9.take 2)).toNat }

/-- The beginning of `wpa_sm_rx_eapol`: the frame of `tmp` and its fields, or the result with which
the function returns. -/
def receiveEapolKey (memory : Bool) (micLen : ℕ) (buf : List UInt8) :
    Except ℤ (List UInt8 × EapolKey) :=
  let keyhdrlen := keySize + micLen + 2
  if buf.length < hdrSize + keyhdrlen then .error 0
  else
    let plen := (wpaGetBe16 ((buf.drop 2).take 2)).toNat
    -- not IEEE802_1X_TYPE_EAPOL_KEY
    if buf.getD 1 0 ≠ 3 then .error 0
    else if plen > buf.length - hdrSize ∨ plen < keyhdrlen then .error 0
    else if ¬memory then .error (-1)
    else
      let tmp := buf.take (plen + hdrSize)
      let payload := tmp.drop hdrSize
      let key := readEapolKey micLen payload
      if key.type ≠ eapolKeyTypeWpa ∧ key.type ≠ eapolKeyTypeRsn then .error 0
      else if (wpaGetBe16 ((payload.drop (keySize + micLen)).take 2)).toNat > plen - keyhdrlen then
        .error (-1)
      else .ok (tmp, key)

/-! ## A frame is read as it was written -/

theorem wpaGetBe16_packBe (n : UInt16) : wpaGetBe16 (packBe 2 n.toNat) = n := by
  have fits : n.toNat < capacity 2 := n.toNat_lt
  rw [wpaGetBe16, packBe, List.reverse_reverse, unpackLe_packLe fits, UInt16.ofNat_toNat]

theorem toNat_wpaGetBe16_packBe {n : ℕ} (fits : n < 65536) :
    (wpaGetBe16 (packBe 2 n)).toNat = n := by
  rw [wpaGetBe16, packBe, List.reverse_reverse, unpackLe_packLe (show n < capacity 2 from fits),
    UInt16.toNat_ofNat', Nat.mod_eq_of_lt fits]

variable {key : EapolKey} {micLen : ℕ}

theorem EapolKey.Sized.length_payload (sized : key.Sized micLen) :
    key.payload.length = keySize + micLen + 2 + key.keyData.length := by
  have h := sized
  simp only [payload, List.length_append, List.length_singleton, length_packBe, h.replayCounter,
    h.keyNonce, h.keyIv, h.keyRsc, h.keyId, h.mic, keySize]

/-- The fields are read back, whatever stands behind the frame. -/
theorem readEapolKey_payload (sized : key.Sized micLen) (rest : List UInt8) :
    readEapolKey micLen (key.payload ++ rest) = key := by
  have len : key.keyData.length < 65536 := by have := sized.fits; omega
  rcases key with ⟨type, keyInfo, keyLength, replayCounter, keyNonce, keyIv, keyRsc, keyId, mic,
    keyData⟩
  have h := sized
  unfold readEapolKey EapolKey.payload
  dsimp only
  simp only [List.append_assoc, List.cons_append, List.nil_append, List.drop_succ_cons,
    List.drop_zero, List.headD_cons]
  simp only [List.drop_left' (length_packBe _ _), List.take_left' (length_packBe _ _),
    List.drop_left' h.replayCounter, List.take_left' h.replayCounter, List.drop_left' h.keyNonce,
    List.take_left' h.keyNonce, List.drop_left' h.keyIv, List.take_left' h.keyIv,
    List.drop_left' h.keyRsc, List.take_left' h.keyRsc, List.drop_left' h.keyId,
    List.take_left' h.keyId, List.drop_left' h.mic, List.take_left' h.mic, wpaGetBe16_packBe,
    toNat_wpaGetBe16_packBe len, List.take_left]

/-- The bytes behind the MIC are the length of the key data. -/
theorem drop_payload (sized : key.Sized micLen) :
    (key.payload.drop (keySize + micLen)).take 2 = packBe 2 key.keyData.length := by
  have h := sized
  have front : ([key.type] ++ packBe 2 key.keyInfo.toNat ++ packBe 2 key.keyLength.toNat ++
      key.replayCounter ++ key.keyNonce ++ key.keyIv ++ key.keyRsc ++ key.keyId ++
      key.mic).length = keySize + micLen := by
    simp only [List.length_append, List.length_singleton, length_packBe, h.replayCounter,
      h.keyNonce, h.keyIv, h.keyRsc, h.keyId, h.mic, keySize]
  rw [EapolKey.payload, List.append_assoc, List.drop_left' front,
    List.take_left' (length_packBe _ _)]

/-- A frame around its MIC. -/
theorem exists_bytes_eq (sized : key.Sized micLen) (version : UInt8) :
    ∃ front back, front.length = hdrSize + keySize ∧ ∀ mic : List UInt8, mic.length = micLen →
      { key with mic := mic }.bytes version = front ++ mic ++ back := by
  have h := sized
  have same (mic : List UInt8) (len : mic.length = micLen) :
      { key with mic := mic }.payload.length = key.payload.length := by
    rw [sized.length_payload]
    exact EapolKey.Sized.length_payload { h with mic := len }
  generalize key.payload.length = n at same
  refine ⟨[version, 3] ++ packBe 2 n ++ ([key.type] ++ packBe 2 key.keyInfo.toNat ++
    packBe 2 key.keyLength.toNat ++ key.replayCounter ++ key.keyNonce ++ key.keyIv ++ key.keyRsc ++
    key.keyId), packBe 2 key.keyData.length ++ key.keyData, ?_, fun mic len => ?_⟩
  · simp only [List.length_append, List.length_cons, List.length_nil, length_packBe,
      h.replayCounter, h.keyNonce, h.keyIv, h.keyRsc, h.keyId, hdrSize, keySize]
  · rw [EapolKey.bytes, same mic len, EapolKey.payload]
    simp only [List.append_assoc]

/-- The MIC field of a frame, and the frame that the MIC is made of. -/
theorem mic_bytes (sized : key.Sized micLen) (version : UInt8) :
    ((key.bytes version).drop (hdrSize + keySize)).take micLen = key.mic ∧
      zeroMic micLen (key.bytes version) =
        { key with mic := List.replicate micLen 0 }.bytes version := by
  rcases exists_bytes_eq sized version with ⟨front, back, len, split⟩
  have whole : key.bytes version = front ++ key.mic ++ back := split key.mic sized.mic
  have both : (front ++ key.mic).length = hdrSize + keySize + micLen := by
    rw [List.length_append, len, sized.mic]
  constructor
  · rw [whole, List.append_assoc, List.drop_left' len, List.take_left' sized.mic]
  · rw [split _ List.length_replicate, whole, zeroMic, List.drop_left' both,
      List.append_assoc front, List.take_left' len]

/-- **A frame is read as it was written**, with or without bytes behind it. -/
theorem receiveEapolKey_bytes (sized : key.Sized micLen)
    (known : key.type = eapolKeyTypeWpa ∨ key.type = eapolKeyTypeRsn) (version : UInt8)
    (rest : List UInt8) :
    receiveEapolKey true micLen (key.bytes version ++ rest) = .ok (key.bytes version, key) := by
  have len := sized.length_payload
  have fits := sized.fits
  have small : key.payload.length < 65536 := by rw [len, keySize]; omega
  have header : ([version, 3] ++ packBe 2 key.payload.length).length = hdrSize := by
    rw [List.length_append, length_packBe]
    rfl
  have whole : (key.bytes version).length = hdrSize + key.payload.length := by
    rw [EapolKey.bytes, List.length_append, header]
  have type : (key.bytes version ++ rest).getD 1 0 = 3 := rfl
  have plen : (wpaGetBe16 (((key.bytes version ++ rest).drop 2).take 2)).toNat =
      key.payload.length := by
    rw [EapolKey.bytes, List.append_assoc, List.append_assoc]
    show (wpaGetBe16 ((packBe 2 key.payload.length ++ (key.payload ++ rest)).take 2)).toNat = _
    rw [List.take_left' (length_packBe _ _), toNat_wpaGetBe16_packBe small]
  have tmp : (key.bytes version ++ rest).take (key.payload.length + hdrSize) =
      key.bytes version := by
    rw [List.take_left' (by rw [whole, Nat.add_comm])]
  have payload : (key.bytes version).drop hdrSize = key.payload := by
    rw [EapolKey.bytes, List.drop_left' header]
  have fields : readEapolKey micLen key.payload = key := by
    have read := readEapolKey_payload sized []
    rwa [List.append_nil] at read
  have data : (wpaGetBe16 ((key.payload.drop (keySize + micLen)).take 2)).toNat =
      key.keyData.length := by
    rw [drop_payload sized, toNat_wpaGetBe16_packBe (by omega)]
  unfold receiveEapolKey
  dsimp only
  rw [plen, tmp, payload, fields, data, type,
    if_neg (by rw [List.length_append, whole]; omega), if_neg (by decide),
    if_neg (by rw [List.length_append, whole]; omega), if_neg (by simp),
    if_neg (fun unknown => known.elim unknown.1 unknown.2), if_neg (by omega)]

end HalowBridge.Wpa
