import HalowBridge.Wpa.Supplicant

/-!
# The frames of an authenticator

`__wpa_send_eapol` builds the frames that a station receives: it counts the replay counter up, wraps
the key data and makes the MIC. `wpaSmRxEapol_message3` says that a station that has the PTK of the
authenticator on offer takes its message 3/4: the frame is fresh, its MIC is right, the PTK becomes
the one in use, and the elements that come out are those that went in.
-/

namespace HalowBridge.Wpa

open Routine

/-! ## The replay counter -/

/-- The loop of `inc_byte_array`, from the last byte to the first. -/
def incByteArrayLoop : List UInt8 → List UInt8
  | [] => []
  | b :: rest => if b + 1 ≠ 0 then (b + 1) :: rest else 0 :: incByteArrayLoop rest

/-- `inc_byte_array` -/
def incByteArray (counter : List UInt8) : List UInt8 :=
  (incByteArrayLoop counter.reverse).reverse

theorem length_incByteArray (counter : List UInt8) :
    (incByteArray counter).length = counter.length := by
  have loop (bytes : List UInt8) : (incByteArrayLoop bytes).length = bytes.length := by
    induction bytes with
    | nil => rfl
    | cons b rest ih =>
        rw [incByteArrayLoop]
        split
        · rfl
        · rw [List.length_cons, ih, List.length_cons]
  rw [incByteArray, List.length_reverse, loop, List.length_reverse]

theorem append_cons_lt_append_cons {b b' : UInt8} (lt : b < b') (front rest rest' : List UInt8) :
    front ++ b :: rest < front ++ b' :: rest' := by
  induction front with
  | nil => exact List.cons_lt_cons_iff.mpr (.inl lt)
  | cons c front ih => exact List.cons_lt_cons_iff.mpr (.inr ⟨rfl, ih⟩)

/-- In the order of `os_memcmp` the counter goes up, until all of its bytes are 0xff. -/
theorem lt_incByteArray {counter : List UInt8} (room : ∃ b ∈ counter, b ≠ 0xff) :
    counter < incByteArray counter := by
  -- the bytes that have been turned to zero stand behind
  have loop (bytes rest rest' : List UInt8) (room : ∃ b ∈ bytes, b ≠ 0xff) :
      bytes.reverse ++ rest < (incByteArrayLoop bytes).reverse ++ rest' := by
    induction bytes generalizing rest rest' with
    | nil =>
        rcases room with ⟨b, member, -⟩
        cases member
    | cons b bytes ih =>
        rw [incByteArrayLoop, List.reverse_cons, List.append_assoc]
        by_cases last : b = 0xff
        · have more : ∃ c ∈ bytes, c ≠ 0xff := by
            rcases room with ⟨c, member, other⟩
            rcases List.mem_cons.mp member with same | member
            · exact absurd (same.trans last) other
            · exact ⟨c, member, other⟩
          rw [last, if_neg (by decide), List.reverse_cons, List.append_assoc]
          exact ih _ _ more
        · have lt : b < b + 1 := by
            have small : b.toNat < 255 := by
              have le := b.toNat_lt
              have other : b.toNat ≠ 255 := fun same => last (UInt8.toNat_inj.mp same)
              omega
            rw [UInt8.lt_iff_toNat_lt, UInt8.toNat_add]
            show b.toNat < (b.toNat + 1) % 256
            omega
          have more : b + 1 ≠ 0 := fun zero => absurd lt (by rw [zero]; exact UInt8.not_lt_zero)
          rw [if_pos more, List.reverse_cons, List.append_assoc]
          exact append_cons_lt_append_cons lt _ _ _
  have moved := loop counter.reverse [] [] (by simpa using room)
  rwa [List.reverse_reverse, List.append_nil, List.append_nil] at moved

/-! ## Sending -/

/-- The fields of `struct wpa_state_machine` that `__wpa_send_eapol` uses, for RSN. -/
structure WpaStateMachine where
  wpaKeyMgmt : KeyMgmt
  pairwise : Cipher
  pmkLen : ℕ
  ptk : WpaPtk
  ptkValid : Bool
  /-- `key_replay`, the last counters that were sent, and whether they are. -/
  keyReplay : List (Bool × List UInt8)

/-- The descriptor version of `__wpa_send_eapol`. -/
def sendVersion (akmp : KeyMgmt) (pairwise : Cipher) (forceVersion : UInt16) : UInt16 :=
  if forceVersion ≠ 0 then forceVersion
  else if wpaUseAkmDefined akmp then 0
  else if wpaUseCmac akmp then 3
  else if pairwise ≠ .tkip then 2
  else 1

/-- `key_replay` with the next counter in front. -/
def nextReplay (keyReplay : List (Bool × List UInt8)) : List (Bool × List UInt8) :=
  match keyReplay with
  | [] => []
  | (_, counter) :: _ => (true, incByteArray counter) :: keyReplay.take 3

/-- The replay counter of the next frame is the one behind `key_replay[0].counter`. -/
def WpaStateMachine.counter (sm : WpaStateMachine) : List UInt8 :=
  (sm.keyReplay.headD (false, [])).2

/-- The key data of a frame, encrypted if it is to be. The build has no RC4. -/
def sendKeyData (p : Primitives) (bufMemory : Bool) (sm : WpaStateMachine) (version : UInt16)
    (kde : List UInt8) (encr : Bool) : Option (List UInt8) :=
  if encr then
    if bufMemory ∧ (version = 2 ∨ wpaUseAesKeyWrap sm.wpaKeyMgmt ∨ version = 3) then
      wrapKeyData p (sm.ptk.kek.take sm.ptk.kekLen) kde
    else none
  else some kde

/-- `__wpa_send_eapol`: the state that is left, and the frame if one is sent. -/
def wpaSendEapol (p : Primitives) (eapolVersion : UInt8) (hdrMemory bufMemory : Bool)
    (sm : WpaStateMachine) (keyInfo : UInt16) (keyRsc nonce : Option (List UInt8))
    (kde : List UInt8) (encr : Bool) (forceVersion : UInt16) :
    WpaStateMachine × Option (List UInt8) :=
  let micLen := wpaMicLen sm.wpaKeyMgmt sm.pmkLen
  let version := sendVersion sm.wpaKeyMgmt sm.pairwise forceVersion
  if ¬hdrMemory then (sm, none)
  else
    let sm := { sm with keyReplay := nextReplay sm.keyReplay }
    match sendKeyData p bufMemory sm version kde encr with
    | none => (sm, none)
    | some keyData =>
        let msg : EapolKey :=
          { EapolKey.blank micLen with
            type := eapolKeyTypeRsn
            keyInfo := keyInfo ||| version ||| (if encr then KeyInfo.encrKeyData else 0)
            keyLength :=
              if hasBits keyInfo KeyInfo.keyType then UInt16.ofNat (wpaCipherKeyLen sm.pairwise)
              else 0
            replayCounter := sm.counter
            keyNonce := nonce.getD (List.replicate 32 0)
            keyRsc := keyRsc.getD (List.replicate 8 0)
            keyData := keyData }
        if hasBits keyInfo KeyInfo.mic then
          if ¬sm.ptkValid ∨ micLen = 0 then (sm, none)
          else
            match wpaEapolKeyMic p (sm.ptk.kck.take sm.ptk.kckLen) sm.wpaKeyMgmt version
                (msg.bytes eapolVersion) with
            | none => (sm, none)
            | some mic =>
                (sm, some ({ msg with
                  mic := (mic ++ List.replicate micLen 0).take micLen }.bytes eapolVersion))
        else (sm, some (msg.bytes eapolVersion))

/-- The flags of message 3/4. -/
def message3Info : UInt16 :=
  KeyInfo.secure ||| KeyInfo.mic ||| KeyInfo.ack ||| KeyInfo.install ||| KeyInfo.keyType

/-- The counter that is sent is one above the last. -/
theorem counter_nextReplay (sm : WpaStateMachine) :
    { sm with keyReplay := nextReplay sm.keyReplay }.counter = incByteArray sm.counter := by
  rcases sm with ⟨akmp, pairwise, pmkLen, ptk, valid, _ | ⟨last, rest⟩⟩ <;> rfl

/-- A message 3/4 with a MIC of zeros. -/
def message3 (sm : WpaStateMachine) (keyRsc nonce keyData : List UInt8) : EapolKey :=
  { EapolKey.blank (wpaMicLen sm.wpaKeyMgmt sm.pmkLen) with
    type := eapolKeyTypeRsn
    keyInfo := message3Info ||| sendVersion sm.wpaKeyMgmt sm.pairwise 0 ||| KeyInfo.encrKeyData
    keyLength := UInt16.ofNat (wpaCipherKeyLen sm.pairwise)
    replayCounter := incByteArray sm.counter
    keyNonce := nonce
    keyRsc := keyRsc
    keyData := keyData }

/-- The version of a frame that is sent. There is no MIC for the version of TKIP. -/
theorem sendVersion_cases (akmp : KeyMgmt) (pairwise : Cipher) {p : Primitives}
    {kck frame mic : List UInt8}
    (made : wpaEapolKeyMic p kck akmp (sendVersion akmp pairwise 0) frame = some mic) :
    sendVersion akmp pairwise 0 = 0 ∨ sendVersion akmp pairwise 0 = 2 ∨
      sendVersion akmp pairwise 0 = 3 := by
  generalize version : sendVersion akmp pairwise 0 = ver at made
  unfold sendVersion at version
  rw [if_neg (by decide)] at version
  split at version
  next => exact .inl version.symm
  next =>
    split at version
    next => exact .inr (.inr version.symm)
    next =>
      split at version
      next => exact .inr (.inl version.symm)
      next =>
        rw [← version] at made
        unfold wpaEapolKeyMic at made
        split at made
        · cases made
        · rw [if_neg (by decide), if_neg (by decide), if_neg (by decide)] at made
          cases made

/-- A message 3/4 that is sent, with the MIC that it has. -/
theorem wpaSendEapol_message3 {p : Primitives} {eapolVersion : UInt8} {ap ap' : WpaStateMachine}
    {keyRsc nonce kde frame : List UInt8}
    (sent : wpaSendEapol p eapolVersion true true ap message3Info (some keyRsc) (some nonce) kde
      true 0 = (ap', some frame)) :
    ∃ cipher mic, wrapKeyData p (ap.ptk.kek.take ap.ptk.kekLen) kde = some cipher ∧
      (sendVersion ap.wpaKeyMgmt ap.pairwise 0 = 2 ∨ wpaUseAesKeyWrap ap.wpaKeyMgmt = true ∨
        sendVersion ap.wpaKeyMgmt ap.pairwise 0 = 3) ∧
      wpaMicLen ap.wpaKeyMgmt ap.pmkLen ≠ 0 ∧
      wpaEapolKeyMic p (ap.ptk.kck.take ap.ptk.kckLen) ap.wpaKeyMgmt
        (sendVersion ap.wpaKeyMgmt ap.pairwise 0)
        ((message3 ap keyRsc nonce cipher).bytes eapolVersion) = some mic ∧
      frame = { message3 ap keyRsc nonce cipher with
        mic := (mic ++ List.replicate (wpaMicLen ap.wpaKeyMgmt ap.pmkLen) 0).take
          (wpaMicLen ap.wpaKeyMgmt ap.pmkLen) }.bytes eapolVersion := by
  unfold wpaSendEapol at sent
  dsimp only at sent
  rw [if_neg (by decide)] at sent
  split at sent
  next => cases sent
  next cipher encrypted =>
    unfold sendKeyData at encrypted
    rw [if_pos rfl] at encrypted
    split at encrypted
    next wraps =>
      rw [if_pos (by decide)] at sent
      split at sent
      next => cases sent
      next valid =>
        split at sent
        next => cases sent
        next mic made =>
          rw [not_or] at valid
          rw [if_pos (by decide), counter_nextReplay] at made
          rw [if_pos (by decide), counter_nextReplay, Prod.mk.injEq,
            Option.some_inj] at sent
          exact ⟨cipher, mic, encrypted, wraps.2, valid.2, made, sent.2.symm⟩
    next => cases encrypted

/-! ## Receiving -/

/-- The station and the authenticator have the same parameters, and a PTK of the same keys. -/
structure Shares (ap : WpaStateMachine) (sm : WpaSm) (ptk : WpaPtk) : Prop where
  keyMgmt : sm.conf.keyMgmt = ap.wpaKeyMgmt
  pairwise : sm.conf.pairwiseCipher = ap.pairwise
  pmk : sm.pmk.length = ap.pmkLen
  known : ap.pmkLen ≠ 0
  keys : SameKeys ptk ap.ptk

/-- The flags of message 3/4 in a frame. -/
theorem message3_flags {version : UInt16} (known : version = 0 ∨ version = 2 ∨ version = 3) :
    let info := message3Info ||| version ||| KeyInfo.encrKeyData
    info &&& KeyInfo.typeMask = version ∧ hasBits info KeyInfo.mic = true ∧
      hasBits info KeyInfo.encrKeyData = true ∧ hasBits info KeyInfo.keyType = true ∧
      hasBits info KeyInfo.keyIndexMask = false ∧ hasBits info KeyInfo.smkMessage = false ∧
      hasBits info KeyInfo.ack = true ∧ hasBits info KeyInfo.request = false := by
  rcases known with rfl | rfl | rfl <;> decide

/-- The version that an authenticator sends is one that a station with its AKM and its cipher
accepts. -/
theorem versionAllowed_sendVersion (conf : Config) :
    versionAllowed conf (sendVersion conf.keyMgmt conf.pairwiseCipher 0) = true := by
  rcases conf with ⟨keyMgmt, pairwise, -⟩
  cases keyMgmt <;> cases pairwise <;> rfl

/-- The state of a station behind the MIC of a frame that proves the PTK on offer. -/
def adopt (w : World) (micLen : ℕ) (counter : List UInt8) : World where
  sm :=
    { w.sm with
      tptkSet := false
      ptkSet := true
      ptk := w.sm.tptk
      tptk := .zero
      renewSnonce := true
      rxReplayCounter := counter
      rxReplayCounterSet := true }
  state := w.state
  log := w.log ++ [.received micLen] ++ [.verified counter true]

/-- The MIC of a frame is right under the PTK it was made with. -/
theorem micMatches_bytes {env : Callbacks} {sm : WpaSm} {ptk : WpaPtk} {ver : UInt16}
    {version : UInt8} {key : EapolKey} {micLen : ℕ} {mic : List UInt8}
    (len : wpaMicLen sm.conf.keyMgmt sm.pmk.length = micLen) (sized : key.Sized micLen)
    (made : wpaEapolKeyMic env.prims (ptk.kck.take ptk.kckLen) sm.conf.keyMgmt ver
      ({ key with mic := List.replicate micLen 0 }.bytes version) = some mic)
    (placed : key.mic = (mic ++ List.replicate micLen 0).take micLen) :
    micMatches env sm ptk ver (key.bytes version) = true := by
  unfold micMatches
  dsimp only
  rw [len, (mic_bytes sized version).2, made, (mic_bytes sized version).1, placed]
  exact decide_eq_true rfl

/-- A frame that proves the PTK on offer gets through to its key data. -/
theorem wpaSmRxEapol_adopt {env : Callbacks} {w : World} {buf frame : List UInt8} {key : EapolKey}
    {micLen : ℕ} (known : w.sm.pmk.length ≠ 0)
    (len : wpaMicLen w.sm.conf.keyMgmt w.sm.pmk.length = micLen)
    (received : receiveEapolKey env.frameMemory micLen buf = .ok (frame, key))
    (fresh : ¬(w.sm.rxReplayCounterSet ∧ key.replayCounter ≤ w.sm.rxReplayCounter))
    (allowed : keyInfoAllowed w.sm key = true) (hasMic : hasBits key.keyInfo KeyInfo.mic = true)
    (offered : w.sm.tptkSet = true)
    (matches' : micMatches env w.sm w.sm.tptk (key.keyInfo &&& KeyInfo.typeMask) frame = true)
    (encryption : FrameEncryption) :
    wpaSmRxEapol env buf encryption w =
      (do
        let keyData ← decryptKeyData env micLen key (key.keyInfo &&& KeyInfo.typeMask)
        processKey env micLen key (key.keyInfo &&& KeyInfo.typeMask) keyData encryption
        pure 1 : Call ℤ) (adopt w micLen key.replayCounter) := by
  let w' : World := { w with log := w.log ++ [.received micLen] }
  have read : getSm.Returns w w.sm w := rfl
  have logged : (act (.received micLen)).Returns w () w' := rfl
  have verified : (wpaSupplicantVerifyEapolKeyMic env key (key.keyInfo &&& KeyInfo.typeMask)
      frame).Returns w' () (adopt w micLen key.replayCounter) := by
    unfold wpaSupplicantVerifyEapolKeyMic
    refine (show getSm.Returns w' w.sm w' from rfl).bind ?_
    rw [if_pos ⟨offered, matches'⟩]
    rfl
  unfold wpaSmRxEapol
  rw [read.bind_eq]
  dsimp only
  rw [if_neg known, len, logged.bind_eq, received]
  dsimp only
  rw [(returns_require w' fresh).bind_eq, (returns_require w' allowed).bind_eq, Routine.when,
    if_pos hasMic, verified.bind_eq]

/-- **A message 3/4 arrives.** A station with the PTK of the authenticator on offer takes its
message 3/4, and what it goes on with are the elements that the authenticator has put in. -/
theorem wpaSmRxEapol_message3 {env : Callbacks} {eapolVersion : UInt8} {ap ap' : WpaStateMachine}
    {keyRsc nonce frame : List UInt8} {es : List Element} {w : World}
    (sent : wpaSendEapol env.prims eapolVersion true true ap message3Info (some keyRsc) (some nonce)
      (es.flatMap Element.bytes) true 0 = (ap', some frame))
    (shares : Shares ap w.sm w.sm.tptk) (offered : w.sm.tptkSet = true)
    (lengths : keyRsc.length = 8 ∧ nonce.length = 32 ∧ ap.counter.length = 8)
    (fits : 94 + wpaMicLen ap.wpaKeyMgmt ap.pmkLen + (es.flatMap Element.bytes).length < 65536)
    (seen : w.sm.rxReplayCounterSet = true → w.sm.rxReplayCounter ≤ ap.counter)
    (room : ∃ b ∈ ap.counter, b ≠ 0xff)
    (memory : env.frameMemory = true ∧ env.unwrapMemory = true) (rest : List UInt8)
    (encryption : FrameEncryption) :
    ∃ key keyData, key.keyNonce = nonce ∧ key.keyRsc = keyRsc ∧
      wpaParseKdeIes keyData = some (es.foldl (fun ie e => e.record ie) Ies.empty) ∧
      wpaSmRxEapol env (frame ++ rest) encryption w =
        (do
          wpaSupplicantProcess3of4 env key (sendVersion ap.wpaKeyMgmt ap.pairwise 0) keyData
          pure 1 : Call ℤ)
          (adopt w (wpaMicLen ap.wpaKeyMgmt ap.pmkLen) (incByteArray ap.counter)) := by
  rcases wpaSendEapol_message3 sent with ⟨cipher, mic, wrapped, wraps, micLen_ne, made, rfl⟩
  have version := sendVersion_cases ap.wpaKeyMgmt ap.pairwise made
  rcases message3_flags version with ⟨type, hasMic, hasEncr, pairwise, noIndex, noSmk, ack, noReq⟩
  generalize micLen_eq : wpaMicLen ap.wpaKeyMgmt ap.pmkLen = micLen at *
  generalize placed : (mic ++ List.replicate micLen 0).take micLen = placedMic
  have sized : EapolKey.Sized { message3 ap keyRsc nonce cipher with mic := placedMic } micLen := by
    have grown := (aesUnwrapBytes_aesWrapBytes (length_padKeyData _) wrapped).1
    have padded := length_padKeyData_le (es.flatMap Element.bytes)
    refine ⟨?_, lengths.2.1, List.length_replicate, lengths.1, List.length_replicate, ?_, ?_⟩
    · exact (length_incByteArray _).trans lengths.2.2
    · show placedMic.length = micLen
      rw [← placed, List.length_take, List.length_append, List.length_replicate]
      omega
    · show 79 + micLen + cipher.length < 65536
      omega
  generalize whole : { message3 ap keyRsc nonce cipher with mic := placedMic } = key at *
  have info : key.keyInfo = message3Info ||| sendVersion ap.wpaKeyMgmt ap.pairwise 0 |||
      KeyInfo.encrKeyData := by
    rw [← whole]
    rfl
  have decrypted : wpaSupplicantDecryptKeyData env.prims w.sm.conf.keyMgmt true w.sm.tptk
      (sendVersion ap.wpaKeyMgmt ap.pairwise 0) cipher =
        some (padKeyData (es.flatMap Element.bytes)) := by
    refine wpaSupplicantDecryptKeyData_wrap ?_ ?_ (shares.keys.kek ▸ wrapped)
    · rw [shares.keyMgmt]
      exact wraps.elim .inl fun wraps => .inr wraps.symm
    · rcases version with h | h | h <;> rw [h] <;> decide
  refine ⟨key, padKeyData (es.flatMap Element.bytes), by rw [← whole]; rfl, by rw [← whole]; rfl,
    wpaParseKdeIes_elements es, ?_⟩
  have typed : key.type = eapolKeyTypeRsn := by rw [← whole]; rfl
  have counter : key.replayCounter = incByteArray ap.counter := by rw [← whole]; rfl
  have data : key.keyData = cipher := by rw [← whole]; rfl
  have version_eq : key.keyInfo &&& KeyInfo.typeMask = sendVersion ap.wpaKeyMgmt ap.pairwise 0 := by
    rw [info, type]
  have len : wpaMicLen w.sm.conf.keyMgmt w.sm.pmk.length = micLen := by
    rw [shares.keyMgmt, shares.pmk, micLen_eq]
  have fresh : ¬(w.sm.rxReplayCounterSet ∧ key.replayCounter ≤ w.sm.rxReplayCounter) := by
    rintro ⟨set, le⟩
    rw [counter] at le
    exact absurd (lt_incByteArray room) (List.not_lt.mpr (List.le_trans le (seen set)))
  have allowed : keyInfoAllowed w.sm key = true := by
    have version_ok := versionAllowed_sendVersion w.sm.conf
    rw [shares.keyMgmt, shares.pairwise] at version_ok
    rw [keyInfoAllowed, version_eq, version_ok, typed, info, noSmk, ack, noReq]
    rfl
  have matches' : micMatches env w.sm w.sm.tptk (key.keyInfo &&& KeyInfo.typeMask)
      (key.bytes eapolVersion) = true := by
    refine micMatches_bytes len sized ?_ (by rw [← whole, ← placed])
    rw [version_eq, shares.keys.kck, shares.keyMgmt, ← whole]
    exact micLen_eq ▸ made
  have received := receiveEapolKey_bytes sized (.inr typed) eapolVersion rest
  rw [← memory.1] at received
  rw [wpaSmRxEapol_adopt (by rw [shares.pmk]; exact shares.known) len received fresh allowed
    (by rw [info, hasMic]) offered matches', counter, version_eq]
  have decrypts : (decryptKeyData env micLen key (sendVersion ap.wpaKeyMgmt ap.pairwise 0)).Returns
      (adopt w micLen (incByteArray ap.counter)) (padKeyData (es.flatMap Element.bytes))
      (adopt w micLen (incByteArray ap.counter)) := by
    unfold decryptKeyData
    rw [if_pos ⟨by rw [info, hasEncr], micLen_ne⟩]
    refine (returns_require _ (by rw [info, hasMic])).bind ((returns_require _ memory.2).bind ?_)
    refine (show getSm.Returns (adopt w micLen _) (adopt w micLen _).sm _ from rfl).bind ?_
    show (orStop (wpaSupplicantDecryptKeyData env.prims w.sm.conf.keyMgmt true w.sm.tptk _
      key.keyData) (.out (-1))).Returns _ _ _
    rw [data, decrypted]
    rfl
  have handed : processKey env micLen key (sendVersion ap.wpaKeyMgmt ap.pairwise 0)
      (padKeyData (es.flatMap Element.bytes)) encryption
      (adopt w micLen (incByteArray ap.counter)) =
        wpaSupplicantProcess3of4 env key (sendVersion ap.wpaKeyMgmt ap.pairwise 0)
          (padKeyData (es.flatMap Element.bytes)) (adopt w micLen (incByteArray ap.counter)) := by
    unfold processKey
    rw [info, if_pos pairwise, (returns_require _ (by rw [noIndex]; exact nofun)).bind_eq,
      if_pos (.inl hasMic)]
  rw [decrypts.bind_eq, bind_apply, bind_apply, handed]

/-- A network with a passphrase. -/
def pskConfig : Config where
  keyMgmt := .psk
  pairwiseCipher := .ccmp
  groupCipher := .ccmp
  mgmtGroupCipher := .aes128Cmac
  ownAddr := [2, 0, 0, 0, 0, 1]
  assocWpaIe := []
  assocRsnxe := []
  ssid := []
  ssidProtection := false
  wpaDenyPtk0Rekey := false
  wpaRscRelaxation := false
  owePtkWorkaround := false
  beaconProt := false
  extKeyId := false
  deriveKdk := false
  rsnOverride := none

/-- Everything that is asked for is done. -/
def willingCallbacks : Callbacks where
  prims := constantPrimitives
  eapolVersion := 2
  networkCtx := true
  getPmk := fun sm _ => (0, List.replicate 32 1, sm.curPmksa)
  randomBytes := some (List.replicate 32 3)
  rsnOverriding := false
  pmfEnabled := true
  validateIe := fun _ _ => true
  getBssid := none
  frameMemory := true
  kdeMemory := true
  eapolMemory := true
  unwrapMemory := true
  etherSend := fun _ => true
  setKey := fun _ => true

/-- A PTK of zeros with the lengths of CCMP. -/
def zeroPtk : WpaPtk := { WpaPtk.zero with kckLen := 16, kekLen := 16, tkLen := 16 }

/-- A station behind message 1/4. -/
def offeringStation : World :=
  { World.init pskConfig with
    sm := { WpaSm.init pskConfig with pmk := List.replicate 32 1, tptk := zeroPtk, tptkSet := true } }

/-- Its authenticator. -/
def offeringAuthenticator : WpaStateMachine where
  wpaKeyMgmt := .psk
  pairwise := .ccmp
  pmkLen := 32
  ptk := zeroPtk
  ptkValid := true
  keyReplay := List.replicate 4 (false, List.replicate 8 0)

/-- A KDE with a GTK of sixteen bytes. -/
def gtkKde : List UInt8 := wpaAddKde rsnKeyDataGroupkey [1, 0] (List.replicate 16 9)

theorem wpaSmRxEapol_message3_gtk : ∃ frame key keyData,
    (wpaSendEapol constantPrimitives 2 true true offeringAuthenticator message3Info
      (some (List.replicate 8 0)) (some (List.replicate 32 5)) gtkKde true 0).2 = some frame ∧
    wpaParseKdeIes keyData = some { Ies.empty with gtk := some ([1, 0] ++ List.replicate 16 9) } ∧
    wpaSmRxEapol willingCallbacks frame .encrypted offeringStation =
      (do
        wpaSupplicantProcess3of4 willingCallbacks key 2 keyData
        pure 1 : Call ℤ) (adopt offeringStation 16 [0, 0, 0, 0, 0, 0, 0, 1]) := by
  have element : [kdeElement rsnKeyDataGroupkey [1, 0] (List.replicate 16 9) (by decide)
      (by decide)].flatMap Element.bytes = gtkKde := by
    rw [List.flatMap_singleton, bytes_kdeElement, gtkKde]
  have sends : (wpaSendEapol constantPrimitives 2 true true offeringAuthenticator message3Info
      (some (List.replicate 8 0)) (some (List.replicate 32 5)) gtkKde true 0).2.isSome :=
    rfl
  rcases Option.isSome_iff_exists.mp sends with ⟨frame, sent⟩
  rw [← element] at sent
  rcases @wpaSmRxEapol_message3 willingCallbacks 2 _ _ _ _ _ _ offeringStation (Prod.ext rfl sent)
    ⟨rfl, rfl, rfl, by decide, ⟨rfl, rfl, rfl⟩⟩ rfl ⟨rfl, rfl, rfl⟩ (by decide) nofun
    ⟨0, List.mem_cons_self, by decide⟩ ⟨rfl, rfl⟩ [] .encrypted with
    ⟨key, keyData, -, -, parsed, received⟩
  rw [List.append_nil] at received
  rw [element] at sent
  exact ⟨frame, key, keyData, sent, parsed, received⟩

end HalowBridge.Wpa
