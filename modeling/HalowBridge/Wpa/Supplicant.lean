import HalowBridge.Lib.Machine
import HalowBridge.Lib.Routine
import HalowBridge.Wpa.EapolKey
import HalowBridge.Wpa.KeyData

/-!
# The supplicant

The state machine of `wpa.c` on the station's side: the 4-way handshake, in which a PTK is derived
from message 1/4, proved by the MIC of a later frame and installed on message 3/4, and the group key
handshake. It is driven by the frames that arrive, by the events of the association and by the rest
of `wpa_supplicant`, which may change the configuration and the state at any time.

Everything the functions call outside is a callback: what it returns comes with the event, and what
it is asked to do stands in a log. The protocol is RSN, without multi-link operation; the parts that
the build leaves out are left out.

This port reinstalls a PTK: `wpa_supplicant_handle_m4_timeout` deletes it from the driver when a
message 3/4 arrives after the handshake, because message 4/4 may have been lost, and the TK is kept
for that purpose.
-/

namespace HalowBridge.Wpa

open Routine

/-- `enum wpa_states` -/
inductive WpaState
  | disconnected | interfaceDisabled | inactive | scanning | authenticating | associating
  | associated | fourWayHandshake | groupHandshake | completed
  deriving DecidableEq, Repr

/-- The fields of `struct wpa_sm` that configure it. -/
structure Config where
  keyMgmt : KeyMgmt
  pairwiseCipher : Cipher
  groupCipher : Cipher
  mgmtGroupCipher : Cipher
  ownAddr : List UInt8
  assocWpaIe : List UInt8
  assocRsnxe : List UInt8
  ssid : List UInt8
  ssidProtection : Bool
  wpaDenyPtk0Rekey : Bool
  wpaRscRelaxation : Bool
  owePtkWorkaround : Bool
  beaconProt : Bool
  extKeyId : Bool
  /-- A KDK is derived: `force_kdk_derivation`, or secure LTF with an AP that has it. -/
  deriveKdk : Bool
  /-- `rsn_override`, with the byte that is sent for it. -/
  rsnOverride : Option UInt8

/-- `struct wpa_sm`. The group keys are the bytes in use. -/
structure WpaSm where
  conf : Config
  pmk : List UInt8
  /-- The PMK of the current PMKSA cache entry. -/
  curPmksa : Option (List UInt8)
  ptk : WpaPtk
  tptk : WpaPtk
  ptkSet : Bool
  tptkSet : Bool
  tkSet : Bool
  msg3of4Ok : Bool
  snonce : List UInt8
  anonce : List UInt8
  renewSnonce : Bool
  rxReplayCounter : List UInt8
  rxReplayCounterSet : Bool
  gtk : List UInt8
  gtkWnmSleep : List UInt8
  igtk : List UInt8
  igtkWnmSleep : List UInt8
  bigtk : List UInt8
  bigtkWnmSleep : List UInt8
  bssid : List UInt8
  useExtKeyId : Bool
  keyidxActive : UInt8

/-- `enum key_flag`, as far as it is used. -/
inductive KeyFlag
  | rx | rxTx
  deriving DecidableEq, Repr

/-- What is done outside: keys given to the driver, with its answer, frames sent, notifications. The
first three are not calls; they mark what the state machine found out. -/
inductive Action
  /-- A frame goes through the checks of lengths, for a MIC of so many bytes. -/
  | received (micLen : ℕ)
  /-- A TPTK has been derived, or its derivation has failed half way. -/
  | derive (tptk : WpaPtk) (ok : Bool)
  /-- The MIC of a frame with this replay counter is right, for the TPTK, which is the PTK from now
  on, or for the PTK. -/
  | verified (counter : List UInt8) (adopted : Bool)
  | setPtk (alg : Alg) (addr : List UInt8) (keyIdx : UInt8) (key : List UInt8) (flag : KeyFlag)
      (ok : Bool)
  | activatePtk (addr : List UInt8) (keyIdx : UInt8) (ok : Bool)
  | deletePtk (addr : List UInt8) (keyIdx : UInt8) (ok : Bool)
  | setGtk (alg : Alg) (toBroadcast : Bool) (keyIdx : UInt8) (tx : Bool) (rsc key gtk : List UInt8)
      (wnmSleep ok : Bool)
  | setIgtk (alg : Alg) (keyIdx : UInt16) (pn key : List UInt8) (wnmSleep ok : Bool)
  | setBigtk (alg : Alg) (keyIdx : UInt16) (pn key : List UInt8) (wnmSleep ok : Bool)
  | send (dest : List UInt8) (frame : EapolKey) (ok : Bool)
  | setState (state : WpaState)
  | setProtection (rxTx : Bool)
  | portValid
  | eapSuccess
  | cancelAuthTimeout
  | setRekeyOffload
  | ssidVerified
  | transitionDisable (bitmap : UInt8)
  | deauthenticate
  | reconnect
  | assoc
  | disassoc
  deriving DecidableEq, Repr

/-- The state machine, the state that `wpa_supplicant` keeps for it, and what was done outside. -/
structure World where
  sm : WpaSm
  state : WpaState
  log : List Action

/-- What the callbacks return during an event. An answer may depend on all that was done before. -/
structure Callbacks where
  prims : Primitives
  eapolVersion : UInt8
  networkCtx : Bool
  /-- `wpa_supplicant_get_pmk`: its result, and the PMK and the PMKSA cache entry it leaves. -/
  getPmk : WpaSm → (pmkid : Option (List UInt8)) → ℤ × List UInt8 × Option (List UInt8)
  randomBytes : Option (List UInt8)
  rsnOverriding : Bool
  pmfEnabled : Bool
  /-- `wpa_supplicant_validate_ie` against the elements of the AP's beacon. -/
  validateIe : WpaSm → Ies → Bool
  getBssid : Option (List UInt8)
  frameMemory : Bool
  kdeMemory : Bool
  eapolMemory : Bool
  unwrapMemory : Bool
  etherSend : List Action → Bool
  setKey : List Action → Bool

/-- How a function stops: it returns, it goes to `failed`, or `wpa_sm_rx_eapol` goes to `out`. -/
inductive Stop
  | dropped
  | failed
  | out (ret : ℤ)
  deriving DecidableEq

abbrev Call := Routine World Stop

/-! ## Small steps -/

def getSm : Call WpaSm := do
  let w ← get
  pure w.sm

def update (f : WpaSm → WpaSm) : Call Unit := modify fun w => { w with sm := f w.sm }

def act (a : Action) : Call Unit := modify fun w => { w with log := w.log ++ [a] }

/-- `wpa_sm_set_state` -/
def wpaSmSetState (state : WpaState) : Call Unit :=
  modify fun w => { w with state := state, log := w.log ++ [.setState state] }

/-- A value that must be there. -/
def orStop {α : Type} (value : Option α) (reason : Stop) : Call α :=
  match value with
  | some a => pure a
  | none => stop reason

/-- A function that ends with `failed: wpa_sm_deauthenticate(..)`. -/
def labelFailed (x : Call Unit) : Call Unit := do
  match ← attempt (fun _ => false) x with
  | .error .failed => act .deauthenticate
  | _ => pure ()

/-! ## Sending -/

section

variable (env : Callbacks)

/-- `wpa_eapol_key_send`. Without a MIC there is no way to send in this build. -/
def wpaEapolKeySend (ptk : WpaPtk) (ver : UInt16) (msg : EapolKey) : Call Unit := do
  let sm ← getSm
  when (sm.bssid = List.replicate 6 0) <|
    whenSome env.getBssid fun bssid => update fun sm => { sm with bssid := bssid }
  require (wpaMicLen sm.conf.keyMgmt sm.pmk.length ≠ 0) .failed
  require (ptk.kckLen ≠ 0) .failed
  let mic ← orStop (wpaEapolKeyMic env.prims (ptk.kck.take ptk.kckLen) sm.conf.keyMgmt ver
    (msg.bytes env.eapolVersion)) .failed
  let w ← get
  act (.send w.sm.bssid { msg with mic := mic } (env.etherSend w.log))
  require (env.etherSend w.log) .failed

/-- The flags of a reply: a MIC, or encryption where the AKM has none. -/
def micOrEncr (micLen : ℕ) : UInt16 := if micLen ≠ 0 then KeyInfo.mic else KeyInfo.encrKeyData

/-- `wpa_supplicant_send_2_of_4` with the elements that `wpa_supplicant_process_1_of_4` collects. -/
def wpaSupplicantSend2of4 (key : EapolKey) (ver : UInt16) (ptk : WpaPtk) : Call Unit := do
  let sm ← getSm
  let micLen := wpaMicLen sm.conf.keyMgmt sm.pmk.length
  let selection :=
    match sm.conf.rsnOverride with
    | none => []
    | some variant => [0xdd, 5, 0x50, 0x6f, 0x9a, 0x2c, variant]
  require env.eapolMemory .failed
  wpaEapolKeySend env ptk ver
    { EapolKey.blank micLen with
      type := eapolKeyTypeRsn
      keyInfo := ver ||| KeyInfo.keyType ||| (if sm.ptkSet then KeyInfo.secure else 0) |||
        micOrEncr micLen
      replayCounter := key.replayCounter
      keyNonce := sm.snonce
      keyData := sm.conf.assocWpaIe ++ sm.conf.assocRsnxe ++ selection }

/-- `wpa_supplicant_send_4_of_4` -/
def wpaSupplicantSend4of4 (key : EapolKey) (ver keyInfo : UInt16) : Call Unit := do
  let sm ← getSm
  let micLen := wpaMicLen sm.conf.keyMgmt sm.pmk.length
  require env.eapolMemory .failed
  wpaEapolKeySend env sm.ptk ver
    { EapolKey.blank micLen with
      type := eapolKeyTypeRsn
      keyInfo := (keyInfo &&& KeyInfo.secure) ||| ver ||| KeyInfo.keyType ||| micOrEncr micLen
      replayCounter := key.replayCounter }

/-- `wpa_supplicant_send_2_of_2` -/
def wpaSupplicantSend2of2 (key : EapolKey) (ver keyInfo : UInt16) : Call Unit := do
  let sm ← getSm
  let micLen := wpaMicLen sm.conf.keyMgmt sm.pmk.length
  require env.eapolMemory .failed
  wpaEapolKeySend env sm.ptk ver
    { EapolKey.blank micLen with
      type := eapolKeyTypeRsn
      keyInfo := (keyInfo &&& KeyInfo.keyIndexMask) ||| ver ||| KeyInfo.secure |||
        micOrEncr micLen
      replayCounter := key.replayCounter }

/-! ## Message 1/4 -/

/-- `enum frame_encryption` -/
inductive FrameEncryption
  | unknown | notEncrypted | encrypted
  deriving DecidableEq, Repr

/-- `wpas_swap_tkip_mic_keys` -/
def swapTkipMicKeys (ptk : WpaPtk) : WpaPtk :=
  { ptk with tk := ptk.tk.take 16 ++ (ptk.tk.drop 24).take 8 ++ (ptk.tk.drop 16).take 8 ++
      ptk.tk.drop 32 }

/-- `rsn_set_snonce_cookie` -/
def rsnSetSnonceCookie (snonce : List UInt8) : List UInt8 :=
  snonce.take 26 ++ [0x50, 0x6f, 0x9a, 0x00, 0x00, 0x29]

/-- `wpa_derive_ptk` -/
def wpaDerivePtk (sm : WpaSm) (key : EapolKey) : Bool × WpaPtk :=
  wpaPmkToPtk env.prims sm.pmk pairwiseKeyExpansion sm.conf.ownAddr sm.bssid sm.snonce key.keyNonce
    sm.tptk sm.conf.keyMgmt
    (sm.conf.owePtkWorkaround && sm.conf.keyMgmt = .owe && 32 < sm.pmk.length)
    sm.conf.pairwiseCipher (if sm.conf.deriveKdk then 32 else 0)

/-- The derivation of the TPTK in `wpa_supplicant_process_1_of_4`. -/
def deriveTptk (key : EapolKey) : Call Unit := do
  let sm ← getSm
  let (ok, tptk) := wpaDerivePtk env sm key
  let tptk := if ok ∧ sm.conf.pairwiseCipher = .tkip then swapTkipMicKeys tptk else tptk
  modify fun w =>
    { w with
      sm := { w.sm with tptk := tptk, tptkSet := w.sm.tptkSet || ok }
      log := w.log ++ [.derive tptk ok] }
  require ok .failed

/-- The SNonce of `wpa_supplicant_process_1_of_4`, a new one where it is to be renewed. -/
def renewSnonce : Call Unit := do
  let sm ← getSm
  when sm.renewSnonce do
    let random ← orStop env.randomBytes .failed
    update fun sm =>
      { sm with
        snonce := if env.rsnOverriding then rsnSetSnonceCookie random else random
        renewSnonce := false }

/-- `wpa_supplicant_get_pmk` where it is called. -/
def getPmk (pmkid : Option (List UInt8)) : Call Unit := do
  let sm ← getSm
  let (res, pmk, curPmksa) := env.getPmk sm pmkid
  update fun sm => { sm with pmk := pmk, curPmksa := curPmksa }
  require (res ≠ -2) .dropped
  require (res = 0) .failed

/-- `wpa_supplicant_process_1_of_4` -/
def wpaSupplicantProcess1of4 (key : EapolKey) (ver : UInt16) (keyData : List UInt8)
    (encryption : FrameEncryption) : Call Unit := labelFailed do
  let w ← get
  require (¬(encryption = .notEncrypted ∧ w.sm.tkSet ∧ env.pmfEnabled)) .dropped
  require env.networkCtx .dropped
  when (w.sm.conf.wpaDenyPtk0Rekey ∧ ¬w.sm.useExtKeyId ∧ w.state = .completed) do
    act .reconnect
    stop .dropped
  let ie ← orStop (wpaParseKdeIes keyData) .dropped
  getPmk env ie.pmkid
  wpaSmSetState .fourWayHandshake
  renewSnonce env
  deriveTptk env key
  require env.kdeMemory .failed
  let sm ← getSm
  wpaSupplicantSend2of4 env key ver sm.tptk
  update fun sm => { sm with anonce := key.keyNonce }

/-! ## Keys to the driver -/

/-- A call of `wpa_sm_set_key`, which is logged with its answer, and what is stored behind it, unless
the answer is an error that is not passed over. -/
def giveKey (action : Bool → Action) (lenient : Prop) [Decidable lenient] (store : WpaSm → WpaSm) :
    Call Unit := do
  let w ← get
  let ok := env.setKey w.log
  act (action ok)
  require (ok ∨ lenient) .failed
  update store

/-- `wpa_supplicant_handle_m4_timeout` -/
def wpaSupplicantHandleM4Timeout : Call Unit := do
  let sm ← getSm
  when (sm.ptk.tkLen ≠ 0) <|
    giveKey env (.deletePtk sm.bssid sm.keyidxActive) True fun sm =>
      { sm with ptk := { sm.ptk with installed := false }, tkSet := false }

/-- `wpa_supplicant_install_ptk`, which keeps the TK since `WPA_EAPOL_M4_TIMEOUT_RESEND`. -/
def wpaSupplicantInstallPtk (flag : KeyFlag) : Call Unit := do
  let sm ← getSm
  let cipher := sm.conf.pairwiseCipher
  if sm.ptk.installed then pure ()
  else if cipher = .none then pure ()
  else
    require (wpaCipherValidPairwise cipher) .failed
    require (0 < wpaCipherKeyLen cipher ∧ wpaCipherKeyLen cipher = sm.ptk.tkLen) .failed
    giveKey env
      (.setPtk (wpaCipherToAlg cipher) sm.bssid sm.keyidxActive (sm.ptk.tk.take sm.ptk.tkLen) flag)
      False fun sm => { sm with ptk := { sm.ptk with installed := true }, tkSet := true }

/-- `wpa_supplicant_activate_ptk` -/
def wpaSupplicantActivatePtk : Call Unit := do
  let sm ← getSm
  giveKey env (.activatePtk sm.bssid sm.keyidxActive) False id

/-- `struct wpa_gtk_data` -/
structure WpaGtkData where
  alg : Alg
  tx : Bool
  keyRscLen : ℕ
  keyidx : UInt8
  gtk : List UInt8

/-- `wpa_supplicant_check_group_cipher`: the algorithm and the length of the RSC. -/
def wpaSupplicantCheckGroupCipher (groupCipher : Cipher) (keylen maxkeylen : ℕ) :
    Call (ℕ × Alg) := do
  let alg := wpaCipherToAlg groupCipher
  require (alg ≠ .none) .failed
  let klen := wpaCipherKeyLen groupCipher
  require (keylen = klen ∧ klen ≤ maxkeylen) .failed
  pure (wpaCipherRscLen groupCipher, alg)

/-- The key that goes to the driver: for TKIP the two MIC keys change places. -/
def gtkForDriver (groupCipher : Cipher) (gtk : List UInt8) : List UInt8 :=
  if groupCipher = .tkip then gtk.take 16 ++ (gtk.drop 24).take 8 ++ (gtk.drop 16).take 8 else gtk

/-- `wpa_supplicant_install_gtk` -/
def wpaSupplicantInstallGtk (gd : WpaGtkData) (keyRsc : List UInt8) (wnmSleep : Bool) :
    Call Unit := do
  let sm ← getSm
  -- a key that is in use already
  if sm.gtk = gd.gtk ∨ sm.gtkWnmSleep = gd.gtk then pure ()
  else
    let pairwise := decide (sm.conf.pairwiseCipher ≠ .none)
    giveKey env
      (.setGtk gd.alg pairwise gd.keyidx (if pairwise then gd.tx else true)
        (keyRsc.take gd.keyRscLen) (gtkForDriver sm.conf.groupCipher gd.gtk) gd.gtk wnmSleep)
      False fun sm =>
        if wnmSleep then { sm with gtkWnmSleep := gd.gtk } else { sm with gtk := gd.gtk }

/-- `wpa_supplicant_gtk_tx_bit_workaround` -/
def gtkTxBitWorkaround (sm : WpaSm) (tx : Bool) : Bool :=
  if tx ∧ sm.conf.pairwiseCipher ≠ .none then false else tx

/-- `null_rsc` -/
def nullRsc : List UInt8 := List.replicate 8 0

/-- `wpa_supplicant_rsc_relaxation` -/
def rscRelaxation (sm : WpaSm) (rsc : List UInt8) : Bool :=
  if ¬sm.conf.wpaRscRelaxation then false
  else
    wpaCipherRscLen sm.conf.groupCipher = 6 &&
      ((rsc.getD 5 0 != 0 && rsc.getD 0 0 == 0) || rsc.getD 6 0 != 0 || rsc.getD 7 0 != 0)

/-- The RSC of a frame, or zeros where it is likely bogus. -/
def keyRscOf (sm : WpaSm) (key : EapolKey) : List UInt8 :=
  if rscRelaxation sm key.keyRsc then nullRsc else key.keyRsc

/-- `wpa_supplicant_pairwise_gtk` -/
def wpaSupplicantPairwiseGtk (key : EapolKey) (gtk : List UInt8) : Call Unit := do
  let sm ← getSm
  require (2 ≤ gtk.length ∧ gtk.length - 2 ≤ 32) .failed
  if sm.conf.groupCipher = .gtkNotUsed then pure ()
  else
    let (rscLen, alg) ← wpaSupplicantCheckGroupCipher sm.conf.groupCipher (gtk.length - 2)
      (gtk.length - 2)
    wpaSupplicantInstallGtk env
      { alg := alg
        tx := gtkTxBitWorkaround sm (gtk.getD 0 0 &&& 4 != 0)
        keyRscLen := rscLen
        keyidx := gtk.getD 0 0 &&& 3
        gtk := gtk.drop 2 }
      (keyRscOf sm key) false

/-- `WPA_GET_LE16` -/
def wpaGetLe16 (bytes : List UInt8) : UInt16 := UInt16.ofNat (unpackLe bytes)

/-- `wpa_supplicant_install_igtk` on a KDE: the key ID, the PN and the key. An AP that swaps the
bytes of the key ID is let through, without the key. -/
def wpaSupplicantInstallIgtk (kde : List UInt8) (wnmSleep : Bool) : Call Unit := do
  let sm ← getSm
  let keyidx := wpaGetLe16 (kde.take 2)
  let key := (kde.drop 8).take (wpaCipherKeyLen sm.conf.mgmtGroupCipher)
  if sm.igtk = key ∨ sm.igtkWnmSleep = key then pure ()
  else
    require (keyidx ≤ 4095) .failed
    giveKey env
      (.setIgtk (wpaCipherToAlg sm.conf.mgmtGroupCipher) keyidx ((kde.drop 2).take 6) key wnmSleep)
      (keyidx = 0x0400 ∨ keyidx = 0x0500) fun sm =>
        if wnmSleep then { sm with igtkWnmSleep := key } else { sm with igtk := key }

/-- `wpa_supplicant_install_bigtk` -/
def wpaSupplicantInstallBigtk (kde : List UInt8) (wnmSleep : Bool) : Call Unit := do
  let sm ← getSm
  let keyidx := wpaGetLe16 (kde.take 2)
  let key := (kde.drop 8).take (wpaCipherKeyLen sm.conf.mgmtGroupCipher)
  if sm.bigtk = key ∨ sm.bigtkWnmSleep = key then pure ()
  else
    require (6 ≤ keyidx ∧ keyidx ≤ 7) .failed
    giveKey env
      (.setBigtk (wpaCipherToAlg sm.conf.mgmtGroupCipher) keyidx ((kde.drop 2).take 6) key wnmSleep)
      False fun sm =>
        if wnmSleep then { sm with bigtkWnmSleep := key } else { sm with bigtk := key }

/-- `ieee80211w_set_keys` -/
def ieee80211wSetKeys (ie : Ies) : Call Unit := do
  let sm ← getSm
  let cipher := sm.conf.mgmtGroupCipher
  when (wpaCipherValidMgmtGroup cipher ∧ cipher ≠ .gtkNotUsed) do
    whenSome ie.igtk fun igtk => do
      require (igtk.length = 8 + wpaCipherKeyLen cipher) .failed
      wpaSupplicantInstallIgtk env igtk false
    whenSome ie.bigtk fun bigtk => when sm.conf.beaconProt do
      require (bigtk.length = 8 + wpaCipherKeyLen cipher) .failed
      wpaSupplicantInstallBigtk env bigtk false

/-! ## Message 3/4 -/

/-- `wpa_handle_ext_key_id` -/
def wpaHandleExtKeyId (kde : Ies) : Call Unit := do
  let sm ← getSm
  let keyId := kde.keyId.map fun id => id.getD 0 0 &&& 3
  if sm.conf.extKeyId then
    match keyId with
    | none =>
        update fun sm => { sm with keyidxActive := 0 }
        require (¬sm.useExtKeyId) .failed
    | some keyId =>
        require (keyId ≤ 1) .failed
        update fun sm => { sm with keyidxActive := keyId, useExtKeyId := true }
  else
    require (keyId = none ∨ keyId = some 0) .failed
    update fun sm => { sm with keyidxActive := 0, useExtKeyId := false }

/-- `wpa_supplicant_key_neg_complete` -/
def wpaSupplicantKeyNegComplete (secure : Bool) : Call Unit := do
  act .cancelAuthTimeout
  wpaSmSetState .completed
  let sm ← getSm
  when secure do
    act (.setProtection true)
    act .portValid
    when (sm.conf.keyMgmt.isPsk ∨ sm.conf.keyMgmt = .owe) <| act .eapSuccess

/-- The SSID of message 3/4, where it is protected. -/
def checkSsid (ie : Ies) : Call Unit := do
  let sm ← getSm
  when sm.conf.ssidProtection do
    require (ie.ssid = some sm.conf.ssid) .failed
    act .ssidVerified

/-- The checks of `wpa_supplicant_process_3_of_4` on the elements and the fields. -/
def check3of4 (key : EapolKey) (ie : Ies) : Call Unit := do
  let sm ← getSm
  let encr := hasBits key.keyInfo KeyInfo.encrKeyData
  let mgmt := sm.conf.mgmtGroupCipher
  require (ie.gtk.isSome → encr) .failed
  require (ie.igtk.isSome → encr) .failed
  require (∀ igtk ∈ ie.igtk, mgmt ≠ .gtkNotUsed → wpaCipherValidMgmtGroup mgmt →
    igtk.length = 8 + wpaCipherKeyLen mgmt) .failed
  require (env.validateIe sm ie) .failed
  wpaHandleExtKeyId ie
  require (sm.anonce = key.keyNonce) .failed
  require (key.keyLength.toNat = wpaCipherKeyLen sm.conf.pairwiseCipher) .failed

/-- The keys of message 3/4: message 4/4 is sent between the two places where the PTK may be
installed. -/
def installFrom3of4 (key : EapolKey) (ver : UInt16) (oldState : WpaState) : Call Unit := do
  let sm ← getSm
  when sm.useExtKeyId <| wpaSupplicantInstallPtk env .rx
  when (oldState = .completed) <| wpaSupplicantHandleM4Timeout env
  wpaSupplicantSend4of4 env key ver key.keyInfo
  update fun sm => { sm with renewSnonce := true }
  when (hasBits key.keyInfo KeyInfo.install) <|
    if sm.useExtKeyId then wpaSupplicantActivatePtk env else wpaSupplicantInstallPtk env .rxTx

/-- The GTK of message 3/4, which has to be there where the group cipher needs one. -/
def gtkFrom3of4 (key : EapolKey) (ie : Ies) : Call Unit := do
  let sm ← getSm
  when (sm.conf.groupCipher ≠ .gtkNotUsed) do
    let gtk ← orStop ie.gtk .failed
    wpaSupplicantPairwiseGtk env key gtk

/-- The end of `wpa_supplicant_process_3_of_4`. -/
def complete3of4 (key : EapolKey) (ie : Ies) : Call Unit := do
  let secure := hasBits key.keyInfo KeyInfo.secure
  when secure do
    act (.setProtection false)
    act .portValid
  wpaSmSetState .groupHandshake
  gtkFrom3of4 env key ie
  ieee80211wSetKeys env ie
  let sm ← getSm
  when (sm.conf.groupCipher = .gtkNotUsed ∨ ie.gtk.isSome) <| wpaSupplicantKeyNegComplete secure
  when ie.gtk.isSome <| act .setRekeyOffload
  whenSome ie.transitionDisable fun bitmap => act (.transitionDisable (bitmap.getD 0 0))
  update fun sm => { sm with msg3of4Ok := true }

/-- `wpa_supplicant_process_3_of_4` -/
def wpaSupplicantProcess3of4 (key : EapolKey) (ver : UInt16) (keyData : List UInt8) :
    Call Unit := labelFailed do
  let w ← get
  let oldState := w.state
  wpaSmSetState .fourWayHandshake
  let ie ← orStop (wpaParseKdeIes keyData) .failed
  checkSsid ie
  check3of4 env key ie
  installFrom3of4 env key ver oldState
  complete3of4 env key ie

/-! ## The group key handshake -/

/-- `wpa_supplicant_process_1_of_2` -/
def wpaSupplicantProcess1of2 (key : EapolKey) (keyData : List UInt8) (ver : UInt16) :
    Call Unit := labelFailed do
  let sm ← getSm
  require sm.msg3of4Ok .failed
  let ie ← orStop (wpaParseKdeIes keyData) .failed
  wpaSmSetState .groupHandshake
  require (ie.gtk.isSome → hasBits key.keyInfo KeyInfo.encrKeyData) .failed
  let gtk ← orStop ie.gtk .failed
  require (2 ≤ gtk.length) .failed
  require (gtk.length - 2 ≤ 32) .failed
  let (rscLen, alg) ← wpaSupplicantCheckGroupCipher sm.conf.groupCipher (gtk.length - 2)
    (gtk.length - 2)
  -- only a message says that this has failed
  ignore (fun _ => false) (ieee80211wSetKeys env ie)
  wpaSupplicantInstallGtk env
    { alg := alg
      tx := gtkTxBitWorkaround sm (gtk.getD 0 0 &&& 4 != 0)
      keyRscLen := rscLen
      keyidx := gtk.getD 0 0 &&& 3
      gtk := gtk.drop 2 }
    (keyRscOf sm key) false
  wpaSupplicantSend2of2 env key ver key.keyInfo
  act .cancelAuthTimeout
  wpaSmSetState .completed
  act .setRekeyOffload

/-! ## Frames that arrive -/

/-- The MIC of a frame under a KCK, compared with the one it has. -/
def micMatches (sm : WpaSm) (ptk : WpaPtk) (ver : UInt16) (frame : List UInt8) : Bool :=
  let micLen := wpaMicLen sm.conf.keyMgmt sm.pmk.length
  match wpaEapolKeyMic env.prims (ptk.kck.take ptk.kckLen) sm.conf.keyMgmt ver
      (zeroMic micLen frame) with
  | none => false
  | some mic =>
      (mic ++ List.replicate micLen 0).take micLen = (frame.drop (hdrSize + keySize)).take micLen

/-- `wpa_supplicant_verify_eapol_key_mic`. The TPTK that proves itself is the PTK from now on. -/
def wpaSupplicantVerifyEapolKeyMic (key : EapolKey) (ver : UInt16) (frame : List UInt8) :
    Call Unit := do
  let sm ← getSm
  if sm.tptkSet ∧ micMatches env sm sm.tptk ver frame then
    modify fun w =>
      { w with
        sm :=
          { w.sm with
            tptkSet := false
            ptkSet := true
            ptk := w.sm.tptk
            tptk := .zero
            renewSnonce := true
            rxReplayCounter := key.replayCounter
            rxReplayCounterSet := true }
        log := w.log ++ [.verified key.replayCounter true] }
  else
    require (sm.ptkSet ∧ micMatches env sm sm.ptk ver frame) (.out (-1))
    modify fun w =>
      { w with
        sm := { w.sm with rxReplayCounter := key.replayCounter, rxReplayCounterSet := true }
        log := w.log ++ [.verified key.replayCounter false] }

/-- The descriptor version that `wpa_sm_rx_eapol` accepts. -/
def versionAllowed (conf : Config) (ver : UInt16) : Bool :=
  let akmDefined := wpaUseAkmDefined conf.keyMgmt
  (ver = 1 || ver = 3 || ver = 2 || akmDefined) &&
    !(ver = 1 && conf.pairwiseCipher ≠ .tkip) &&
    !(ver = 2 && conf.keyMgmt ≠ .ieee8021x && conf.keyMgmt ≠ .psk) &&
    !(akmDefined && ver ≠ 0) &&
    (if conf.keyMgmt.isSha256 then ver = 3 || akmDefined
    else if conf.pairwiseCipher = .ccmp && !akmDefined && ver ≠ 2 then ver = 3
    else !(conf.pairwiseCipher = .gcmp && !akmDefined && ver ≠ 2))

/-- The checks of `wpa_sm_rx_eapol` on the fields of a frame, all of which return -1. -/
def keyInfoAllowed (sm : WpaSm) (key : EapolKey) : Bool :=
  !hasBits key.keyInfo KeyInfo.smkMessage && hasBits key.keyInfo KeyInfo.ack &&
    !hasBits key.keyInfo KeyInfo.request && key.type = eapolKeyTypeRsn &&
    versionAllowed sm.conf (key.keyInfo &&& KeyInfo.typeMask)

/-- The key data of a frame, decrypted where it is encrypted. -/
def decryptKeyData (micLen : ℕ) (key : EapolKey) (ver : UInt16) : Call (List UInt8) := do
  if hasBits key.keyInfo KeyInfo.encrKeyData ∧ micLen ≠ 0 then
    require (hasBits key.keyInfo KeyInfo.mic) (.out (-1))
    require env.unwrapMemory (.out (-1))
    let sm ← getSm
    orStop (wpaSupplicantDecryptKeyData env.prims sm.conf.keyMgmt sm.ptkSet sm.ptk ver key.keyData)
      (.out (-1))
  else pure key.keyData

/-- The message of a frame, by its flags. -/
def processKey (micLen : ℕ) (key : EapolKey) (ver : UInt16) (keyData : List UInt8)
    (encryption : FrameEncryption) : Call Unit := do
  let mic := hasBits key.keyInfo KeyInfo.mic
  let encr := hasBits key.keyInfo KeyInfo.encrKeyData
  if hasBits key.keyInfo KeyInfo.keyType then
    require (¬hasBits key.keyInfo KeyInfo.keyIndexMask) (.out (-1))
    if mic ∨ encr then wpaSupplicantProcess3of4 env key ver keyData
    else wpaSupplicantProcess1of4 env key ver keyData encryption
  else if (micLen ≠ 0 ∧ mic) ∨ (micLen = 0 ∧ encr) then wpaSupplicantProcess1of2 env key keyData ver
  else pure ()

/-- `wpa_sm_rx_eapol` -/
def wpaSmRxEapol (buf : List UInt8) (encryption : FrameEncryption) : Call ℤ := do
  let sm ← getSm
  let pmkLen := if sm.pmk.length = 0 then (sm.curPmksa.getD []).length else sm.pmk.length
  let micLen := wpaMicLen sm.conf.keyMgmt pmkLen
  act (.received micLen)
  match receiveEapolKey env.frameMemory micLen buf with
  | .error ret => stop (.out ret)
  | .ok (frame, key) =>
      let ver := key.keyInfo &&& KeyInfo.typeMask
      require (¬(sm.rxReplayCounterSet ∧ key.replayCounter ≤ sm.rxReplayCounter)) (.out (-1))
      require (keyInfoAllowed sm key) (.out (-1))
      when (hasBits key.keyInfo KeyInfo.mic) <| wpaSupplicantVerifyEapolKeyMic env key ver frame
      let keyData ← decryptKeyData env micLen key ver
      processKey env micLen key ver keyData encryption
      pure 1

end

/-! ## Events -/

/-- `wpa_sm_clear_ptk` -/
def wpaSmClearPtk (sm : WpaSm) : WpaSm :=
  { sm with
    ptkSet := false, ptk := .zero, tptkSet := false, tptk := .zero
    gtk := [], gtkWnmSleep := [], igtk := [], igtkWnmSleep := [], bigtk := [], bigtkWnmSleep := []
    tkSet := false }

/-- `wpa_sm_notify_assoc` -/
def wpaSmNotifyAssoc (bssid : List UInt8) (sm : WpaSm) : WpaSm :=
  { wpaSmClearPtk sm with
    bssid := bssid
    rxReplayCounter := List.replicate 8 0
    rxReplayCounterSet := false
    renewSnonce := true
    keyidxActive := 0 }

/-- `wpa_sm_notify_disassoc` -/
def wpaSmNotifyDisassoc (sm : WpaSm) : WpaSm :=
  { wpaSmClearPtk sm with
    pmk := [], curPmksa := none, keyidxActive := 0, msg3of4Ok := false
    bssid := List.replicate 6 0 }

/-- The key of a WNM-Sleep Mode response. -/
inductive WnmSleepSubelem
  | gtk | igtk | bigtk
  deriving DecidableEq, Repr

/-- `wpa_wnmsleep_install_key` -/
def wpaWnmsleepInstallKey (env : Callbacks) (subelem : WnmSleepSubelem) (buf : List UInt8) :
    Call Unit := do
  let sm ← getSm
  match subelem with
  | .gtk =>
      let alg := wpaCipherToAlg sm.conf.groupCipher
      let keylen := wpaCipherKeyLen sm.conf.groupCipher
      let keyinfo := wpaGetLe16 ((buf.drop 2).take 2)
      require (alg ≠ .none) .failed
      require (keylen = (buf.getD 4 0).toNat) .failed
      wpaSupplicantInstallGtk env
        { alg := alg
          tx := gtkTxBitWorkaround sm (hasBits keyinfo 0x0040)
          keyRscLen := wpaCipherRscLen sm.conf.groupCipher
          keyidx := (keyinfo &&& 3).toUInt8
          gtk := (buf.drop 13).take keylen }
        (buf.drop 5) true
  | .igtk => wpaSupplicantInstallIgtk env (buf.drop 2) true
  | .bigtk => when sm.conf.beaconProt <| wpaSupplicantInstallBigtk env (buf.drop 2) true

/-- What happens to the state machine: a frame, an event of the association, a key of a WNM-Sleep
response, or something that the rest of `wpa_supplicant` sets. -/
inductive Event
  | rxEapol (env : Callbacks) (buf : List UInt8) (encryption : FrameEncryption)
  | notifyAssoc (bssid : List UInt8)
  | notifyDisassoc
  | wnmsleepInstallKey (env : Callbacks) (subelem : WnmSleepSubelem) (buf : List UInt8)
  | setPmk (pmk : List UInt8) (curPmksa : Option (List UInt8))
  | setConfig (conf : Config) (useExtKeyId : Bool)
  | setState (state : WpaState)

/-- The result of a function that returns a number. -/
def resultOf (result : Except Stop ℤ) : ℤ :=
  match result with
  | .ok ret => ret
  | .error (.out ret) => ret
  | .error _ => -1

/-- An event moves the world, with the result of the function it calls. -/
def stepEvent (w : World) (event : Event) : World × ℤ :=
  match event with
  | .rxEapol env buf encryption =>
      let (result, w) := wpaSmRxEapol env buf encryption w
      (w, resultOf result)
  | .notifyAssoc bssid =>
      ({ w with sm := wpaSmNotifyAssoc bssid w.sm, log := w.log ++ [.assoc] }, 0)
  | .notifyDisassoc => ({ w with sm := wpaSmNotifyDisassoc w.sm, log := w.log ++ [.disassoc] }, 0)
  | .wnmsleepInstallKey env subelem buf =>
      let (result, w) := wpaWnmsleepInstallKey env subelem buf w
      (w, resultOf (result.map fun _ => 0))
  | .setPmk pmk curPmksa => ({ w with sm := { w.sm with pmk := pmk, curPmksa := curPmksa } }, 0)
  | .setConfig conf useExtKeyId =>
      ({ w with sm := { w.sm with conf := conf, useExtKeyId := useExtKeyId } }, 0)
  | .setState state => ({ w with state := state, log := w.log ++ [.setState state] }, 0)

/-- The supplicant as a machine. -/
def supplicant : Machine World Event ℤ := ⟨stepEvent⟩

/-- `wpa_sm_init`, with a configuration. -/
def WpaSm.init (conf : Config) : WpaSm where
  conf := conf
  pmk := []
  curPmksa := none
  ptk := .zero
  tptk := .zero
  ptkSet := false
  tptkSet := false
  tkSet := false
  msg3of4Ok := false
  snonce := List.replicate 32 0
  anonce := List.replicate 32 0
  renewSnonce := true
  rxReplayCounter := List.replicate 8 0
  rxReplayCounterSet := false
  gtk := []
  gtkWnmSleep := []
  igtk := []
  igtkWnmSleep := []
  bigtk := []
  bigtkWnmSleep := []
  bssid := List.replicate 6 0
  useExtKeyId := false
  keyidxActive := 0

/-- The world before the first event. -/
def World.init (conf : Config) : World := ⟨WpaSm.init conf, .disconnected, []⟩

/-- The world after a list of events. -/
def runEvents (conf : Config) (events : List Event) : World :=
  supplicant.exec (World.init conf) events

end HalowBridge.Wpa
