import HalowBridge.Config.Settings
import HalowBridge.Config.Html
import HalowBridge.Config.Form

/-!
# The settings page and its form

`get_handler` shows the stored settings in a form and `save_post_handler` stores what the form
sends back. A string field that arrives empty keeps its stored value, a longer one is cut to its
array, and a number out of range is ignored.

Between the two stands a browser: it reads the attribute values of the page and sends all fields in
one encoded body. `settingsPage_roundTrip` says that a form sent back as it was shown changes no
setting, whatever bytes the strings hold and however the browser encodes them, and that its body is
never refused for its length. `savePostHandler_roundTrip` carries this through the store.
-/

namespace HalowBridge.Config

def maxFormField : ℕ := 64

/-- The longest body `save_post_handler` accepts. -/
def maxContentLen : ℕ := 1024

/-! ## The page -/

/-- The arrays of the page handler's stack, with any content. -/
structure EscapeBuffers where
  hSsid : Table UInt8 (settingsMaxSsid * 6)
  hPass : Table UInt8 (settingsMaxPass * 6)
  aSsid : Table UInt8 (settingsMaxSsid * 6)
  aPass : Table UInt8 (settingsMaxPass * 6)
  hCountry : Table UInt8 (settingsMaxCountry * 6)

/-- The value of the option the page marks as selected. -/
def selectedOption (preset : UInt8) : List UInt8 :=
  if preset = 0 then ascii "0"
  else if preset = 1 then ascii "1"
  else ascii "2"

/-- The names and attribute values of the form `get_handler` shows, in the order of the page. -/
def pageFields (s : BridgeSettings) (stack : EscapeBuffers) : List (List UInt8 × List UInt8) :=
  let lang := if s.lang ≤ langZh then s.lang else langEn
  let bp := if s.bufferPreset ≤ bufferPresetLarge then s.bufferPreset else 1
  [(ascii "lang", ascii (toString lang.toNat)),
    (ascii "halow_ssid", cstr (htmlEscape s.halowSsid.slots stack.hSsid)),
    (ascii "halow_pass", cstr (htmlEscape s.halowPass.slots stack.hPass)),
    (ascii "ap_ssid", cstr (htmlEscape s.apSsid.slots stack.aSsid)),
    (ascii "ap_pass", cstr (htmlEscape s.apPass.slots stack.aPass)),
    (ascii "country", cstr (htmlEscape s.country.slots stack.hCountry)),
    (ascii "buffer_preset", selectedOption bp)]

/-- The fields a browser sends when nothing was changed. -/
def submittedFields (s : BridgeSettings) (stack : EscapeBuffers) :
    List (List UInt8 × List UInt8) :=
  (pageFields s stack).map fun field => (field.1, htmlUnescape field.2)

/-! ## The form -/

/-- A string field: `tmp` holds the decoded value, and an empty one keeps the setting. -/
def updateString {n : ℕ} (field : Table UInt8 n) (tmp : List UInt8) : Table UInt8 n :=
  if tmp.headD 0 ≠ 0 then strncpyTerminated field tmp else field

/-- A number field: a value that is empty or out of range keeps the setting. -/
def updateNumber (field : UInt8) (tmp : List UInt8) (low high : UInt8) : UInt8 :=
  if tmp.headD 0 ≠ 0 then
    if (low.toNat : ℤ) ≤ atoi tmp ∧ atoi tmp ≤ high.toNat then UInt8.ofNat (atoi tmp).toNat
    else field
  else field

/-- What `tmp` holds after the field of the form is parsed into it. -/
def formValue (form : List UInt8) (name : String) : List UInt8 :=
  (parseFormField form (ascii name) maxFormField).1

/-- The parsing part of `save_post_handler`, on the string of the receive buffer. -/
def applyForm (form : List UInt8) (s : BridgeSettings) : BridgeSettings where
  halowSsid := updateString s.halowSsid (formValue form "halow_ssid")
  halowPass := updateString s.halowPass (formValue form "halow_pass")
  apSsid := updateString s.apSsid (formValue form "ap_ssid")
  apPass := updateString s.apPass (formValue form "ap_pass")
  country := updateString s.country (formValue form "country")
  bufferPreset := updateNumber s.bufferPreset (formValue form "buffer_preset") bufferPresetSmall
    bufferPresetLarge
  lang := updateNumber s.lang (formValue form "lang") langEn langZh

/-- A request as the handler meets it: the announced length, whether the buffer is allocated, and
the bytes the receive call hands over, none when it fails. -/
structure Request where
  contentLen : ℕ
  allocated : Bool
  received : List UInt8
  received_le : received.length ≤ contentLen

inductive Response where
  | badRequest (message : String)
  | internalError (message : String)
  | found (location : String)
  /-- The handler fails without an answer. -/
  | none
  deriving DecidableEq

/-- `save_post_handler`: the namespace afterwards, and the response. -/
def savePostHandler (flash : Option Nvs) (calls : SaveCalls) (req : Request) :
    Option Nvs × Response :=
  if req.contentLen = 0 ∨ req.contentLen > maxContentLen then (flash, .badRequest "Bad request")
  else if req.allocated = false then (flash, .internalError "Out of memory")
  else if req.received.length = 0 then (flash, .none)
  else
    let s := applyForm (cstr (req.received ++ [0])) (settingsLoad flash)
    match settingsSave flash calls s with
    | (flash, false) => (flash, .internalError "Save failed")
    | (flash, true) => (flash, .found "/?saved=1")

/-- An accepted request stores the record its form makes of the stored one. -/
theorem savePostHandler_found {flash : Option Nvs} {calls : SaveCalls} {req : Request}
    {location : String} (accepted : (savePostHandler flash calls req).2 = .found location) :
    (savePostHandler flash calls req).1 =
      (settingsSave flash calls
        (applyForm (cstr (req.received ++ [0])) (settingsLoad flash))).1 := by
  unfold savePostHandler at accepted ⊢
  split_ifs at accepted ⊢ with length allocated received
  dsimp only at accepted ⊢
  generalize settingsSave flash calls _ = saved at accepted ⊢
  obtain ⟨flash, success⟩ := saved
  cases success with
  | true => rfl
  | false => cases accepted

/-- A request within the limits is accepted when no store call fails. -/
theorem savePostHandler_accepts (flash : Option Nvs) {req : Request} (received : req.received ≠ [])
    (allocated : req.allocated = true) (short : req.contentLen ≤ maxContentLen) :
    (savePostHandler flash .allSucceed req).2 = .found "/?saved=1" := by
  have bytes := List.length_pos_iff.mpr received
  have announced := req.received_le
  unfold savePostHandler
  rw [if_neg (by omega), if_neg (by simp [allocated]), if_neg (by omega)]
  rfl

/-! ## A form keeps the record well formed -/

theorem zero_mem_updateString {n : ℕ} (nonempty : 0 < n) {field : Table UInt8 n}
    (terminated : 0 ∈ field.slots) (tmp : List UInt8) : 0 ∈ (updateString field tmp).slots := by
  unfold updateString
  split
  · exact zero_mem_strncpyTerminated nonempty _ _
  · exact terminated

theorem updateNumber_le {field low high : UInt8} (le : field ≤ high) (tmp : List UInt8) :
    updateNumber field tmp low high ≤ high := by
  unfold updateNumber
  split
  · split
    · rename_i range
      have bound := high.toNat_lt
      rw [UInt8.le_iff_toNat_le, UInt8.toNat_ofNat']
      exact (Nat.mod_le _ _).trans (by omega)
    · exact le
  · exact le

/-- **Whatever is posted, the record stays well formed.** -/
theorem applyForm_wellFormed {s : BridgeSettings} (wellFormed : s.WellFormed)
    (form : List UInt8) : (applyForm form s).WellFormed where
  halowSsid := zero_mem_updateString (by decide) wellFormed.halowSsid _
  halowPass := zero_mem_updateString (by decide) wellFormed.halowPass _
  apSsid := zero_mem_updateString (by decide) wellFormed.apSsid _
  apPass := zero_mem_updateString (by decide) wellFormed.apPass _
  country := zero_mem_updateString (by decide) wellFormed.country _
  bufferPreset := updateNumber_le wellFormed.bufferPreset _
  lang := updateNumber_le wellFormed.lang _

/-! ## The round trip of one field -/

/-- What the browser reads from the page is the string of the setting. -/
theorem htmlUnescape_htmlEscape {n : ℕ} {field : Table UInt8 n} (terminated : 0 ∈ field.slots)
    (out : Table UInt8 (n * 6)) :
    htmlUnescape (cstr (htmlEscape field.slots out)) = cstr field.slots := by
  rcases exists_cstr_append terminated with ⟨rest, split⟩
  have short := length_cstr_lt terminated
  rw [split, cstr_htmlEscape (zero_not_mem_cstr _) out (by omega), htmlUnescape_escaped, ← split]

/-- A string field takes what the form sends, cut to its array, and keeps its own string when the
form sends none. -/
theorem cstr_updateString {n : ℕ} (nonempty : 0 < n) (field : Table UInt8 n) (tmp : List UInt8) :
    cstr (updateString field tmp).slots =
      if cstr tmp = [] then cstr field.slots else (cstr tmp).take (n - 1) := by
  unfold updateString
  by_cases empty : cstr tmp = []
  · rw [if_neg (not_not.mpr (headD_eq_zero_iff.mpr empty)), if_pos empty]
  · rw [if_pos (mt headD_eq_zero_iff.mp empty), if_neg empty, cstr_strncpyTerminated nonempty]

/-- A setting that comes back as it was stays as it was. -/
theorem cstr_updateString_self {n : ℕ} {field : Table UInt8 n} (terminated : 0 ∈ field.slots)
    (fits : n ≤ maxFormField) :
    cstr (updateString field ((cstr field.slots).take (maxFormField - 1))).slots =
      cstr field.slots := by
  have short := length_cstr_lt terminated
  rw [List.take_of_length_le (by omega), cstr_updateString (by omega),
    cstr_eq_self (zero_not_mem_cstr _), List.take_of_length_le (by omega), ite_self]

/-- The language of the page comes back. -/
theorem updateNumber_lang {lang : UInt8} (le : lang ≤ langZh) :
    (htmlUnescape (ascii (toString lang.toNat))).length = 1 ∧
      updateNumber lang ((htmlUnescape (ascii (toString lang.toNat))).take (maxFormField - 1))
        langEn langZh = lang := by
  obtain rfl | rfl | rfl : lang = 0 ∨ lang = 1 ∨ lang = 2 := by
    unfold langZh at le
    grind
  all_goals decide +kernel

/-- The selected preset comes back. -/
theorem updateNumber_selectedOption {preset : UInt8} (le : preset ≤ bufferPresetLarge) :
    (htmlUnescape (selectedOption preset)).length = 1 ∧
      updateNumber preset ((htmlUnescape (selectedOption preset)).take (maxFormField - 1))
        bufferPresetSmall bufferPresetLarge = preset := by
  obtain rfl | rfl | rfl : preset = 0 ∨ preset = 1 ∨ preset = 2 := by
    unfold bufferPresetLarge at le
    grind
  all_goals decide +kernel

/-! ## The round trip of the form -/

/-- The names of the form, in the order of the page. -/
def formNames : List (List UInt8) :=
  ["lang", "halow_ssid", "halow_pass", "ap_ssid", "ap_pass", "country", "buffer_preset"].map ascii

theorem submittedFields_names (s : BridgeSettings) (stack : EscapeBuffers) :
    (submittedFields s stack).map Prod.fst = formNames := rfl

theorem formNames_nodup : formNames.Nodup := by decide +kernel

theorem formNames_clean {name : List UInt8} (member : name ∈ formNames) : CleanName name := by
  have all : ∀ name ∈ formNames, 0 ∉ name ∧ 0x3d ∉ name ∧ 0x26 ∉ name := by decide +kernel
  exact all name member

theorem formNames_length : formNames.map List.length = [4, 10, 10, 7, 7, 7, 13] := by
  decide +kernel

section RoundTrip

variable {s : BridgeSettings} (wellFormed : s.WellFormed) (stack : EscapeBuffers)
include wellFormed

/-- The fields of a well-formed record are its strings and numbers. -/
theorem submittedFields_eq :
    submittedFields s stack =
      formNames.zip [htmlUnescape (ascii (toString s.lang.toNat)), cstr s.halowSsid.slots,
        cstr s.halowPass.slots, cstr s.apSsid.slots, cstr s.apPass.slots, cstr s.country.slots,
        htmlUnescape (selectedOption s.bufferPreset)] := by
  simp only [submittedFields, pageFields, wellFormed.lang, wellFormed.bufferPreset, ↓reduceIte,
    List.map_cons, List.map_nil, htmlUnescape_htmlEscape wellFormed.halowSsid,
    htmlUnescape_htmlEscape wellFormed.halowPass, htmlUnescape_htmlEscape wellFormed.apSsid,
    htmlUnescape_htmlEscape wellFormed.apPass, htmlUnescape_htmlEscape wellFormed.country]
  rfl

/-- The longest encoding of a form fits the limit. -/
theorem formBound_submittedFields : formBound (submittedFields s stack) ≤ maxContentLen := by
  have lang := (updateNumber_lang wellFormed.lang).1
  have preset := (updateNumber_selectedOption wellFormed.bufferPreset).1
  have halowSsid : _ < 32 := length_cstr_lt wellFormed.halowSsid
  have halowPass : _ < 64 := length_cstr_lt wellFormed.halowPass
  have apSsid : _ < 32 := length_cstr_lt wellFormed.apSsid
  have apPass : _ < 64 := length_cstr_lt wellFormed.apPass
  have country : _ < 4 := length_cstr_lt wellFormed.country
  have names := formNames_length
  simp only [formNames, List.map_cons, List.map_nil, List.cons.injEq] at names
  obtain ⟨n₁, n₂, n₃, n₄, n₅, n₆, n₇, -⟩ := names
  rw [submittedFields_eq wellFormed stack]
  simp only [formBound, formNames, List.map_cons, List.map_nil, List.zip_cons_cons,
    List.zip_nil_right, List.sum_cons, List.sum_nil, n₁, n₂, n₃, n₄, n₅, n₆, n₇, lang, preset]
  unfold maxContentLen
  omega

/-- The parsing part of the handler finds the record again in any encoding of its form. -/
theorem applyForm_submittedFields {fields : List (List UInt8 × List UInt8)} {body : List UInt8}
    (order : fields.Perm (submittedFields s stack)) (encodes : EncodesForm fields body) :
    (applyForm (cstr (body ++ [0])) s).Same s := by
  have names : (fields.map Prod.fst).Perm formNames := by
    rw [← submittedFields_names s stack]
    exact order.map Prod.fst
  have clean : ∀ field ∈ fields, CleanName field.1 := fun field member =>
    formNames_clean (names.subset (List.mem_map_of_mem member))
  have whole : cstr (body ++ [0]) = body := cstr_append_zero (encodes.zero_not_mem clean) []
  have sent (name : String) (value : List UInt8)
      (member : (ascii name, value) ∈ submittedFields s stack) :
      formValue (cstr (body ++ [0])) name = value.take (maxFormField - 1) := by
    rw [whole]
    exact parseFormField_of_mem encodes clean (names.nodup_iff.mpr formNames_nodup)
      (order.symm.subset member) maxFormField
  rw [submittedFields_eq wellFormed stack] at sent
  refine ⟨?_, ?_, ?_, ?_, ?_, ?_, ?_⟩
  · rw [applyForm, sent "halow_ssid" _ (.tail _ (.head _))]
    exact cstr_updateString_self wellFormed.halowSsid (by decide)
  · rw [applyForm, sent "halow_pass" _ (.tail _ (.tail _ (.head _)))]
    exact cstr_updateString_self wellFormed.halowPass (by decide)
  · rw [applyForm, sent "ap_ssid" _ (.tail _ (.tail _ (.tail _ (.head _))))]
    exact cstr_updateString_self wellFormed.apSsid (by decide)
  · rw [applyForm, sent "ap_pass" _ (.tail _ (.tail _ (.tail _ (.tail _ (.head _)))))]
    exact cstr_updateString_self wellFormed.apPass (by decide)
  · rw [applyForm, sent "country" _ (.tail _ (.tail _ (.tail _ (.tail _ (.tail _ (.head _))))))]
    exact cstr_updateString_self wellFormed.country (by decide)
  · show updateNumber _ (formValue _ "buffer_preset") _ _ = _
    rw [sent "buffer_preset" _
      (.tail _ (.tail _ (.tail _ (.tail _ (.tail _ (.tail _ (.head _)))))))]
    exact (updateNumber_selectedOption wellFormed.bufferPreset).2
  · show updateNumber _ (formValue _ "lang") _ _ = _
    rw [sent "lang" _ (.head _)]
    exact (updateNumber_lang wellFormed.lang).2

theorem length_le_of_submittedFields {fields : List (List UInt8 × List UInt8)} {body : List UInt8}
    (order : fields.Perm (submittedFields s stack)) (encodes : EncodesForm fields body) :
    body.length ≤ maxContentLen := by
  have bound := encodes.length_le
  rw [formBound, (order.map _).sum_nat] at bound
  exact bound.trans (formBound_submittedFields wellFormed stack)

/-- **A form sent back as it was shown changes no setting and is never too long.** The fields may
come in any order, and each byte in any of its encodings. -/
theorem settingsPage_roundTrip {fields : List (List UInt8 × List UInt8)} {body : List UInt8}
    (order : fields.Perm (submittedFields s stack)) (encodes : EncodesForm fields body) :
    (applyForm (cstr (body ++ [0])) s).Same s ∧ body.length ≤ maxContentLen :=
  ⟨applyForm_submittedFields wellFormed stack order encodes,
    length_le_of_submittedFields wellFormed stack order encodes⟩

end RoundTrip

/-- A passphrase of the characters that need an escape or an encoding, and a byte above `0x7f`. -/
def trickySettings : BridgeSettings :=
  { defaultSettings with
    halowPass := strncpyTerminated (.fill _ 0)
      [0x26, 0x22, 0x3c, 0x3e, 0x25, 0x2b, 0x20, 0x3d, 0xff] }

/-- Arrays with no NUL in them. -/
def filledBuffers : EscapeBuffers :=
  ⟨.fill _ 0xa5, .fill _ 0xa5, .fill _ 0xa5, .fill _ 0xa5, .fill _ 0xa5⟩

theorem settingsPage_roundTrip_trickySettings :
    (applyForm (cstr (percentEncodeForm (submittedFields trickySettings filledBuffers) ++ [0]))
        trickySettings).Same trickySettings ∧
      (percentEncodeForm (submittedFields trickySettings filledBuffers)).length ≤
        maxContentLen := by
  have wellFormed : trickySettings.WellFormed :=
    { defaultSettings_wellFormed with
      halowPass := zero_mem_strncpyTerminated (by decide) _ _ }
  exact settingsPage_roundTrip wellFormed filledBuffers (.refl _)
    (encodesForm_percentEncodeForm _)

/-- **Saving the page as it was shown leaves the stored settings as they were.** -/
theorem savePostHandler_roundTrip (flash : Option Nvs) (stack : EscapeBuffers)
    {fields : List (List UInt8 × List UInt8)} {req : Request}
    (order : fields.Perm (submittedFields (settingsLoad flash) stack))
    (encodes : EncodesForm fields req.received) (whole : req.contentLen = req.received.length)
    (allocated : req.allocated = true) :
    (savePostHandler flash .allSucceed req).2 = .found "/?saved=1" ∧
      (settingsLoad (savePostHandler flash .allSucceed req).1).Same (settingsLoad flash) := by
  have loaded := settingsLoad_wellFormed flash
  have nonempty : req.received ≠ [] := by
    cases fields with
    | nil => exact (List.cons_ne_nil _ _ order.symm.eq_nil).elim
    | cons field fields => exact encodes.ne_nil
  have same := applyForm_submittedFields loaded stack order encodes
  have short := length_le_of_submittedFields loaded stack order encodes
  have accepted := savePostHandler_accepts flash nonempty allocated (whole.trans_le short)
  refine ⟨accepted, ?_⟩
  rw [savePostHandler_found accepted]
  exact (settingsLoad_settingsSave flash (applyForm_wellFormed loaded _)).trans same

end HalowBridge.Config
