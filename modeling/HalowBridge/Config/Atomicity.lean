import HalowBridge.Config.Settings

/-!
# Saving with failing store calls

`settings_save` makes seven writes and a commit, each of which can fail, and returns the result of
the commit alone. `view_settingsSave` says what a later `settings_load` returns for every pattern of
results: field by field, the saved value where the write succeeded and the value loaded before where
it failed.

So the result tells nothing about the writes. `allOrNothing_iff` gives the exact condition under
which a save is all or nothing: the store was not opened, or every write whose field changes had the
same result as the commit.
-/

namespace HalowBridge.Config

/-- The fields of `bridge_settings_t`. -/
inductive Field where
  | halowSsid
  | halowPass
  | apSsid
  | apPass
  | country
  | bufferPreset
  | lang
  deriving DecidableEq

/-- The key a field is stored under. -/
def Field.key : Field → String
  | .halowSsid => nvsKeyHalowSsid
  | .halowPass => nvsKeyHalowPass
  | .apSsid => nvsKeyApSsid
  | .apPass => nvsKeyApPass
  | .country => nvsKeyCountry
  | .bufferPreset => nvsKeyBuffer
  | .lang => nvsKeyLang

/-- What a reader of the record sees of a field: a string up to its NUL, or a number. -/
def BridgeSettings.view (s : BridgeSettings) : Field → List UInt8
  | .halowSsid => cstr s.halowSsid.slots
  | .halowPass => cstr s.halowPass.slots
  | .apSsid => cstr s.apSsid.slots
  | .apPass => cstr s.apPass.slots
  | .country => cstr s.country.slots
  | .bufferPreset => [s.bufferPreset]
  | .lang => [s.lang]

theorem BridgeSettings.same_iff {s t : BridgeSettings} :
    s.Same t ↔ ∀ field, s.view field = t.view field := by
  constructor
  · intro same field
    cases field with
    | halowSsid => exact same.halowSsid
    | halowPass => exact same.halowPass
    | apSsid => exact same.apSsid
    | apPass => exact same.apPass
    | country => exact same.country
    | bufferPreset => exact congrArg ([·]) same.bufferPreset
    | lang => exact congrArg ([·]) same.lang
  · intro views
    exact {
      halowSsid := views .halowSsid
      halowPass := views .halowPass
      apSsid := views .apSsid
      apPass := views .apPass
      country := views .country
      bufferPreset := List.singleton_inj.mp (views .bufferPreset)
      lang := List.singleton_inj.mp (views .lang) }

theorem BridgeSettings.Same.refl (s : BridgeSettings) : s.Same s :=
  same_iff.mpr fun _ => rfl

theorem BridgeSettings.Same.symm {s t : BridgeSettings} (same : s.Same t) : t.Same s :=
  same_iff.mpr fun field => (same_iff.mp same field).symm

/-! ## What one save leaves in the store -/

/-- The value `settings_save` writes for a field. -/
def storedValue (s : BridgeSettings) : Field → NvsValue
  | .halowSsid => .str (cstr s.halowSsid.slots)
  | .halowPass => .str (cstr s.halowPass.slots)
  | .apSsid => .str (cstr s.apSsid.slots)
  | .apPass => .str (cstr s.apPass.slots)
  | .country => .str (cstr s.country.slots)
  | .bufferPreset =>
      .u8 (if s.bufferPreset ≤ bufferPresetLarge then s.bufferPreset else bufferPresetLarge)
  | .lang => .u8 (if s.lang ≤ langZh then s.lang else langEn)

/-- An empty namespace and a missing one load alike. -/
theorem settingsLoad_getD (flash : Option Nvs) :
    settingsLoad (some (flash.getD fun _ => none)) = settingsLoad flash := by
  cases flash with
  | none => rfl
  | some nvs => rfl

theorem nvsSet_apply (nvs : Nvs) (success : Bool) (key : String) (value : NvsValue)
    (other : String) :
    nvsSet nvs success key value other =
      if other = key then (if success then some value else nvs other) else nvs other := by
  cases success with
  | false => simp [nvsSet]
  | true => exact Function.update_apply nvs key (some value) other

/-- Every key holds the written value, or what it held before when its write failed. -/
theorem exists_written (flash : Option Nvs) {calls : SaveCalls} (opened : calls.opened = true)
    (s : BridgeSettings) :
    ∃ nvs, settingsSave flash calls s = (some nvs, calls.committed) ∧
      ∀ field : Field, nvs field.key =
        if calls.set field.key then some (storedValue s field)
        else (flash.getD fun _ => none) field.key := by
  refine ⟨_, by rw [settingsSave, if_pos opened], ?_⟩
  intro field
  -- The seven keys differ, so that only the write of the field's own key is seen.
  cases field <;>
    · simp only [nvsSet_apply, Field.key, nvsKeyHalowSsid, nvsKeyHalowPass, nvsKeyApSsid,
        nvsKeyApPass, nvsKeyCountry, nvsKeyBuffer, nvsKeyLang, String.reduceEq, ↓reduceIte]
      rfl

/-! ## What is loaded after it -/

theorem nvsGetStr_congr {n : ℕ} {nvs other : Nvs} {key : String} (same : nvs key = other key)
    (out : Table UInt8 n) :
    cstr (nvsGetStr nvs key out).slots = cstr (nvsGetStr other key out).slots := by
  simp only [nvsGetStr, same]

theorem loadU8_congr {nvs other : Nvs} {key : String} (same : nvs key = other key)
    (bound default : UInt8) : loadU8 nvs key bound default = loadU8 other key bound default := by
  simp only [loadU8, nvsGetU8, same]

/-- A field is loaded from its own key. -/
theorem view_settingsLoad_congr {nvs other : Nvs} {field : Field}
    (same : nvs field.key = other field.key) :
    (settingsLoad (some nvs)).view field = (settingsLoad (some other)).view field := by
  cases field with
  | halowSsid => exact nvsGetStr_congr same _
  | halowPass => exact nvsGetStr_congr same _
  | apSsid => exact nvsGetStr_congr same _
  | apPass => exact nvsGetStr_congr same _
  | country => exact nvsGetStr_congr same _
  | bufferPreset => exact congrArg ([·]) (loadU8_congr same _ _)
  | lang => exact congrArg ([·]) (loadU8_congr same _ _)

/-- A stored field of a well-formed record is loaded as it was. -/
theorem view_settingsLoad_stored {nvs : Nvs} {s : BridgeSettings} (wellFormed : s.WellFormed)
    {field : Field} (stored : nvs field.key = some (storedValue s field)) :
    (settingsLoad (some nvs)).view field = s.view field := by
  cases field with
  | halowSsid => exact cstr_nvsGetStr stored wellFormed.halowSsid
  | halowPass => exact cstr_nvsGetStr stored wellFormed.halowPass
  | apSsid => exact cstr_nvsGetStr stored wellFormed.apSsid
  | apPass => exact cstr_nvsGetStr stored wellFormed.apPass
  | country => exact cstr_nvsGetStr stored wellFormed.country
  | bufferPreset => exact congrArg ([·]) (loadU8_eq stored wellFormed.bufferPreset)
  | lang => exact congrArg ([·]) (loadU8_eq stored wellFormed.lang)

/-- **After a save each field is the saved one, or the one loaded before when its write failed.** -/
theorem view_settingsSave (flash : Option Nvs) {calls : SaveCalls} (opened : calls.opened = true)
    {s : BridgeSettings} (wellFormed : s.WellFormed) (field : Field) :
    (settingsLoad (settingsSave flash calls s).1).view field =
      if calls.set field.key then s.view field else (settingsLoad flash).view field := by
  rcases exists_written flash opened s with ⟨nvs, saved, written⟩
  rw [saved]
  cases success : calls.set field.key with
  | true => exact view_settingsLoad_stored wellFormed (by rw [written, if_pos success])
  | false =>
      rw [← settingsLoad_getD flash]
      exact view_settingsLoad_congr (by rw [written, if_neg (by simp [success])])

theorem settingsSave_result (flash : Option Nvs) (calls : SaveCalls) (s : BridgeSettings) :
    (settingsSave flash calls s).2 = (calls.opened && calls.committed) := by
  rw [settingsSave]
  cases calls.opened <;> rfl

theorem settingsSave_unopened (flash : Option Nvs) {calls : SaveCalls}
    (unopened : calls.opened = false) (s : BridgeSettings) :
    settingsSave flash calls s = (flash, false) := by
  rw [settingsSave, if_neg (by simp [unopened])]

/-! ## All or nothing -/

/-- A save that returns true has stored the record, and one that returns false has stored
nothing. -/
def AllOrNothing (flash : Option Nvs) (calls : SaveCalls) (s : BridgeSettings) : Prop :=
  if (settingsSave flash calls s).2 = true then
    (settingsLoad (settingsSave flash calls s).1).Same s
  else (settingsLoad (settingsSave flash calls s).1).Same (settingsLoad flash)

/-- **When a save is all or nothing**: the store was not opened, or each write had the result of the
commit unless its field was already stored with the same value. -/
theorem allOrNothing_iff (flash : Option Nvs) (calls : SaveCalls) {s : BridgeSettings}
    (wellFormed : s.WellFormed) :
    AllOrNothing flash calls s ↔
      calls.opened = false ∨
        ∀ field : Field, calls.set field.key = calls.committed ∨
          (settingsLoad flash).view field = s.view field := by
  cases opened : calls.opened with
  | false =>
      simp only [AllOrNothing, settingsSave_unopened flash opened, true_or, iff_true]
      exact BridgeSettings.Same.refl _
  | true =>
      have views := view_settingsSave flash opened wellFormed
      have result := settingsSave_result flash calls s
      simp only [opened, Bool.true_and] at result
      simp only [AllOrNothing, result, BridgeSettings.same_iff, views, Bool.true_eq_false,
        false_or]
      cases calls.committed with
      | true =>
          refine forall_congr' fun field => ?_
          cases calls.set field.key <;> simp
      | false =>
          refine forall_congr' fun field => ?_
          cases calls.set field.key <;> simp [eq_comm]

/-- The defaults with another network name. -/
def renamedSettings : BridgeSettings :=
  { defaultSettings with halowSsid := strncpyDefault _ "Halow2" }

theorem renamedSettings_wellFormed : renamedSettings.WellFormed :=
  { defaultSettings_wellFormed with halowSsid := zero_mem_strncpyDefault (by decide) _ }

/-- Only the write of the changed field succeeds. -/
theorem allOrNothing_iff_renamedSettings :
    AllOrNothing none ⟨true, (· == nvsKeyHalowSsid), true⟩ renamedSettings := by
  apply (allOrNothing_iff none _ renamedSettings_wellFormed).mpr
  right
  intro field
  cases field with
  | halowSsid => exact Or.inl rfl
  | _ => simp only [settingsLoad, renamedSettings, BridgeSettings.view, or_true]

/-- **A save can report success with a field missing, and failure with the record stored.** -/
theorem not_allOrNothing :
    ¬ AllOrNothing none ⟨true, (· != nvsKeyHalowSsid), true⟩ renamedSettings ∧
      ¬ AllOrNothing none ⟨true, fun _ => true, false⟩ renamedSettings := by
  refine ⟨fun promise => ?_, fun promise => ?_⟩ <;>
    · have name := promise.halowSsid
      revert name
      decide +kernel

end HalowBridge.Config
