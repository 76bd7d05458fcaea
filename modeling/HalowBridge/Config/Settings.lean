import HalowBridge.Lib.CString
import Mathlib.Logic.Function.Basic

/-!
# The stored settings

`bridge_settings_t` is a record of five strings in byte arrays and two small numbers. It is kept in
one namespace of the non-volatile store, a key for each field.

The store is the map of a namespace from keys to typed values, and `none` when the namespace has
not been created. A string is read only when it fits the buffer with its NUL, and a failed read
leaves the buffer alone. A write reports success or not: a successful one is seen by later reads and
a failed one leaves its key as it was. `SaveCalls` is the pattern of results one `settings_save`
meets, so that a theorem over it is about every such pattern.

Whatever the store holds, `settings_load` returns a record that is `WellFormed`, and what
`settings_save` has stored without an error is what `settings_load` returns, up to the bytes behind
each NUL (`settingsLoad_settingsSave`).
-/

namespace HalowBridge.Config

abbrev settingsMaxSsid : ℕ := 32

abbrev settingsMaxPass : ℕ := 64

abbrev settingsMaxCountry : ℕ := 4

def bufferPresetSmall : UInt8 := 0

def bufferPresetLarge : UInt8 := 2

def langEn : UInt8 := 0

def langZh : UInt8 := 2

/-- The record `bridge_settings_t`. -/
structure BridgeSettings where
  halowSsid : Table UInt8 settingsMaxSsid
  halowPass : Table UInt8 settingsMaxPass
  apSsid : Table UInt8 settingsMaxSsid
  apPass : Table UInt8 settingsMaxPass
  country : Table UInt8 settingsMaxCountry
  bufferPreset : UInt8
  lang : UInt8

/-- The strings end inside their arrays and the numbers are in range. -/
structure BridgeSettings.WellFormed (s : BridgeSettings) : Prop where
  halowSsid : 0 ∈ s.halowSsid.slots
  halowPass : 0 ∈ s.halowPass.slots
  apSsid : 0 ∈ s.apSsid.slots
  apPass : 0 ∈ s.apPass.slots
  country : 0 ∈ s.country.slots
  bufferPreset : s.bufferPreset ≤ bufferPresetLarge
  lang : s.lang ≤ langZh

/-- Two records agree: the strings up to their NUL, and the numbers. -/
structure BridgeSettings.Same (s t : BridgeSettings) : Prop where
  halowSsid : cstr s.halowSsid.slots = cstr t.halowSsid.slots
  halowPass : cstr s.halowPass.slots = cstr t.halowPass.slots
  apSsid : cstr s.apSsid.slots = cstr t.apSsid.slots
  apPass : cstr s.apPass.slots = cstr t.apPass.slots
  country : cstr s.country.slots = cstr t.country.slots
  bufferPreset : s.bufferPreset = t.bufferPreset
  lang : s.lang = t.lang

theorem BridgeSettings.Same.trans {r s t : BridgeSettings} (first : r.Same s) (second : s.Same t) :
    r.Same t where
  halowSsid := first.halowSsid.trans second.halowSsid
  halowPass := first.halowPass.trans second.halowPass
  apSsid := first.apSsid.trans second.apSsid
  apPass := first.apPass.trans second.apPass
  country := first.country.trans second.country
  bufferPreset := first.bufferPreset.trans second.bufferPreset
  lang := first.lang.trans second.lang

/-! ## The non-volatile store -/

/-- A value of the store. A string is kept without its NUL. -/
inductive NvsValue where
  | str (text : List UInt8)
  | u8 (value : UInt8)
  deriving DecidableEq

/-- The content of one namespace. -/
abbrev Nvs : Type := String → Option NvsValue

/-- A string that fits with its NUL is copied, and any other leaves the buffer as it was. -/
def nvsGetStr {n : ℕ} (nvs : Nvs) (key : String) (out : Table UInt8 n) : Table UInt8 n :=
  match nvs key with
  | some (.str text) => if text.length + 1 ≤ n then out.overwrite (text ++ [0]) else out
  | some (.u8 _) | none => out

def nvsGetU8 (nvs : Nvs) (key : String) : Option UInt8 :=
  match nvs key with
  | some (.u8 value) => some value
  | some (.str _) | none => none

/-- A write that succeeds or not. -/
def nvsSet (nvs : Nvs) (success : Bool) (key : String) (value : NvsValue) : Nvs :=
  if success then Function.update nvs key (some value) else nvs

def nvsKeyHalowSsid : String := "h_ssid"

def nvsKeyHalowPass : String := "h_pass"

def nvsKeyApSsid : String := "ap_ssid"

def nvsKeyApPass : String := "ap_pass"

def nvsKeyCountry : String := "country"

def nvsKeyBuffer : String := "buffer"

def nvsKeyLang : String := "lang"

/-! ## Loading and saving -/

/-- `strncpy_default`, which writes every byte of the array. -/
def strncpyDefault (n : ℕ) (defaultVal : String) : Table UInt8 n :=
  strncpyTerminated (.fill n 0) (ascii defaultVal)

/-- The record before the store is read. -/
def defaultSettings : BridgeSettings where
  halowSsid := strncpyDefault _ "Halow1"
  halowPass := strncpyDefault _ "letmein111"
  apSsid := strncpyDefault _ "XIAO_S3_HALOW"
  apPass := strncpyDefault _ "letmein111"
  country := strncpyDefault _ "US"
  bufferPreset := bufferPresetLarge
  lang := langEn

/-- A stored number is taken only when it is in range. -/
def loadU8 (nvs : Nvs) (key : String) (bound default : UInt8) : UInt8 :=
  match nvsGetU8 nvs key with
  | some value => if value ≤ bound then value else default
  | none => default

/-- `settings_load`; `none` when the namespace cannot be opened. -/
def settingsLoad : Option Nvs → BridgeSettings
  | none => defaultSettings
  | some nvs =>
      { halowSsid := nvsGetStr nvs nvsKeyHalowSsid defaultSettings.halowSsid
        halowPass := nvsGetStr nvs nvsKeyHalowPass defaultSettings.halowPass
        apSsid := nvsGetStr nvs nvsKeyApSsid defaultSettings.apSsid
        apPass := nvsGetStr nvs nvsKeyApPass defaultSettings.apPass
        country := nvsGetStr nvs nvsKeyCountry defaultSettings.country
        bufferPreset := loadU8 nvs nvsKeyBuffer bufferPresetLarge defaultSettings.bufferPreset
        lang := loadU8 nvs nvsKeyLang langZh defaultSettings.lang }

/-- The results of the store calls of one `settings_save`. -/
structure SaveCalls where
  opened : Bool
  set : String → Bool
  committed : Bool

/-- No call fails. -/
def SaveCalls.allSucceed : SaveCalls := ⟨true, fun _ => true, true⟩

/-- `settings_save`: the namespace afterwards, and the result. -/
def settingsSave (flash : Option Nvs) (calls : SaveCalls) (s : BridgeSettings) :
    Option Nvs × Bool :=
  if calls.opened then
    let write (nvs : Nvs) (key : String) (value : NvsValue) := nvsSet nvs (calls.set key) key value
    let nvs := flash.getD fun _ => none
    let nvs := write nvs nvsKeyHalowSsid (.str (cstr s.halowSsid.slots))
    let nvs := write nvs nvsKeyHalowPass (.str (cstr s.halowPass.slots))
    let nvs := write nvs nvsKeyApSsid (.str (cstr s.apSsid.slots))
    let nvs := write nvs nvsKeyApPass (.str (cstr s.apPass.slots))
    let nvs := write nvs nvsKeyCountry (.str (cstr s.country.slots))
    let nvs := write nvs nvsKeyBuffer
      (.u8 (if s.bufferPreset ≤ bufferPresetLarge then s.bufferPreset else bufferPresetLarge))
    let nvs := write nvs nvsKeyLang (.u8 (if s.lang ≤ langZh then s.lang else langEn))
    (some nvs, calls.committed)
  else (flash, false)

/-! ## What is loaded -/

theorem zero_mem_strncpyDefault {n : ℕ} (nonempty : 0 < n) (defaultVal : String) :
    0 ∈ (strncpyDefault n defaultVal).slots :=
  zero_mem_strncpyTerminated nonempty _ _

theorem zero_mem_nvsGetStr {n : ℕ} {nvs : Nvs} {key : String} {out : Table UInt8 n}
    (terminated : 0 ∈ out.slots) : 0 ∈ (nvsGetStr nvs key out).slots := by
  unfold nvsGetStr
  split
  · split
    · rename_i fits
      rw [Table.overwrite_slots (by simpa using fits)]
      simp
    · exact terminated
  · exact terminated
  · exact terminated

theorem loadU8_le {nvs : Nvs} {key : String} {bound default : UInt8} (le : default ≤ bound) :
    loadU8 nvs key bound default ≤ bound := by
  unfold loadU8
  split
  · split
    · assumption
    · exact le
  · exact le

theorem defaultSettings_wellFormed : defaultSettings.WellFormed where
  halowSsid := zero_mem_strncpyDefault (by decide) _
  halowPass := zero_mem_strncpyDefault (by decide) _
  apSsid := zero_mem_strncpyDefault (by decide) _
  apPass := zero_mem_strncpyDefault (by decide) _
  country := zero_mem_strncpyDefault (by decide) _
  bufferPreset := by decide
  lang := by decide

/-- **Whatever the store holds, a well-formed record is loaded.** -/
theorem settingsLoad_wellFormed (flash : Option Nvs) : (settingsLoad flash).WellFormed := by
  cases flash with
  | none => exact defaultSettings_wellFormed
  | some nvs =>
      exact {
        halowSsid := zero_mem_nvsGetStr defaultSettings_wellFormed.halowSsid
        halowPass := zero_mem_nvsGetStr defaultSettings_wellFormed.halowPass
        apSsid := zero_mem_nvsGetStr defaultSettings_wellFormed.apSsid
        apPass := zero_mem_nvsGetStr defaultSettings_wellFormed.apPass
        country := zero_mem_nvsGetStr defaultSettings_wellFormed.country
        bufferPreset := loadU8_le defaultSettings_wellFormed.bufferPreset
        lang := loadU8_le defaultSettings_wellFormed.lang }

/-! ## Loading what was saved -/

/-- A stored string that fits is read back. -/
theorem cstr_nvsGetStr {n : ℕ} {nvs : Nvs} {key : String} {out t : Table UInt8 n}
    (stored : nvs key = some (.str (cstr t.slots))) (terminated : 0 ∈ t.slots) :
    cstr (nvsGetStr nvs key out).slots = cstr t.slots := by
  have fits : (cstr t.slots).length + 1 ≤ n := length_cstr_lt terminated
  simp only [nvsGetStr, stored]
  rw [if_pos fits, Table.overwrite_slots (by rwa [List.length_append]), List.append_assoc]
  exact cstr_append_zero (zero_not_mem_cstr _) _

theorem loadU8_eq {nvs : Nvs} {key : String} {bound default value : UInt8}
    (stored : nvs key = some (.u8 (if value ≤ bound then value else default)))
    (le : value ≤ bound) : loadU8 nvs key bound default = value := by
  simp only [loadU8, nvsGetU8, stored, le, ↓reduceIte]

/-- The namespace holds the record. -/
structure Stored (nvs : Nvs) (s : BridgeSettings) : Prop where
  halowSsid : nvs nvsKeyHalowSsid = some (.str (cstr s.halowSsid.slots))
  halowPass : nvs nvsKeyHalowPass = some (.str (cstr s.halowPass.slots))
  apSsid : nvs nvsKeyApSsid = some (.str (cstr s.apSsid.slots))
  apPass : nvs nvsKeyApPass = some (.str (cstr s.apPass.slots))
  country : nvs nvsKeyCountry = some (.str (cstr s.country.slots))
  bufferPreset : nvs nvsKeyBuffer =
    some (.u8 (if s.bufferPreset ≤ bufferPresetLarge then s.bufferPreset else bufferPresetLarge))
  lang : nvs nvsKeyLang = some (.u8 (if s.lang ≤ langZh then s.lang else langEn))

theorem settingsLoad_of_stored {nvs : Nvs} {s : BridgeSettings} (stored : Stored nvs s)
    (wellFormed : s.WellFormed) : (settingsLoad (some nvs)).Same s where
  halowSsid := cstr_nvsGetStr stored.halowSsid wellFormed.halowSsid
  halowPass := cstr_nvsGetStr stored.halowPass wellFormed.halowPass
  apSsid := cstr_nvsGetStr stored.apSsid wellFormed.apSsid
  apPass := cstr_nvsGetStr stored.apPass wellFormed.apPass
  country := cstr_nvsGetStr stored.country wellFormed.country
  bufferPreset := loadU8_eq stored.bufferPreset wellFormed.bufferPreset
  lang := loadU8_eq stored.lang wellFormed.lang

theorem exists_stored (flash : Option Nvs) (s : BridgeSettings) :
    ∃ nvs, settingsSave flash .allSucceed s = (some nvs, true) ∧ Stored nvs s := by
  refine ⟨_, rfl, ?_⟩
  constructor <;> rfl

/-- **A record saved without an error is the record loaded next.** -/
theorem settingsLoad_settingsSave (flash : Option Nvs) {s : BridgeSettings}
    (wellFormed : s.WellFormed) :
    (settingsLoad (settingsSave flash .allSucceed s).1).Same s := by
  rcases exists_stored flash s with ⟨nvs, saved, stored⟩
  rw [saved]
  exact settingsLoad_of_stored stored wellFormed

end HalowBridge.Config
