import HalowBridge.Config.Save

/-!
# Booting from the saved settings

`load_channel_list` runs at boot, before the settings page is served. It looks the stored country
code up in the regulatory database by its first two characters, and a code that is not there ends in
a failed assertion, so that the device resets and the page never comes up again.

`save_post_handler` checks the ranges of the two numbers it stores and not the country code.
`bootable_iff` says exactly which accepted requests leave a device that boots, for any database: the
country code the form sends is in it or, when the form sends none, the one stored before.
-/

namespace HalowBridge.Config

/-- The part of `mmwlan_s1g_channel_list` that the lookup reads. -/
structure ChannelList where
  countryCode : Table UInt8 3
  deriving DecidableEq

abbrev RegulatoryDb : Type := List ChannelList

def channelList (countryCode : String) : ChannelList := ⟨strncpyDefault 3 countryCode⟩

/-- The database of `mmwlan_regdb.def`, which the application is built with. -/
def regulatoryDb : RegulatoryDb := ["AU", "EU", "IN", "JP", "KR", "NZ", "SG", "US"].map channelList

/-- The database of `mmregdb.c`. -/
def mmregdbRegulatoryDb : RegulatoryDb :=
  ["AU", "CA", "EU", "GB", "IN", "JP", "KR", "NZ", "US"].map channelList

/-- `mmwlan_lookup_regulatory_domain`. -/
def lookupRegulatoryDomain (db : RegulatoryDb) (countryCode : List UInt8) : Option ChannelList :=
  db.find? fun list =>
    list.countryCode.slots.getD 0 0 == countryCode.getD 0 0 &&
      list.countryCode.slots.getD 1 0 == countryCode.getD 1 0

/-- `mmosal_safer_strcpy`: the array afterwards, and whether the string was cut. -/
def saferStrcpy {size : ℕ} (dst : Table UInt8 size) (src : List UInt8) : Table UInt8 size × Bool :=
  if size = 0 then (dst, true)
  else
    let dst := strncpy dst src size
    (dst.set (size - 1) 0, dst.slots.getD (size - 1) 0 != 0)

/-- `load_channel_list`, with the content of its array; `none` is the failed assertion. -/
def loadChannelList (db : RegulatoryDb) (flash : Option Nvs) (strval : Table UInt8 16) :
    Option ChannelList :=
  let s := settingsLoad flash
  let source := if s.country.slots.headD 0 ≠ 0 then s.country.slots else ascii "US"
  lookupRegulatoryDomain db (saferStrcpy strval source).1.slots

/-! ## The code that is looked up -/

/-- The database has a domain with the first two characters of the string. -/
def Listed (db : RegulatoryDb) (code : List UInt8) : Prop :=
  ∃ list ∈ db, list.countryCode.slots.getD 0 0 = code.getD 0 0 ∧
    list.countryCode.slots.getD 1 0 = code.getD 1 0

instance (db : RegulatoryDb) (code : List UInt8) : Decidable (Listed db code) :=
  inferInstanceAs (Decidable (∃ list ∈ db, _ ∧ _))

theorem lookupRegulatoryDomain_isSome {db : RegulatoryDb} {code : List UInt8} :
    (lookupRegulatoryDomain db code).isSome ↔ Listed db code := by
  simp only [lookupRegulatoryDomain, List.find?_isSome, Bool.and_eq_true, beq_iff_eq, Listed]

/-- Only the first two characters matter. -/
theorem listed_congr {db : RegulatoryDb} {code other : List UInt8}
    (first : code.getD 0 0 = other.getD 0 0) (second : code.getD 1 0 = other.getD 1 0) :
    Listed db code ↔ Listed db other := by
  simp only [Listed, first, second]

theorem getD_take (code : List UInt8) {n i : ℕ} (inside : i < n) :
    (code.take n).getD i 0 = code.getD i 0 := by
  rw [List.getD_eq_getElem?_getD, List.getElem?_take_of_lt inside, ← List.getD_eq_getElem?_getD]

theorem getD_saferStrcpy {size : ℕ} (dst : Table UInt8 size) (src : List UInt8) {i : ℕ}
    (inside : i + 1 < size) : (saferStrcpy dst src).1.slots.getD i 0 = (cstr src).getD i 0 := by
  have block := length_padded src size
  rw [saferStrcpy, if_neg (by omega), ← getD_padded src (Nat.lt_of_succ_lt inside)]
  show (List.set _ _ _).getD i 0 = _
  rw [strncpy, Table.overwrite_slots block.le, block, List.drop_of_length_le dst.length_eq.le,
    List.append_nil, List.getD_eq_getElem?_getD, List.getElem?_set_ne (by omega),
    ← List.getD_eq_getElem?_getD]

/-- The code the boot looks up when the store holds the country string. -/
def bootCode (country : List UInt8) : List UInt8 := if country = [] then ascii "US" else country

/-- **What a boot needs**: the stored country code, or the fallback when it is empty, is listed. -/
theorem loadChannelList_isSome {db : RegulatoryDb} {flash : Option Nvs}
    {strval : Table UInt8 16} :
    (loadChannelList db flash strval).isSome ↔
      Listed db (bootCode (cstr (settingsLoad flash).country.slots)) := by
  rw [loadChannelList, lookupRegulatoryDomain_isSome,
    listed_congr (getD_saferStrcpy _ _ (by decide)) (getD_saferStrcpy _ _ (by decide)), bootCode]
  by_cases empty : cstr (settingsLoad flash).country.slots = []
  · rw [if_neg (not_not.mpr (headD_eq_zero_iff.mpr empty)), if_pos empty]
    have literal : cstr (ascii "US") = ascii "US" := by decide +kernel
    rw [literal]
  · rw [if_pos (mt headD_eq_zero_iff.mp empty), if_neg empty]

/-! ## After a save -/

/-- The country string a request leaves: the one it sends, or the one stored when it sends none. -/
def countryAfter (flash : Option Nvs) (req : Request) : List UInt8 :=
  let sent := cstr (formValue (cstr (req.received ++ [0])) "country")
  if sent = [] then cstr (settingsLoad flash).country.slots else sent

/-- **A saved configuration boots exactly when its country code is listed.** The code is the one the
form sends or, when it sends none, the one stored before, with the fallback for an empty one. -/
theorem bootable_iff {db : RegulatoryDb} {flash : Option Nvs} {req : Request}
    (accepted : (savePostHandler flash .allSucceed req).2 = .found "/?saved=1")
    (strval : Table UInt8 16) :
    (loadChannelList db (savePostHandler flash .allSucceed req).1 strval).isSome ↔
      Listed db (bootCode (countryAfter flash req)) := by
  have loaded := settingsLoad_settingsSave flash
    (applyForm_wellFormed (settingsLoad_wellFormed flash) (cstr (req.received ++ [0])))
  have country := loaded.country.trans (cstr_updateString (by decide) _ _)
  rw [loadChannelList_isSome, savePostHandler_found accepted, country, countryAfter]
  by_cases empty : cstr (formValue (cstr (req.received ++ [0])) "country") = []
  · rw [if_pos empty, if_pos empty]
  · rw [if_neg empty, if_neg empty, bootCode, bootCode, if_neg empty, if_neg]
    · exact listed_congr (getD_take _ (by decide)) (getD_take _ (by decide))
    · intro cut
      exact empty ((List.take_eq_nil_iff.mp cut).resolve_left (by decide))

/-- A request with this body, received in one piece. -/
def postOf (body : String) : Request := ⟨(ascii body).length, true, ascii body, Nat.le_refl _⟩

/-- The stack array of the boot. -/
def strvalBuffer : Table UInt8 16 := .fill 16 0xa5

theorem bootable_iff_listedCountry :
    (savePostHandler none .allSucceed (postOf "country=JP")).2 = .found "/?saved=1" ∧
      (loadChannelList regulatoryDb (savePostHandler none .allSucceed (postOf "country=JP")).1
        strvalBuffer).isSome := by
  have accepted : (savePostHandler none .allSucceed (postOf "country=JP")).2 =
      .found "/?saved=1" := by decide +kernel
  exact ⟨accepted, (bootable_iff accepted strvalBuffer).mpr (by decide +kernel)⟩

/-- Every accepted request leaves a device that boots. -/
def SavedBoots (db : RegulatoryDb) : Prop :=
  ∀ (flash : Option Nvs) (req : Request) (strval : Table UInt8 16),
    (savePostHandler flash .allSucceed req).2 = .found "/?saved=1" →
      (loadChannelList db (savePostHandler flash .allSucceed req).1 strval).isSome

/-- **An accepted request can leave a device that does not boot**, with either database. -/
theorem not_savedBoots : ¬ SavedBoots regulatoryDb ∧ ¬ SavedBoots mmregdbRegulatoryDb := by
  have accepted : (savePostHandler none .allSucceed (postOf "country=ZZ")).2 =
      .found "/?saved=1" := by decide +kernel
  refine ⟨fun promise => ?_, fun promise => ?_⟩ <;>
    · have boots := promise none (postOf "country=ZZ") strvalBuffer accepted
      revert boots
      decide +kernel

end HalowBridge.Config
