import HalowBridge.Config.Atomicity
import HalowBridge.Config.Save

/-!
# Saving a body that arrives in pieces

`httpd_req_recv` returns what has arrived, at least one byte and at most what was asked for, and is
meant to be called until the body is complete. `save_post_handler` calls it once. It stores the form
of the first piece, and a prefix of a form is again a form.

`segmentationFree_iff` gives the bodies whose effect does not depend on the pieces. A first piece of
one byte names no field and changes nothing, so these are the bodies none of whose prefixes changes
a stored field.
-/

namespace HalowBridge.Config

/-- Lengths in which the calls of `httpd_req_recv` may hand a body over. -/
def HandsOver (body : List UInt8) (lengths : List ℕ) : Prop :=
  (∀ n ∈ lengths, 0 < n) ∧ lengths.sum = body.length

/-- The request as the handler meets it: its one receive call gets the first piece. -/
def segmentedRequest (body : List UInt8) (allocated : Bool) (lengths : List ℕ) : Request where
  contentLen := body.length
  allocated := allocated
  received := body.take (lengths.headD 0)
  received_le := List.length_take_le' _ _

/-- Two runs on the same body and the same store leave the same settings. -/
def SegmentationFree (flash : Option Nvs) (calls : SaveCalls) (allocated : Bool)
    (body : List UInt8) : Prop :=
  ∀ first second, HandsOver body first → HandsOver body second →
    (settingsLoad (savePostHandler flash calls (segmentedRequest body allocated first)).1).Same
      (settingsLoad (savePostHandler flash calls (segmentedRequest body allocated second)).1)

/-! ## Forms that keep a setting -/

/-- The value is empty, or the stored string after it is cut to the array. -/
def KeepsString (size : ℕ) (sent stored : List UInt8) : Prop :=
  cstr sent = [] ∨ (cstr sent).take (size - 1) = stored

/-- The value is empty, out of range, or the stored number. -/
def KeepsNumber (sent : List UInt8) (low high stored : UInt8) : Prop :=
  cstr sent = [] ∨ ¬ (low.toNat ≤ atoi sent ∧ atoi sent ≤ high.toNat) ∨ atoi sent = stored.toNat

/-- The form sends nothing new for the field. -/
def Keeps (s : BridgeSettings) (form : List UInt8) : Field → Prop
  | .halowSsid =>
      KeepsString settingsMaxSsid (formValue form "halow_ssid") (cstr s.halowSsid.slots)
  | .halowPass =>
      KeepsString settingsMaxPass (formValue form "halow_pass") (cstr s.halowPass.slots)
  | .apSsid => KeepsString settingsMaxSsid (formValue form "ap_ssid") (cstr s.apSsid.slots)
  | .apPass => KeepsString settingsMaxPass (formValue form "ap_pass") (cstr s.apPass.slots)
  | .country => KeepsString settingsMaxCountry (formValue form "country") (cstr s.country.slots)
  | .bufferPreset =>
      KeepsNumber (formValue form "buffer_preset") bufferPresetSmall bufferPresetLarge
        s.bufferPreset
  | .lang => KeepsNumber (formValue form "lang") langEn langZh s.lang

instance (size : ℕ) (sent stored : List UInt8) : Decidable (KeepsString size sent stored) :=
  inferInstanceAs (Decidable (_ ∨ _))

instance (sent : List UInt8) (low high stored : UInt8) :
    Decidable (KeepsNumber sent low high stored) :=
  inferInstanceAs (Decidable (_ ∨ _ ∨ _))

instance (s : BridgeSettings) (form : List UInt8) :
    (field : Field) → Decidable (Keeps s form field)
  | .halowSsid | .halowPass | .apSsid | .apPass | .country =>
      inferInstanceAs (Decidable (KeepsString _ _ _))
  | .bufferPreset | .lang => inferInstanceAs (Decidable (KeepsNumber _ _ _ _))

theorem updateString_keeps {n : ℕ} (nonempty : 0 < n) (field : Table UInt8 n)
    (tmp : List UInt8) :
    cstr (updateString field tmp).slots = cstr field.slots ↔
      KeepsString n tmp (cstr field.slots) := by
  rw [cstr_updateString nonempty, KeepsString]
  by_cases empty : cstr tmp = []
  · simp [empty]
  · simp [empty]

theorem updateNumber_keeps (field : UInt8) (tmp : List UInt8) (low high : UInt8) :
    updateNumber field tmp low high = field ↔ KeepsNumber tmp low high field := by
  rw [updateNumber, KeepsNumber, ← headD_eq_zero_iff]
  split_ifs with sent range
  · have bound := high.toNat_lt
    have value : (UInt8.ofNat (atoi tmp).toNat).toNat = (atoi tmp).toNat := by
      rw [UInt8.toNat_ofNat']
      exact Nat.mod_eq_of_lt (by omega)
    rw [← UInt8.toNat_inj, value]
    simp only [sent, range, and_self, not_true_eq_false, false_or]
    omega
  · simp [range]
  · simp only [not_not.mp sent, true_or]

/-- A form leaves a field as it was exactly when it keeps it. -/
theorem view_applyForm_iff (s : BridgeSettings) (form : List UInt8) (field : Field) :
    (applyForm form s).view field = s.view field ↔ Keeps s form field := by
  cases field with
  | halowSsid => exact updateString_keeps (by decide) s.halowSsid _
  | halowPass => exact updateString_keeps (by decide) s.halowPass _
  | apSsid => exact updateString_keeps (by decide) s.apSsid _
  | apPass => exact updateString_keeps (by decide) s.apPass _
  | country => exact updateString_keeps (by decide) s.country _
  | bufferPreset => exact List.singleton_inj.trans (updateNumber_keeps s.bufferPreset _ _ _)
  | lang => exact List.singleton_inj.trans (updateNumber_keeps s.lang _ _ _)

/-! ## A piece of one byte -/

/-- A body no longer than the name holds no field of it. -/
theorem scanForm_short (name : List UInt8) (bufLen : ℕ) (p : List UInt8)
    (short : p.length ≤ name.length) : scanForm name bufLen p = none := by
  fun_induction scanForm name bufLen p with
  | case1 => rfl
  | case2 c p found =>
      have fits := found.length_le
      rw [List.length_append, List.length_singleton] at fits
      omega
  | case3 c p _ ih =>
      have shorter := length_skipField_lt c p
      exact ih (by omega)

theorem formValue_short {form : List UInt8} {name : String}
    (short : form.length ≤ (ascii name).length) : formValue form name = [] := by
  rw [formValue, parseFormField, scanForm_short _ _ _ short, Option.getD_none]

theorem keeps_of_short (s : BridgeSettings) {form : List UInt8} (short : form.length ≤ 1)
    (field : Field) : Keeps s form field := by
  have unsent (name : String) (named : 1 ≤ (ascii name).length) :
      cstr (formValue form name) = [] := by
    rw [formValue_short (short.trans named)]
    rfl
  cases field <;> exact Or.inl (unsent _ (by decide +kernel))

theorem length_piece_le (body : List UInt8) : (cstr (body.take 1 ++ [0])).length ≤ 1 := by
  cases body with
  | nil => exact Nat.zero_le 1
  | cons c rest =>
      have shorter : (cstr [c, 0]).length < [c, 0].length :=
        length_cstr_lt (t := ⟨[c, 0], rfl⟩) (by simp)
      simpa using Nat.lt_succ_iff.mp shorter

/-! ## The stored settings after a run -/

/-- The first piece decides what is stored. -/
theorem view_savePostHandler (flash : Option Nvs) {calls : SaveCalls} (opened : calls.opened = true)
    {req : Request} (allocated : req.allocated = true) (received : req.received ≠ [])
    (short : req.contentLen ≤ maxContentLen) (field : Field) :
    (settingsLoad (savePostHandler flash calls req).1).view field =
      if calls.set field.key then
        (applyForm (cstr (req.received ++ [0])) (settingsLoad flash)).view field
      else (settingsLoad flash).view field := by
  have bytes := List.length_pos_iff.mpr received
  have announced := req.received_le
  rw [← view_settingsSave flash opened (applyForm_wellFormed (settingsLoad_wellFormed flash) _)]
  unfold savePostHandler
  rw [if_neg (by omega), if_neg (by simp [allocated]), if_neg (by omega)]
  dsimp only
  generalize settingsSave flash calls _ = saved
  obtain ⟨after, success⟩ := saved
  cases success <;> rfl

/-- Without memory for the body, or without the store, nothing is stored. -/
theorem savePostHandler_stores_nothing (flash : Option Nvs) {calls : SaveCalls} {req : Request}
    (closed : req.allocated = false ∨ calls.opened = false) :
    (savePostHandler flash calls req).1 = flash := by
  unfold savePostHandler
  split_ifs with length allocated received
  · rfl
  · rfl
  · rfl
  · dsimp only
    rw [settingsSave_unopened flash (closed.resolve_left allocated)]

/-- A body can arrive with any first piece. -/
theorem exists_handsOver {body : List UInt8} {n : ℕ} (positive : 0 < n) (le : n ≤ body.length) :
    ∃ lengths, HandsOver body lengths ∧ lengths.headD 0 = n := by
  rcases Nat.eq_or_lt_of_le le with whole | cut
  · exact ⟨[n], ⟨by simpa using positive, by simpa using whole⟩, rfl⟩
  · refine ⟨[n, body.length - n], ⟨?_, ?_⟩, rfl⟩
    · simp only [List.mem_cons, List.not_mem_nil, or_false, forall_eq_or_imp, forall_eq]
      omega
    · simp only [List.sum_cons, List.sum_nil]
      omega

theorem HandsOver.head_pos {body : List UInt8} {lengths : List ℕ}
    (handed : HandsOver body lengths) (nonempty : body ≠ []) :
    0 < lengths.headD 0 ∧ lengths.headD 0 ≤ body.length := by
  obtain ⟨positive, total⟩ := handed
  cases lengths with
  | nil =>
      have := List.length_pos_iff.mpr nonempty
      simp only [List.sum_nil] at total
      omega
  | cons n rest =>
      simp only [List.sum_cons] at total
      exact ⟨positive n List.mem_cons_self, by simp only [List.headD_cons]; omega⟩

theorem view_segmentedRequest (flash : Option Nvs) {calls : SaveCalls}
    (opened : calls.opened = true) {body : List UInt8} (nonempty : body ≠ [])
    (short : body.length ≤ maxContentLen) {lengths : List ℕ} (handed : HandsOver body lengths)
    (field : Field) :
    (settingsLoad (savePostHandler flash calls (segmentedRequest body true lengths)).1).view field =
      if calls.set field.key then
        (applyForm (cstr (body.take (lengths.headD 0) ++ [0])) (settingsLoad flash)).view field
      else (settingsLoad flash).view field := by
  have head := handed.head_pos nonempty
  apply view_savePostHandler flash opened rfl _ short
  simp only [segmentedRequest, ne_eq, List.take_eq_nil_iff, nonempty, or_false]
  omega

/-- **When saving does not depend on the pieces**: nothing can be stored at all, or every prefix of
the body keeps every field whose write succeeds. -/
theorem segmentationFree_iff (flash : Option Nvs) (calls : SaveCalls) (allocated : Bool)
    {body : List UInt8} (nonempty : body ≠ []) (short : body.length ≤ maxContentLen) :
    SegmentationFree flash calls allocated body ↔
      allocated = false ∨ calls.opened = false ∨
        ∀ n, 0 < n → n ≤ body.length → ∀ field : Field, calls.set field.key = false ∨
          Keeps (settingsLoad flash) (cstr (body.take n ++ [0])) field := by
  by_cases closed : allocated = false ∨ calls.opened = false
  · have kept (lengths : List ℕ) :
        (savePostHandler flash calls (segmentedRequest body allocated lengths)).1 = flash :=
      savePostHandler_stores_nothing flash closed
    simp only [SegmentationFree, kept, ← or_assoc, closed, true_or, iff_true]
    exact fun _ _ _ _ => BridgeSettings.Same.refl _
  · obtain ⟨memory, opened⟩ := not_or.mp closed
    rw [Bool.not_eq_false] at memory opened
    subst memory
    have views (lengths : List ℕ) (handed : HandsOver body lengths) :=
      view_segmentedRequest flash opened nonempty short handed
    simp only [opened, Bool.true_eq_false, false_or]
    constructor
    · intro free n positive le field
      rcases exists_handsOver positive le with ⟨lengths, handed, head⟩
      rcases exists_handsOver Nat.one_pos (List.length_pos_iff.mpr nonempty) with
        ⟨single, handedSingle, headSingle⟩
      have same := BridgeSettings.same_iff.mp (free _ _ handed handedSingle) field
      rw [views _ handed, views _ handedSingle, head, headSingle] at same
      cases success : calls.set field.key with
      | false => exact Or.inl rfl
      | true =>
          -- The piece of one byte changed nothing, so the longer one must not either.
          have unchanged := (view_applyForm_iff (settingsLoad flash) _ field).mpr
            (keeps_of_short _ (length_piece_le body) field)
          simp only [success, ↓reduceIte] at same
          exact Or.inr ((view_applyForm_iff _ _ _).mp (same.trans unchanged))
    · intro keeps
      have kept (lengths : List ℕ) (handed : HandsOver body lengths) (field : Field) :
          (settingsLoad (savePostHandler flash calls
            (segmentedRequest body true lengths)).1).view field =
            (settingsLoad flash).view field := by
        have head := handed.head_pos nonempty
        rw [views _ handed]
        rcases keeps _ head.1 head.2 field with failed | same
        · rw [failed, if_neg Bool.false_ne_true]
        · rw [(view_applyForm_iff _ _ _).mpr same, ite_self]
      intro first second handedFirst handedSecond
      apply BridgeSettings.same_iff.mpr
      intro field
      rw [kept _ handedFirst, kept _ handedSecond]

/-- A form that names the stored network by its one character. -/
def shortNameFlash : Option Nvs := some fun key =>
  if key = nvsKeyHalowSsid then some (.str (ascii "A")) else none

theorem segmentationFree_iff_storedName :
    SegmentationFree shortNameFlash .allSucceed true (ascii "halow_ssid=A") := by
  apply (segmentationFree_iff shortNameFlash .allSucceed true (by decide +kernel)
    (by decide +kernel)).mpr
  right
  right
  have prefixes : ∀ n : Fin 13, ∀ field : Field,
      Keeps (settingsLoad shortNameFlash) (cstr ((ascii "halow_ssid=A").take n ++ [0])) field := by
    intro n field
    cases field <;> revert n <;> decide +kernel
  have length : (ascii "halow_ssid=A").length = 12 := by decide +kernel
  intro n _ le field
  exact Or.inr (prefixes ⟨n, by omega⟩ field)

/-- **A name cut by the network is stored cut.** The body of one field in one piece, and with its
last byte in a piece of its own. -/
theorem not_segmentationFree :
    HandsOver (ascii "halow_ssid=AB") [13] ∧ HandsOver (ascii "halow_ssid=AB") [12, 1] ∧
      ¬ SegmentationFree none .allSucceed true (ascii "halow_ssid=AB") := by
  have whole : HandsOver (ascii "halow_ssid=AB") [13] := ⟨by decide, by decide +kernel⟩
  have cut : HandsOver (ascii "halow_ssid=AB") [12, 1] := ⟨by decide, by decide +kernel⟩
  refine ⟨whole, cut, fun free => ?_⟩
  have name := (free _ _ whole cut).halowSsid
  revert name
  decide +kernel

end HalowBridge.Config
