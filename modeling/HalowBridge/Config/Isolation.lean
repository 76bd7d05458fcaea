import HalowBridge.Config.Form
import Mathlib.Data.List.Infix

/-!
# Fields and their neighbours

What `parse_form_field` leaves in its array, for any body. `parseFormField_stores` is about bodies
that encode a form: the array holds the value of the first field with the name, cut to the array and
terminated.

In a body that encodes nothing, a `%` near the end of a value takes the `&` behind the value and the
byte of the next field for its digits. `isolated_iff` says which values keep to themselves: decoded
as far as the array and the resulting string go, they have two bytes behind every `%`.
-/

namespace HalowBridge.Config

/-! ## One step of the decoder -/

theorem decodeField_percent (room : ℕ) (hi lo : UInt8) (rest : List UInt8) :
    (decodeField (room + 1) (0x25 :: hi :: lo :: rest)).1 =
      (hexNibble hi * 16 + hexNibble lo) :: (decodeField room rest).1 := rfl

theorem decodeField_single {c : UInt8} {p : List UInt8} (inside : c ≠ 0x26)
    (single : c = 0x25 → p.length < 2) (room : ℕ) :
    (decodeField (room + 1) (c :: p)).1 =
      (if c = 0x2b then 0x20 else c) :: (decodeField room p).1 := by
  rw [decodeField, if_neg inside]
  rintro hi lo rest percent rfl
  have short := single percent
  rw [List.length_cons, List.length_cons] at short
  omega

/-- The bytes at the decoder: a `%` with its digits, or one byte. -/
theorem percent_or_single (c : UInt8) (p : List UInt8) :
    (∃ hi lo rest, c = 0x25 ∧ p = hi :: lo :: rest) ∨ (c = 0x25 → p.length < 2) := by
  by_cases percent : c = 0x25
  · match p with
    | hi :: lo :: rest => exact .inl ⟨hi, lo, rest, percent, rfl⟩
    | [_] => exact .inr fun _ => Nat.lt_succ_self 1
    | [] => exact .inr fun _ => Nat.zero_lt_two
  · exact .inr fun same => absurd same percent

theorem length_decodeField_le (room : ℕ) (p : List UInt8) :
    (decodeField room p).1.length ≤ room := by
  induction room generalizing p with
  | zero => exact Nat.le_refl 0
  | succ room ih =>
      cases p with
      | nil => exact Nat.zero_le _
      | cons c p =>
          by_cases inside : c = 0x26
          · rw [decodeField_end (.inr ⟨p, by rw [inside]⟩)]
            exact Nat.zero_le _
          · rcases percent_or_single c p with ⟨hi, lo, rest, rfl, rfl⟩ | single
            · rw [decodeField_percent, List.length_cons]
              exact Nat.succ_le_succ (ih rest)
            · rw [decodeField_single inside single, List.length_cons]
              exact Nat.succ_le_succ (ih p)

/-! ## The array -/

/-- The array after `parse_form_field`. -/
def formFieldArray (form name : List UInt8) {bufLen : ℕ} (buf : Table UInt8 bufLen) :
    Table UInt8 bufLen :=
  buf.overwrite ((parseFormField form name bufLen).1 ++ [0])

theorem length_parseFormField_le (form name : List UInt8) (bufLen : ℕ) :
    (parseFormField form name bufLen).1.length ≤ bufLen - 1 := by
  have scanned (p : List UInt8) (found : List UInt8 × List UInt8)
      (here : scanForm name bufLen p = some found) : found.1.length ≤ bufLen - 1 := by
    induction p using scanForm.induct name with
    | case1 => simp [scanForm] at here
    | case2 c p isName =>
        rw [scanForm, if_pos isName] at here
        rw [← Option.some.inj here]
        exact length_decodeField_le _ _
    | case3 c p other ih =>
        rw [scanForm, if_neg other] at here
        exact ih here
  unfold parseFormField
  cases here : scanForm name bufLen form with
  | none => exact Nat.zero_le _
  | some found => exact scanned form found here

theorem formFieldArray_slots (form name : List UInt8) {bufLen : ℕ} (nonempty : 1 ≤ bufLen)
    (buf : Table UInt8 bufLen) :
    (formFieldArray form name buf).slots =
      (parseFormField form name bufLen).1 ++ 0 ::
        buf.slots.drop ((parseFormField form name bufLen).1.length + 1) := by
  have short := length_parseFormField_le form name bufLen
  have fits : ((parseFormField form name bufLen).1 ++ [0]).length ≤ bufLen := by
    rw [List.length_append, List.length_singleton]
    omega
  rw [formFieldArray, Table.overwrite_slots fits, List.append_assoc, List.length_append,
    List.length_singleton, List.singleton_append]

/-! ## Well-formed bodies -/

/-- A name made of letters, digits and `_`. -/
def FormName (name : List UInt8) : Prop :=
  ∀ c ∈ name, (0x41 ≤ c ∧ c ≤ 0x5a) ∨ (0x61 ≤ c ∧ c ≤ 0x7a) ∨ (0x30 ≤ c ∧ c ≤ 0x39) ∨ c = 0x5f

instance (name : List UInt8) : Decidable (FormName name) :=
  inferInstanceAs (Decidable (∀ c ∈ name, _))

theorem FormName.clean {name : List UInt8} (isName : FormName name) : CleanName name := by
  have absent (c : UInt8)
      (other : ¬ ((0x41 ≤ c ∧ c ≤ 0x5a) ∨ (0x61 ≤ c ∧ c ≤ 0x7a) ∨ (0x30 ≤ c ∧ c ≤ 0x39) ∨
        c = 0x5f)) : c ∉ name := fun member => other (isName c member)
  exact ⟨absent 0 (by decide), absent 0x3d (by decide), absent 0x26 (by decide)⟩

/-- **A well-formed body**: the array holds the value of the first field with the name, cut to the
array and terminated, or the empty string. -/
theorem parseFormField_stores {fields : List (List UInt8 × List UInt8)} {body name : List UInt8}
    (encodes : EncodesForm fields body) (names : ∀ field ∈ fields, FormName field.1)
    (values : ∀ field ∈ fields, 0 ∉ field.2) (isName : FormName name) {bufLen : ℕ}
    (nonempty : 1 ≤ bufLen) (buf : Table UInt8 bufLen) :
    cstr (formFieldArray body name buf).slots =
        ((fields.lookup name).getD []).take (bufLen - 1) ∧
      ((fields.lookup name).getD []).take (bufLen - 1) ++ [0] <+:
        (formFieldArray body name buf).slots := by
  have found := parseFormField_eq encodes (fun field member => (names field member).clean)
    isName.clean bufLen
  have clean : 0 ∉ ((fields.lookup name).getD []).take (bufLen - 1) := by
    intro member
    have inside := List.mem_of_mem_take member
    cases here : fields.lookup name with
    | none =>
        rw [here] at inside
        cases inside
    | some value =>
        rw [here] at inside
        obtain ⟨before, after, split, -⟩ := List.lookup_eq_some_iff.mp here
        exact values (name, value) (split ▸ List.mem_append_right _ List.mem_cons_self) inside
  rw [formFieldArray_slots body name nonempty, found]
  exact ⟨cstr_append_zero clean _, ⟨_, by rw [List.append_assoc, List.singleton_append]⟩⟩

/-- The field `a` behind a field `ab`, in an array of two bytes. -/
theorem parseFormField_stores_behindLonger :
    cstr (formFieldArray (percentEncodeForm [([0x61, 0x62], [0x26]), ([0x61], [0x31, 0x32])])
      [0x61] (.fill 2 0xff)).slots = [0x31] :=
  (parseFormField_stores
    (encodesForm_percentEncodeForm [([0x61, 0x62], [0x26]), ([0x61], [0x31, 0x32])])
    (by decide +kernel) (by decide) (by decide +kernel) (by decide) _).1

/-! ## Where a field is found -/

/-- The search of `parse_form_field`: the bytes behind the `=` of the field. -/
def locateField (name : List UInt8) : List UInt8 → Option (List UInt8)
  | [] => none
  | c :: p =>
      if name ++ [0x3d] <+: c :: p then some ((c :: p).drop (name.length + 1))
      else locateField name (skipField (c :: p))
termination_by p => p.length
decreasing_by exact length_skipField_lt c p

theorem scanForm_eq_map (name : List UInt8) (bufLen : ℕ) (p : List UInt8) :
    scanForm name bufLen p = (locateField name p).map (decodeField (bufLen - 1)) := by
  induction p using scanForm.induct name with
  | case1 => simp [scanForm, locateField]
  | case2 c p isName => rw [scanForm, locateField, if_pos isName, if_pos isName, Option.map_some]
  | case3 c p other ih => rw [scanForm, locateField, if_neg other, if_neg other, ih]

/-- The field is where it was found: its name and `=` end there. -/
theorem exists_name_of_locateField {name form p : List UInt8}
    (located : locateField name form = some p) :
    ∃ before, form = before ++ ((name ++ [0x3d]) ++ p) := by
  induction form using scanForm.induct name with
  | case1 => simp [locateField] at located
  | case2 c f isName =>
      rw [locateField, if_pos isName] at located
      obtain ⟨rest, split⟩ := isName
      have length : (name ++ [0x3d]).length = name.length + 1 := by
        rw [List.length_append, List.length_singleton]
      refine ⟨[], ?_⟩
      rw [List.nil_append, ← Option.some.inj located, ← split, ← length, List.drop_left]
  | case3 c f other ih =>
      rw [locateField, if_neg other] at located
      rcases ih located with ⟨before, split⟩
      have suffix : skipField (c :: f) <:+ c :: f :=
        (List.drop_suffix _ _).trans (List.dropWhile_suffix _)
      obtain ⟨skipped, whole⟩ := suffix
      refine ⟨skipped ++ before, ?_⟩
      rw [← whole, split, List.append_assoc skipped]

/-- Skipping ends behind an `&`, or at the end. -/
theorem skipField_cases (p : List UInt8) :
    skipField p = [] ∨ ∃ field, 0x26 ∉ field ∧ p = field ++ 0x26 :: skipField p := by
  by_cases separated : 0x26 ∈ p
  · rcases List.eq_append_cons_of_mem separated with ⟨field, rest, rfl, absent⟩
    refine .inr ⟨field, absent, ?_⟩
    rw [skipField_append absent (.inr ⟨rest, rfl⟩)]
    rfl
  · have skipped : skipField (p ++ []) = [].drop 1 := skipField_append separated (.inl rfl)
    rw [List.append_nil] at skipped
    exact .inl skipped

theorem locateField_here {name form : List UInt8} (isName : name ++ [0x3d] <+: form) :
    locateField name form = some (form.drop (name.length + 1)) := by
  cases form with
  | nil =>
      have le := isName.length_le
      rw [List.length_append, List.length_singleton] at le
      cases le
  | cons c p => rw [locateField, if_pos isName]

theorem locateField_next {name form : List UInt8} (nonempty : form ≠ [])
    (other : ¬ name ++ [0x3d] <+: form) :
    locateField name form = locateField name (skipField form) := by
  cases form with
  | nil => exact absurd rfl nonempty
  | cons c p => rw [locateField, if_neg other]

/-- What stands before a field at the front is its name and the `=`. -/
theorem eq_of_locateField_here {name before p : List UInt8}
    (isName : name ++ [0x3d] <+: before ++ p)
    (located : locateField name (before ++ p) = some p) : name ++ [0x3d] = before := by
  have length : (name ++ [0x3d]).length = name.length + 1 := by
    rw [List.length_append, List.length_singleton]
  have le := isName.length_le
  rw [locateField_here isName] at located
  have taken := congrArg List.length (Option.some.inj located)
  rw [List.length_drop, List.length_append] at taken
  rw [length, List.length_append] at le
  rw [List.isPrefix_append_of_length (by omega)] at isName
  exact isName.eq_of_length (by omega)

/-- The place of a field does not depend on what stands behind its `=`. -/
theorem locateField_append {name before p : List UInt8}
    (located : locateField name (before ++ p) = some p) (q : List UInt8) :
    locateField name (before ++ q) = some q := by
  generalize whole : before ++ p = form at located
  induction form using scanForm.induct name generalizing before with
  | case1 => simp [locateField] at located
  | case2 c f isName =>
      rw [← whole] at isName located
      have length : name.length + 1 = (name ++ [0x3d]).length := by
        rw [List.length_append, List.length_singleton]
      rw [← eq_of_locateField_here isName located, locateField_here (List.prefix_append _ _),
        length, List.drop_left]
  | case3 c f other ih =>
      rw [locateField, if_neg other] at located
      rcases exists_name_of_locateField located with ⟨skipped, split⟩
      rcases skipField_cases (c :: f) with empty | ⟨field, absent, front⟩
      · rw [empty] at located
        simp [locateField] at located
      · have inside : before = field ++ 0x26 :: (skipped ++ (name ++ [0x3d])) := by
          have same : before ++ p = field ++ 0x26 :: (skipped ++ (name ++ [0x3d])) ++ p := by
            rw [whole, front, split]
            simp only [List.append_assoc, List.cons_append]
          exact List.append_cancel_right same
        have rest : locateField name (skipped ++ (name ++ [0x3d]) ++ q) = some q :=
          ih (by rw [split, List.append_assoc]) located
        have long : (name ++ [0x3d]).length ≤ before.length := by
          have suffix : name ++ [0x3d] <:+ before :=
            ⟨field ++ 0x26 :: skipped, by rw [inside, List.append_assoc, List.cons_append]⟩
          exact suffix.length_le
        have notName : ¬ name ++ [0x3d] <+: before ++ q := by
          rw [← whole] at other
          rwa [List.isPrefix_append_of_length long] at other ⊢
        have nonempty : before ++ q ≠ [] := by
          rw [inside]
          simp
        rw [locateField_next nonempty notName, inside, List.append_assoc,
          List.cons_append, skipField_append absent (.inr ⟨_, rfl⟩)]
        exact rest

/-! ## Values that keep to themselves -/

/-- The string in the array is that of the bytes decoded. -/
theorem cstr_formFieldArray {form name p : List UInt8} (located : locateField name form = some p)
    {bufLen : ℕ} (nonempty : 1 ≤ bufLen) (buf : Table UInt8 bufLen) :
    cstr (formFieldArray form name buf).slots = cstr (decodeField (bufLen - 1) p).1 := by
  have found : parseFormField form name bufLen = decodeField (bufLen - 1) p := by
    rw [parseFormField, scanForm_eq_map, located, Option.map_some, Option.getD_some]
  rw [formFieldArray_slots form name nonempty, found, cstr_append_cons_zero]

/-- `parse_form_field` comes to a `%` with fewer than two bytes of the value behind it, before
`room` bytes are written and before a NUL is decoded. -/
def CutsEscape : ℕ → List UInt8 → Prop
  | 0, _ => False
  | _ + 1, [] => False
  | room + 1, 0x25 :: hi :: lo :: rest =>
      hexNibble hi * 16 + hexNibble lo ≠ 0 ∧ CutsEscape room rest
  | room + 1, c :: p => c = 0x25 ∨ CutsEscape room p

theorem cutsEscape_single {c : UInt8} {p : List UInt8} (single : c = 0x25 → p.length < 2)
    (room : ℕ) : CutsEscape (room + 1) (c :: p) ↔ c = 0x25 ∨ CutsEscape room p := by
  rw [CutsEscape]
  rintro hi lo rest percent rfl
  have short := single percent
  rw [List.length_cons, List.length_cons] at short
  omega

/-- **Isolation**: in any two bodies in which the field has this value, `parse_form_field` leaves
the same string, whatever stands before the field and behind the value. -/
def Isolated (name value : List UInt8) (bufLen : ℕ) : Prop :=
  ∀ before before' tail tail' : List UInt8, ∀ buf buf' : Table UInt8 bufLen,
    0 ∉ before ++ (value ++ tail) → 0 ∉ before' ++ (value ++ tail') → FieldEnd tail →
    FieldEnd tail' → locateField name (before ++ (value ++ tail)) = some (value ++ tail) →
    locateField name (before' ++ (value ++ tail)) = some (value ++ tail) →
    cstr (formFieldArray (before ++ (value ++ tail)) name buf).slots =
      cstr (formFieldArray (before' ++ (value ++ tail')) name buf').slots

/-- A value that cuts no escape is decoded to the same string before any two ends. -/
theorem cstr_decodeField_eq {value tail tail' : List UInt8} (inside : 0x26 ∉ value)
    (fieldEnd : FieldEnd tail) (fieldEnd' : FieldEnd tail') {room : ℕ}
    (whole : ¬ CutsEscape room value) :
    cstr (decodeField room (value ++ tail)).1 = cstr (decodeField room (value ++ tail')).1 := by
  induction room generalizing value with
  | zero => rfl
  | succ room ih =>
      cases value with
      | nil => rw [List.nil_append, List.nil_append, decodeField_end fieldEnd,
          decodeField_end fieldEnd']
      | cons c p =>
          rw [List.mem_cons, not_or] at inside
          rcases percent_or_single c p with ⟨hi, lo, rest, rfl, rfl⟩ | single
          · simp only [List.cons_append]
            rw [decodeField_percent, decodeField_percent]
            rw [CutsEscape, not_and] at whole
            simp only [List.mem_cons, not_or] at inside
            by_cases zero : hexNibble hi * 16 + hexNibble lo = 0
            · rw [zero]
              rfl
            · rw [cstr_cons zero, cstr_cons zero, ih inside.2.2.2 (whole zero)]
          · rw [cutsEscape_single single, not_or] at whole
            have literal (q : List UInt8) : c = 0x25 → (p ++ q).length < 2 :=
              fun percent => absurd percent whole.1
            rw [List.cons_append, List.cons_append,
              decodeField_single (Ne.symm inside.1) (literal tail),
              decodeField_single (Ne.symm inside.1) (literal tail')]
            by_cases zero : (if c = 0x2b then 0x20 else c) = 0
            · rw [zero]
              rfl
            · rw [cstr_cons zero, cstr_cons zero, ih inside.2 whole.2]

/-- The byte decoded from a `%`, a byte and an `&` is no `%` and no NUL. -/
theorem hexNibble_ampersand (hi : UInt8) :
    hexNibble hi * 16 + hexNibble 0x26 ≠ 0x25 ∧ hexNibble hi * 16 + hexNibble 0x26 ≠ 0 := by
  have ampersand : hexNibble 0x26 = 0xf6 := rfl
  rw [ampersand]
  constructor <;> intro same <;> have value := congrArg UInt8.toNat same <;>
    simp only [UInt8.toNat_add, UInt8.toNat_mul, UInt8.reduceToNat] at value <;> omega

/-- A cut escape takes the `&`, and the `0` behind it when the `%` is the last byte. -/
theorem cstr_decodeField_percent_ne {p : List UInt8} (short : p.length < 2) (room : ℕ) :
    cstr (decodeField (room + 1) (0x25 :: p)).1 ≠
      cstr (decodeField (room + 1) (0x25 :: (p ++ [0x26, 0x30]))).1 := by
  match p, short with
  | [], _ => exact fun same => absurd (List.cons.inj same).1 (by decide)
  | [hi], _ =>
      have taken := hexNibble_ampersand hi
      rw [List.cons_append, List.nil_append, decodeField_percent, cstr_cons taken.2]
      exact fun same => taken.1 (List.cons.inj same).1.symm

/-- A value that cuts an escape is decoded to another string before an `&`. -/
theorem cstr_decodeField_ne {value : List UInt8} (inside : 0x26 ∉ value) (clean : 0 ∉ value)
    {room : ℕ} (cuts : CutsEscape room value) :
    cstr (decodeField room (value ++ [])).1 ≠
      cstr (decodeField room (value ++ [0x26, 0x30])).1 := by
  induction room generalizing value with
  | zero => exact absurd cuts id
  | succ room ih =>
      cases value with
      | nil => exact absurd cuts id
      | cons c p =>
          rw [List.mem_cons, not_or] at inside clean
          rcases percent_or_single c p with ⟨hi, lo, rest, rfl, rfl⟩ | single
          · simp only [List.cons_append]
            rw [decodeField_percent, decodeField_percent]
            rw [CutsEscape] at cuts
            simp only [List.mem_cons, not_or] at inside clean
            rw [cstr_cons cuts.1, cstr_cons cuts.1]
            exact fun same => ih inside.2.2.2 clean.2.2.2 cuts.2 (List.cons.inj same).2
          · rw [cutsEscape_single single] at cuts
            by_cases percent : c = 0x25
            · subst percent
              rw [List.append_nil, List.cons_append]
              exact cstr_decodeField_percent_ne (single rfl) room
            · have literal (q : List UInt8) : c = 0x25 → (p ++ q).length < 2 :=
                fun same => absurd same percent
              have written : (if c = 0x2b then 0x20 else c) ≠ 0 := by
                split
                · decide
                · exact Ne.symm clean.1
              rw [List.cons_append, List.cons_append,
                decodeField_single (Ne.symm inside.1) (literal _),
                decodeField_single (Ne.symm inside.1) (literal _), cstr_cons written,
                cstr_cons written]
              exact fun same =>
                ih inside.2 clean.2 (cuts.resolve_left percent) (List.cons.inj same).2

/-- **A value is isolated if and only if it cuts no escape**: decoded up to the end of the array and
up to the first NUL, it has two bytes behind every `%`. -/
theorem isolated_iff {name value : List UInt8} (cName : 0 ∉ name) (inside : 0x26 ∉ value)
    (clean : 0 ∉ value) {bufLen : ℕ} (nonempty : 1 ≤ bufLen) :
    Isolated name value bufLen ↔ ¬ CutsEscape (bufLen - 1) value := by
  constructor
  · intro isolated cuts
    have located (q : List UInt8) : locateField name (name ++ [0x3d] ++ q) = some q := by
      rw [locateField_here (List.prefix_append _ _), List.drop_left' (by simp)]
    have same := isolated (name ++ [0x3d]) (name ++ [0x3d]) [] [0x26, 0x30] (.fill bufLen 0)
      (.fill bufLen 0) (by simp [cName, clean]) (by simp [cName, clean]) (.inl rfl)
      (.inr ⟨[0x30], rfl⟩) (located _) (located _)
    rw [cstr_formFieldArray (located _) nonempty, cstr_formFieldArray (located _) nonempty] at same
    exact cstr_decodeField_ne inside clean cuts same
  · intro whole before before' tail tail' buf buf' _ _ fieldEnd fieldEnd' located located'
    rw [cstr_formFieldArray located nonempty,
      cstr_formFieldArray (locateField_append located' _) nonempty]
    exact cstr_decodeField_eq inside fieldEnd fieldEnd' whole

/-- The value `%31%` in an array of two bytes: the second `%` is not reached. -/
theorem isolated_iff_fullArray : Isolated [0x61] [0x25, 0x33, 0x31, 0x25] 2 :=
  (isolated_iff (by decide) (by decide) (by decide) (by decide)).mpr (by simp [CutsEscape])

/-- `a=%&b=1` and `a=%&c=1` give `a` two values. -/
theorem not_isolated_lonePercent : ¬ Isolated [0x61] [0x25] 8 := by
  intro isolated
  have same := isolated [0x61, 0x3d] [0x61, 0x3d] [0x26, 0x62, 0x3d, 0x31] [0x26, 0x63, 0x3d, 0x31]
    (.fill 8 0) (.fill 8 0) (by decide) (by decide) (.inr ⟨_, rfl⟩) (.inr ⟨_, rfl⟩)
    (by decide +kernel) (by decide +kernel)
  exact absurd same (by decide +kernel)

end HalowBridge.Config
