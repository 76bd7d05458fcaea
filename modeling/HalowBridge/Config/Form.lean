import HalowBridge.Lib.CString
import Mathlib.Tactic.IntervalCases

/-!
# Form fields

`parse_form_field` finds a field of an `application/x-www-form-urlencoded` body by its name and
decodes the value into an array. The body is the C string of the receive buffer, so it holds no NUL
and its end is the end of the list. What is returned is the bytes written before the final NUL,
and the rest of the body. A decoded byte can be NUL, so that the caller may see a shorter string.

`EncodesForm` relates a list of fields to its encodings: each byte of a value stands for itself, for
a `+` when it is a space, or for a `%` and two hexadecimal digits of either case. Whatever
encoding was chosen, `parse_form_field` finds the value of the first field with the name
(`parseFormField_eq`).
-/

namespace HalowBridge.Config

/-- The value the source gives to a byte after `%`. `char` is unsigned on the supported targets. -/
def hexNibble (c : UInt8) : UInt8 := if 0x41 ≤ c then (c &&& 0x1f) + 9 else c - 0x30

/-- The decoding loop of `parse_form_field`, with the room left in the array. -/
def decodeField : ℕ → List UInt8 → List UInt8 × List UInt8
  | 0, p => ([], p)
  | _ + 1, [] => ([], [])
  | room + 1, c :: p =>
      if c = 0x26 then ([], c :: p)
      else
        match c, p with
        | 0x25, hi :: lo :: rest =>
            let (bytes, rest) := decodeField room rest
            ((hexNibble hi * 16 + hexNibble lo) :: bytes, rest)
        | c, p =>
            let (bytes, rest) := decodeField room p
            ((if c = 0x2b then 0x20 else c) :: bytes, rest)

/-- Past the next `&`, or at the end. -/
def skipField (p : List UInt8) : List UInt8 := (p.dropWhile (· != 0x26)).drop 1

theorem length_skipField_lt (c : UInt8) (p : List UInt8) :
    (skipField (c :: p)).length < (c :: p).length := by
  have := (List.dropWhile_suffix (l := c :: p) (· != 0x26)).length_le
  rw [skipField, List.length_drop, List.length_cons] at *
  omega

/-- The search loop of `parse_form_field`. -/
def scanForm (name : List UInt8) (bufLen : ℕ) : List UInt8 → Option (List UInt8 × List UInt8)
  | [] => none
  | c :: p =>
      if name ++ [0x3d] <+: c :: p then
        some (decodeField (bufLen - 1) ((c :: p).drop (name.length + 1)))
      else scanForm name bufLen (skipField (c :: p))
termination_by p => p.length
decreasing_by exact length_skipField_lt c p

/-- The bytes written before the final NUL, and the rest of the body. -/
def parseFormField (form name : List UInt8) (bufLen : ℕ) : List UInt8 × List UInt8 :=
  (scanForm name bufLen form).getD ([], form)

/-! ## Encodings of a form -/

/-- A hexadecimal digit with the value, of either case. -/
def HexDigit (value : ℕ) (c : UInt8) : Prop :=
  (value < 10 ∧ c = UInt8.ofNat (0x30 + value)) ∨
    (10 ≤ value ∧ value < 16 ∧ (c = UInt8.ofNat (0x37 + value) ∨ c = UInt8.ofNat (0x57 + value)))

/-- The encodings of one byte of a value. -/
inductive EncodesByte : UInt8 → List UInt8 → Prop
  | literal {c : UInt8} : c ≠ 0 → c ≠ 0x25 → c ≠ 0x26 → c ≠ 0x2b → EncodesByte c [c]
  | space : EncodesByte 0x20 [0x2b]
  | percent {c hi lo : UInt8} : HexDigit (c.toNat / 16) hi → HexDigit (c.toNat % 16) lo →
      EncodesByte c [0x25, hi, lo]

/-- The encodings of a value. -/
inductive Encodes : List UInt8 → List UInt8 → Prop
  | nil : Encodes [] []
  | cons {c : UInt8} {block value code : List UInt8} : EncodesByte c block → Encodes value code →
      Encodes (c :: value) (block ++ code)

/-- The encodings of a list of fields, joined by `&`. -/
inductive EncodesForm : List (List UInt8 × List UInt8) → List UInt8 → Prop
  | nil : EncodesForm [] []
  | single {name value code : List UInt8} : Encodes value code →
      EncodesForm [(name, value)] (name ++ 0x3d :: code)
  | cons {name value code : List UInt8} {next : List UInt8 × List UInt8}
      {fields : List (List UInt8 × List UInt8)} {body : List UInt8} : Encodes value code →
      EncodesForm (next :: fields) body →
      EncodesForm ((name, value) :: next :: fields) (name ++ 0x3d :: (code ++ 0x26 :: body))

/-- A name that no separator cuts. -/
def CleanName (name : List UInt8) : Prop := 0 ∉ name ∧ 0x3d ∉ name ∧ 0x26 ∉ name

theorem HexDigit.facts {value : ℕ} {c : UInt8} (digit : HexDigit value c) :
    hexNibble c = UInt8.ofNat value ∧ c ≠ 0x26 ∧ c ≠ 0 := by
  have bound : value < 16 := by
    rcases digit with ⟨small, -⟩ | ⟨-, large, -⟩ <;> omega
  rcases digit with ⟨small, rfl⟩ | ⟨ten, -, rfl | rfl⟩ <;>
    interval_cases value <;> decide

/-- Two digits give the byte back. -/
theorem hexNibble_pair {c hi lo : UInt8} (high : HexDigit (c.toNat / 16) hi)
    (low : HexDigit (c.toNat % 16) lo) : hexNibble hi * 16 + hexNibble lo = c := by
  rw [high.facts.1, low.facts.1]
  have sixteen : (16 : UInt8) = UInt8.ofNat 16 := rfl
  rw [sixteen, ← UInt8.ofNat_mul, ← UInt8.ofNat_add, Nat.div_add_mod', UInt8.ofNat_toNat]

theorem EncodesByte.length_le {c : UInt8} {block : List UInt8} (encodes : EncodesByte c block) :
    block.length ≤ 3 := by
  cases encodes <;> simp

theorem EncodesByte.clean {c : UInt8} {block : List UInt8} (encodes : EncodesByte c block) :
    0x26 ∉ block ∧ 0 ∉ block := by
  cases encodes with
  | literal nonzero _ other _ => simp [Ne.symm nonzero, Ne.symm other]
  | space => decide
  | percent high low =>
      obtain ⟨-, hiAmp, hiZero⟩ := high.facts
      obtain ⟨-, loAmp, loZero⟩ := low.facts
      simp [Ne.symm hiAmp, Ne.symm hiZero, Ne.symm loAmp, Ne.symm loZero]

theorem Encodes.length_le {value code : List UInt8} (encodes : Encodes value code) :
    code.length ≤ 3 * value.length := by
  induction encodes with
  | nil => exact Nat.le_refl 0
  | cons head _ ih =>
      have := head.length_le
      rw [List.length_append, List.length_cons]
      omega

theorem Encodes.clean {value code : List UInt8} (encodes : Encodes value code) :
    0x26 ∉ code ∧ 0 ∉ code := by
  induction encodes with
  | nil => exact ⟨List.not_mem_nil, List.not_mem_nil⟩
  | cons head _ ih =>
      simp only [List.mem_append, not_or]
      exact ⟨⟨head.clean.1, ih.1⟩, ⟨head.clean.2, ih.2⟩⟩

/-! ## One encoding of every form -/

def upperHexDigit (value : ℕ) : UInt8 :=
  if value < 10 then UInt8.ofNat (0x30 + value) else UInt8.ofNat (0x37 + value)

/-- Every byte as a `%` and two digits. -/
def percentEncode : List UInt8 → List UInt8
  | [] => []
  | c :: value =>
      [0x25, upperHexDigit (c.toNat / 16), upperHexDigit (c.toNat % 16)] ++ percentEncode value

def percentEncodeForm : List (List UInt8 × List UInt8) → List UInt8
  | [] => []
  | [(name, value)] => name ++ 0x3d :: percentEncode value
  | (name, value) :: next :: fields =>
      name ++ 0x3d :: (percentEncode value ++ 0x26 :: percentEncodeForm (next :: fields))

theorem hexDigit_upperHexDigit {value : ℕ} (digit : value < 16) :
    HexDigit value (upperHexDigit value) := by
  unfold upperHexDigit
  split
  · rename_i small
    exact .inl ⟨small, rfl⟩
  · rename_i large
    exact .inr ⟨by omega, digit, .inl rfl⟩

theorem encodes_percentEncode (value : List UInt8) : Encodes value (percentEncode value) := by
  induction value with
  | nil => exact .nil
  | cons c value ih =>
      have bound := c.toNat_lt
      exact .cons (.percent (hexDigit_upperHexDigit (by omega))
        (hexDigit_upperHexDigit (by omega))) ih

theorem encodesForm_percentEncodeForm (fields : List (List UInt8 × List UInt8)) :
    EncodesForm fields (percentEncodeForm fields) := by
  induction fields with
  | nil => exact .nil
  | cons field fields ih =>
      cases fields with
      | nil => exact .single (encodes_percentEncode _)
      | cons next fields => exact .cons (encodes_percentEncode _) ih

/-! ## Decoding one value -/

/-- What can follow a value: nothing, or the next field. -/
def FieldEnd (tail : List UInt8) : Prop := tail = [] ∨ ∃ rest, tail = 0x26 :: rest

theorem decodeField_end {tail : List UInt8} (fieldEnd : FieldEnd tail) (room : ℕ) :
    (decodeField room tail).1 = [] := by
  rcases fieldEnd with rfl | ⟨rest, rfl⟩ <;> cases room <;> simp [decodeField]

theorem decodeField_byte {c : UInt8} {block : List UInt8} (encodes : EncodesByte c block)
    (room : ℕ) (rest : List UInt8) :
    (decodeField (room + 1) (block ++ rest)).1 = c :: (decodeField room rest).1 := by
  cases encodes with
  | literal _ percent amp plus =>
      rw [List.singleton_append, decodeField, if_neg amp]
      · simp only [plus, ↓reduceIte]
      · exact fun _ _ _ same => (percent same).elim
  | space => rfl
  | percent high low =>
      rw [← hexNibble_pair high low]
      rfl

/-- **Every encoding of a value is decoded to it, as far as the array goes.** -/
theorem decodeField_encodes {value code tail : List UInt8} (encodes : Encodes value code)
    (fieldEnd : FieldEnd tail) (room : ℕ) :
    (decodeField room (code ++ tail)).1 = value.take room := by
  induction encodes generalizing room with
  | nil => exact (decodeField_end fieldEnd room).trans List.take_nil.symm
  | cons head _ ih =>
      cases room with
      | zero => rfl
      | succ room => rw [List.append_assoc, decodeField_byte head, ih, List.take_succ_cons]

/-! ## Finding a field -/

theorem skipField_append {field tail : List UInt8} (inside : 0x26 ∉ field)
    (fieldEnd : FieldEnd tail) : skipField (field ++ tail) = tail.drop 1 := by
  have pass : ∀ c ∈ field, (c != 0x26) = true := fun c member => by
    simpa using fun same : c = 0x26 => inside (same ▸ member)
  rw [skipField, List.dropWhile_append_of_pos pass]
  rcases fieldEnd with rfl | ⟨rest, rfl⟩ <;> rfl

/-- The name test of the search accepts the field's own name only. -/
theorem name_prefix_iff {name other rest : List UInt8} (clean : CleanName name)
    (cleanOther : CleanName other) : name ++ [0x3d] <+: other ++ 0x3d :: rest ↔ name = other := by
  constructor
  · intro found
    obtain ⟨after, same⟩ := found
    rw [List.append_assoc, List.singleton_append] at same
    rw [← takeWhile_append_cons clean.2.1 after, same, takeWhile_append_cons cleanOther.2.1]
  · intro same
    subst same
    exact ⟨rest, by rw [List.append_assoc, List.singleton_append]⟩

theorem scanForm_field {name other code tail : List UInt8} (clean : CleanName name)
    (cleanOther : CleanName other) (inside : 0x26 ∉ code) (fieldEnd : FieldEnd tail)
    (bufLen : ℕ) :
    scanForm name bufLen (other ++ 0x3d :: (code ++ tail)) =
      if name = other then some (decodeField (bufLen - 1) (code ++ tail))
      else scanForm name bufLen (tail.drop 1) := by
  obtain ⟨c, p, split⟩ : ∃ c p, other ++ 0x3d :: (code ++ tail) = c :: p :=
    List.exists_cons_of_ne_nil (by simp)
  have skip : skipField (other ++ 0x3d :: (code ++ tail)) = tail.drop 1 := by
    have joined : other ++ 0x3d :: (code ++ tail) = (other ++ 0x3d :: code) ++ tail := by simp
    rw [joined]
    refine skipField_append ?_ fieldEnd
    simp [cleanOther.2.2, inside]
  rw [split, scanForm, ← split, skip]
  by_cases same : name = other
  · subst same
    rw [if_pos ((name_prefix_iff clean clean).mpr rfl), if_pos rfl]
    simp
  · rw [if_neg (mt (name_prefix_iff clean cleanOther).mp same), if_neg same]

/-- **A field of a well-formed form is found under its name**, and cut to the array. -/
theorem parseFormField_eq {fields : List (List UInt8 × List UInt8)} {body name : List UInt8}
    (encodes : EncodesForm fields body) (cleanFields : ∀ field ∈ fields, CleanName field.1)
    (clean : CleanName name) (bufLen : ℕ) :
    (parseFormField body name bufLen).1 = ((fields.lookup name).getD []).take (bufLen - 1) := by
  have scanned : ((scanForm name bufLen body).map Prod.fst).getD [] =
      ((fields.lookup name).getD []).take (bufLen - 1) := by
    induction encodes with
    | nil => simp [scanForm]
    | @single other value code value_code =>
        have field := scanForm_field clean (cleanFields _ List.mem_cons_self) value_code.clean.1
          (.inl rfl) bufLen
        rw [List.append_nil] at field
        rw [field]
        by_cases same : name = other
        · have decoded := decodeField_encodes value_code (.inl rfl) (bufLen - 1)
          rw [List.append_nil] at decoded
          simp [same, decoded]
        · simp [same, scanForm]
    | @cons other value code next fields body value_code _ ih =>
        rw [scanForm_field clean (cleanFields _ List.mem_cons_self) value_code.clean.1
          (.inr ⟨_, rfl⟩)]
        by_cases same : name = other
        · simp [same, decodeField_encodes value_code (.inr ⟨_, rfl⟩)]
        · have rest := ih fun field member => cleanFields field (List.mem_cons_of_mem _ member)
          have differs : (name == other) = false := beq_eq_false_iff_ne.mpr same
          simpa [same, List.lookup_cons, differs] using rest
  rw [← scanned, parseFormField]
  cases scanForm name bufLen body <;> rfl

/-- In a form without repeated names, every field is found. -/
theorem parseFormField_of_mem {fields : List (List UInt8 × List UInt8)}
    {body name value : List UInt8} (encodes : EncodesForm fields body)
    (cleanFields : ∀ field ∈ fields, CleanName field.1) (distinct : (fields.map Prod.fst).Nodup)
    (member : (name, value) ∈ fields) (bufLen : ℕ) :
    (parseFormField body name bufLen).1 = value.take (bufLen - 1) := by
  have found : fields.lookup name = some value := by
    rcases List.append_of_mem member with ⟨before, after, rfl⟩
    refine List.lookup_eq_some_iff.mpr ⟨before, after, rfl, fun field inside => ?_⟩
    rw [List.map_append, List.map_cons, List.nodup_middle, List.nodup_cons] at distinct
    have absent := mt (List.mem_append_left (after.map Prod.fst)) distinct.1
    exact bne_iff_ne.mpr fun same => absent (List.mem_map.mpr ⟨field, inside, same.symm⟩)
  rw [parseFormField_eq encodes cleanFields (cleanFields _ member), found, Option.getD_some]

/-! ## The body as a string -/

/-- The body of a form with clean names is a C string. -/
theorem EncodesForm.zero_not_mem {fields : List (List UInt8 × List UInt8)} {body : List UInt8}
    (encodes : EncodesForm fields body) (clean : ∀ field ∈ fields, CleanName field.1) :
    0 ∉ body := by
  induction encodes with
  | nil => exact List.not_mem_nil
  | single value =>
      simp [(clean _ List.mem_cons_self).1, value.clean.2]
  | cons value _ ih =>
      have rest := ih fun field member => clean field (List.mem_cons_of_mem _ member)
      simp [(clean _ List.mem_cons_self).1, value.clean.2, rest]

theorem EncodesForm.ne_nil {field : List UInt8 × List UInt8}
    {fields : List (List UInt8 × List UInt8)} {body : List UInt8}
    (encodes : EncodesForm (field :: fields) body) : body ≠ [] := by
  cases encodes <;> simp

/-- The length of the longest encoding of a form, with a separator for each field. -/
def formBound (fields : List (List UInt8 × List UInt8)) : ℕ :=
  (fields.map fun field => field.1.length + 3 * field.2.length + 2).sum

theorem EncodesForm.length_le {fields : List (List UInt8 × List UInt8)} {body : List UInt8}
    (encodes : EncodesForm fields body) : body.length ≤ formBound fields := by
  induction encodes with
  | nil => exact Nat.le_refl 0
  | single value =>
      have := value.length_le
      simp only [formBound, List.map_cons, List.map_nil, List.sum_cons, List.sum_nil,
        List.length_append, List.length_cons]
      omega
  | cons value _ ih =>
      have := value.length_le
      simp only [formBound, List.map_cons, List.sum_cons, List.length_append,
        List.length_cons] at ih ⊢
      omega

end HalowBridge.Config
