import HalowBridge.Lib.Struct
import HalowBridge.Lib.Table
import HalowBridge.Mmutils.InformationElements

/-!
# The RSN element

`mm_parse_rsn_information` takes the RSN element apart. It has two counted lists of cipher suites,
whose counts come from the air: they are compared with what is left of the element, the first two
suites of each list are kept and all are passed over.

In the model every read is checked against the bounds of the element that was found, and every
subtraction from the length that is left against zero. `mmParseRsnInformation_correct` says that the
checks never fail, that the result is zero exactly for the elements that begin with an encoded
`RsnFields`, and that the output is then what was encoded.
-/

namespace HalowBridge.Mmutils

def mmRsnInformationIeType : UInt8 := 48

/-- `MM_RSN_INFORMATION_MAX_PAIRWISE_CIPHER_SUITES` and `MM_RSN_INFORMATION_MAX_AKM_SUITES` -/
def mmRsnInformationMaxSuites : ℕ := 2

/-- `struct mm_rsn_information` -/
structure MmRsnInformation where
  groupCipherSuite : UInt32
  pairwiseCipherSuites : Table UInt32 mmRsnInformationMaxSuites
  akmSuites : Table UInt32 mmRsnInformationMaxSuites
  numPairwiseCipherSuites : UInt16
  numAkmSuites : UInt16
  version : UInt16
  rsnCapabilities : UInt16
  deriving DecidableEq

/-- `memset(output, 0, sizeof(*output))` -/
def MmRsnInformation.zero : MmRsnInformation where
  groupCipherSuite := 0
  pairwiseCipherSuites := .fill _ 0
  akmSuites := .fill _ 0
  numPairwiseCipherSuites := 0
  numAkmSuites := 0
  version := 0
  rsnCapabilities := 0

section

variable (ies : IeBuffer) (o : ℕ)

/-- A read inside the element at `o`. -/
def readElement (i : ℕ) : Option UInt8 :=
  if o ≤ i ∧ i < o + 2 + ies.lengthAt o then ies.bytes[i]? else none

/-- `ies[offset] | ies[offset + 1] << 8` -/
def readU16 (offset : ℕ) : Option UInt16 := do
  let b0 ← readElement ies o offset
  let b1 ← readElement ies o (offset + 1)
  return b0.toUInt16 ||| b1.toUInt16 <<< 8

/-- `ies[offset] << 24 | ies[offset + 1] << 16 | ies[offset + 2] << 8 | ies[offset + 3]` -/
def readSuite (offset : ℕ) : Option UInt32 := do
  let b0 ← readElement ies o offset
  let b1 ← readElement ies o (offset + 1)
  let b2 ← readElement ies o (offset + 2)
  let b3 ← readElement ies o (offset + 3)
  return b0.toUInt32 <<< 24 ||| b1.toUInt32 <<< 16 ||| b2.toUInt32 <<< 8 ||| b3.toUInt32

/-- `length -= k` for the `uint8_t` length, where it does not underflow. -/
def lengthSub (length k : ℕ) : Option ℕ := if k ≤ length then some (length - k) else none

/-- The loops over the suites, with `count` suites still to come: those with an index below `num`
are stored. -/
def parseSuites (num : ℕ) : ℕ → ℕ → ℕ → ℕ → Table UInt32 mmRsnInformationMaxSuites →
    Option (ℕ × ℕ × Table UInt32 mmRsnInformationMaxSuites)
  | 0, _, offset, length, suites => some (offset, length, suites)
  | count + 1, ii, offset, length, suites => do
      let suites ←
        if ii < num then do
          let suite ← readSuite ies o offset
          pure (suites.set ii suite)
        else pure suites
      let length ← lengthSub length 4
      parseSuites num count (ii + 1) (offset + 4) length suites

/-- A counted list: the number that is kept, and where the list ends with the suites that were
stored, unless the element is too short for it. -/
def parseSuiteList (offset length : ℕ) :
    Option (UInt16 × Option (ℕ × ℕ × Table UInt32 mmRsnInformationMaxSuites)) := do
  let numSuites ← readU16 ies o offset
  let length ← lengthSub length 2
  let num := if numSuites.toNat > mmRsnInformationMaxSuites then
      UInt16.ofNat mmRsnInformationMaxSuites else numSuites
  if length < 4 * numSuites.toNat + 2 then return (num, none)
  else
    let list ← parseSuites ies o num.toNat numSuites.toNat 0 (offset + 2) length (.fill _ 0)
    return (num, some list)

/-- What `mm_parse_rsn_information` does from the count of the pairwise suites on. -/
def parseRsnLists (offset length : ℕ) (output : MmRsnInformation) :
    Option (ℤ × MmRsnInformation) := do
  match ← parseSuiteList ies o offset length with
  | (num, none) => return (-2, { output with numPairwiseCipherSuites := num })
  | (num, some (offset, length, suites)) =>
      let output := { output with numPairwiseCipherSuites := num, pairwiseCipherSuites := suites }
      match ← parseSuiteList ies o offset length with
      | (num, none) => return (-2, { output with numAkmSuites := num })
      | (num, some (offset, _, suites)) =>
          let output := { output with numAkmSuites := num, akmSuites := suites }
          let capabilities ← readU16 ies o offset
          return (0, { output with rsnCapabilities := capabilities })

end

/-- `mm_parse_rsn_information`: the result and the output. -/
def mmParseRsnInformation (ies : IeBuffer) : Option (ℤ × MmRsnInformation) := do
  let found ← mmFindIeFromOffset ies 0 mmRsnInformationIeType
  let output := MmRsnInformation.zero
  if found < 0 then return (found, output)
  else
    let o := found.toNat
    let length ← readElement ies o (o + 1)
    let length := length.toNat
    let offset := o + 2
    if length < 8 then return (-2, output)
    else
      let version ← readU16 ies o offset
      let output := { output with version := version }
      let length ← lengthSub length 2
      let group ← readSuite ies o (offset + 2)
      let output := { output with groupCipherSuite := group }
      let length ← lengthSub length 4
      parseRsnLists ies o (offset + 6) length output

/-! ## What an element encodes -/

/-- The fields of an RSN element up to its capabilities. -/
structure RsnFields where
  version : UInt16
  groupCipherSuite : UInt32
  pairwiseCipherSuites : List UInt32
  akmSuites : List UInt32
  rsnCapabilities : UInt16

def encodeSuite (suite : UInt32) : List UInt8 := packBe 4 suite.toNat

/-- A counted list. -/
def encodeSuites (suites : List UInt32) : List UInt8 :=
  packLe 2 suites.length ++ suites.flatMap encodeSuite

def RsnFields.encode (fields : RsnFields) : List UInt8 :=
  packLe 2 fields.version.toNat ++ (encodeSuite fields.groupCipherSuite ++
    (encodeSuites fields.pairwiseCipherSuites ++ (encodeSuites fields.akmSuites ++
      packLe 2 fields.rsnCapabilities.toNat)))

/-- The first two suites, and zeroes where there are fewer. -/
def firstSuites (suites : List UInt32) : Table UInt32 mmRsnInformationMaxSuites :=
  (Table.fill _ 0).overwrite (suites.take mmRsnInformationMaxSuites)

def numKept (suites : List UInt32) : UInt16 :=
  UInt16.ofNat (min suites.length mmRsnInformationMaxSuites)

/-- The output for the fields. -/
def RsnFields.output (fields : RsnFields) : MmRsnInformation where
  groupCipherSuite := fields.groupCipherSuite
  pairwiseCipherSuites := firstSuites fields.pairwiseCipherSuites
  akmSuites := firstSuites fields.akmSuites
  numPairwiseCipherSuites := numKept fields.pairwiseCipherSuites
  numAkmSuites := numKept fields.akmSuites
  version := fields.version
  rsnCapabilities := fields.rsnCapabilities

@[simp] theorem length_encodeSuite (suite : UInt32) : (encodeSuite suite).length = 4 :=
  length_packBe _ _

theorem length_flatMap_encodeSuite (suites : List UInt32) :
    (suites.flatMap encodeSuite).length = 4 * suites.length := by
  induction suites with
  | nil => rfl
  | cons suite suites ih =>
      rw [List.flatMap_cons, List.length_append, length_encodeSuite, ih, List.length_cons]
      omega

/-- The result and the output are right: zero for a whole element that begins with encoded fields
and for no other, and then the output for these fields. -/
structure ParsesRsn (ies : IeBuffer) (ret : ℤ) (output : MmRsnInformation) : Prop where
  ret_eq_zero : ret = 0 ↔ ∃ o, ies.firstOfType mmRsnInformationIeType 0 = some o ∧ ies.Whole o ∧
    ∃ (fields : RsnFields) (rest : List UInt8), ies.payload o = fields.encode ++ rest
  output_eq : ∀ o, ies.firstOfType mmRsnInformationIeType 0 = some o → ies.Whole o →
    ∀ (fields : RsnFields) (rest : List UInt8), ies.payload o = fields.encode ++ rest →
      output = fields.output

/-! ## Reads at a place of the payload -/

/-- The bytes `rest` stand at the offset in the payload of the element. -/
def At (ies : IeBuffer) (o offset : ℕ) (rest : List UInt8) : Prop :=
  ∃ before, ies.payload o = before ++ rest ∧ offset = o + 2 + before.length

section

variable {ies : IeBuffer} {o offset : ℕ} {rest : List UInt8}

theorem length_payload (whole : ies.Whole o) : (ies.payload o).length = ies.lengthAt o := by
  rw [IeBuffer.Whole, IeBuffer.len] at whole
  rw [IeBuffer.payload, List.length_take, List.length_drop]
  omega

theorem At.read (whole : ies.Whole o) {b : UInt8} (here : At ies o offset (b :: rest)) :
    readElement ies o offset = some b ∧ At ies o (offset + 1) rest := by
  obtain ⟨before, payload, rfl⟩ := here
  have length := length_payload whole
  rw [payload, List.length_append, List.length_cons] at length
  have byte : ies.bytes[o + 2 + before.length]? = (ies.payload o)[before.length]? := by
    rw [IeBuffer.payload, List.getElem?_take_of_lt (by omega), List.getElem?_drop]
  refine ⟨?_, before ++ [b], ?_, ?_⟩
  · rw [readElement, if_pos (by omega), byte, payload, List.getElem?_append_right (Nat.le_refl _),
      Nat.sub_self]
    rfl
  · rw [payload, List.append_assoc, List.singleton_append]
  · rw [List.length_append, List.length_singleton, Nat.add_assoc]

theorem At.readU16 (whole : ies.Whole o) {n : ℕ} (bound : n < 65536)
    (here : At ies o offset (packLe 2 n ++ rest)) :
    readU16 ies o offset = some (UInt16.ofNat n) ∧ At ies o (offset + 2) rest := by
  have two : packLe 2 n = [UInt8.ofNat n, UInt8.ofNat (n / 256)] := rfl
  have back : unpackLe (packLe 2 n) = n := unpackLe_packLe bound
  rw [two] at back here
  obtain ⟨first, second⟩ := At.read whole here
  obtain ⟨last, behind⟩ := second.read whole
  refine ⟨?_, behind⟩
  rw [HalowBridge.Mmutils.readU16, first, last]
  refine congrArg some ?_
  rw [← UInt16.toNat_inj, toNat_two_bytes, back, UInt16.toNat_ofNat_of_lt' bound]

theorem At.readSuite (whole : ies.Whole o) {suite : UInt32}
    (here : At ies o offset (encodeSuite suite ++ rest)) :
    readSuite ies o offset = some suite ∧ At ies o (offset + 4) rest := by
  have four : packLe 4 suite.toNat =
      [UInt8.ofNat suite.toNat, UInt8.ofNat (suite.toNat / 256),
        UInt8.ofNat (suite.toNat / 256 / 256), UInt8.ofNat (suite.toNat / 256 / 256 / 256)] := rfl
  have back : unpackLe (packLe 4 suite.toNat) = suite.toNat := unpackLe_packLe suite.toNat_lt
  rw [encodeSuite, packBe, four] at here
  rw [four] at back
  obtain ⟨first, here⟩ := At.read whole here
  obtain ⟨second, here⟩ := here.read whole
  obtain ⟨third, here⟩ := here.read whole
  obtain ⟨fourth, here⟩ := here.read whole
  refine ⟨?_, here⟩
  rw [HalowBridge.Mmutils.readSuite, first, second, third, fourth]
  refine congrArg some ?_
  rw [← UInt32.toNat_inj, toNat_four_bytes, back]

/-! ## The lists of suites -/

/-- What the loop stores: the suites with an index below `num`. -/
def storeSuites (num : ℕ) : ℕ → List UInt32 → Table UInt32 mmRsnInformationMaxSuites →
    Table UInt32 mmRsnInformationMaxSuites
  | _, [], stored => stored
  | ii, suite :: suites, stored =>
      storeSuites num (ii + 1) suites (if ii < num then stored.set ii suite else stored)

theorem storeSuites_of_le {num ii : ℕ} (le : num ≤ ii) (suites : List UInt32)
    (stored : Table UInt32 mmRsnInformationMaxSuites) :
    storeSuites num ii suites stored = stored := by
  induction suites generalizing ii with
  | nil => rfl
  | cons suite suites ih =>
      rw [storeSuites, if_neg (by omega)]
      exact ih (by omega)

theorem storeSuites_eq (suites : List UInt32) :
    storeSuites (min suites.length mmRsnInformationMaxSuites) 0 suites (.fill _ 0) =
      firstSuites suites := by
  match suites with
  | [] => rfl
  | [_] => rfl
  | first :: second :: others =>
      have two : min (first :: second :: others).length mmRsnInformationMaxSuites = 2 :=
        Nat.min_eq_right (Nat.le_add_left 2 others.length)
      rw [two, storeSuites, storeSuites, storeSuites_of_le (Nat.le_refl 2)]
      rfl

/-- The loop passes over the suites of the list. -/
theorem parseSuites_eq (whole : ies.Whole o) (num ii : ℕ) {length : ℕ} {suites : List UInt32}
    (stored : Table UInt32 mmRsnInformationMaxSuites)
    (here : At ies o offset (suites.flatMap encodeSuite ++ rest))
    (left : length = 4 * suites.length + rest.length) :
    parseSuites ies o num suites.length ii offset length stored =
        some (offset + 4 * suites.length, rest.length, storeSuites num ii suites stored) ∧
      At ies o (offset + 4 * suites.length) rest := by
  induction suites generalizing ii offset length stored with
  | nil =>
      rw [List.length_nil, Nat.mul_zero, Nat.zero_add] at left
      subst left
      exact ⟨rfl, here⟩
  | cons suite suites ih =>
      rw [List.flatMap_cons, List.append_assoc] at here
      obtain ⟨read, behind⟩ := At.readSuite whole here
      rw [List.length_cons] at left
      have room : lengthSub length 4 = some (length - 4) := if_pos (by omega)
      have next : offset + 4 + 4 * suites.length = offset + 4 * (suite :: suites).length := by
        rw [List.length_cons]
        omega
      obtain ⟨others, last⟩ := ih (ii + 1) (if ii < num then stored.set ii suite else stored) behind
        (show length - 4 = 4 * suites.length + rest.length by omega)
      rw [next] at others last
      refine ⟨?_, last⟩
      rw [storeSuites, ← others]
      show parseSuites ies o num (suites.length + 1) ii offset length stored = _
      rw [parseSuites, read, room]
      split <;> rfl

theorem toNat_numKept (suites : List UInt32) :
    (numKept suites).toNat = min suites.length mmRsnInformationMaxSuites := by
  have le : min suites.length mmRsnInformationMaxSuites ≤ 2 := Nat.min_le_right _ _
  exact UInt16.toNat_ofNat_of_lt' (Nat.lt_of_le_of_lt le (by decide))

/-- A list that fits, with room for what must follow. -/
theorem parseSuiteList_of_le (whole : ies.Whole o) {length : ℕ} {suites : List UInt32}
    (bound : suites.length < 65536) (here : At ies o offset (encodeSuites suites ++ rest))
    (left : length = (encodeSuites suites ++ rest).length) (more : 2 ≤ rest.length) :
    parseSuiteList ies o offset length = some (numKept suites,
        some (offset + 2 + 4 * suites.length, rest.length, firstSuites suites)) ∧
      At ies o (offset + 2 + 4 * suites.length) rest := by
  rw [encodeSuites, List.append_assoc] at here left
  rw [List.length_append, List.length_append, length_packLe, length_flatMap_encodeSuite] at left
  obtain ⟨count, behind⟩ := At.readU16 whole bound here
  have room : lengthSub length 2 = some (length - 2) := if_pos (by omega)
  have toNat : (UInt16.ofNat suites.length).toNat = suites.length :=
    UInt16.toNat_ofNat_of_lt' bound
  have num : (if suites.length > mmRsnInformationMaxSuites then
      UInt16.ofNat mmRsnInformationMaxSuites else UInt16.ofNat suites.length) = numKept suites := by
    rw [numKept]
    split
    · rw [Nat.min_eq_right (by omega)]
    · rw [Nat.min_eq_left (by omega)]
  obtain ⟨list, last⟩ := parseSuites_eq whole (numKept suites).toNat 0 (.fill _ 0) behind
    (show length - 2 = 4 * suites.length + rest.length by omega)
  refine ⟨?_, last⟩
  rw [toNat_numKept, storeSuites_eq] at list
  simp only [parseSuiteList, count, room, toNat, num, Option.bind_eq_bind, Option.bind_some]
  rw [if_neg (by omega), toNat_numKept, list]
  rfl

/-- A list that does not. -/
theorem parseSuiteList_of_lt (whole : ies.Whole o) {n length : ℕ} (bound : n < 65536)
    (here : At ies o offset (packLe 2 n ++ rest)) (left : length = (packLe 2 n ++ rest).length)
    (short : rest.length < 4 * n + 2) :
    ∃ num, parseSuiteList ies o offset length = some (num, none) := by
  rw [List.length_append, length_packLe] at left
  obtain ⟨count, behind⟩ := At.readU16 whole bound here
  have room : lengthSub length 2 = some (length - 2) := if_pos (by omega)
  have toNat : (UInt16.ofNat n).toNat = n := UInt16.toNat_ofNat_of_lt' bound
  refine ⟨if n > mmRsnInformationMaxSuites then UInt16.ofNat mmRsnInformationMaxSuites
    else UInt16.ofNat n, ?_⟩
  simp only [parseSuiteList, count, room, toNat, Option.bind_eq_bind, Option.bind_some]
  rw [if_pos (by omega)]
  rfl

/-! ## The element -/

theorem readElement_length (whole : ies.Whole o) :
    ∃ b, readElement ies o (o + 1) = some b ∧ b.toNat = ies.lengthAt o := by
  rw [IeBuffer.Whole, IeBuffer.len] at whole
  refine ⟨ies.bytes.getD (o + 1) 0, ?_, rfl⟩
  rw [readElement, if_pos (by omega), List.getD_eq_getElem?_getD,
    List.getElem?_eq_getElem (by omega)]
  rfl

/-- An element too short for a count. -/
theorem mmParseRsnInformation_of_lt
    (first : ies.firstOfType mmRsnInformationIeType 0 = some o) (whole : ies.Whole o)
    (short : (ies.payload o).length < 8) :
    mmParseRsnInformation ies = some (-2, .zero) := by
  have found := mmFindIeFromOffset_eq mmRsnInformationIeType (Nat.zero_le (ies.len + 255))
  rw [first, IeBuffer.result, if_pos whole] at found
  obtain ⟨b, read, length⟩ := readElement_length whole
  rw [length_payload whole] at short
  simp only [mmParseRsnInformation, found, Option.bind_eq_bind, Option.bind_some,
    Int.toNat_natCast, read, length]
  rw [if_neg (by omega), if_pos short]
  rfl

/-- The version and the group suite. -/
theorem mmParseRsnInformation_of_le
    (first : ies.firstOfType mmRsnInformationIeType 0 = some o) (whole : ies.Whole o)
    {version : UInt16} {group : UInt32}
    (payload : ies.payload o = packLe 2 version.toNat ++ (encodeSuite group ++ rest))
    (more : 2 ≤ rest.length) :
    mmParseRsnInformation ies =
        parseRsnLists ies o (o + 8) rest.length
          { MmRsnInformation.zero with version := version, groupCipherSuite := group } ∧
      At ies o (o + 8) rest := by
  have found := mmFindIeFromOffset_eq mmRsnInformationIeType (Nat.zero_le (ies.len + 255))
  rw [first, IeBuffer.result, if_pos whole] at found
  obtain ⟨b, read, length⟩ := readElement_length whole
  have here : At ies o (o + 2) (packLe 2 version.toNat ++ (encodeSuite group ++ rest)) :=
    ⟨[], payload, rfl⟩
  obtain ⟨versionRead, here⟩ := At.readU16 whole version.toNat_lt here
  obtain ⟨groupRead, here⟩ := At.readSuite whole here
  have bytes := length_payload whole
  rw [payload, List.length_append, List.length_append, length_packLe, length_encodeSuite] at bytes
  have afterVersion : lengthSub (ies.lengthAt o) 2 = some (ies.lengthAt o - 2) := if_pos (by omega)
  have afterGroup : lengthSub (ies.lengthAt o - 2) 4 = some rest.length := by
    rw [lengthSub, if_pos (by omega)]
    exact congrArg some (by omega)
  refine ⟨?_, here⟩
  simp only [mmParseRsnInformation, found, Option.bind_eq_bind, Option.bind_some,
    Int.toNat_natCast, read, length, versionRead, afterVersion, groupRead, afterGroup,
    UInt16.ofNat_toNat]
  rw [if_neg (by omega), if_neg (by omega)]

/-- An element that begins with encoded fields is taken apart. -/
theorem mmParseRsnInformation_encode
    (first : ies.firstOfType mmRsnInformationIeType 0 = some o) (whole : ies.Whole o)
    {fields : RsnFields} (payload : ies.payload o = fields.encode ++ rest) :
    mmParseRsnInformation ies = some (0, fields.output) := by
  have bytes := length_payload whole
  have byte := ies.lengthAt_lt o
  simp only [payload, RsnFields.encode, encodeSuites, List.length_append, length_packLe,
    length_encodeSuite, length_flatMap_encodeSuite] at bytes
  simp only [RsnFields.encode, List.append_assoc] at payload
  obtain ⟨header, here⟩ := mmParseRsnInformation_of_le first whole payload (by
    rw [List.length_append, encodeSuites, List.length_append, length_packLe]
    omega)
  obtain ⟨pairwise, here⟩ := parseSuiteList_of_le whole (by omega) here rfl (by
    rw [List.length_append, encodeSuites, List.length_append, length_packLe]
    omega)
  obtain ⟨akm, here⟩ := parseSuiteList_of_le whole (by omega) here rfl (by
    rw [List.length_append, length_packLe]
    omega)
  obtain ⟨capabilities, -⟩ := At.readU16 whole fields.rsnCapabilities.toNat_lt here
  rw [header]
  simp only [parseRsnLists, pairwise, akm, capabilities, Option.bind_eq_bind, Option.bind_some,
    UInt16.ofNat_toNat]
  rfl

theorem exists_suites {n : ℕ} {bytes : List UInt8} (long : 4 * n ≤ bytes.length) :
    ∃ suites : List UInt32, suites.length = n ∧
      ∃ rest, bytes = suites.flatMap encodeSuite ++ rest := by
  induction n generalizing bytes with
  | zero => exact ⟨[], rfl, bytes, rfl⟩
  | succ n ih =>
      obtain ⟨word, bound, behind, rfl⟩ := exists_packBe (show 4 ≤ bytes.length by omega)
      rw [List.length_append, length_packBe] at long
      obtain ⟨suites, length, rest, rfl⟩ := ih (show 4 * n ≤ behind.length by omega)
      refine ⟨UInt32.ofNat word :: suites, by rw [List.length_cons, length], rest, ?_⟩
      rw [List.flatMap_cons, encodeSuite, UInt32.toNat_ofNat_of_lt' bound, List.append_assoc]

theorem exists_header {bytes : List UInt8} (long : 8 ≤ bytes.length) :
    ∃ (version : UInt16) (group : UInt32) (rest : List UInt8),
      bytes = packLe 2 version.toNat ++ (encodeSuite group ++ rest) ∧ 2 ≤ rest.length := by
  obtain ⟨version, versionLt, behind, rfl⟩ :=
    exists_packLe (show 2 ≤ bytes.length by omega)
  rw [List.length_append, length_packLe] at long
  obtain ⟨group, groupLt, rest, rfl⟩ := exists_packBe (show 4 ≤ behind.length by omega)
  rw [List.length_append, length_packBe] at long
  refine ⟨UInt16.ofNat version, UInt32.ofNat group, rest, ?_, by omega⟩
  rw [encodeSuite, UInt16.toNat_ofNat_of_lt' versionLt, UInt32.toNat_ofNat_of_lt' groupLt]

/-- The bytes begin with a counted list and room behind it, or the count is too high. -/
theorem exists_suiteList {bytes : List UInt8} (long : 2 ≤ bytes.length) :
    (∃ suites rest, suites.length < 65536 ∧ bytes = encodeSuites suites ++ rest ∧
        2 ≤ rest.length) ∨
      ∃ n < 65536, ∃ rest, bytes = packLe 2 n ++ rest ∧ rest.length < 4 * n + 2 := by
  obtain ⟨n, bound, behind, rfl⟩ := exists_packLe long
  by_cases fits : 4 * n + 2 ≤ behind.length
  · obtain ⟨suites, rfl, rest, rfl⟩ := exists_suites (show 4 * n ≤ behind.length by omega)
    rw [List.length_append, length_flatMap_encodeSuite] at fits
    exact .inl ⟨suites, rest, bound, by rw [encodeSuites, List.append_assoc], by omega⟩
  · exact .inr ⟨n, bound, behind, rfl, Nat.not_le.mp fits⟩

/-- A whole element begins with encoded fields or is refused. -/
theorem encode_or_refused (first : ies.firstOfType mmRsnInformationIeType 0 = some o)
    (whole : ies.Whole o) :
    (∃ (fields : RsnFields) (rest : List UInt8), ies.payload o = fields.encode ++ rest) ∨
      ∃ output, mmParseRsnInformation ies = some (-2, output) := by
  by_cases short : (ies.payload o).length < 8
  · exact .inr ⟨_, mmParseRsnInformation_of_lt first whole short⟩
  obtain ⟨version, group, lists, payload, long⟩ := exists_header (Nat.not_lt.mp short)
  obtain ⟨header, here⟩ := mmParseRsnInformation_of_le first whole payload long
  rcases exists_suiteList long with
    ⟨pairwise, others, pairwiseLt, rfl, more⟩ | ⟨n, bound, behind, rfl, tooHigh⟩
  · obtain ⟨parsed, here⟩ := parseSuiteList_of_le whole pairwiseLt here rfl more
    rcases exists_suiteList more with
      ⟨akm, tail, -, rfl, last⟩ | ⟨m, bound, behind, rfl, tooHigh⟩
    · obtain ⟨capabilities, capabilitiesLt, rest, rfl⟩ := exists_packLe last
      refine .inl ⟨⟨version, group, pairwise, akm, UInt16.ofNat capabilities⟩, rest, ?_⟩
      rw [payload]
      simp only [RsnFields.encode, List.append_assoc, UInt16.toNat_ofNat_of_lt' capabilitiesLt]
    · obtain ⟨num, refused⟩ := parseSuiteList_of_lt whole bound here rfl tooHigh
      right
      simp only [header, parseRsnLists, parsed, refused, Option.bind_eq_bind, Option.bind_some]
      exact ⟨_, rfl⟩
  · obtain ⟨num, refused⟩ := parseSuiteList_of_lt whole bound here rfl tooHigh
    right
    simp only [header, parseRsnLists, refused, Option.bind_eq_bind, Option.bind_some]
    exact ⟨_, rfl⟩

theorem parsesRsn_of_encode (first : ies.firstOfType mmRsnInformationIeType 0 = some o)
    (whole : ies.Whole o) {fields : RsnFields} (payload : ies.payload o = fields.encode ++ rest) :
    ParsesRsn ies 0 fields.output := by
  refine ⟨⟨fun _ => ⟨o, first, whole, fields, rest, payload⟩, fun _ => rfl⟩, ?_⟩
  intro p firstP wholeP others restP payloadP
  have parsed := mmParseRsnInformation_encode first whole payload
  have again := mmParseRsnInformation_encode firstP wholeP payloadP
  exact congrArg Prod.snd (Option.some.inj (parsed.symm.trans again))

/-- Where the result is not zero, no fields are encoded. -/
theorem parsesRsn_of_ne {ret : ℤ} {output : MmRsnInformation}
    (parsed : mmParseRsnInformation ies = some (ret, output)) (refused : ret ≠ 0) :
    ParsesRsn ies ret output := by
  have none {p : ℕ} (first : ies.firstOfType mmRsnInformationIeType 0 = some p)
      (whole : ies.Whole p) (fields : RsnFields) (rest : List UInt8) :
      ies.payload p ≠ fields.encode ++ rest := by
    intro payload
    have again := parsed.symm.trans (mmParseRsnInformation_encode first whole payload)
    exact refused (congrArg Prod.fst (Option.some.inj again))
  refine ⟨⟨fun zero => (refused zero).elim, ?_⟩, ?_⟩
  · rintro ⟨p, first, whole, fields, rest, payload⟩
    exact (none first whole fields rest payload).elim
  · intro p first whole fields rest payload
    exact (none first whole fields rest payload).elim

end

/-- **The RSN element is taken apart.** Every read stays inside the element and no length
underflows, so that there is a result, and result and output are right. -/
theorem mmParseRsnInformation_correct (ies : IeBuffer) :
    ∃ ret output, mmParseRsnInformation ies = some (ret, output) ∧ ParsesRsn ies ret output := by
  have found := mmFindIeFromOffset_eq mmRsnInformationIeType (Nat.zero_le (ies.len + 255))
  by_cases negative : ies.result (ies.firstOfType mmRsnInformationIeType 0) < 0
  · have parsed : mmParseRsnInformation ies =
        some (ies.result (ies.firstOfType mmRsnInformationIeType 0), .zero) := by
      simp only [mmParseRsnInformation, found, Option.bind_eq_bind, Option.bind_some]
      rw [if_pos negative]
      rfl
    exact ⟨_, _, parsed, parsesRsn_of_ne parsed (Int.ne_of_lt negative)⟩
  · obtain ⟨o, first, whole, -⟩ := exists_of_result rfl negative
    rcases encode_or_refused first whole with ⟨fields, rest, payload⟩ | ⟨output, refused⟩
    · exact ⟨0, fields.output, mmParseRsnInformation_encode first whole payload,
        parsesRsn_of_encode first whole payload⟩
    · exact ⟨-2, output, refused, parsesRsn_of_ne refused (by decide)⟩

-- A third pairwise suite is passed over.
example :
    mmParseRsnInformation
      ⟨48 :: 28 :: (RsnFields.mk 1 0x000fac04 [0x000fac04, 0x000fac02, 0x000fac08] [0x000fac02]
        0x000c).encode ++ [0, 0, 0, 0], by decide⟩ =
      some (0, ⟨0x000fac04, ⟨[0x000fac04, 0x000fac02], rfl⟩, ⟨[0x000fac02, 0], rfl⟩, 2, 1, 1,
        0x000c⟩) := by
  decide +kernel

end HalowBridge.Mmutils
