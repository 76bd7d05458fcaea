import Mathlib.Data.List.Basic
import Mathlib.Data.Int.Notation

/-!
# Searching information elements

The information elements of a management frame come from the air: a type, the length of the payload
and the payload, one element behind the other, and nothing that says that the lengths are true.
`mm_find_ie_from_offset` walks over them, and `mm_find_vendor_specific_ie_from_offset` searches
again behind every vendor element with another ID.

The model reads the buffer through checks, and a read outside it has no result. `chain` is the
chain of elements as a specification. `mmFindIeFromOffset_correct` and
`mmFindVendorSpecificIeFromOffset_correct` say that both functions return what a single pass over
the chain finds, and so that they end and stay inside the buffer.
-/

namespace HalowBridge.Mmutils

/-- The buffer with the elements. No object of the target has more than `INT32_MAX` bytes. -/
structure IeBuffer where
  bytes : List UInt8
  length_le : bytes.length ≤ 2147483647

/-- The conversion of an unsigned number to `int`. -/
def toInt (n : ℕ) : ℤ := Int.bmod n 4294967296

namespace IeBuffer

variable (ies : IeBuffer)

/-- `ies_len` -/
def len : ℕ := ies.bytes.length

/-- The first byte of the header of an element. -/
def typeAt (offset : ℕ) : UInt8 := ies.bytes.getD offset 0

/-- The second byte of the header of an element. -/
def lengthAt (offset : ℕ) : ℕ := (ies.bytes.getD (offset + 1) 0).toNat

theorem len_le : ies.len ≤ 2147483647 := ies.length_le

theorem lengthAt_lt (offset : ℕ) : ies.lengthAt offset < 256 := UInt8.toNat_lt _

end IeBuffer

/-! ## The two searches -/

/-- `mm_find_ie_from_offset` -/
def mmFindIeFromOffset (ies : IeBuffer) (searchOffset : ℕ) (ieType : UInt8) : Option ℤ :=
  if (searchOffset + 2) % 4294967296 ≤ ies.len then
    -- Both bytes of the header are read.
    if searchOffset + 1 < ies.len then
      if ies.typeAt searchOffset = ieType then
        if (searchOffset + 2 + ies.lengthAt searchOffset) % 4294967296 > ies.len then some (-2)
        else some (toInt searchOffset)
      else
        mmFindIeFromOffset ies ((searchOffset + 2 + ies.lengthAt searchOffset) % 4294967296) ieType
    else none
  else some (-1)
termination_by ies.len - searchOffset
decreasing_by
  have := ies.len_le
  have := ies.lengthAt_lt searchOffset
  omega

def mmVendorSpecificIeType : UInt8 := 221

theorem toInt_of_le {n : ℕ} (le : n ≤ 2147483647) : toInt n = n :=
  Int.bmod_eq_of_le (by omega) (by omega)

/-- What is found lies behind the start of the search and inside the buffer. -/
theorem bounds_of_mmFindIeFromOffset {ies : IeBuffer} {searchOffset : ℕ} {ieType : UInt8}
    {offset : ℤ} (found : mmFindIeFromOffset ies searchOffset ieType = some offset)
    (nonneg : ¬ offset < 0) : searchOffset ≤ offset.toNat ∧ offset.toNat + 1 < ies.len := by
  have len_le := ies.len_le
  induction searchOffset using mmFindIeFromOffset.induct ies ieType with
  | case1 searchOffset header inside same long =>
      rw [mmFindIeFromOffset, if_pos header, if_pos inside, if_pos same, if_pos long] at found
      obtain rfl := Option.some.inj found
      exact absurd (by decide) nonneg
  | case2 searchOffset header inside same short =>
      rw [mmFindIeFromOffset, if_pos header, if_pos inside, if_pos same, if_neg short,
        toInt_of_le (by omega)] at found
      obtain rfl := Option.some.inj found
      exact ⟨Nat.le_refl _, inside⟩
  | case3 searchOffset header inside other ih =>
      have length := ies.lengthAt_lt searchOffset
      rw [mmFindIeFromOffset, if_pos header, if_pos inside, if_neg other] at found
      have later := ih found
      omega
  | case4 searchOffset header outside =>
      rw [mmFindIeFromOffset, if_pos header, if_neg outside] at found
      cases found
  | case5 searchOffset end_ =>
      rw [mmFindIeFromOffset, if_neg end_] at found
      obtain rfl := Option.some.inj found
      exact absurd (by decide) nonneg

/-- `memcmp(id, ies + start, id_len) == 0` -/
def memcmpEq (ies : IeBuffer) (id : List UInt8) (start : ℕ) : Option Bool :=
  if start + id.length ≤ ies.len then some ((ies.bytes.drop start).take id.length = id) else none

/-- The condition for a vendor element to match. The ID is compared only where the element is long
enough. -/
def vendorMatches (ies : IeBuffer) (id : List UInt8) (offset : ℕ) : Option Bool :=
  if ies.typeAt offset = mmVendorSpecificIeType ∧ id.length ≤ ies.lengthAt offset then
    memcmpEq ies id (offset + 2)
  else some false

/-- `mm_find_vendor_specific_ie_from_offset` -/
def mmFindVendorSpecificIeFromOffset (ies : IeBuffer) (id : List UInt8) (searchOffset : ℕ) :
    Option ℤ :=
  if (searchOffset + id.length) % 4294967296 ≤ ies.len then
    match found : mmFindIeFromOffset ies searchOffset mmVendorSpecificIeType with
    | none => none
    | some offset =>
        if negative : offset < 0 then some offset
        -- Both bytes of the header are read.
        else if offset.toNat + 1 < ies.len then
          match vendorMatches ies id offset.toNat with
          | none => none
          | some true =>
              if (offset.toNat + 2 + ies.lengthAt offset.toNat) % 4294967296 > ies.len then
                some (-2)
              else some offset
          | some false =>
              mmFindVendorSpecificIeFromOffset ies id
                ((2 + ies.lengthAt offset.toNat + offset.toNat) % 4294967296)
        else none
  else some (-1)
termination_by ies.len - searchOffset
decreasing_by
  have := ies.len_le
  have := ies.lengthAt_lt offset.toNat
  have := bounds_of_mmFindIeFromOffset found negative
  omega

/-! ## The chain of elements -/

namespace IeBuffer

variable (ies : IeBuffer)

/-- The offsets of the elements from `offset` on, as long as there is room for a header. -/
def chain (offset : ℕ) : List ℕ :=
  if offset + 2 ≤ ies.len then offset :: chain (offset + 2 + ies.lengthAt offset) else []
termination_by ies.len - offset

/-- The element lies wholly inside the buffer. -/
def Whole (offset : ℕ) : Prop := offset + 2 + ies.lengthAt offset ≤ ies.len

instance (offset : ℕ) : Decidable (ies.Whole offset) := inferInstanceAs (Decidable (_ ≤ _))

def payload (offset : ℕ) : List UInt8 := (ies.bytes.drop (offset + 2)).take (ies.lengthAt offset)

/-- The first element of the chain with the type. -/
def firstOfType (ieType : UInt8) (offset : ℕ) : Option ℕ :=
  (ies.chain offset).find? fun o => ies.typeAt o = ieType

/-- What a search should return for the first match. -/
def result : Option ℕ → ℤ
  | none => -1
  | some o => if ies.Whole o then o else -2

/-- A whole vendor element whose payload begins with the ID. -/
def HasVendorId (id : List UInt8) (offset : ℕ) : Prop :=
  ies.typeAt offset = mmVendorSpecificIeType ∧ ies.Whole offset ∧ id <+: ies.payload offset

instance (id : List UInt8) (offset : ℕ) : Decidable (ies.HasVendorId id offset) :=
  inferInstanceAs (Decidable (_ ∧ _))

variable {ies} {offset : ℕ}

theorem chain_of_le (header : offset + 2 ≤ ies.len) :
    ies.chain offset = offset :: ies.chain (offset + 2 + ies.lengthAt offset) := by
  rw [chain, if_pos header]

theorem chain_of_lt (short : ies.len < offset + 2) : ies.chain offset = [] := by
  rw [chain, if_neg (Nat.not_le.mpr short)]

/-- An element of the chain lies behind its start and has a header. -/
theorem bounds_of_mem_chain {o : ℕ} (member : o ∈ ies.chain offset) :
    offset ≤ o ∧ o + 2 ≤ ies.len := by
  induction offset using chain.induct ies with
  | case1 offset header ih =>
      rw [chain_of_le header] at member
      rcases List.mem_cons.mp member with rfl | later
      · exact ⟨Nat.le_refl _, header⟩
      · have := ih later
        omega
  | case2 offset short =>
      rw [chain_of_lt (Nat.not_le.mp short)] at member
      cases member

theorem pairwise_chain : (ies.chain offset).Pairwise (· < ·) := by
  induction offset using chain.induct ies with
  | case1 offset header ih =>
      rw [chain_of_le header, List.pairwise_cons]
      refine ⟨fun o later => ?_, ih⟩
      have := bounds_of_mem_chain later
      omega
  | case2 offset short =>
      rw [chain_of_lt (Nat.not_le.mp short)]
      exact List.Pairwise.nil

/-- Behind an element of the chain, the chain goes on. -/
theorem chain_after {before after : List ℕ} {o : ℕ}
    (split : ies.chain offset = before ++ o :: after) :
    after = ies.chain (o + 2 + ies.lengthAt o) := by
  induction offset using chain.induct ies generalizing before with
  | case1 offset header ih =>
      rw [chain_of_le header] at split
      cases before with
      | nil =>
          obtain ⟨rfl, rest⟩ := List.cons.inj split
          exact rest.symm
      | cons first before => exact ih (List.cons.inj split).2
  | case2 offset short =>
      rw [chain_of_lt (Nat.not_le.mp short)] at split
      cases before <;> cases split

/-- The chain around the first match. -/
theorem exists_split_of_find? {p : ℕ → Bool} {o : ℕ} (found : (ies.chain offset).find? p = some o) :
    ∃ before, ies.chain offset = before ++ o :: ies.chain (o + 2 + ies.lengthAt o) ∧
      p o = true ∧ ∀ x ∈ before, p x = false := by
  obtain ⟨holds, before, after, split, fails⟩ := List.find?_eq_some_iff_append.mp found
  refine ⟨before, ?_, holds, fun x member => by simpa using fails x member⟩
  rw [← chain_after split, split]

end IeBuffer

/-! ## One search -/

section

variable {ies : IeBuffer} {searchOffset : ℕ} {ieType : UInt8}

/-- The loop without wrap-around. -/
theorem mmFindIeFromOffset_of_le (header : searchOffset + 2 ≤ ies.len) :
    mmFindIeFromOffset ies searchOffset ieType =
      if ies.typeAt searchOffset = ieType then
        if ies.Whole searchOffset then some ↑searchOffset else some (-2)
      else mmFindIeFromOffset ies (searchOffset + 2 + ies.lengthAt searchOffset) ieType := by
  have len_le := ies.len_le
  have length := ies.lengthAt_lt searchOffset
  rw [mmFindIeFromOffset, if_pos (by omega), if_pos (by omega), Nat.mod_eq_of_lt (by omega),
    toInt_of_le (by omega)]
  split
  · by_cases whole : ies.Whole searchOffset
    · rw [if_pos whole, if_neg (Nat.not_lt.mpr whole)]
    · rw [if_neg whole, if_pos (Nat.not_le.mp whole)]
  · rfl

theorem mmFindIeFromOffset_of_lt (short : ies.len < searchOffset + 2)
    (fits : searchOffset + 2 < 4294967296) :
    mmFindIeFromOffset ies searchOffset ieType = some (-1) := by
  rw [mmFindIeFromOffset, if_neg (by omega)]

theorem mmFindIeFromOffset_eq (ieType : UInt8) (fits : searchOffset ≤ ies.len + 255) :
    mmFindIeFromOffset ies searchOffset ieType =
      some (ies.result (ies.firstOfType ieType searchOffset)) := by
  have len_le := ies.len_le
  induction searchOffset using IeBuffer.chain.induct ies with
  | case1 searchOffset header ih =>
      have length := ies.lengthAt_lt searchOffset
      rw [mmFindIeFromOffset_of_le header, IeBuffer.firstOfType, IeBuffer.chain_of_le header]
      by_cases same : ies.typeAt searchOffset = ieType
      · rw [if_pos same, List.find?_cons_of_pos (by simpa using same), IeBuffer.result]
        split <;> rfl
      · rw [if_neg same, List.find?_cons_of_neg (by simpa using same), ih (by omega)]
        rfl
  | case2 searchOffset short =>
      rw [mmFindIeFromOffset_of_lt (by omega) (by omega), IeBuffer.firstOfType,
        IeBuffer.chain_of_lt (by omega)]
      rfl

end

/-- What a caller finds who searches again behind every hit. -/
def findAll (ies : IeBuffer) (ieType : UInt8) (searchOffset : ℕ) : List ℕ :=
  match found : mmFindIeFromOffset ies searchOffset ieType with
  | none => []
  | some offset =>
      if negative : offset < 0 then []
      else offset.toNat :: findAll ies ieType (offset.toNat + 2 + ies.lengthAt offset.toNat)
termination_by ies.len - searchOffset
decreasing_by
  have := bounds_of_mmFindIeFromOffset found negative
  omega

theorem findAll_of_neg {ies : IeBuffer} {ieType : UInt8} {searchOffset : ℕ} {offset : ℤ}
    (found : mmFindIeFromOffset ies searchOffset ieType = some offset) (negative : offset < 0) :
    findAll ies ieType searchOffset = [] := by
  rw [findAll]
  split
  · rfl
  · next other result =>
      obtain rfl := Option.some.inj (found.symm.trans result)
      rw [dif_pos negative]

theorem findAll_of_hit {ies : IeBuffer} {ieType : UInt8} {searchOffset o : ℕ}
    (found : mmFindIeFromOffset ies searchOffset ieType = some ↑o) :
    findAll ies ieType searchOffset = o :: findAll ies ieType (o + 2 + ies.lengthAt o) := by
  rw [findAll]
  split
  · next result => rw [found] at result; cases result
  · next other result =>
      obtain rfl := Option.some.inj (found.symm.trans result)
      rw [dif_neg (by omega), Int.toNat_natCast]

/-- A result that is an offset is that of the first element, which is whole. -/
theorem exists_of_result {ies : IeBuffer} {first : Option ℕ} {offset : ℤ}
    (result : ies.result first = offset) (nonneg : ¬ offset < 0) :
    ∃ o, first = some o ∧ ies.Whole o ∧ offset = ↑o := by
  cases first with
  | none => exact absurd result (by rw [IeBuffer.result]; omega)
  | some o =>
      rw [IeBuffer.result] at result
      by_cases whole : ies.Whole o
      · rw [if_pos whole] at result
        exact ⟨o, rfl, whole, result.symm⟩
      · rw [if_neg whole] at result
        omega

/-- The whole elements of the type, from the first one on. -/
theorem filter_chain_of_whole {ies : IeBuffer} {ieType : UInt8} {offset o : ℕ}
    (first : ies.firstOfType ieType offset = some o) (whole : ies.Whole o) :
    (ies.chain offset).filter (fun o => ies.typeAt o = ieType ∧ ies.Whole o) =
      o :: (ies.chain (o + 2 + ies.lengthAt o)).filter
        (fun o => ies.typeAt o = ieType ∧ ies.Whole o) := by
  obtain ⟨before, split, same, others⟩ := IeBuffer.exists_split_of_find? first
  have skipped : before.filter (fun o => ies.typeAt o = ieType ∧ ies.Whole o) = [] := by
    rw [List.filter_eq_nil_iff]
    intro x member kept
    exact of_decide_eq_false (others x member) (of_decide_eq_true kept).1
  rw [split, List.filter_append, skipped, List.nil_append, List.filter_cons_of_pos]
  exact decide_eq_true ⟨of_decide_eq_true same, whole⟩

/-- Without a hit there is none: an element that is not whole is the last one. -/
theorem filter_chain_of_neg {ies : IeBuffer} {ieType : UInt8} {offset : ℕ}
    (negative : ies.result (ies.firstOfType ieType offset) < 0) :
    (ies.chain offset).filter (fun o => ies.typeAt o = ieType ∧ ies.Whole o) = [] := by
  rw [List.filter_eq_nil_iff]
  intro x member kept
  obtain ⟨same, whole⟩ := of_decide_eq_true kept
  cases first : ies.firstOfType ieType offset with
  | none => exact absurd same (by simpa using List.find?_eq_none.mp first x member)
  | some o =>
      rw [first, IeBuffer.result] at negative
      have overrun : ¬ ies.Whole o := fun whole => by
        rw [if_pos whole] at negative
        omega
      obtain ⟨before, split, -, others⟩ := IeBuffer.exists_split_of_find? first
      rw [split, IeBuffer.chain_of_lt (by unfold IeBuffer.Whole at overrun; omega)] at member
      rcases List.mem_append.mp member with earlier | here
      · exact of_decide_eq_false (others x earlier) same
      · rw [List.mem_singleton.mp here] at whole
        exact overrun whole

/-- Searching again and again enumerates the whole elements of the type. -/
theorem findAll_eq {ies : IeBuffer} {ieType : UInt8} {searchOffset : ℕ}
    (inside : searchOffset ≤ ies.len) :
    findAll ies ieType searchOffset =
      (ies.chain searchOffset).filter fun o => ies.typeAt o = ieType ∧ ies.Whole o := by
  induction searchOffset using findAll.induct ies ieType with
  | case1 searchOffset missing =>
      rw [mmFindIeFromOffset_eq ieType (by omega)] at missing
      cases missing
  | case2 searchOffset offset found negative =>
      rw [findAll_of_neg found negative]
      rw [mmFindIeFromOffset_eq ieType (by omega)] at found
      obtain rfl := Option.some.inj found
      exact (filter_chain_of_neg negative).symm
  | case3 searchOffset offset found nonneg ih =>
      have result := found
      rw [mmFindIeFromOffset_eq ieType (by omega)] at result
      obtain ⟨o, first, whole, rfl⟩ := exists_of_result (Option.some.inj result) nonneg
      rw [Int.toNat_natCast] at ih
      rw [findAll_of_hit found, filter_chain_of_whole first whole, ih whole]

/-- **A search returns what a pass over the chain of elements finds first**, and searching again
behind every hit finds the whole elements of the type, each of them once and in order. -/
theorem mmFindIeFromOffset_correct (ies : IeBuffer) (ieType : UInt8) (searchOffset : ℕ)
    (inside : searchOffset ≤ ies.len) :
    mmFindIeFromOffset ies searchOffset ieType =
        some (ies.result (ies.firstOfType ieType searchOffset)) ∧
      findAll ies ieType searchOffset =
        (ies.chain searchOffset).filter (fun o => ies.typeAt o = ieType ∧ ies.Whole o) ∧
      (findAll ies ieType searchOffset).Pairwise (· < ·) := by
  refine ⟨mmFindIeFromOffset_eq ieType (by omega), findAll_eq inside, ?_⟩
  rw [findAll_eq inside]
  exact IeBuffer.pairwise_chain.filter _

/-- Two vendor elements around another one; what follows the second hit is cut off. -/
theorem mmFindIeFromOffset_correct_cutOff :
    mmFindIeFromOffset ⟨[221, 1, 7, 48, 0, 221, 0, 221, 9, 1], by decide⟩ 3 221 = some 5 ∧
      findAll ⟨[221, 1, 7, 48, 0, 221, 0, 221, 9, 1], by decide⟩ 221 0 = [0, 5] := by
  have later := mmFindIeFromOffset_correct ⟨[221, 1, 7, 48, 0, 221, 0, 221, 9, 1], by decide⟩ 221 3
    (by decide)
  have all := mmFindIeFromOffset_correct ⟨[221, 1, 7, 48, 0, 221, 0, 221, 9, 1], by decide⟩ 221 0
    (by decide)
  exact ⟨later.1.trans (by decide +kernel), all.2.1.trans (by decide +kernel)⟩

/-! ## Vendor elements -/

section

variable {ies : IeBuffer} {id : List UInt8} {searchOffset o : ℕ}

theorem vendorMatches_eq (vendor : ies.typeAt o = mmVendorSpecificIeType) (whole : ies.Whole o) :
    vendorMatches ies id o = some (decide (ies.HasVendorId id o)) := by
  rw [vendorMatches]
  by_cases fits : id.length ≤ ies.lengthAt o
  · have same : (ies.bytes.drop (o + 2)).take id.length = id ↔ ies.HasVendorId id o := by
      have cut : (ies.payload o).take id.length = (ies.bytes.drop (o + 2)).take id.length := by
        rw [IeBuffer.payload, List.take_take, Nat.min_eq_left fits]
      rw [IeBuffer.HasVendorId, List.prefix_iff_eq_take, cut]
      exact ⟨fun same => ⟨vendor, whole, same.symm⟩, fun holds => holds.2.2.symm⟩
    have inside : o + 2 + id.length ≤ ies.len := by
      rw [IeBuffer.Whole] at whole
      omega
    rw [if_pos ⟨vendor, fits⟩, memcmpEq, if_pos inside, decide_eq_decide.mpr same]
  · have short : ¬ ies.HasVendorId id o := by
      rintro ⟨-, -, begins⟩
      have le := begins.length_le
      rw [IeBuffer.payload, List.length_take] at le
      omega
    rw [if_neg fun both => fits both.2, decide_eq_false short]

/-- No element matches behind the exit of the outer loop. -/
theorem le_of_hasVendorId (holds : ies.HasVendorId id o) : o + 2 + id.length ≤ ies.len := by
  obtain ⟨-, whole, begins⟩ := holds
  have le := begins.length_le
  rw [IeBuffer.payload, List.length_take] at le
  rw [IeBuffer.Whole] at whole
  omega

theorem vendorSearch_of_neg
    (more : (searchOffset + id.length) % 4294967296 ≤ ies.len) {offset : ℤ}
    (found : mmFindIeFromOffset ies searchOffset mmVendorSpecificIeType = some offset)
    (negative : offset < 0) :
    mmFindVendorSpecificIeFromOffset ies id searchOffset = some offset := by
  rw [mmFindVendorSpecificIeFromOffset, if_pos more]
  split
  · next result => rw [found] at result; cases result
  · next other result =>
      obtain rfl := Option.some.inj (found.symm.trans result)
      rw [dif_pos negative]

theorem vendorSearch_of_hit
    (more : (searchOffset + id.length) % 4294967296 ≤ ies.len)
    (found : mmFindIeFromOffset ies searchOffset mmVendorSpecificIeType = some ↑o)
    (vendor : ies.typeAt o = mmVendorSpecificIeType) (whole : ies.Whole o) :
    mmFindVendorSpecificIeFromOffset ies id searchOffset =
      if ies.HasVendorId id o then some ↑o
      else mmFindVendorSpecificIeFromOffset ies id (o + 2 + ies.lengthAt o) := by
  have len_le := ies.len_le
  have inside := whole
  rw [IeBuffer.Whole] at inside
  rw [mmFindVendorSpecificIeFromOffset, if_pos more]
  split
  · next result => rw [found] at result; cases result
  · next other result =>
      obtain rfl := Option.some.inj (found.symm.trans result)
      rw [dif_neg (by omega)]
      simp only [Int.toNat_natCast]
      rw [if_pos (by omega), vendorMatches_eq vendor whole]
      by_cases matching : ies.HasVendorId id o
      · rw [if_pos matching, decide_eq_true matching]
        exact if_neg (by omega)
      · have next : (2 + ies.lengthAt o + o) % 4294967296 = o + 2 + ies.lengthAt o := by omega
        rw [if_neg matching, decide_eq_false matching]
        simp only [next]

/-- Without a hit of the inner search there is no match. -/
theorem find?_vendor_of_neg
    (negative : ies.result (ies.firstOfType mmVendorSpecificIeType searchOffset) < 0) :
    (ies.chain searchOffset).find? (ies.HasVendorId id ·) = none := by
  rw [List.find?_eq_none]
  intro x member holds
  obtain ⟨vendor, whole, -⟩ := of_decide_eq_true holds
  have empty := List.filter_eq_nil_iff.mp (filter_chain_of_neg negative) x member
  exact empty (decide_eq_true ⟨vendor, whole⟩)

/-- A vendor element with another ID hides nothing. -/
theorem find?_vendor_of_hit
    (first : ies.firstOfType mmVendorSpecificIeType searchOffset = some o) :
    (ies.chain searchOffset).find? (ies.HasVendorId id ·) =
      if ies.HasVendorId id o then some o
      else (ies.chain (o + 2 + ies.lengthAt o)).find? (ies.HasVendorId id ·) := by
  obtain ⟨before, split, -, others⟩ := IeBuffer.exists_split_of_find? first
  have skipped : before.find? (ies.HasVendorId id ·) = none := by
    rw [List.find?_eq_none]
    intro x member holds
    exact of_decide_eq_false (others x member) (of_decide_eq_true holds).1
  rw [split, List.find?_append, skipped, Option.none_or]
  by_cases matching : ies.HasVendorId id o
  · rw [if_pos matching, List.find?_cons_of_pos]
    exact decide_eq_true matching
  · rw [if_neg matching, List.find?_cons_of_neg]
    rwa [decide_eq_true_iff]

end

/-- **The search for a vendor element returns the first one with the ID**, and an offset for nothing
else. -/
theorem mmFindVendorSpecificIeFromOffset_correct (ies : IeBuffer) (id : List UInt8)
    (searchOffset : ℕ) (inside : searchOffset ≤ ies.len) :
    ∃ r, mmFindVendorSpecificIeFromOffset ies id searchOffset = some r ∧
      ∀ o : ℕ, r = ↑o ↔ (ies.chain searchOffset).find? (ies.HasVendorId id ·) = some o := by
  have len_le := ies.len_le
  induction rest : ies.len - searchOffset using Nat.strongRecOn generalizing searchOffset with
  | _ rest' ih =>
      subst rest
      by_cases more : (searchOffset + id.length) % 4294967296 ≤ ies.len
      · have found := mmFindIeFromOffset_eq mmVendorSpecificIeType
          (show searchOffset ≤ ies.len + 255 by omega)
        by_cases negative :
            ies.result (ies.firstOfType mmVendorSpecificIeType searchOffset) < 0
        · refine ⟨_, vendorSearch_of_neg more found negative, fun o => ?_⟩
          rw [find?_vendor_of_neg negative]
          exact iff_of_false (by omega) (by simp)
        · obtain ⟨o, first, whole, result⟩ := exists_of_result rfl negative
          have chosen := List.find?_some first
          have vendor := of_decide_eq_true chosen
          rw [result] at found
          rw [vendorSearch_of_hit more found vendor whole, find?_vendor_of_hit first]
          by_cases matching : ies.HasVendorId id o
          · rw [if_pos matching, if_pos matching]
            refine ⟨_, rfl, fun other => ?_⟩
            rw [Int.natCast_inj, Option.some_inj]
          · have behind := (IeBuffer.bounds_of_mem_chain (List.mem_of_find?_eq_some first)).1
            rw [if_neg matching, if_neg matching]
            rw [IeBuffer.Whole] at whole
            exact ih (ies.len - (o + 2 + ies.lengthAt o)) (by omega) _ whole rfl
      · refine ⟨-1, by rw [mmFindVendorSpecificIeFromOffset, if_neg more], fun o => ?_⟩
        refine iff_of_false (by omega) fun first => ?_
        have chosen := List.find?_some first
        have holds := of_decide_eq_true chosen
        have behind := (IeBuffer.bounds_of_mem_chain (List.mem_of_find?_eq_some first)).1
        have last := le_of_hasVendorId holds
        omega

/-- An element with another ID, one that is shorter than the ID, and the one that was looked for. -/
theorem mmFindVendorSpecificIeFromOffset_correct_third :
    ∃ r, mmFindVendorSpecificIeFromOffset
        ⟨[221, 2, 5, 6, 221, 1, 5, 0, 0, 221, 3, 5, 7, 8], by decide⟩ [5, 7] 0 = some r ∧
      r = 9 := by
  obtain ⟨r, found, first⟩ := mmFindVendorSpecificIeFromOffset_correct
    ⟨[221, 2, 5, 6, 221, 1, 5, 0, 0, 221, 3, 5, 7, 8], by decide⟩ [5, 7] 0
    (by decide)
  exact ⟨r, found, (first 9).mpr (by decide +kernel)⟩

end HalowBridge.Mmutils
