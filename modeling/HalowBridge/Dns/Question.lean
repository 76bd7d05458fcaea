import HalowBridge.Dns.Message
import Mathlib.Data.List.Flatten

/-!
# The length of the first question

`dns_question_len` walks over the labels of QNAME. It never looks behind the received bytes
(`dnsQuestionLenChecked_eq`): the walk that stops at such a read is the walk of the source. It
counts a QNAME that ends with the zero byte rightly, but at a compression pointer it returns the
length of the pointer alone, so that the labels before it are left out of the length and of the
hash.

`readsQuestion_iff` says so for every name: the length is that of the question exactly when the name
ends with the zero byte or is a pointer and nothing else.
-/

namespace HalowBridge.Dns

/-! ## Reads -/

/-- A byte of the `len` received bytes, and nothing outside them. -/
def readByte (buf : List UInt8) (len i : ℕ) : Option UInt8 := if i < len then buf[i]? else none

/-- The walk of `dns_question_len` with every read checked. -/
def questionWalkChecked (buf : List UInt8) (len i : ℕ) : Option ℕ :=
  if i < len then
    match readByte buf len i with
    | none => none
    | some b =>
        if b = 0 then some ((i - 12) + 1 + 4)
        else if b &&& 0xC0 = 0xC0 then some (2 + 4)
        else questionWalkChecked buf len (i + (1 + b.toNat))
  else some 0
termination_by len - i

def dnsQuestionLenChecked (buf : List UInt8) (len : ℕ) : Option ℕ :=
  if len < 13 then some 0 else questionWalkChecked buf len 12

theorem readByte_of_lt {buf : List UInt8} {len i : ℕ} (le : len ≤ buf.length) (inside : i < len) :
    readByte buf len i = some (buf.getD i 0) := by
  rw [readByte, if_pos inside, List.getD_eq_getElem?_getD,
    List.getElem?_eq_getElem (Nat.lt_of_lt_of_le inside le), Option.getD_some]

theorem questionWalkChecked_eq {buf : List UInt8} {len : ℕ} (le : len ≤ buf.length) (i : ℕ) :
    questionWalkChecked buf len i = some (questionWalk buf len i) := by
  induction i using questionWalk.induct buf len with
  | case1 i inside zero =>
      rw [questionWalkChecked, questionWalk, readByte_of_lt le inside]
      simp only [inside, zero, ↓reduceIte]
  | case2 i inside zero pointer =>
      rw [questionWalkChecked, questionWalk, readByte_of_lt le inside]
      simp only [inside, zero, pointer, ↓reduceIte]
  | case3 i inside zero pointer ih =>
      rw [questionWalkChecked, questionWalk, readByte_of_lt le inside]
      simp only [inside, zero, pointer, ↓reduceIte, ih]
  | case4 i outside =>
      rw [questionWalkChecked, questionWalk]
      simp only [outside, ↓reduceIte]

/-- No read of `dns_question_len` leaves the received bytes. -/
theorem dnsQuestionLenChecked_eq {buf : List UInt8} {len : ℕ} (le : len ≤ buf.length) :
    dnsQuestionLenChecked buf len = some (dnsQuestionLen buf len) := by
  rw [dnsQuestionLenChecked, dnsQuestionLen]
  split
  · rfl
  · exact questionWalkChecked_eq le 12

/-! ## Names on the wire -/

/-- A label of a name. -/
structure Label where
  bytes : List UInt8
  nonempty : bytes ≠ []
  length_le : bytes.length ≤ 63

def Label.wire (label : Label) : List UInt8 := UInt8.ofNat label.bytes.length :: label.bytes

/-- How a name ends. -/
inductive NameEnd where
  | zero
  | pointer (high low : UInt8) (marked : high &&& 0xC0 = 0xC0)

def NameEnd.wire : NameEnd → List UInt8
  | .zero => [0]
  | .pointer high low _ => [high, low]

/-- The name of a question. -/
structure Qname where
  labels : List Label
  ending : NameEnd

def labelsWire (labels : List Label) : List UInt8 := labels.flatMap Label.wire

def Qname.wire (qname : Qname) : List UInt8 := labelsWire qname.labels ++ qname.ending.wire

/-- The hash of `dns_question_hash` over the bytes it is meant for. -/
def questionHash (bytes : List UInt8) : UInt32 :=
  bytes.foldl (fun h b => h * 31 + b.toUInt32) 0

/-- The length is that of QNAME, QTYPE and QCLASS, and a question that was received whole is hashed
whole. -/
structure ReadsQuestion (buf : List UInt8) (len : ℕ) (qname : Qname) (rest : List UInt8) :
    Prop where
  length : dnsQuestionLen buf len = qname.wire.length + 4
  hash : 12 + (qname.wire.length + 4) ≤ len →
    dnsQuestionHash buf len = questionHash (qname.wire ++ rest.take 4)

/-- The name is not a pointer behind labels. -/
def Qname.Plain (qname : Qname) : Prop := qname.labels = [] ∨ qname.ending = .zero

/-! ## The walk over a name -/

theorem getD_append_length (xs : List UInt8) (b : UInt8) (ys : List UInt8) :
    (xs ++ b :: ys).getD xs.length 0 = b := by
  rw [List.getD_eq_getElem?_getD, List.getElem?_append_right (Nat.le_refl _), Nat.sub_self]
  rfl

theorem Label.toNat_ofNat_length (label : Label) :
    (UInt8.ofNat label.bytes.length).toNat = label.bytes.length := by
  have := label.length_le
  rw [UInt8.toNat_ofNat']
  exact Nat.mod_eq_of_lt (by omega)

theorem Label.head_ne_zero (label : Label) : UInt8.ofNat label.bytes.length ≠ 0 := by
  intro zero
  have length := label.toNat_ofNat_length
  rw [zero] at length
  exact label.nonempty (List.eq_nil_of_length_eq_zero length.symm)

/-- A length byte is no pointer. -/
theorem Label.head_not_pointer (label : Label) :
    ¬ UInt8.ofNat label.bytes.length &&& 0xC0 = 0xC0 := by
  intro pointer
  have le : (UInt8.ofNat label.bytes.length &&& 0xC0).toNat ≤ label.bytes.length := by
    rw [UInt8.toNat_and, label.toNat_ofNat_length]
    exact Nat.and_le_left
  rw [pointer] at le
  exact absurd (Nat.le_trans le label.length_le) (by decide)

/-- The walk passes over the labels. -/
theorem questionWalk_labels (before : List UInt8) (labels : List Label) (after : List UInt8)
    {len : ℕ} (inside : before.length + (labelsWire labels).length < len) :
    questionWalk (before ++ (labelsWire labels ++ after)) len before.length =
      questionWalk (before ++ (labelsWire labels ++ after)) len
        (before.length + (labelsWire labels).length) := by
  induction labels generalizing before with
  | nil => rfl
  | cons label labels ih =>
      have split : labelsWire (label :: labels) = label.wire ++ labelsWire labels :=
        List.flatMap_cons
      have lengths : (labelsWire (label :: labels)).length =
          label.wire.length + (labelsWire labels).length := by
        rw [split, List.length_append]
      have joined : before ++ (labelsWire (label :: labels) ++ after) =
          before ++ label.wire ++ (labelsWire labels ++ after) := by
        rw [split, List.append_assoc, List.append_assoc]
      have here : (before ++ (labelsWire (label :: labels) ++ after)).getD before.length 0 =
          UInt8.ofNat label.bytes.length := by
        rw [split, Label.wire, List.cons_append, List.cons_append]
        exact getD_append_length _ _ _
      have next : before.length + (1 + (UInt8.ofNat label.bytes.length).toNat) =
          (before ++ label.wire).length := by
        rw [label.toNat_ofNat_length, List.length_append, Label.wire, List.length_cons]
        omega
      have rest := ih (before ++ label.wire) (by rw [List.length_append]; omega)
      rw [questionWalk, if_pos (by omega), here, if_neg label.head_ne_zero,
        if_neg label.head_not_pointer, next, joined, rest, lengths, List.length_append,
        Nat.add_assoc]

/-- The length returned is decided by the byte behind the labels. -/
theorem dnsQuestionLen_labels {header : List UInt8} (twelve : header.length = 12)
    (labels : List Label) (b : UInt8) (rest : List UInt8) {len : ℕ}
    (inside : 12 + (labelsWire labels).length < len) :
    dnsQuestionLen (header ++ (labelsWire labels ++ b :: rest)) len =
      if b = 0 then (labelsWire labels).length + 5
      else if b &&& 0xC0 = 0xC0 then 6
      else questionWalk (header ++ (labelsWire labels ++ b :: rest)) len
        (12 + (labelsWire labels).length + (1 + b.toNat)) := by
  have behind : header.length + (labelsWire labels).length < len := by omega
  have walked := questionWalk_labels header labels (b :: rest) behind
  have here : (header ++ (labelsWire labels ++ b :: rest)).getD
      (12 + (labelsWire labels).length) 0 = b := by
    rw [← twelve, ← List.length_append, ← List.append_assoc]
    exact getD_append_length _ _ _
  rw [twelve] at walked
  rw [dnsQuestionLen, if_neg (by omega), walked, questionWalk, if_pos inside, here,
    Nat.add_sub_cancel_left]

theorem pointer_ne_zero {high : UInt8} (marked : high &&& 0xC0 = 0xC0) : high ≠ 0 := by
  rintro rfl
  exact absurd marked (by decide)

/-- The length that is returned for a name. -/
theorem dnsQuestionLen_name {header : List UInt8} (twelve : header.length = 12) (qname : Qname)
    (rest : List UInt8) {len : ℕ} (inside : 12 + qname.wire.length ≤ len) :
    (qname.ending = .zero ∧
        dnsQuestionLen (header ++ (qname.wire ++ rest)) len = qname.wire.length + 4) ∨
      (∃ high low marked, qname.ending = .pointer high low marked ∧
        dnsQuestionLen (header ++ (qname.wire ++ rest)) len = 6 ∧
        qname.wire.length = (labelsWire qname.labels).length + 2) := by
  obtain ⟨labels, ending⟩ := qname
  cases ending with
  | zero =>
      have total : (Qname.wire ⟨labels, .zero⟩).length = (labelsWire labels).length + 1 :=
        List.length_append
      have behind : 12 + (labelsWire labels).length < len := by omega
      have walked := dnsQuestionLen_labels twelve labels 0 rest behind
      refine .inl ⟨rfl, ?_⟩
      rw [if_pos rfl] at walked
      rw [Qname.wire, List.append_assoc, List.length_append]
      exact walked
  | pointer high low marked =>
      have total : (Qname.wire ⟨labels, .pointer high low marked⟩).length =
          (labelsWire labels).length + 2 := List.length_append
      have behind : 12 + (labelsWire labels).length < len := by omega
      have walked := dnsQuestionLen_labels twelve labels high (low :: rest) behind
      refine .inr ⟨high, low, marked, rfl, ?_, total⟩
      rw [if_neg (pointer_ne_zero marked), if_pos marked] at walked
      rw [Qname.wire, List.append_assoc]
      exact walked

theorem labelsWire_eq_nil {labels : List Label} (empty : (labelsWire labels).length = 0) :
    labels = [] := by
  cases labels with
  | nil => rfl
  | cons label labels =>
      rw [labelsWire, List.flatMap_cons, List.length_append, Label.wire, List.length_cons] at empty
      omega

/-- The bytes behind the header are the question. -/
theorem take_question {header : List UInt8} (twelve : header.length = 12)
    (name rest : List UInt8) :
    ((header ++ (name ++ rest)).drop 12).take (name.length + 4) = name ++ rest.take 4 := by
  rw [← twelve, List.drop_left, List.take_length_add_append]

/-- **When the first question is read rightly**: no read leaves the received bytes, and the length
and the hash are those of the question if and only if its name is not a pointer behind labels. -/
theorem readsQuestion_iff (buf : List UInt8) {len : ℕ} (le : len ≤ buf.length) :
    dnsQuestionLenChecked buf len = some (dnsQuestionLen buf len) ∧
      ∀ (header : List UInt8) (qname : Qname) (rest : List UInt8),
        buf = header ++ (qname.wire ++ rest) → header.length = 12 →
        12 + qname.wire.length ≤ len →
        (ReadsQuestion buf len qname rest ↔ qname.Plain) := by
  refine ⟨dnsQuestionLenChecked_eq le, ?_⟩
  rintro header qname rest rfl twelve inside
  constructor
  · intro reads
    rcases dnsQuestionLen_name twelve qname rest inside with
      ⟨zero, -⟩ | ⟨high, low, marked, -, six, total⟩
    · exact .inr zero
    · have length := reads.length
      rw [six, total] at length
      exact .inl (labelsWire_eq_nil (by omega))
  · intro plain
    have length : dnsQuestionLen (header ++ (qname.wire ++ rest)) len = qname.wire.length + 4 := by
      rcases dnsQuestionLen_name twelve qname rest inside with
        ⟨-, length⟩ | ⟨high, low, marked, pointer, six, total⟩
      · exact length
      · rcases plain with none | zero
        · rw [six, total, none]
          rfl
        · rw [pointer] at zero
          cases zero
    refine ⟨length, fun whole => ?_⟩
    have long : ¬ (qname.wire.length + 4 = 0 ∨ len < 12 + (qname.wire.length + 4)) := by omega
    simp only [dnsQuestionHash, length]
    rw [if_neg long, take_question twelve, questionHash]

/-- The label `ab`. -/
def labelAb : Label := ⟨[0x61, 0x62], by decide, by decide⟩

/-- A name of one label with its zero byte, in a message that ends with the question. -/
theorem readsQuestion_iff_labelAb :
    ReadsQuestion (List.replicate 12 0 ++ (Qname.wire ⟨[labelAb], .zero⟩ ++ [0, 1, 0, 1])) 20
      ⟨[labelAb], .zero⟩ [0, 1, 0, 1] :=
  ((readsQuestion_iff _ (by decide)).2 _ _ _ rfl (by decide) (by decide)).mpr (.inr rfl)

/-- **A label before a pointer is left out**: the question of `ab` and a pointer has 9 bytes, and 6
are counted. -/
theorem not_readsQuestion_pointer :
    ¬ ReadsQuestion
      (List.replicate 12 0 ++
        (Qname.wire ⟨[labelAb], .pointer 0xC0 0x0C (by decide)⟩ ++ [0, 1, 0, 1])) 21
      ⟨[labelAb], .pointer 0xC0 0x0C (by decide)⟩ [0, 1, 0, 1] := by
  intro reads
  have length := reads.length
  revert length
  decide +kernel

end HalowBridge.Dns
