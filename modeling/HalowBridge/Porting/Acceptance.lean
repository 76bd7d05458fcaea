import HalowBridge.Porting.ValidateFile

/-!
# The files that pass validation

An `Image` is a file of a MAGIC TLV, at most 48 other TLVs and the header of an EOF TLV, with
anything behind it. It is taken apart in one way only (`walked_inj`), so that nothing that ends
before the end of its EOF header is an image again.

For a read function that `Serves` a file, `readTlv_walkable`, `readTlv_eof` and `readTlv_failed` are
the outcomes of a round of the test. From them, a file passes if and only if it is an image whose
MAGIC TLV begins with the magic number or has no value at all. The second of these is the files
for which the validation does not do what it says.
-/

namespace HalowBridge.Porting

open Mbin

/-! ## The grammar of the files -/

/-- The header of a TLV. -/
def headerBytes (type len : UInt16) : List UInt8 := packLe 2 type.toNat ++ packLe 2 len.toNat

@[simp] theorem length_headerBytes (type len : UInt16) : (headerBytes type len).length = 4 := by
  rw [headerBytes, List.length_append, length_packLe, length_packLe]

theorem exists_headerBytes {bytes : List UInt8} (long : 4 ≤ bytes.length) :
    ∃ type len rest, bytes = headerBytes type len ++ rest := by
  rcases exists_packLe (Nat.le_trans (by decide : 2 ≤ 4) long) with ⟨type, typeLt, behind, rfl⟩
  rw [List.length_append, length_packLe] at long
  rcases exists_packLe (Nat.le_of_add_le_add_left long : 2 ≤ _) with ⟨len, lenLt, rest, rfl⟩
  refine ⟨UInt16.ofNat type, UInt16.ofNat len, rest, ?_⟩
  rw [headerBytes, UInt16.toNat_ofNat_of_lt' typeLt, UInt16.toNat_ofNat_of_lt' lenLt,
    List.append_assoc]

theorem readHeader_headerBytes (type len : UInt16) (rest : List UInt8) :
    readHeader (headerBytes type len ++ rest) = .ok ⟨type, len⟩ := by
  have field (n : UInt16) : UInt16.ofNat (unpackLe (packLe 2 n.toNat)) = n := by
    rw [unpackLe_packLe (n.toNat_lt : n.toNat < capacity 2), UInt16.ofNat_toNat]
  show Except.ok (TlvHeader.mk (UInt16.ofNat (unpackLe (packLe 2 type.toNat)))
    (UInt16.ofNat (unpackLe (packLe 2 len.toNat)))) = _
  rw [field, field]

theorem headerBytes_inj {type len type' len' : UInt16} {rest rest' : List UInt8}
    (same : headerBytes type len ++ rest = headerBytes type' len' ++ rest') :
    type = type' ∧ len = len' ∧ rest = rest' := by
  have read := congrArg readHeader same
  rw [readHeader_headerBytes, readHeader_headerBytes, Except.ok.injEq, TlvHeader.mk.injEq] at read
  exact ⟨read.1, read.2, (List.append_inj same (by simp)).2⟩

/-- The length field of a TLV. -/
def lengthField (t : Tlv) : UInt16 := UInt16.ofNat t.data.length

theorem toNat_lengthField (t : Tlv) : (lengthField t).toNat = t.data.length :=
  UInt16.toNat_ofNat_of_lt' t.length_lt

theorem wire_eq (t : Tlv) : t.wire = headerBytes t.type (lengthField t) ++ t.data := by
  rw [Tlv.wire, headerBytes, toNat_lengthField]

theorem wire_inj {t t' : Tlv} {rest rest' : List UInt8}
    (same : t.wire ++ rest = t'.wire ++ rest') : t = t' ∧ rest = rest' := by
  rw [wire_eq, wire_eq, List.append_assoc, List.append_assoc] at same
  rcases headerBytes_inj same with ⟨type, len, behind⟩
  have length : t.data.length = t'.data.length := by
    rw [← toNat_lengthField, len, toNat_lengthField]
  rcases List.append_inj behind length with ⟨data, rest⟩
  refine ⟨?_, rest⟩
  cases t
  cases t'
  cases type
  cases data
  rfl

/-- A value that is as long as its header says makes a TLV. -/
theorem exists_tlv (type : UInt16) {len : UInt16} {bytes : List UInt8}
    (long : len.toNat ≤ bytes.length) :
    ∃ (t : Tlv) (rest : List UInt8), bytes = t.data ++ rest ∧ type = t.type ∧
      lengthField t = len := by
  have length : (bytes.take len.toNat).length = len.toNat := by
    rw [List.length_take]
    exact Nat.min_eq_left long
  have lt : (bytes.take len.toNat).length < 65536 := by
    rw [length]
    exact len.toNat_lt
  refine ⟨⟨type, bytes.take len.toNat, lt⟩, bytes.drop len.toNat,
    (List.take_append_drop _ _).symm, rfl, ?_⟩
  rw [← UInt16.toNat_inj, toNat_lengthField]
  exact length

/-- Some TLVs and the header of the EOF TLV behind them. -/
def walked (tlvs : List Tlv) (eofLen : UInt16) : List UInt8 :=
  tlvs.flatMap Tlv.wire ++ headerBytes fieldTypeEof eofLen

theorem walked_nil_append (eofLen : UInt16) (rest : List UInt8) :
    walked [] eofLen ++ rest = headerBytes fieldTypeEof eofLen ++ rest := by
  rw [walked, List.flatMap_nil, List.nil_append]

theorem walked_cons_append (t : Tlv) (tlvs : List Tlv) (eofLen : UInt16) (rest : List UInt8) :
    walked (t :: tlvs) eofLen ++ rest = t.wire ++ (walked tlvs eofLen ++ rest) := by
  rw [walked, walked, List.flatMap_cons, List.append_assoc, List.append_assoc, List.append_assoc]

/-- A TLV that is not the EOF TLV does not begin like it. -/
theorem wire_ne_eof {t : Tlv} (type : t.type ≠ fieldTypeEof) {eofLen : UInt16}
    {rest rest' : List UInt8} : t.wire ++ rest ≠ headerBytes fieldTypeEof eofLen ++ rest' := by
  intro same
  rw [wire_eq, List.append_assoc] at same
  exact type (headerBytes_inj same).1

/-- What is walked over is the same however a file is taken apart. -/
theorem walked_inj {tlvs tlvs' : List Tlv} {eofLen eofLen' : UInt16} {rest rest' : List UInt8}
    (types : ∀ t ∈ tlvs, t.type ≠ fieldTypeEof) (types' : ∀ t ∈ tlvs', t.type ≠ fieldTypeEof)
    (same : walked tlvs eofLen ++ rest = walked tlvs' eofLen' ++ rest') :
    tlvs = tlvs' ∧ eofLen = eofLen' ∧ rest = rest' := by
  induction tlvs generalizing tlvs' with
  | nil =>
      rw [walked_nil_append] at same
      cases tlvs' with
      | nil =>
          rw [walked_nil_append] at same
          exact ⟨rfl, (headerBytes_inj same).2⟩
      | cons t' tlvs' =>
          rw [walked_cons_append] at same
          exact absurd same.symm (wire_ne_eof (types' t' List.mem_cons_self))
  | cons t tlvs ih =>
      cases tlvs' with
      | nil =>
          rw [walked_cons_append, walked_nil_append] at same
          exact absurd same (wire_ne_eof (types t List.mem_cons_self))
      | cons t' tlvs' =>
          rw [walked_cons_append, walked_cons_append] at same
          rcases wire_inj same with ⟨rfl, behind⟩
          rcases ih (fun t member => types t (List.mem_cons_of_mem _ member))
            (fun t member => types' t (List.mem_cons_of_mem _ member)) behind with ⟨rfl, rest⟩
          exact ⟨rfl, rest⟩

/-- A file of a MAGIC TLV, up to 48 other TLVs and the header of the EOF TLV, with anything behind
it. -/
structure Image where
  first : Tlv
  more : List Tlv
  eofLen : UInt16
  trailing : List UInt8
  first_type : first.type = fieldTypeMagic
  more_type : ∀ t ∈ more, t.type ≠ fieldTypeEof
  length_more : more.length ≤ 48

namespace Image

variable (image : Image)

/-- The image up to the end of the EOF header. -/
def upToEof : List UInt8 := walked (image.first :: image.more) image.eofLen

def bytes : List UInt8 := image.upToEof ++ image.trailing

/-- The first four bytes of the value of the MAGIC TLV are the magic number. -/
def HasMagic (magic : UInt32) : Prop := image.first.data.take 4 = packLe 4 magic.toNat

variable {image}

theorem type_ne_eof {t : Tlv} (member : t ∈ image.first :: image.more) :
    t.type ≠ fieldTypeEof := by
  rcases List.mem_cons.mp member with rfl | later
  · rw [image.first_type]
    decide
  · exact image.more_type t later

theorem bytes_inj {image' : Image} (same : image.bytes = image'.bytes) :
    image.first = image'.first ∧ image.upToEof = image'.upToEof := by
  rcases walked_inj (fun _ => type_ne_eof) (fun _ => type_ne_eof) same with ⟨tlvs, eofLen, -⟩
  refine ⟨(List.cons.inj tlvs).1, ?_⟩
  rw [upToEof, upToEof, tlvs, eofLen]

/-- No part of an image that ends before the end of its EOF header is an image. -/
theorem bytes_ne_take {image' : Image} {n : ℕ} (cut : n < image.upToEof.length) :
    image'.bytes ≠ image.bytes.take n := by
  intro same
  have split : image'.upToEof ++ (image'.trailing ++ image.bytes.drop n) = image.bytes := by
    rw [← List.append_assoc, ← bytes, same, List.take_append_drop]
  rcases walked_inj (fun _ => type_ne_eof) (fun _ => type_ne_eof) split with ⟨tlvs, eofLen, -⟩
  have whole : image'.upToEof = image.upToEof := by rw [upToEof, upToEof, tlvs, eofLen]
  have length := congrArg List.length same
  rw [bytes, whole, List.length_append, List.length_take] at length
  omega

end Image

/-! ## Reading a file -/

/-- The offset lies in the file, with these bytes from there on. -/
structure At (file : FileImage) (offset : UInt32) (bytes : List UInt8) : Prop where
  le : offset.toNat ≤ file.bytes.length
  drop : file.bytes.drop offset.toNat = bytes

/-- The read function returns what is asked for, as far as the file goes. -/
def Serves (file : FileImage) (fileReadFn : FileReadFn) : Prop :=
  ∀ {offset bytes}, At file offset bytes → ∀ requestedLen robuf,
    ∃ len : UInt32, fileReadFn offset requestedLen robuf = ⟨some bytes, len⟩ ∧
      len.toNat = min bytes.length requestedLen.toNat

section

variable {file : FileImage} {offset : UInt32} {bytes : List UInt8}

theorem At.length (here : At file offset bytes) :
    offset.toNat + bytes.length = file.bytes.length := by
  have le := here.le
  rw [← here.drop, List.length_drop]
  omega

theorem At.advance {front : List UInt8} (here : At file offset (front ++ bytes)) {n : UInt32}
    (length : n.toNat = front.length) : At file (offset + n) bytes := by
  have whole := here.length
  have short := file.length_lt
  rw [List.length_append] at whole
  have sum : (offset + n).toNat = offset.toNat + front.length := by
    rw [UInt32.toNat_add, length]
    exact Nat.mod_eq_of_lt (by omega)
  refine ⟨by omega, ?_⟩
  rw [sum, ← List.drop_drop, here.drop, List.drop_left]

/-- The length that both read functions compute. -/
theorem toNat_clipped (here : At file offset bytes) (requestedLen : UInt32) :
    (if UInt32.ofNat file.bytes.length - offset < requestedLen
      then UInt32.ofNat file.bytes.length - offset else requestedLen).toNat =
        min bytes.length requestedLen.toNat := by
  have whole := here.length
  have short := file.length_lt
  have fileLen : (UInt32.ofNat file.bytes.length).toNat = file.bytes.length :=
    UInt32.toNat_ofNat_of_lt' (Nat.lt_trans short (by decide))
  have left : (UInt32.ofNat file.bytes.length - offset).toNat = bytes.length := by
    rw [UInt32.toNat_sub_of_le _ _ (UInt32.le_iff_toNat_le.mpr (by omega)), fileLen]
    omega
  split
  next less =>
    have lt := UInt32.lt_iff_toNat_lt.mp less
    omega
  next notLess =>
    have le := UInt32.le_iff_toNat_le.mp (UInt32.not_lt.mp notLess)
    omega

theorem offset_le (here : At file offset bytes) : ¬offset > UInt32.ofNat file.bytes.length := by
  have le := here.le
  have fileLen : (UInt32.ofNat file.bytes.length).toNat = file.bytes.length :=
    UInt32.toNat_ofNat_of_lt' (Nat.lt_trans file.length_lt (by decide))
  intro beyond
  have lt := UInt32.lt_iff_toNat_lt.mp beyond
  omega

theorem mmhalWlanReadFwFile_serves (firmware : FileImage) :
    Serves firmware (mmhalWlanReadFwFile firmware) := by
  intro offset bytes here requestedLen robuf
  refine ⟨_, ?_, toNat_clipped here requestedLen⟩
  rw [mmhalWlanReadFwFile, if_neg (offset_le here), here.drop]

theorem mmhalWlanReadBcfFile_serves (bcf : FileImage) :
    Serves bcf (mmhalWlanReadBcfFile bcf) := by
  intro offset bytes here requestedLen robuf
  refine ⟨_, ?_, toNat_clipped here requestedLen⟩
  rw [mmhalWlanReadBcfFile, if_neg (offset_le here), here.drop]

end

/-! ## One TLV -/

/-- A failure that is reported. -/
def Failed {α : Type} (outcome : Except Exit α) : Prop := ∃ texts, outcome = fail texts

theorem failed_fail {α : Type} (texts : List String) : Failed (fail texts : Except Exit α) :=
  ⟨texts, rfl⟩

theorem Failed.bind {α β : Type} {outcome : Except Exit α} (failed : Failed outcome)
    (next : α → Except Exit β) : Failed (outcome >>= next) := by
  rcases failed with ⟨texts, rfl⟩
  exact ⟨texts, rfl⟩

section

variable {file : FileImage} {fileReadFn : FileReadFn} (fileReadFnName type : String)
  (expectedMagicNumber : UInt32) {offset : UInt32} {bytes : List UInt8}

theorem or_reverse (a b c d : UInt32) : a ||| b ||| c ||| d = d ||| c ||| b ||| a := by ac_rfl

/-- The word that is put together is the magic number whose bytes these are. -/
theorem word_eq_iff (b0 b1 b2 b3 : UInt8) (magic : UInt32) :
    b0.toUInt32 ||| b1.toUInt32 <<< 8 ||| b2.toUInt32 <<< 16 ||| b3.toUInt32 <<< 24 = magic ↔
      [b0, b1, b2, b3] = packLe 4 magic.toNat := by
  have word : (b0.toUInt32 ||| b1.toUInt32 <<< 8 ||| b2.toUInt32 <<< 16 |||
      b3.toUInt32 <<< 24).toNat = unpackLe [b0, b1, b2, b3] := by
    rw [or_reverse, toNat_bytes, unpackLe, unpackLe, unpackLe, unpackLe, unpackLe]
    omega
  rw [← UInt32.toNat_inj, word]
  constructor
  · intro same
    rw [← same]
    exact (packLe_unpackLe [b0, b1, b2, b3]).symm
  · intro same
    rw [same]
    exact unpackLe_packLe magic.toNat_lt

/-- The comparison succeeds if and only if what was read begins with the magic number. -/
theorem checkMagic_cases {data : List UInt8} (rest : List UInt8) {len : UInt32}
    (length : len.toNat = data.length) :
    (data.take 4 = packLe 4 expectedMagicNumber.toNat ∧
        checkMagic fileReadFnName type expectedMagicNumber ⟨some (data ++ rest), len⟩ = .ok ()) ∨
      (data.take 4 ≠ packLe 4 expectedMagicNumber.toNat ∧
        Failed
          (checkMagic fileReadFnName type expectedMagicNumber ⟨some (data ++ rest), len⟩)) := by
  rw [checkMagic]
  split
  next short =>
    have lt : len.toNat < 4 := UInt32.lt_iff_toNat_lt.mp short
    refine .inr ⟨fun same => ?_, failed_fail _⟩
    have four := congrArg List.length same
    rw [List.length_take, length_packLe] at four
    omega
  next long =>
    have four : 4 ≤ len.toNat := UInt32.le_iff_toNat_le.mp (UInt32.not_lt.mp long)
    obtain ⟨b0, b1, b2, b3, behind, rfl⟩ :
        ∃ b0 b1 b2 b3 behind, data = b0 :: b1 :: b2 :: b3 :: behind :=
      have ⟨_, _, behind, split⟩ := exists_packLe (length ▸ four)
      ⟨_, _, _, _, behind, split⟩
    show [b0, b1, b2, b3] = packLe 4 expectedMagicNumber.toNat ∧ ite _ _ _ = _ ∨
      [b0, b1, b2, b3] ≠ packLe 4 expectedMagicNumber.toNat ∧ Failed (ite _ _ _)
    split
    next wrong => exact .inr ⟨fun same => wrong ((word_eq_iff ..).mpr same), failed_fail _⟩
    next right => exact .inl ⟨(word_eq_iff ..).mp (Decidable.not_not.mp right), rfl⟩

/-- What is asked of the value of the first TLV: if it has bytes, they begin with the magic
number. -/
def MagicChecked (magic : UInt32) (data : List UInt8) : Prop :=
  data = [] ∨ data.take 4 = packLe 4 magic.toNat

variable {numTlvs : ℕ} {remainingLen : UInt32} (robuf : Robuf)

/-- One turn of the loop over the parts of a value. -/
theorem readValue_step (numTlvs : ℕ) (serves : Serves file fileReadFn) (here : At file offset bytes)
    (more : remainingLen ≠ 0) :
    ∃ len : UInt32, len.toNat = min bytes.length remainingLen.toNat ∧
      readValue fileReadFn fileReadFnName type expectedMagicNumber numTlvs offset remainingLen
          robuf =
        if len = 0 then fail [endedTooSoon fileReadFnName type]
        else
          (if numTlvs = 0 then
            checkMagic fileReadFnName type expectedMagicNumber ⟨some bytes, len⟩ else .ok ()) >>=
          fun _ => readValue fileReadFn fileReadFnName type expectedMagicNumber numTlvs
            (offset + len) (remainingLen - len) Robuf.zero := by
  rcases serves here remainingLen robuf with ⟨len, read, clipped⟩
  have inside : ¬len > remainingLen := by
    rw [gt_iff_lt, UInt32.lt_iff_toNat_lt]
    omega
  refine ⟨len, clipped, ?_⟩
  rw [readValue, if_neg more, read]
  show (if len = 0 then _ else if len > remainingLen then _ else _) = _
  rw [if_neg inside]
  by_cases first : numTlvs = 0
  · rw [if_pos first, if_pos first]
  · rw [if_neg first, if_neg first]
    rfl

/-- A value that is there is read whole. -/
theorem readValue_whole (serves : Serves file fileReadFn) {data rest : List UInt8}
    (here : At file offset (data ++ rest)) (length : remainingLen.toNat = data.length)
    (checked : numTlvs = 0 → MagicChecked expectedMagicNumber data) :
    readValue fileReadFn fileReadFnName type expectedMagicNumber numTlvs offset remainingLen robuf =
      .ok (offset + remainingLen) := by
  by_cases done : remainingLen = 0
  · rw [readValue, if_pos done, done, UInt32.add_zero]
  · rcases readValue_step fileReadFnName type expectedMagicNumber robuf
      numTlvs serves here done with ⟨len, clipped, step⟩
    have whole : len = remainingLen := by
      rw [List.length_append] at clipped
      rw [← UInt32.toNat_inj]
      omega
    subst whole
    have behind : readValue fileReadFn fileReadFnName type expectedMagicNumber numTlvs
        (offset + len) (len - len) Robuf.zero = .ok (offset + len) := by
      rw [readValue, UInt32.sub_self, if_pos rfl]
    have check : (if numTlvs = 0 then
        checkMagic fileReadFnName type expectedMagicNumber ⟨some (data ++ rest), len⟩
        else .ok ()) = .ok () := by
      split
      next first =>
        have magic := (checked first).resolve_left fun empty => done (by
          rw [← UInt32.toNat_inj, length, empty]
          rfl)
        rcases checkMagic_cases fileReadFnName type expectedMagicNumber rest length with
          ⟨-, passes⟩ | ⟨wrong, -⟩
        · exact passes
        · exact absurd magic wrong
      next => rfl
    rw [step, if_neg done, check]
    exact behind

/-- Nothing is read at the end of the file. -/
theorem readValue_end (numTlvs : ℕ) (serves : Serves file fileReadFn) (here : At file offset [])
    (more : remainingLen ≠ 0) :
    Failed (readValue fileReadFn fileReadFnName type expectedMagicNumber numTlvs offset
      remainingLen robuf) := by
  rcases readValue_step fileReadFnName type expectedMagicNumber robuf
    numTlvs serves here more with ⟨len, clipped, step⟩
  have nothing : len = 0 := by
    rw [← UInt32.toNat_inj, clipped]
    exact Nat.zero_min _
  rw [step, if_pos nothing]
  exact failed_fail _

/-- A value that is cut off is not accepted. -/
theorem readValue_cut (serves : Serves file fileReadFn) (here : At file offset bytes)
    (short : bytes.length < remainingLen.toNat) :
    Failed (readValue fileReadFn fileReadFnName type expectedMagicNumber numTlvs offset
      remainingLen robuf) := by
  have more : remainingLen ≠ 0 := by
    rintro rfl
    exact Nat.not_lt_zero _ short
  rcases readValue_step fileReadFnName type expectedMagicNumber robuf
    numTlvs serves here more with ⟨len, clipped, step⟩
  have length : len.toNat = bytes.length := by omega
  have left : remainingLen - len ≠ 0 := by
    intro none
    have sub := congrArg UInt32.toNat none
    rw [UInt32.toNat_sub_of_le _ _ (UInt32.le_iff_toNat_le.mpr (by omega))] at sub
    have zero : (0 : UInt32).toNat = 0 := rfl
    omega
  have ending : At file (offset + len) [] := by
    rw [← List.append_nil bytes] at here
    exact here.advance length
  have behind := readValue_end fileReadFnName type expectedMagicNumber Robuf.zero numTlvs serves
    ending left
  rw [step]
  split
  · exact failed_fail _
  · split
    · have cases := checkMagic_cases fileReadFnName type expectedMagicNumber [] length
      rw [List.append_nil] at cases
      rcases cases with ⟨-, passes⟩ | ⟨-, failed⟩
      · rw [passes]
        exact behind
      · exact failed.bind _
    · exact behind

/-- Nor is a first value with another magic number. -/
theorem readValue_wrong (serves : Serves file fileReadFn) {data rest : List UInt8}
    (here : At file offset (data ++ rest)) (length : remainingLen.toNat = data.length)
    (unchecked : ¬MagicChecked expectedMagicNumber data) :
    Failed (readValue fileReadFn fileReadFnName type expectedMagicNumber 0 offset remainingLen
      robuf) := by
  have more : remainingLen ≠ 0 := by
    rintro rfl
    exact unchecked (.inl (List.eq_nil_of_length_eq_zero length.symm))
  rcases readValue_step fileReadFnName type expectedMagicNumber robuf 0
    serves here more with ⟨len, clipped, step⟩
  have whole : len.toNat = data.length := by
    rw [List.length_append] at clipped
    omega
  rw [step]
  split
  · exact failed_fail _
  · rw [if_pos rfl]
    rcases checkMagic_cases fileReadFnName type expectedMagicNumber rest whole with
      ⟨magic, -⟩ | ⟨-, failed⟩
    · exact absurd (.inr magic) unchecked
    · exact failed.bind _

/-- The test has passed. -/
def passed {α : Type} : Except Exit α := .error (.report ⟨.passed, []⟩)

/-- A header that is there is read. -/
theorem readTlv_header (serves : Serves file fileReadFn) {tlvType tlvLen : UInt16}
    {rest : List UInt8} (here : At file offset (headerBytes tlvType tlvLen ++ rest)) :
    readTlv fileReadFn fileReadFnName type expectedMagicNumber numTlvs offset =
      if numTlvs = 0 ∧ tlvType ≠ fieldTypeMagic then fail [noMagicNumber fileReadFnName]
      else if tlvType = fieldTypeEof then passed
      else readValue fileReadFn fileReadFnName type expectedMagicNumber numTlvs
        (offset + sizeofTlvHeader) tlvLen.toUInt32 Robuf.zero := by
  rcases serves here sizeofTlvHeader Robuf.zero with ⟨len, read, clipped⟩
  have whole : len = 4 := by
    have four : sizeofTlvHeader.toNat = 4 := rfl
    rw [List.length_append, length_headerBytes, four] at clipped
    rw [← UInt32.toNat_inj, clipped]
    exact Nat.min_eq_right (Nat.le_add_right 4 _)
  rw [readTlv, read, whole]
  show (readHeader (headerBytes tlvType tlvLen ++ rest) >>= fun hdr => _) = _
  rw [readHeader_headerBytes]
  rfl

/-- A header that is not there fails the test. -/
theorem readTlv_short (serves : Serves file fileReadFn) (here : At file offset bytes)
    (short : bytes.length < 4) :
    Failed (readTlv fileReadFn fileReadFnName type expectedMagicNumber numTlvs offset) := by
  rcases serves here sizeofTlvHeader Robuf.zero with ⟨len, read, clipped⟩
  have four : sizeofTlvHeader.toNat = 4 := rfl
  have less : len < sizeofTlvHeader := by
    rw [UInt32.lt_iff_toNat_lt]
    omega
  rw [readTlv, read]
  show Failed (if len = 0 then _ else if len < sizeofTlvHeader then _ else _)
  rw [if_pos less]
  split
  · exact failed_fail _
  · exact failed_fail _

/-- A TLV that the test walks over in a round. -/
def Walkable (magic : UInt32) (numTlvs : ℕ) (t : Tlv) : Prop :=
  t.type ≠ fieldTypeEof ∧ (numTlvs = 0 → t.type = fieldTypeMagic ∧ MagicChecked magic t.data)

theorem readTlv_walkable (serves : Serves file fileReadFn) {t : Tlv} {rest : List UInt8}
    (here : At file offset (t.wire ++ rest)) (walkable : Walkable expectedMagicNumber numTlvs t) :
    ∃ next, readTlv fileReadFn fileReadFnName type expectedMagicNumber numTlvs offset = .ok next ∧
      At file next rest := by
  rw [wire_eq, List.append_assoc] at here
  have value := here.advance (n := sizeofTlvHeader) (length_headerBytes _ _).symm
  have length : (lengthField t).toUInt32.toNat = t.data.length := toNat_lengthField t
  refine ⟨_, ?_, value.advance length⟩
  rw [readTlv_header fileReadFnName type expectedMagicNumber serves here, if_neg, if_neg walkable.1]
  · exact readValue_whole fileReadFnName type expectedMagicNumber Robuf.zero serves value length
      fun first => (walkable.2 first).2
  · exact fun other => other.2 (walkable.2 other.1).1

theorem readTlv_eof (serves : Serves file fileReadFn) {eofLen : UInt16} {rest : List UInt8}
    (here : At file offset (headerBytes fieldTypeEof eofLen ++ rest)) (later : numTlvs ≠ 0) :
    readTlv fileReadFn fileReadFnName type expectedMagicNumber numTlvs offset = passed := by
  rw [readTlv_header fileReadFnName type expectedMagicNumber serves here,
    if_neg fun first => later first.1, if_pos rfl]

/-- Anything else fails the test. -/
theorem readTlv_failed (numTlvs : ℕ) (serves : Serves file fileReadFn) (here : At file offset bytes)
    (noTlv : ∀ t rest, bytes = t.wire ++ rest → ¬Walkable expectedMagicNumber numTlvs t)
    (noEof : ∀ eofLen rest, bytes = headerBytes fieldTypeEof eofLen ++ rest → numTlvs = 0) :
    Failed (readTlv fileReadFn fileReadFnName type expectedMagicNumber numTlvs offset) := by
  by_cases short : bytes.length < 4
  · exact readTlv_short fileReadFnName type expectedMagicNumber serves here short
  rcases exists_headerBytes (Nat.not_lt.mp short) with ⟨tlvType, tlvLen, rest, rfl⟩
  have value := here.advance (n := sizeofTlvHeader) (length_headerBytes _ _).symm
  rw [readTlv_header fileReadFnName type expectedMagicNumber serves here]
  split
  · exact failed_fail _
  next started =>
    split
    next eof =>
      subst eof
      exact absurd ⟨noEof _ _ rfl, by decide⟩ started
    next notEof =>
      by_cases cut : rest.length < tlvLen.toNat
      · exact readValue_cut fileReadFnName type expectedMagicNumber Robuf.zero serves value cut
      rcases exists_tlv tlvType (Nat.not_lt.mp cut) with ⟨t, behind, rfl, rfl, length⟩
      rcases Classical.not_imp.mp fun walkable =>
        noTlv t behind (by rw [wire_eq, length, List.append_assoc]) ⟨notEof, walkable⟩ with
        ⟨first, refused⟩
      have magic : t.type = fieldTypeMagic :=
        Decidable.not_not.mp fun other => started ⟨first, other⟩
      rw [first]
      refine readValue_wrong fileReadFnName type expectedMagicNumber Robuf.zero serves value ?_
        fun checked => refused ⟨magic, checked⟩
      rw [← length]
      exact toNat_lengthField t

end

/-! ## The loop over the TLVs -/

section

variable {file : FileImage} {fileReadFn : FileReadFn} (fileReadFnName type : String)
  (expectedMagicNumber : UInt32) {numTlvs left : ℕ} {offset : UInt32} {bytes : List UInt8}

theorem tlvLoop_ok {next : UInt32} (read : readTlv fileReadFn fileReadFnName type
      expectedMagicNumber numTlvs offset = .ok next) :
    tlvLoop fileReadFn fileReadFnName type expectedMagicNumber numTlvs (left + 1) offset =
      tlvLoop fileReadFn fileReadFnName type expectedMagicNumber (numTlvs + 1) left next := by
  rw [tlvLoop, read]
  rfl

/-- The EOF header is found in one of the rounds to come. -/
theorem tlvLoop_walked (serves : Serves file fileReadFn) {tlvs : List Tlv} {eofLen : UInt16}
    {rest : List UInt8} (here : At file offset (walked tlvs eofLen ++ rest))
    (later : numTlvs ≠ 0) (types : ∀ t ∈ tlvs, t.type ≠ fieldTypeEof)
    (rounds : tlvs.length < left) :
    tlvLoop fileReadFn fileReadFnName type expectedMagicNumber numTlvs left offset = passed := by
  induction tlvs generalizing numTlvs left offset with
  | nil =>
      rcases Nat.exists_eq_succ_of_ne_zero (Nat.ne_of_gt rounds) with ⟨left, rfl⟩
      rw [walked_nil_append] at here
      rw [tlvLoop, readTlv_eof fileReadFnName type expectedMagicNumber serves here later]
      rfl
  | cons t tlvs ih =>
      rcases Nat.exists_eq_succ_of_ne_zero (Nat.ne_zero_of_lt rounds) with ⟨left, rfl⟩
      rw [walked_cons_append] at here
      rcases readTlv_walkable fileReadFnName type expectedMagicNumber serves
        here ⟨types t List.mem_cons_self, fun first => absurd first later⟩ with ⟨next, read, there⟩
      rw [tlvLoop_ok fileReadFnName type expectedMagicNumber read]
      exact ih there (Nat.succ_ne_zero _) (fun t member => types t (List.mem_cons_of_mem _ member))
        (Nat.lt_of_succ_lt_succ rounds)

/-- The loop falls through, fails, or comes to the EOF header. -/
theorem tlvLoop_cases (left : ℕ) (serves : Serves file fileReadFn) (here : At file offset bytes)
    (later : numTlvs ≠ 0) :
    tlvLoop fileReadFn fileReadFnName type expectedMagicNumber numTlvs left offset = .ok () ∨
      Failed (tlvLoop fileReadFn fileReadFnName type expectedMagicNumber numTlvs left offset) ∨
      ∃ tlvs eofLen rest, bytes = walked tlvs eofLen ++ rest ∧
        (∀ t ∈ tlvs, t.type ≠ fieldTypeEof) ∧ tlvs.length < left := by
  induction left generalizing numTlvs offset bytes with
  | zero => exact .inl rfl
  | succ left ih =>
      by_cases eof : ∃ eofLen rest, bytes = headerBytes fieldTypeEof eofLen ++ rest
      · rcases eof with ⟨eofLen, rest, rfl⟩
        exact .inr (.inr ⟨[], eofLen, rest, (walked_nil_append eofLen rest).symm,
          fun _ member => (List.not_mem_nil member).elim, Nat.succ_pos left⟩)
      by_cases tlv : ∃ (t : Tlv) (rest : List UInt8), bytes = t.wire ++ rest ∧
          t.type ≠ fieldTypeEof
      · rcases tlv with ⟨t, rest, rfl, notEof⟩
        rcases readTlv_walkable fileReadFnName type expectedMagicNumber
          serves here ⟨notEof, fun first => absurd first later⟩ with ⟨next, read, there⟩
        rw [tlvLoop_ok fileReadFnName type expectedMagicNumber read]
        rcases ih there (Nat.succ_ne_zero numTlvs) with through | failed | found
        · exact .inl through
        · exact .inr (.inl failed)
        · rcases found with ⟨tlvs, eofLen, behind, rfl, types, rounds⟩
          exact .inr (.inr ⟨t :: tlvs, eofLen, behind, (walked_cons_append ..).symm,
            List.forall_mem_cons.mpr ⟨notEof, types⟩, Nat.succ_lt_succ rounds⟩)
      · have failed := readTlv_failed fileReadFnName type expectedMagicNumber numTlvs serves
          here (fun t rest split walkable => tlv ⟨t, rest, split, walkable.1⟩)
          fun eofLen rest split => absurd ⟨eofLen, rest, split⟩ eof
        rw [tlvLoop]
        exact .inr (.inl (failed.bind _))

/-! ## The result -/

theorem At.start (file : FileImage) : At file 0 file.bytes := ⟨Nat.zero_le _, rfl⟩

/-- An image with the magic number, or without a value where it should be, passes the test. -/
theorem executeFwBcfTest_passes (serves : Serves file fileReadFn) {image : Image}
    (same : image.bytes = file.bytes)
    (checked : MagicChecked expectedMagicNumber image.first.data) :
    executeFwBcfTest fileReadFn fileReadFnName type expectedMagicNumber = some ⟨.passed, []⟩ := by
  have here := At.start file
  rw [← same, Image.bytes, Image.upToEof, walked_cons_append] at here
  have walkable : Walkable expectedMagicNumber 0 image.first :=
    ⟨image.type_ne_eof List.mem_cons_self, fun _ => ⟨image.first_type, checked⟩⟩
  rcases readTlv_walkable fileReadFnName type expectedMagicNumber serves
    here walkable with ⟨next, read, there⟩
  have loop : tlvLoop fileReadFn fileReadFnName type expectedMagicNumber 1 49 next = passed :=
    tlvLoop_walked fileReadFnName type expectedMagicNumber serves there Nat.one_ne_zero
      image.more_type (Nat.lt_succ_of_le image.length_more)
  have rounds : maxTlvs = 49 + 1 := rfl
  rw [executeFwBcfTest, rounds, tlvLoop_ok fileReadFnName type expectedMagicNumber read, loop]
  rfl

/-- The test returns, and with anything but a failure only for such an image. -/
theorem executeFwBcfTest_cases (serves : Serves file fileReadFn) :
    (∃ texts, executeFwBcfTest fileReadFn fileReadFnName type expectedMagicNumber =
        some ⟨.failedNonCritical, texts⟩) ∨
      ∃ image : Image, image.bytes = file.bytes ∧
        MagicChecked expectedMagicNumber image.first.data := by
  by_cases tlv : ∃ (t : Tlv) (rest : List UInt8), file.bytes = t.wire ++ rest ∧
      Walkable expectedMagicNumber 0 t
  · rcases tlv with ⟨t, rest, split, walkable⟩
    have here := At.start file
    rw [split] at here
    rcases readTlv_walkable fileReadFnName type expectedMagicNumber serves
      here walkable with ⟨next, read, there⟩
    have rounds : maxTlvs = 49 + 1 := rfl
    rw [executeFwBcfTest, rounds, tlvLoop_ok fileReadFnName type expectedMagicNumber read]
    rcases tlvLoop_cases fileReadFnName type expectedMagicNumber 49 serves there
      (Nat.succ_ne_zero 0) with through | failed | found
    · rw [through]
      exact .inl ⟨_, rfl⟩
    · rcases failed with ⟨texts, ended⟩
      rw [ended]
      exact .inl ⟨texts, rfl⟩
    · rcases found with ⟨more, eofLen, trailing, rfl, types, rounds⟩
      refine .inr ⟨⟨t, more, eofLen, trailing, (walkable.2 rfl).1, types,
        Nat.le_of_lt_succ rounds⟩, ?_, (walkable.2 rfl).2⟩
      rw [split, Image.bytes, Image.upToEof, walked_cons_append]
  · rcases readTlv_failed fileReadFnName type expectedMagicNumber 0 serves
      (At.start file) (fun t rest split walkable => tlv ⟨t, rest, split, walkable⟩)
      fun _ _ _ => rfl with ⟨texts, ended⟩
    have whole : tlvLoop fileReadFn fileReadFnName type expectedMagicNumber 0 maxTlvs 0 =
        fail texts := by
      rw [maxTlvs, tlvLoop, ended]
      rfl
    rw [executeFwBcfTest, whole]
    exact .inl ⟨texts, rfl⟩

end

/-- A file that begins with the magic number in a MAGIC TLV, and comes to the EOF header. -/
def Valid (magic : UInt32) (file : FileImage) : Prop :=
  ∃ image : Image, image.bytes = file.bytes ∧ image.HasMagic magic

/-- A file whose MAGIC TLV has no value, which comes to the EOF header. -/
def MagicLess (file : FileImage) : Prop :=
  ∃ image : Image, image.bytes = file.bytes ∧ image.first.data = []

/-- The first `n` bytes of a file. -/
def FileImage.cut (file : FileImage) (n : ℕ) : FileImage where
  bytes := file.bytes.take n
  length_lt := Nat.lt_of_le_of_lt (List.length_take_le' _ _) file.length_lt

theorem not_valid_of_magicLess {file : FileImage} (magicLess : MagicLess file) (magic : UInt32) :
    ¬Valid magic file := by
  rintro ⟨image, bytes, has⟩
  rcases magicLess with ⟨image', bytes', empty⟩
  rw [Image.HasMagic, (Image.bytes_inj (bytes.trans bytes'.symm)).1, empty] at has
  have length := congrArg List.length has
  rw [length_packLe] at length
  cases length

section

variable {readFile : FileImage → FileReadFn} (serves : ∀ file, Serves file (readFile file))
  (fileReadFnName type : String) (magic : UInt32) {file : FileImage}

include serves

theorem passes_of_magicLess (magicLess : MagicLess file) :
    executeFwBcfTest (readFile file) fileReadFnName type magic = some ⟨.passed, []⟩ := by
  rcases magicLess with ⟨image, bytes, empty⟩
  exact executeFwBcfTest_passes fileReadFnName type magic (serves file) bytes (.inl empty)

/-- But for the files without a value for the magic number, the valid ones pass. -/
theorem passes_iff_valid (withMagic : ¬MagicLess file) :
    ∃ report, executeFwBcfTest (readFile file) fileReadFnName type magic = some report ∧
      (report.result = .passed ↔ Valid magic file) := by
  by_cases valid : Valid magic file
  · rcases valid with ⟨image, bytes, has⟩
    exact ⟨_, executeFwBcfTest_passes fileReadFnName type magic (serves file) bytes (.inr has),
      fun _ => ⟨image, bytes, has⟩, fun _ => rfl⟩
  · rcases executeFwBcfTest_cases fileReadFnName type magic (serves file) with
      ⟨texts, fails⟩ | ⟨image, bytes, empty | has⟩
    · have failed : ¬TestResult.failedNonCritical = .passed := by decide
      exact ⟨_, fails, fun same => absurd same failed, fun isValid => absurd isValid valid⟩
    · exact absurd ⟨image, bytes, empty⟩ withMagic
    · exact absurd ⟨image, bytes, has⟩ valid

/-- A file that ends before the end of its EOF header fails. -/
theorem cut_fails {image : Image} (bytes : image.bytes = file.bytes) {n : ℕ}
    (cut : n < image.upToEof.length) :
    ∃ report, executeFwBcfTest (readFile (file.cut n)) fileReadFnName type magic = some report ∧
      report.result = .failedNonCritical := by
  rcases executeFwBcfTest_cases fileReadFnName type magic (serves (file.cut n)) with
    ⟨texts, fails⟩ | ⟨image', bytes', -⟩
  · exact ⟨_, fails, rfl⟩
  · have prefixed : image'.bytes = image.bytes.take n := by
      rw [bytes', bytes]
      rfl
    exact absurd prefixed (Image.bytes_ne_take cut)

/-- The validation does what it says for all files but those whose MAGIC TLV has no value. -/
theorem validates_iff :
    ((∃ report, executeFwBcfTest (readFile file) fileReadFnName type magic = some report ∧
        (report.result = .passed ↔ Valid magic file)) ∧
      ∀ image : Image, image.bytes = file.bytes → image.HasMagic magic →
        ∀ n < image.upToEof.length,
          ∃ report, executeFwBcfTest (readFile (file.cut n)) fileReadFnName type magic =
            some report ∧ report.result = .failedNonCritical) ↔
      ¬MagicLess file := by
  constructor
  · rintro ⟨⟨report, returned, iff⟩, -⟩ magicLess
    rw [passes_of_magicLess serves fileReadFnName type magic magicLess] at returned
    cases returned
    exact not_valid_of_magicLess magicLess magic (iff.mp rfl)
  · exact fun withMagic => ⟨passes_iff_valid serves fileReadFnName type magic withMagic,
      fun image bytes _ n cut => cut_fails serves fileReadFnName type magic bytes cut⟩

end

theorem validateFw_iff (firmware : FileImage) (fileReadFnName type : String)
    (expectedMagicNumber : UInt32) :
    ((∃ report, executeFwBcfTest (mmhalWlanReadFwFile firmware) fileReadFnName type
          expectedMagicNumber = some report ∧
        (report.result = .passed ↔ Valid expectedMagicNumber firmware)) ∧
      ∀ image : Image, image.bytes = firmware.bytes → image.HasMagic expectedMagicNumber →
        ∀ n < image.upToEof.length,
          ∃ report, executeFwBcfTest (mmhalWlanReadFwFile (firmware.cut n)) fileReadFnName type
            expectedMagicNumber = some report ∧ report.result = .failedNonCritical) ↔
      ¬MagicLess firmware :=
  validates_iff mmhalWlanReadFwFile_serves fileReadFnName type expectedMagicNumber

/-- A MAGIC header and an EOF header. -/
def twoHeaders : FileImage := ⟨[0x00, 0x80, 0, 0, 0x00, 0x8f, 0, 0], by decide⟩

theorem twoHeaders_passes :
    testStepMmhalWlanValidateFw twoHeaders = some ⟨.passed, []⟩ ∧
      ¬Valid mbinFwMagicNumber twoHeaders := by
  have magicLess : MagicLess twoHeaders :=
    ⟨⟨⟨fieldTypeMagic, [], by decide⟩, [], 0, [], rfl, fun _ member =>
      (List.not_mem_nil member).elim, by decide⟩, by decide, rfl⟩
  exact ⟨passes_of_magicLess mmhalWlanReadFwFile_serves _ _ _ magicLess,
    not_valid_of_magicLess magicLess _⟩

/-- The same holds for the BCF file and its read function. -/
theorem testStepMmhalWlanValidateBcf_passes_iff {bcf : FileImage} (withMagic : ¬MagicLess bcf) :
    ∃ report, testStepMmhalWlanValidateBcf bcf = some report ∧
      (report.result = .passed ↔ Valid mbinBcfMagicNumber bcf) :=
  passes_iff_valid mmhalWlanReadBcfFile_serves _ _ _ withMagic

end HalowBridge.Porting
