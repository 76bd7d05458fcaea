import HalowBridge.Mmutils.Mmbuf

/-!
# Bytes with room on both sides

A `Region` is what an `mmbuf` stands for: a list of bytes with room in front and behind.

`Simulates` is the relation between an operation of the buffer and the same operation of the region.
It asks for the same data, the same bytes returned and a failed assertion in the same cases, so that
the equality of runs (`mmbuf_run_eq`) follows by induction. An access outside the memory of the
buffer is a fault that no operation of a region has.
-/

namespace HalowBridge.Mmutils

/-- What a buffer stands for. -/
structure Region where
  headroom : ℕ
  data : List UInt8
  tailroom : ℕ

namespace Region

/-- One operation, with the bytes that were removed. -/
def step (r : Region) : Op → Except Fault (Region × Option (List UInt8))
  | .prependData data =>
      if data.bytes.length ≤ r.headroom then
        .ok (⟨r.headroom - data.bytes.length, data.bytes ++ r.data, r.tailroom⟩, none)
      else .error .assertion
  | .appendData data =>
      if data.bytes.length ≤ r.tailroom then
        .ok (⟨r.headroom, r.data ++ data.bytes, r.tailroom - data.bytes.length⟩, none)
      else .error .assertion
  | .removeFromStart len =>
      if len.toNat ≤ r.data.length then
        .ok (⟨r.headroom + len.toNat, r.data.drop len.toNat, r.tailroom⟩,
          some (r.data.take len.toNat))
      else .ok (r, none)
  | .removeFromEnd len =>
      if len.toNat ≤ r.data.length then
        let rest := r.data.length - len.toNat
        .ok (⟨r.headroom, r.data.take rest, r.tailroom + len.toNat⟩, some (r.data.drop rest))
      else .ok (r, none)
  | .truncate len =>
      if len.toNat ≤ r.data.length then
        .ok (⟨r.headroom, r.data.take len.toNat, r.tailroom + (r.data.length - len.toNat)⟩, none)
      else .error .assertion
  | .makeCopyOnHeap _ => .ok (r, none)

/-- The operations one after another, with the bytes that each of them removed. -/
def run (r : Region) : List Op → Except Fault (Region × List (Option (List UInt8)))
  | [] => .ok (r, [])
  | op :: ops => do
      let (next, bytes) ← r.step op
      let (last, removed) ← next.run ops
      return (last, bytes :: removed)

/-- The operation has the room or the data it needs. -/
def Fits (r : Region) : Op → Prop
  | .prependData data => data.bytes.length ≤ r.headroom
  | .appendData data => data.bytes.length ≤ r.tailroom
  | .truncate len => len.toNat ≤ r.data.length
  | .removeFromStart _ | .removeFromEnd _ | .makeCopyOnHeap _ => True

/-- Room for two numbers of bytes, rounded up at the end. -/
def initial (spaceAtStart spaceAtEnd : UInt32) : Region :=
  ⟨spaceAtStart.toNat, [],
    roundUp4 (spaceAtStart.toNat + spaceAtEnd.toNat) - spaceAtStart.toNat⟩

end Region

/-! ## One operation -/

@[simp] theorem Source.toNat_len (data : Source) : data.len.toNat = data.bytes.length :=
  UInt32.toNat_ofNat_of_lt' data.length_lt

/-- The block is as long as what was asked for. -/
theorem length_behindHeader {size : UInt32} {outcome : Option (ℕ → UInt8)} {memory : List UInt8}
    (allocated : mmosalMalloc size outcome = some memory) :
    size ≠ 0 ∧ (behindHeader memory).length = size.toNat - sizeofMmbuf.toNat := by
  rw [mmosalMalloc] at allocated
  split at allocated
  · cases allocated
  · obtain ⟨contents, -, rfl⟩ := Option.map_eq_some_iff.mp allocated
    refine ⟨‹_›, ?_⟩
    rw [behindHeader, List.length_drop, List.length_map, List.length_range]
    rfl

namespace Mmbuf

/-- The data lies inside the buffer, and the buffer is as long as it says. -/
structure Valid (mmbuf : Mmbuf) : Prop where
  inside : mmbuf.startOffset.toNat + mmbuf.dataLen.toNat ≤ mmbuf.bufLen.toNat
  memory : mmbuf.buf.length = mmbuf.bufLen.toNat
  block : sizeofMmbuf.toNat + mmbuf.bufLen.toNat < 4294967296

/-- What the buffer stands for. -/
def view (mmbuf : Mmbuf) : Region where
  headroom := mmbuf.startOffset.toNat
  data := window mmbuf.buf mmbuf.startOffset.toNat mmbuf.dataLen.toNat
  tailroom := mmbuf.bufLen.toNat - (mmbuf.startOffset.toNat + mmbuf.dataLen.toNat)

/-- What the caller of an operation sees. -/
def observe (op : Op) (out : Mmbuf × Option ℕ) : Region × Option (List UInt8) :=
  (out.1.view, out.2.map (window out.1.buf · op.removed))

/-- The operation does what it does to the region, and keeps the buffer valid. -/
structure Simulates (mmbuf : Mmbuf) (op : Op) : Prop where
  observed : (mmbuf.step op).map (observe op) = mmbuf.view.step op
  valid : ∀ out, mmbuf.step op = .ok out → out.1.Valid

theorem Simulates.of_ok {mmbuf : Mmbuf} {op : Op} (out : Mmbuf × Option ℕ)
    (ok : mmbuf.step op = .ok out) (same : mmbuf.view.step op = .ok (observe op out))
    (valid : out.1.Valid) : mmbuf.Simulates op where
  observed := by rw [ok, same, Except.map]
  valid other also := by
    rw [ok, Except.ok.injEq] at also
    exact also ▸ valid

/-- An operation that does nothing. -/
theorem Simulates.unchanged {mmbuf : Mmbuf} {op : Op} (ok : mmbuf.step op = .ok (mmbuf, none))
    (same : mmbuf.view.step op = .ok (mmbuf.view, none)) (valid : mmbuf.Valid) :
    mmbuf.Simulates op :=
  .of_ok (mmbuf, none) ok same valid

theorem Simulates.of_error {mmbuf : Mmbuf} {op : Op} {fault : Fault}
    (error : mmbuf.step op = .error fault) (same : mmbuf.view.step op = .error fault) :
    mmbuf.Simulates op where
  observed := by rw [error, same, Except.map]
  valid out ok := by
    rw [error] at ok
    cases ok

variable {mmbuf : Mmbuf}

theorem Valid.length_data (valid : mmbuf.Valid) :
    mmbuf.view.data.length = mmbuf.dataLen.toNat := by
  apply length_window
  rw [valid.memory]
  exact valid.inside

theorem Valid.toNat_availableSpaceAtEnd (valid : mmbuf.Valid) :
    mmbuf.availableSpaceAtEnd.toNat = mmbuf.view.tailroom := by
  have inside := valid.inside
  have size := mmbuf.bufLen.toNat_lt
  have sum : (mmbuf.startOffset + mmbuf.dataLen).toNat =
      mmbuf.startOffset.toNat + mmbuf.dataLen.toNat := by
    rw [UInt32.toNat_add]
    exact Nat.mod_eq_of_lt (by omega)
  rw [availableSpaceAtEnd, UInt32.toNat_sub_of_le, sum, view]
  rw [UInt32.le_iff_toNat_le, sum]
  exact inside

theorem simulates_prependData (valid : mmbuf.Valid) (data : Source) :
    mmbuf.Simulates (.prependData data) := by
  have inside := valid.inside
  have memory := valid.memory
  have size := mmbuf.bufLen.toNat_lt
  have len := data.toNat_len
  have room : data.len ≤ mmbuf.startOffset ↔ data.bytes.length ≤ mmbuf.view.headroom := by
    rw [UInt32.le_iff_toNat_le, len, view]
  by_cases fits : data.len ≤ mmbuf.startOffset
  · have start : (mmbuf.startOffset - data.len).toNat =
        mmbuf.startOffset.toNat - data.bytes.length := by
      rw [UInt32.toNat_sub_of_le _ _ fits, len]
    have before : data.bytes.length ≤ mmbuf.startOffset.toNat := room.mp fits
    have total : (mmbuf.dataLen + data.len).toNat =
        data.bytes.length + mmbuf.dataLen.toNat := by
      rw [UInt32.toNat_add, len, Nat.add_comm]
      exact Nat.mod_eq_of_lt (by omega)
    have written : mmbuf.startOffset.toNat - data.bytes.length + data.bytes.length ≤
        mmbuf.buf.length := by omega
    have gap : mmbuf.startOffset.toNat - data.bytes.length + data.bytes.length =
        mmbuf.startOffset.toNat := Nat.sub_add_cancel before
    refine Simulates.of_ok (⟨splice mmbuf.buf (mmbuf.startOffset - data.len).toNat
      data.bytes, mmbuf.bufLen, mmbuf.startOffset - data.len, mmbuf.dataLen + data.len⟩, none)
      ?_ ?_ ?_
    · rw [step, prependData, prepend, mmosalAssert, availableSpaceAtStart, if_pos fits]
      simp only [bind, Except.bind, pure, Except.pure, writeBytes, start, if_pos written,
        Except.map]
    · rw [Region.step, if_pos (room.mp fits)]
      simp only [observe, view, start, total, window_add, window_splice written, gap,
        window_splice_of_ge written gap.le, Option.map_none]
      congr 3
      omega
    · constructor
      · rw [start, total]
        dsimp only
        omega
      · rw [start, length_splice written]
        exact memory
      · exact valid.block
  · apply Simulates.of_error
    · rw [step, prependData, prepend, mmosalAssert, availableSpaceAtStart, if_neg fits]
      rfl
    · rw [Region.step, if_neg (mt room.mpr fits)]

theorem simulates_appendData (valid : mmbuf.Valid) (data : Source) :
    mmbuf.Simulates (.appendData data) := by
  have inside := valid.inside
  have memory := valid.memory
  have size := mmbuf.bufLen.toNat_lt
  have len := data.toNat_len
  have room : data.len ≤ mmbuf.availableSpaceAtEnd ↔ data.bytes.length ≤ mmbuf.view.tailroom := by
    rw [UInt32.le_iff_toNat_le, len, valid.toNat_availableSpaceAtEnd]
  by_cases fits : data.len ≤ mmbuf.availableSpaceAtEnd
  · have behind : data.bytes.length ≤
        mmbuf.bufLen.toNat - (mmbuf.startOffset.toNat + mmbuf.dataLen.toNat) := room.mp fits
    have total : (mmbuf.dataLen + data.len).toNat =
        mmbuf.dataLen.toNat + data.bytes.length := by
      rw [UInt32.toNat_add, len]
      exact Nat.mod_eq_of_lt (by omega)
    have written : mmbuf.getDataEnd + data.bytes.length ≤ mmbuf.buf.length := by
      rw [getDataEnd]
      omega
    refine Simulates.of_ok (⟨splice mmbuf.buf mmbuf.getDataEnd data.bytes, mmbuf.bufLen,
      mmbuf.startOffset, mmbuf.dataLen + data.len⟩, none) ?_ ?_ ?_
    · rw [step, appendData, append, mmosalAssert, if_pos fits]
      simp only [bind, Except.bind, pure, Except.pure, writeBytes, if_pos written, Except.map]
    · rw [Region.step, if_pos (room.mp fits)]
      have old : window (splice mmbuf.buf mmbuf.getDataEnd data.bytes) mmbuf.startOffset.toNat
          mmbuf.dataLen.toNat = mmbuf.view.data := window_splice_of_le written le_rfl
      have new : window (splice mmbuf.buf mmbuf.getDataEnd data.bytes)
          (mmbuf.startOffset.toNat + mmbuf.dataLen.toNat) data.bytes.length = data.bytes :=
        window_splice written
      simp only [observe, view, total, window_add, old, new, Option.map_none, Nat.sub_sub,
        Nat.add_assoc]
    · constructor
      · rw [total]
        dsimp only
        omega
      · rw [length_splice written]
        exact memory
      · exact valid.block
  · apply Simulates.of_error
    · rw [step, appendData, append, mmosalAssert, if_neg fits]
      rfl
    · rw [Region.step, if_neg (mt room.mpr fits)]

/-- A remove is refused when there is not that much data. -/
theorem Valid.removable_iff (valid : mmbuf.Valid) (len : UInt32) :
    ¬ mmbuf.dataLen < len ↔ len.toNat ≤ mmbuf.view.data.length := by
  rw [UInt32.lt_iff_toNat_lt, valid.length_data, Nat.not_lt]

/-- What is left of the data does not wrap. -/
theorem toNat_dataLen_sub {len : UInt32} (kept : ¬ mmbuf.dataLen < len) :
    len.toNat ≤ mmbuf.dataLen.toNat ∧
      (mmbuf.dataLen - len).toNat = mmbuf.dataLen.toNat - len.toNat := by
  have le := UInt32.not_lt.mp kept
  exact ⟨UInt32.le_iff_toNat_le.mp le, UInt32.toNat_sub_of_le _ _ le⟩

theorem simulates_removeFromStart (valid : mmbuf.Valid) (len : UInt32) :
    mmbuf.Simulates (.removeFromStart len) := by
  have inside := valid.inside
  have size := mmbuf.bufLen.toNat_lt
  have removable := valid.removable_iff len
  by_cases refused : mmbuf.dataLen < len
  · refine .unchanged ?_ ?_ valid
    · rw [step, removeFromStart, if_pos refused]
    · rw [Region.step, if_neg (mt removable.mpr (not_not.mpr refused))]
  · rcases toNat_dataLen_sub refused with ⟨enough, rest⟩
    have start : (mmbuf.startOffset + len).toNat = mmbuf.startOffset.toNat + len.toNat := by
      rw [UInt32.toNat_add]
      exact Nat.mod_eq_of_lt (by omega)
    apply Simulates.of_ok
    · rw [step, removeFromStart, if_neg refused]
    · rw [Region.step, if_pos (removable.mp refused)]
      simp only [observe, view, start, rest, drop_window, take_window _ _ enough, Op.removed,
        getDataStart, Option.map_some]
      congr 3
      omega
    · constructor
      · rw [start, rest]
        dsimp only
        omega
      · exact valid.memory
      · exact valid.block

theorem simulates_removeFromEnd (valid : mmbuf.Valid) (len : UInt32) :
    mmbuf.Simulates (.removeFromEnd len) := by
  have inside := valid.inside
  have size := mmbuf.bufLen.toNat_lt
  have removable := valid.removable_iff len
  by_cases refused : mmbuf.dataLen < len
  · refine .unchanged ?_ ?_ valid
    · rw [step, removeFromEnd, if_pos refused]
    · rw [Region.step, if_neg (mt removable.mpr (not_not.mpr refused))]
  · rcases toNat_dataLen_sub refused with ⟨enough, rest⟩
    have last : mmbuf.getDataEnd - len.toNat =
        mmbuf.startOffset.toNat + (mmbuf.dataLen.toNat - len.toNat) := by
      rw [getDataEnd, Nat.add_sub_assoc enough]
    have taken : mmbuf.dataLen.toNat - (mmbuf.dataLen.toNat - len.toNat) = len.toNat :=
      Nat.sub_sub_self enough
    apply Simulates.of_ok
    · rw [step, removeFromEnd, if_neg refused]
    · rw [Region.step, if_pos (removable.mp refused)]
      simp only [valid.length_data]
      simp only [observe, view, rest, last, drop_window, take_window _ _ (Nat.sub_le _ _), taken,
        Op.removed, Option.map_some]
      congr 3
      omega
    · constructor
      · rw [rest]
        dsimp only
        omega
      · exact valid.memory
      · exact valid.block

theorem simulates_truncate (valid : mmbuf.Valid) (len : UInt32) :
    mmbuf.Simulates (.truncate len) := by
  have inside := valid.inside
  have fewer : len ≤ mmbuf.dataLen ↔ len.toNat ≤ mmbuf.view.data.length := by
    rw [UInt32.le_iff_toNat_le, valid.length_data]
  by_cases fits : len ≤ mmbuf.dataLen
  · have enough : len.toNat ≤ mmbuf.dataLen.toNat := UInt32.le_iff_toNat_le.mp fits
    refine Simulates.of_ok ({ mmbuf with dataLen := len }, none) ?_ ?_ ?_
    · rw [step, truncate, mmosalAssert, if_pos fits]
      rfl
    · rw [Region.step, if_pos (fewer.mp fits), valid.length_data]
      simp only [observe, view, take_window _ _ enough, Option.map_none]
      congr 3
      omega
    · constructor
      · dsimp only
        omega
      · exact valid.memory
      · exact valid.block
  · apply Simulates.of_error
    · rw [step, truncate, mmosalAssert, if_neg fits]
      rfl
    · rw [Region.step, if_neg (mt fewer.mpr fits)]

/-- The copy stands for the same bytes with the same room, whatever was in the memory it got. -/
theorem simulates_makeCopyOnHeap (valid : mmbuf.Valid) (outcome : Option (ℕ → UInt8)) :
    mmbuf.Simulates (.makeCopyOnHeap outcome) := by
  have inside := valid.inside
  have memory := valid.memory
  have block := valid.block
  have header : (mmFastRoundUp sizeofMmbuf 4).toNat = sizeofMmbuf.toNat := by decide
  have size : (mmFastRoundUp sizeofMmbuf 4 + mmbuf.bufLen).toNat =
      sizeofMmbuf.toNat + mmbuf.bufLen.toNat := by
    rw [UInt32.toNat_add, header]
    exact Nat.mod_eq_of_lt block
  cases allocated : mmosalMalloc (mmFastRoundUp sizeofMmbuf 4 + mmbuf.bufLen) outcome with
  | none =>
      refine .unchanged ?_ rfl valid
      rw [step, makeCopyOnHeap, allocated]
      rfl
  | some fresh =>
      have length : (behindHeader fresh).length = mmbuf.bufLen.toNat := by
        rw [(length_behindHeader allocated).2, size, Nat.add_sub_cancel_left]
      by_cases empty : mmbuf.dataLen = 0
      · refine Simulates.of_ok (⟨behindHeader fresh, mmbuf.bufLen, mmbuf.startOffset,
          mmbuf.dataLen⟩, none) ?_ ?_ ?_
        · rw [step, makeCopyOnHeap, allocated]
          simp only [empty, ne_eq, not_true_eq_false, if_false]
          rfl
        · simp only [Region.step, observe, view, empty, UInt32.toNat_zero, window_zero,
            Option.map_none]
        · exact ⟨inside, length, block⟩
      · have read : mmbuf.startOffset.toNat + mmbuf.dataLen.toNat ≤ mmbuf.buf.length := by omega
        obtain ⟨data, source⟩ :
            ∃ data, window mmbuf.buf mmbuf.startOffset.toNat mmbuf.dataLen.toNat = data := ⟨_, rfl⟩
        have bytes : data.length = mmbuf.dataLen.toNat := source ▸ valid.length_data
        have written : mmbuf.startOffset.toNat + data.length ≤ (behindHeader fresh).length := by
          omega
        have copied := window_splice written
        rw [bytes] at copied
        refine Simulates.of_ok (⟨splice (behindHeader fresh) mmbuf.startOffset.toNat data,
          mmbuf.bufLen, mmbuf.startOffset, mmbuf.dataLen⟩, none) ?_ ?_ ?_
        · have got : readBytes mmbuf.buf mmbuf.startOffset.toNat mmbuf.dataLen.toNat =
              .ok data := by
            rw [readBytes, if_pos read, source]
          have put : writeBytes (behindHeader fresh) mmbuf.startOffset.toNat data =
              .ok (splice (behindHeader fresh) mmbuf.startOffset.toNat data) := if_pos written
          rw [step, makeCopyOnHeap, allocated]
          simp only [ne_eq, empty, not_false_eq_true, if_true, bind, Except.bind, mmbufInit,
            getDataStart, got, put, pure, Except.pure, Except.map, Option.getD_some]
        · simp only [Region.step, observe, view, source, copied, Option.map_none]
        · refine ⟨inside, ?_, block⟩
          rw [length_splice written]
          exact length

theorem Valid.simulates (valid : mmbuf.Valid) (op : Op) : mmbuf.Simulates op := by
  cases op with
  | prependData data => exact simulates_prependData valid data
  | appendData data => exact simulates_appendData valid data
  | removeFromStart len => exact simulates_removeFromStart valid len
  | removeFromEnd len => exact simulates_removeFromEnd valid len
  | truncate len => exact simulates_truncate valid len
  | makeCopyOnHeap outcome => exact simulates_makeCopyOnHeap valid outcome

/-- Data that fits is appended. -/
theorem Valid.appends (valid : mmbuf.Valid) (data : Source)
    (room : data.bytes.length ≤ mmbuf.view.tailroom) :
    ∃ next, mmbuf.appendData data = .ok next ∧ next.Valid ∧
      next.view = ⟨mmbuf.view.headroom, mmbuf.view.data ++ data.bytes,
        mmbuf.view.tailroom - data.bytes.length⟩ := by
  obtain ⟨observed, kept⟩ := simulates_appendData valid data
  rw [Region.step, if_pos room, step] at observed
  rw [step] at kept
  cases appended : mmbuf.appendData data with
  | error fault =>
      rw [appended] at observed
      cases observed
  | ok next =>
      rw [appended] at observed kept
      exact ⟨next, rfl, kept _ rfl, congrArg Prod.fst (Except.ok.inj observed)⟩

/-- Data that does not fit is not appended. -/
theorem Valid.overflows (valid : mmbuf.Valid) {data : Source}
    (room : ¬ data.bytes.length ≤ mmbuf.view.tailroom) :
    mmbuf.appendData data = .error .assertion := by
  have observed := (simulates_appendData valid data).observed
  rw [Region.step, if_neg room, step] at observed
  cases appended : mmbuf.appendData data with
  | error fault =>
      rw [appended] at observed
      exact congrArg Except.error (Except.error.inj observed)
  | ok next =>
      rw [appended] at observed
      cases observed

/-- Data that is there is removed, and is still behind what is left. -/
theorem Valid.removes (valid : mmbuf.Valid) (len : UInt32)
    (enough : len.toNat ≤ mmbuf.view.data.length) :
    ∃ next, mmbuf.removeFromEnd len = (next, some next.getDataEnd) ∧ next.Valid ∧
      next.view.data = mmbuf.view.data.take (mmbuf.view.data.length - len.toNat) ∧
      next.getDataEnd + len.toNat ≤ next.buf.length ∧
      window next.buf next.getDataEnd len.toNat =
        mmbuf.view.data.drop (mmbuf.view.data.length - len.toNat) := by
  obtain ⟨observed, kept⟩ := simulates_removeFromEnd valid len
  have inside := valid.inside
  have memory := valid.memory
  have removable := (valid.removable_iff len).mpr enough
  rw [Region.step, if_pos enough, step] at observed
  rw [step] at kept
  rw [valid.length_data] at enough
  have rest : (mmbuf.dataLen - len).toNat = mmbuf.dataLen.toNat - len.toNat :=
    UInt32.toNat_sub_of_le _ _ (UInt32.le_iff_toNat_le.mpr enough)
  obtain ⟨next, last⟩ : ∃ next, next = { mmbuf with dataLen := mmbuf.dataLen - len } := ⟨_, rfl⟩
  have ending : next.getDataEnd = mmbuf.getDataEnd - len.toNat := by
    rw [last, getDataEnd, getDataEnd, rest, Nat.add_sub_assoc enough]
  have removed : mmbuf.removeFromEnd len = (next, some next.getDataEnd) := by
    rw [removeFromEnd, if_neg removable, ending, last]
  rw [removed] at observed kept
  obtain ⟨view, bytes⟩ := Prod.ext_iff.mp (Except.ok.inj observed)
  refine ⟨next, removed, kept _ rfl, congrArg Region.data view, ?_, Option.some_inj.mp bytes⟩
  rw [ending, getDataEnd, last]
  dsimp only
  omega

/-- The data is read from the memory of the buffer. -/
theorem Valid.reads (valid : mmbuf.Valid) :
    readBytes mmbuf.buf mmbuf.getDataStart mmbuf.dataLen.toNat = .ok mmbuf.view.data := by
  have inside := valid.inside
  rw [← valid.memory] at inside
  exact if_pos inside

/-- What is written behind the data does not change it. -/
theorem Valid.writes (valid : mmbuf.Valid) (bytes : List UInt8)
    (room : bytes.length ≤ mmbuf.view.tailroom) :
    writeBytes mmbuf.buf mmbuf.getDataEnd bytes =
        .ok (splice mmbuf.buf mmbuf.getDataEnd bytes) ∧
      ({ mmbuf with buf := splice mmbuf.buf mmbuf.getDataEnd bytes } : Mmbuf).Valid ∧
      ({ mmbuf with buf := splice mmbuf.buf mmbuf.getDataEnd bytes } : Mmbuf).view =
        mmbuf.view := by
  have inside := valid.inside
  have fits : mmbuf.getDataEnd + bytes.length ≤ mmbuf.buf.length := by
    rw [view] at room
    rw [getDataEnd, valid.memory]
    dsimp only at room
    omega
  refine ⟨if_pos fits, ⟨inside, (length_splice fits).trans valid.memory, valid.block⟩, ?_⟩
  rw [view, view]
  dsimp only
  rw [window_splice_of_le fits (le_refl _)]

/-- Data that is written behind the data first, and appended then. -/
theorem append_written {data : Source} {next : Mmbuf}
    (appended : mmbuf.appendData data = .ok next) :
    ({ mmbuf with buf := splice mmbuf.buf mmbuf.getDataEnd data.bytes } : Mmbuf).append data.len =
      .ok (next, mmbuf.getDataEnd) := by
  by_cases room : data.len ≤ mmbuf.availableSpaceAtEnd
  · by_cases fits : mmbuf.getDataEnd + data.bytes.length ≤ mmbuf.buf.length
    · rw [appendData, append, mmosalAssert, if_pos room] at appended
      simp only [bind, Except.bind, pure, Except.pure, writeBytes, if_pos fits] at appended
      cases appended
      rw [append, mmosalAssert]
      exact congrArg (fun checked : Except Fault Unit => checked.bind _) (if_pos room)
    · rw [appendData, append, mmosalAssert, if_pos room] at appended
      simp only [bind, Except.bind, pure, Except.pure, writeBytes, if_neg fits] at appended
      cases appended
  · rw [appendData, append, mmosalAssert, if_neg room] at appended
    cases appended

/-- An append of nothing gives the end of the data. -/
theorem append_zero (mmbuf : Mmbuf) : mmbuf.append 0 = .ok (mmbuf, mmbuf.getDataEnd) := by
  have none : (0 : UInt32) ≤ mmbuf.availableSpaceAtEnd := UInt32.zero_le
  rw [append, mmosalAssert, if_pos none]
  simp only [bind, Except.bind, pure, Except.pure, UInt32.add_zero]

/-! ## A run -/

/-- The run does what it does to the region, and keeps the buffer valid. -/
theorem Valid.run (valid : mmbuf.Valid) (ops : List Op) :
    (mmbuf.run ops).map (fun out => (out.1.view, out.2)) = mmbuf.view.run ops ∧
      ∀ out, mmbuf.run ops = .ok out → out.1.Valid := by
  induction ops generalizing mmbuf with
  | nil =>
      refine ⟨rfl, fun out ok => ?_⟩
      cases ok
      exact valid
  | cons op ops ih =>
      obtain ⟨observed, kept⟩ := valid.simulates op
      cases result : mmbuf.step op with
      | error fault =>
          rw [result, Except.map] at observed
          rw [Mmbuf.run, Region.run, ← observed, result]
          exact ⟨rfl, fun out ok => nomatch ok⟩
      | ok out =>
          rw [result, Except.map] at observed
          obtain ⟨same, later⟩ := ih (kept out result)
          rw [Mmbuf.run, Region.run, ← observed, result]
          simp only [bind, Except.bind, observe]
          rw [← same]
          cases rest : out.1.run ops with
          | error fault => exact ⟨rfl, fun out ok => nomatch ok⟩
          | ok last =>
              refine ⟨rfl, fun final ok => ?_⟩
              cases ok
              exact later last rest

end Mmbuf

/-- An operation of a region has the room it needs, or its assertion fails. -/
theorem Region.exists_step_iff (r : Region) (op : Op) :
    ((∃ next, r.step op = .ok next) ↔ r.Fits op) ∧ r.step op ≠ .error .outOfBounds := by
  have decided {p : Prop} [Decidable p] (next : Region × Option (List UInt8)) :
      ((∃ other, (if p then .ok next else .error Fault.assertion : Except Fault _) = .ok other) ↔
          p) ∧
        (if p then .ok next else .error Fault.assertion : Except Fault _) ≠
          .error .outOfBounds := by
    by_cases holds : p
    · simp [holds]
    · simp [holds]
  cases op with
  | prependData data => exact decided _
  | appendData data => exact decided _
  | truncate len => exact decided _
  | removeFromStart len | removeFromEnd len =>
      rw [Region.step]
      split
      · exact ⟨iff_of_true ⟨_, rfl⟩ trivial, fun error => nomatch error⟩
      · exact ⟨iff_of_true ⟨_, rfl⟩ trivial, fun error => nomatch error⟩
  | makeCopyOnHeap outcome =>
      exact ⟨iff_of_true ⟨_, rfl⟩ trivial, fun error => nomatch error⟩

namespace Mmbuf

/-- What every buffer satisfies that is reached: the data is inside the buffer, the assertion of an
operation says whether there is room for it, nothing outside the buffer is read or written, and a
remove that returns no pointer does nothing. -/
structure Sound (mmbuf : Mmbuf) : Prop where
  inside : mmbuf.startOffset.toNat + mmbuf.dataLen.toNat ≤ mmbuf.bufLen.toNat
  memory : mmbuf.buf.length = mmbuf.bufLen.toNat
  asserts : ∀ op, (∃ next, mmbuf.step op = .ok next) ↔ mmbuf.view.Fits op
  inBounds : ∀ op, mmbuf.step op ≠ .error .outOfBounds
  refusedStart : ∀ len, (mmbuf.removeFromStart len).2 = none →
    (mmbuf.removeFromStart len).1 = mmbuf
  refusedEnd : ∀ len, (mmbuf.removeFromEnd len).2 = none → (mmbuf.removeFromEnd len).1 = mmbuf

theorem Valid.sound {mmbuf : Mmbuf} (valid : mmbuf.Valid) : mmbuf.Sound where
  inside := valid.inside
  memory := valid.memory
  asserts op := by
    rw [← (mmbuf.view.exists_step_iff op).1, ← (valid.simulates op).observed]
    cases mmbuf.step op with
    | error fault => exact iff_of_false (fun ⟨_, ok⟩ => nomatch ok) (fun ⟨_, ok⟩ => nomatch ok)
    | ok out => exact iff_of_true ⟨_, rfl⟩ ⟨_, rfl⟩
  inBounds op error := by
    apply (mmbuf.view.exists_step_iff op).2
    rw [← (valid.simulates op).observed, error, Except.map]
  refusedStart len := by
    rw [removeFromStart]
    split
    · exact fun _ => rfl
    · exact fun pointer => nomatch pointer
  refusedEnd len := by
    rw [removeFromEnd]
    split
    · exact fun _ => rfl
    · exact fun pointer => nomatch pointer

end Mmbuf

/-- A buffer that was allocated. -/
theorem mmbufAllocOnHeap_spec {spaceAtStart spaceAtEnd : UInt32} {outcome : Option (ℕ → UInt8)}
    {mmbuf : Mmbuf}
    (noWrap : spaceAtStart.toNat + spaceAtEnd.toNat + sizeofMmbuf.toNat < 4294967296)
    (allocated : mmbufAllocOnHeap spaceAtStart spaceAtEnd outcome = some mmbuf) :
    mmbuf.Valid ∧ mmbuf.view = Region.initial spaceAtStart spaceAtEnd := by
  have header : (mmFastRoundUp sizeofMmbuf 4).toNat = sizeofMmbuf.toNat := by decide
  have sum : (mmFastRoundUp (spaceAtStart + spaceAtEnd) 4).toNat =
      roundUp4 (spaceAtStart.toNat + spaceAtEnd.toNat) := by
    rw [toNat_mmFastRoundUp, UInt32.toNat_add]
    congr 1
    exact Nat.mod_eq_of_lt (by omega)
  have rounded : roundUp4 (spaceAtStart.toNat + spaceAtEnd.toNat) =
      (spaceAtStart.toNat + spaceAtEnd.toNat + 3) / 4 * 4 := by
    have bound : sizeofMmbuf.toNat = 24 := rfl
    rw [roundUp4]
    omega
  rw [mmbufAllocOnHeap] at allocated
  cases memory : mmosalMalloc (mmFastRoundUp sizeofMmbuf 4 +
      mmFastRoundUp (spaceAtStart + spaceAtEnd) 4) outcome with
  | none =>
      rw [memory] at allocated
      cases allocated
  | some fresh =>
      rw [memory, Option.some_inj] at allocated
      subst allocated
      obtain ⟨nonzero, length⟩ := length_behindHeader memory
      have size : (mmFastRoundUp sizeofMmbuf 4 +
          mmFastRoundUp (spaceAtStart + spaceAtEnd) 4).toNat =
          (sizeofMmbuf.toNat + roundUp4 (spaceAtStart.toNat + spaceAtEnd.toNat)) %
            4294967296 := by
        rw [UInt32.toNat_add, header, sum]
      -- The last sizes wrap to zero, and there is no block of zero bytes.
      have fits : sizeofMmbuf.toNat + roundUp4 (spaceAtStart.toNat + spaceAtEnd.toNat) <
          4294967296 := by
        have bound : sizeofMmbuf.toNat = 24 := rfl
        have some : (mmFastRoundUp sizeofMmbuf 4 +
            mmFastRoundUp (spaceAtStart + spaceAtEnd) 4).toNat ≠ 0 :=
          fun zero => nonzero (UInt32.toNat_inj.mp zero)
        omega
      rw [size, Nat.mod_eq_of_lt fits, Nat.add_sub_cancel_left] at length
      refine ⟨⟨?_, ?_, ?_⟩, ?_⟩
      · simp only [mmbufInit, sum, UInt32.toNat_zero]
        omega
      · simp only [mmbufInit, behindHeader, sum, List.length_drop, List.length_map] at length ⊢
        exact length
      · simp only [mmbufInit, sum]
        exact fits
      · simp only [Mmbuf.view, mmbufInit, sum, UInt32.toNat_zero, window_zero, Nat.add_zero,
          Region.initial]

/-- The allocation of a buffer whose size does not wrap fails only for want of memory. -/
theorem exists_mmbufAllocOnHeap (spaceAtStart spaceAtEnd : UInt32) (contents : ℕ → UInt8)
    (noWrap : spaceAtStart.toNat + spaceAtEnd.toNat + 28 < 4294967296) :
    ∃ mmbuf, mmbufAllocOnHeap spaceAtStart spaceAtEnd (some contents) = some mmbuf ∧
      mmbuf.Valid ∧ mmbuf.view = Region.initial spaceAtStart spaceAtEnd := by
  have header : (mmFastRoundUp sizeofMmbuf 4).toNat = 24 := by decide
  have sum : (spaceAtStart + spaceAtEnd).toNat = spaceAtStart.toNat + spaceAtEnd.toNat := by
    rw [UInt32.toNat_add]
    exact Nat.mod_eq_of_lt (by omega)
  have nonzero : mmFastRoundUp sizeofMmbuf 4 + mmFastRoundUp (spaceAtStart + spaceAtEnd) 4 ≠ 0 := by
    intro zero
    have wrapped := congrArg UInt32.toNat zero
    rw [UInt32.toNat_add, header, toNat_mmFastRoundUp, sum, roundUp4, UInt32.toNat_zero] at wrapped
    omega
  obtain ⟨mmbuf, allocated⟩ : ∃ mmbuf,
      mmbufAllocOnHeap spaceAtStart spaceAtEnd (some contents) = some mmbuf := by
    rw [mmbufAllocOnHeap, mmosalMalloc, if_neg nonzero]
    exact ⟨_, rfl⟩
  have bound : sizeofMmbuf.toNat = 24 := rfl
  exact ⟨mmbuf, allocated, mmbufAllocOnHeap_spec (by omega) allocated⟩

/-- **A buffer is a list of bytes with room on both sides**: every run does what it does to the
list, and every buffer it reaches is sound. -/
theorem mmbuf_run_eq (spaceAtStart spaceAtEnd : UInt32) (outcome : Option (ℕ → UInt8))
    {mmbuf : Mmbuf}
    (noWrap : spaceAtStart.toNat + spaceAtEnd.toNat + sizeofMmbuf.toNat < 4294967296)
    (allocated : mmbufAllocOnHeap spaceAtStart spaceAtEnd outcome = some mmbuf) (ops : List Op) :
    (mmbuf.run ops).map (fun out => (out.1.view, out.2)) =
        (Region.initial spaceAtStart spaceAtEnd).run ops ∧
      ∀ out, mmbuf.run ops = .ok out → out.1.Sound := by
  obtain ⟨valid, view⟩ := mmbufAllocOnHeap_spec noWrap allocated
  obtain ⟨same, kept⟩ := valid.run ops
  rw [view] at same
  exact ⟨same, fun out ok => (kept out ok).sound⟩

/-- A header put in front of a payload, and taken off again. -/
theorem mmbuf_run_eq_header :
    ∃ mmbuf, mmbufAllocOnHeap 2 3 (some fun _ => 0xEE) = some mmbuf ∧
      (mmbuf.run [.appendData ⟨[1, 2, 3], by decide⟩, .prependData ⟨[8, 9], by decide⟩,
        .makeCopyOnHeap (some fun _ => 0xEE), .removeFromStart 2, .removeFromEnd 1]).map
          (fun out => (out.1.view, out.2)) =
        .ok (⟨2, [1, 2], 4⟩, [none, none, none, some [8, 9], some [3]]) := by
  refine ⟨_, rfl, ?_⟩
  exact (mmbuf_run_eq 2 3 (some fun _ => 0xEE) (by decide) rfl _).1

end HalowBridge.Mmutils
