import HalowBridge.Lib.Window
import HalowBridge.Mmutils.RoundUp

/-!
# Packet buffers

An `mmbuf` is a block of memory with the data of a packet somewhere in the middle. Headers and
trailers are put around the data and taken off again by moving two offsets of 32 bits, and what is
taken off becomes room for the next layer. A failed assertion and an access outside the memory of
the buffer end a run.
-/

namespace HalowBridge.Mmutils

/-- `struct mmbuf`, with the memory behind the header in place of the pointer to it. -/
structure Mmbuf where
  buf : List UInt8
  bufLen : UInt32
  startOffset : UInt32
  dataLen : UInt32
  deriving DecidableEq

/-- `sizeof(struct mmbuf)` -/
def sizeofMmbuf : UInt32 := 24

/-- What ends the program. -/
inductive Fault where
  | assertion
  | outOfBounds
  deriving DecidableEq

/-- `MMOSAL_ASSERT` -/
def mmosalAssert (p : Prop) [Decidable p] : Except Fault Unit :=
  if p then .ok () else .error .assertion

/-- The bytes that `memcpy` reads. -/
def readBytes (memory : List UInt8) (src n : ℕ) : Except Fault (List UInt8) :=
  if src + n ≤ memory.length then .ok (window memory src n) else .error .outOfBounds

/-- The bytes that `memcpy` writes. -/
def writeBytes (memory : List UInt8) (dest : ℕ) (bytes : List UInt8) :
    Except Fault (List UInt8) :=
  if dest + bytes.length ≤ memory.length then .ok (splice memory dest bytes)
  else .error .outOfBounds

/-- `mmosal_malloc`: nothing, or a block with anything in it. There is no block of zero bytes. -/
def mmosalMalloc (size : UInt32) (outcome : Option (ℕ → UInt8)) : Option (List UInt8) :=
  if size = 0 then none else outcome.map fun contents => (List.range size.toNat).map contents

/-- `mmbuf_init` -/
def mmbufInit (buf : List UInt8) (bufLen dataStartOffset : UInt32) : Mmbuf :=
  ⟨buf, bufLen, dataStartOffset, 0⟩

/-- The memory behind the header. -/
def behindHeader (memory : List UInt8) : List UInt8 :=
  memory.drop (mmFastRoundUp sizeofMmbuf 4).toNat

/-- `mmbuf_alloc_on_heap` -/
def mmbufAllocOnHeap (spaceAtStart spaceAtEnd : UInt32) (outcome : Option (ℕ → UInt8)) :
    Option Mmbuf :=
  let allocLen := mmFastRoundUp sizeofMmbuf 4 + mmFastRoundUp (spaceAtStart + spaceAtEnd) 4
  match mmosalMalloc allocLen outcome with
  | none => none
  | some memory =>
      let zeroed := memory.map fun _ => 0
      some (mmbufInit (behindHeader zeroed) (mmFastRoundUp (spaceAtStart + spaceAtEnd) 4)
        spaceAtStart)

/-- Bytes that a caller has, with a length of 32 bits. -/
structure Source where
  bytes : List UInt8
  length_lt : bytes.length < 4294967296

def Source.len (data : Source) : UInt32 := UInt32.ofNat data.bytes.length

namespace Mmbuf

variable (mmbuf : Mmbuf)

/-- `mmbuf_get_data_start`, as an offset into the buffer -/
def getDataStart : ℕ := mmbuf.startOffset.toNat

/-- `mmbuf_get_data_end` -/
def getDataEnd : ℕ := mmbuf.startOffset.toNat + mmbuf.dataLen.toNat

/-- `mmbuf_available_space_at_start` -/
def availableSpaceAtStart : UInt32 := mmbuf.startOffset

/-- `mmbuf_available_space_at_end` -/
def availableSpaceAtEnd : UInt32 := mmbuf.bufLen - (mmbuf.startOffset + mmbuf.dataLen)

/-- `mmbuf_prepend` -/
def prepend (len : UInt32) : Except Fault (Mmbuf × ℕ) := do
  mmosalAssert (len ≤ mmbuf.availableSpaceAtStart)
  let startOffset := mmbuf.startOffset - len
  return ({ mmbuf with startOffset := startOffset, dataLen := mmbuf.dataLen + len },
    startOffset.toNat)

/-- `mmbuf_prepend_data` -/
def prependData (data : Source) : Except Fault Mmbuf := do
  let (mmbuf, dest) ← mmbuf.prepend data.len
  let buf ← writeBytes mmbuf.buf dest data.bytes
  return { mmbuf with buf := buf }

/-- `mmbuf_append` -/
def append (len : UInt32) : Except Fault (Mmbuf × ℕ) := do
  let ret := mmbuf.getDataEnd
  mmosalAssert (len ≤ mmbuf.availableSpaceAtEnd)
  return ({ mmbuf with dataLen := mmbuf.dataLen + len }, ret)

/-- `mmbuf_append_data` -/
def appendData (data : Source) : Except Fault Mmbuf := do
  let (mmbuf, dest) ← mmbuf.append data.len
  let buf ← writeBytes mmbuf.buf dest data.bytes
  return { mmbuf with buf := buf }

/-- `mmbuf_remove_from_start`, with the pointer that it returns -/
def removeFromStart (len : UInt32) : Mmbuf × Option ℕ :=
  if mmbuf.dataLen < len then (mmbuf, none)
  else
    ({ mmbuf with startOffset := mmbuf.startOffset + len, dataLen := mmbuf.dataLen - len },
      some mmbuf.getDataStart)

/-- `mmbuf_remove_from_end` -/
def removeFromEnd (len : UInt32) : Mmbuf × Option ℕ :=
  if mmbuf.dataLen < len then (mmbuf, none)
  else
    ({ mmbuf with dataLen := mmbuf.dataLen - len }, some (mmbuf.getDataEnd - len.toNat))

/-- `mmbuf_truncate` -/
def truncate (len : UInt32) : Except Fault Mmbuf := do
  mmosalAssert (len ≤ mmbuf.dataLen)
  return { mmbuf with dataLen := len }

/-- `mmbuf_make_copy_on_heap` -/
def makeCopyOnHeap (outcome : Option (ℕ → UInt8)) : Except Fault (Option Mmbuf) :=
  match mmosalMalloc (mmFastRoundUp sizeofMmbuf 4 + mmbuf.bufLen) outcome with
  | none => .ok none
  | some memory => do
      let copy := mmbufInit (behindHeader memory) mmbuf.bufLen mmbuf.startOffset
      let copy := { copy with dataLen := mmbuf.dataLen }
      if mmbuf.dataLen ≠ 0 then
        let bytes ← readBytes mmbuf.buf mmbuf.getDataStart mmbuf.dataLen.toNat
        let buf ← writeBytes copy.buf copy.getDataStart bytes
        return some { copy with buf := buf }
      else return some copy

end Mmbuf

/-- The operations on a buffer. -/
inductive Op where
  | prependData (data : Source)
  | appendData (data : Source)
  | removeFromStart (len : UInt32)
  | removeFromEnd (len : UInt32)
  | truncate (len : UInt32)
  | makeCopyOnHeap (outcome : Option (ℕ → UInt8))

/-- The number of bytes that a caller takes from the pointer that is returned. -/
def Op.removed : Op → ℕ
  | .removeFromStart len | .removeFromEnd len => len.toNat
  | _ => 0

/-- One operation, with the pointer it returns to data it removed. A run goes on with the copy that
was made, or with the original when there was no memory. -/
def Mmbuf.step (mmbuf : Mmbuf) : Op → Except Fault (Mmbuf × Option ℕ)
  | .prependData data => (mmbuf.prependData data).map (·, none)
  | .appendData data => (mmbuf.appendData data).map (·, none)
  | .removeFromStart len => .ok (mmbuf.removeFromStart len)
  | .removeFromEnd len => .ok (mmbuf.removeFromEnd len)
  | .truncate len => (mmbuf.truncate len).map (·, none)
  | .makeCopyOnHeap outcome => (mmbuf.makeCopyOnHeap outcome).map (·.getD mmbuf, none)

/-- The operations one after another, with the bytes that each of them removed, read where the
pointer points to. -/
def Mmbuf.run (mmbuf : Mmbuf) : List Op → Except Fault (Mmbuf × List (Option (List UInt8)))
  | [] => .ok (mmbuf, [])
  | op :: ops => do
      let (next, ret) ← mmbuf.step op
      let (last, removed) ← next.run ops
      return (last, ret.map (window next.buf · op.removed) :: removed)

end HalowBridge.Mmutils
