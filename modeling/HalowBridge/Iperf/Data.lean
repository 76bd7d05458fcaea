import Mathlib.Data.Nat.Notation

/-!
# The bytes of iperf and its clock

All data that an iperf client sends comes from one table, in which the digits repeat. The table is
longer than a segment, so that a client can begin at any of the ten digits and send a whole segment
from there.
-/

namespace HalowBridge.Iperf

/-- The bytes of `iperf_get_data`. -/
def iperfData (i : ℕ) : UInt8 := UInt8.ofNat (0x30 + i % 10)

/-- `sizeof(iperf_data)` -/
def iperfDataLen : ℕ := 1600

/-- `iperf_get_data`, as an index of the table. -/
def iperfGetData (offset : UInt32) : ℕ := (offset % 10).toNat

/-- Part of a source object, by its offset and its length. -/
structure Slice where
  offset : ℕ
  len : ℕ
  deriving DecidableEq

/-- The slice lies inside an object. -/
def Slice.Inside (slice : Slice) (size : ℕ) : Prop := slice.offset + slice.len ≤ size

instance (slice : Slice) (size : ℕ) : Decidable (slice.Inside size) :=
  inferInstanceAs (Decidable (_ ≤ _))

/-- The clock, `sys_now` or `mmosal_get_time_ms`, at a time in milliseconds. -/
def sysNow (time : ℕ) : UInt32 := UInt32.ofNat time

end HalowBridge.Iperf
