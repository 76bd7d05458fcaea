import HalowBridge.Lib.Threads
import Mathlib.Logic.Function.Basic

/-!
# Packet memory on the heap

The functions of `mmpktmem_heap.c` run on any number of tasks. Data packets come from the heap and
are counted; command packets come from two lists of two blocks each, with a fallback when the list
is empty or the block is too small. Each position of a call in progress stands before one atomic
step: a fetch-and-add of a counter, a list operation under the critical section, a read of the
counter or an exchange of the pause flag.

A packet is outstanding from the return of its allocation to the first atomic step of its free
function, which is the step `enter` does for a free. The outcomes of the heap and of
`mmpkt_init_buf` are chosen by the environment. The counters are integers: each call in progress has
a stack of its own, so that 2 ^ 31 of them do not fit the address space.

`Counted` ties a counter to the packets and to the calls that have incremented it, and `Partitioned`
says where a block of a command pool is. Both hold after every turn of every run, and
`heap_accounting` is what they say to the callers.
-/

namespace HalowBridge.Pktmem

/-- The two directions have the same kinds of pools. -/
inductive Direction where
  | tx
  | rx
  deriving DecidableEq

/-- `enum mmhal_wlan_pkt_class` -/
inductive PktClass where
  | dataTid (tid : Fin 8)
  | management
  | command
  deriving DecidableEq

/-- The class of data frames. -/
def PktClass.dataTid0 : PktClass := .dataTid ⟨0, Nat.succ_pos 7⟩

namespace Heap

/-- The sizes of the build configuration. -/
structure Config where
  txPoolNBlocks : ℕ
  rxPoolNBlocks : ℕ

def Config.poolNBlocks (cfg : Config) : Direction → ℕ
  | .tx => cfg.txPoolNBlocks
  | .rx => cfg.rxPoolNBlocks

def commandPoolNBlocks : ℕ := 2

def Config.txDataPoolUnpauseThreshold (cfg : Config) : ℤ := cfg.txPoolNBlocks - 2

def Config.txDataPoolPauseThreshold (cfg : Config) : ℤ := cfg.txPoolNBlocks - 1

/-- A packet, by the free function it carries. -/
inductive Packet where
  /-- A block of the command pool. -/
  | command (d : Direction) (block : ℕ)
  /-- A counted packet of the heap. -/
  | data (d : Direction)
  /-- A received command on the heap, which is not counted. -/
  | uncounted
  deriving DecidableEq

/-- `struct pktmem_data`, and the packets that are outstanding. -/
structure PktmemData where
  allocated : Direction → ℤ
  txDataPoolTxPaused : Bool
  commandPoolFreeList : Direction → List ℕ
  outstanding : List Packet

/-- After `mmhal_wlan_pktmem_init`. -/
def pktmemInit : PktmemData where
  allocated := fun _ => 0
  txDataPoolTxPaused := false
  commandPoolFreeList := fun _ => List.range commandPoolNBlocks
  outstanding := []

/-- Where a call in progress stands. -/
inductive Call where
  /-- Before the dequeue of `alloc_pkt_from_list`. -/
  | dequeue (d : Direction)
  /-- With a block, before `mmpkt_init_buf`. -/
  | initBuf (d : Direction) (block : ℕ)
  /-- With a block that was too small, before the free function of the pool. -/
  | giveBack (d : Direction) (block : ℕ)
  /-- Before the fetch-and-add. -/
  | fetchAdd (d : Direction)
  /-- The maximum was reached; before the fetch-and-sub. -/
  | reject (d : Direction)
  /-- Before `mmpkt_alloc_on_heap`. -/
  | allocOnHeap (d : Direction)
  /-- The heap was empty; before the fetch-and-sub. -/
  | rollback (d : Direction)
  /-- With a packet, before the counter is read again. -/
  | readForPause
  /-- With a packet, before the exchange. -/
  | pause
  /-- In a free, before the counter is read again. -/
  | readForUnpause
  /-- In a free, before the exchange. -/
  | unpause
  /-- A received command without a block, before `mmpkt_alloc_on_heap`. -/
  | commandOnHeap
  deriving DecidableEq

/-- The functions that are called. -/
inductive Request where
  | alloc (d : Direction) (pktClass : PktClass)
  | free (packet : Packet)
  deriving DecidableEq

namespace PktmemData

/-- An atomic addition to a counter. -/
def count (s : PktmemData) (d : Direction) (change : ℤ) : PktmemData :=
  { s with allocated := Function.update s.allocated d (s.allocated d + change) }

def setFreeList (s : PktmemData) (d : Direction) (blocks : List ℕ) : PktmemData :=
  { s with commandPoolFreeList := Function.update s.commandPoolFreeList d blocks }

/-- `tx_command_reserved_free` and `rx_command_reserved_free` -/
def commandReservedFree (s : PktmemData) (d : Direction) (block : ℕ) : PktmemData :=
  s.setFreeList d (s.commandPoolFreeList d ++ [block])

/-- `atomic_exchange` on the pause flag. -/
def setPaused (s : PktmemData) (paused : Bool) : PktmemData :=
  { s with txDataPoolTxPaused := paused }

/-- An allocation returns the packet. -/
def handOut (s : PktmemData) (packet : Packet) : PktmemData :=
  { s with outstanding := packet :: s.outstanding }

/-- The packet is given to its free function. -/
def takeBack (s : PktmemData) (packet : Packet) : PktmemData :=
  { s with outstanding := s.outstanding.erase packet }

end PktmemData

/-- What an allocation does when the command pool has no block for it. -/
def withoutBlock : Direction → Call
  | .tx => .fetchAdd .tx
  | .rx => .commandOnHeap

/-- The first atomic step of a free function. -/
def freePacket (s : PktmemData) : Packet → PktmemData × Option Call
  | .command d block => (s.commandReservedFree d block, none)
  | .data .tx => (s.count .tx (-1), some .readForUnpause)
  | .data .rx => (s.count .rx (-1), none)
  | .uncounted => (s, none)

/-- A call begins. Only a packet that is outstanding is freed. -/
def enter (s : PktmemData) : Request → PktmemData × Option Call
  | .alloc d .command => (s, some (.dequeue d))
  | .alloc d _ => (s, some (.fetchAdd d))
  | .free packet =>
      if packet ∈ s.outstanding then freePacket (s.takeBack packet) packet else (s, none)

/-- The next atomic step of a call, with the outcome of the allocation it makes, if any. -/
def advance (cfg : Config) (s : PktmemData) : Call → Bool → PktmemData × Option Call
  | .dequeue d, _ =>
      match s.commandPoolFreeList d with
      | [] => (s, some (withoutBlock d))
      | block :: blocks => (s.setFreeList d blocks, some (.initBuf d block))
  | .initBuf d block, true => (s.handOut (.command d block), none)
  | .initBuf d block, false => (s, some (.giveBack d block))
  | .giveBack d block, _ => (s.commandReservedFree d block, some (withoutBlock d))
  | .fetchAdd d, _ =>
      (s.count d 1,
        some (if s.allocated d ≥ cfg.poolNBlocks d then .reject d else .allocOnHeap d))
  | .reject d, _ => (s.count d (-1), none)
  | .allocOnHeap .tx, true => (s, some .readForPause)
  | .allocOnHeap .rx, true => (s.handOut (.data .rx), none)
  | .allocOnHeap d, false => (s, some (.rollback d))
  | .rollback d, _ => (s.count d (-1), none)
  | .readForPause, _ =>
      if s.allocated .tx > cfg.txDataPoolPauseThreshold then (s, some .pause)
      else (s.handOut (.data .tx), none)
  | .pause, _ => ((s.handOut (.data .tx)).setPaused true, none)
  | .readForUnpause, _ =>
      if s.allocated .tx < cfg.txDataPoolUnpauseThreshold then (s, some .unpause) else (s, none)
  | .unpause, _ => (s.setPaused false, none)
  | .commandOnHeap, true => (s.handOut .uncounted, none)
  | .commandOnHeap, false => (s, none)

/-- The functions of the backend. -/
def program (cfg : Config) : Program PktmemData Call Request Bool := ⟨enter, advance cfg⟩

/-- A run of any number of callers since the initialisation. -/
def run (cfg : Config) (turns : List (Turn Request Bool)) : Threads PktmemData Call :=
  (program cfg).machine.exec ⟨pktmemInit, []⟩ turns

/-! ## The steps on the fields -/

namespace PktmemData

/-- The number of outstanding data packets. -/
def dataPackets (s : PktmemData) (d : Direction) : ℕ := s.outstanding.count (.data d)

variable (s : PktmemData) (d e : Direction) (change : ℤ) (blocks : List ℕ) (paused : Bool)
  (packet : Packet)

@[simp] theorem allocated_count :
    (s.count d change).allocated e = s.allocated e + if e = d then change else 0 := by
  by_cases same : e = d
  · subst same
    simp [count]
  · simp [count, same]

@[simp] theorem allocated_setFreeList : (s.setFreeList d blocks).allocated = s.allocated := rfl

@[simp] theorem allocated_setPaused : (s.setPaused paused).allocated = s.allocated := rfl

@[simp] theorem allocated_handOut : (s.handOut packet).allocated = s.allocated := rfl

@[simp] theorem allocated_takeBack : (s.takeBack packet).allocated = s.allocated := rfl

@[simp] theorem outstanding_count : (s.count d change).outstanding = s.outstanding := rfl

@[simp] theorem outstanding_setFreeList :
    (s.setFreeList d blocks).outstanding = s.outstanding := rfl

@[simp] theorem outstanding_setPaused : (s.setPaused paused).outstanding = s.outstanding := rfl

@[simp] theorem outstanding_handOut :
    (s.handOut packet).outstanding = packet :: s.outstanding := rfl

@[simp] theorem commandPoolFreeList_count :
    (s.count d change).commandPoolFreeList = s.commandPoolFreeList := rfl

@[simp] theorem commandPoolFreeList_setFreeList :
    (s.setFreeList d blocks).commandPoolFreeList e =
      if e = d then blocks else s.commandPoolFreeList e :=
  Function.update_apply _ _ _ _

@[simp] theorem commandPoolFreeList_setPaused :
    (s.setPaused paused).commandPoolFreeList = s.commandPoolFreeList := rfl

@[simp] theorem commandPoolFreeList_handOut :
    (s.handOut packet).commandPoolFreeList = s.commandPoolFreeList := rfl

@[simp] theorem commandPoolFreeList_takeBack :
    (s.takeBack packet).commandPoolFreeList = s.commandPoolFreeList := rfl

@[simp] theorem txDataPoolTxPaused_count :
    (s.count d change).txDataPoolTxPaused = s.txDataPoolTxPaused := rfl

@[simp] theorem txDataPoolTxPaused_setFreeList :
    (s.setFreeList d blocks).txDataPoolTxPaused = s.txDataPoolTxPaused := rfl

@[simp] theorem txDataPoolTxPaused_setPaused : (s.setPaused paused).txDataPoolTxPaused = paused :=
  rfl

@[simp] theorem txDataPoolTxPaused_handOut :
    (s.handOut packet).txDataPoolTxPaused = s.txDataPoolTxPaused := rfl

@[simp] theorem txDataPoolTxPaused_takeBack :
    (s.takeBack packet).txDataPoolTxPaused = s.txDataPoolTxPaused := rfl

@[simp] theorem dataPackets_count : (s.count d change).dataPackets e = s.dataPackets e := rfl

@[simp] theorem dataPackets_setFreeList :
    (s.setFreeList d blocks).dataPackets e = s.dataPackets e := rfl

@[simp] theorem dataPackets_setPaused : (s.setPaused paused).dataPackets e = s.dataPackets e := rfl

@[simp] theorem dataPackets_handOut :
    (s.handOut packet).dataPackets e = s.dataPackets e + if packet = .data e then 1 else 0 := by
  simp only [dataPackets, handOut, List.count_cons, beq_iff_eq]

/-- A packet taken back was one of those outstanding. -/
theorem count_takeBack {packet : Packet} (member : packet ∈ s.outstanding) (other : Packet) :
    s.outstanding.count other =
      (s.takeBack packet).outstanding.count other + if packet = other then 1 else 0 :=
  count_eq_count_erase member other

end PktmemData

/-! ## The counters -/

/-- The call has incremented the counter and was let through. -/
@[simp] def admitted (d : Direction) : Call → ℕ
  | .allocOnHeap e | .rollback e => if e = d then 1 else 0
  | .readForPause | .pause => if .tx = d then 1 else 0
  | _ => 0

/-- The call has incremented the counter and was turned away. -/
@[simp] def rejected (d : Direction) : Call → ℕ
  | .reject e => if e = d then 1 else 0
  | _ => 0

/-- The counter counts the packets and the calls that have incremented it, and those that were let
through are within the limit. -/
structure Counted (cfg : Config) (d : Direction) (s : PktmemData) (calls : Multiset Call) :
    Prop where
  counter : s.allocated d =
    s.dataPackets d + total (admitted d) calls + total (rejected d) calls
  limit : s.dataPackets d + total (admitted d) calls ≤ cfg.poolNBlocks d

/-- A step that leaves the counter alone passes a packet on. -/
theorem Counted.passOn {cfg : Config} {e : Direction} {s t : PktmemData}
    {calls after : Multiset Call} (holds : Counted cfg e s calls)
    (counter : t.allocated e = s.allocated e)
    (packets : t.dataPackets e + total (admitted e) after =
      s.dataPackets e + total (admitted e) calls)
    (rejections : total (rejected e) after = total (rejected e) calls) :
    Counted cfg e t after := by
  obtain ⟨before, limit⟩ := holds
  constructor <;> omega

theorem counted_advance {cfg : Config} {e : Direction} {s : PktmemData} {pc : Call}
    {others : Multiset Call} (outcome : Bool) (holds : Counted cfg e s (pc ::ₘ others)) :
    Counted cfg e (advance cfg s pc outcome).1 (withCall (advance cfg s pc outcome).2 others) := by
  cases pc with
  | dequeue d =>
      simp only [advance]
      split <;> cases d <;> apply holds.passOn <;> simp [withoutBlock]
  | initBuf d block => cases outcome <;> apply holds.passOn <;> simp [advance]
  | giveBack d block =>
      cases d <;> apply holds.passOn <;>
        simp [advance, withoutBlock, PktmemData.commandReservedFree]
  | fetchAdd d =>
      obtain ⟨counter, limit⟩ := holds
      -- Only an increment from below the limit is let through.
      cases d <;> cases e <;> simp only [advance] <;> split <;> constructor <;>
        simp at counter limit ⊢ <;> omega
  | reject d | rollback d =>
      obtain ⟨counter, limit⟩ := holds
      cases d <;> cases e <;> constructor <;> simp [advance] at counter limit ⊢ <;> omega
  | allocOnHeap d =>
      cases outcome <;> cases d <;> cases e <;> apply holds.passOn <;> simp [advance, add_assoc]
  | readForPause =>
      simp only [advance]
      split <;> cases e <;> apply holds.passOn <;> simp [add_assoc]
  | pause => cases e <;> apply holds.passOn <;> simp [advance, add_assoc]
  | readForUnpause =>
      simp only [advance]
      split <;> apply holds.passOn <;> simp
  | unpause => apply holds.passOn <;> simp [advance]
  | commandOnHeap => cases outcome <;> apply holds.passOn <;> simp [advance]

theorem counted_freePacket {cfg : Config} {e : Direction} {s : PktmemData}
    {calls : Multiset Call} {packet : Packet} (member : packet ∈ s.outstanding)
    (holds : Counted cfg e s calls) :
    Counted cfg e (freePacket (s.takeBack packet) packet).1
      (withCall (freePacket (s.takeBack packet) packet).2 calls) := by
  have packets := s.count_takeBack member (.data e)
  obtain ⟨counter, limit⟩ := holds
  rw [PktmemData.dataPackets, packets] at counter limit
  cases packet with
  | command d block =>
      constructor <;>
        · simp [freePacket, PktmemData.commandReservedFree, PktmemData.dataPackets] at *
          omega
  | data d =>
      cases d <;> cases e <;> constructor <;>
        · simp [freePacket, PktmemData.dataPackets] at *
          omega
  | uncounted =>
      constructor <;>
        · simp [freePacket, PktmemData.dataPackets] at *
          omega

theorem counted_enter {cfg : Config} {e : Direction} {s : PktmemData} {calls : Multiset Call}
    (request : Request) (holds : Counted cfg e s calls) :
    Counted cfg e (enter s request).1 (withCall (enter s request).2 calls) := by
  cases request with
  | alloc d pktClass => cases pktClass <;> apply holds.passOn <;> simp [enter]
  | free packet =>
      rw [enter]
      split
      · exact counted_freePacket ‹_› holds
      · exact holds

/-- The counters stay right in every run. -/
theorem counted_run (cfg : Config) (d : Direction) (turns : List (Turn Request Bool)) :
    Counted cfg d (run cfg turns).shared ↑(run cfg turns).calls := by
  apply (program cfg).invariant
  · exact ⟨rfl, Nat.zero_le _⟩
  · exact fun s calls request holds => counted_enter request holds
  · exact fun s pc others outcome holds => counted_advance outcome holds

/-! ## The command pools -/

/-- The call holds the block. -/
@[simp] def held (d : Direction) (block : ℕ) : Call → ℕ
  | .initBuf e b | .giveBack e b => if e = d ∧ b = block then 1 else 0
  | _ => 0

/-- How often a block is free, being allocated or outstanding. -/
def places (d : Direction) (block : ℕ) (s : PktmemData) (calls : Multiset Call) : ℕ :=
  (s.commandPoolFreeList d).count block + total (held d block) calls +
    s.outstanding.count (.command d block)

theorem places_advance (cfg : Config) (e : Direction) (block : ℕ) (s : PktmemData) (pc : Call)
    (others : Multiset Call) (outcome : Bool) :
    places e block (advance cfg s pc outcome).1 (withCall (advance cfg s pc outcome).2 others) =
      places e block s (pc ::ₘ others) := by
  cases pc with
  | dequeue d =>
      simp only [advance]
      split
      · cases d <;> simp [places, withoutBlock]
      · rename_i first blocks list
        by_cases same : d = e
        · subst same
          simp [places, list, List.count_cons]
          omega
        · simp [places, same, Ne.symm same]
  | initBuf d first =>
      cases outcome
      · simp [places, advance]
      · simp [places, advance, List.count_cons]
        omega
  | giveBack d first =>
      cases d <;> cases e <;>
        simp [places, advance, withoutBlock, PktmemData.commandReservedFree, List.count_append,
          List.count_singleton] <;> omega
  | fetchAdd d =>
      simp only [advance]
      split <;> simp [places]
  | reject d => simp [places, advance]
  | allocOnHeap d => cases outcome <;> cases d <;> simp [places, advance]
  | rollback d => simp [places, advance]
  | readForPause =>
      simp only [advance]
      split <;> simp [places]
  | pause => simp [places, advance]
  | readForUnpause =>
      simp only [advance]
      split <;> simp [places]
  | unpause => simp [places, advance]
  | commandOnHeap => cases outcome <;> simp [places, advance]

theorem places_enter (e : Direction) (block : ℕ) (s : PktmemData) (calls : Multiset Call)
    (request : Request) :
    places e block (enter s request).1 (withCall (enter s request).2 calls) =
      places e block s calls := by
  cases request with
  | alloc d pktClass => cases pktClass <;> simp [places, enter]
  | free packet =>
      rw [enter]
      split
      · have packets := s.count_takeBack ‹_› (.command e block)
        cases packet with
        | command d first =>
            cases d <;> cases e <;>
              simp [places, freePacket, PktmemData.commandReservedFree, List.count_singleton]
                at packets ⊢ <;> omega
        | data d => cases d <;> simp_all [places, freePacket]
        | uncounted => simp_all [places, freePacket]
      · rfl

/-- A block of a command pool is always in one place, and no other block ever turns up. -/
theorem places_run (cfg : Config) (d : Direction) (block : ℕ) (turns : List (Turn Request Bool)) :
    places d block (run cfg turns).shared ↑(run cfg turns).calls =
      if block < commandPoolNBlocks then 1 else 0 := by
  apply (program cfg).invariant (I := fun s calls => places d block s calls = _)
  · simp [places, pktmemInit, List.count_range]
  · exact fun s calls request holds => (places_enter d block s calls request).trans holds
  · exact fun s pc others outcome holds =>
      (places_advance cfg d block s pc others outcome).trans holds

/-- **The accounting of the heap backend**: the limits hold at every time, each block of a command
pool is in exactly one place, and between calls the counters are the numbers of outstanding
packets. -/
theorem heap_accounting (cfg : Config) (turns : List (Turn Request Bool)) :
    (∀ d, (run cfg turns).shared.dataPackets d ≤ cfg.poolNBlocks d) ∧
      (∀ d block, block < commandPoolNBlocks →
        places d block (run cfg turns).shared ↑(run cfg turns).calls = 1) ∧
      ((run cfg turns).calls = [] →
        ∀ d, (run cfg turns).shared.allocated d = (run cfg turns).shared.dataPackets d) := by
  refine ⟨?_, ?_, ?_⟩
  · intro d
    exact (Nat.le_add_right _ _).trans (counted_run cfg d turns).limit
  · intro d block inside
    rw [places_run, if_pos inside]
  · intro quiet d
    have counter := (counted_run cfg d turns).counter
    rw [quiet] at counter
    simpa using counter

end Heap

end HalowBridge.Pktmem
