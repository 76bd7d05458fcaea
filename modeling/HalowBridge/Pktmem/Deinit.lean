import HalowBridge.Pktmem.Static
import HalowBridge.Lib.Polling

/-!
# Waiting for packets

`mmhal_wlan_pktmem_deinit` looks at the pools a hundred times, with a sleep after each look in which
other tasks free packets. It is there to let them finish, and stops early when there is nothing left
to wait for.

Neither backend asks that question. The heap backend wants the lists of *free* command blocks to be
empty, where an empty list means that every block is out, and it never looks at the received data
packets: the counter of the transmit pool stands there twice. The static backend has the right
comparison with the wrong sense, so that it waits while nothing is outstanding and goes on at once
when something is. `deinitWaitsForPackets_iff` says when the one waits as it should and that the
other never does. The check for leaks behind the loop is right in the static backend; in the heap
backend it passes over the received data packets too (`log_eq_nil_iff`).
-/

namespace HalowBridge.Pktmem

/-- The number of polls. -/
def deinitPolls : ℕ := 100

/-- What the other tasks do while `mmhal_wlan_pktmem_deinit` sleeps: calls of free functions begin,
and calls in progress move on. -/
structure FreeSchedule (Packet : Type) where
  sleeps : List (List (Turn Packet Bool))
  length_eq : sleeps.length = deinitPolls

/-- Nobody does anything. -/
def FreeSchedule.idle (Packet : Type) : FreeSchedule Packet :=
  ⟨List.replicate deinitPolls [], List.length_replicate⟩

/-- Where a list and the things outside it make up a range, the list is as long as the range exactly
when nothing is outside. -/
theorem length_eq_iff_of_count {l : List ℕ} {n : ℕ} {outside : ℕ → ℕ}
    (parts : ∀ b, l.count b + outside b = if b < n then 1 else 0) :
    l.length = n ↔ ∀ b, outside b = 0 := by
  have range_count (b : ℕ) : (List.range n).count b = l.count b + outside b := by
    rw [parts, List.count_range]
  constructor
  · intro same b
    have inside : l.Subperm (List.range n) :=
      List.subperm_iff_count.mpr fun b => (range_count b).symm ▸ Nat.le_add_right _ _
    have perm := inside.perm_of_length_le (by rw [List.length_range, same])
    have count := range_count b
    rw [perm.count_eq] at count
    omega
  · intro none
    have perm : l.Perm (List.range n) := by
      rw [List.perm_iff_count]
      intro b
      rw [range_count, none, Nat.add_zero]
    rw [perm.length_eq, List.length_range]

namespace Heap

/-- The free functions. -/
def freeing (cfg : Config) : Program PktmemData Call Packet Bool := (program cfg).restrict .free

/-- The call is one of a free function. -/
def Call.InFree (pc : Call) : Prop := pc = .readForUnpause ∨ pc = .unpause

namespace PktmemData

/-- The condition of the loop, a bitwise or compared with zero. -/
def WaitOver (s : PktmemData) : Prop :=
  (s.commandPoolFreeList .tx).length = 0 ∧ (s.commandPoolFreeList .rx).length = 0 ∧
    s.allocated .tx = 0 ∧ s.allocated .tx = 0

instance (s : PktmemData) : Decidable s.WaitOver := inferInstanceAs (Decidable (_ ∧ _ ∧ _ ∧ _))

/-- What is logged about a command pool. -/
def commandLeak (s : PktmemData) (d : Direction) : List (ℤ × String) :=
  if (s.commandPoolFreeList d).length ≠ commandPoolNBlocks then
    [((commandPoolNBlocks : ℤ) - (s.commandPoolFreeList d).length, "command")]
  else []

/-- The potential memory leaks that are logged. -/
def leaks (s : PktmemData) : List (ℤ × String) :=
  (if s.allocated .tx ≠ 0 then [(s.allocated .tx, "data")] else []) ++
    s.commandLeak .tx ++ s.commandLeak .rx

/-- No packet of a pool is outstanding. -/
def Idle (s : PktmemData) : Prop := ∀ packet ∈ s.outstanding, packet = .uncounted

instance (s : PktmemData) : Decidable s.Idle := inferInstanceAs (Decidable (∀ _ ∈ _, _))

/-- Every command block is outstanding, and no transmit data packet is. -/
def OnlyCommandsOut (s : PktmemData) : Prop :=
  (∀ d, ∀ block < commandPoolNBlocks, .command d block ∈ s.outstanding) ∧
    .data .tx ∉ s.outstanding

end PktmemData

/-- The loop: the poll it stopped at, if it did, and the state behind it. -/
def waitLoop (cfg : Config) (s : Threads PktmemData Call) (schedule : FreeSchedule Packet) :
    Option ℕ × Threads PktmemData Call :=
  (freeing cfg).machine.pollLoop (fun t => t.shared.WaitOver) 0 s schedule.sleeps

/-- `mmhal_wlan_pktmem_deinit`: where the loop stopped, and what is logged. -/
def pktmemDeinit (cfg : Config) (s : Threads PktmemData Call) (schedule : FreeSchedule Packet) :
    Option ℕ × List (ℤ × String) :=
  let (stopped, left) := waitLoop cfg s schedule
  (stopped, left.shared.leaks)

/-- The states at the polls. -/
def atPolls (cfg : Config) (s : Threads PktmemData Call) (schedule : FreeSchedule Packet) :
    List (Threads PktmemData Call) :=
  (freeing cfg).machine.polled s schedule.sleeps

/-- The loop stops at the first poll at which no packet of a pool is outstanding, and at no
other. -/
def WaitsForPackets (cfg : Config) (s : Threads PktmemData Call)
    (schedule : FreeSchedule Packet) : Prop :=
  (pktmemDeinit cfg s schedule).1 = (atPolls cfg s schedule).findIdx? (·.shared.Idle)

instance (cfg : Config) (s : Threads PktmemData Call) (schedule : FreeSchedule Packet) :
    Decidable (WaitsForPackets cfg s schedule) :=
  inferInstanceAs (Decidable (_ = _))

/-! ## Runs of frees -/

/-- What holds while no allocation is in progress. -/
structure FreesOnly (cfg : Config) (s : PktmemData) (calls : Multiset Call) : Prop where
  inFree : ∀ pc ∈ calls, pc.InFree
  counted : ∀ d, Counted cfg d s calls
  places : ∀ d block, places d block s calls = if block < commandPoolNBlocks then 1 else 0

variable {cfg : Config} {s : PktmemData} {calls others : Multiset Call}

theorem FreesOnly.enter (holds : FreesOnly cfg s calls) (packet : Packet) :
    FreesOnly cfg (enter s (.free packet)).1 (withCall (enter s (.free packet)).2 calls) where
  counted d := counted_enter _ (holds.counted d)
  places d block := (places_enter d block s calls _).trans (holds.places d block)
  inFree := by
    have inFree := holds.inFree
    rw [Heap.enter]
    split
    · cases packet with
      | data d =>
          cases d with
          | tx =>
              intro pc member
              rcases Multiset.mem_cons.mp member with rfl | other
              · exact .inl rfl
              · exact inFree pc other
          | rx => exact inFree
      | command d block => exact inFree
      | uncounted => exact inFree
    · exact inFree

theorem FreesOnly.advance {pc : Call} (holds : FreesOnly cfg s (pc ::ₘ others)) (outcome : Bool) :
    FreesOnly cfg (advance cfg s pc outcome).1 (withCall (advance cfg s pc outcome).2 others) where
  counted d := counted_advance outcome (holds.counted d)
  places d block := (places_advance cfg d block s pc others outcome).trans (holds.places d block)
  inFree := by
    have inFree : ∀ pc ∈ others, pc.InFree := fun pc member =>
      holds.inFree pc (Multiset.mem_cons_of_mem member)
    rcases holds.inFree pc (Multiset.mem_cons_self pc others) with rfl | rfl
    · rw [Heap.advance]
      split
      · intro pc member
        rcases Multiset.mem_cons.mp member with rfl | other
        · exact .inr rfl
        · exact inFree pc other
      · exact inFree
    · exact inFree

theorem FreesOnly.total_eq_zero {weight : Call → ℕ} (holds : FreesOnly cfg s calls)
    (reads : weight .readForUnpause = 0) (exchanges : weight .unpause = 0) :
    total weight calls = 0 := by
  apply Multiset.sum_eq_zero
  intro n member
  obtain ⟨pc, inside, rfl⟩ := Multiset.mem_map.mp member
  rcases holds.inFree pc inside with rfl | rfl
  · exact reads
  · exact exchanges

/-- The counters are those of the packets. -/
theorem FreesOnly.allocated_eq (holds : FreesOnly cfg s calls) (d : Direction) :
    s.allocated d = s.dataPackets d := by
  have counter := (holds.counted d).counter
  rw [holds.total_eq_zero rfl rfl, holds.total_eq_zero rfl rfl] at counter
  simpa using counter

/-- A block is free or outstanding. -/
theorem FreesOnly.count_eq (holds : FreesOnly cfg s calls) (d : Direction) (block : ℕ) :
    (s.commandPoolFreeList d).count block + s.outstanding.count (.command d block) =
      if block < commandPoolNBlocks then 1 else 0 := by
  have place := holds.places d block
  rwa [Heap.places, holds.total_eq_zero rfl rfl, Nat.add_zero] at place

theorem FreesOnly.length_eq_zero_iff (holds : FreesOnly cfg s calls) (d : Direction) :
    (s.commandPoolFreeList d).length = 0 ↔
      ∀ block < commandPoolNBlocks, .command d block ∈ s.outstanding := by
  constructor
  · intro empty block inside
    have count := holds.count_eq d block
    rw [List.length_eq_zero_iff.mp empty, List.count_nil, Nat.zero_add, if_pos inside] at count
    exact List.count_pos_iff.mp (by omega)
  · intro out
    rw [List.length_eq_zero_iff, List.eq_nil_iff_forall_not_mem]
    intro block member
    have count := holds.count_eq d block
    have free := List.count_pos_iff.mpr member
    by_cases inside : block < commandPoolNBlocks
    · have used := List.count_pos_iff.mpr (out block inside)
      rw [if_pos inside] at count
      omega
    · rw [if_neg inside] at count
      omega

/-- What the condition of the loop says about the packets. -/
theorem FreesOnly.waitOver_iff (holds : FreesOnly cfg s calls) :
    s.WaitOver ↔ s.OnlyCommandsOut := by
  have counter : s.allocated .tx = 0 ↔ .data .tx ∉ s.outstanding := by
    rw [holds.allocated_eq, PktmemData.dataPackets, Int.natCast_eq_zero, List.count_eq_zero]
  rw [PktmemData.WaitOver, holds.length_eq_zero_iff, holds.length_eq_zero_iff, counter, and_self,
    ← and_assoc, PktmemData.OnlyCommandsOut]
  refine and_congr_left fun _ => ⟨fun both d => ?_, fun both => ⟨both .tx, both .rx⟩⟩
  cases d with
  | tx => exact both.1
  | rx => exact both.2

/-- A list of free blocks is full when no block of it is outstanding. -/
theorem FreesOnly.length_eq_iff (holds : FreesOnly cfg s calls) (d : Direction) :
    (s.commandPoolFreeList d).length = commandPoolNBlocks ↔
      ∀ block, .command d block ∉ s.outstanding := by
  rw [length_eq_iff_of_count (holds.count_eq d)]
  simp only [List.count_eq_zero]

/-- The log is silent about received data packets and no others. -/
theorem FreesOnly.leaks_eq_nil_iff (holds : FreesOnly cfg s calls) :
    s.leaks = [] ↔ ∀ packet ∈ s.outstanding, packet = .data .rx ∨ packet = .uncounted := by
  have counter : s.allocated .tx = 0 ↔ .data .tx ∉ s.outstanding := by
    rw [holds.allocated_eq, PktmemData.dataPackets, Int.natCast_eq_zero, List.count_eq_zero]
  have empty {p : Prop} [Decidable p] (entry : ℤ × String) :
      (if p then [entry] else []) = [] ↔ ¬ p := by
    by_cases holds : p <;> simp [holds]
  rw [PktmemData.leaks, PktmemData.commandLeak, PktmemData.commandLeak, List.append_eq_nil_iff,
    List.append_eq_nil_iff, empty, empty, empty, not_not, not_not, not_not, counter,
    holds.length_eq_iff, holds.length_eq_iff]
  constructor
  · rintro ⟨⟨data, tx⟩, rx⟩ packet member
    cases packet with
    | data d =>
        cases d with
        | tx => exact absurd member data
        | rx => exact .inl rfl
    | command d block =>
        cases d with
        | tx => exact absurd member (tx block)
        | rx => exact absurd member (rx block)
    | uncounted => exact .inr rfl
  · intro others
    refine ⟨⟨fun member => ?_, fun block member => ?_⟩, fun block member => ?_⟩
    all_goals
      rcases others _ member with other | other <;> cases other

/-- In every state of the wait. -/
theorem freesOnly_exec {turns : List (Turn Request Bool)}
    (inFree : ∀ pc ∈ (run cfg turns).calls, pc.InFree) (frees : List (Turn Packet Bool)) :
    FreesOnly cfg ((freeing cfg).machine.exec (run cfg turns) frees).shared
      ↑((freeing cfg).machine.exec (run cfg turns) frees).calls := by
  apply (freeing cfg).invariant_from (I := FreesOnly cfg)
  · exact ⟨inFree, fun d => counted_run cfg d turns, fun d block => places_run cfg d block turns⟩
  · exact fun _ _ packet holds => holds.enter packet
  · exact fun _ _ _ outcome holds => holds.advance outcome

/-- What the log says about the packets behind the loop. -/
theorem log_eq_nil_iff {turns : List (Turn Request Bool)}
    (inFree : ∀ pc ∈ (run cfg turns).calls, pc.InFree) (schedule : FreeSchedule Packet) :
    (pktmemDeinit cfg (run cfg turns) schedule).2 = [] ↔
      ∀ packet ∈ (waitLoop cfg (run cfg turns) schedule).2.shared.outstanding,
        packet = .data .rx ∨ packet = .uncounted := by
  obtain ⟨frees, left⟩ := (freeing cfg).machine.exists_exec_pollLoop (·.shared.WaitOver) 0
    (run cfg turns) schedule.sleeps
  have logged : (pktmemDeinit cfg (run cfg turns) schedule).2 =
      (waitLoop cfg (run cfg turns) schedule).2.shared.leaks := rfl
  rw [logged, waitLoop, left]
  exact (freesOnly_exec inFree frees).leaks_eq_nil_iff

/-- The heap backend waits as it should while there is something to wait for throughout, and it does
not take the command blocks for all there is. -/
theorem waitsForPackets_iff {turns : List (Turn Request Bool)}
    (inFree : ∀ pc ∈ (run cfg turns).calls, pc.InFree) (schedule : FreeSchedule Packet) :
    WaitsForPackets cfg (run cfg turns) schedule ↔
      ∀ s ∈ atPolls cfg (run cfg turns) schedule,
        ¬ s.shared.OnlyCommandsOut ∧ ¬ s.shared.Idle := by
  have ended : ∀ s ∈ atPolls cfg (run cfg turns) schedule,
      (s.shared.WaitOver ↔ s.shared.OnlyCommandsOut) := by
    intro s member
    obtain ⟨frees, rfl⟩ := Machine.exists_exec_of_mem_polled _ member
    exact (freesOnly_exec inFree frees).waitOver_iff
  have stopped : (pktmemDeinit cfg (run cfg turns) schedule).1 =
      (atPolls cfg (run cfg turns) schedule).findIdx? (·.shared.WaitOver) :=
    (freeing cfg).machine.pollLoop_zero_fst _ _ _
  rw [WaitsForPackets, stopped, findIdx?_eq_iff_of_disjoint]
  · refine forall₂_congr fun s member => ?_
    rw [ended s member]
  · intro s member wrong idle
    have out := ((ended s member).mp wrong).1 .tx 0 (Nat.succ_pos 1)
    cases idle _ out

end Heap

namespace Static

/-- The free functions. -/
def freeing : Program PktmemData Call Packet Bool := program.restrict .free

namespace PktmemData

/-- The condition of the loop. -/
def WaitOver (cfg : Config) (s : PktmemData) : Prop :=
  (s.freeList (.command .tx)).length ≠ cfg.nBlocks (.command .tx) ∨
    (s.freeList (.data .tx)).length ≠ cfg.nBlocks (.data .tx) ∨
    (s.freeList (.command .rx)).length ≠ cfg.nBlocks (.command .rx) ∨
    (s.freeList (.data .rx)).length ≠ cfg.nBlocks (.data .rx)

instance (cfg : Config) (s : PktmemData) : Decidable (s.WaitOver cfg) :=
  inferInstanceAs (Decidable (_ ∨ _ ∨ _ ∨ _))

/-- What is logged about one pool. -/
def leak (cfg : Config) (s : PktmemData) (pool : Pool) (name : String) : List (ℤ × String) :=
  if (s.freeList pool).length ≠ cfg.nBlocks pool then
    [((cfg.nBlocks pool : ℤ) - (s.freeList pool).length, name)]
  else []

/-- The potential memory leaks that are logged. -/
def leaks (cfg : Config) (s : PktmemData) : List (ℤ × String) :=
  s.leak cfg (.command .tx) "tx cmd" ++ s.leak cfg (.data .tx) "tx data" ++
    s.leak cfg (.command .rx) "rx" ++ s.leak cfg (.data .rx) "rx"

/-- No packet is outstanding. -/
def Idle (s : PktmemData) : Prop := s.outstanding = []

instance (s : PktmemData) : Decidable s.Idle := inferInstanceAs (Decidable (_ = _))

end PktmemData

/-- The loop: the poll it stopped at, if it did, and the state behind it. -/
def waitLoop (cfg : Config) (s : Threads PktmemData Call) (schedule : FreeSchedule Packet) :
    Option ℕ × Threads PktmemData Call :=
  freeing.machine.pollLoop (fun t => t.shared.WaitOver cfg) 0 s schedule.sleeps

/-- `mmhal_wlan_pktmem_deinit`: where the loop stopped, and what is logged. -/
def pktmemDeinit (cfg : Config) (s : Threads PktmemData Call) (schedule : FreeSchedule Packet) :
    Option ℕ × List (ℤ × String) :=
  let (stopped, left) := waitLoop cfg s schedule
  (stopped, left.shared.leaks cfg)

/-- The states at the polls. -/
def atPolls (s : Threads PktmemData Call) (schedule : FreeSchedule Packet) :
    List (Threads PktmemData Call) :=
  freeing.machine.polled s schedule.sleeps

/-- The loop stops at the first poll at which no packet is outstanding, and at no other. -/
def WaitsForPackets (cfg : Config) (s : Threads PktmemData Call)
    (schedule : FreeSchedule Packet) : Prop :=
  (pktmemDeinit cfg s schedule).1 = (atPolls s schedule).findIdx? (·.shared.Idle)

instance (cfg : Config) (s : Threads PktmemData Call) (schedule : FreeSchedule Packet) :
    Decidable (WaitsForPackets cfg s schedule) :=
  inferInstanceAs (Decidable (_ = _))

/-! ## Runs of frees -/

/-- What holds while no allocation is in progress. -/
structure FreesOnly (cfg : Config) (s : PktmemData) (calls : Multiset Call) : Prop where
  calls_eq : calls = 0
  places : ∀ packet, places packet s calls =
    if packet.block < cfg.nBlocks packet.pool then 1 else 0

variable {cfg : Config} {s : PktmemData} {calls : Multiset Call}

/-- A list of free blocks is full when no block of it is outstanding. -/
theorem FreesOnly.length_eq_iff (holds : FreesOnly cfg s calls) (pool : Pool) :
    (s.freeList pool).length = cfg.nBlocks pool ↔ ∀ block, ⟨pool, block⟩ ∉ s.outstanding := by
  have count (block : ℕ) : (s.freeList pool).count block + s.outstanding.count ⟨pool, block⟩ =
      if block < cfg.nBlocks pool then 1 else 0 := by
    have place := holds.places ⟨pool, block⟩
    rwa [Static.places, holds.calls_eq, total_zero, Nat.add_zero] at place
  rw [length_eq_iff_of_count count]
  simp only [List.count_eq_zero]

/-- The condition of the loop is the opposite of what it should be. -/
theorem FreesOnly.waitOver_iff (holds : FreesOnly cfg s calls) :
    s.WaitOver cfg ↔ ¬ s.Idle := by
  have full : ¬ s.WaitOver cfg ↔ ∀ pool, (s.freeList pool).length = cfg.nBlocks pool := by
    rw [PktmemData.WaitOver]
    push Not
    constructor
    · rintro ⟨txCommand, txData, rxCommand, rxData⟩ pool
      match pool with
      | .command .tx => exact txCommand
      | .command .rx => exact rxCommand
      | .data .tx => exact txData
      | .data .rx => exact rxData
    · exact fun all => ⟨all _, all _, all _, all _⟩
  rw [← not_not (a := s.WaitOver cfg), full, not_iff_not, PktmemData.Idle,
    List.eq_nil_iff_forall_not_mem]
  simp only [holds.length_eq_iff]
  exact ⟨fun none packet => none packet.pool packet.block, fun none pool block => none _⟩

/-- The log is silent when nothing is outstanding. -/
theorem FreesOnly.leaks_eq_nil_iff (holds : FreesOnly cfg s calls) :
    s.leaks cfg = [] ↔ s.Idle := by
  have silent (pool : Pool) (name : String) :
      s.leak cfg pool name = [] ↔ (s.freeList pool).length = cfg.nBlocks pool := by
    rw [PktmemData.leak]
    by_cases full : (s.freeList pool).length = cfg.nBlocks pool
    · rw [if_neg (not_not.mpr full)]
      exact iff_of_true rfl full
    · rw [if_pos full]
      exact iff_of_false (List.cons_ne_nil _ _) full
  rw [← not_iff_not, ← holds.waitOver_iff, PktmemData.leaks, PktmemData.WaitOver]
  simp only [List.append_eq_nil_iff, silent, not_and_or, or_assoc, ne_eq]

/-- In every state of the wait. -/
theorem freesOnly_exec {turns : List (Turn Request Bool)} (quiet : (run cfg turns).calls = [])
    (frees : List (Turn Packet Bool)) :
    FreesOnly cfg (freeing.machine.exec (run cfg turns) frees).shared
      ↑(freeing.machine.exec (run cfg turns) frees).calls := by
  apply freeing.invariant_from (I := FreesOnly cfg)
  · exact ⟨congrArg _ quiet, fun packet => places_run cfg packet turns⟩
  · intro s calls packet holds
    refine ⟨?_, fun other => (places_enter other s calls _).trans (holds.places other)⟩
    show withCall (enter s (.free packet)).2 calls = 0
    rw [enter]
    split <;> exact holds.calls_eq
  · exact fun s pc others outcome holds => absurd holds.calls_eq (Multiset.cons_ne_zero)

/-- What the log says about the packets behind the loop. -/
theorem log_eq_nil_iff {turns : List (Turn Request Bool)} (quiet : (run cfg turns).calls = [])
    (schedule : FreeSchedule Packet) :
    (pktmemDeinit cfg (run cfg turns) schedule).2 = [] ↔
      (waitLoop cfg (run cfg turns) schedule).2.shared.Idle := by
  obtain ⟨frees, left⟩ := freeing.machine.exists_exec_pollLoop (·.shared.WaitOver cfg) 0
    (run cfg turns) schedule.sleeps
  have logged : (pktmemDeinit cfg (run cfg turns) schedule).2 =
      (waitLoop cfg (run cfg turns) schedule).2.shared.leaks cfg := rfl
  rw [logged, waitLoop, left]
  exact (freesOnly_exec quiet frees).leaks_eq_nil_iff

/-- The static backend never waits as it should. -/
theorem not_waitsForPackets {turns : List (Turn Request Bool)}
    (quiet : (run cfg turns).calls = []) (schedule : FreeSchedule Packet) :
    ¬ WaitsForPackets cfg (run cfg turns) schedule := by
  have ended (s : Threads PktmemData Call) (member : s ∈ atPolls (run cfg turns) schedule) :
      s.shared.WaitOver cfg ↔ ¬ s.shared.Idle := by
    obtain ⟨frees, rfl⟩ := Machine.exists_exec_of_mem_polled _ member
    exact (freesOnly_exec quiet frees).waitOver_iff
  have stopped : (pktmemDeinit cfg (run cfg turns) schedule).1 =
      (atPolls (run cfg turns) schedule).findIdx? (·.shared.WaitOver cfg) :=
    freeing.machine.pollLoop_zero_fst _ _ _
  rw [WaitsForPackets, stopped, findIdx?_eq_iff_of_disjoint]
  · intro neither
    obtain ⟨first, here⟩ : ∃ first, first ∈ atPolls (run cfg turns) schedule := by
      apply List.exists_mem_of_length_pos
      rw [atPolls, Machine.length_polled, schedule.length_eq]
      exact Nat.succ_pos 99
    have wrong := neither first here
    rw [ended first here, not_not] at wrong
    exact wrong.2 wrong.1
  · exact fun s member wrong => (ended s member).mp wrong

end Static

/-- **When the wait at the end is for packets**: with the heap backend, exactly when some packet of
a pool is outstanding at each poll and at none of them the command blocks are all out with no
transmit data packet beside them; with the static backend, never. -/
theorem deinitWaitsForPackets_iff (heap : Heap.Config)
    (heapTurns : List (Turn Heap.Request Bool))
    (inFree : ∀ pc ∈ (Heap.run heap heapTurns).calls, pc.InFree)
    (heapSchedule : FreeSchedule Heap.Packet) (static : Static.Config)
    (staticTurns : List (Turn Static.Request Bool))
    (quiet : (Static.run static staticTurns).calls = [])
    (staticSchedule : FreeSchedule Static.Packet) :
    (Heap.WaitsForPackets heap (Heap.run heap heapTurns) heapSchedule ↔
      ∀ s ∈ Heap.atPolls heap (Heap.run heap heapTurns) heapSchedule,
        ¬ s.shared.OnlyCommandsOut ∧ ¬ s.shared.Idle) ∧
      ¬ Static.WaitsForPackets static (Static.run static staticTurns) staticSchedule :=
  ⟨Heap.waitsForPackets_iff inFree heapSchedule,
    Static.not_waitsForPackets quiet staticSchedule⟩

/-- A received data packet. -/
def receiveTurns : List (Turn Heap.Request Bool) :=
  [.enter (.alloc .rx .dataTid0), .advance 0 true, .advance 0 true]

/-- While a received data packet is out all the time, the heap backend is right to wait. -/
theorem deinitWaitsForPackets_receive :
    Heap.WaitsForPackets ⟨2, 2⟩ (Heap.run ⟨2, 2⟩ receiveTurns) (.idle _) ∧
      ¬ Static.WaitsForPackets ⟨2, 2⟩ (Static.run ⟨2, 2⟩ []) (.idle _) := by
  have returned : (Heap.run ⟨2, 2⟩ receiveTurns).calls = [] := by decide
  obtain ⟨iff, never⟩ := deinitWaitsForPackets_iff ⟨2, 2⟩ receiveTurns
    (fun pc member => absurd (returned ▸ member) List.not_mem_nil) (.idle _) ⟨2, 2⟩ [] rfl (.idle _)
  refine ⟨iff.mpr fun s member => ?_, never⟩
  rw [Heap.atPolls, FreeSchedule.idle, Machine.polled_replicate_nil] at member
  obtain rfl := List.eq_of_mem_replicate member
  refine ⟨fun commands => ?_, by decide⟩
  exact absurd (commands.1 .tx 0 (Nat.succ_pos 1)) (by decide)

/-- With nothing outstanding the heap backend waits to the end, and with a packet outstanding the
static backend does not wait. -/
theorem not_deinitWaitsForPackets :
    ¬ Heap.WaitsForPackets ⟨2, 2⟩ (Heap.run ⟨2, 2⟩ []) (.idle _) ∧
      ¬ Static.WaitsForPackets ⟨2, 2⟩
        (Static.run ⟨2, 2⟩ [.enter (.alloc .rx .dataTid0), .advance 0 true, .advance 0 true])
        (.idle _) := by
  decide +kernel

end HalowBridge.Pktmem
