import HalowBridge.Pktmem.Heap

/-!
# Packet memory in static pools

The functions of `mmpktmem_static.c` give out the blocks of four pools, each with a list of its free
blocks. A dequeue, the append of a free and an update of the pause flag are critical sections, and
the append that gives a rejected block back is one step too. A transmit allocation ends with an
update of the flag in a section of its own.

Every block is always in exactly one place (`places_run`). The flag is another matter: a free checks
whether it can unpause the path and an update whether it must pause it, but the append of a rejected
block checks nothing. `static_flowControl` says that this is the only way for the flag to be wrong
between calls.
-/

namespace HalowBridge.Pktmem.Static

/-- The four pools. -/
inductive Pool where
  | command (d : Direction)
  | data (d : Direction)
  deriving DecidableEq

/-- The sizes of the build configuration. -/
structure Config where
  txPoolNBlocks : ℕ
  rxPoolNBlocks : ℕ

def Config.nBlocks (cfg : Config) : Pool → ℕ
  | .command _ => 2
  | .data .tx => cfg.txPoolNBlocks
  | .data .rx => cfg.rxPoolNBlocks

def txDataPoolUnpauseThreshold : ℕ := 2

def txDataPoolPauseThreshold : ℕ := 1

/-- A packet is a block of a pool, and its free function is that of the pool. -/
structure Packet where
  pool : Pool
  block : ℕ
  deriving DecidableEq

/-- `struct pktmem_data`, and the packets that are outstanding. -/
structure PktmemData where
  txDataPoolTxPaused : Bool
  freeList : Pool → List ℕ
  outstanding : List Packet

/-- After `mmhal_wlan_pktmem_init`. -/
def pktmemInit (cfg : Config) : PktmemData where
  txDataPoolTxPaused := false
  freeList := fun pool => List.range (cfg.nBlocks pool)
  outstanding := []

/-- Where a call in progress stands. -/
inductive Call where
  /-- Before the dequeue of `alloc_pkt_from_list`. -/
  | dequeue (pool : Pool)
  /-- With a block, before `mmpkt_init_buf`. -/
  | initBuf (pool : Pool) (block : ℕ)
  /-- With a block that was too small, before it is put back. -/
  | reappend (pool : Pool) (block : ℕ)
  /-- A transmit allocation with its packet, if it has one, before the update of the flag. -/
  | update (block : Option ℕ)
  deriving DecidableEq

/-- The functions that are called. -/
inductive Request where
  | alloc (d : Direction) (pktClass : PktClass)
  | free (packet : Packet)
  deriving DecidableEq

namespace PktmemData

def setFreeList (s : PktmemData) (pool : Pool) (blocks : List ℕ) : PktmemData :=
  { s with freeList := Function.update s.freeList pool blocks }

/-- `mmpkt_list_append` on the list of the pool. -/
def append (s : PktmemData) (pool : Pool) (block : ℕ) : PktmemData :=
  s.setFreeList pool (s.freeList pool ++ [block])

/-- `tx_data_pool_free_list.len` -/
def txDataLen (s : PktmemData) : ℕ := (s.freeList (.data .tx)).length

def setPaused (s : PktmemData) (paused : Bool) : PktmemData :=
  { s with txDataPoolTxPaused := paused }

/-- An allocation returns the packet. -/
def handOut (s : PktmemData) (packet : Packet) : PktmemData :=
  { s with outstanding := packet :: s.outstanding }

/-- The packet is given to its free function. -/
def takeBack (s : PktmemData) (packet : Packet) : PktmemData :=
  { s with outstanding := s.outstanding.erase packet }

/-- `_tx_data_free` -/
def txDataFree (s : PktmemData) (block : ℕ) : PktmemData :=
  let s := s.append (.data .tx) block
  if s.txDataPoolTxPaused ∧ s.txDataLen ≥ txDataPoolUnpauseThreshold then s.setPaused false else s

/-- `update_tx_flow_control_state` -/
def updateTxFlowControlState (s : PktmemData) : PktmemData :=
  if ¬ s.txDataPoolTxPaused ∧ s.txDataLen ≤ txDataPoolPauseThreshold then s.setPaused true else s

end PktmemData

/-- What an allocation does when the pool has no block for it. -/
def withoutBlock : Pool → Option Call
  | .command d => some (.dequeue (.data d))
  | .data .tx => some (.update none)
  | .data .rx => none

/-- The free function of a packet, one critical section. -/
def freePacket (s : PktmemData) : Packet → PktmemData
  | ⟨.data .tx, block⟩ => s.txDataFree block
  | ⟨pool, block⟩ => s.append pool block

/-- A call begins. Only a packet that is outstanding is freed. -/
def enter (s : PktmemData) : Request → PktmemData × Option Call
  | .alloc d .command => (s, some (.dequeue (.command d)))
  | .alloc d _ => (s, some (.dequeue (.data d)))
  | .free packet =>
      if packet ∈ s.outstanding then (freePacket (s.takeBack packet) packet, none) else (s, none)

/-- The next atomic step of a call, with the outcome of `mmpkt_init_buf`. -/
def advance (s : PktmemData) : Call → Bool → PktmemData × Option Call
  | .dequeue pool, _ =>
      match s.freeList pool with
      | [] => (s, withoutBlock pool)
      | block :: blocks => (s.setFreeList pool blocks, some (.initBuf pool block))
  | .initBuf (.data .tx) block, true => (s, some (.update (some block)))
  | .initBuf pool block, true => (s.handOut ⟨pool, block⟩, none)
  | .initBuf pool block, false => (s, some (.reappend pool block))
  | .reappend pool block, _ => (s.append pool block, withoutBlock pool)
  | .update none, _ => (s.updateTxFlowControlState, none)
  | .update (some block), _ => (s.updateTxFlowControlState.handOut ⟨.data .tx, block⟩, none)

/-- The functions of the backend. -/
def program : Program PktmemData Call Request Bool := ⟨enter, advance⟩

/-- A run of any number of callers since the initialisation. -/
def run (cfg : Config) (turns : List (Turn Request Bool)) : Threads PktmemData Call :=
  program.machine.exec ⟨pktmemInit cfg, []⟩ turns

/-! ## The steps on the fields -/

namespace PktmemData

variable (s : PktmemData) (pool other : Pool) (blocks : List ℕ) (block : ℕ) (paused : Bool)
  (packet : Packet)

@[simp] theorem freeList_setFreeList :
    (s.setFreeList pool blocks).freeList other =
      if other = pool then blocks else s.freeList other :=
  Function.update_apply _ _ _ _

@[simp] theorem outstanding_setFreeList :
    (s.setFreeList pool blocks).outstanding = s.outstanding := rfl

@[simp] theorem txDataPoolTxPaused_setFreeList :
    (s.setFreeList pool blocks).txDataPoolTxPaused = s.txDataPoolTxPaused := rfl

@[simp] theorem outstanding_setPaused : (s.setPaused paused).outstanding = s.outstanding := rfl

@[simp] theorem txDataPoolTxPaused_setPaused :
    (s.setPaused paused).txDataPoolTxPaused = paused := rfl

@[simp] theorem freeList_handOut : (s.handOut packet).freeList = s.freeList := rfl

@[simp] theorem outstanding_handOut :
    (s.handOut packet).outstanding = packet :: s.outstanding := rfl

@[simp] theorem txDataPoolTxPaused_handOut :
    (s.handOut packet).txDataPoolTxPaused = s.txDataPoolTxPaused := rfl

@[simp] theorem txDataLen_handOut : (s.handOut packet).txDataLen = s.txDataLen := rfl

@[simp] theorem freeList_takeBack : (s.takeBack packet).freeList = s.freeList := rfl

@[simp] theorem txDataPoolTxPaused_takeBack :
    (s.takeBack packet).txDataPoolTxPaused = s.txDataPoolTxPaused := rfl

@[simp] theorem outstanding_append : (s.append pool block).outstanding = s.outstanding := rfl

@[simp] theorem txDataPoolTxPaused_append :
    (s.append pool block).txDataPoolTxPaused = s.txDataPoolTxPaused := rfl

@[simp] theorem txDataLen_setFreeList :
    (s.setFreeList pool blocks).txDataLen =
      if pool = .data .tx then blocks.length else s.txDataLen := by
  rw [txDataLen, freeList_setFreeList]
  split_ifs with same mirrored mirrored
  · rfl
  · exact absurd same.symm mirrored
  · exact absurd mirrored.symm same
  · rfl

@[simp] theorem txDataLen_append :
    (s.append pool block).txDataLen = s.txDataLen + if pool = .data .tx then 1 else 0 := by
  rw [append, txDataLen_setFreeList]
  split_ifs with same
  · rw [same, List.length_append, List.length_singleton, txDataLen]
  · rfl

@[simp] theorem count_freeList_append (b : ℕ) :
    ((s.append pool block).freeList other).count b =
      (s.freeList other).count b + if pool = other ∧ block = b then 1 else 0 := by
  rw [append, freeList_setFreeList]
  by_cases same : other = pool
  · subst same
    simp [List.count_singleton]
  · simp [same, Ne.symm same]

@[simp] theorem freeList_updateTxFlowControlState :
    s.updateTxFlowControlState.freeList = s.freeList := by
  unfold updateTxFlowControlState
  split <;> rfl

@[simp] theorem outstanding_updateTxFlowControlState :
    s.updateTxFlowControlState.outstanding = s.outstanding := by
  unfold updateTxFlowControlState
  split <;> rfl

@[simp] theorem txDataLen_updateTxFlowControlState :
    s.updateTxFlowControlState.txDataLen = s.txDataLen := by
  rw [txDataLen, freeList_updateTxFlowControlState, txDataLen]

/-- An update pauses the path when few blocks are free. -/
theorem updateTxFlowControlState_paused :
    s.updateTxFlowControlState.txDataPoolTxPaused = true ↔
      s.txDataPoolTxPaused = true ∨ s.txDataLen ≤ txDataPoolPauseThreshold := by
  unfold updateTxFlowControlState
  by_cases flag : s.txDataPoolTxPaused = true
  · simp [flag]
  · by_cases low : s.txDataLen ≤ txDataPoolPauseThreshold
    · simp [flag, low]
    · simp [flag, low]

@[simp] theorem freeList_txDataFree :
    (s.txDataFree block).freeList = (s.append (.data .tx) block).freeList := by
  unfold txDataFree
  dsimp only
  split <;> rfl

@[simp] theorem outstanding_txDataFree : (s.txDataFree block).outstanding = s.outstanding := by
  unfold txDataFree
  dsimp only
  split <;> rfl

@[simp] theorem txDataLen_txDataFree : (s.txDataFree block).txDataLen = s.txDataLen + 1 := by
  rw [txDataLen, freeList_txDataFree, ← txDataLen, txDataLen_append, if_pos rfl]

/-- A free unpauses the path when enough blocks are free. -/
theorem txDataFree_paused :
    (s.txDataFree block).txDataPoolTxPaused = true ↔
      s.txDataPoolTxPaused = true ∧ s.txDataLen + 1 < txDataPoolUnpauseThreshold := by
  unfold txDataFree
  dsimp only
  by_cases flag : s.txDataPoolTxPaused = true
  · by_cases low : s.txDataLen + 1 < txDataPoolUnpauseThreshold
    · simp [flag, low, Nat.not_le.mpr low]
    · simp [flag, low, Nat.not_lt.mp low]
  · simp [flag]

/-- A packet taken back was one of those outstanding. -/
theorem count_takeBack {packet : Packet} (member : packet ∈ s.outstanding) (other : Packet) :
    s.outstanding.count other =
      (s.takeBack packet).outstanding.count other + if packet = other then 1 else 0 :=
  count_eq_count_erase member other

end PktmemData

/-! ## The blocks -/

/-- The call holds the block. -/
@[simp] def held (packet : Packet) : Call → ℕ
  | .initBuf pool block | .reappend pool block => if ⟨pool, block⟩ = packet then 1 else 0
  | .update (some block) => if ⟨.data .tx, block⟩ = packet then 1 else 0
  | _ => 0

/-- How often a block is free, held by a call in progress or outstanding. -/
def places (packet : Packet) (s : PktmemData) (calls : Multiset Call) : ℕ :=
  (s.freeList packet.pool).count packet.block + total (held packet) calls +
    s.outstanding.count packet

/-- A call that has no block goes on without one. -/
theorem total_held_withoutBlock (packet : Packet) (pool : Pool) (others : Multiset Call) :
    total (held packet) (withCall (withoutBlock pool) others) = total (held packet) others := by
  match pool with
  | .command d => simp [withoutBlock]
  | .data .tx => simp [withoutBlock]
  | .data .rx => rfl

theorem places_advance (packet : Packet) (s : PktmemData) (pc : Call) (others : Multiset Call)
    (outcome : Bool) :
    places packet (advance s pc outcome).1 (withCall (advance s pc outcome).2 others) =
      places packet s (pc ::ₘ others) := by
  obtain ⟨own, number⟩ := packet
  match pc, outcome with
  | .dequeue pool, _ =>
      simp only [advance]
      split
      · simp [places, total_held_withoutBlock]
      · rename_i first blocks list
        by_cases same : pool = own
        · subst same
          simp [places, list, List.count_cons]
          omega
        · simp [places, same, Ne.symm same]
  | .initBuf (.data .tx) block, true => simp [places, advance]
  | .initBuf (.data .rx) block, true | .initBuf (.command _) block, true =>
      simp [places, advance, List.count_cons]
      omega
  | .initBuf pool block, false => simp [places, advance]
  | .reappend pool block, _ =>
      simp [places, advance, total_held_withoutBlock]
      omega
  | .update none, _ => simp [places, advance]
  | .update (some block), _ =>
      simp [places, advance, List.count_cons]
      omega

theorem places_enter (packet : Packet) (s : PktmemData) (calls : Multiset Call)
    (request : Request) :
    places packet (enter s request).1 (withCall (enter s request).2 calls) =
      places packet s calls := by
  cases request with
  | alloc d pktClass => cases pktClass <;> simp [places, enter]
  | free freed =>
      rw [enter]
      split
      · have packets := s.count_takeBack ‹_› packet
        obtain ⟨own, number⟩ := packet
        match freed with
        | ⟨.data .tx, block⟩ | ⟨.data .rx, block⟩ | ⟨.command _, block⟩ =>
            simp [places, freePacket] at packets ⊢
            omega
      · rfl

/-- **Every block is always in exactly one place**, and no other block ever turns up. -/
theorem places_run (cfg : Config) (packet : Packet) (turns : List (Turn Request Bool)) :
    places packet (run cfg turns).shared ↑(run cfg turns).calls =
      if packet.block < cfg.nBlocks packet.pool then 1 else 0 := by
  apply program.invariant (I := fun s calls => places packet s calls = _)
  · simp [places, pktmemInit, List.count_range]
  · exact fun s calls request holds => (places_enter packet s calls request).trans holds
  · exact fun s pc others outcome holds =>
      (places_advance packet s pc others outcome).trans holds

/-! ## The pause flag -/

/-- The call is a transmit allocation that took its turn at the list and has yet to update the
flag. -/
@[simp] def updating : Call → ℕ
  | .initBuf (.data .tx) _ | .reappend (.data .tx) _ | .update _ => 1
  | _ => 0

/-- A rejected block does not come back to a list with blocks in it while the path is paused. -/
def PutsBackUnpaused (s : PktmemData) : Call → Multiset Call → Prop
  | .reappend (.data .tx) _, _ => s.txDataPoolTxPaused = true → s.txDataLen = 0
  | _, _ => True

instance (s : PktmemData) :
    (pc : Call) → (others : Multiset Call) → Decidable (PutsBackUnpaused s pc others)
  | .reappend (.data .tx) _, _ =>
      inferInstanceAs (Decidable (s.txDataPoolTxPaused = true → s.txDataLen = 0))
  | .reappend (.data .rx) _, _ | .reappend (.command _) _, _ | .dequeue _, _ | .initBuf _ _, _
  | .update _, _ => inferInstanceAs (Decidable True)

/-- A paused path has few free blocks, and one that is not paused has enough of them or a call that
will look at the flag. -/
structure Level (s : PktmemData) (calls : Multiset Call) : Prop where
  paused : s.txDataPoolTxPaused = true → s.txDataLen ≤ txDataPoolPauseThreshold
  ready : s.txDataPoolTxPaused = false →
    txDataPoolPauseThreshold < s.txDataLen ∨ 0 < total updating calls

/-- A step that leaves the flag and the list alone. -/
theorem Level.passOn {s t : PktmemData} {calls after : Multiset Call} (holds : Level s calls)
    (flag : t.txDataPoolTxPaused = s.txDataPoolTxPaused) (length : t.txDataLen = s.txDataLen)
    (kept : total updating calls ≤ total updating after) : Level t after := by
  refine ⟨fun paused => ?_, fun ready => ?_⟩
  · rw [length]
    exact holds.paused (flag ▸ paused)
  · rw [length]
    rcases holds.ready (flag ▸ ready) with enough | pending
    · exact Or.inl enough
    · exact Or.inr (pending.trans_le kept)

theorem level_update {s : PktmemData} {calls others : Multiset Call} (holds : Level s calls) :
    Level s.updateTxFlowControlState others := by
  have flag := s.updateTxFlowControlState_paused
  refine ⟨fun paused => ?_, fun ready => ?_⟩
  · rw [PktmemData.txDataLen_updateTxFlowControlState]
    rcases flag.mp paused with before | low
    · exact holds.paused before
    · exact low
  · rw [PktmemData.txDataLen_updateTxFlowControlState]
    rw [← Bool.not_eq_true, flag, not_or] at ready
    exact Or.inl (Nat.not_le.mp ready.2)

theorem level_dequeue {s : PktmemData} {pool : Pool} {others : Multiset Call} {block : ℕ}
    {blocks : List ℕ} (list : s.freeList pool = block :: blocks)
    (holds : Level s (.dequeue pool ::ₘ others)) :
    Level (s.setFreeList pool blocks) (.initBuf pool block ::ₘ others) := by
  match pool with
  | .command _ => apply holds.passOn <;> simp
  | .data .rx => apply holds.passOn <;> simp
  | .data .tx =>
      have length : s.txDataLen = blocks.length + 1 := congrArg List.length list
      refine ⟨fun paused => ?_, fun _ => Or.inr ?_⟩
      · have before := holds.paused paused
        simp only [PktmemData.txDataLen_setFreeList, ↓reduceIte]
        omega
      · simp only [total_cons, updating]
        omega

theorem level_reappend {s : PktmemData} {block : ℕ} {others : Multiset Call}
    (putsBack : s.txDataPoolTxPaused = true → s.txDataLen = 0) :
    Level (s.append (.data .tx) block) (.update none ::ₘ others) := by
  refine ⟨fun paused => ?_, fun _ => Or.inr ?_⟩
  · rw [PktmemData.txDataLen_append, if_pos rfl, putsBack paused]
    exact Nat.le_refl 1
  · simp only [total_cons, updating]
    omega

theorem level_advance {s : PktmemData} {pc : Call} {others : Multiset Call} (outcome : Bool)
    (holds : Level s (pc ::ₘ others)) (putsBack : PutsBackUnpaused s pc others) :
    Level (advance s pc outcome).1 (withCall (advance s pc outcome).2 others) := by
  match pc, outcome with
  | .dequeue pool, _ =>
      simp only [advance]
      split
      · match pool with
        | .command _ => apply holds.passOn <;> simp [withoutBlock]
        | .data .tx => apply holds.passOn <;> simp [withoutBlock]
        | .data .rx => apply holds.passOn <;> simp [withoutBlock]
      · exact level_dequeue ‹_› holds
  | .initBuf (.data .tx) block, true => apply holds.passOn <;> simp [advance]
  | .initBuf (.data .rx) block, true | .initBuf (.command _) block, true =>
      apply holds.passOn <;> simp [advance]
  | .initBuf (.data .tx) block, false => apply holds.passOn <;> simp [advance]
  | .initBuf (.data .rx) block, false | .initBuf (.command _) block, false =>
      apply holds.passOn <;> simp [advance]
  | .reappend (.command _) block, _ | .reappend (.data .rx) block, _ =>
      apply holds.passOn <;> simp [advance, withoutBlock]
  | .reappend (.data .tx) block, _ => exact level_reappend putsBack
  | .update none, _ => exact level_update holds
  | .update (some block), _ => exact (level_update holds).passOn rfl rfl (Nat.le_refl _)

theorem level_txDataFree {s : PktmemData} {calls : Multiset Call} (holds : Level s calls)
    (block : ℕ) : Level (s.txDataFree block) calls := by
  have flag := s.txDataFree_paused block
  unfold txDataPoolUnpauseThreshold at flag
  refine ⟨fun paused => ?_, fun ready => ?_⟩
  · rw [PktmemData.txDataLen_txDataFree]
    exact Nat.le_of_lt_succ (flag.mp paused).2
  · rw [PktmemData.txDataLen_txDataFree]
    rw [← Bool.not_eq_true, flag, not_and] at ready
    cases before : s.txDataPoolTxPaused with
    | true => exact Or.inl (Nat.not_lt.mp (ready before))
    | false => exact (holds.ready before).imp_left Nat.lt_succ_of_lt

theorem level_enter {s : PktmemData} {calls : Multiset Call} (request : Request)
    (holds : Level s calls) : Level (enter s request).1 (withCall (enter s request).2 calls) := by
  cases request with
  | alloc d pktClass => cases pktClass <;> apply holds.passOn <;> simp [enter]
  | free packet =>
      rw [enter]
      split
      · have taken : Level (s.takeBack packet) calls := holds.passOn rfl rfl (Nat.le_refl _)
        match packet with
        | ⟨.data .tx, block⟩ => exact level_txDataFree taken block
        | ⟨.data .rx, block⟩ | ⟨.command _, block⟩ => apply taken.passOn <;> simp [freePacket]
      · exact holds

/-- A run whose rejected blocks come back in time keeps the flag right. -/
theorem level_run {cfg : Config} (size : 2 ≤ cfg.txPoolNBlocks)
    {turns : List (Turn Request Bool)}
    (putsBack : program.AllowsAll PutsBackUnpaused ⟨pktmemInit cfg, []⟩ turns) :
    Level (run cfg turns).shared ↑(run cfg turns).calls := by
  apply program.invariant_guarded (G := PutsBackUnpaused) _ _ _ putsBack
  · refine ⟨fun paused => (Bool.false_ne_true paused).elim, fun _ => Or.inl ?_⟩
    show 1 < (List.range cfg.txPoolNBlocks).length
    rwa [List.length_range]
  · exact fun s calls request holds => level_enter request holds
  · exact fun s pc others outcome holds putsBack => level_advance outcome holds putsBack

/-- **The static backend.** In every run each block of the four pools is free, held by a call in
progress or outstanding, and only one of these. In a run in which no rejected block comes back to a
list with blocks in it while the path is paused, the path is paused between calls exactly when few
blocks are free. -/
theorem static_flowControl {cfg : Config} (size : 2 ≤ cfg.txPoolNBlocks)
    (turns : List (Turn Request Bool)) :
    (∀ packet : Packet, packet.block < cfg.nBlocks packet.pool →
        places packet (run cfg turns).shared ↑(run cfg turns).calls = 1) ∧
      (program.AllowsAll PutsBackUnpaused ⟨pktmemInit cfg, []⟩ turns →
        ∀ before, before <+: turns → (run cfg before).calls = [] →
          ((run cfg before).shared.txDataPoolTxPaused = true ↔
            (run cfg before).shared.txDataLen ≤ txDataPoolPauseThreshold)) := by
  refine ⟨?_, ?_⟩
  · intro packet inside
    rw [places_run, if_pos inside]
  · intro putsBack before reached quiet
    have level := level_run size (putsBack.of_prefix _ reached)
    rw [quiet] at level
    refine ⟨level.paused, fun low => ?_⟩
    by_contra ready
    rcases level.ready (Bool.not_eq_true _ ▸ ready) with enough | pending
    · exact Nat.not_lt.mpr low enough
    · exact Nat.lt_irrefl 0 pending

/-- A transmit allocation for a packet that is too large, or not, by a call at position `i`. -/
def allocTurns (i : ℕ) (fits : Bool) : List (Turn Request Bool) :=
  [.enter (.alloc .tx .dataTid0), .advance i true, .advance i fits, .advance i true,
    .advance i true]

/-- A pool of two blocks: one packet is given out, which pauses the path, and freed, and a packet
that is too large is rejected. -/
theorem static_flowControl_cycle :
    (run ⟨2, 2⟩ (allocTurns 0 true)).shared.txDataPoolTxPaused = true ∧
      ((run ⟨2, 2⟩ (allocTurns 0 true ++ [.enter (.free ⟨.data .tx, 0⟩)] ++
          allocTurns 0 false)).shared.txDataPoolTxPaused = true ↔
        (run ⟨2, 2⟩ (allocTurns 0 true ++ [.enter (.free ⟨.data .tx, 0⟩)] ++
          allocTurns 0 false)).shared.txDataLen ≤ txDataPoolPauseThreshold) := by
  refine ⟨by decide +kernel, ?_⟩
  apply (static_flowControl (by decide) _).2 (by decide +kernel) _ (List.prefix_refl _)
  decide +kernel

/-- Two allocations for packets that are too large. The second to begin is the first to fail. -/
def rejectedTurns : List (Turn Request Bool) :=
  [.enter (.alloc .tx .dataTid0), .advance 0 true,
    .enter (.alloc .tx .dataTid0), .advance 1 true, .advance 1 false, .advance 1 true,
    .advance 1 true,
    .advance 0 false, .advance 0 true, .advance 0 true]

/-- **Rejected blocks can leave the path paused with every block free.** The two calls hold both
blocks of the pool; the first to fail pauses the path, and the second puts its block back without
looking at the flag. -/
theorem static_staysPaused :
    (run ⟨2, 2⟩ rejectedTurns).calls = [] ∧
      (run ⟨2, 2⟩ rejectedTurns).shared.txDataPoolTxPaused = true ∧
      ¬ (run ⟨2, 2⟩ rejectedTurns).shared.txDataLen ≤ txDataPoolPauseThreshold := by
  decide +kernel

end HalowBridge.Pktmem.Static
