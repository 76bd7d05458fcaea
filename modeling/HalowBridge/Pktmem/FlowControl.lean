import HalowBridge.Pktmem.Heap

/-!
# Flow control of the heap backend

An allocation that fills the pool pauses the transmit path, and a free unpauses it when it then
reads a counter below a threshold. Between the two nothing else looks at the flag, so a path that is
paused has to keep a reason to be looked at again: a packet that will be freed, a free that has not
decided yet, or an allocation that may still turn into a packet. `reasons` counts them.

Two things take the last reason away. With a pool of two blocks the threshold is zero, and no free
ever unpauses the path. And an allocation that fails behind the last free has held the counter up
while that free read it. `heap_never_stalls` says that these are all: a run without them never
reaches a state with the path paused, no packet outstanding and no call in progress.
-/

namespace HalowBridge.Pktmem.Heap

/-- The transmit path is paused and nothing will unpause it. -/
def Stalled (s : Threads PktmemData Call) : Prop :=
  s.calls = [] ∧ s.shared.dataPackets .tx = 0 ∧ s.shared.txDataPoolTxPaused = true

instance (s : Threads PktmemData Call) : Decidable (Stalled s) :=
  inferInstanceAs (Decidable (_ ∧ _ ∧ _))

/-- The call may hand a transmit packet out, or is a free that has not decided yet. -/
@[simp] def pending : Call → ℕ
  | .reject .tx | .allocOnHeap .tx | .rollback .tx => 1
  | .readForPause | .pause => 1
  | .readForUnpause | .unpause => 1
  | _ => 0

/-- What can still lead to the pause flag being looked at again. -/
def reasons (s : PktmemData) (calls : Multiset Call) : ℕ :=
  s.dataPackets .tx + total pending calls

/-- The call may move: an allocation pauses the path only when a free can unpause it, and one that
fails while the path is paused is not the last reason. -/
def KeepsReason (cfg : Config) (s : PktmemData) (pc : Call) (others : Multiset Call) : Prop :=
  (pc = .pause → 3 ≤ cfg.txPoolNBlocks) ∧
    ((pc = .reject .tx ∨ pc = .rollback .tx) → s.txDataPoolTxPaused = true → 0 < reasons s others)

instance (cfg : Config) (s : PktmemData) (pc : Call) (others : Multiset Call) :
    Decidable (KeepsReason cfg s pc others) :=
  inferInstanceAs (Decidable (_ ∧ _))

/-- A paused path can be unpaused and has a reason to be. -/
def Watched (cfg : Config) (s : PktmemData) (calls : Multiset Call) : Prop :=
  s.txDataPoolTxPaused = true → 3 ≤ cfg.txPoolNBlocks ∧ 0 < reasons s calls

/-- A step that leaves the flag alone and takes no reason away. -/
theorem Watched.mono {cfg : Config} {s t : PktmemData} {calls after : Multiset Call}
    (holds : Watched cfg s calls) (flag : t.txDataPoolTxPaused = s.txDataPoolTxPaused)
    (kept : reasons s calls ≤ reasons t after) : Watched cfg t after := by
  intro paused
  rcases holds (flag ▸ paused) with ⟨size, reason⟩
  exact ⟨size, reason.trans_le kept⟩

/-- The calls that hold the counter up are among the reasons. -/
theorem counter_le_reasons {cfg : Config} {s : PktmemData} {calls : Multiset Call}
    (counted : Counted cfg .tx s calls) : s.allocated .tx ≤ reasons s calls := by
  have weights (pc : Call) : admitted .tx pc + rejected .tx pc ≤ pending pc := by
    cases pc with
    | allocOnHeap d | rollback d | reject d => cases d <;> decide
    | _ => simp
  have le := total_le_total weights calls
  rw [total_add] at le
  rw [counted.counter, reasons]
  omega

theorem watched_advance {cfg : Config} {s : PktmemData} {pc : Call} {others : Multiset Call}
    (outcome : Bool) (counted : Counted cfg .tx s (pc ::ₘ others))
    (holds : Watched cfg s (pc ::ₘ others)) (keeps : KeepsReason cfg s pc others) :
    Watched cfg (advance cfg s pc outcome).1 (withCall (advance cfg s pc outcome).2 others) := by
  cases pc with
  | dequeue d =>
      simp only [advance]
      split <;> cases d <;> apply holds.mono <;> simp [withoutBlock, reasons]
  | initBuf d block => cases outcome <;> apply holds.mono <;> simp [advance, reasons]
  | giveBack d block =>
      cases d <;> apply holds.mono <;>
        simp [advance, withoutBlock, reasons, PktmemData.commandReservedFree]
  | fetchAdd d =>
      simp only [advance]
      split <;> cases d <;> apply holds.mono <;> simp [reasons]
  | reject d =>
      cases d with
      | rx => apply holds.mono <;> simp [advance, reasons]
      | tx => exact fun paused => ⟨(holds paused).1, keeps.2 (Or.inl rfl) paused⟩
  | rollback d =>
      cases d with
      | rx => apply holds.mono <;> simp [advance, reasons]
      | tx => exact fun paused => ⟨(holds paused).1, keeps.2 (Or.inr rfl) paused⟩
  | allocOnHeap d =>
      cases outcome <;> cases d <;> apply holds.mono <;> simp [advance, reasons]
  | readForPause =>
      simp only [advance]
      split <;> apply holds.mono <;> simp [reasons, add_assoc]
  | pause =>
      intro _
      have handed : 0 < ((s.handOut (.data .tx)).setPaused true).dataPackets .tx := by simp
      exact ⟨keeps.1 rfl, handed.trans_le (Nat.le_add_right _ _)⟩
  | readForUnpause =>
      simp only [advance]
      split
      · apply holds.mono <;> simp [reasons]
      · rename_i above
        intro paused
        obtain ⟨size, -⟩ := holds paused
        -- The counter that kept the free from unpausing is held up by something else.
        have rest : Counted cfg .tx s others := by apply counted.passOn <;> simp
        have held := counter_le_reasons rest
        unfold Config.txDataPoolUnpauseThreshold at above
        exact ⟨size, by simp only [withCall_none]; omega⟩
  | unpause => exact fun paused => (Bool.false_ne_true paused).elim
  | commandOnHeap => cases outcome <;> apply holds.mono <;> simp [advance, reasons]

theorem watched_enter {cfg : Config} {s : PktmemData} {calls : Multiset Call} (request : Request)
    (holds : Watched cfg s calls) :
    Watched cfg (enter s request).1 (withCall (enter s request).2 calls) := by
  cases request with
  | alloc d pktClass => cases pktClass <;> apply holds.mono <;> simp [enter, reasons]
  | free packet =>
      rw [enter]
      split
      · have packets := s.count_takeBack ‹_› (.data .tx)
        apply holds.mono
        · cases packet with
          | data d => cases d <;> rfl
          | _ => rfl
        · rw [reasons, PktmemData.dataPackets, packets]
          cases packet with
          | data d =>
              cases d <;> simp [freePacket, reasons, PktmemData.dataPackets, add_assoc]
          | _ => simp [freePacket, reasons, PktmemData.dataPackets, PktmemData.commandReservedFree]
      · exact holds

/-- A run that keeps its reasons watches a paused path to its end. -/
theorem watched_run {cfg : Config} {turns : List (Turn Request Bool)}
    (keeps : (program cfg).AllowsAll (KeepsReason cfg) ⟨pktmemInit, []⟩ turns) :
    Watched cfg (run cfg turns).shared ↑(run cfg turns).calls := by
  have both := (program cfg).invariant_guarded
    (I := fun s calls => Counted cfg .tx s calls ∧ Watched cfg s calls) (G := KeepsReason cfg)
    ⟨⟨rfl, Nat.zero_le _⟩, fun paused => (Bool.false_ne_true paused).elim⟩
    (fun s calls request holds => ⟨counted_enter request holds.1, watched_enter request holds.2⟩)
    (fun s pc others outcome holds keeps =>
      ⟨counted_advance outcome holds.1, watched_advance outcome holds.1 holds.2 keeps⟩) keeps
  exact both.2

/-- **A run that keeps its reasons never stalls.** -/
theorem heap_never_stalls {cfg : Config} {turns : List (Turn Request Bool)}
    (keeps : (program cfg).AllowsAll (KeepsReason cfg) ⟨pktmemInit, []⟩ turns)
    {before : List (Turn Request Bool)} (reached : before <+: turns) :
    ¬ Stalled (run cfg before) := by
  intro stalled
  obtain ⟨quiet, none, paused⟩ := stalled
  rcases watched_run (keeps.of_prefix _ reached) paused with ⟨-, reason⟩
  rw [quiet, reasons, none] at reason
  exact Nat.lt_irrefl 0 reason

/-- An allocation from its beginning to the fetch-and-add. -/
def startAlloc (i : ℕ) : List (Turn Request Bool) :=
  [.enter (.alloc .tx .dataTid0), .advance i true]

/-- A call that runs alone takes this many steps with success. -/
def steps (n i : ℕ) : List (Turn Request Bool) := List.replicate n (.advance i true)

/-- Allocations that fill the pool, one after the other. -/
def fillPool (n : ℕ) : List (Turn Request Bool) :=
  (List.replicate n (startAlloc 0 ++ steps 3 0)).flatten

/-- Frees of transmit packets, one after the other. -/
def freeAll (n : ℕ) : List (Turn Request Bool) :=
  (List.replicate n (.enter (.free (.data .tx)) :: steps 2 0)).flatten

/-- A pool of three blocks is filled, which pauses the path, and emptied. -/
theorem heap_never_stalls_cycle :
    (run ⟨3, 3⟩ (fillPool 3)).shared.txDataPoolTxPaused = true ∧
      ¬ Stalled (run ⟨3, 3⟩ (fillPool 3 ++ freeAll 3)) :=
  ⟨by decide +kernel, heap_never_stalls (by decide +kernel) (List.prefix_refl _)⟩

/-- **A path can stall.** A pool of two blocks that is filled and emptied never unpauses, and in one
of three an allocation that is turned away holds the counter up while the pool is emptied. -/
theorem heap_stalls :
    Stalled (run ⟨2, 3⟩ (fillPool 2 ++ freeAll 2)) ∧
      Stalled (run ⟨3, 3⟩ (fillPool 3 ++ startAlloc 0 ++
        (List.replicate 3 (.enter (.free (.data .tx)) :: steps 2 1)).flatten ++ steps 1 0)) := by
  decide +kernel

end HalowBridge.Pktmem.Heap
