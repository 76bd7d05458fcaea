import HalowBridge.Lib.Threads

/-!
# Link notifications of the VIFs

One lwIP interface serves two VIFs. `mmnetif_vif_state` runs when a VIF reports its link: it takes
the TCP/IP core lock, binds the interface to the VIF that comes up while the link flag of the
interface is clear, and queues `netif_set_link_up` or `netif_set_link_down` for the TCP/IP thread,
which sets and clears the flag later.

The model has any number of notifications in progress, the TCP/IP thread with its queue, and other
users of the core lock, which move in any order. A caller that finds the lock taken waits. The queue
has room, and nothing else of a notification is visible to other threads than what it does under the
lock, so that the part between lock and unlock is one step.

`lockFree_iff` is about the lock: the link-down of a VIF that the interface is not bound to returns
without unlocking.
-/

namespace HalowBridge.Mmnetif

/-- `enum mmwlan_vif` -/
inductive Vif where
  | unspecified
  | sta
  | ap
  deriving DecidableEq

/-- `enum mmwlan_link_state` -/
inductive LinkState where
  | down
  | up
  deriving DecidableEq

/-- `struct mmwlan_vif_state` -/
structure VifState where
  vif : Vif
  linkState : LinkState
  deriving DecidableEq

/-- The callbacks that are queued for the TCP/IP thread. -/
inductive Callback where
  | netifSetLinkUp
  | netifSetLinkDown
  deriving DecidableEq

/-- The TCP/IP thread. It fetches a callback without the lock and executes it under the lock. -/
inductive TcpipThread where
  | waiting
  | fetched (callback : Callback)
  | executing (callback : Callback)
  | executed
  deriving DecidableEq

abbrev MacAddr : Type := Vector UInt8 6

/-- The interface, its binding, the TCP/IP thread and the core lock. The last notification of each
VIF is a record of what was handled, which the code does not keep. -/
structure Netif where
  vif : Vif
  hwaddr : MacAddr
  linkUp : Bool
  queue : List Callback
  tcpip : TcpipThread
  locked : Bool
  last : Vif → LinkState

/-- After `mmnetif_init`. -/
def mmnetifInit (hwaddr : MacAddr) : Netif where
  vif := .unspecified
  hwaddr := hwaddr
  linkUp := false
  queue := []
  tcpip := .waiting
  locked := false
  last := fun _ => .down

/-- A call in progress: a notification, or another user of the core lock. -/
inductive Call where
  | lock (state : VifState)
  | handle (state : VifState)
  | unlock
  | otherLock
  | otherUnlock
  deriving DecidableEq

/-- What can begin: a notification, another use of the lock, or a step of the TCP/IP thread. -/
inductive Request where
  | notify (state : VifState)
  | other
  | tcpip

namespace Netif

/-- `tcpip_callback_with_block` -/
def tcpipCallback (s : Netif) (callback : Callback) : Netif :=
  { s with queue := s.queue ++ [callback] }

/-- `LOCK_TCPIP_CORE` at `here`: the caller goes on to `next`, or waits. -/
def lockTcpipCore (s : Netif) (here next : Call) : Netif × Option Call :=
  if s.locked then (s, some here) else ({ s with locked := true }, some next)

/-- `UNLOCK_TCPIP_CORE` -/
def unlockTcpipCore (s : Netif) : Netif := { s with locked := false }

/-- The notification is recorded as the last one of its VIF. -/
def record (s : Netif) (state : VifState) : Netif :=
  { s with last := Function.update s.last state.vif state.linkState }

/-- The interface belongs to the VIF, with its address where the driver gives it. -/
def bind (s : Netif) (vif : Vif) (mac : Option MacAddr) : Netif :=
  { s with vif := vif, hwaddr := mac.getD s.hwaddr }

/-- The flag as `netif_set_link_up` and `netif_set_link_down` leave it. -/
def execute (s : Netif) : Callback → Netif
  | .netifSetLinkUp => { s with linkUp := true }
  | .netifSetLinkDown => { s with linkUp := false }

/-- A step of the TCP/IP thread. -/
def tcpipStep (s : Netif) : Netif :=
  match s.tcpip with
  | .waiting =>
      match s.queue with
      | [] => s
      | callback :: queue => { s with queue := queue, tcpip := .fetched callback }
  | .fetched callback =>
      if s.locked then s else { s with locked := true, tcpip := .executing callback }
  | .executing callback => { s.execute callback with tcpip := .executed }
  | .executed => { s.unlockTcpipCore with tcpip := .waiting }

end Netif

section

variable (getVifMacAddr : Vif → Option MacAddr)

/-- `mmnetif_vif_state` between its lock and its unlock. -/
def mmnetifVifState (s : Netif) (state : VifState) : Netif × Option Call :=
  match state.linkState with
  | .down =>
      -- On another VIF the function returns, and the lock stays taken.
      if s.vif ≠ state.vif then (s, none)
      else (s.tcpipCallback .netifSetLinkDown, some .unlock)
  | .up =>
      let bound := if s.linkUp then s else s.bind state.vif (getVifMacAddr state.vif)
      (bound.tcpipCallback .netifSetLinkUp, some .unlock)

/-- All interleavings of notifications, the TCP/IP thread and other users of the lock. -/
def program : Program Netif Call Request Unit where
  enter s
    | .notify state => (s, some (.lock state))
    | .other => (s, some .otherLock)
    | .tcpip => (s.tcpipStep, none)
  advance s pc _ :=
    match pc with
    | .lock state => s.lockTcpipCore (.lock state) (.handle state)
    | .handle state => mmnetifVifState getVifMacAddr (s.record state) state
    | .unlock => (s.unlockTcpipCore, none)
    | .otherLock => s.lockTcpipCore .otherLock .otherUnlock
    | .otherUnlock => (s.unlockTcpipCore, none)

/-- The state after some turns. -/
def netifAfter (hwaddr : MacAddr) (turns : List (Turn Request Unit)) : Threads Netif Call :=
  (program getVifMacAddr).machine.exec ⟨mmnetifInit hwaddr, []⟩ turns

end

/-! ## The core lock -/

/-- The call is inside the locked region. -/
@[simp] def Call.inside : Call → ℕ
  | .handle _ | .unlock | .otherUnlock => 1
  | .lock _ | .otherLock => 0

/-- The TCP/IP thread is inside the locked region. -/
@[simp] def TcpipThread.inside : TcpipThread → ℕ
  | .executing _ | .executed => 1
  | .waiting | .fetched _ => 0

/-- How many are inside the locked region. -/
def holders (s : Netif) (calls : Multiset Call) : ℕ := total Call.inside calls + s.tcpip.inside

/-- The lock is free when nobody is inside the locked region. -/
def LockFree (s : Threads Netif Call) : Prop :=
  holders s.shared ↑s.calls = 0 → s.shared.locked = false

/-- The call may move: it is not the link-down of a VIF that the interface is not bound to. -/
def Unlocks (s : Netif) (pc : Call) (_ : Multiset Call) : Prop :=
  ∀ state, pc = .handle state → state.linkState = .down → s.vif = state.vif

instance (s : Netif) (pc : Call) (others : Multiset Call) : Decidable (Unlocks s pc others) :=
  match pc with
  | .handle state =>
      decidable_of_iff (state.linkState = .down → s.vif = state.vif)
        ⟨fun unlocks _ same => by cases same; exact unlocks, fun unlocks => unlocks state rfl⟩
  | .lock _ | .unlock | .otherLock | .otherUnlock => .isTrue fun _ same => by cases same

/-- What a notification does. -/
theorem mmnetifVifState_cases (getVifMacAddr : Vif → Option MacAddr) (s : Netif)
    (state : VifState) :
    (state.linkState = .down ∧ s.vif ≠ state.vif ∧
        mmnetifVifState getVifMacAddr s state = (s, none)) ∨
      (state.linkState = .down ∧ s.vif = state.vif ∧
        mmnetifVifState getVifMacAddr s state =
          (s.tcpipCallback .netifSetLinkDown, some .unlock)) ∨
      (state.linkState = .up ∧ s.linkUp = true ∧
        mmnetifVifState getVifMacAddr s state =
          (s.tcpipCallback .netifSetLinkUp, some .unlock)) ∨
      (state.linkState = .up ∧ s.linkUp = false ∧
        mmnetifVifState getVifMacAddr s state =
          ((s.bind state.vif (getVifMacAddr state.vif)).tcpipCallback .netifSetLinkUp,
            some .unlock)) := by
  unfold mmnetifVifState
  cases state.linkState with
  | down =>
      by_cases same : s.vif = state.vif
      · exact .inr (.inl ⟨rfl, same, if_neg (not_not.mpr same)⟩)
      · exact .inl ⟨rfl, same, if_pos same⟩
  | up =>
      cases s.linkUp with
      | true => exact .inr (.inr (.inl ⟨rfl, rfl, rfl⟩))
      | false => exact .inr (.inr (.inr ⟨rfl, rfl, rfl⟩))

/-- The lock as a number: one when it is taken. -/
def Netif.lockCount (s : Netif) : ℕ := if s.locked then 1 else 0

theorem lockCount_le_one (s : Netif) : s.lockCount ≤ 1 := by
  unfold Netif.lockCount
  split <;> omega

/-- Nobody is inside without the lock, and at most one is inside. -/
def Exclusive (s : Netif) (calls : Multiset Call) : Prop := holders s calls ≤ s.lockCount

section

variable (getVifMacAddr : Vif → Option MacAddr) {s : Netif} {pc : Call}
  {calls others : Multiset Call} (outcome : Unit)

/-- The lock and the number inside move together. -/
def Balance (s : Netif) (calls : Multiset Call) (t : Netif) (after : Multiset Call) : Prop :=
  t.lockCount + holders s calls = s.lockCount + holders t after

theorem Balance.exclusive {t : Netif} {after : Multiset Call} (balance : Balance s calls t after)
    (exclusive : Exclusive s calls) : Exclusive t after := by
  unfold Balance at balance
  unfold Exclusive at exclusive ⊢
  omega

theorem balance_lock {here next : Call} (outside : here.inside = 0) (inside : next.inside = 1) :
    Balance s (here ::ₘ others) (s.lockTcpipCore here next).1
      (withCall (s.lockTcpipCore here next).2 others) := by
  unfold Balance Netif.lockTcpipCore
  split
  · rfl
  · rename_i free
    simp only [Netif.lockCount, holders, withCall_some, total_cons, outside, inside, free,
      Bool.false_eq_true, if_true, if_false]
    omega

theorem balance_unlock (exclusive : Exclusive s (pc ::ₘ others)) (inside : pc.inside = 1) :
    Balance s (pc ::ₘ others) s.unlockTcpipCore others := by
  have le := lockCount_le_one s
  have free : s.unlockTcpipCore.lockCount = 0 := rfl
  have same : s.unlockTcpipCore.tcpip = s.tcpip := rfl
  unfold Exclusive at exclusive
  simp only [Balance, holders, total_cons, inside, same] at exclusive ⊢
  omega

/-- A step inside the locked region. -/
theorem balance_inside {t : Netif} {next : Call} (lock : t.lockCount = s.lockCount)
    (thread : t.tcpip = s.tcpip) (place : next.inside = pc.inside) :
    Balance s (pc ::ₘ others) t (next ::ₘ others) := by
  simp only [Balance, holders, total_cons, lock, thread, place]

/-- A step of a call, unless a notification returns with the lock. -/
theorem balance_advance (exclusive : Exclusive s (pc ::ₘ others))
    (unlocks : Unlocks s pc others) :
    Balance s (pc ::ₘ others) ((program getVifMacAddr).advance s pc outcome).1
      (withCall ((program getVifMacAddr).advance s pc outcome).2 others) := by
  cases pc with
  | lock state => exact balance_lock rfl rfl
  | handle state =>
      show Balance s _ (mmnetifVifState getVifMacAddr (s.record state) state).1
        (withCall (mmnetifVifState getVifMacAddr (s.record state) state).2 others)
      rcases mmnetifVifState_cases getVifMacAddr (s.record state) state with
        ⟨down, other, -⟩ | ⟨-, -, e⟩ | ⟨-, -, e⟩ | ⟨-, -, e⟩
      · exact absurd (unlocks state rfl down) other
      all_goals
        rw [e]
        exact balance_inside rfl rfl rfl
  | unlock => exact balance_unlock exclusive rfl
  | otherLock => exact balance_lock rfl rfl
  | otherUnlock => exact balance_unlock exclusive rfl

/-- A notification that returns with the lock. -/
theorem holders_of_leak (kept : ¬ Unlocks s pc others) :
    ((program getVifMacAddr).advance s pc outcome).1.lockCount = s.lockCount ∧
      holders s (pc ::ₘ others) = holders ((program getVifMacAddr).advance s pc outcome).1
        (withCall ((program getVifMacAddr).advance s pc outcome).2 others) + 1 := by
  unfold Unlocks at kept
  simp only [not_forall] at kept
  obtain ⟨state, rfl, down, other⟩ := kept
  show (mmnetifVifState getVifMacAddr (s.record state) state).1.lockCount = _ ∧
    _ = holders (mmnetifVifState getVifMacAddr (s.record state) state).1
      (withCall (mmnetifVifState getVifMacAddr (s.record state) state).2 others) + 1
  have returns : mmnetifVifState getVifMacAddr (s.record state) state =
      (s.record state, none) := by
    rw [mmnetifVifState, down]
    exact if_pos other
  rw [returns]
  refine ⟨rfl, ?_⟩
  simp only [holders, total_cons, Call.inside, withCall_none, Netif.record]
  omega

theorem exclusive_advance (exclusive : Exclusive s (pc ::ₘ others)) :
    Exclusive ((program getVifMacAddr).advance s pc outcome).1
      (withCall ((program getVifMacAddr).advance s pc outcome).2 others) := by
  by_cases unlocks : Unlocks s pc others
  · exact (balance_advance getVifMacAddr outcome exclusive unlocks).exclusive exclusive
  · rcases holders_of_leak getVifMacAddr outcome unlocks with ⟨same, fewer⟩
    unfold Exclusive at exclusive ⊢
    omega

/-- A call that begins is outside, and the TCP/IP thread keeps the lock while it executes. -/
theorem balance_enter (exclusive : Exclusive s calls) (request : Request) :
    Balance s calls ((program getVifMacAddr).enter s request).1
      (withCall ((program getVifMacAddr).enter s request).2 calls) := by
  cases request with
  | notify state => simp [program, Balance, holders]
  | other => simp [program, Balance, holders]
  | tcpip =>
      show Balance s calls s.tcpipStep calls
      unfold Netif.tcpipStep
      split <;> rename_i here
      · split <;> simp [Balance, holders, here, Netif.lockCount]
      · split
        · rfl
        · rename_i free
          simp [Balance, holders, here, Netif.lockCount, free]
          omega
      · rename_i callback
        cases callback <;> simp [Balance, holders, here, Netif.lockCount, Netif.execute]
      · have le := lockCount_le_one s
        unfold Exclusive at exclusive
        simp only [Balance, holders, here, TcpipThread.inside, Netif.lockCount,
          Netif.unlockTcpipCore, Bool.false_eq_true, if_false] at exclusive le ⊢
        omega

end

section

variable (getVifMacAddr : Vif → Option MacAddr) (hwaddr : MacAddr)

/-- In every run the lock keeps others out. -/
theorem exclusive_run (turns : List (Turn Request Unit)) :
    Exclusive (netifAfter getVifMacAddr hwaddr turns).shared
      ↑(netifAfter getVifMacAddr hwaddr turns).calls := by
  have init : Exclusive (mmnetifInit hwaddr) 0 := Nat.le_refl 0
  refine (program getVifMacAddr).invariant (I := Exclusive) init ?_ ?_ turns
  · intro s calls request exclusive
    exact (balance_enter getVifMacAddr exclusive request).exclusive exclusive
  · intro s pc others outcome exclusive
    exact exclusive_advance getVifMacAddr outcome exclusive

/-- In a run without a leak the lock is taken by the one inside, and by nobody else. -/
theorem lockFree_run {turns : List (Turn Request Unit)}
    (unlocks : (program getVifMacAddr).AllowsAll Unlocks ⟨mmnetifInit hwaddr, []⟩ turns) :
    LockFree (netifAfter getVifMacAddr hwaddr turns) := by
  have held : holders (netifAfter getVifMacAddr hwaddr turns).shared
      ↑(netifAfter getVifMacAddr hwaddr turns).calls =
        (netifAfter getVifMacAddr hwaddr turns).shared.lockCount := by
    refine (program getVifMacAddr).invariant_guarded
      (I := fun s calls => holders s calls = s.lockCount) rfl ?_ ?_ unlocks
    · intro s calls request held
      have balance := balance_enter getVifMacAddr (Nat.le_of_eq held) request
      unfold Balance at balance
      omega
    · intro s pc others outcome held unlocks
      have balance := balance_advance getVifMacAddr outcome (Nat.le_of_eq held) unlocks
      unfold Balance at balance
      omega
  intro nobody
  rw [nobody] at held
  cases locked : (netifAfter getVifMacAddr hwaddr turns).shared.locked with
  | false => rfl
  | true =>
      rw [Netif.lockCount, locked] at held
      cases held

/-- A turn at which a notification returns with the lock leaves the lock with nobody. -/
theorem not_lockFree_turn {s : Threads Netif Call} (exclusive : Exclusive s.shared ↑s.calls)
    {t : Turn Request Unit} (leaks : ¬ Program.Allows Unlocks s t) :
    ¬ LockFree ((program getVifMacAddr).turn s t) := by
  cases t with
  | enter call => exact absurd trivial leaks
  | advance i outcome =>
      cases here : s.calls[i]? with
      | none =>
          rw [Program.Allows, here] at leaks
          exact absurd trivial leaks
      | some pc =>
          rw [Program.Allows, here] at leaks
          rcases holders_of_leak getVifMacAddr outcome leaks with ⟨same, fewer⟩
          obtain ⟨shared, calls⟩ := (program getVifMacAddr).turn_advance here outcome
          have le := lockCount_le_one s.shared
          unfold Exclusive at exclusive
          rw [Program.coe_eq_cons_eraseIdx here] at exclusive
          intro lockFree
          unfold LockFree at lockFree
          rw [shared, calls] at lockFree
          have free := lockFree (by omega)
          rw [Netif.lockCount, free] at same
          simp only [Bool.false_eq_true, if_false] at same
          omega

/-- **When the core lock is free**: it is whenever nobody is inside its locked region, at every
moment of a run, if and only if no notification of the run is the link-down of a VIF that the
interface is not bound to. -/
theorem lockFree_iff (turns : List (Turn Request Unit)) :
    (∀ before, before <+: turns → LockFree (netifAfter getVifMacAddr hwaddr before)) ↔
      (program getVifMacAddr).AllowsAll Unlocks ⟨mmnetifInit hwaddr, []⟩ turns := by
  constructor
  · intro lockFree before t here
    by_contra leaks
    have exclusive := exclusive_run getVifMacAddr hwaddr before
    refine not_lockFree_turn getVifMacAddr exclusive leaks ?_
    have reached := lockFree (before ++ [t]) here
    unfold netifAfter at reached
    rwa [Machine.exec_concat] at reached
  · intro unlocks before reached
    exact lockFree_run getVifMacAddr hwaddr (unlocks.of_prefix _ reached)

end

/-- A notification that nobody disturbs. -/
def notification (vif : Vif) (linkState : LinkState) : List (Turn Request Unit) :=
  [.enter (.notify ⟨vif, linkState⟩), .advance 0 (), .advance 0 (), .advance 0 ()]

/-- **The link-down of the access point keeps the lock of a bridge that is bound to its
station.** -/
theorem not_lockFree_otherDown :
    ¬ LockFree (netifAfter (fun _ => none) (Vector.replicate 6 0)
      (notification .sta .up ++ notification .ap .down)) := by
  intro lockFree
  have free := lockFree (by decide +kernel)
  revert free
  decide +kernel

end HalowBridge.Mmnetif
