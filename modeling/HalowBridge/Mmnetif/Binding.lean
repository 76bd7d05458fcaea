import HalowBridge.Mmnetif.VifState

/-!
# Which VIF the interface is bound to

`mmnetif_vif_state` decides by the link flag of the interface whether a VIF that comes up takes the
interface over, but the flag is only set and cleared when the TCP/IP thread gets to the callback. A
VIF that comes up in between is taken for the first one although another is up, or is kept out
although the bound one has gone down, in which case the link of the interface comes up for a VIF
that is down, and `mmnetif_rx` drops every packet.

`bindingKept_of_upToDate` says that nothing else goes wrong: where the flag agrees with the last
notification of the bound VIF whenever another VIF comes up, the flag is right once all callbacks
are executed, and the interface is not taken from a VIF that is up.
-/

namespace HalowBridge.Mmnetif

/-- No notification is in progress and no callback waits for the TCP/IP thread. -/
def Quiet (s : Threads Netif Call) : Prop :=
  (∀ pc ∈ s.calls, pc = .otherLock ∨ pc = .otherUnlock) ∧ s.shared.queue = [] ∧
    (s.shared.tcpip = .waiting ∨ s.shared.tcpip = .executed)

instance (s : Threads Netif Call) : Decidable (Quiet s) :=
  inferInstanceAs (Decidable (_ ∧ _))

/-- Along the run, the flag is set only for a VIF whose link is up, and the interface is not taken
from a VIF whose link is up. -/
structure BindingKept (getVifMacAddr : Vif → Option MacAddr) (hwaddr : MacAddr)
    (turns : List (Turn Request Unit)) : Prop where
  flag : ∀ before, before <+: turns → Quiet (netifAfter getVifMacAddr hwaddr before) →
    (netifAfter getVifMacAddr hwaddr before).shared.linkUp = true →
    (netifAfter getVifMacAddr hwaddr before).shared.last
      (netifAfter getVifMacAddr hwaddr before).shared.vif = .up
  bound : ∀ before t, before ++ [t] <+: turns →
    (netifAfter getVifMacAddr hwaddr (before ++ [t])).shared.vif ≠
      (netifAfter getVifMacAddr hwaddr before).shared.vif →
    (netifAfter getVifMacAddr hwaddr before).shared.last
      (netifAfter getVifMacAddr hwaddr before).shared.vif ≠ .up

/-- The call may move: when it is the link-up of a VIF that the interface is not bound to, the flag
agrees with the last notification of the bound one. -/
def UpToDate (s : Netif) (pc : Call) (_ : Multiset Call) : Prop :=
  ∀ state, pc = .handle state → state.linkState = .up → s.vif ≠ state.vif →
    (s.linkUp = true ↔ s.last s.vif = .up)

instance (s : Netif) (pc : Call) (others : Multiset Call) : Decidable (UpToDate s pc others) :=
  match pc with
  | .handle state =>
      decidable_of_iff (state.linkState = .up → s.vif ≠ state.vif →
          (s.linkUp = true ↔ s.last s.vif = .up))
        ⟨fun upToDate _ same => by cases same; exact upToDate, fun upToDate => upToDate state rfl⟩
  | .lock _ | .unlock | .otherLock | .otherUnlock => .isTrue fun _ same => by cases same

/-! ## The flag once all callbacks are executed -/

/-- What a callback leaves in the flag. -/
@[simp] def Callback.flag : Callback → Bool
  | .netifSetLinkUp => true
  | .netifSetLinkDown => false

/-- The callback that the TCP/IP thread has fetched and not executed. -/
@[simp] def TcpipThread.pending : TcpipThread → List Callback
  | .fetched callback | .executing callback => [callback]
  | .waiting | .executed => []

/-- The flag once all callbacks are executed. -/
def Netif.flagAfter (s : Netif) : Bool :=
  (s.tcpip.pending ++ s.queue).foldl (fun _ callback => callback.flag) s.linkUp

/-- The last callback decides. -/
theorem flagAfter_tcpipCallback (s : Netif) (callback : Callback) :
    (s.tcpipCallback callback).flagAfter = callback.flag := by
  rw [Netif.flagAfter, Netif.tcpipCallback, ← List.append_assoc, List.foldl_append]
  rfl

theorem flagAfter_tcpipStep (s : Netif) : s.tcpipStep.flagAfter = s.flagAfter := by
  unfold Netif.tcpipStep Netif.flagAfter
  cases here : s.tcpip with
  | waiting => cases queue : s.queue <;> simp [here, queue]
  | fetched callback => cases locked : s.locked <;> simp [here]
  | executing callback => cases callback <;> simp [Netif.execute]
  | executed => simp [Netif.unlockTcpipCore]

theorem vif_tcpipStep (s : Netif) : s.tcpipStep.vif = s.vif ∧ s.tcpipStep.last = s.last := by
  unfold Netif.tcpipStep
  cases here : s.tcpip with
  | waiting => cases queue : s.queue <;> simp
  | fetched callback => cases locked : s.locked <;> simp
  | executing callback => cases callback <;> simp [Netif.execute]
  | executed => simp [Netif.unlockTcpipCore]

/-- The flag will be that of the bound VIF. -/
def Agrees (s : Netif) : Prop := s.flagAfter = true ↔ s.last s.vif = .up

section

variable (getVifMacAddr : Vif → Option MacAddr) {s : Netif} {state : VifState} {pc : Call}
  {others : Multiset Call}

theorem agrees_tcpipCallback {callback : Callback}
    (agrees : callback.flag = true ↔ s.last s.vif = .up) : Agrees (s.tcpipCallback callback) := by
  rw [Agrees, flagAfter_tcpipCallback]
  exact agrees

theorem last_record_of_ne (other : s.vif ≠ state.vif) :
    (s.record state).last s.vif = s.last s.vif :=
  Function.update_of_ne other _ _

theorem last_record_self : (s.record state).last state.vif = state.linkState :=
  Function.update_self _ _ _

/-- A notification keeps the agreement, with what it records. -/
theorem agrees_handle (agrees : Agrees s) (upToDate : UpToDate s (.handle state) others) :
    Agrees (mmnetifVifState getVifMacAddr (s.record state) state).1 := by
  rcases mmnetifVifState_cases getVifMacAddr (s.record state) state with
    ⟨-, other, e⟩ | ⟨down, bound, e⟩ | ⟨up, flag, e⟩ | ⟨up, -, e⟩ <;> rw [e]
  · -- The link-down of another VIF says nothing about the bound one.
    have last : (s.record state).last s.vif = s.last s.vif := last_record_of_ne other
    show s.flagAfter = true ↔ (s.record state).last s.vif = .up
    rw [last]
    exact agrees
  · have last : (s.record state).last (s.record state).vif = .down := by
      rw [bound, last_record_self, down]
    exact agrees_tcpipCallback (by rw [last]; decide)
  · have last : (s.record state).last s.vif = .up := by
      by_cases bound : s.vif = state.vif
      · rw [bound, last_record_self, up]
      · rw [last_record_of_ne bound]
        exact (upToDate state rfl up bound).mp flag
    exact agrees_tcpipCallback (iff_of_true rfl last)
  · have last : (s.record state).last state.vif = .up := by
      rw [last_record_self, up]
    exact agrees_tcpipCallback (iff_of_true rfl last)

theorem agrees_advance (outcome : Unit) (agrees : Agrees s) (upToDate : UpToDate s pc others) :
    Agrees ((program getVifMacAddr).advance s pc outcome).1 := by
  have lock (here next : Call) : Agrees (s.lockTcpipCore here next).1 := by
    unfold Netif.lockTcpipCore
    split <;> exact agrees
  cases pc with
  | lock state => exact lock _ _
  | handle state => exact agrees_handle getVifMacAddr agrees upToDate
  | unlock => exact agrees
  | otherLock => exact lock _ _
  | otherUnlock => exact agrees

theorem agrees_enter (agrees : Agrees s) (request : Request) :
    Agrees ((program getVifMacAddr).enter s request).1 := by
  cases request with
  | notify state => exact agrees
  | other => exact agrees
  | tcpip =>
      show s.tcpipStep.flagAfter = true ↔ s.tcpipStep.last s.tcpipStep.vif = .up
      obtain ⟨vif, last⟩ := vif_tcpipStep s
      rw [flagAfter_tcpipStep, vif, last]
      exact agrees

/-- The interface is bound anew only to a VIF that comes up while the flag is clear. -/
theorem rebinds_advance (outcome : Unit) (upToDate : UpToDate s pc others)
    (changes : ((program getVifMacAddr).advance s pc outcome).1.vif ≠ s.vif) :
    s.last s.vif ≠ .up := by
  have lock (here next : Call) : (s.lockTcpipCore here next).1.vif = s.vif := by
    unfold Netif.lockTcpipCore
    split <;> rfl
  cases pc with
  | lock state => exact absurd (lock _ _) changes
  | handle state =>
      replace changes : (mmnetifVifState getVifMacAddr (s.record state) state).1.vif ≠ s.vif :=
        changes
      rcases mmnetifVifState_cases getVifMacAddr (s.record state) state with
        ⟨-, -, e⟩ | ⟨-, -, e⟩ | ⟨-, -, e⟩ | ⟨up, clear, e⟩ <;> rw [e] at changes
      · exact absurd rfl changes
      · exact absurd rfl changes
      · exact absurd rfl changes
      · intro stillUp
        have flag := (upToDate state rfl up (Ne.symm changes)).mpr stillUp
        exact Bool.false_ne_true (clear.symm.trans flag)
  | unlock => exact absurd rfl changes
  | otherLock => exact absurd (lock _ _) changes
  | otherUnlock => exact absurd rfl changes

theorem rebinds_turn {t : Threads Netif Call} {turn : Turn Request Unit}
    (upToDate : Program.Allows UpToDate t turn)
    (changes : ((program getVifMacAddr).turn t turn).shared.vif ≠ t.shared.vif) :
    t.shared.last t.shared.vif ≠ .up := by
  cases turn with
  | enter request =>
      refine absurd ?_ changes
      cases request with
      | notify state => rfl
      | other => rfl
      | tcpip => exact (vif_tcpipStep t.shared).1
  | advance i outcome =>
      cases here : t.calls[i]? with
      | none =>
          refine absurd ?_ changes
          rw [Program.turn, here]
      | some pc =>
          rw [Program.Allows, here] at upToDate
          rw [((program getVifMacAddr).turn_advance here outcome).1] at changes
          exact rebinds_advance getVifMacAddr outcome upToDate changes

variable (hwaddr : MacAddr)

theorem agrees_run {turns : List (Turn Request Unit)}
    (upToDate : (program getVifMacAddr).AllowsAll UpToDate ⟨mmnetifInit hwaddr, []⟩ turns) :
    Agrees (netifAfter getVifMacAddr hwaddr turns).shared := by
  have init : Agrees (mmnetifInit hwaddr) :=
    iff_of_false Bool.false_ne_true fun same => by cases same
  exact (program getVifMacAddr).invariant_guarded (I := fun s _ => Agrees s) init
    (fun _ _ request agrees => agrees_enter getVifMacAddr agrees request)
    (fun _ _ _ outcome agrees upToDate => agrees_advance getVifMacAddr outcome agrees upToDate)
    upToDate

/-- **When the binding is kept**: in every run in which the flag agrees with the last notification
of the bound VIF whenever another VIF comes up. -/
theorem bindingKept_of_upToDate {turns : List (Turn Request Unit)}
    (upToDate : (program getVifMacAddr).AllowsAll UpToDate ⟨mmnetifInit hwaddr, []⟩ turns) :
    BindingKept getVifMacAddr hwaddr turns := by
  constructor
  · intro before reached quiet up
    have agrees := agrees_run getVifMacAddr hwaddr (upToDate.of_prefix _ reached)
    obtain ⟨-, queue, thread⟩ := quiet
    refine agrees.mp ?_
    rw [Netif.flagAfter, queue]
    rcases thread with thread | thread <;> rw [thread] <;> exact up
  · intro before t here changes
    unfold netifAfter at changes ⊢
    rw [Machine.exec_concat] at changes
    exact rebinds_turn getVifMacAddr (upToDate before t here) changes

end

/-- The TCP/IP thread executes a callback that nobody disturbs. -/
def execution : List (Turn Request Unit) := List.replicate 4 (.enter .tcpip)

/-- The station comes up and goes down, then the access point comes up. -/
theorem bindingKept_of_upToDate_takeover :
    BindingKept (fun _ => none) (Vector.replicate 6 0)
      (notification .sta .up ++ execution ++ notification .sta .down ++ execution ++
        notification .ap .up ++ execution) :=
  bindingKept_of_upToDate _ _ (by decide +kernel)

/-- **A stale flag, both ways.** The access point takes the interface from a station that has just
come up. And when the station has just gone down, the access point brings up the link of an
interface that stays bound to the station. -/
theorem not_bindingKept_stale :
    ¬ BindingKept (fun _ => none) (Vector.replicate 6 0)
        (notification .sta .up ++ notification .ap .up) ∧
      ¬ BindingKept (fun _ => none) (Vector.replicate 6 0)
        (notification .sta .up ++ execution ++ notification .sta .down ++ notification .ap .up ++
          execution ++ execution) := by
  constructor
  · intro kept
    have bound := kept.bound (notification .sta .up ++ (notification .ap .up).take 2)
      (.advance 0 ()) ⟨[.advance 0 ()], rfl⟩ (by decide +kernel)
    revert bound
    decide +kernel
  · intro kept
    have flag := kept.flag _ (List.prefix_refl _) (by decide +kernel) (by decide +kernel)
    revert flag
    decide +kernel

end HalowBridge.Mmnetif
