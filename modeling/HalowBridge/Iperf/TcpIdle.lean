import HalowBridge.Iperf.TcpServer

/-!
# The idle timeout of the TCP server

lwIP polls an open connection once a second. `iperf_tcp_poll` counts the polls in the object of the
server and closes the connection at the 140th; a received segment sets the count back. The count
belongs to the object, which serves one client after the other, and `iperf_tcp_accept` leaves it as
the client before left it.

An `IdleClock` counts the polls of the present connection. `closesIdle_iff` gives the runs in which
a connection is closed only after 140 polls of its own without a segment. A client that sends
something is safe, and so is one that finds the count at 0. The count is a byte: a client that finds
it at 255 begins with a poll that takes it to 0.
-/

namespace HalowBridge.Iperf

/-- What the present connection has seen since its accept or its last segment. -/
structure IdleClock where
  /-- The count that the connection began with. -/
  inherited : UInt8
  polls : ℕ

/-- The clock of a server goes on with an event. -/
def IdleClock.next (clock : IdleClock) (s : TcpServer) : TcpEvent → IdleClock
  | .accept true (some _) =>
      match s.state with
      | some conn => if conn.connPcb = none then ⟨conn.pollCount, 0⟩ else clock
      | none => clock
  | .recv (.data _) _ => ⟨0, 0⟩
  | .poll _ => { clock with polls := clock.polls + 1 }
  | .accept _ _ | .recv _ _ | .err _ => clock

/-- A server with its clock. -/
def clockedServer : Machine (TcpServer × IdleClock) TcpEvent TcpOutput where
  step s event := (((tcpServer.step s.1 event).1, s.2.next s.1 event), (tcpServer.step s.1 event).2)

def startClocked : TcpServer × IdleClock := (startTcpServer, ⟨0, 0⟩)

/-- The event closes the connection as idle. -/
def ClosesIdle (s : TcpServer) : TcpEvent → Prop
  | .poll now => (tcpServer.step s (.poll now)).2.2 ≠ none
  | _ => False

/-- A connection that is closed as idle has had its polls. -/
def IdleLongEnough (s : TcpServer × IdleClock) (event : TcpEvent) : Prop :=
  ClosesIdle s.1 event → iperfTcpMaxIdleS.toNat ≤ s.2.polls + 1

/-- The callbacks of a connection are registered. -/
def TcpServer.Connected (s : TcpServer) : Prop :=
  s.halted = false ∧ s.registered ≠ none ∧ s.state ≠ none

instance (s : TcpServer) : Decidable s.Connected :=
  have : DecidablePred fun state : Option IperfStateTcp => state ≠ none := fun
    | none => isFalse fun other => other rfl
    | some _ => isTrue nofun
  inferInstanceAs (Decidable (_ ∧ _ ∧ _))

/-- No poll takes a count that the connection did not begin itself to 140. -/
def OwnPolls (s : TcpServer × IdleClock) : TcpEvent → Prop
  | .poll _ => s.1.Connected →
      s.2.inherited = 0 ∨ s.2.inherited = 255 ∨ s.2.inherited.toNat + s.2.polls + 1 < 140
  | _ => True

instance (s : TcpServer × IdleClock) : (event : TcpEvent) → Decidable (OwnPolls s event)
  | .poll _ => inferInstanceAs (Decidable (_ → _))
  | .accept _ _ | .recv _ _ | .err _ => inferInstanceAs (Decidable True)

/-! ## The count and the clock -/

/-- The count of an open connection. -/
structure Counted (pollCount : UInt8) (clock : IdleClock) : Prop where
  count : pollCount.toNat = (clock.inherited.toNat + clock.polls) % 256
  open_ : clock.polls = 0 ∨ clock.inherited.toNat + clock.polls < 140 ∨
    clock.inherited = 255 ∧ clock.polls ≤ 140

/-- The clock tells the count of the open connection, if there is one. -/
def Ticks (s : TcpServer × IdleClock) : Prop :=
  s.1.halted = false → s.1.registered ≠ none → ∀ conn, s.1.state = some conn →
    Counted conn.pollCount s.2

theorem counted_start (pollCount : UInt8) : Counted pollCount ⟨pollCount, 0⟩ where
  count := (Nat.mod_eq_of_lt pollCount.toNat_lt).symm
  open_ := .inl rfl

/-- The poll that does not close the connection. -/
theorem Counted.poll {pollCount : UInt8} {clock : IdleClock} (counted : Counted pollCount clock)
    (goesOn : ¬ pollCount + 1 ≥ iperfTcpMaxIdleS) :
    Counted (pollCount + 1) { clock with polls := clock.polls + 1 } := by
  have next : (pollCount + 1).toNat = (pollCount.toNat + 1) % 256 := UInt8.toNat_add pollCount 1
  have few : (pollCount + 1).toNat < 140 := by
    rw [ge_iff_le, UInt8.le_iff_toNat_le, not_le] at goesOn
    exact goesOn
  have inherited := clock.inherited.toNat_lt
  have eq_255 : clock.inherited = 255 ↔ clock.inherited.toNat = 255 := UInt8.toNat_inj.symm
  have count := counted.count
  refine ⟨?_, .inr ?_⟩
  · rw [next, count]
    dsimp only
    omega
  · have := counted.open_
    dsimp only
    rw [eq_255] at this ⊢
    omega

/-- **When the poll that closes a connection comes too early.** -/
theorem Counted.closes_iff {pollCount : UInt8} {clock : IdleClock}
    (counted : Counted pollCount clock) :
    (pollCount + 1 ≥ iperfTcpMaxIdleS → iperfTcpMaxIdleS.toNat ≤ clock.polls + 1) ↔
      clock.inherited = 0 ∨ clock.inherited = 255 ∨
        clock.inherited.toNat + clock.polls + 1 < 140 := by
  have next : (pollCount + 1).toNat = (pollCount.toNat + 1) % 256 := UInt8.toNat_add pollCount 1
  have inherited := clock.inherited.toNat_lt
  have maxIdle : iperfTcpMaxIdleS.toNat = 140 := rfl
  have eq_0 : clock.inherited = 0 ↔ clock.inherited.toNat = 0 := UInt8.toNat_inj.symm
  have eq_255 : clock.inherited = 255 ↔ clock.inherited.toNat = 255 := UInt8.toNat_inj.symm
  have count := counted.count
  have opened := counted.open_
  rw [ge_iff_le, UInt8.le_iff_toNat_le, next, maxIdle, eq_0, eq_255]
  rw [eq_255] at opened
  omega

/-! ## What an event does to them -/

/-- A close leaves no callbacks, or no object. -/
theorem iperfTcpClose_disconnects (s : TcpServer) (conn : IperfStateTcp) (now : UInt32)
    (reportType : MmiperfReportType) :
    (iperfTcpClose s conn now reportType).1.registered = none ∨
      (iperfTcpClose s conn now reportType).1.state = none := by
  cases connected : conn.connPcb with
  | some pcb =>
      left
      simp only [iperfTcpClose, connected]
      split <;> rfl
  | none =>
      right
      cases listener : conn.serverPcb <;> simp [iperfTcpClose, connected, listener]

theorem pollCount_copySettings (conn : IperfStateTcp) (p : Pbuf) :
    (conn.copySettings p).pollCount = conn.pollCount := by
  unfold IperfStateTcp.copySettings
  split <;> rfl

/-- A segment sets the count back, or ends the connection. -/
theorem pollCount_recv (s : TcpServer) (conn : IperfStateTcp) (p : Pbuf) (now : UInt32) :
    (iperfTcpRecv s conn (.data p) now).1.registered = none ∨
      ∀ next, (iperfTcpRecv s conn (.data p) now).1.state = some next → next.pollCount = 0 := by
  have copied := pollCount_copySettings (conn.setPollCount 0) p
  dsimp only [iperfTcpRecv]
  split_ifs
  · rcases iperfTcpClose_disconnects s (conn.setPollCount 0) now .tcpAbortedLocalDataerror
      with silent | freed
    · exact .inl silent
    · right
      intro next alive
      rw [freed] at alive
      cases alive
  · right
    rintro next ⟨⟩
    exact copied
  · right
    cases pbufRemoveHeader p settingsLen with
    | some p =>
        rintro next ⟨⟩
        exact copied
    | none =>
        rintro next ⟨⟩
        exact copied
  · right
    rintro next ⟨⟩
    rfl

theorem ticks_of_disconnected {s : TcpServer} (disconnected : s.registered = none ∨ s.state = none)
    (clock : IdleClock) : Ticks (s, clock) := by
  intro _ registered conn alive
  rcases disconnected with silent | freed
  · exact (registered silent).elim
  · rw [freed] at alive
    cases alive

theorem ticks_accept {s : TcpServer} {conn : IperfStateTcp} (alive : s.state = some conn)
    {clock : IdleClock} (ticks : Ticks (s, clock)) (ok : Bool) (newpcb : Option ℕ) :
    Ticks ((iperfTcpAccept s conn ok newpcb).1, clock.next s (.accept ok newpcb)) := by
  match ok, newpcb with
  | true, some pcb =>
      simp only [iperfTcpAccept, IdleClock.next, alive]
      by_cases connected : conn.connPcb = none
      · rw [if_neg (not_not.mpr connected), if_pos connected]
        rintro - - next ⟨⟩
        exact counted_start conn.pollCount
      · rw [if_pos connected, if_neg connected]
        exact ticks
  | true, none => exact ticks
  | false, _ => exact ticks

theorem ticks_recv {s : TcpServer} {conn : IperfStateTcp} (clock : IdleClock)
    (received : Received) (now : UInt32) :
    Ticks ((iperfTcpRecv s conn received now).1, clock.next s (.recv received now)) := by
  cases received with
  | error => exact ticks_of_disconnected (iperfTcpClose_disconnects s conn now _) clock
  | endOfStream => exact ticks_of_disconnected (iperfTcpClose_disconnects s conn now _) clock
  | data p =>
      intro _ registered next alive
      rcases pollCount_recv s conn p now with silent | back
      · exact (registered silent).elim
      · have zero : next.pollCount = 0 := back next alive
        show Counted next.pollCount ⟨0, 0⟩
        rw [zero]
        exact counted_start 0

theorem ticks_poll {s : TcpServer} {conn : IperfStateTcp} {clock : IdleClock}
    (counted : Counted conn.pollCount clock) (now : UInt32) :
    Ticks ((iperfTcpPoll s conn now).1, clock.next s (.poll now)) := by
  dsimp only [iperfTcpPoll]
  split_ifs with idle
  · exact ticks_of_disconnected (iperfTcpClose_disconnects s _ now _) _
  · rintro - - next ⟨⟩
    exact counted.poll idle

/-- A callback matters where the connection is open. -/
theorem ticks_onConnection {s : TcpServer} {clock : IdleClock} {event : TcpEvent}
    {callback : IperfStateTcp → TcpServer × Option MmiperfReport}
    (called : ∀ conn, s.registered ≠ none → s.state = some conn →
      Ticks ((callback conn).1, clock.next s event)) :
    Ticks ((s.onConnection callback).1, clock.next s event) := by
  cases registered : s.registered with
  | none =>
      rw [TcpServer.onConnection, registered]
      exact ticks_of_disconnected (.inl registered) _
  | some pcb =>
      cases alive : s.state with
      | none =>
          rw [TcpServer.onConnection, registered, alive]
          exact ticks_of_disconnected (.inr alive) _
      | some conn =>
          rw [TcpServer.onConnection, registered, alive]
          exact called conn (registered ▸ Option.some_ne_none pcb) alive

/-- An accept that finds nobody listening. -/
theorem ticks_refused {s : TcpServer} {clock : IdleClock} (ticks : Ticks (s, clock)) (ok : Bool)
    (newpcb : Option ℕ) : Ticks (s, clock.next s (.accept ok newpcb)) := by
  match ok, newpcb with
  | true, some pcb =>
      cases alive : s.state with
      | none => exact ticks_of_disconnected (.inr alive) _
      | some conn =>
          simp only [IdleClock.next, alive]
          split
          · intro _ _ next same
            obtain rfl := Option.some.inj (alive.symm.trans same)
            exact counted_start conn.pollCount
          · exact ticks
  | true, none => exact ticks
  | false, _ => exact ticks

theorem ticks_deliver {s : TcpServer} {clock : IdleClock} (ticks : Ticks (s, clock))
    (running : s.halted = false) (event : TcpEvent) :
    Ticks ((s.deliver event).1, clock.next s event) := by
  cases event with
  | accept ok newpcb =>
      simp only [TcpServer.deliver]
      split
      · next alive => exact ticks_accept alive ticks ok newpcb
      · exact ticks_refused ticks ok newpcb
  | recv received now => exact ticks_onConnection fun _ _ _ => ticks_recv clock received now
  | err now =>
      refine ticks_onConnection fun conn _ _ => ?_
      rw [iperfTcpErr_state]
      exact ticks_of_disconnected (.inr rfl) _
  | poll now =>
      exact ticks_onConnection fun conn registered alive =>
        ticks_poll (ticks running registered conn alive) now

theorem ticks_step {s : TcpServer × IdleClock} (ticks : Ticks s) (event : TcpEvent) :
    Ticks (clockedServer.step s event).1 := by
  obtain ⟨s, clock⟩ := s
  show Ticks ((tcpServer.step s event).1, clock.next s event)
  cases running : s.halted with
  | true =>
      rw [step_halted running]
      intro halted
      rw [show s.halted = true from running] at halted
      cases halted
  | false =>
      rw [step_running running]
      exact ticks_deliver ticks running event

/-! ## Runs -/

theorem ticks_exec (events : List TcpEvent) : Ticks (clockedServer.exec startClocked events) :=
  clockedServer.exec_invariant (ticks_of_disconnected (.inl rfl) _)
    (fun _ event ticks => ticks_step ticks event) events

theorem iperfTcpClose_report (s : TcpServer) (conn : IperfStateTcp) (now : UInt32)
    (reportType : MmiperfReportType) :
    (iperfTcpClose s conn now reportType).2 ≠ none := by
  unfold iperfTcpClose
  dsimp only
  split_ifs <;> exact Option.some_ne_none _

/-- The poll of an open connection, at the end of its time. -/
theorem closesIdle_poll_iff {s : TcpServer} (running : s.halted = false)
    (registered : s.registered ≠ none) {conn : IperfStateTcp} (alive : s.state = some conn)
    (now : UInt32) : ClosesIdle s (.poll now) ↔ conn.pollCount + 1 ≥ iperfTcpMaxIdleS := by
  obtain ⟨pcb, registered⟩ := Option.ne_none_iff_exists'.mp registered
  rw [ClosesIdle, step_running running]
  simp only [TcpServer.deliver, TcpServer.onConnection, registered, alive, iperfTcpPoll]
  split_ifs with idle
  · exact iff_of_true (iperfTcpClose_report s _ now .tcpAbortedLocal) idle
  · exact iff_of_false (fun closed => closed rfl) idle

theorem not_closesIdle_poll {s : TcpServer} (closed : ¬ s.Connected) (now : UInt32) :
    ¬ ClosesIdle s (.poll now) := by
  intro closes
  apply closes
  cases running : s.halted with
  | true => rw [step_halted running]
  | false =>
      rw [step_running running]
      cases registered : s.registered with
      | none => simp only [TcpServer.deliver, TcpServer.onConnection, registered]
      | some pcb =>
          cases alive : s.state with
          | none => simp only [TcpServer.deliver, TcpServer.onConnection, registered, alive]
          | some conn =>
              have connected : s.Connected :=
                ⟨running, registered ▸ Option.some_ne_none pcb, alive ▸ Option.some_ne_none conn⟩
              exact (closed connected).elim

theorem idleLongEnough_iff {s : TcpServer × IdleClock} (ticks : Ticks s) (event : TcpEvent) :
    IdleLongEnough s event ↔ OwnPolls s event := by
  cases event with
  | poll now =>
      rw [IdleLongEnough, OwnPolls]
      by_cases connected : s.1.Connected
      · obtain ⟨running, registered, live⟩ := connected
        obtain ⟨conn, alive⟩ := Option.ne_none_iff_exists'.mp live
        have counted := ticks running registered conn alive
        rw [closesIdle_poll_iff running registered alive, counted.closes_iff]
        exact ⟨fun own _ => own, fun own => own ⟨running, registered, live⟩⟩
      · exact iff_of_true (fun closes => (not_closesIdle_poll connected now closes).elim)
          (fun connection => (connected connection).elim)
  | accept _ _ | recv _ _ | err _ => exact iff_of_true (fun closes => closes.elim) trivial

/-- **When the idle timeout is per connection**: in a run every connection that is closed as idle
has had its 140 polls without a segment, if and only if no poll takes a count that another
connection began to 140. -/
theorem closesIdle_iff (events : List TcpEvent) :
    clockedServer.Guarded (fun _ => IdleLongEnough) startClocked events ↔
      clockedServer.Guarded (fun _ => OwnPolls) startClocked events :=
  forall₂_congr fun before event =>
    imp_congr_right fun _ => idleLongEnough_iff (ticks_exec before) event

/-- A client that was polled once and went, and a client that waits. -/
def impatient : List TcpEvent :=
  [.accept true (some 1), .poll 1, .recv .endOfStream 1, .accept true (some 2)] ++
    List.replicate 139 (.poll 2)

/-- **A client is closed as idle after 139 polls, since the one before was polled once.** -/
theorem not_idleLongEnough_impatient :
    ¬ clockedServer.Guarded (fun _ => IdleLongEnough) startClocked impatient := by
  intro guarded
  have waited : impatient = impatient.take 142 ++ [.poll 2] := rfl
  have early := guarded (impatient.take 142) (.poll 2) (waited ▸ List.prefix_refl _)
  have polls : (clockedServer.exec startClocked (impatient.take 142)).2.polls = 138 := by
    decide +kernel
  have closes : ClosesIdle (clockedServer.exec startClocked (impatient.take 142)).1 (.poll 2) := by
    rw [ClosesIdle]
    decide +kernel
  have enough := early closes
  rw [polls] at enough
  exact absurd enough (by decide)

end HalowBridge.Iperf
