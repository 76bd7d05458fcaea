import HalowBridge.Lib.Machine
import HalowBridge.Lib.Table
import HalowBridge.Iperf.Report

/-!
# The iperf TCP server

One `iperf_state_tcp` object serves the listener of a server and the connection of its present
client: both have it as the argument of their callbacks. `iperf_tcp_close` closes the connection and
frees the object once neither pcb is left.

The events are those lwIP delivers: `accept` from the listener, and `recv`, `poll` and `err` from
the connection whose callbacks are registered. `err` tells that lwIP has already freed the pcb of
the connection. `iperf_tcp_err` then drops both pcbs of the object, so that the object is freed
while the listener goes on with it. `survives_iff` says that this is the only way for a server to
lose its object: in a run without such an event, and in no other, every accept finds a live object.

The assertion of `iperf_tcp_recv` on `pbuf_remove_header` can fail, and then stops the program; the
other assertions of the callbacks hold wherever the object is live.
-/

namespace HalowBridge.Iperf

abbrev settingsLen : ℕ := 24

def iperfTcpMaxIdleS : UInt8 := 140

/-- `struct iperf_state_tcp`, as far as a server uses it. -/
structure IperfStateTcp where
  report : MmiperfReport
  timeStartedMs : UInt32
  /-- Whether `server_pcb` is not NULL. -/
  serverPcb : Bool
  connPcb : Option ℕ
  pollCount : UInt8
  settings : Table UInt8 settingsLen
  haveSettingsBuf : Bool

/-- A server and the pcbs that have its object as their argument. -/
structure TcpServer where
  /-- The object, until it is freed. -/
  state : Option IperfStateTcp
  /-- The listener is open. -/
  listening : Bool
  /-- The connection whose callbacks are registered. -/
  registered : Option ℕ
  /-- An assertion has failed and stopped the program. -/
  halted : Bool

/-- A chain of pbufs: the payload of the first and the payloads behind it. -/
structure Pbuf where
  payload : List UInt8
  next : List (List UInt8)

def Pbuf.bytes (p : Pbuf) : List UInt8 := p.payload ++ p.next.flatten

def Pbuf.totLen (p : Pbuf) : ℕ := p.bytes.length

/-- `pbuf_remove_header`: it fails on a header that the first pbuf does not hold. -/
def pbufRemoveHeader (p : Pbuf) (n : ℕ) : Option Pbuf :=
  if n ≤ p.payload.length then some { p with payload := p.payload.drop n } else none

/-- What lwIP hands to `iperf_tcp_recv`. -/
inductive Received where
  | data (p : Pbuf)
  | endOfStream
  | error

/-- The events of lwIP, with the time they happen at. -/
inductive TcpEvent where
  | accept (ok : Bool) (newpcb : Option ℕ)
  | recv (received : Received) (now : UInt32)
  | err (now : UInt32)
  | poll (now : UInt32)

inductive ErrT where
  | ok
  | val
  | already
  deriving DecidableEq

/-- The result of a callback of lwIP and the report given to the user, if any. -/
abbrev TcpOutput : Type := ErrT × Option MmiperfReport

/-- After `mmiperf_start_tcp_server`. -/
def startTcpServer : TcpServer where
  state := some
    { report := { interrimReport with reportType := .tcpDoneServer }
      timeStartedMs := 0
      serverPcb := true
      connPcb := none
      pollCount := 0
      settings := .fill _ 0
      haveSettingsBuf := false }
  listening := true
  registered := none
  halted := false

/-- `iperf_tcp_close` on the object `conn` of the server. -/
def iperfTcpClose (s : TcpServer) (conn : IperfStateTcp) (now : UInt32)
    (reportType : MmiperfReportType) : TcpServer × Option MmiperfReport :=
  let report := finalizeReport conn.report (now - conn.timeStartedMs) reportType
  let conn := { conn with report := report }
  let (s, conn) :=
    match conn.connPcb with
    | some _ => ({ s with registered := none }, { conn with connPcb := none })
    | none =>
        if conn.serverPcb then ({ s with listening := false }, { conn with serverPcb := false })
        else (s, conn)
  if conn.connPcb = none ∧ conn.serverPcb = false then ({ s with state := none }, some report)
  else ({ s with state := some conn }, some report)

/-- The copy of the settings, made once. -/
def IperfStateTcp.copySettings (conn : IperfStateTcp) (p : Pbuf) : IperfStateTcp :=
  if conn.haveSettingsBuf then conn
  else
    { conn with
      settings := conn.settings.overwrite (p.bytes.take settingsLen)
      haveSettingsBuf := true }

def IperfStateTcp.addBytes (conn : IperfStateTcp) (n : ℕ) : IperfStateTcp :=
  { conn with report.bytesTransferred := conn.report.bytesTransferred + UInt64.ofNat n }

def IperfStateTcp.setPollCount (conn : IperfStateTcp) (pollCount : UInt8) : IperfStateTcp :=
  { conn with pollCount := pollCount }

def IperfStateTcp.setTimeStarted (conn : IperfStateTcp) (now : UInt32) : IperfStateTcp :=
  { conn with timeStartedMs := now }

/-- `iperf_tcp_recv` -/
def iperfTcpRecv (s : TcpServer) (conn : IperfStateTcp) (received : Received) (now : UInt32) :
    TcpServer × Option MmiperfReport :=
  match received with
  | .error => iperfTcpClose s conn now .tcpAbortedRemote
  | .endOfStream => iperfTcpClose s conn now .tcpDoneServer
  | .data p =>
      let conn := conn.setPollCount 0
      if conn.haveSettingsBuf = false ∨
          (conn.report.bytesTransferred - 24) % (1024 * 128) = 0 then
        if p.totLen < settingsLen then iperfTcpClose s conn now .tcpAbortedLocalDataerror
        else
          -- The copy of the settings is never short here.
          let conn := (conn.copySettings p).addBytes settingsLen
          if conn.report.bytesTransferred ≤ 24 then
            ({ s with state := some (conn.setTimeStarted now) }, none)
          else
            match pbufRemoveHeader p settingsLen with
            | some p => ({ s with state := some (conn.addBytes p.totLen) }, none)
            | none => ({ s with state := some conn, halted := true }, none)
      else ({ s with state := some (conn.addBytes p.totLen) }, none)

/-- `iperf_tcp_err` -/
def iperfTcpErr (s : TcpServer) (conn : IperfStateTcp) (now : UInt32) :
    TcpServer × Option MmiperfReport :=
  iperfTcpClose s { conn with connPcb := none, serverPcb := false } now .tcpAbortedRemote

/-- `iperf_tcp_poll` -/
def iperfTcpPoll (s : TcpServer) (conn : IperfStateTcp) (now : UInt32) :
    TcpServer × Option MmiperfReport :=
  let conn := conn.setPollCount (conn.pollCount + 1)
  if conn.pollCount ≥ iperfTcpMaxIdleS then iperfTcpClose s conn now .tcpAbortedLocal
  else ({ s with state := some conn }, none)

/-- `iperf_tcp_accept` -/
def iperfTcpAccept (s : TcpServer) (conn : IperfStateTcp) (ok : Bool) (newpcb : Option ℕ) :
    TcpServer × ErrT :=
  match ok, newpcb with
  | true, some pcb =>
      if conn.connPcb ≠ none then (s, .already)
      else
        ({ s with
            state := some
              { conn with
                report := interrimReport
                settings := .fill _ 0
                haveSettingsBuf := false
                connPcb := some pcb }
            registered := some pcb }, .ok)
  | _, _ => (s, .val)

/-- A callback of the connection, if there is one. A callback on a freed object is undefined. -/
def TcpServer.onConnection (s : TcpServer)
    (callback : IperfStateTcp → TcpServer × Option MmiperfReport) : TcpServer × TcpOutput :=
  match s.registered, s.state with
  | some _, some conn => ((callback conn).1, .ok, (callback conn).2)
  | _, _ => (s, .ok, none)

/-- What lwIP does with an event. It has freed the pcb of the connection before it reports `err`. -/
def TcpServer.deliver (s : TcpServer) : TcpEvent → TcpServer × TcpOutput
  | .accept ok newpcb =>
      match s.listening, s.state with
      | true, some conn =>
          ((iperfTcpAccept s conn ok newpcb).1, (iperfTcpAccept s conn ok newpcb).2, none)
      | _, _ => (s, .ok, none)
  | .recv received now => s.onConnection fun conn => iperfTcpRecv s conn received now
  | .err now => s.onConnection fun conn => iperfTcpErr { s with registered := none } conn now
  | .poll now => s.onConnection fun conn => iperfTcpPoll s conn now

/-- The server under the events of lwIP, until an assertion fails. -/
def tcpServer : Machine TcpServer TcpEvent TcpOutput where
  step s event := if s.halted then (s, .ok, none) else s.deliver event

/-! ## What the callbacks leave -/

/-- Closing a connection keeps the object for the listener. -/
theorem iperfTcpClose_connected {s : TcpServer} {conn : IperfStateTcp} {pcb : ℕ}
    (serverPcb : conn.serverPcb = true) (connected : conn.connPcb = some pcb) (now : UInt32)
    (reportType : MmiperfReportType) :
    iperfTcpClose s conn now reportType =
      ({ s with
          registered := none
          state := some
            { conn with
              report := finalizeReport conn.report (now - conn.timeStartedMs) reportType
              connPcb := none } },
        some (finalizeReport conn.report (now - conn.timeStartedMs) reportType)) := by
  simp [iperfTcpClose, connected, serverPcb]

/-- The error callback frees the object. -/
theorem iperfTcpErr_state (s : TcpServer) (conn : IperfStateTcp) (now : UInt32) :
    (iperfTcpErr s conn now).1 = { s with state := none } := by
  simp [iperfTcpErr, iperfTcpClose]

/-- The object serves the open listener, and the connection with callbacks is its own. -/
structure Serving (s : TcpServer) (conn : IperfStateTcp) : Prop where
  state : s.state = some conn
  listening : s.listening = true
  serverPcb : conn.serverPcb = true
  registered : s.registered = conn.connPcb

/-- The pcbs of the object are the same. -/
def SamePcbs (conn next : IperfStateTcp) : Prop :=
  next.serverPcb = conn.serverPcb ∧ next.connPcb = conn.connPcb

theorem samePcbs_copySettings (conn : IperfStateTcp) (p : Pbuf) :
    SamePcbs conn (conn.copySettings p) := by
  unfold IperfStateTcp.copySettings
  split <;> exact ⟨rfl, rfl⟩

/-- A callback goes on with the connection, or closes it, or fails an assertion. -/
inductive Continues (s : TcpServer) (conn : IperfStateTcp) : TcpServer → Prop
  | goesOn {next : IperfStateTcp} : SamePcbs conn next →
      Continues s conn { s with state := some next }
  | halts {next : IperfStateTcp} : SamePcbs conn next →
      Continues s conn { s with state := some next, halted := true }
  | closes {next : IperfStateTcp} {now : UInt32} {reportType : MmiperfReportType} :
      SamePcbs conn next → Continues s conn (iperfTcpClose s next now reportType).1

theorem continues_recv (s : TcpServer) (conn : IperfStateTcp) (received : Received)
    (now : UInt32) : Continues s conn (iperfTcpRecv s conn received now).1 := by
  cases received with
  | error => exact .closes ⟨rfl, rfl⟩
  | endOfStream => exact .closes ⟨rfl, rfl⟩
  | data p =>
      have copied := samePcbs_copySettings (conn.setPollCount 0) p
      dsimp only [iperfTcpRecv]
      split_ifs
      · exact .closes ⟨rfl, rfl⟩
      · exact .goesOn copied
      · cases pbufRemoveHeader p settingsLen with
        | some p => exact .goesOn copied
        | none => exact .halts copied
      · exact .goesOn ⟨rfl, rfl⟩

theorem continues_poll (s : TcpServer) (conn : IperfStateTcp) (now : UInt32) :
    Continues s conn (iperfTcpPoll s conn now).1 := by
  dsimp only [iperfTcpPoll]
  split_ifs
  · exact .closes ⟨rfl, rfl⟩
  · exact .goesOn ⟨rfl, rfl⟩

theorem Continues.serving {s after : TcpServer} {conn : IperfStateTcp} {pcb : ℕ}
    (continues : Continues s conn after) (serving : Serving s conn)
    (connected : conn.connPcb = some pcb) : ∃ next, Serving after next := by
  cases continues with
  | goesOn same =>
      exact ⟨_, rfl, serving.listening, same.1.trans serving.serverPcb,
        serving.registered.trans same.2.symm⟩
  | halts same =>
      exact ⟨_, rfl, serving.listening, same.1.trans serving.serverPcb,
        serving.registered.trans same.2.symm⟩
  | closes same =>
      rw [iperfTcpClose_connected (same.1.trans serving.serverPcb) (same.2.trans connected)]
      exact ⟨_, rfl, serving.listening, same.1.trans serving.serverPcb, rfl⟩

/-! ## Runs -/

/-- An open listener has a live object with its pcb. -/
def Survives (s : TcpServer) : Prop :=
  s.listening = true → ∃ conn, s.state = some conn ∧ conn.serverPcb = true

/-- lwIP does not free the connection of a client under a running server. -/
def NoConnectionError (s : TcpServer) : TcpEvent → Prop
  | .err _ => s.halted = true ∨ s.registered = none
  | _ => True

instance (s : TcpServer) : (event : TcpEvent) → Decidable (NoConnectionError s event)
  | .err _ => inferInstanceAs (Decidable (s.halted = true ∨ s.registered = none))
  | .accept _ _ | .recv _ _ | .poll _ => inferInstanceAs (Decidable True)

theorem serving_accept {s : TcpServer} {conn : IperfStateTcp} (serving : Serving s conn)
    (ok : Bool) (newpcb : Option ℕ) : ∃ next, Serving (iperfTcpAccept s conn ok newpcb).1 next := by
  match ok, newpcb with
  | true, some pcb =>
      dsimp only [iperfTcpAccept]
      split_ifs
      · exact ⟨conn, serving⟩
      · exact ⟨_, rfl, serving.listening, serving.serverPcb, rfl⟩
  | true, none => exact ⟨conn, serving⟩
  | false, _ => exact ⟨conn, serving⟩

theorem step_halted {s : TcpServer} (halted : s.halted = true) (event : TcpEvent) :
    tcpServer.step s event = (s, .ok, none) := by
  simp only [tcpServer, halted, if_true]

theorem step_running {s : TcpServer} (running : s.halted = false) (event : TcpEvent) :
    tcpServer.step s event = s.deliver event := by
  simp only [tcpServer, running, Bool.false_eq_true, if_false]

/-- A callback of the connection that goes on serving it. -/
theorem serving_onConnection {s : TcpServer} {conn : IperfStateTcp} (serving : Serving s conn)
    {callback : IperfStateTcp → TcpServer × Option MmiperfReport}
    (continues : ∀ pcb, conn.connPcb = some pcb → ∃ next, Serving (callback conn).1 next) :
    ∃ next, Serving (s.onConnection callback).1 next := by
  cases connected : conn.connPcb with
  | none =>
      simp only [TcpServer.onConnection, serving.registered, connected]
      exact ⟨conn, serving⟩
  | some pcb =>
      simp only [TcpServer.onConnection, serving.registered, connected, serving.state]
      exact continues pcb connected

theorem serving_deliver {s : TcpServer} {conn : IperfStateTcp} (serving : Serving s conn)
    (running : s.halted = false) {event : TcpEvent} (alive : NoConnectionError s event) :
    ∃ next, Serving (s.deliver event).1 next := by
  cases event with
  | accept ok newpcb =>
      simp only [TcpServer.deliver, serving.listening, serving.state]
      exact serving_accept serving ok newpcb
  | err now =>
      have silent : s.registered = none := by
        rcases alive with halted | silent
        · rw [running] at halted
          cases halted
        · exact silent
      simp only [TcpServer.deliver, TcpServer.onConnection, silent]
      exact ⟨conn, serving⟩
  | recv received now =>
      exact serving_onConnection serving fun pcb connected =>
        (continues_recv s conn received now).serving serving connected
  | poll now =>
      exact serving_onConnection serving fun pcb connected =>
        (continues_poll s conn now).serving serving connected

theorem serving_step {s : TcpServer} {conn : IperfStateTcp} (serving : Serving s conn)
    {event : TcpEvent} (alive : NoConnectionError s event) :
    ∃ next, Serving (tcpServer.step s event).1 next := by
  cases running : s.halted with
  | true =>
      rw [step_halted running]
      exact ⟨conn, serving⟩
  | false =>
      rw [step_running running]
      exact serving_deliver serving running alive

theorem serving_run {events : List TcpEvent}
    (alive : tcpServer.Guarded (fun _ => NoConnectionError) startTcpServer events) :
    ∃ conn, Serving (tcpServer.exec startTcpServer events) conn := by
  apply tcpServer.exec_guarded (P := fun _ s => ∃ conn, Serving s conn) _ _ alive
  · exact ⟨_, rfl, rfl, rfl, rfl⟩
  · intro _ s event served alive
    obtain ⟨conn, serving⟩ := served
    exact serving_step serving alive

/-- An error of the connection costs the listener its object. -/
theorem not_survives_err {s : TcpServer} {conn : IperfStateTcp} (serving : Serving s conn)
    {event : TcpEvent} (lost : ¬ NoConnectionError s event) :
    ¬ Survives (tcpServer.step s event).1 := by
  match event with
  | .err now =>
      obtain ⟨running, connected⟩ := not_or.mp lost
      obtain ⟨pcb, registered⟩ := Option.ne_none_iff_exists'.mp connected
      intro survives
      rw [step_running (Bool.eq_false_iff.mpr running)] at survives
      simp only [TcpServer.deliver, TcpServer.onConnection, registered, serving.state,
        iperfTcpErr_state] at survives
      obtain ⟨conn, freed, -⟩ := survives serving.listening
      cases freed
  | .accept _ _ | .recv _ _ | .poll _ => exact (lost trivial).elim

/-- **When a server survives its clients**: in every state of the run an open listener has a live
object with its pcb, if and only if lwIP never reports an error of a client's connection. -/
theorem survives_iff (events : List TcpEvent) :
    (∀ before, before <+: events → Survives (tcpServer.exec startTcpServer before)) ↔
      tcpServer.Guarded (fun _ => NoConnectionError) startTcpServer events := by
  constructor
  · intro survives
    induction events using List.reverseRecOn with
    | nil => exact tcpServer.guarded_nil
    | append_singleton events event ih =>
        have alive := ih fun before here =>
          survives before (here.trans (List.prefix_append _ _))
        rcases serving_run alive with ⟨conn, serving⟩
        apply alive.concat
        by_contra lost
        have after := survives _ (List.prefix_refl _)
        rw [Machine.exec_concat] at after
        exact not_survives_err serving lost after
  · intro alive before here _
    rcases serving_run (alive.of_prefix _ here) with ⟨conn, serving⟩
    exact ⟨conn, serving.state, serving.serverPcb⟩

/-- **A client that resets its connection leaves the listener with a freed object.** -/
theorem not_survives_reset :
    ¬ ∀ before, before <+: [.accept true (some 1), .err 0] →
      Survives (tcpServer.exec startTcpServer before) := by
  intro survives
  obtain ⟨conn, freed, -⟩ := survives _ (List.prefix_refl _) rfl
  cases freed

end HalowBridge.Iperf
