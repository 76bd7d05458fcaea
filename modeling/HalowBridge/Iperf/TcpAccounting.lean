import HalowBridge.Iperf.TcpServer

/-!
# What the TCP server counts

A client sends 24 bytes of settings and then data, and TCP delivers this stream in segments cut
anywhere. `iperf_tcp_recv` takes the settings from the first segment and drops the rest of it. From
a segment that begins at a multiple of 128 KiB behind the settings it takes 24 bytes away: it aborts
the session when the segment is shorter, and fails an assertion when the first pbuf is.

`countsStream_iff` gives the cuts for which a session ends well and counts every byte: the first
segment holds the settings and nothing else, and the first pbuf of a segment that begins at such a
place has 24 bytes. The counter has 64 bits and is compared modulo 2 ^ 64; the length of a chain of
pbufs has 16.
-/

namespace HalowBridge.Iperf

/-- A segment of the stream, in one chain of pbufs. -/
structure Segment where
  p : Pbuf
  nonempty : p.bytes ≠ []
  totLen_lt : p.totLen < 65536

/-- The length of the stream. -/
def streamLength : List (Segment × UInt32) → ℕ
  | [] => 0
  | segment :: rest => segment.1.p.totLen + streamLength rest

/-- The segments arrive, each at its time, and the stream ends. -/
def streamEvents (segments : List (Segment × UInt32)) (closed : UInt32) : List TcpEvent :=
  segments.map (fun segment => .recv (.data segment.1.p) segment.2) ++
    [.recv .endOfStream closed]

/-- The events of one client: it connects and sends its stream. -/
def clientEvents (pcb : ℕ) (segments : List (Segment × UInt32)) (closed : UInt32) :
    List TcpEvent :=
  .accept true (some pcb) :: streamEvents segments closed

/-- The reports given to the user. -/
def reports (trace : List (TcpEvent × TcpOutput)) : List MmiperfReport :=
  trace.filterMap fun entry => entry.2.2

/-- The session of a client that finds the server in the state `s` ends well with the number of
bytes of its stream. -/
def CountsStream (s : TcpServer) (pcb : ℕ) (segments : List (Segment × UInt32))
    (closed : UInt32) : Prop :=
  ∃ report, reports (tcpServer.trace s (clientEvents pcb segments closed)) = [report] ∧
    report.reportType = .tcpDoneServer ∧
    report.bytesTransferred = UInt64.ofNat (streamLength segments)

/-- With `n` bytes counted, a segment that begins at a multiple of 128 KiB behind the settings has
24 bytes in its first pbuf. -/
def CutsWell (n : ℕ) : List (Segment × UInt32) → Prop
  | [] => True
  | segment :: rest =>
      (n % 131072 = 24 → 24 ≤ segment.1.p.payload.length) ∧
        CutsWell (n + segment.1.p.totLen) rest

instance (n : ℕ) : (segments : List (Segment × UInt32)) → Decidable (CutsWell n segments)
  | [] => inferInstanceAs (Decidable True)
  | segment :: rest =>
      have := instDecidableCutsWell (n + segment.1.p.totLen) rest
      inferInstanceAs (Decidable (_ ∧ _))

/-- The first segment is the settings, and the others are cut well. -/
def SettingsAlone : List (Segment × UInt32) → Prop
  | [] => False
  | first :: rest => first.1.p.totLen = 24 ∧ CutsWell 24 rest

/-! ## The counter -/

theorem atBoundary_iff (n : ℕ) :
    (UInt64.ofNat n - 24) % (1024 * 128) = 0 ↔ n % 131072 = 24 := by
  rw [← UInt64.toNat_inj, UInt64.toNat_mod, UInt64.toNat_sub, UInt64.toNat_ofNat']
  show (18446744073709551616 - 24 + n % 18446744073709551616) % 18446744073709551616 % 131072 = 0 ↔
    _
  omega

theorem not_le_settings {n : ℕ} (boundary : n % 131072 = 24) :
    ¬ UInt64.ofNat n + UInt64.ofNat settingsLen ≤ 24 := by
  rw [← UInt64.ofNat_add, UInt64.le_iff_toNat_le, UInt64.toNat_ofNat']
  show ¬ (n + 24) % 18446744073709551616 ≤ 24
  omega

theorem addBytes_addBytes (conn : IperfStateTcp) (m n : ℕ) :
    (conn.addBytes m).addBytes n = conn.addBytes (m + n) := by
  simp only [IperfStateTcp.addBytes, UInt64.ofNat_add, UInt64.add_assoc]

theorem copySettings_of_have {conn : IperfStateTcp} (settings : conn.haveSettingsBuf = true)
    (p : Pbuf) : conn.copySettings p = conn := by
  rw [IperfStateTcp.copySettings, if_pos settings]

theorem payload_length_le (p : Pbuf) : p.payload.length ≤ p.totLen := by
  rw [Pbuf.totLen, Pbuf.bytes, List.length_append]
  exact Nat.le_add_right _ _

/-- A header that the first pbuf holds leaves the chain that much shorter. -/
theorem totLen_removeHeader {p : Pbuf} {n : ℕ} (held : n ≤ p.payload.length) :
    ∃ rest, pbufRemoveHeader p n = some rest ∧ n + rest.totLen = p.totLen := by
  refine ⟨_, if_pos held, ?_⟩
  simp only [Pbuf.totLen, Pbuf.bytes, List.length_append, List.length_drop]
  omega

/-! ## Segments behind the settings -/

section

variable {s : TcpServer} {conn : IperfStateTcp} {n : ℕ}

theorem boundary_setPollCount (counted : conn.report.bytesTransferred = UInt64.ofNat n) :
    ((conn.setPollCount 0).report.bytesTransferred - 24) % (1024 * 128) = 0 ↔
      n % 131072 = 24 := by
  show (conn.report.bytesTransferred - 24) % (1024 * 128) = 0 ↔ _
  rw [counted]
  exact atBoundary_iff n

theorem bytesTransferred_addBytes (counted : conn.report.bytesTransferred = UInt64.ofNat n)
    (m : ℕ) :
    ((conn.setPollCount 0).addBytes m).report.bytesTransferred = UInt64.ofNat (n + m) := by
  rw [UInt64.ofNat_add, ← counted]
  rfl

/-- At a boundary the settings are looked for again. -/
theorem iperfTcpRecv_boundary (settings : conn.haveSettingsBuf = true)
    (counted : conn.report.bytesTransferred = UInt64.ofNat n) (boundary : n % 131072 = 24)
    (p : Pbuf) (now : UInt32) :
    iperfTcpRecv s conn (.data p) now =
      if p.totLen < settingsLen then
        iperfTcpClose s (conn.setPollCount 0) now .tcpAbortedLocalDataerror
      else
        (pbufRemoveHeader p settingsLen).elim
          ({ s with state := some ((conn.setPollCount 0).addBytes settingsLen), halted := true },
            none)
          fun p =>
            ({ s with
                state := some (((conn.setPollCount 0).addBytes settingsLen).addBytes p.totLen) },
              none) := by
  have haveSettings : (conn.setPollCount 0).haveSettingsBuf = true := settings
  have more : ¬ ((conn.setPollCount 0).addBytes settingsLen).report.bytesTransferred ≤ 24 := by
    show ¬ conn.report.bytesTransferred + UInt64.ofNat settingsLen ≤ 24
    rw [counted]
    exact not_le_settings boundary
  dsimp only [iperfTcpRecv]
  rw [if_pos (Or.inr ((boundary_setPollCount counted).mpr boundary)),
    copySettings_of_have haveSettings, if_neg more]
  cases pbufRemoveHeader p settingsLen <;> rfl

/-- A segment that is cut well is counted whole. -/
theorem iperfTcpRecv_data (settings : conn.haveSettingsBuf = true)
    (counted : conn.report.bytesTransferred = UInt64.ofNat n) {p : Pbuf}
    (well : n % 131072 = 24 → 24 ≤ p.payload.length) (now : UInt32) :
    iperfTcpRecv s conn (.data p) now =
      ({ s with state := some ((conn.setPollCount 0).addBytes p.totLen) }, none) := by
  by_cases boundary : n % 131072 = 24
  · rcases totLen_removeHeader (well boundary) with ⟨rest, removed, total⟩
    have long : ¬ p.totLen < settingsLen :=
      Nat.not_lt.mpr ((well boundary).trans (payload_length_le p))
    rw [iperfTcpRecv_boundary settings counted boundary, if_neg long, removed,
      Option.elim_some, ← total, ← addBytes_addBytes]
  · dsimp only [iperfTcpRecv]
    rw [if_neg]
    intro either
    rcases either with missing | atBoundary
    · exact Bool.false_ne_true (missing.symm.trans settings)
    · exact boundary ((boundary_setPollCount counted).mp atBoundary)

end

/-- The first segment is taken for the settings, whatever its length, or aborts the session. -/
theorem iperfTcpRecv_first {s : TcpServer} {conn : IperfStateTcp}
    (settings : conn.haveSettingsBuf = false) (counted : conn.report.bytesTransferred = 0)
    (p : Pbuf) (now : UInt32) :
    iperfTcpRecv s conn (.data p) now =
      if p.totLen < settingsLen then
        iperfTcpClose s (conn.setPollCount 0) now .tcpAbortedLocalDataerror
      else
        ({ s with
            state := some
              ((((conn.setPollCount 0).copySettings p).addBytes settingsLen).setTimeStarted now) },
          none) := by
  have missing : (conn.setPollCount 0).haveSettingsBuf = false := settings
  dsimp only [iperfTcpRecv]
  rw [if_pos (Or.inl missing)]
  by_cases short : p.totLen < settingsLen
  · rw [if_pos short, if_pos short]
  · rw [if_neg short, if_neg short, if_pos]
    rw [IperfStateTcp.copySettings, if_neg (by simp [missing])]
    show conn.report.bytesTransferred + UInt64.ofNat settingsLen ≤ 24
    rw [counted]
    decide

/-! ## Sessions -/

/-- The object serves a client. -/
structure Session (s : TcpServer) (conn : IperfStateTcp) (pcb : ℕ) : Prop extends
    Serving s conn where
  running : s.halted = false
  connPcb : conn.connPcb = some pcb

theorem Session.step_recv {s : TcpServer} {conn : IperfStateTcp} {pcb : ℕ}
    (session : Session s conn pcb) (received : Received) (now : UInt32) :
    tcpServer.step s (.recv received now) =
      ((iperfTcpRecv s conn received now).1, .ok, (iperfTcpRecv s conn received now).2) := by
  rw [step_running session.running]
  simp only [TcpServer.deliver, TcpServer.onConnection, session.registered, session.connPcb,
    session.state]

/-- The session goes on with another object state that has the same pcbs. -/
theorem Session.goesOn {s : TcpServer} {conn next : IperfStateTcp} {pcb : ℕ}
    (session : Session s conn pcb) (same : SamePcbs conn next) :
    Session { s with state := some next } next pcb where
  state := rfl
  listening := session.listening
  serverPcb := same.1.trans session.serverPcb
  registered := session.registered.trans same.2.symm
  running := session.running
  connPcb := same.2.trans session.connPcb

/-- The rest of a stream is lost on a server that takes no segment. -/
theorem reports_lost {s : TcpServer}
    (lost : ∀ received now, tcpServer.step s (.recv received now) = (s, .ok, none))
    (segments : List (Segment × UInt32)) (closed : UInt32) :
    reports (tcpServer.trace s (streamEvents segments closed)) = [] := by
  induction segments with
  | nil => simp [streamEvents, reports, lost]
  | cons segment segments ih =>
      rw [streamEvents, List.map_cons, List.cons_append, Machine.trace_cons, lost]
      exact ih

theorem step_recv_closed {s : TcpServer} (registered : s.registered = none)
    (received : Received) (now : UInt32) :
    tcpServer.step s (.recv received now) = (s, .ok, none) := by
  cases running : s.halted with
  | true => exact step_halted running _
  | false =>
      rw [step_running running]
      simp only [TcpServer.deliver, TcpServer.onConnection, registered]

/-! ## Streams -/

/-- The first of the segments arrives. -/
theorem trace_streamEvents_cons {s after : TcpServer} {conn : IperfStateTcp} {pcb : ℕ}
    {report : Option MmiperfReport} (session : Session s conn pcb) {segment : Segment × UInt32}
    (received : iperfTcpRecv s conn (.data segment.1.p) segment.2 = (after, report))
    (segments : List (Segment × UInt32)) (closed : UInt32) :
    tcpServer.trace s (streamEvents (segment :: segments) closed) =
      (.recv (.data segment.1.p) segment.2, .ok, report) ::
        tcpServer.trace after (streamEvents segments closed) := by
  rw [streamEvents, List.map_cons, List.cons_append, Machine.trace_cons, session.step_recv,
    received, streamEvents]

/-- A session that a segment aborts ends with a report of the abort. -/
theorem reports_aborted {s : TcpServer} {conn : IperfStateTcp} {pcb : ℕ}
    (session : Session s conn pcb) {segment : Segment × UInt32}
    (aborted : iperfTcpRecv s conn (.data segment.1.p) segment.2 =
      iperfTcpClose s (conn.setPollCount 0) segment.2 .tcpAbortedLocalDataerror)
    (segments : List (Segment × UInt32)) (closed : UInt32) :
    ∀ report ∈ reports (tcpServer.trace s (streamEvents (segment :: segments) closed)),
      report.reportType = .tcpAbortedLocalDataerror := by
  have serverPcb : (conn.setPollCount 0).serverPcb = true := session.serverPcb
  have connPcb : (conn.setPollCount 0).connPcb = some pcb := session.connPcb
  rw [iperfTcpClose_connected serverPcb connPcb] at aborted
  rw [trace_streamEvents_cons session aborted]
  intro report here
  rcases List.mem_cons.mp here with rfl | lost
  · exact finalizeReport_reportType _ _ _
  · rw [← reports, reports_lost (step_recv_closed rfl)] at lost
    cases lost

/-- A session whose reports tell of an abort has not ended well. -/
theorem not_done_of_aborted {trace : List (TcpEvent × TcpOutput)} {total : UInt64}
    (aborted : ∀ report ∈ reports trace, report.reportType = .tcpAbortedLocalDataerror) :
    ¬ ∃ report, reports trace = [report] ∧ report.reportType = .tcpDoneServer ∧
      report.bytesTransferred = total := by
  rintro ⟨report, single, done, -⟩
  have type := aborted report (single ▸ List.mem_singleton_self report)
  rw [done] at type
  cases type

/-- A stream that is cut well behind the settings is counted whole. -/
theorem reports_counted {s : TcpServer} {conn : IperfStateTcp} {pcb n : ℕ}
    (session : Session s conn pcb) (settings : conn.haveSettingsBuf = true)
    (counted : conn.report.bytesTransferred = UInt64.ofNat n)
    {segments : List (Segment × UInt32)} (well : CutsWell n segments) (closed : UInt32) :
    ∃ report, reports (tcpServer.trace s (streamEvents segments closed)) = [report] ∧
      report.reportType = .tcpDoneServer ∧
      report.bytesTransferred = UInt64.ofNat (n + streamLength segments) := by
  induction segments generalizing s conn n with
  | nil =>
      have ended : iperfTcpRecv s conn .endOfStream closed =
          iperfTcpClose s conn closed .tcpDoneServer := rfl
      rw [iperfTcpClose_connected session.serverPcb session.connPcb] at ended
      rw [streamEvents, List.map_nil, List.nil_append, Machine.trace_cons, session.step_recv,
        ended]
      refine ⟨_, rfl, finalizeReport_reportType _ _ _, ?_⟩
      exact (finalizeReport_bytesTransferred _ _ _).trans counted
  | cons segment segments ih =>
      have received := iperfTcpRecv_data (s := s) settings counted well.1 segment.2
      have more := bytesTransferred_addBytes counted segment.1.p.totLen
      rw [trace_streamEvents_cons session received, streamLength, ← Nat.add_assoc]
      exact ih (session.goesOn ⟨rfl, rfl⟩) settings more well.2

/-- A stream that is cut badly behind the settings does not end well. -/
theorem reports_cut {s : TcpServer} {conn : IperfStateTcp} {pcb n : ℕ}
    (session : Session s conn pcb) (settings : conn.haveSettingsBuf = true)
    (counted : conn.report.bytesTransferred = UInt64.ofNat n)
    {segments : List (Segment × UInt32)} (cut : ¬ CutsWell n segments) (closed : UInt32) :
    ∀ report ∈ reports (tcpServer.trace s (streamEvents segments closed)),
      report.reportType = .tcpAbortedLocalDataerror := by
  induction segments generalizing s conn n with
  | nil => exact (cut trivial).elim
  | cons segment segments ih =>
      by_cases well : n % 131072 = 24 → 24 ≤ segment.1.p.payload.length
      · have received := iperfTcpRecv_data (s := s) settings counted well segment.2
        have more := bytesTransferred_addBytes counted segment.1.p.totLen
        rw [trace_streamEvents_cons session received]
        exact ih (session.goesOn ⟨rfl, rfl⟩) settings more fun rest => cut ⟨well, rest⟩
      · obtain ⟨boundary, notHeld⟩ := Classical.not_imp.mp well
        have received :=
          iperfTcpRecv_boundary (s := s) settings counted boundary segment.1.p segment.2
        by_cases short : segment.1.p.totLen < settingsLen
        · rw [if_pos short] at received
          exact reports_aborted session received segments closed
        · rw [if_neg short, show pbufRemoveHeader segment.1.p settingsLen = none from
            if_neg notHeld, Option.elim_none] at received
          have lost := reports_lost (s := { s with
            state := some ((conn.setPollCount 0).addBytes settingsLen), halted := true })
            (fun _ _ => step_halted rfl _) segments closed
          rw [trace_streamEvents_cons session received]
          intro report here
          exact absurd (lost ▸ here) List.not_mem_nil

/-- The first segment is taken for 24 bytes. -/
theorem session_first {s : TcpServer} {conn : IperfStateTcp}
    (settings : conn.haveSettingsBuf = false)
    (counted : conn.report.bytesTransferred = 0) {p : Pbuf} (long : ¬ p.totLen < settingsLen)
    (now : UInt32) :
    ∃ next, iperfTcpRecv s conn (.data p) now = ({ s with state := some next }, none) ∧
      SamePcbs conn next ∧ next.haveSettingsBuf = true ∧
      next.report.bytesTransferred = UInt64.ofNat 24 := by
  have copied : (conn.setPollCount 0).copySettings p =
      { conn.setPollCount 0 with
        settings := conn.settings.overwrite (p.bytes.take settingsLen)
        haveSettingsBuf := true } :=
    if_neg (by simp [IperfStateTcp.setPollCount, settings])
  have received := iperfTcpRecv_first (s := s) settings counted p now
  rw [if_neg long, copied] at received
  refine ⟨_, received, ⟨rfl, rfl⟩, rfl, ?_⟩
  show conn.report.bytesTransferred + UInt64.ofNat settingsLen = _
  rw [counted]
  rfl

/-- The session of a client that finds the server idle. -/
theorem session_accept {s : TcpServer} {conn : IperfStateTcp} (serving : Serving s conn)
    (running : s.halted = false) (idle : conn.connPcb = none) (pcb : ℕ) :
    ∃ after next, tcpServer.step s (.accept true (some pcb)) = (after, .ok, none) ∧
      Session after next pcb ∧ next.haveSettingsBuf = false ∧
      next.report.bytesTransferred = 0 := by
  rw [step_running running]
  simp only [TcpServer.deliver, serving.listening, serving.state, iperfTcpAccept, idle, ne_eq,
    not_true_eq_false, if_false]
  exact ⟨_, _, rfl,
    { state := rfl
      listening := rfl
      serverPcb := serving.serverPcb
      registered := rfl
      running := running
      connPcb := rfl }, rfl, rfl⟩

/-- A first segment that is longer than the settings is not counted whole. -/
theorem ofNat_first_ne {first rest : ℕ} (lt : first < 65536) (ne : first ≠ 24) :
    UInt64.ofNat (24 + rest) ≠ UInt64.ofNat (first + rest) := by
  intro equal
  have equal := congrArg UInt64.toNat equal
  rw [UInt64.toNat_ofNat', UInt64.toNat_ofNat'] at equal
  change (24 + rest) % 18446744073709551616 = (first + rest) % 18446744073709551616 at equal
  omega

/-- **When a session counts the stream of its client**: the first segment is the settings alone, and
a later one that begins at a multiple of 128 KiB behind them has 24 bytes in its first pbuf. -/
theorem countsStream_iff {s : TcpServer} {conn : IperfStateTcp} (serving : Serving s conn)
    (running : s.halted = false) (idle : conn.connPcb = none) (pcb : ℕ)
    {segments : List (Segment × UInt32)} (long : 24 ≤ streamLength segments) (closed : UInt32) :
    CountsStream s pcb segments closed ↔ SettingsAlone segments := by
  rcases session_accept serving running idle pcb with
    ⟨after, conn, accepted, session, settings, counted⟩
  cases segments with
  | nil => exact absurd long (by decide)
  | cons first rest =>
      have begun : reports (tcpServer.trace s (clientEvents pcb (first :: rest) closed)) =
          reports (tcpServer.trace after (streamEvents (first :: rest) closed)) := by
        rw [clientEvents, Machine.trace_cons, accepted]
        rfl
      rw [CountsStream, begun, streamLength]
      by_cases short : first.1.p.totLen < settingsLen
      · have received := iperfTcpRecv_first (s := after) settings counted first.1.p first.2
        rw [if_pos short] at received
        refine iff_of_false (not_done_of_aborted (reports_aborted session received rest closed)) ?_
        exact fun alone => absurd alone.1 (Nat.ne_of_lt short)
      · rcases session_first (s := after) settings counted short first.2 with
          ⟨next, received, same, haveSettings, counted⟩
        rw [trace_streamEvents_cons session received]
        by_cases well : CutsWell 24 rest
        · rcases reports_counted (session.goesOn same) haveSettings counted well closed with
            ⟨last, single, done, total⟩
          constructor
          · rintro ⟨report, same, -, stream⟩
            rw [← List.singleton_inj.mp (single.symm.trans same), total] at stream
            by_contra notAlone
            refine ofNat_first_ne first.1.totLen_lt (fun settings => ?_) stream
            exact notAlone ⟨settings, well⟩
          · rintro ⟨settings, -⟩
            rw [settings]
            exact ⟨last, single, done, total⟩
        · have cut := reports_cut (session.goesOn same) haveSettings counted well closed
          refine iff_of_false (not_done_of_aborted cut) ?_
          exact fun alone => absurd alone.2 well

/-- A segment of zeros. -/
def Segment.zeros (n : ℕ) (pos : 0 < n) (lt : n < 65536) : Segment where
  p := ⟨List.replicate n 0, []⟩
  nonempty := by
    rw [Pbuf.bytes, List.flatten_nil, List.append_nil, ne_eq, List.replicate_eq_nil_iff]
    exact Nat.ne_of_gt pos
  totLen_lt := by
    rw [Pbuf.totLen, Pbuf.bytes, List.flatten_nil, List.append_nil, List.length_replicate]
    exact lt

/-- Settings and data in two segments are counted. -/
theorem countsStream_iff_settingsApart :
    CountsStream startTcpServer 1
      [(.zeros 24 (by decide) (by decide), 0), (.zeros 24 (by decide) (by decide), 5)] 9 :=
  (countsStream_iff ⟨rfl, rfl, rfl, rfl⟩ rfl rfl 1 (by decide) 9).mpr (by
    unfold SettingsAlone
    decide)

/-- **The same stream in one segment is counted as 24 bytes**: the data behind the settings is lost
to the report. -/
theorem not_countsStream_whole :
    ¬ CountsStream startTcpServer 1 [(.zeros 48 (by decide) (by decide), 5)] 9 := by
  rintro ⟨report, single, -, total⟩
  have counted : (reports (tcpServer.trace startTcpServer
      (clientEvents 1 [(.zeros 48 (by decide) (by decide), 5)] 9))).map
        (·.bytesTransferred) = [24] := by decide
  rw [single, List.map_singleton, List.singleton_inj, total] at counted
  exact absurd counted (by decide)

end HalowBridge.Iperf
