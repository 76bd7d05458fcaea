import HalowBridge.Iperf.UdpServer

/-!
# The two UDP servers agree

The two servers do the same for the user and for the clients, except where the FreeRTOS+TCP one goes
its own way:

* its task has no way out of a refused datagram before the code for final datagrams, which then uses
  the session that the lookup did not find;
* it takes a local address for a multicast one by its last byte (`isMulticastIpAddr_v4`), and then
  sends no report;
* its zeroed session has no client, while that of lwIP has the client 0.0.0.0 with port 0.

`serversAgree` is the simulation of one server by the other in the runs that do none of this.
-/

namespace HalowBridge.Iperf

open Freertosplustcp (FreertosSockaddr)

/-- An address of one host, or the address that stands for all of the host's own. -/
def IpAddr.Unicast : IpAddr → Prop
  | .v4 a _ _ _ => a < 224
  | .v6 bytes => leadingByte bytes ≠ 0xff

instance : (addr : IpAddr) → Decidable addr.Unicast
  | .v4 _ _ _ _ => inferInstanceAs (Decidable (_ < _))
  | .v6 _ => inferInstanceAs (Decidable (_ ≠ _))

/-- The session of another client is active. -/
def Refused {κ : Type} (s : UdpServer κ) (client : κ) (now : UInt32) : Prop :=
  s.client ≠ client ∧ s.nextPacketId ≥ 0 ∧ s.hasTimedOut now = false

instance {κ : Type} [DecidableEq κ] (s : UdpServer κ) (client : κ) (now : UInt32) :
    Decidable (Refused s client now) :=
  inferInstanceAs (Decidable (_ ∧ _))

/-- The lwIP server after some datagrams. -/
def lwipAfter (args : UdpServerArgs) (datagrams : List Datagram) : UdpServer Client :=
  (Lwip.server args).exec (startUdpServer Lwip.zeroClient) datagrams

/-- The FreeRTOS+TCP server after some datagrams. -/
def freertosAfter (args : UdpServerArgs) (datagrams : List Datagram) :
    Option (UdpServer FreertosSockaddr) :=
  (Freertosplustcp.server args).exec (some (startUdpServer none)) datagrams

/-- A refused datagram does nothing in either server. -/
def RefusedIsInert (args : UdpServerArgs) (before : List Datagram) (d : Datagram) : Prop :=
  (Refused (lwipAfter args before) d.client d.now →
    (Lwip.server args).step (lwipAfter args before) d = (lwipAfter args before, silent)) ∧
  ∀ s, freertosAfter args before = some s → Refused s (some d.client) d.now →
    (Freertosplustcp.server args).step (some s) d = (some s, silent)

/-- Both servers do the same at every datagram, the session is there whenever it is used, and a
refused datagram does nothing. -/
structure ServersAgree (args : UdpServerArgs) (datagrams : List Datagram) : Prop where
  same : (Lwip.server args).trace (startUdpServer Lwip.zeroClient) datagrams =
    (Freertosplustcp.server args).trace (some (startUdpServer none)) datagrams
  noFault : freertosAfter args datagrams ≠ none
  inert : ∀ before d, before ++ [d] <+: datagrams → RefusedIsInert args before d

/-- The datagram is not the final one of a refused client, and not one of the zero client that comes
before the first session of a server started less than a minute ago. -/
def Unexceptional (version : IperfVersion) :
    Option (UdpServer FreertosSockaddr) → Datagram → Prop
  | some s, d => d.Complete →
      (Refused s (some d.client) d.now → d.finalPacket version = false) ∧
        (s.client = none → d.client = Lwip.zeroClient → s.hasTimedOut d.now = true)
  | none, _ => True

instance (version : IperfVersion) : (s : Option (UdpServer FreertosSockaddr)) →
    (d : Datagram) → Decidable (Unexceptional version s d)
  | some s, _ => inferInstanceAs (Decidable (_ → (_ → _) ∧ (s.client = none → _ → _)))
  | none, _ => inferInstanceAs (Decidable True)

/-! ## The client apart -/

section

variable {κ μ : Type}

/-- The same state with another memory of the client. -/
def UdpServer.withClient (s : UdpServer κ) (client : μ) : UdpServer μ where
  report := s.report
  timeStartedMs := s.timeStartedMs
  lastRxTimeMs := s.lastRxTimeMs
  nextPacketId := s.nextPacketId
  ipgStart := s.ipgStart
  client := client

namespace UdpServer

@[simp] theorem client_withClient (s : UdpServer κ) (client : μ) :
    (s.withClient client).client = client := rfl

@[simp] theorem nextPacketId_withClient (s : UdpServer κ) (client : μ) :
    (s.withClient client).nextPacketId = s.nextPacketId := rfl

@[simp] theorem hasTimedOut_withClient (s : UdpServer κ) (client : μ) (now : UInt32) :
    (s.withClient client).hasTimedOut now = s.hasTimedOut now := rfl

@[simp] theorem answer_withClient (s : UdpServer κ) (client : μ) (d : Datagram) :
    (s.withClient client).answer d = s.answer d := rfl

@[simp] theorem update_withClient (s : UdpServer κ) (client : μ) (d : Datagram)
    (packetId : Int64) :
    (s.withClient client).update d packetId = (s.update d packetId).withClient client := by
  unfold update
  rw [nextPacketId_withClient]
  split <;> rfl

@[simp] theorem finish_withClient (s : UdpServer κ) (client : μ) :
    (s.withClient client).finish = (s.finish.1.withClient client, s.finish.2) := by
  unfold finish
  rw [nextPacketId_withClient]
  split <;> rfl

theorem client_update (s : UdpServer κ) (d : Datagram) (packetId : Int64) :
    (s.update d packetId).client = s.client := by
  unfold update
  split <;> rfl

theorem client_finish (s : UdpServer κ) : s.finish.1.client = s.client := by
  unfold finish
  split <;> rfl

end UdpServer

end

/-! ## The lookups -/

theorem getSession_eq_none_iff {s : UdpServer Client} {client : Client} {now : UInt32} :
    Lwip.getSession s client now = none ↔ Refused s client now := by
  unfold Lwip.getSession Lwip.udpServerStartSession Refused
  split_ifs with same active
  · simp [same.1]
  · simp only [true_iff]
    exact ⟨fun equal => same ⟨equal, active.2⟩, active⟩
  · simp only [false_iff]
    exact fun refused => active refused.2

theorem client_getSession {s session : UdpServer Client} {client : Client} {now : UInt32}
    (found : Lwip.getSession s client now = some session) : session.client = client := by
  unfold Lwip.getSession Lwip.udpServerStartSession at found
  split_ifs at found with same active
  · rw [← Option.some.inj found]
    exact same.1
  · rw [← Option.some.inj found]
    rfl

theorem Freertosplustcp.getSession_of_refused {s : UdpServer FreertosSockaddr} {client : Client}
    {now : UInt32} (refused : Refused s (some client) now) : getSession s client now = none := by
  obtain ⟨other, active, fresh⟩ := refused
  rw [getSession, if_neg fun found => other found.1.symm, startSession, getFreeSessionSlot, if_neg,
    Option.map_none]
  rintro (ended | timedOut)
  · exact Int32.not_le.mpr ended active
  · rw [fresh] at timedOut
    cases timedOut

/-- What the FreeRTOS+TCP server remembers of the client of the lwIP server. -/
def Remembers (remembered : FreertosSockaddr) (client : Client) : Prop :=
  remembered = some client ∨ remembered = none ∧ client = Lwip.zeroClient

section

variable {s : UdpServer Client} {remembered : FreertosSockaddr} {client : Client} {now : UInt32}

/-- Both servers recognise the client of the session. -/
theorem recognises_iff (remembers : Remembers remembered s.client)
    (known : remembered = none → client = Lwip.zeroClient → s.hasTimedOut now = true) :
    (some client = remembered ∧ s.hasTimedOut now = false) ↔
      (s.client = client ∧ s.hasTimedOut now = false) := by
  rcases remembers with rfl | ⟨rfl, zero⟩
  · rw [Option.some.injEq, eq_comm]
  · constructor
    · rintro ⟨never, -⟩
      cases never
    · rintro ⟨same, fresh⟩
      rw [known rfl (same.symm.trans zero)] at fresh
      cases fresh

/-- A session that one server starts, the other starts too. -/
theorem startSession_withClient :
    Freertosplustcp.startSession (s.withClient remembered) client now =
      (Lwip.udpServerStartSession s client now).map (·.withClient (some client)) := by
  unfold Freertosplustcp.startSession Freertosplustcp.getFreeSessionSlot
    Lwip.udpServerStartSession
  rw [UdpServer.nextPacketId_withClient, UdpServer.hasTimedOut_withClient]
  by_cases active : s.nextPacketId ≥ 0 ∧ s.hasTimedOut now = false
  · have taken : ¬ (s.nextPacketId < 0 ∨ s.hasTimedOut now = true) := by
      rintro (ended | timedOut)
      · exact Int32.not_le.mpr ended active.1
      · rw [active.2] at timedOut
        cases timedOut
    rw [if_pos active, if_neg taken]
    rfl
  · have free : s.nextPacketId < 0 ∨ s.hasTimedOut now = true := by
      rcases Classical.not_and_iff_not_or_not.mp active with ended | timedOut
      · exact Or.inl (Int32.not_le.mp ended)
      · exact Or.inr ((Bool.not_eq_false _).mp timedOut)
    rw [if_neg active, if_pos free]
    rfl

theorem getSession_withClient (remembers : Remembers remembered s.client)
    (known : remembered = none → client = Lwip.zeroClient → s.hasTimedOut now = true) :
    Freertosplustcp.getSession (s.withClient remembered) client now =
      (Lwip.getSession s client now).map (·.withClient (some client)) := by
  have recognises := recognises_iff remembers known
  unfold Freertosplustcp.getSession Lwip.getSession
  rw [UdpServer.client_withClient, UdpServer.hasTimedOut_withClient]
  by_cases same : s.client = client ∧ s.hasTimedOut now = false
  · rw [if_pos (recognises.mpr same), if_pos same, ← (recognises.mpr same).1]
    rfl
  · rw [if_neg fun found => same (recognises.mp found), if_neg same]
    exact startSession_withClient

end

/-! ## The multicast tests -/

theorem not_ipAddrIsMulticast {addr : IpAddr} (unicast : addr.Unicast) :
    Lwip.ipAddrIsMulticast addr = false := by
  cases addr with
  | v4 a b c d =>
      rw [Lwip.ipAddrIsMulticast, beq_eq_false_iff_ne]
      intro high
      have le : (a &&& 0xf0).toNat ≤ a.toNat := by
        rw [UInt8.toNat_and]
        exact Nat.and_le_left
      rw [high] at le
      exact UInt8.not_lt.mpr le unicast
  | v6 bytes => exact beq_eq_false_iff_ne.mpr unicast

theorem shiftRight_low {word : UInt32} (low : word.toNat < 268435456) : word >>> 28 = 0 := by
  rw [← UInt32.toNat_inj, UInt32.toNat_shiftRight, Nat.shiftRight_eq_div_pow]
  exact Nat.div_eq_of_lt low

/-- The top bits of the word are those of the last byte. -/
theorem ulIPIPv4_shiftRight (a b c d : UInt8) :
    Freertosplustcp.ulIPIPv4 a b c d >>> 28 = d.toUInt32 <<< 24 >>> 28 := by
  have first : a.toUInt32 >>> 28 = 0 := by
    apply shiftRight_low
    have := a.toNat_lt
    rw [UInt8.toNat_toUInt32]
    omega
  have second : b.toUInt32 <<< 8 >>> 28 = 0 := by
    apply shiftRight_low
    have := b.toNat_lt
    rw [toNat_byte_shiftLeft b (by decide), Nat.shiftLeft_eq]
    show b.toNat * 256 < _
    omega
  have third : c.toUInt32 <<< 16 >>> 28 = 0 := by
    apply shiftRight_low
    have := c.toNat_lt
    rw [toNat_byte_shiftLeft c (by decide), Nat.shiftLeft_eq]
    show c.toNat * 65536 < _
    omega
  rw [Freertosplustcp.ulIPIPv4, UInt32.shiftRight_or, UInt32.shiftRight_or, UInt32.shiftRight_or,
    first, second, third, UInt32.or_zero, UInt32.or_zero, UInt32.or_zero]

/-- The last byte of an IPv4 address decides, where the first should. -/
theorem isMulticastIpAddr_v4 (a b c d : UInt8) :
    Freertosplustcp.isMulticastIpAddr (.v4 a b c d) = true ↔ (224 ≤ d ∧ d < 240) ∨ a = 0xff := by
  have last : d.toUInt32 <<< 24 >>> 28 = 14 ↔ 224 ≤ d ∧ d < 240 := by
    rw [← UInt32.toNat_inj, UInt32.toNat_shiftRight, Nat.shiftRight_eq_div_pow,
      toNat_byte_shiftLeft d (by decide), Nat.shiftLeft_eq, UInt8.le_iff_toNat_le,
      UInt8.lt_iff_toNat_lt]
    show d.toNat * 16777216 / 268435456 = 14 ↔ 224 ≤ d.toNat ∧ d.toNat < 240
    omega
  rw [Freertosplustcp.isMulticastIpAddr, Bool.or_eq_true, beq_iff_eq, beq_iff_eq,
    ulIPIPv4_shiftRight, last]

/-! ## The simulation -/

/-- A datagram that fits the buffer is received as it is. -/
theorem recvfrom_of_length_le {d : Datagram}
    (short : d.payload.length ≤ Freertosplustcp.udpRecvLen) : Freertosplustcp.recvfrom d = d := by
  obtain ⟨client, payload, now, length_le⟩ := d
  simp only [Freertosplustcp.recvfrom, List.take_of_length_le short]

/-- The FreeRTOS+TCP server is in the state of the lwIP server. -/
def Follows (t : Option (UdpServer FreertosSockaddr)) (s : UdpServer Client) : Prop :=
  ∃ remembered, t = some (s.withClient remembered) ∧ Remembers remembered s.client

section

variable {args : UdpServerArgs}

/-- A datagram of the session. -/
theorem recv_session (unicast : args.localAddr.Unicast)
    (recognised : Freertosplustcp.isMulticastIpAddr args.localAddr = false)
    {s : UdpServer Client} {t : UdpServer FreertosSockaddr} {session : UdpServer Client}
    {d : Datagram} (complete : d.Complete)
    (found : Lwip.getSession s d.client d.now = some session)
    (alike : Freertosplustcp.getSession t d.client d.now =
      some (session.withClient (some d.client))) :
    Follows (Freertosplustcp.iperfUdpRecvTask args t d).1 (Lwip.iperfUdpServerRecv args s d).1 ∧
      (Freertosplustcp.iperfUdpRecvTask args t d).2 = (Lwip.iperfUdpServerRecv args s d).2 := by
  have ours := client_getSession found
  simp only [Freertosplustcp.iperfUdpRecvTask, Lwip.iperfUdpServerRecv, if_pos complete, found,
    alike, UdpServer.update_withClient]
  cases d.finalPacket args.version with
  | false =>
      simp only [Bool.false_eq_true, if_false]
      refine ⟨⟨some d.client, rfl, Or.inl ?_⟩, trivial⟩
      rw [UdpServer.client_update, ours]
  | true =>
      simp only [if_true, UdpServer.finish_withClient]
      refine ⟨⟨some d.client, rfl, Or.inl ?_⟩, ?_⟩
      · rw [UdpServer.client_finish, UdpServer.client_update, ours]
      · simp [Freertosplustcp.sendReport, Lwip.iperfUdpServerHandleFinalPacket, recognised,
          not_ipAddrIsMulticast unicast]

/-- A step of both servers. -/
theorem follows_step (unicast : args.localAddr.Unicast)
    (recognised : Freertosplustcp.isMulticastIpAddr args.localAddr = false)
    {t : Option (UdpServer FreertosSockaddr)} {s : UdpServer Client} {d : Datagram}
    (follows : Follows t s) (short : d.payload.length ≤ Freertosplustcp.udpRecvLen)
    (unexceptional : Unexceptional args.version t d) :
    Follows ((Freertosplustcp.server args).step t d).1 ((Lwip.server args).step s d).1 ∧
      ((Freertosplustcp.server args).step t d).2 = ((Lwip.server args).step s d).2 := by
  obtain ⟨remembered, rfl, remembers⟩ := follows
  show Follows (Freertosplustcp.iperfUdpRecvTask args (s.withClient remembered)
      (Freertosplustcp.recvfrom d)).1 (Lwip.iperfUdpServerRecv args s d).1 ∧
    (Freertosplustcp.iperfUdpRecvTask args (s.withClient remembered)
      (Freertosplustcp.recvfrom d)).2 = (Lwip.iperfUdpServerRecv args s d).2
  rw [recvfrom_of_length_le short]
  by_cases complete : d.Complete
  · obtain ⟨notFinal, known⟩ := unexceptional complete
    have alike := getSession_withClient remembers known
    cases found : Lwip.getSession s d.client d.now with
    | some session =>
        rw [found] at alike
        exact recv_session unicast recognised complete found alike
    | none =>
        rw [found] at alike
        obtain ⟨other, active⟩ := getSession_eq_none_iff.mp found
        have refused : Refused (s.withClient remembered) (some d.client) d.now := by
          refine ⟨fun same => other ?_, active⟩
          rcases remembers with rfl | ⟨rfl, -⟩
          · exact Option.some.inj same
          · cases same
        simp only [Freertosplustcp.iperfUdpRecvTask, Lwip.iperfUdpServerRecv, if_pos complete,
          found, alike, Option.map_none, notFinal refused]
        exact ⟨⟨remembered, rfl, remembers⟩, rfl⟩
  · rw [Freertosplustcp.iperfUdpRecvTask, Lwip.iperfUdpServerRecv, if_neg complete, if_neg complete]
    exact ⟨⟨remembered, rfl, remembers⟩, rfl⟩

/-- A refused datagram that is not final does nothing in either server. -/
theorem refusedIsInert {before : List Datagram} {d : Datagram}
    (short : d.payload.length ≤ Freertosplustcp.udpRecvLen)
    (unexceptional : Unexceptional args.version (freertosAfter args before) d) :
    RefusedIsInert args before d := by
  constructor
  · intro refused
    show Lwip.iperfUdpServerRecv args _ d = _
    rw [Lwip.iperfUdpServerRecv, getSession_eq_none_iff.mpr refused, ite_self]
  · intro s after refused
    show Freertosplustcp.iperfUdpRecvTask args s (Freertosplustcp.recvfrom d) = _
    rw [after] at unexceptional
    rw [recvfrom_of_length_le short, Freertosplustcp.iperfUdpRecvTask,
      Freertosplustcp.getSession_of_refused refused]
    by_cases complete : d.Complete
    · rw [if_pos complete, if_neg]
      rw [(unexceptional complete).1 refused]
      exact Bool.false_ne_true
    · rw [if_neg complete]

/-- **When the two servers agree**: on every sequence of datagrams that fit the buffer, none of
which is the final one of a refused client or comes from the zero client before the first session,
with a local address that the multicast test of the FreeRTOS+TCP server takes for what it is. -/
theorem serversAgree (unicast : args.localAddr.Unicast)
    (recognised : Freertosplustcp.isMulticastIpAddr args.localAddr = false)
    {datagrams : List Datagram}
    (short : ∀ d ∈ datagrams, d.payload.length ≤ Freertosplustcp.udpRecvLen)
    (unexceptional : (Freertosplustcp.server args).Guarded (fun _ => Unexceptional args.version)
      (some (startUdpServer none)) datagrams) : ServersAgree args datagrams := by
  have init : Follows (some (startUdpServer none)) (startUdpServer Lwip.zeroClient) :=
    ⟨none, rfl, Or.inr ⟨rfl, rfl⟩⟩
  have fits {before : List Datagram} {d : Datagram} (here : before ++ [d] <+: datagrams) :
      d.payload.length ≤ Freertosplustcp.udpRecvLen :=
    short d (here.subset (List.mem_append_right _ List.mem_cons_self))
  have guarded : (Freertosplustcp.server args).Guarded
      (fun _ s d => d.payload.length ≤ Freertosplustcp.udpRecvLen ∧ Unexceptional args.version s d)
      (some (startUdpServer none)) datagrams :=
    fun before d here => ⟨fits here, unexceptional before d here⟩
  rcases (Freertosplustcp.server args).trace_simulation (Lwip.server args) init
    (fun _ _ _ _ follows meets => follows_step unicast recognised follows meets.1 meets.2) guarded
    with ⟨same, follows⟩
  obtain ⟨remembered, running, -⟩ := follows
  refine ⟨same.symm, ?_, ?_⟩
  case refine_2 =>
    exact fun before d here => refusedIsInert (fits here) (unexceptional before d here)
  rw [freertosAfter, running]
  exact Option.some_ne_none _

end

/-- A session of one client, in which another is refused, and the repeated final datagram. -/
theorem serversAgree_refusedAndRepeated :
    ServersAgree ⟨.v4 192 168 1 1, .v2_0_13⟩
      [numbered (.v4 192 168 1 7) 0 0 10, numbered (.v4 192 168 1 8) 0 0 11,
        numbered (.v4 192 168 1 7) 0xffffffff 0xffffffff 12,
        numbered (.v4 192 168 1 7) 0xffffffff 0xffffffff 13] :=
  serversAgree (by decide) (by decide) (by decide) (by decide +kernel)

/-- **The final datagram of a refused client stops the FreeRTOS+TCP server.** -/
theorem not_serversAgree_refusedFinal :
    (IpAddr.v4 192 168 1 1).Unicast ∧
      ¬ ServersAgree ⟨.v4 192 168 1 1, .v2_0_13⟩
        [numbered (.v4 192 168 1 7) 0 0 10,
          numbered (.v4 192 168 1 8) 0xffffffff 0xffffffff 11] := by
  refine ⟨by decide, fun agree => agree.noFault ?_⟩
  rw [← Option.isNone_iff_eq_none]
  decide +kernel

end HalowBridge.Iperf
