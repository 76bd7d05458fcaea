import HalowBridge.Lib.Machine
import HalowBridge.Iperf.Report

/-!
# The two iperf UDP servers

A UDP server has one session. A datagram belongs to it, or starts it anew when none is active, or is
refused. A datagram with a negative number is the last of its client: the server ends the session,
hands the report to the user and sends it to the client, and repeats the answer for repeated final
datagrams.

There are two servers. `Lwip.iperfUdpServerRecv` is a callback of lwIP, and
`Freertosplustcp.iperfUdpRecvTask` is a turn of that task, from one return of `FreeRTOS_recvfrom` to
the next call. The counters are updated by the same lines in both, which stand here once, over the
type `κ` in which a server remembers its client. What differs is how the session is looked up, when
it is used and which local address counts as multicast.

A datagram has one time, at which it is handled. Sends and allocations succeed.
-/

namespace HalowBridge.Iperf

inductive IperfVersion where
  | v2_0_13
  | v2_0_9
  deriving DecidableEq

/-- An address, byte by byte as it is sent. -/
inductive IpAddr where
  | v4 (a b c d : UInt8)
  | v6 (bytes : Vector UInt8 16)
  deriving DecidableEq

/-- The first byte of an IPv6 address, 255 for multicast. -/
def leadingByte (bytes : Vector UInt8 16) : UInt8 := bytes[0]

/-- The address and the port of a sender. -/
structure Client where
  addr : IpAddr
  port : UInt16
  deriving DecidableEq

/-- A datagram as the network hands it over. The length of a pbuf chain has 16 bits. -/
structure Datagram where
  client : Client
  payload : List UInt8
  now : UInt32
  length_le : payload.length ≤ 65535
  deriving DecidableEq

/-- The arguments of `mmiperf_start_udp_server` that the servers read later. -/
structure UdpServerArgs where
  localAddr : IpAddr
  version : IperfVersion

/-- `struct timeval`. The servers use differences of times only, in 32 bits. -/
structure Timeval where
  tvSec : UInt32
  tvUsec : UInt32
  deriving DecidableEq

def timeDelta (a b : Timeval) : UInt32 :=
  (a.tvSec - b.tvSec) * 1000000 + (a.tvUsec - b.tvUsec)

def udpHeaderLen : ℕ := 16

def iperfSettingsLen : ℕ := 24

def iperfUdpServerSessionTimeoutMs : UInt32 := 60000

/-! ## The header of a datagram -/

/-- The header and the settings are there. -/
def Datagram.Complete (d : Datagram) : Prop := udpHeaderLen + iperfSettingsLen ≤ d.payload.length

instance (d : Datagram) : Decidable d.Complete :=
  inferInstanceAs (Decidable (_ ≤ _))

def Datagram.packetTime (d : Datagram) : Timeval := ⟨ntohl d.payload 4, ntohl d.payload 8⟩

/-- The number in the header. -/
def Datagram.signedId (d : Datagram) : IperfVersion → Int64
  | .v2_0_9 => (ntohl d.payload 0).toInt32.toInt64
  | .v2_0_13 =>
      ((ntohl d.payload 12).toUInt64 <<< 32 ||| (ntohl d.payload 0).toUInt64).toInt64

/-- `final_packet` -/
def Datagram.finalPacket (d : Datagram) (version : IperfVersion) : Bool := d.signedId version < 0

/-- `packet_id` -/
def Datagram.packetId (d : Datagram) (version : IperfVersion) : Int64 :=
  if d.finalPacket version then -d.signedId version else d.signedId version

/-- A datagram with a number and nothing else. -/
def numbered (addr : IpAddr) (idHi idLo : UInt32) (now : UInt32) : Datagram where
  client := ⟨addr, 5001⟩
  payload := htobe32 idLo ++ List.replicate 8 0 ++ htobe32 idHi ++ List.replicate 24 0
  now := now
  length_le := by simp [htobe32]

/-! ## The session -/

/-- The server state and its session, with the client as a `κ`. -/
structure UdpServer (κ : Type) where
  report : MmiperfReport
  timeStartedMs : UInt32
  lastRxTimeMs : UInt32
  nextPacketId : Int32
  ipgStart : Timeval
  client : κ

/-- After `mmiperf_start_udp_server`, with the client the zeroed session has. -/
def startUdpServer {κ : Type} (client : κ) : UdpServer κ where
  report := interrimReport
  timeStartedMs := 0
  lastRxTimeMs := 0
  nextPacketId := -1
  ipgStart := ⟨0, 0⟩
  client := client

/-- What a server does at a datagram, for the user and for the network. -/
structure UdpOutput where
  callback : Option MmiperfReport
  reply : Option (Client × List UInt8)
  deriving DecidableEq

def silent : UdpOutput := ⟨none, none⟩

namespace UdpServer

variable {κ : Type}

/-- `udp_server_session_has_timed_out`, `session_has_timed_out` -/
def hasTimedOut (s : UdpServer κ) (now : UInt32) : Bool :=
  mmosalTimeLe (s.lastRxTimeMs + iperfUdpServerSessionTimeoutMs) now

/-- The session and the report begin anew. -/
def restart (s : UdpServer κ) (client : κ) (now : UInt32) : UdpServer κ :=
  { s with
    report := interrimReport
    timeStartedMs := now
    nextPacketId := 0
    ipgStart := ⟨0, 0⟩
    client := client }

/-- The report with a datagram counted. -/
def countDatagram (s : UdpServer κ) (d : Datagram) (packetId : Int64) : MmiperfReport :=
  { s.report with
    bytesTransferred := s.report.bytesTransferred + UInt64.ofNat d.payload.length
    rxFrames := s.report.rxFrames + 1
    ipgCount := s.report.ipgCount + 1
    ipgSumMs := s.report.ipgSumMs + timeDelta d.packetTime s.ipgStart
    outOfSequenceFrames :=
      if packetId < s.nextPacketId.toInt64 then s.report.outOfSequenceFrames + 1
      else s.report.outOfSequenceFrames
    errorCount :=
      if packetId > s.nextPacketId.toInt64 then
        s.report.errorCount + (packetId - s.nextPacketId.toInt64).toUInt64.toUInt32
      else s.report.errorCount }

/-- A datagram of the session, unless its final one has come already. -/
def update (s : UdpServer κ) (d : Datagram) (packetId : Int64) : UdpServer κ :=
  if s.nextPacketId ≥ 0 then
    { s with
      report := s.countDatagram d packetId
      lastRxTimeMs := d.now
      ipgStart := d.packetTime
      nextPacketId :=
        if packetId ≥ s.nextPacketId.toInt64 then (packetId + 1).toInt32 else s.nextPacketId }
  else s

/-- The end of a session at its first final datagram. -/
def finish (s : UdpServer κ) : UdpServer κ × Option MmiperfReport :=
  if s.nextPacketId ≥ 0 then
    let report := finalizeReport s.report (s.lastRxTimeMs - s.timeStartedMs) .udpDoneServer
    ({ s with report := report, nextPacketId := -1 }, some report)
  else (s, none)

/-- The answer to a final datagram: its header and the server report. -/
def answer (s : UdpServer κ) (d : Datagram) : List UInt8 :=
  d.payload.take udpHeaderLen ++
    populateUdpServerReport s.report s.lastRxTimeMs s.timeStartedMs

end UdpServer

/-! ## The lwIP server -/

namespace Lwip

/-- The client of a session that has been zeroed. -/
def zeroClient : Client := ⟨.v4 0 0 0 0, 0⟩

/-- `ip_addr_ismulticast` -/
def ipAddrIsMulticast : IpAddr → Bool
  | .v4 a _ _ _ => a &&& 0xf0 == 0xe0
  | .v6 bytes => leadingByte bytes == 0xff

/-- `udp_server_start_session` -/
def udpServerStartSession (s : UdpServer Client) (client : Client) (now : UInt32) :
    Option (UdpServer Client) :=
  if s.nextPacketId ≥ 0 ∧ s.hasTimedOut now = false then none
  else some (s.restart client now)

/-- `get_session` -/
def getSession (s : UdpServer Client) (client : Client) (now : UInt32) :
    Option (UdpServer Client) :=
  if s.client = client ∧ s.hasTimedOut now = false then some s
  else udpServerStartSession s client now

/-- `iperf_udp_server_handle_final_packet`, as far as it sends. -/
def iperfUdpServerHandleFinalPacket (args : UdpServerArgs) (s : UdpServer Client)
    (d : Datagram) : Option (Client × List UInt8) :=
  if ipAddrIsMulticast args.localAddr then none else some (d.client, s.answer d)

/-- `iperf_udp_server_recv` -/
def iperfUdpServerRecv (args : UdpServerArgs) (s : UdpServer Client) (d : Datagram) :
    UdpServer Client × UdpOutput :=
  if d.Complete then
    match getSession s d.client d.now with
    | none => (s, silent)
    | some session =>
        let s := session.update d (d.packetId args.version)
        if d.finalPacket args.version then
          (s.finish.1, ⟨s.finish.2, iperfUdpServerHandleFinalPacket args s.finish.1 d⟩)
        else (s, silent)
  else (s, silent)

def server (args : UdpServerArgs) : Machine (UdpServer Client) Datagram UdpOutput where
  step := iperfUdpServerRecv args

end Lwip

/-! ## The FreeRTOS+TCP server -/

namespace Freertosplustcp

/-- `struct freertos_sockaddr` of a client, or zeroed: then its family is that of no client. -/
abbrev FreertosSockaddr : Type := Option Client

/-- The address as `ulIP_IPv4` holds it, in network byte order on a little-endian processor. -/
def ulIPIPv4 (a b c d : UInt8) : UInt32 :=
  d.toUInt32 <<< 24 ||| c.toUInt32 <<< 16 ||| b.toUInt32 <<< 8 ||| a.toUInt32

/-- `is_multicast_ip_addr`. An IPv4 address stands at the first bytes of the IPv6 one. -/
def isMulticastIpAddr : IpAddr → Bool
  | .v4 a b c d => ulIPIPv4 a b c d >>> 28 == 14 || a == 0xff
  | .v6 bytes => leadingByte bytes == 0xff

/-- `get_free_session_slot` -/
def getFreeSessionSlot (s : UdpServer FreertosSockaddr) (now : UInt32) :
    Option (UdpServer FreertosSockaddr) :=
  if s.nextPacketId < 0 ∨ s.hasTimedOut now = true then some s else none

/-- `start_session` -/
def startSession (s : UdpServer FreertosSockaddr) (client : Client) (now : UInt32) :
    Option (UdpServer FreertosSockaddr) :=
  (getFreeSessionSlot s now).map fun session => session.restart (some client) now

/-- `get_session` -/
def getSession (s : UdpServer FreertosSockaddr) (client : Client) (now : UInt32) :
    Option (UdpServer FreertosSockaddr) :=
  if some client = s.client ∧ s.hasTimedOut now = false then some s
  else startSession s client now

/-- The report sent to the client of the session. -/
def sendReport (args : UdpServerArgs) (s : UdpServer FreertosSockaddr) (d : Datagram) :
    Option (Client × List UInt8) :=
  if isMulticastIpAddr args.localAddr then none
  else s.client.map fun client => (client, s.answer d)

/-- The size of `recv_buff`. -/
def udpRecvLen : ℕ := udpHeaderLen + 1500

/-- `FreeRTOS_recvfrom`: what does not fit the buffer is dropped. -/
def recvfrom (d : Datagram) : Datagram where
  client := d.client
  payload := d.payload.take udpRecvLen
  now := d.now
  length_le := (List.length_take_le _ _).trans (by decide)

/-- A turn of `iperf_udp_recv_task`. The flag `final_packet` is clear when the task waits for a
datagram, and `session` is the lookup of the present one. Without a session a final datagram makes
the task read through a NULL pointer, and there is no next state. -/
def iperfUdpRecvTask (args : UdpServerArgs) (s : UdpServer FreertosSockaddr) (d : Datagram) :
    Option (UdpServer FreertosSockaddr) × UdpOutput :=
  if d.Complete then
    match getSession s d.client d.now with
    | none => if d.finalPacket args.version then (none, silent) else (some s, silent)
    | some session =>
        let s := session.update d (d.packetId args.version)
        if d.finalPacket args.version then
          (some s.finish.1, ⟨s.finish.2, sendReport args s.finish.1 d⟩)
        else (some s, silent)
  else (some s, silent)

/-- The task, until it faults, with what it receives. -/
def server (args : UdpServerArgs) :
    Machine (Option (UdpServer FreertosSockaddr)) Datagram UdpOutput where
  step s d :=
    match s with
    | some s => iperfUdpRecvTask args s (recvfrom d)
    | none => (none, silent)

end Freertosplustcp

end HalowBridge.Iperf
