import HalowBridge.Lib.Machine
import HalowBridge.Lib.Table
import HalowBridge.Dns.Message

/-!
# The DNS forwarder task

`dns_forwarder_task` serves one UDP socket. A datagram without the response bit is answered from
the response cache when its question is there, and is otherwise recorded in the pending table and
sent to the upstream resolver. A datagram with the response bit is sent to the client recorded
under its transaction id, and is cached.

The state is what the loop keeps between two datagrams: the two tables and the receive buffer. The
buffer matters because a datagram of one byte leaves the second byte of its transaction id as it
was before. `dnsForwarderTask` is one turn of the loop; its `Action` is the branch taken, with the
datagram sent. `machine` runs it from the zeroed tables of `dns_forwarder_start` and any buffer.

`Turn` lists all that one turn can do, in terms of the datagram alone, and `dnsForwarderTask_turn`
says that the list is complete. Later modules argue from it and never unfold the turn.
-/

namespace HalowBridge.Dns

def dnsMaxPayload : ℕ := 512

def pendingMax : ℕ := 16

def cacheEntries : ℕ := 16

def cacheTtlSec : UInt32 := 120

/-- An IPv4 endpoint, `struct sockaddr_in`. -/
structure SockaddrIn where
  addr : UInt32
  port : UInt16
  deriving DecidableEq

structure Pending where
  txid : UInt16
  client : SockaddrIn
  used : Bool
  deriving DecidableEq

/-- A cached response. `payload` is the filled part of the payload array, so that its length is the
`len` of the source and an empty one marks an empty slot. -/
structure CacheEntry where
  key : UInt32
  expireSec : UInt32
  payload : List UInt8
  len_le : payload.length ≤ dnsMaxPayload
  deriving DecidableEq

abbrev PendingTable : Type := Table Pending pendingMax

abbrev CacheTable : Type := Table CacheEntry cacheEntries

/-! ## The pending table -/

/-- Record a query in the first free slot, or over slot `0` when there is none. -/
def pendingPut (table : PendingTable) (txid : UInt16) (client : SockaddrIn) : PendingTable :=
  match table.firstIdx (fun slot => !slot.used) with
  | some i => table.set i ⟨txid, client, true⟩
  | none => table.set 0 ⟨txid, client, true⟩

/-- Release the first used slot with the transaction id and return its client. -/
def pendingGet (table : PendingTable) (txid : UInt16) : Option (SockaddrIn × PendingTable) := do
  let i ← table.firstIdx (fun slot => slot.used && slot.txid == txid)
  let slot ← table.slots[i]?
  return (slot.client, table.set i { slot with used := false })

/-! ## The response cache -/

/-- The first entry with the key that has not expired, with its slot. -/
def cacheLookup (table : CacheTable) (key nowSec : UInt32) : Option (ℕ × CacheEntry) := do
  let i ← table.firstIdx fun entry =>
    decide (0 < entry.payload.length) && entry.key == key && decide (nowSec < entry.expireSec)
  let entry ← table.slots[i]?
  return (i, entry)

/-- The eviction scan of `cache_store`: stop at an empty slot, else keep the oldest one seen. -/
def evictScan : List CacheEntry → (i : ℕ) → (oldest : UInt32) → (slot : ℕ) → ℕ
  | [], _, _, slot => slot
  | entry :: rest, i, oldest, slot =>
      if entry.payload.length = 0 then i
      else if entry.expireSec < oldest then evictScan rest (i + 1) entry.expireSec i
      else evictScan rest (i + 1) oldest slot

/-- The slot `cache_store` writes. -/
def cacheSlot (table : CacheTable) (nowSec : UInt32) : ℕ := evictScan table.slots 0 (nowSec + 1) 0

def cacheStore (table : CacheTable) (key : UInt32) (payload : List UInt8) (nowSec : UInt32) :
    CacheTable :=
  if len_le : payload.length ≤ dnsMaxPayload then
    table.set (cacheSlot table nowSec) ⟨key, nowSec + cacheTtlSec, payload, len_le⟩
  else table

/-! ## One turn of the loop -/

/-- What the task is started with: the resolver, and the tick period of the build. -/
structure Config where
  upstream : SockaddrIn
  portTickPeriodMs : ℕ

/-- The second counter of the loop. `ticks` counts all ticks since boot; the tick counter the task
reads and its product with the period are 32 bits wide. -/
def Config.nowSec (cfg : Config) (ticks : ℕ) : UInt32 :=
  UInt32.ofNat ticks * UInt32.ofNat cfg.portTickPeriodMs / 1000

/-- What `lwip_recvfrom` hands over, and when. An error return is an empty payload. -/
structure Recv where
  payload : List UInt8
  len_le : payload.length ≤ dnsMaxPayload
  sender : SockaddrIn
  ticks : ℕ
  deriving DecidableEq

/-- What the loop keeps between two datagrams. -/
structure State where
  pending : PendingTable
  cache : CacheTable
  buf : Table UInt8 dnsMaxPayload
  deriving DecidableEq

/-- The branch a turn takes, with the bytes it sends. A relayed response may be stored in a slot of
the cache, and an answer comes from a slot of the cache. -/
inductive Action where
  | ignored
  | dropped (txid : UInt16)
  | relayed (txid : UInt16) (client : SockaddrIn) (bytes : List UInt8) (stored : Option ℕ)
  | answered (txid : UInt16) (client : SockaddrIn) (bytes : List UInt8) (slot : ℕ)
  | forwarded (txid : UInt16) (client : SockaddrIn) (bytes : List UInt8)
  deriving DecidableEq

/-- The datagram a turn sends. -/
def Action.sent (cfg : Config) : Action → Option (SockaddrIn × List UInt8)
  | .ignored | .dropped _ => none
  | .relayed _ client bytes _ | .answered _ client bytes _ => some (client, bytes)
  | .forwarded _ _ bytes => some (cfg.upstream, bytes)

/-- `set_dns_txid` on a whole buffer. -/
def stampTxid {n : ℕ} (buf : Table UInt8 n) (txid : UInt16) : Table UInt8 n :=
  ⟨setDnsTxid buf.slots txid, by rw [length_setDnsTxid, buf.length_eq]⟩

/-- The response branch, after `n` bytes were received into `s.buf`. -/
def onResponse (s : State) (n : ℕ) (nowSec : UInt32) : State × Action :=
  let txid := getDnsTxid s.buf.slots
  match pendingGet s.pending txid with
  | none => (s, .dropped txid)
  | some (client, pending) =>
      let bytes := s.buf.slots.take n
      if 0 < dnsQuestionLen s.buf.slots n then
        ({ s with
            pending
            cache := cacheStore s.cache (dnsQuestionHash s.buf.slots n) bytes nowSec },
          .relayed txid client bytes (some (cacheSlot s.cache nowSec)))
      else ({ s with pending }, .relayed txid client bytes none)

/-- The cache probe of the query branch. -/
def probe (s : State) (n : ℕ) (nowSec : UInt32) : Option (ℕ × CacheEntry) :=
  if 0 < dnsQuestionLen s.buf.slots n then
    cacheLookup s.cache (dnsQuestionHash s.buf.slots n) nowSec
  else none

/-- The query branch, after `n` bytes were received into `s.buf`. -/
def onQuery (s : State) (sender : SockaddrIn) (n : ℕ) (nowSec : UInt32) : State × Action :=
  let txid := getDnsTxid s.buf.slots
  match probe s n nowSec with
  | some (i, entry) =>
      let buf := stampTxid (s.buf.overwrite entry.payload) txid
      ({ s with buf }, .answered txid sender (buf.slots.take entry.payload.length) i)
  | none =>
      ({ s with pending := pendingPut s.pending txid sender },
        .forwarded txid sender (s.buf.slots.take n))

/-- The buffer after a receive. -/
def State.received (s : State) (r : Recv) : State := { s with buf := s.buf.overwrite r.payload }

/-- One turn of the loop of `dns_forwarder_task`. -/
def dnsForwarderTask (cfg : Config) (s : State) (r : Recv) : State × Action :=
  let n := r.payload.length
  if n = 0 then (s, .ignored)
  else
    let s := s.received r
    if isDnsResponse s.buf.slots n then onResponse s n (cfg.nowSec r.ticks)
    else onQuery s r.sender n (cfg.nowSec r.ticks)

/-- The state `dns_forwarder_start` leaves: zeroed tables, and a buffer nobody has written. -/
def start (buf : Table UInt8 dnsMaxPayload) : State where
  pending := .fill _ ⟨0, ⟨0, 0⟩, false⟩
  cache := .fill _ ⟨0, 0, [], Nat.zero_le _⟩
  buf := buf

def machine (cfg : Config) : Machine State Recv Action := ⟨dnsForwarderTask cfg⟩

/-! ## All that one turn can do -/

def Recv.isResponse (r : Recv) : Bool := isDnsResponse r.payload r.payload.length

def Recv.questionLen (r : Recv) : ℕ := dnsQuestionLen r.payload r.payload.length

def Recv.questionHash (r : Recv) : UInt32 := dnsQuestionHash r.payload r.payload.length

/-- The transaction id a turn reads. The second byte is an old one when only one was received. -/
def txidRead (s : State) (r : Recv) : UInt16 :=
  getDnsTxid (r.payload ++ s.buf.slots.drop r.payload.length)

/-- The outcomes of one turn on the datagram `r` in the state `s`. -/
inductive Turn (cfg : Config) (s : State) (r : Recv) : State → Action → Prop
  | ignored : r.payload = [] → Turn cfg s r s .ignored
  | dropped : r.isResponse → pendingGet s.pending (txidRead s r) = none →
      Turn cfg s r (s.received r) (.dropped (txidRead s r))
  | relayed {client : SockaddrIn} {pending : PendingTable} : r.isResponse →
      pendingGet s.pending (txidRead s r) = some (client, pending) → r.questionLen = 0 →
      Turn cfg s r { s.received r with pending }
        (.relayed (txidRead s r) client r.payload none)
  | stored {client : SockaddrIn} {pending : PendingTable} : r.isResponse →
      pendingGet s.pending (txidRead s r) = some (client, pending) → 0 < r.questionLen →
      Turn cfg s r
        { s.received r with
          pending
          cache := cacheStore s.cache r.questionHash r.payload (cfg.nowSec r.ticks) }
        (.relayed (txidRead s r) client r.payload (some (cacheSlot s.cache (cfg.nowSec r.ticks))))
  | answered {slot : ℕ} {entry : CacheEntry} {buf : Table UInt8 dnsMaxPayload} :
      r.payload ≠ [] → r.isResponse = false → 0 < r.questionLen →
      cacheLookup s.cache r.questionHash (cfg.nowSec r.ticks) = some (slot, entry) →
      Turn cfg s r { s with buf }
        (.answered (txidRead s r) r.sender (setDnsTxid entry.payload (txidRead s r)) slot)
  | forwarded : r.payload ≠ [] → r.isResponse = false →
      (0 < r.questionLen → cacheLookup s.cache r.questionHash (cfg.nowSec r.ticks) = none) →
      Turn cfg s r
        { s.received r with pending := pendingPut s.pending (txidRead s r) r.sender }
        (.forwarded (txidRead s r) r.sender r.payload)

theorem received_buf (s : State) (r : Recv) :
    (s.received r).buf.slots = r.payload ++ s.buf.slots.drop r.payload.length :=
  Table.overwrite_slots r.len_le

/-- A datagram with at least two bytes carries its own transaction id. -/
theorem txidRead_eq {s : State} {r : Recv} (two : 2 ≤ r.payload.length) :
    txidRead s r = getDnsTxid r.payload :=
  getDnsTxid_append _ two

/-- The bytes of a cached reply are the cached payload under another transaction id. -/
theorem take_stampTxid (buf : Table UInt8 dnsMaxPayload) (entry : CacheEntry) (txid : UInt16) :
    (stampTxid (buf.overwrite entry.payload) txid).slots.take entry.payload.length =
      setDnsTxid entry.payload txid := by
  simp only [stampTxid, setDnsTxid, List.take_set, Table.overwrite_slots entry.len_le,
    List.take_left]

theorem onResponse_turn {cfg : Config} {s : State} {r : Recv} (response : r.isResponse) :
    Turn cfg s r (onResponse (s.received r) r.payload.length (cfg.nowSec r.ticks)).1
      (onResponse (s.received r) r.payload.length (cfg.nowSec r.ticks)).2 := by
  simp only [onResponse, received_buf, dnsQuestionLen_append, dnsQuestionHash_append,
    List.take_left]
  cases found : pendingGet s.pending (txidRead s r) with
  | none =>
      have missed : pendingGet (s.received r).pending (txidRead s r) = none := found
      rw [txidRead] at missed
      simp only [missed]
      exact .dropped response found
  | some hit =>
      obtain ⟨client, pending⟩ := hit
      have taken : pendingGet (s.received r).pending (txidRead s r) = some (client, pending) :=
        found
      rw [txidRead] at taken
      simp only [taken]
      split
      · rename_i asked
        exact .stored response found asked
      · rename_i silent
        exact .relayed response found (Nat.eq_zero_of_not_pos silent)

theorem onQuery_turn {cfg : Config} {s : State} {r : Recv} (nonempty : r.payload ≠ [])
    (query : r.isResponse = false) :
    Turn cfg s r (onQuery (s.received r) r.sender r.payload.length (cfg.nowSec r.ticks)).1
      (onQuery (s.received r) r.sender r.payload.length (cfg.nowSec r.ticks)).2 := by
  simp only [onQuery, probe, received_buf, dnsQuestionLen_append, dnsQuestionHash_append,
    List.take_left, take_stampTxid]
  by_cases asked : 0 < r.questionLen
  · have walked : 0 < dnsQuestionLen r.payload r.payload.length := asked
    simp only [walked, ↓reduceIte]
    cases found : cacheLookup s.cache r.questionHash (cfg.nowSec r.ticks) with
    | none =>
        have missed : cacheLookup (s.received r).cache
            (dnsQuestionHash r.payload r.payload.length) (cfg.nowSec r.ticks) = none := found
        simp only [missed]
        exact .forwarded nonempty query fun _ => found
    | some hit =>
        obtain ⟨slot, entry⟩ := hit
        have taken : cacheLookup (s.received r).cache
            (dnsQuestionHash r.payload r.payload.length) (cfg.nowSec r.ticks) =
              some (slot, entry) := found
        simp only [taken]
        exact .answered nonempty query asked found
  · have walked : ¬ 0 < dnsQuestionLen r.payload r.payload.length := asked
    simp only [walked, ↓reduceIte]
    exact .forwarded nonempty query fun positive => (asked positive).elim

/-- **One turn of the loop does one of the things `Turn` lists.** -/
theorem dnsForwarderTask_turn (cfg : Config) (s : State) (r : Recv) :
    Turn cfg s r ((machine cfg).step s r).1 ((machine cfg).step s r).2 := by
  show Turn cfg s r (dnsForwarderTask cfg s r).1 (dnsForwarderTask cfg s r).2
  simp only [dnsForwarderTask, received_buf, isDnsResponse_append]
  split
  · rename_i empty
    exact .ignored (List.eq_nil_of_length_eq_zero empty)
  · rename_i nonempty
    split
    · rename_i response
      exact onResponse_turn response
    · rename_i query
      exact onQuery_turn (fun empty => nonempty (by rw [empty]; rfl))
        (Bool.eq_false_iff.mpr query)

/-! ## Concrete datagrams -/

/-- A message with one question: the flags, the low byte of the transaction id and one label. -/
def oneQuestion (flags id : UInt8) (label : List UInt8) : List UInt8 :=
  [0, id, flags, 0, 0, 1, 0, 0, 0, 0, 0, 0, UInt8.ofNat label.length] ++ label ++ [0, 0, 1, 0, 1]

/-- A datagram as the socket hands it over, cut to the receive buffer. -/
def datagram (sender : SockaddrIn) (ticks : ℕ) (bytes : List UInt8) : Recv :=
  ⟨bytes.take dnsMaxPayload, List.length_take_le _ _, sender, ticks⟩

/-- The configuration of the shipped build: a 1 ms tick, and a resolver at port 53. -/
def shippedConfig : Config := ⟨⟨0x08080808, 53⟩, 1⟩

def zeroBuf : Table UInt8 dnsMaxPayload := .fill _ 0

def clientA : SockaddrIn := ⟨0xC0A80402, 40000⟩

def clientB : SockaddrIn := ⟨0xC0A80403, 40001⟩

end HalowBridge.Dns
