import HalowBridge.Dns.Pending

/-!
# Which client a response goes to, and who can send one

A response is relayed on the strength of its transaction id alone. `RepliesRouted` is what a client
expects instead: every response relayed to it answers a query that it sent itself and that is still
unanswered, with the same transaction id and the same question. It holds of every run in which no
response carries the transaction id of an unanswered query with another question
(`repliesRouted_of_clear`).

The sender of a datagram plays no part in what a turn does with it. `OnlyUpstreamAnswers` asks that
a datagram from elsewhere than the upstream resolver relays nothing, caches nothing and removes no
recorded query; `onlyUpstreamAnswers_iff` says which datagrams are harmless in that sense.
-/

namespace HalowBridge.Dns

open Ledger

/-! ## Routing by transaction id -/

/-- The transaction id a message carries, when it is long enough to carry one. -/
def messageTxid (msg : List UInt8) : Option UInt16 :=
  if 2 ≤ msg.length then some (getDnsTxid msg) else none

/-- A query as its client knows it. -/
structure Query where
  txid : Option UInt16
  client : SockaddrIn
  question : Question
  deriving DecidableEq

/-- A forwarded query is opened; a relayed response closes the query of that client which it
answers. -/
def routingEntry : Recv × Action → Entry Query
  | (r, .forwarded _ client _) => .opens ⟨messageTxid r.payload, client, question r.payload⟩
  | (_, .relayed _ client bytes _) => .closes ⟨messageTxid bytes, client, question bytes⟩
  | (_, .ignored) | (_, .dropped _) | (_, .answered _ _ _ _) => .idle

def routing (tr : List (Recv × Action)) : List (Entry Query) := tr.map routingEntry

/-- Every response relayed to a client answers a query of that client, still unanswered then, with
its transaction id and its question. -/
def RepliesRouted (tr : List (Recv × Action)) : Prop := Covered (routing tr)

/-- A datagram that cannot be taken for the reply to another query: a response agrees on the
question with every unanswered query that has its transaction id, and a query has a transaction
id of its own. -/
def Clear (tr : List (Recv × Action)) (_ : State) (r : Recv) : Prop :=
  (r.isResponse → ∀ q ∈ balance (routing tr), q.txid = some (getDnsTxid r.payload) →
      q.question = question r.payload) ∧
    (r.isResponse = false → r.payload.length ≠ 1)

@[simp] theorem routing_concat (tr : List (Recv × Action)) (turn : Recv × Action) :
    routing (tr ++ [turn]) = routing tr ++ [routingEntry turn] := by
  rw [routing, routing, List.map_append]
  rfl

/-- The recorded pairs stem from unanswered queries, and all replies so far were routed. -/
structure Routable (tr : List (Recv × Action)) (s : State) : Prop where
  backed : (pairs s.pending).map (fun pair => (some pair.1, pair.2)) ≤
    (balance (routing tr)).map (fun q => (q.txid, q.client))
  routed : RepliesRouted tr

theorem Routable.start (buf : Table UInt8 dnsMaxPayload) : Routable [] (start buf) := by
  refine ⟨?_, covered_nil⟩
  rw [pairs_start]
  exact Multiset.zero_le _

section Steps

variable {tr : List (Recv × Action)} {s s' : State} {r : Recv} {action : Action} {txid : UInt16}
  {client : SockaddrIn} {bytes : List UInt8} {stored : Option ℕ}

theorem Routable.idle (routable : Routable tr s) (same : s'.pending = s.pending)
    (idle : routingEntry (r, action) = .idle) : Routable (tr ++ [(r, action)]) s' := by
  refine ⟨?_, ?_⟩
  · rw [same, routing_concat, idle, balance_concat]
    exact routable.backed
  · rw [RepliesRouted, routing_concat, idle]
    refine routable.routed.concat fun _ closes => ?_
    cases closes

/-- The query a response releases is unanswered, and has the question of the response. -/
theorem Routable.relay (routable : Routable tr s)
    (found : pendingGet s.pending txid = some (client, s'.pending))
    (own : messageTxid bytes = some txid)
    (agreed : ∀ q ∈ balance (routing tr), q.txid = some txid → q.question = question bytes) :
    Routable (tr ++ [(r, .relayed txid client bytes stored)]) s' := by
  have backed := routable.backed
  rw [pairs_pendingGet found, Multiset.map_cons] at backed
  obtain ⟨q, isOpen, same⟩ := Multiset.mem_map.mp
    (Multiset.mem_of_le backed (Multiset.mem_cons_self _ _))
  obtain ⟨sameId, sameClient⟩ : q.txid = some txid ∧ q.client = client := Prod.mk.inj same
  have closed : (⟨messageTxid bytes, client, question bytes⟩ : Query) = q := by
    rw [own, ← agreed q isOpen sameId, ← sameClient, ← sameId]
  refine ⟨?_, ?_⟩
  · rw [routing_concat, balance_concat, routingEntry, post, closed,
      Multiset.map_erase_of_mem _ _ isOpen, same]
    have := Multiset.erase_le_erase (some txid, client) backed
    rwa [Multiset.erase_cons_head] at this
  · rw [RepliesRouted, routing_concat]
    refine routable.routed.concat fun b closes => ?_
    cases closes
    rw [closed]
    exact isOpen

theorem Routable.forward (routable : Routable tr s)
    (put : s'.pending = pendingPut s.pending txid client)
    (own : messageTxid r.payload = some txid) :
    Routable (tr ++ [(r, .forwarded txid client bytes)]) s' := by
  refine ⟨?_, ?_⟩
  · rw [routing_concat, balance_concat, routingEntry, post, Multiset.map_cons, own, put]
    have grown := Multiset.map_le_map (f := fun pair : UInt16 × SockaddrIn => (some pair.1, pair.2))
      (pairs_pendingPut_le s.pending txid client)
    rw [Multiset.map_cons] at grown
    exact grown.trans (Multiset.cons_le_cons _ routable.backed)
  · rw [RepliesRouted, routing_concat]
    refine routable.routed.concat fun _ closes => ?_
    cases closes

end Steps

/-- One turn on a clear datagram keeps all replies routed. -/
theorem Routable.step {cfg : Config} {tr : List (Recv × Action)} {s : State} {r : Recv}
    (routable : Routable tr s) (clear : Clear tr s r) :
    Routable (tr ++ [(r, ((machine cfg).step s r).2)]) ((machine cfg).step s r).1 := by
  have turn := dnsForwarderTask_turn cfg s r
  generalize (machine cfg).step s r = out at turn ⊢
  obtain ⟨s', action⟩ := out
  have own : 2 ≤ r.payload.length → messageTxid r.payload = some (txidRead s r) := by
    intro two
    rw [messageTxid, if_pos two, txidRead_eq two]
  have two : r.isResponse → 2 ≤ r.payload.length :=
    fun response => le_trans (by decide) (header_of_isDnsResponse response)
  cases turn with
  | ignored | dropped | answered => exact routable.idle rfl rfl
  | relayed response found | stored response found =>
      apply routable.relay found (own (two response))
      rw [txidRead_eq (two response)]
      exact clear.1 response
  | forwarded nonempty query =>
      refine routable.forward rfl (own ?_)
      have := List.length_pos_iff.mpr nonempty
      have := clear.2 query
      omega

/-- **Replies are routed while no response fits another query.** In every run all of whose datagrams
are clear, each response relayed to a client answers a query which that client sent and which is
still unanswered, with the same transaction id and the same question. -/
theorem repliesRouted_of_clear {cfg : Config} {buf : Table UInt8 dnsMaxPayload} {rs : List Recv}
    (clear : (machine cfg).Guarded Clear (start buf) rs) :
    RepliesRouted ((machine cfg).trace (start buf) rs) :=
  ((machine cfg).exec_guarded (Routable.start buf)
    (fun _ _ _ routable here => routable.step here) clear).routed

theorem repliesRouted_of_clear_answeredRun :
    (machine shippedConfig).Guarded Clear (start zeroBuf) answeredRun ∧
      RepliesRouted ((machine shippedConfig).trace (start zeroBuf) answeredRun) := by
  have clear : (machine shippedConfig).Guarded Clear (start zeroBuf) answeredRun :=
    (((machine shippedConfig).guarded_nil).concat _
        (i := datagram clientA 0 (oneQuestion 0x01 7 [65, 97]))
        ⟨by decide +kernel, by decide +kernel⟩).concat _
      (i := datagram shippedConfig.upstream 5 (oneQuestion 0x81 7 [65, 97]))
      ⟨by decide +kernel, by decide +kernel⟩
  exact ⟨clear, repliesRouted_of_clear clear⟩

/-- Two clients ask different questions under one transaction id, and the second is answered. -/
def crossedRun : List Recv :=
  [datagram clientA 0 (oneQuestion 0x01 7 [65, 97]),
    datagram clientB 1 (oneQuestion 0x01 7 [99, 99]),
    datagram shippedConfig.upstream 2 (oneQuestion 0x81 7 [99, 99])]

/-- **A reply can go to the wrong client.** The response to the query of client B is relayed to
client A, which asked something else. -/
theorem not_repliesRouted_crossedRun :
    ¬ ∀ (cfg : Config) (buf : Table UInt8 dnsMaxPayload) (rs : List Recv),
      RepliesRouted ((machine cfg).trace (start buf) rs) := by
  intro promise
  have routed := promise shippedConfig zeroBuf crossedRun
  have member := routed
    (routing ((machine shippedConfig).trace (start zeroBuf) (crossedRun.take 2)))
    ⟨some 7, clientA, question (oneQuestion 0x81 7 [99, 99])⟩ (by decide +kernel)
  revert member
  decide +kernel

/-! ## Responses from elsewhere -/

/-- The turn relays nothing of the datagram, leaves the cache alone and keeps every recorded
query. -/
def NoEffect (cfg : Config) (s : State) (r : Recv) : Prop :=
  (∀ dest bytes, ((machine cfg).step s r).2.sent cfg = some (dest, bytes) →
      isDnsResponse bytes bytes.length → bytes ≠ r.payload) ∧
    ((machine cfg).step s r).1.cache = s.cache ∧
    pairs s.pending ≤ pairs ((machine cfg).step s r).1.pending

/-- Only the upstream resolver can answer: a datagram from elsewhere has no such effect. -/
def OnlyUpstreamAnswers (cfg : Config) (s : State) (r : Recv) : Prop :=
  r.sender ≠ cfg.upstream → NoEffect cfg s r

/-- A response is harmless when no recorded query has its transaction id. A query is harmless when
the cache answers it, or a slot is free for it, or it repeats the pair in slot `0`. -/
def Harmless (cfg : Config) (s : State) (r : Recv) : Prop :=
  (r.isResponse → ∀ client, (getDnsTxid r.payload, client) ∉ pairs s.pending) ∧
    (r.isResponse = false → r.payload ≠ [] →
      (0 < r.questionLen ∧ cacheLookup s.cache r.questionHash (cfg.nowSec r.ticks) ≠ none) ∨
        (∃ slot ∈ s.pending.slots, slot.used = false) ∨
        s.pending.slots[0]? = some ⟨txidRead s r, r.sender, true⟩)

/-- Recording a query keeps the recorded ones if a slot is free or slot `0` holds that query. -/
theorem pairs_le_pendingPut_iff {table : PendingTable} {txid : UInt16} {client : SockaddrIn} :
    pairs table ≤ pairs (pendingPut table txid client) ↔
      (∃ slot ∈ table.slots, slot.used = false) ∨
        table.slots[0]? = some ⟨txid, client, true⟩ := by
  by_cases free : ∃ slot ∈ table.slots, slot.used = false
  · rw [pairs_pendingPut_of_free free]
    exact iff_of_true (Multiset.le_cons_self _ _) (Or.inl free)
  · have full : ∀ slot ∈ table.slots, slot.used = true := fun slot member =>
      Bool.eq_true_of_not_eq_false fun unused => free ⟨slot, member, unused⟩
    rcases pairs_pendingPut_of_full txid client full with ⟨oldest, here, before, after⟩
    rw [before, after, here, or_iff_right free, Option.some.injEq]
    constructor
    · intro le
      have same := Multiset.eq_of_le_of_card_le le (by simp)
      have pair := (Multiset.cons_inj_left _).mp same
      have used := full oldest (List.mem_of_getElem? here)
      obtain ⟨id, address, flag⟩ := oldest
      cases pair
      cases used
      rfl
    · intro same
      subst same
      exact le_rfl

/-- A response that is sent is not the query that came in. -/
theorem ne_payload_of_query {r : Recv} (query : r.isResponse = false) {bytes : List UInt8}
    (response : isDnsResponse bytes bytes.length) : bytes ≠ r.payload := by
  intro same
  rw [same] at response
  have came : r.isResponse = true := response
  rw [query] at came
  cases came

theorem noEffect_iff_harmless {cfg : Config} {s : State} {r : Recv} :
    NoEffect cfg s r ↔ Harmless cfg s r := by
  rw [NoEffect]
  have turn := dnsForwarderTask_turn cfg s r
  generalize (machine cfg).step s r = out at turn ⊢
  obtain ⟨s', action⟩ := out
  have own : r.isResponse → txidRead s r = getDnsTxid r.payload := fun response =>
    txidRead_eq (le_trans (by decide) (header_of_isDnsResponse response))
  cases turn with
  | ignored empty =>
      refine iff_of_true ⟨nofun, rfl, le_rfl⟩ ⟨fun response => ?_, fun _ nonempty => ?_⟩
      · have := header_of_isDnsResponse response
        rw [empty] at this
        cases this
      · exact (nonempty empty).elim
  | dropped response missed =>
      rw [own response] at missed
      refine iff_of_true ⟨nofun, rfl, le_rfl⟩
        ⟨fun _ => pendingGet_eq_none_iff.mp missed, fun query => ?_⟩
      rw [response] at query
      cases query
  | relayed response found | stored response found =>
      refine iff_of_false (fun free => free.1 _ _ rfl response rfl) fun harmless => ?_
      have missed := pendingGet_eq_none_iff.mpr (harmless.1 response)
      rw [own response, missed] at found
      cases found
  | answered nonempty query asked found =>
      refine iff_of_true ⟨fun _ _ _ response => ne_payload_of_query query response, rfl, le_rfl⟩
        ⟨fun response => ?_, fun _ _ => Or.inl ⟨asked, by rw [found]; nofun⟩⟩
      rw [query] at response
      cases response
  | forwarded nonempty query missed =>
      have noHit : ¬ (0 < r.questionLen ∧
          cacheLookup s.cache r.questionHash (cfg.nowSec r.ticks) ≠ none) :=
        fun hit => hit.2 (missed hit.1)
      constructor
      · intro free
        rcases free with ⟨-, -, le⟩
        refine ⟨fun response => ?_, fun _ _ => Or.inr (pairs_le_pendingPut_iff.mp le)⟩
        rw [query] at response
        cases response
      · intro harmless
        exact ⟨fun _ _ _ response => ne_payload_of_query query response, rfl,
          pairs_le_pendingPut_iff.mpr ((harmless.2 query nonempty).resolve_left noHit)⟩

/-- **Which datagrams from elsewhere have no effect.** In every state the forwarder reaches, a
datagram from elsewhere than the upstream resolver relays nothing, leaves the cache alone and
removes no recorded query if and only if it is harmless. -/
theorem onlyUpstreamAnswers_iff {cfg : Config} {buf : Table UInt8 dnsMaxPayload}
    {before : List Recv} {r : Recv} :
    OnlyUpstreamAnswers cfg ((machine cfg).exec (start buf) before) r ↔
      (r.sender ≠ cfg.upstream → Harmless cfg ((machine cfg).exec (start buf) before) r) :=
  imp_congr_right fun _ => noEffect_iff_harmless

/-- **Anyone can answer.** Client B sends a response under the transaction id of a query of client
A: it is relayed to client A. -/
theorem not_onlyUpstreamAnswers_spoofed :
    ¬ ∀ (cfg : Config) (buf : Table UInt8 dnsMaxPayload) (before : List Recv) (r : Recv),
      OnlyUpstreamAnswers cfg ((machine cfg).exec (start buf) before) r := by
  intro promise
  have silent := (promise shippedConfig zeroBuf [datagram clientA 0 (oneQuestion 0x01 7 [65, 97])]
    (datagram clientB 1 (oneQuestion 0x81 7 [65, 97])) (by decide)).1
  exact silent clientA (oneQuestion 0x81 7 [65, 97]) (by decide +kernel) (by decide) rfl

end HalowBridge.Dns
