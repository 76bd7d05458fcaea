import HalowBridge.Lib.Ledger
import HalowBridge.Dns.Forwarder

/-!
# The pending table against the queries still unanswered

The pending table is an array with holes, filled at the first free slot, emptied at the first match
and overwritten at slot `0` when it is full. Its purpose is simpler: it holds the queries that were
forwarded upstream and not answered yet. `pairs` is the multiset of pairs of transaction id and
client in the used slots, `unanswered` the multiset the trace of a run leaves open.

`pairs_pendingPut` and `pairs_pendingGet` are what the two operations do to `pairs`; everything
else follows from them and from `Turn`.
-/

namespace HalowBridge.Dns

open Ledger

/-- What a slot of the pending table holds. -/
def Pending.pair (slot : Pending) : Option (UInt16 × SockaddrIn) :=
  if slot.used then some (slot.txid, slot.client) else none

/-- The recorded queries. -/
def pairs (table : PendingTable) : Multiset (UInt16 × SockaddrIn) := table.content Pending.pair

theorem Pending.pair_eq_some {slot : Pending} {pair : UInt16 × SockaddrIn} :
    slot.pair = some pair ↔ slot.used = true ∧ (slot.txid, slot.client) = pair := by
  rw [Pending.pair]
  split
  · rename_i used
    rw [Option.some.injEq]
    exact ⟨fun same => ⟨used, same⟩, fun both => both.2⟩
  · rename_i free
    exact ⟨nofun, fun both => (free both.1).elim⟩

theorem Pending.pair_eq_none {slot : Pending} : slot.pair = none ↔ slot.used = false := by
  rw [Pending.pair]
  split
  · rename_i used
    simp only [reduceCtorEq, used]
  · rename_i free
    simp only [Bool.eq_false_iff.mpr free]

/-! ## What the operations do to the recorded queries -/

section Operations

variable {table after : PendingTable} {txid : UInt16} {client : SockaddrIn}

/-- A query goes to the first free slot; when every slot is used, it replaces slot `0`. -/
theorem pendingPut_cases (table : PendingTable) (txid : UInt16) (client : SockaddrIn) :
    (∃ i slot, table.slots[i]? = some slot ∧ slot.used = false ∧
        (∀ j other, j < i → table.slots[j]? = some other → other.used = true) ∧
        pendingPut table txid client = table.set i ⟨txid, client, true⟩) ∨
      ((∀ slot ∈ table.slots, slot.used = true) ∧
        pendingPut table txid client = table.set 0 ⟨txid, client, true⟩) := by
  rw [pendingPut]
  split
  · rename_i i found
    rcases Table.firstIdx_eq_some found with ⟨slot, here, free, before⟩
    refine Or.inl ⟨i, slot, here, by simpa using free, fun j other lt there => ?_, rfl⟩
    simpa using before j other lt there
  · rename_i missed
    exact Or.inr ⟨fun slot member => by simpa using Table.firstIdx_eq_none missed member, rfl⟩

theorem pairs_pendingPut_of_free (free : ∃ slot ∈ table.slots, slot.used = false) :
    pairs (pendingPut table txid client) = (txid, client) ::ₘ pairs table := by
  rcases pendingPut_cases table txid client with ⟨i, slot, here, unused, -, put⟩ | ⟨full, -⟩
  · rw [put, pairs, pairs, Table.content_set (Table.lt_of_getElem? here),
      Table.content_eq here, Pending.pair_eq_none.mpr unused]
    rfl
  · obtain ⟨slot, member, unused⟩ := free
    rw [full slot member] at unused
    cases unused

/-- In a full table the query in slot `0` makes way for the new one. -/
theorem pairs_pendingPut_of_full (txid : UInt16) (client : SockaddrIn)
    (full : ∀ slot ∈ table.slots, slot.used = true) :
    ∃ oldest, table.slots[0]? = some oldest ∧
      pairs table = (oldest.txid, oldest.client) ::ₘ table.others Pending.pair 0 ∧
      pairs (pendingPut table txid client) =
        (txid, client) ::ₘ table.others Pending.pair 0 := by
  have inside : 0 < table.slots.length := by
    rw [table.length_eq]
    decide
  have here : table.slots[0]? = some table.slots[0] := List.getElem?_eq_getElem inside
  have used := full table.slots[0] (List.getElem_mem inside)
  refine ⟨table.slots[0], here, ?_, ?_⟩
  · rw [pairs, Table.content_eq here, Pending.pair_eq_some.mpr ⟨used, rfl⟩]
    rfl
  · rcases pendingPut_cases table txid client with ⟨i, slot, there, unused, -, -⟩ | ⟨-, put⟩
    · rw [full slot (List.mem_of_getElem? there)] at unused
      cases unused
    · rw [put, pairs, Table.content_set (by decide)]
      rfl

/-- Recording a query adds at most that query. -/
theorem pairs_pendingPut_le (table : PendingTable) (txid : UInt16) (client : SockaddrIn) :
    pairs (pendingPut table txid client) ≤ (txid, client) ::ₘ pairs table := by
  by_cases free : ∃ slot ∈ table.slots, slot.used = false
  · exact (pairs_pendingPut_of_free free).le
  · obtain ⟨oldest, -, before, after⟩ := pairs_pendingPut_of_full txid client
      fun slot member => Bool.eq_true_of_not_eq_false fun unused => free ⟨slot, member, unused⟩
    rw [before, after]
    exact Multiset.cons_le_cons _ (Multiset.le_cons_self _ _)

/-- The slot a response releases. -/
theorem pendingGet_eq_some (found : pendingGet table txid = some (client, after)) :
    ∃ i slot, table.slots[i]? = some slot ∧ slot.used = true ∧ slot.txid = txid ∧
      slot.client = client ∧ after = table.set i { slot with used := false } := by
  simp only [pendingGet, Option.bind_eq_bind, Option.bind_eq_some_iff, Option.pure_def,
    Option.some.injEq, Prod.mk.injEq] at found
  obtain ⟨i, first, slot, here, rfl, rfl⟩ := found
  rcases Table.firstIdx_eq_some first with ⟨same, there, pass, -⟩
  obtain rfl : same = slot := Option.some.inj (there.symm.trans here)
  simp only [Bool.and_eq_true, beq_iff_eq] at pass
  exact ⟨i, same, here, pass.1, pass.2, rfl, rfl⟩

/-- A response takes one recorded query with its transaction id out of the table. -/
theorem pairs_pendingGet (found : pendingGet table txid = some (client, after)) :
    pairs table = (txid, client) ::ₘ pairs after := by
  rcases pendingGet_eq_some found with ⟨i, slot, here, used, rfl, rfl, rfl⟩
  rw [pairs, pairs, Table.content_eq here, Table.content_set (Table.lt_of_getElem? here),
    Pending.pair_eq_some.mpr ⟨used, rfl⟩, Pending.pair_eq_none.mpr rfl]
  rfl

/-- A response finds no client exactly when no recorded query has its transaction id. -/
theorem pendingGet_eq_none_iff : pendingGet table txid = none ↔ ∀ c, (txid, c) ∉ pairs table := by
  constructor
  · intro missed c member
    rcases Table.mem_content.mp member with ⟨slot, here, held⟩
    rcases Pending.pair_eq_some.mp held with ⟨used, same⟩
    obtain ⟨i, first⟩ : ∃ i, table.firstIdx (fun slot => slot.used && slot.txid == txid) = some i :=
      Table.exists_firstIdx here (by simp [used, (Prod.mk.inj same).1])
    rcases Table.firstIdx_eq_some first with ⟨found, there, -⟩
    simp [pendingGet, first, there] at missed
  · intro absent
    cases found : pendingGet table txid with
    | none => rfl
    | some hit =>
        obtain ⟨client, after⟩ := hit
        refine (absent client ?_).elim
        rw [pairs_pendingGet found]
        exact Multiset.mem_cons_self _ _

end Operations

/-! ## The table holds exactly the unanswered queries -/

/-- What a turn means for the queries under way: a forwarded query is opened, a relayed response
closes one. -/
def Action.entry : Action → Entry (UInt16 × SockaddrIn)
  | .forwarded txid client _ => .opens (txid, client)
  | .relayed txid client _ _ => .closes (txid, client)
  | .ignored | .dropped _ | .answered _ _ _ _ => .idle

/-- The ledger of forwarded queries and relayed responses of a trace. -/
def ledger (tr : List (Recv × Action)) : List (Entry (UInt16 × SockaddrIn)) :=
  tr.map fun turn => turn.2.entry

/-- The queries forwarded upstream for which no response was relayed yet. -/
def unanswered (tr : List (Recv × Action)) : Multiset (UInt16 × SockaddrIn) := balance (ledger tr)

@[simp] theorem ledger_concat (tr : List (Recv × Action)) (r : Recv) (action : Action) :
    ledger (tr ++ [(r, action)]) = ledger tr ++ [action.entry] := by
  rw [ledger, ledger, List.map_append]
  rfl

@[simp] theorem unanswered_concat (tr : List (Recv × Action)) (r : Recv) (action : Action) :
    unanswered (tr ++ [(r, action)]) = post (unanswered tr) action.entry := by
  rw [unanswered, unanswered, ledger_concat, balance_concat]

/-- At no moment of the run are more queries unanswered than the table has slots. -/
def NeverOverflows (cfg : Config) (s₀ : State) (rs : List Recv) : Prop :=
  ∀ before ∈ rs.inits,
    Multiset.card (unanswered ((machine cfg).trace s₀ before)) ≤ pendingMax

instance (cfg : Config) (s₀ : State) (rs : List Recv) : Decidable (NeverOverflows cfg s₀ rs) :=
  List.decidableBAll _ _

/-- The table agrees with the trace: it records what is unanswered, and every response relayed so
far answered a query unanswered at that moment. -/
structure Exact (tr : List (Recv × Action)) (s : State) : Prop where
  recorded : pairs s.pending = unanswered tr
  covered : Covered (ledger tr)

@[simp] theorem pairs_start (buf : Table UInt8 dnsMaxPayload) : pairs (start buf).pending = 0 :=
  Table.content_fill rfl

theorem Exact.start (buf : Table UInt8 dnsMaxPayload) : Exact [] (start buf) :=
  ⟨pairs_start buf, covered_nil⟩

/-- A turn that opens and closes nothing and leaves the table alone keeps the agreement. -/
theorem Exact.idle {tr : List (Recv × Action)} {s s' : State} {r : Recv} {action : Action}
    (exact_ : Exact tr s) (same : s'.pending = s.pending) (idle : action.entry = .idle) :
    Exact (tr ++ [(r, action)]) s' := by
  refine ⟨?_, ?_⟩
  · rw [same, exact_.recorded, unanswered_concat, idle]
    rfl
  · rw [ledger_concat, idle]
    refine exact_.covered.concat fun _ closes => ?_
    cases closes

/-- Relaying a response closes the query it takes out of the table. -/
theorem Exact.relay {tr : List (Recv × Action)} {s s' : State} {r : Recv} {txid : UInt16}
    {client : SockaddrIn} {bytes : List UInt8} {stored : Option ℕ} (exact_ : Exact tr s)
    (found : pendingGet s.pending txid = some (client, s'.pending)) :
    Exact (tr ++ [(r, .relayed txid client bytes stored)]) s' := by
  have taken := pairs_pendingGet found
  rw [exact_.recorded] at taken
  refine ⟨?_, ?_⟩
  · rw [unanswered_concat, Action.entry, post, taken, Multiset.erase_cons_head]
  · rw [ledger_concat]
    refine exact_.covered.concat fun pair closed => ?_
    cases closed
    show (txid, client) ∈ unanswered tr
    rw [taken]
    exact Multiset.mem_cons_self _ _

/-- Forwarding a query opens it, as long as a slot is free for it. -/
theorem Exact.forward {tr : List (Recv × Action)} {s s' : State} {r : Recv} {txid : UInt16}
    {client : SockaddrIn} {bytes : List UInt8} (exact_ : Exact tr s)
    (put : s'.pending = pendingPut s.pending txid client)
    (fits : Multiset.card (unanswered (tr ++ [(r, .forwarded txid client bytes)])) ≤ pendingMax) :
    Exact (tr ++ [(r, .forwarded txid client bytes)]) s' := by
  rw [unanswered_concat, Action.entry, post, Multiset.card_cons, ← exact_.recorded] at fits
  have free : ∃ slot ∈ s.pending.slots, slot.used = false := by
    rcases Table.card_content_lt_iff.mp (Nat.lt_of_succ_le fits) with ⟨slot, member, empty⟩
    exact ⟨slot, member, Pending.pair_eq_none.mp empty⟩
  refine ⟨?_, ?_⟩
  · rw [put, pairs_pendingPut_of_free free, exact_.recorded, unanswered_concat]
    rfl
  · rw [ledger_concat]
    refine exact_.covered.concat fun _ closes => ?_
    cases closes

/-- One turn keeps the table in agreement with the trace unless it overflows the table. -/
theorem Exact.step {cfg : Config} {tr : List (Recv × Action)} {s : State} {r : Recv}
    (exact_ : Exact tr s)
    (fits : Multiset.card (unanswered (tr ++ [(r, ((machine cfg).step s r).2)])) ≤ pendingMax) :
    Exact (tr ++ [(r, ((machine cfg).step s r).2)]) ((machine cfg).step s r).1 := by
  have turn := dnsForwarderTask_turn cfg s r
  generalize (machine cfg).step s r = out at turn fits ⊢
  obtain ⟨s', action⟩ := out
  cases turn with
  | ignored => exact exact_.idle rfl rfl
  | dropped => exact exact_.idle rfl rfl
  | relayed _ found _ => exact exact_.relay found
  | stored _ found _ => exact exact_.relay found
  | answered => exact exact_.idle rfl rfl
  | forwarded => exact exact_.forward rfl fits

theorem NeverOverflows.exact {cfg : Config} {buf : Table UInt8 dnsMaxPayload} {rs : List Recv}
    (fits : NeverOverflows cfg (start buf) rs) {before : List Recv} (le : before <+: rs) :
    Exact ((machine cfg).trace (start buf) before) ((machine cfg).exec (start buf) before) := by
  refine (machine cfg).exec_guarded (P := Exact)
    (G := fun tr s r =>
      Multiset.card (unanswered (tr ++ [(r, ((machine cfg).step s r).2)])) ≤ pendingMax)
    (Exact.start buf) (fun tr s r kept room => kept.step room) fun earlier r here => ?_
  have room := fits _ ((List.mem_inits _ _).mpr (here.trans le))
  rw [Machine.trace_concat] at room
  exact room

/-- What relaying means in one turn: the datagram is a response, it is sent as it came, and a query
with its transaction id was recorded for that client. -/
theorem relayed_of_step {cfg : Config} {s : State} {r : Recv} {txid : UInt16}
    {client : SockaddrIn} {bytes : List UInt8} {stored : Option ℕ}
    (relayed : ((machine cfg).step s r).2 = .relayed txid client bytes stored) :
    r.isResponse ∧ txid = getDnsTxid r.payload ∧ bytes = r.payload ∧
      (txid, client) ∈ pairs s.pending := by
  have turn := dnsForwarderTask_turn cfg s r
  generalize (machine cfg).step s r = out at turn relayed
  obtain ⟨s', action⟩ := out
  have own : r.isResponse → txidRead s r = getDnsTxid r.payload := fun response =>
    txidRead_eq (le_trans (by decide) (header_of_isDnsResponse response))
  cases turn with
  | ignored | dropped | answered | forwarded => cases relayed
  | relayed response found | stored response found =>
      cases relayed
      rw [pairs_pendingGet found]
      exact ⟨response, own response, rfl, Multiset.mem_cons_self _ _⟩

/-- A response is relayed exactly when a query with its transaction id is recorded. -/
theorem relays_iff {cfg : Config} {s : State} {r : Recv} (response : r.isResponse) :
    (∃ txid client bytes stored,
        ((machine cfg).step s r).2 = .relayed txid client bytes stored) ↔
      ∃ client, (getDnsTxid r.payload, client) ∈ pairs s.pending := by
  constructor
  · intro forwards
    rcases forwards with ⟨txid, client, bytes, stored, relayed⟩
    rcases relayed_of_step relayed with ⟨-, rfl, -, member⟩
    exact ⟨client, member⟩
  · intro waits
    rcases waits with ⟨client, member⟩
    have turn := dnsForwarderTask_turn cfg s r
    generalize (machine cfg).step s r = out at turn ⊢
    obtain ⟨s', action⟩ := out
    have header := header_of_isDnsResponse response
    cases turn with
    | ignored empty =>
        rw [empty] at header
        cases header
    | dropped _ missed =>
        rw [txidRead_eq (le_trans (by decide) header)] at missed
        exact (pendingGet_eq_none_iff.mp missed client member).elim
    | relayed | stored => exact ⟨_, _, _, _, rfl⟩
    | answered _ query | forwarded _ query =>
        rw [response] at query
        cases query

/-- **The pending table is exact while it does not overflow.** At every moment of a run that never
has more unanswered queries than slots, the used slots hold exactly the unanswered queries. A
response is relayed if and only if a query with its transaction id is unanswered, it goes to the
sender of such a query, and the relayed responses can be matched with earlier forwarded queries of
the same transaction id and client, no query being matched twice. -/
theorem pending_exact {cfg : Config} {buf : Table UInt8 dnsMaxPayload} {rs : List Recv}
    (fits : NeverOverflows cfg (start buf) rs) {before : List Recv} (le : before <+: rs) :
    let tr := (machine cfg).trace (start buf) before
    let s := (machine cfg).exec (start buf) before
    pairs s.pending = unanswered tr ∧
      (∀ r : Recv, r.isResponse →
        ((∃ txid client bytes stored,
            ((machine cfg).step s r).2 = .relayed txid client bytes stored) ↔
          ∃ client, (getDnsTxid r.payload, client) ∈ unanswered tr)) ∧
      (∀ (r : Recv) txid client bytes stored,
        ((machine cfg).step s r).2 = .relayed txid client bytes stored →
          r.isResponse ∧ txid = getDnsTxid r.payload ∧ bytes = r.payload ∧
            (txid, client) ∈ unanswered tr) ∧
      ∃ f, Matching (ledger tr) f := by
  intro tr s
  have agreed := fits.exact le
  refine ⟨agreed.recorded, fun r response => ?_, fun r txid client bytes stored relayed => ?_,
    agreed.covered.matching⟩
  · rw [← agreed.recorded]
    exact relays_iff response
  · rw [← agreed.recorded]
    exact relayed_of_step relayed

/-- A query of client A and the response to it. -/
def answeredRun : List Recv :=
  [datagram clientA 0 (oneQuestion 0x01 7 [65, 97]),
    datagram shippedConfig.upstream 5 (oneQuestion 0x81 7 [65, 97])]

theorem pending_exact_answeredRun :
    NeverOverflows shippedConfig (start zeroBuf) answeredRun ∧
      pairs ((machine shippedConfig).exec (start zeroBuf) answeredRun).pending =
        unanswered ((machine shippedConfig).trace (start zeroBuf) answeredRun) :=
  ⟨by decide +kernel, (pending_exact (by decide +kernel) (List.prefix_refl _)).1⟩

end HalowBridge.Dns
