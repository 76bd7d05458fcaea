import HalowBridge.Dns.Pending

/-!
# How long a recorded query is kept

Queries do not expire. A recorded query leaves the pending table when a response releases it, or
when it sits in slot `0` and a further query finds the table full. `Kept` is the promise that a
query just recorded stays retrievable until it is retrieved or `pendingMax` further queries have
been recorded; `kept_iff_safe` says for which tables the forwarder keeps it. The promise breaks
exactly when the query is put in slot `0` beside others: then a run of fewer than `pendingMax` short
datagrams, each of them recorded, forces it out.
-/

namespace HalowBridge.Dns

/-- Some sequence of `pending_get` calls with the transaction id returns the client. -/
inductive Retrievable (txid : UInt16) (client : SockaddrIn) : PendingTable → Prop
  | here {table after : PendingTable} : pendingGet table txid = some (client, after) →
      Retrievable txid client table
  | later {table after : PendingTable} {other : SockaddrIn} :
      pendingGet table txid = some (other, after) → Retrievable txid client after →
      Retrievable txid client table

theorem retrievable_iff {txid : UInt16} {client : SockaddrIn} {table : PendingTable} :
    Retrievable txid client table ↔ (txid, client) ∈ pairs table := by
  constructor
  · intro retrieved
    induction retrieved with
    | here found =>
        rw [pairs_pendingGet found]
        exact Multiset.mem_cons_self _ _
    | later found _ ih =>
        rw [pairs_pendingGet found]
        exact Multiset.mem_cons_of_mem ih
  · generalize size : Multiset.card (pairs table) = n
    induction n generalizing table with
    | zero =>
        intro member
        rw [Multiset.card_eq_zero.mp size] at member
        cases Multiset.notMem_zero _ member
    | succ n ih =>
        intro member
        cases found : pendingGet table txid with
        | none => exact (pendingGet_eq_none_iff.mp found client member).elim
        | some hit =>
            obtain ⟨other, after⟩ := hit
            have taken := pairs_pendingGet found
            rw [taken] at member size
            rcases Multiset.mem_cons.mp member with same | rest
            · obtain rfl : client = other := (Prod.mk.inj same).2
              exact .here found
            · exact .later found (ih (by simpa using size) rest)

/-! ## The promise -/

/-- The number of queries a trace records. -/
def recorded (tr : List (Recv × Action)) : ℕ :=
  tr.countP fun turn => match turn.2 with
    | .forwarded _ _ _ => true
    | _ => false

/-- The trace retrieves the pair. -/
def Retrieved (tr : List (Recv × Action)) (txid : UInt16) (client : SockaddrIn) : Prop :=
  ∃ r bytes stored, (r, Action.relayed txid client bytes stored) ∈ tr

/-- From `s` on, the pair stays retrievable until it is retrieved or `pendingMax` further queries
have been recorded. -/
def Kept (cfg : Config) (s : State) (txid : UInt16) (client : SockaddrIn) : Prop :=
  ∀ rs : List Recv, recorded ((machine cfg).trace s rs) < pendingMax →
    ¬ Retrieved ((machine cfg).trace s rs) txid client →
      Retrievable txid client ((machine cfg).exec s rs).pending

/-- The tables in which the next query is kept as promised: slot `0` is taken and another slot is
free, or no slot is used, or the pair is recorded in a slot beside slot `0` already. -/
def Safe (table : PendingTable) (txid : UInt16) (client : SockaddrIn) : Prop :=
  ((∃ slot, table.slots[0]? = some slot ∧ slot.used = true) ∧
      ∃ slot ∈ table.slots, slot.used = false) ∨
    (∀ slot ∈ table.slots, slot.used = false) ∨
    (txid, client) ∈ table.others Pending.pair 0

section Traces

variable {tr : List (Recv × Action)} {r : Recv} {action : Action} {txid : UInt16}
  {client : SockaddrIn}

theorem Retrieved.concat (retrieved : Retrieved tr txid client) :
    Retrieved (tr ++ [(r, action)]) txid client := by
  obtain ⟨q, bytes, stored, member⟩ := retrieved
  exact ⟨q, bytes, stored, List.mem_append_left _ member⟩

theorem recorded_le_concat : recorded tr ≤ recorded (tr ++ [(r, action)]) := by
  rw [recorded, recorded, List.countP_append]
  exact Nat.le_add_right _ _

theorem recorded_forwarded {bytes : List UInt8} :
    recorded (tr ++ [(r, .forwarded txid client bytes)]) = recorded tr + 1 := by
  rw [recorded, recorded, List.countP_append]
  rfl

end Traces

/-! ## Slots that hold the pair -/

/-- Slot `j` holds the pair. -/
def Holds (table : PendingTable) (j : ℕ) (txid : UInt16) (client : SockaddrIn) : Prop :=
  ∃ slot, table.slots[j]? = some slot ∧ slot.pair = some (txid, client)

section Holds

variable {table after : PendingTable} {i j : ℕ} {txid id : UInt16} {client other : SockaddrIn}

theorem Holds.mem_pairs (holds : Holds table j txid client) : (txid, client) ∈ pairs table := by
  obtain ⟨slot, here, held⟩ := holds
  exact Table.mem_content.mpr ⟨slot, List.mem_of_getElem? here, held⟩

theorem Holds.used (holds : Holds table j txid client) :
    ∃ slot, table.slots[j]? = some slot ∧ slot.used = true := by
  obtain ⟨slot, here, held⟩ := holds
  exact ⟨slot, here, (Pending.pair_eq_some.mp held).1⟩

theorem Holds.set_ne {slot : Pending} (holds : Holds table j txid client) (ne : i ≠ j) :
    Holds (table.set i slot) j txid client := by
  obtain ⟨kept, here, held⟩ := holds
  exact ⟨kept, by rw [Table.getElem?_set_ne ne, here], held⟩

theorem mem_others_iff :
    (txid, client) ∈ table.others Pending.pair 0 ↔ ∃ j, j ≠ 0 ∧ Holds table j txid client := by
  rw [Table.mem_others]
  constructor
  · intro beside
    rcases beside with ⟨j, slot, ne, here, held⟩
    exact ⟨j, ne, slot, here, held⟩
  · intro beside
    rcases beside with ⟨j, ne, slot, here, held⟩
    exact ⟨j, slot, ne, here, held⟩

/-- A slot survives another query unless it is slot `0` of a full table. -/
theorem Holds.pendingPut (holds : Holds table j txid client)
    (room : j ≠ 0 ∨ ∃ slot ∈ table.slots, slot.used = false) :
    Holds (pendingPut table id other) j txid client := by
  rcases pendingPut_cases table id other with ⟨i, slot, here, unused, -, put⟩ | ⟨full, put⟩
  · rw [put]
    refine holds.set_ne fun same => ?_
    obtain ⟨kept, there, used⟩ := holds.used
    rw [same, there] at here
    rw [Option.some.inj here, unused] at used
    cases used
  · rw [put]
    rcases room with ne | ⟨slot, member, unused⟩
    · exact holds.set_ne ne.symm
    · rw [full slot member] at unused
      cases unused

/-- A response that takes another pair leaves the slot. -/
theorem Holds.pendingGet (holds : Holds table j txid client)
    (found : pendingGet table id = some (other, after)) :
    (id, other) = (txid, client) ∨ Holds after j txid client := by
  rcases pendingGet_eq_some found with ⟨i, slot, here, used, rfl, rfl, rfl⟩
  by_cases same : i = j
  · obtain ⟨kept, there, held⟩ := holds
    rw [← same, here] at there
    rw [← Option.some.inj there] at held
    exact Or.inl (Pending.pair_eq_some.mp held).2
  · exact Or.inr (holds.set_ne same)

end Holds

/-! ## Tables that keep the pair -/

/-- All that a turn does to the pending table. -/
theorem pending_step (cfg : Config) (s : State) (r : Recv) :
    (((machine cfg).step s r).1.pending = s.pending) ∨
      (∃ txid client bytes stored,
        ((machine cfg).step s r).2 = .relayed txid client bytes stored ∧
        pendingGet s.pending txid = some (client, ((machine cfg).step s r).1.pending)) ∨
      ∃ txid client bytes, ((machine cfg).step s r).2 = .forwarded txid client bytes ∧
        ((machine cfg).step s r).1.pending = pendingPut s.pending txid client := by
  have turn := dnsForwarderTask_turn cfg s r
  generalize (machine cfg).step s r = out at turn ⊢
  obtain ⟨s', action⟩ := out
  cases turn with
  | ignored | dropped | answered => exact Or.inl rfl
  | relayed _ found | stored _ found => exact Or.inr (Or.inl ⟨_, _, _, _, rfl, found⟩)
  | forwarded => exact Or.inr (Or.inr ⟨_, _, _, rfl, rfl⟩)

section Runs

variable {cfg : Config} {tr : List (Recv × Action)} {s : State} {r : Recv} {j : ℕ} {txid : UInt16}
  {client : SockaddrIn}

theorem retrieved_last {action : Action} {bytes : List UInt8} {stored : Option ℕ}
    (relayed : action = .relayed txid client bytes stored) :
    Retrieved (tr ++ [(r, action)]) txid client :=
  ⟨r, bytes, stored, by rw [relayed]; exact List.mem_append_right _ (List.mem_singleton_self _)⟩

/-- A turn leaves a slot other than slot `0` unless it retrieves the pair. -/
theorem Holds.step_of_ne (ne : j ≠ 0) (holds : Holds s.pending j txid client) :
    Retrieved (tr ++ [(r, ((machine cfg).step s r).2)]) txid client ∨
      Holds ((machine cfg).step s r).1.pending j txid client := by
  rcases pending_step cfg s r with same | ⟨id, other, _, _, relayed, found⟩ | ⟨_, _, _, -, put⟩
  · rw [same]
    exact Or.inr holds
  · rcases holds.pendingGet found with pair | kept
    · cases pair
      exact Or.inl (retrieved_last relayed)
    · exact Or.inr kept
  · rw [put]
    exact Or.inr (holds.pendingPut (Or.inl ne))

/-- A pair in a slot other than slot `0` is kept whatever else is recorded. -/
theorem kept_of_holds (ne : j ≠ 0) (holds : Holds s.pending j txid client) :
    Kept cfg s txid client := by
  intro rs _ unretrieved
  have history := (machine cfg).trace_history
    (P := fun tr s => Retrieved tr txid client ∨ Holds s.pending j txid client)
    (Or.inr holds) (fun tr s r kept => ?_) rs
  · exact retrievable_iff.mpr (history.resolve_left unretrieved).mem_pairs
  · rcases kept with done | kept
    · exact Or.inl done.concat
    · exact kept.step_of_ne ne

/-- Slot `0` holds the pair, and the table has no more queries than were recorded since. -/
structure Young (tr : List (Recv × Action)) (s : State) (txid : UInt16) (client : SockaddrIn) :
    Prop where
  holds : Holds s.pending 0 txid client
  few : Multiset.card (pairs s.pending) ≤ 1 + recorded tr

/-- A turn leaves a young pair in slot `0` until it is retrieved or the table has been filled. -/
theorem Young.step (young : Young tr s txid client) :
    Retrieved (tr ++ [(r, ((machine cfg).step s r).2)]) txid client ∨
      pendingMax ≤ recorded (tr ++ [(r, ((machine cfg).step s r).2)]) ∨
      Young (tr ++ [(r, ((machine cfg).step s r).2)]) ((machine cfg).step s r).1 txid client := by
  have few := young.few
  rcases pending_step cfg s r with
    same | ⟨id, other, _, _, relayed, found⟩ | ⟨id, other, bytes, forwarded, put⟩
  · refine Or.inr (Or.inr ⟨by rw [same]; exact young.holds, ?_⟩)
    rw [same]
    exact few.trans (Nat.add_le_add_left recorded_le_concat 1)
  · rcases young.holds.pendingGet found with pair | kept
    · cases pair
      exact Or.inl (retrieved_last relayed)
    · refine Or.inr (Or.inr ⟨kept, ?_⟩)
      rw [pairs_pendingGet found, Multiset.card_cons] at few
      exact (Nat.le_of_succ_le few).trans (Nat.add_le_add_left recorded_le_concat 1)
  · rw [forwarded, recorded_forwarded]
    by_cases full : Multiset.card (pairs s.pending) < pendingMax
    · rcases Table.card_content_lt_iff.mp full with ⟨slot, member, empty⟩
      have free := (⟨slot, member, Pending.pair_eq_none.mp empty⟩ :
        ∃ slot ∈ s.pending.slots, slot.used = false)
      refine Or.inr (Or.inr ⟨by rw [put]; exact young.holds.pendingPut (Or.inr free), ?_⟩)
      rw [put, pairs_pendingPut_of_free free, Multiset.card_cons, recorded_forwarded]
      omega
    · exact Or.inr (Or.inl (by omega))

/-- The only query of a table is kept until the table has been filled. -/
theorem kept_of_young (young : Young [] s txid client) : Kept cfg s txid client := by
  intro rs notFilled unretrieved
  have history := (machine cfg).trace_history
    (P := fun tr s => Retrieved tr txid client ∨ pendingMax ≤ recorded tr ∨
      Young tr s txid client)
    (Or.inr (Or.inr young)) (fun tr s r kept => ?_) rs
  · rcases history with done | filled | kept
    · exact (unretrieved done).elim
    · exact (Nat.not_lt.mpr filled notFilled).elim
    · exact retrievable_iff.mpr kept.holds.mem_pairs
  · rcases kept with done | filled | kept
    · exact Or.inl done.concat
    · exact Or.inr (Or.inl (filled.trans recorded_le_concat))
    · exact kept.step

/-- With slot `0` taken and another slot free, a query goes beside slot `0`. -/
theorem pendingPut_beside {table : PendingTable} (id : UInt16) (other : SockaddrIn)
    (taken : ∃ slot, table.slots[0]? = some slot ∧ slot.used = true)
    (free : ∃ slot ∈ table.slots, slot.used = false) :
    ∃ i, i ≠ 0 ∧ i < pendingMax ∧
      pendingPut table id other = table.set i ⟨id, other, true⟩ := by
  rcases pendingPut_cases table id other with ⟨i, slot, here, unused, -, put⟩ | ⟨full, -⟩
  · refine ⟨i, ?_, Table.lt_of_getElem? here, put⟩
    intro zero
    subst zero
    obtain ⟨first, there, used⟩ := taken
    rw [here] at there
    rw [← Option.some.inj there, unused] at used
    cases used
  · obtain ⟨slot, member, unused⟩ := free
    rw [full slot member] at unused
    cases unused

/-- The first query of an empty table goes to slot `0`. -/
theorem young_of_empty {table : PendingTable} (put : s.pending = pendingPut table txid client)
    (empty : ∀ slot ∈ table.slots, slot.used = false) : Young [] s txid client := by
  have inside : 0 < table.slots.length := by
    rw [table.length_eq]
    decide
  have first : table.slots[0]? = some table.slots[0] := List.getElem?_eq_getElem inside
  have unused := empty _ (List.getElem_mem inside)
  have none_ : pairs table = 0 := by
    refine Multiset.eq_zero_of_forall_notMem fun pair member => ?_
    rcases Table.mem_content.mp member with ⟨slot, here, held⟩
    rw [Pending.pair_eq_none.mpr (empty slot here)] at held
    cases held
  refine ⟨?_, ?_⟩
  · rcases pendingPut_cases table txid client with ⟨i, slot, here, -, before, at_⟩ | ⟨full, -⟩
    · obtain rfl : i = 0 := by
        by_contra later
        have used := before 0 _ (Nat.pos_of_ne_zero later) first
        rw [unused] at used
        cases used
      rw [put, at_]
      exact ⟨_, Table.getElem?_set_self (by decide), rfl⟩
    · rw [full _ (List.getElem_mem inside)] at unused
      cases unused
  · rw [put, pairs_pendingPut_of_free ⟨_, List.getElem_mem inside, unused⟩, none_]
    simp

/-- A query recorded in a safe table is kept. -/
theorem kept_of_safe {table : PendingTable} (put : s.pending = pendingPut table txid client)
    (safe : Safe table txid client) : Kept cfg s txid client := by
  rcases safe with ⟨taken, free⟩ | empty | beside
  · rcases pendingPut_beside txid client taken free with ⟨i, ne, inside, at_⟩
    refine kept_of_holds ne ⟨⟨txid, client, true⟩, ?_, rfl⟩
    rw [put, at_, Table.getElem?_set_self inside]
  · exact kept_of_young (young_of_empty put empty)
  · rcases mem_others_iff.mp beside with ⟨j, ne, holds⟩
    apply kept_of_holds ne
    rw [put]
    exact holds.pendingPut (Or.inl ne)

end Runs

/-! ## Tables that lose the pair -/

/-- Queries recorded one after the other fill the table and then replace the pair in slot `0`. -/
theorem crowded_out {txid id : UInt16} {client other : SockaddrIn}
    (ne : (id, other) ≠ (txid, client)) (n : ℕ) {table : PendingTable}
    (taken : ∃ slot, table.slots[0]? = some slot ∧ slot.used = true)
    (room : Multiset.card (pairs table) + n = pendingMax)
    (alone : (txid, client) ∉ table.others Pending.pair 0) :
    (txid, client) ∉ pairs ((fun table => pendingPut table id other)^[n + 1] table) := by
  induction n generalizing table with
  | zero =>
      have full : ∀ slot ∈ table.slots, slot.used = true := by
        intro slot member
        by_contra unused
        have := Table.card_content_lt_iff.mpr
          ⟨slot, member, Pending.pair_eq_none.mpr (Bool.eq_false_iff.mpr unused)⟩
        have : Multiset.card (pairs table) < pendingMax := this
        omega
      rcases pairs_pendingPut_of_full id other full with ⟨_, -, -, replaced⟩
      rw [Function.iterate_one, replaced, Multiset.mem_cons]
      intro member
      rcases member with same | rest
      · exact ne same.symm
      · exact alone rest
  | succ n ih =>
      have free : ∃ slot ∈ table.slots, slot.used = false := by
        obtain ⟨slot, member, empty⟩ := Table.card_content_lt_iff.mp
          (show Multiset.card (pairs table) < pendingMax by omega)
        exact ⟨slot, member, Pending.pair_eq_none.mp empty⟩
      rcases pendingPut_beside id other taken free with ⟨i, nonzero, inside, put⟩
      rw [Function.iterate_succ_apply]
      apply ih
      · obtain ⟨slot, here, used⟩ := taken
        exact ⟨slot, by rw [put, Table.getElem?_set_ne nonzero, here], used⟩
      · rw [pairs_pendingPut_of_free free, Multiset.card_cons]
        omega
      · rw [put, mem_others_iff]
        intro member
        rcases member with ⟨j, beside, slot, here, held⟩
        by_cases same : i = j
        · rw [← same, Table.getElem?_set_self inside] at here
          rw [← Option.some.inj here] at held
          exact ne (Pending.pair_eq_some.mp held).2
        · rw [Table.getElem?_set_ne same] at here
          exact alone (mem_others_iff.mpr ⟨j, beside, slot, here, held⟩)

/-- A two-byte datagram whose transaction id is not `txid`. -/
def shortQuery (txid : UInt16) (sender : SockaddrIn) : Recv where
  payload := if txid = 0 then [0, 1] else [0, 0]
  len_le := by split <;> decide
  sender := sender
  ticks := 0

/-- The transaction id of `shortQuery txid`. -/
def shortId (txid : UInt16) : UInt16 := if txid = 0 then 1 else 0

theorem shortId_ne (txid : UInt16) : shortId txid ≠ txid := by
  rw [shortId]
  split
  · rename_i zero
    rw [zero]
    decide
  · rename_i nonzero
    exact fun same => nonzero same.symm

theorem shortQuery_length (txid : UInt16) (sender : SockaddrIn) :
    (shortQuery txid sender).payload.length = 2 := by
  rw [shortQuery]
  split <;> rfl

section Crowd

variable (cfg : Config) (s : State) (txid : UInt16) (sender : SockaddrIn)

/-- A short datagram is neither a response nor looked up: it is recorded and forwarded. -/
theorem shortQuery_step : ∃ bytes,
    ((machine cfg).step s (shortQuery txid sender)).2 =
        .forwarded (shortId txid) sender bytes ∧
      ((machine cfg).step s (shortQuery txid sender)).1.pending =
        pendingPut s.pending (shortId txid) sender := by
  have turn := dnsForwarderTask_turn cfg s (shortQuery txid sender)
  generalize (machine cfg).step s (shortQuery txid sender) = out at turn ⊢
  obtain ⟨s', action⟩ := out
  have length := shortQuery_length txid sender
  have own : txidRead s (shortQuery txid sender) = shortId txid := by
    rw [txidRead_eq length.ge, shortQuery, shortId]
    split
    · exact (by decide : getDnsTxid [0, 1] = 1)
    · exact (by decide : getDnsTxid [0, 0] = 0)
  have silent : (shortQuery txid sender).questionLen = 0 :=
    dnsQuestionLen_of_lt (by rw [length]; decide)
  have query : (shortQuery txid sender).isResponse → False := fun response => by
    have := header_of_isDnsResponse response
    omega
  cases turn with
  | ignored empty =>
      rw [empty] at length
      cases length
  | dropped response | relayed response | stored response => exact (query response).elim
  | answered _ _ asked =>
      rw [silent] at asked
      cases asked
  | forwarded =>
      rw [own]
      exact ⟨_, rfl, rfl⟩

/-- A run of short datagrams records each of them and retrieves nothing. -/
theorem shortQuery_run (n : ℕ) :
    let rs := List.replicate n (shortQuery txid sender)
    ((machine cfg).exec s rs).pending =
        (fun table => pendingPut table (shortId txid) sender)^[n] s.pending ∧
      recorded ((machine cfg).trace s rs) = n ∧
      ∀ id client, ¬ Retrieved ((machine cfg).trace s rs) id client := by
  induction n generalizing s with
  | zero => exact ⟨rfl, rfl, fun id client ⟨_, _, _, member⟩ => by cases member⟩
  | succ n ih =>
      rcases shortQuery_step cfg s txid sender with ⟨bytes, forwarded, put⟩
      rcases ih ((machine cfg).step s (shortQuery txid sender)).1 with ⟨run, count, none_⟩
      refine ⟨?_, ?_, fun id client retrieved => ?_⟩
      · rw [List.replicate_succ, Machine.exec_cons, run, put, Function.iterate_succ_apply]
      · rw [List.replicate_succ, Machine.trace_cons, recorded, List.countP_cons, ← recorded,
          count, forwarded]
        rfl
      · obtain ⟨q, b, stored, member⟩ := retrieved
        rw [List.replicate_succ, Machine.trace_cons, List.mem_cons] at member
        rcases member with head | rest
        · rw [forwarded] at head
          cases head
        · exact none_ id client ⟨q, b, stored, rest⟩

end Crowd

/-- In a table that is not safe the query goes to slot `0`, beside other queries. -/
theorem pendingPut_of_not_safe {table : PendingTable} {txid : UInt16} {client : SockaddrIn}
    (unsafe_ : ¬ Safe table txid client) :
    pendingPut table txid client = table.set 0 ⟨txid, client, true⟩ ∧
      (txid, client) ∉ table.others Pending.pair 0 ∧ table.others Pending.pair 0 ≠ 0 := by
  simp only [Safe, not_or] at unsafe_
  obtain ⟨crowded, occupied, alone⟩ := unsafe_
  refine ⟨?_, alone, fun nobody => occupied fun slot member => ?_⟩
  · rcases pendingPut_cases table txid client with ⟨i, slot, here, unused, before, put⟩ | ⟨-, put⟩
    · obtain rfl : i = 0 := by
        by_contra later
        have inside : 0 < table.slots.length := by
          rw [table.length_eq]
          decide
        have first : table.slots[0]? = some table.slots[0] := List.getElem?_eq_getElem inside
        exact crowded ⟨⟨_, first, before 0 _ (Nat.pos_of_ne_zero later) first⟩,
          slot, List.mem_of_getElem? here, unused⟩
      exact put
    · exact put
  · -- every slot beside slot `0` is empty, so a used slot `0` would leave the table safe
    have beside : ∀ j other, j ≠ 0 → table.slots[j]? = some other → other.used = false := by
      intro j other ne there
      by_contra used
      have held : (other.txid, other.client) ∈ table.others Pending.pair 0 :=
        Table.mem_others.mpr ⟨j, other, ne, there,
          Pending.pair_eq_some.mpr ⟨Bool.eq_true_of_not_eq_false used, rfl⟩⟩
      rw [nobody] at held
      exact Multiset.notMem_zero _ held
    have one : 1 < table.slots.length := by
      rw [table.length_eq]
      decide
    rcases List.mem_iff_getElem.mp member with ⟨k, inside, rfl⟩
    have here : table.slots[k]? = some table.slots[k] := List.getElem?_eq_getElem inside
    by_cases zero : k = 0
    · subst zero
      by_contra used
      exact crowded ⟨⟨_, here, Bool.eq_true_of_not_eq_false used⟩, table.slots[1],
        List.getElem_mem one, beside 1 _ (by decide) (List.getElem?_eq_getElem one)⟩
    · exact beside k _ zero here

/-- A query recorded in a table that is not safe can be crowded out before `pendingMax` further
queries are recorded. -/
theorem not_kept_of_not_safe {cfg : Config} {s : State} {table : PendingTable} {txid : UInt16}
    {client : SockaddrIn} (put : s.pending = pendingPut table txid client)
    (unsafe_ : ¬ Safe table txid client) : ¬ Kept cfg s txid client := by
  intro kept
  rcases pendingPut_of_not_safe unsafe_ with ⟨zero, alone, crowd⟩
  have taken : ∃ slot, s.pending.slots[0]? = some slot ∧ slot.used = true :=
    ⟨_, by rw [put, zero]; exact Table.getElem?_set_self (by decide), rfl⟩
  have same : s.pending.others Pending.pair 0 = table.others Pending.pair 0 := by
    rw [put, zero, Table.others, Table.set_slots, List.eraseIdx_set_eq]
    rfl
  have content : pairs s.pending = (txid, client) ::ₘ table.others Pending.pair 0 := by
    rw [put, zero, pairs, Table.content_set (by decide)]
    rfl
  have two : 2 ≤ Multiset.card (pairs s.pending) := by
    rw [content, Multiset.card_cons]
    have := Multiset.card_pos.mpr crowd
    omega
  have most : Multiset.card (pairs s.pending) ≤ pendingMax := Table.card_content_le
  rcases Nat.exists_eq_add_of_le most with ⟨n, room⟩
  rcases shortQuery_run cfg s txid client (n + 1) with ⟨run, count, none_⟩
  have lost := crowded_out (fun pair => shortId_ne txid (Prod.mk.inj pair).1 :
    (shortId txid, client) ≠ (txid, client)) n taken room.symm (by rw [same]; exact alone)
  have found := kept _ (by rw [count]; omega) (none_ txid client)
  rw [run] at found
  exact lost (retrievable_iff.mp found)

theorem pending_of_forwarded {cfg : Config} {s : State} {r : Recv} {txid : UInt16}
    {client : SockaddrIn} {bytes : List UInt8}
    (forwarded : ((machine cfg).step s r).2 = .forwarded txid client bytes) :
    ((machine cfg).step s r).1.pending = pendingPut s.pending txid client := by
  have turn := dnsForwarderTask_turn cfg s r
  generalize (machine cfg).step s r = out at turn forwarded ⊢
  obtain ⟨s', action⟩ := out
  cases turn with
  | ignored | dropped | relayed | stored | answered => cases forwarded
  | forwarded =>
      cases forwarded
      rfl

/-- **When a recorded query is kept.** In every state the forwarder reaches, a query it records
stays retrievable until it is retrieved or `pendingMax` further queries have been recorded if and
only if it is recorded in a safe table. -/
theorem kept_iff_safe {cfg : Config} {buf : Table UInt8 dnsMaxPayload} {before : List Recv}
    {r : Recv} {txid : UInt16} {client : SockaddrIn} {bytes : List UInt8}
    (forwarded : ((machine cfg).step ((machine cfg).exec (start buf) before) r).2 =
      .forwarded txid client bytes) :
    Kept cfg ((machine cfg).step ((machine cfg).exec (start buf) before) r).1 txid client ↔
      Safe ((machine cfg).exec (start buf) before).pending txid client := by
  have put := pending_of_forwarded forwarded
  refine ⟨fun kept => ?_, kept_of_safe put⟩
  by_contra unsafe_
  exact not_kept_of_not_safe put unsafe_ kept

theorem kept_iff_safe_first_query :
    ((machine shippedConfig).step ((machine shippedConfig).exec (start zeroBuf) [])
        (datagram clientA 0 [0, 7])).2 = .forwarded 7 clientA [0, 7] ∧
      Kept shippedConfig
        ((machine shippedConfig).step ((machine shippedConfig).exec (start zeroBuf) [])
          (datagram clientA 0 [0, 7])).1 7 clientA := by
  have forwarded : ((machine shippedConfig).step ((machine shippedConfig).exec (start zeroBuf) [])
      (datagram clientA 0 [0, 7])).2 = .forwarded 7 clientA [0, 7] := by decide +kernel
  exact ⟨forwarded, (kept_iff_safe forwarded).mpr (Or.inr (Or.inl (by decide)))⟩

/-- Sixteen queries of client A, with the transaction ids `0` to `15`. -/
def fullRun : List Recv :=
  (List.range pendingMax).map fun k => datagram clientA k [0, UInt8.ofNat k]

/-- **A recorded query can be lost at the very next one.** With sixteen queries outstanding, a query
of client B takes slot `0`, and the next query of client B takes it again. -/
theorem not_kept_after_fullRun :
    ¬ ∀ (cfg : Config) (buf : Table UInt8 dnsMaxPayload) (before : List Recv) (r : Recv)
        (txid : UInt16) (client : SockaddrIn) (bytes : List UInt8),
      ((machine cfg).step ((machine cfg).exec (start buf) before) r).2 =
          .forwarded txid client bytes →
        Kept cfg ((machine cfg).step ((machine cfg).exec (start buf) before) r).1 txid client := by
  intro promise
  have kept := promise shippedConfig zeroBuf fullRun (datagram clientB 16 [1, 0]) 256 clientB [1, 0]
    (by decide +kernel)
  have none_ := (shortQuery_run shippedConfig
    ((machine shippedConfig).step ((machine shippedConfig).exec (start zeroBuf) fullRun)
      (datagram clientB 16 [1, 0])).1 256 clientB 1).2.2
  have found := retrievable_iff.mp (kept [shortQuery 256 clientB] (by decide +kernel)
    (none_ 256 clientB))
  revert found
  decide +kernel

end HalowBridge.Dns
