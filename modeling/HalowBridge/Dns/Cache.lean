import HalowBridge.Dns.Forwarder
import Mathlib.Algebra.Group.Nat.Defs

/-!
# Answers from the response cache

The cache is keyed by the 32-bit question hash and holds an entry until the second counter passes
its expiry time. `Backed` is the invariant that both uses of the cache rest on: whatever a filled
slot holds was put there by a response of the run, the last one stored in that slot.

An answer is *sound* when it asks what the query asked. It is for every run without a hash
collision between a query and an earlier response (`soundAnswers_of_collisionFree`). An answer is
*fresh* when less than the time to live has passed since it was stored. It is for every run in which
no entry as old as that outlives a wrap of the millisecond clock (`freshAnswers_of_unwrapped`).
-/

namespace HalowBridge.Dns

/-! ## Where the entries come from -/

/-- The response a trace stored last in a slot of the cache. -/
def lastStore (tr : List (Recv × Action)) (slot : ℕ) : Option Recv :=
  tr.foldl (fun found turn => match turn.2 with
    | .relayed _ _ _ (some i) => if i = slot then some turn.1 else found
    | _ => found) none

/-- The entry the response `w` is stored as. -/
structure StoredFrom (cfg : Config) (w : Recv) (entry : CacheEntry) : Prop where
  response : w.isResponse
  asked : 0 < w.questionLen
  key : entry.key = w.questionHash
  payload : entry.payload = w.payload
  expireSec : entry.expireSec = cfg.nowSec w.ticks + cacheTtlSec

/-- Every filled slot holds the response that was stored in it last. -/
def Backed (cfg : Config) (tr : List (Recv × Action)) (s : State) : Prop :=
  ∀ slot entry, s.cache.slots[slot]? = some entry → 0 < entry.payload.length →
    ∃ w action, lastStore tr slot = some w ∧ (w, action) ∈ tr ∧ StoredFrom cfg w entry

theorem cacheLookup_eq_some {table : CacheTable} {key nowSec : UInt32} {slot : ℕ}
    {entry : CacheEntry} (found : cacheLookup table key nowSec = some (slot, entry)) :
    table.slots[slot]? = some entry ∧ 0 < entry.payload.length ∧ entry.key = key ∧
      nowSec < entry.expireSec := by
  simp only [cacheLookup, Option.bind_eq_bind, Option.bind_eq_some_iff, Option.pure_def,
    Option.some.injEq, Prod.mk.injEq] at found
  obtain ⟨i, first, e, here, rfl, rfl⟩ := found
  rcases Table.firstIdx_eq_some first with ⟨same, there, pass, -⟩
  obtain rfl : same = e := Option.some.inj (there.symm.trans here)
  simp only [Bool.and_eq_true, decide_eq_true_eq, beq_iff_eq] at pass
  exact ⟨here, pass.1.1, pass.1.2, pass.2⟩

/-- After a store a slot holds what it held, or it is the slot written. -/
theorem getElem?_cacheStore {table : CacheTable} {key nowSec : UInt32} {payload : List UInt8}
    {slot : ℕ} {entry : CacheEntry} (fits : payload.length ≤ dnsMaxPayload)
    (here : (cacheStore table key payload nowSec).slots[slot]? = some entry) :
    (slot = cacheSlot table nowSec ∧ entry = ⟨key, nowSec + cacheTtlSec, payload, fits⟩) ∨
      (slot ≠ cacheSlot table nowSec ∧ table.slots[slot]? = some entry) := by
  rw [cacheStore, dif_pos fits] at here
  by_cases same : slot = cacheSlot table nowSec
  · have inside := Table.lt_of_getElem? here
    rw [← same, Table.getElem?_set_self inside, Option.some.injEq] at here
    exact Or.inl ⟨same, here.symm⟩
  · rw [Table.getElem?_set_ne (Ne.symm same)] at here
    exact Or.inr ⟨same, here⟩

section Stores

variable {cfg : Config} {tr : List (Recv × Action)} {s s' : State} {r : Recv} {action : Action}

theorem lastStore_concat_stored {txid : UInt16} {client : SockaddrIn} {bytes : List UInt8}
    {slot i : ℕ} : lastStore (tr ++ [(r, .relayed txid client bytes (some i))]) slot =
      if i = slot then some r else lastStore tr slot := by
  rw [lastStore, List.foldl_append]
  rfl

/-- A turn that stores nothing leaves the record of stores. -/
theorem lastStore_concat (silent : ∀ txid client bytes i,
    action ≠ .relayed txid client bytes (some i)) (slot : ℕ) :
    lastStore (tr ++ [(r, action)]) slot = lastStore tr slot := by
  rw [lastStore, List.foldl_append]
  cases action with
  | relayed txid client bytes stored =>
      cases stored with
      | none => rfl
      | some i => exact (silent txid client bytes i rfl).elim
  | ignored | dropped | answered | forwarded => rfl

theorem Backed.silent (backed : Backed cfg tr s) (same : s'.cache = s.cache)
    (silent : ∀ txid client bytes i, action ≠ .relayed txid client bytes (some i)) :
    Backed cfg (tr ++ [(r, action)]) s' := by
  intro slot entry here filled
  rw [same] at here
  rcases backed slot entry here filled with ⟨w, cause, last, member, stored⟩
  exact ⟨w, cause, by rw [lastStore_concat silent, last], List.mem_append_left _ member, stored⟩

/-- A stored response backs the slot it is written to. -/
theorem Backed.store {txid : UInt16} {client : SockaddrIn} {bytes : List UInt8}
    (backed : Backed cfg tr s) (response : r.isResponse) (asked : 0 < r.questionLen)
    (store : s'.cache = cacheStore s.cache r.questionHash r.payload (cfg.nowSec r.ticks)) :
    Backed cfg (tr ++ [(r, .relayed txid client bytes
      (some (cacheSlot s.cache (cfg.nowSec r.ticks))))]) s' := by
  intro slot entry here filled
  rw [store] at here
  rw [lastStore_concat_stored]
  rcases getElem?_cacheStore r.len_le here with ⟨rfl, rfl⟩ | ⟨ne, old⟩
  · exact ⟨r, _, if_pos rfl, List.mem_append_right _ (List.mem_singleton_self _),
      ⟨response, asked, rfl, rfl, rfl⟩⟩
  · rcases backed slot entry old filled with ⟨w, cause, last, member, stored⟩
    exact ⟨w, cause, by rw [if_neg ne.symm, last], List.mem_append_left _ member, stored⟩

end Stores

theorem Backed.start (cfg : Config) (buf : Table UInt8 dnsMaxPayload) :
    Backed cfg [] (start buf) := by
  intro slot entry here filled
  have empty : entry ∈ (Table.fill cacheEntries (⟨0, 0, [], Nat.zero_le _⟩ : CacheEntry)).slots :=
    List.mem_of_getElem? here
  rw [List.eq_of_mem_replicate empty] at filled
  cases filled

theorem Backed.step {cfg : Config} {tr : List (Recv × Action)} {s : State} {r : Recv}
    (backed : Backed cfg tr s) :
    Backed cfg (tr ++ [(r, ((machine cfg).step s r).2)]) ((machine cfg).step s r).1 := by
  have turn := dnsForwarderTask_turn cfg s r
  generalize (machine cfg).step s r = out at turn ⊢
  obtain ⟨s', action⟩ := out
  cases turn with
  | ignored | dropped | relayed | answered | forwarded => exact backed.silent rfl nofun
  | stored response _ asked => exact backed.store response asked rfl

/-- In every run the filled slots hold the responses stored in them last. -/
theorem backed (cfg : Config) (buf : Table UInt8 dnsMaxPayload) (rs : List Recv) :
    Backed cfg ((machine cfg).trace (start buf) rs) ((machine cfg).exec (start buf) rs) :=
  (machine cfg).trace_history (Backed.start cfg buf) (fun _ _ _ kept => kept.step) rs

/-- An answer is a stored response of the run that has the hash of the query and has not expired,
sent under the transaction id of the query. -/
theorem answered_of_step {cfg : Config} {tr : List (Recv × Action)} {s : State} {r : Recv}
    {txid : UInt16} {client : SockaddrIn} {bytes : List UInt8} {slot : ℕ}
    (backed : Backed cfg tr s)
    (answered : ((machine cfg).step s r).2 = .answered txid client bytes slot) :
    r.isResponse = false ∧ 0 < r.questionLen ∧
      ∃ w action, lastStore tr slot = some w ∧ (w, action) ∈ tr ∧ w.isResponse ∧
        0 < w.questionLen ∧ w.questionHash = r.questionHash ∧
        cfg.nowSec r.ticks < cfg.nowSec w.ticks + cacheTtlSec ∧
        bytes = setDnsTxid w.payload txid := by
  have turn := dnsForwarderTask_turn cfg s r
  generalize (machine cfg).step s r = out at turn answered
  obtain ⟨s', action⟩ := out
  cases turn with
  | ignored | dropped | relayed | stored | forwarded => cases answered
  | answered _ query asked found =>
      cases answered
      rcases cacheLookup_eq_some found with ⟨here, filled, key, alive⟩
      rcases backed _ _ here filled with ⟨w, cause, last, member, stored⟩
      rw [stored.expireSec] at alive
      rw [stored.key] at key
      rw [stored.payload]
      exact ⟨query, asked, w, cause, last, member, stored.response, stored.asked, key, alive, rfl⟩

/-! ## Answers ask what the query asked -/

/-- Whenever a query of the run is answered from the cache, the answer has its question. -/
def SoundAnswers (cfg : Config) (s₀ : State) (rs : List Recv) : Prop :=
  ∀ before r txid client bytes slot, before ++ [r] <+: rs →
    ((machine cfg).step ((machine cfg).exec s₀ before) r).2 = .answered txid client bytes slot →
      question bytes = question r.payload

/-- No query of the run shares its question hash with an earlier response to another question. -/
def CollisionFree (rs : List Recv) : Prop :=
  ∀ before r, before ++ [r] <+: rs → r.isResponse = false → 0 < r.questionLen →
    ∀ w ∈ before, w.isResponse → 0 < w.questionLen → w.questionHash = r.questionHash →
      question w.payload = question r.payload

/-- **Answers from the cache are sound in runs without a hash collision.** -/
theorem soundAnswers_of_collisionFree {cfg : Config} {buf : Table UInt8 dnsMaxPayload}
    {rs : List Recv} (free : CollisionFree rs) : SoundAnswers cfg (start buf) rs := by
  intro before r txid client bytes slot here answered
  obtain ⟨query, asked, w, _, -, member, response, askedToo, hash, -, rfl⟩ :=
    answered_of_step (backed cfg buf before) answered
  rw [question_setDnsTxid]
  exact free before r here query asked w ((machine cfg).mem_of_mem_trace member) response
    askedToo hash

/-- A query that was answered upstream is asked again. -/
def repeatedRun : List Recv :=
  [datagram clientA 0 (oneQuestion 0x01 7 [65, 97]),
    datagram shippedConfig.upstream 5 (oneQuestion 0x81 7 [65, 97]),
    datagram clientB 9 (oneQuestion 0x01 8 [65, 97])]

theorem soundAnswers_of_collisionFree_repeatedRun :
    CollisionFree repeatedRun ∧ SoundAnswers shippedConfig (start zeroBuf) repeatedRun := by
  have free : CollisionFree repeatedRun := by
    intro before r here _ _ w earlier
    have asks : ∀ d ∈ repeatedRun, question d.payload = question (oneQuestion 0 0 [65, 97]) := by
      decide +kernel
    intro _ _ _
    rw [asks w (here.subset (List.mem_append_left _ earlier)),
      asks r (here.subset (List.mem_append_right _ (List.mem_singleton_self _)))]
  exact ⟨free, soundAnswers_of_collisionFree free⟩

/-- A query whose label has the hash of a label answered before. -/
def collidingRun : List Recv :=
  [datagram clientA 0 (oneQuestion 0x01 7 [65, 97]),
    datagram shippedConfig.upstream 5 (oneQuestion 0x81 7 [65, 97]),
    datagram clientB 9 (oneQuestion 0x01 8 [66, 66])]

/-- **An answer can be for another name.** The labels `Aa` and `BB` have one hash, so a query for
the second is answered with the cached response for the first. -/
theorem not_soundAnswers_collidingRun :
    ¬ ∀ (cfg : Config) (buf : Table UInt8 dnsMaxPayload) (rs : List Recv),
      SoundAnswers cfg (start buf) rs := by
  intro promise
  have same := promise shippedConfig zeroBuf collidingRun (collidingRun.take 2)
    (datagram clientB 9 (oneQuestion 0x01 8 [66, 66])) 8 clientB (oneQuestion 0x81 8 [65, 97]) 0
    (List.prefix_refl _) (by decide +kernel)
  revert same
  decide +kernel

/-! ## Answers are younger than the time to live -/

/-- The time to live, in milliseconds. -/
def cacheTtlMs : ℕ := 1000 * cacheTtlSec.toNat

/-- The milliseconds between two tick counts. -/
def Config.elapsedMs (cfg : Config) (since now : ℕ) : ℕ := (now - since) * cfg.portTickPeriodMs

/-- The number of times the 32-bit millisecond product has wrapped. -/
def Config.wraps (cfg : Config) (ticks : ℕ) : ℕ := ticks * cfg.portTickPeriodMs / 2 ^ 32

/-- Whenever a query of the run is answered from the cache, less than the time to live has passed
since the answer was stored. -/
def FreshAnswers (cfg : Config) (s₀ : State) (rs : List Recv) : Prop :=
  ∀ before r txid client bytes slot, before ++ [r] <+: rs →
    ((machine cfg).step ((machine cfg).exec s₀ before) r).2 = .answered txid client bytes slot →
      ∃ w, lastStore ((machine cfg).trace s₀ before) slot = some w ∧
        cfg.elapsedMs w.ticks r.ticks < cacheTtlMs

/-- When a query arrives, every cached response is younger than the time to live or was stored
since the clock wrapped last. -/
def Unwrapped (cfg : Config) (tr : List (Recv × Action)) (_ : State) (r : Recv) : Prop :=
  r.isResponse = false → ∀ slot w, lastStore tr slot = some w →
    cfg.elapsedMs w.ticks r.ticks < cacheTtlMs ∨ cfg.wraps w.ticks = cfg.wraps r.ticks

theorem nowSec_toNat (cfg : Config) (ticks : ℕ) :
    (cfg.nowSec ticks).toNat = ticks * cfg.portTickPeriodMs % 2 ^ 32 / 1000 := by
  rw [Config.nowSec, UInt32.toNat_div, UInt32.toNat_mul, UInt32.toNat_ofNat', UInt32.toNat_ofNat',
    ← Nat.mul_mod]
  rfl

/-- The expiry time does not wrap: the second counter stays far below the width of the word. -/
theorem expireSec_toNat (cfg : Config) (ticks : ℕ) :
    (cfg.nowSec ticks + cacheTtlSec).toNat = (cfg.nowSec ticks).toNat + 120 := by
  have small : (cfg.nowSec ticks).toNat ≤ 4294967 := by
    rw [nowSec_toNat]
    omega
  have ttl : cacheTtlSec.toNat = 120 := rfl
  rw [UInt32.toNat_add, ttl]
  omega

/-- Within one period of the clock, an entry that has not expired is younger than the time to
live. -/
theorem elapsedMs_lt {cfg : Config} {since now : ℕ} (period : cfg.wraps since = cfg.wraps now)
    (alive : cfg.nowSec now < cfg.nowSec since + cacheTtlSec) :
    cfg.elapsedMs since now < cacheTtlMs := by
  rw [UInt32.lt_iff_toNat_lt, expireSec_toNat, nowSec_toNat, nowSec_toNat] at alive
  have ttl : cacheTtlMs = 120000 := rfl
  rw [Config.elapsedMs, Nat.sub_mul, ttl]
  simp only [Config.wraps] at period
  omega

/-- **Answers from the cache are fresh while no old entry outlives a wrap of the clock.** -/
theorem freshAnswers_of_unwrapped {cfg : Config} {buf : Table UInt8 dnsMaxPayload}
    {rs : List Recv} (unwrapped : (machine cfg).Guarded (Unwrapped cfg) (start buf) rs) :
    FreshAnswers cfg (start buf) rs := by
  intro before r txid client bytes slot here answered
  obtain ⟨query, -, w, _, last, -, -, -, -, alive, -⟩ :=
    answered_of_step (backed cfg buf before) answered
  refine ⟨w, last, ?_⟩
  rcases unwrapped before r here query slot w last with young | period
  · exact young
  · exact elapsedMs_lt period alive

theorem mem_of_lastStore {tr : List (Recv × Action)} {slot : ℕ} {w : Recv}
    (last : lastStore tr slot = some w) : ∃ action, (w, action) ∈ tr := by
  induction tr using List.reverseRecOn with
  | nil => cases last
  | append_singleton tr turn ih =>
      obtain ⟨r, action⟩ := turn
      by_cases same : lastStore (tr ++ [(r, action)]) slot = lastStore tr slot
      · rw [same] at last
        rcases ih last with ⟨cause, member⟩
        exact ⟨cause, List.mem_append_left _ member⟩
      · refine ⟨action, List.mem_append_right _ (List.mem_singleton.mpr ?_)⟩
        by_cases silent : ∀ txid client bytes i, action ≠ .relayed txid client bytes (some i)
        · exact (same (lastStore_concat silent slot)).elim
        · push Not at silent
          obtain ⟨txid, client, bytes, i, rfl⟩ := silent
          rw [lastStore_concat_stored] at same last
          split at last
          · rw [Option.some.inj last]
          · rename_i other
            rw [if_neg other] at same
            exact (same rfl).elim

/-- A run that ends before the millisecond clock first wraps is unwrapped throughout. -/
theorem unwrapped_of_uptime {cfg : Config} {s₀ : State} {rs : List Recv}
    (uptime : ∀ r ∈ rs, r.ticks * cfg.portTickPeriodMs < 2 ^ 32) :
    (machine cfg).Guarded (Unwrapped cfg) s₀ rs := by
  intro before r here _ slot w last
  rcases mem_of_lastStore last with ⟨_, member⟩
  have earlier := (machine cfg).mem_of_mem_trace member
  apply Or.inr
  rw [Config.wraps, Config.wraps,
    Nat.div_eq_of_lt (uptime w (here.subset (List.mem_append_left _ earlier))),
    Nat.div_eq_of_lt
      (uptime r (here.subset (List.mem_append_right _ (List.mem_singleton_self _))))]

theorem freshAnswers_of_unwrapped_repeatedRun :
    (machine shippedConfig).Guarded (Unwrapped shippedConfig) (start zeroBuf) repeatedRun ∧
      FreshAnswers shippedConfig (start zeroBuf) repeatedRun := by
  have unwrapped : (machine shippedConfig).Guarded (Unwrapped shippedConfig) (start zeroBuf)
      repeatedRun := unwrapped_of_uptime (by decide +kernel)
  exact ⟨unwrapped, freshAnswers_of_unwrapped unwrapped⟩

/-- A query is answered 1000 s after boot and asked again 1 s after the clock has wrapped. -/
def wrappedRun : List Recv :=
  [datagram clientA 1000000 (oneQuestion 0x01 7 [65, 97]),
    datagram shippedConfig.upstream 1000005 (oneQuestion 0x81 7 [65, 97]),
    datagram clientB (2 ^ 32 + 1000) (oneQuestion 0x01 8 [65, 97])]

/-- **An answer can be seven weeks old.** -/
theorem not_freshAnswers_wrappedRun :
    ¬ ∀ (cfg : Config) (buf : Table UInt8 dnsMaxPayload) (rs : List Recv),
      rs.Pairwise (fun r r' => r.ticks ≤ r'.ticks) → FreshAnswers cfg (start buf) rs := by
  intro promise
  obtain ⟨w, last, young⟩ := promise shippedConfig zeroBuf wrappedRun (by decide +kernel)
    (wrappedRun.take 2) (datagram clientB (2 ^ 32 + 1000) (oneQuestion 0x01 8 [65, 97])) 8 clientB
    (oneQuestion 0x81 8 [65, 97]) 0 (List.prefix_refl _) (by decide +kernel)
  have stored : lastStore ((machine shippedConfig).trace (start zeroBuf) (wrappedRun.take 2)) 0 =
      some (datagram shippedConfig.upstream 1000005 (oneQuestion 0x81 7 [65, 97])) := by
    decide +kernel
  obtain rfl := Option.some.inj (stored.symm.trans last)
  revert young
  decide +kernel

end HalowBridge.Dns
