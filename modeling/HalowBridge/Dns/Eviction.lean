import HalowBridge.Dns.Forwarder

/-!
# Which cached response makes room

`cache_store` promises to evict the oldest entry or to fill the first empty one. Its scan begins
with `now_sec + 1` in place of the time of an entry, so that an entry that has not expired is never
considered: once all entries are live, slot `0` is overwritten again and again.

`storesInPlace_iff` says for which tables the scan finds an empty slot or the oldest entry.
-/

namespace HalowBridge.Dns

/-- The slot is empty, or it holds an oldest entry of a full table. -/
def Evictable (table : CacheTable) (slot : ℕ) : Prop :=
  ∃ old, table.slots[slot]? = some old ∧
    (old.payload = [] ∨
      (∀ entry ∈ table.slots, entry.payload ≠ []) ∧
        ∀ entry ∈ table.slots, old.expireSec ≤ entry.expireSec)

/-- The response is stored in an evictable slot and nowhere else. -/
structure StoresInPlace (table : CacheTable) (key : UInt32) (payload : List UInt8)
    (len_le : payload.length ≤ dnsMaxPayload) (nowSec : UInt32) : Prop where
  evictable : Evictable table (cacheSlot table nowSec)
  stored : (cacheStore table key payload nowSec).slots[cacheSlot table nowSec]? =
    some ⟨key, nowSec + cacheTtlSec, payload, len_le⟩
  kept : ∀ slot, slot ≠ cacheSlot table nowSec →
    (cacheStore table key payload nowSec).slots[slot]? = table.slots[slot]?

/-- The tables in which the scan does what it promises. -/
def FindsOldest (table : CacheTable) (nowSec : UInt32) : Prop :=
  (∃ entry ∈ table.slots, entry.payload = []) ∨
    (∃ entry ∈ table.slots, entry.expireSec < nowSec + 1) ∨
    ∃ first ∈ table.slots[0]?, ∀ entry ∈ table.slots, first.expireSec ≤ entry.expireSec

instance (table : CacheTable) (nowSec : UInt32) : Decidable (FindsOldest table nowSec) :=
  inferInstanceAs (Decidable (_ ∨ _))

/-! ## The scan -/

/-- What the scan ends with: an empty entry, or the oldest entry before `oldest`, or the slot it
was given. -/
inductive Scanned (entries : List CacheEntry) (i : ℕ) (oldest : UInt32) (slot : ℕ) : ℕ → Prop
  | empty {k : ℕ} {entry : CacheEntry} : entries[k]? = some entry → entry.payload = [] →
      Scanned entries i oldest slot (i + k)
  | older {k : ℕ} {entry : CacheEntry} : (∀ entry ∈ entries, entry.payload ≠ []) →
      entries[k]? = some entry → entry.expireSec < oldest →
      (∀ other ∈ entries, entry.expireSec ≤ other.expireSec) →
      Scanned entries i oldest slot (i + k)
  | none : (∀ entry ∈ entries, entry.payload ≠ []) →
      (∀ entry ∈ entries, oldest ≤ entry.expireSec) → Scanned entries i oldest slot slot

section

variable {head : CacheEntry} {rest : List CacheEntry} {i slot found : ℕ} {oldest : UInt32}

/-- An empty entry of the rest. -/
theorem Scanned.cons_empty {k : ℕ} {entry : CacheEntry} (here : rest[k]? = some entry)
    (isEmpty : entry.payload = []) : Scanned (head :: rest) i oldest slot (i + 1 + k) := by
  rw [Nat.add_assoc, Nat.add_comm 1]
  exact .empty (by simpa using here) isEmpty

/-- The oldest entry of the rest, where the head is not older. -/
theorem Scanned.cons_oldest {k : ℕ} {entry : CacheEntry} (filled : head.payload ≠ [])
    (full : ∀ other ∈ rest, other.payload ≠ []) (here : rest[k]? = some entry)
    (before : entry.expireSec < oldest) (le : entry.expireSec ≤ head.expireSec)
    (least : ∀ other ∈ rest, entry.expireSec ≤ other.expireSec) :
    Scanned (head :: rest) i oldest slot (i + 1 + k) := by
  rw [Nat.add_assoc, Nat.add_comm 1]
  refine .older ?_ (by simpa using here) before ?_
  · exact List.forall_mem_cons.mpr ⟨filled, full⟩
  · exact List.forall_mem_cons.mpr ⟨le, least⟩

/-- A turn that finds an older entry goes on with it. -/
theorem Scanned.cons_older (filled : head.payload ≠ []) (older : head.expireSec < oldest)
    (scanned : Scanned rest (i + 1) head.expireSec i found) :
    Scanned (head :: rest) i oldest slot found := by
  cases scanned with
  | empty here isEmpty => exact .cons_empty here isEmpty
  | older full here before least =>
      exact .cons_oldest filled full here (UInt32.lt_trans before older) (UInt32.le_of_lt before)
        least
  | none full least =>
      refine .older (k := 0) ?_ rfl older ?_
      · exact List.forall_mem_cons.mpr ⟨filled, full⟩
      · exact List.forall_mem_cons.mpr ⟨UInt32.le_refl _, least⟩

/-- A turn that does not keeps what it has. -/
theorem Scanned.cons_later (filled : head.payload ≠ []) (later : oldest ≤ head.expireSec)
    (scanned : Scanned rest (i + 1) oldest slot found) :
    Scanned (head :: rest) i oldest slot found := by
  cases scanned with
  | empty here isEmpty => exact .cons_empty here isEmpty
  | older full here before least =>
      exact .cons_oldest filled full here before
        (UInt32.le_trans (UInt32.le_of_lt before) later) least
  | none full least =>
      refine .none ?_ ?_
      · exact List.forall_mem_cons.mpr ⟨filled, full⟩
      · exact List.forall_mem_cons.mpr ⟨later, least⟩

end

theorem scanned_evictScan (entries : List CacheEntry) (i : ℕ) (oldest : UInt32) (slot : ℕ) :
    Scanned entries i oldest slot (evictScan entries i oldest slot) := by
  induction entries generalizing i oldest slot with
  | nil => exact .none (fun _ member => by cases member) (fun _ member => by cases member)
  | cons head rest ih =>
      rw [evictScan]
      split_ifs with empty older
      · exact .empty (k := 0) rfl (List.eq_nil_of_length_eq_zero empty)
      · have filled : head.payload ≠ [] := fun nil => empty (by rw [nil]; rfl)
        exact (ih (i + 1) head.expireSec i).cons_older filled older
      · have filled : head.payload ≠ [] := fun nil => empty (by rw [nil]; rfl)
        exact (ih (i + 1) oldest slot).cons_later filled (UInt32.not_lt.mp older)

theorem scanned_cacheSlot (table : CacheTable) (nowSec : UInt32) :
    Scanned table.slots 0 (nowSec + 1) 0 (cacheSlot table nowSec) :=
  scanned_evictScan _ _ _ _

theorem exists_first (table : CacheTable) : ∃ first, table.slots[0]? = some first := by
  have inside : 0 < table.slots.length := by
    rw [table.length_eq]
    exact Nat.succ_pos 15
  exact ⟨_, List.getElem?_eq_getElem inside⟩

theorem evictable_iff (table : CacheTable) (nowSec : UInt32) :
    Evictable table (cacheSlot table nowSec) ↔ FindsOldest table nowSec := by
  have scanned := scanned_cacheSlot table nowSec
  generalize cacheSlot table nowSec = slot at scanned ⊢
  cases scanned with
  | @empty k entry here isEmpty =>
      rw [Nat.zero_add]
      exact iff_of_true ⟨entry, here, .inl isEmpty⟩
        (.inl ⟨entry, List.mem_of_getElem? here, isEmpty⟩)
  | @older k entry full here before least =>
      rw [Nat.zero_add]
      exact iff_of_true ⟨entry, here, .inr ⟨full, least⟩⟩
        (.inr (.inl ⟨entry, List.mem_of_getElem? here, before⟩))
  | none full later =>
      rcases exists_first table with ⟨first, here⟩
      constructor
      · rintro ⟨old, there, isEmpty | ⟨-, least⟩⟩
        · exact absurd isEmpty (full old (List.mem_of_getElem? there))
        · exact .inr (.inr ⟨old, there, least⟩)
      · rintro (⟨entry, member, isEmpty⟩ | ⟨entry, member, before⟩ | ⟨first, here, least⟩)
        · exact absurd isEmpty (full entry member)
        · exact absurd before (UInt32.not_lt.mpr (later entry member))
        · exact ⟨first, here, .inr ⟨full, least⟩⟩

theorem cacheSlot_lt (table : CacheTable) (nowSec : UInt32) :
    cacheSlot table nowSec < cacheEntries := by
  have scanned := scanned_cacheSlot table nowSec
  generalize cacheSlot table nowSec = slot at scanned ⊢
  cases scanned with
  | empty here _ =>
      rw [Nat.zero_add]
      exact Table.lt_of_getElem? here
  | older _ here _ _ =>
      rw [Nat.zero_add]
      exact Table.lt_of_getElem? here
  | none _ _ => exact Nat.succ_pos 15

/-- **When a response is stored in place**: a slot is empty, or an entry has expired, or slot `0`
holds an oldest entry. -/
theorem storesInPlace_iff (table : CacheTable) (key : UInt32) {payload : List UInt8}
    (len_le : payload.length ≤ dnsMaxPayload) (nowSec : UInt32) :
    StoresInPlace table key payload len_le nowSec ↔ FindsOldest table nowSec := by
  rw [← evictable_iff]
  constructor
  · exact fun stores => stores.evictable
  · intro evictable
    refine ⟨evictable, ?_, fun slot ne => ?_⟩
    · rw [cacheStore, dif_pos len_le]
      exact Table.getElem?_set_self (cacheSlot_lt table nowSec)
    · rw [cacheStore, dif_pos len_le]
      exact Table.getElem?_set_ne ne.symm

/-- Into the zeroed table. -/
theorem storesInPlace_iff_zeroed :
    StoresInPlace (start zeroBuf).cache 0 [1] (by decide) 5 :=
  (storesInPlace_iff _ 0 (by decide) 5).mpr (by decide)

/-- Seventeen queries of one client, a second apart, each answered by the resolver. -/
def fillingRun : List Recv :=
  (List.range 17).flatMap fun k =>
    [datagram clientA (1000 * k) (oneQuestion 0x01 (UInt8.ofNat k) [UInt8.ofNat k]),
      datagram shippedConfig.upstream (1000 * k)
        (oneQuestion 0x81 (UInt8.ofNat k) [UInt8.ofNat k])]

/-- **The newest of sixteen live entries makes room.** The seventeenth response went into slot `0`,
and so does the next one, while slot `1` holds the oldest entry. -/
theorem not_storesInPlace_fillingRun :
    ¬ StoresInPlace ((machine shippedConfig).exec (start zeroBuf) fillingRun).cache 99 [1]
      (by decide) (shippedConfig.nowSec 17000) := by
  intro stores
  have finds := (evictable_iff _ _).mp stores.evictable
  revert finds
  decide +kernel

end HalowBridge.Dns
