import HalowBridge.Mmutils.MmbufList
import Mathlib.Data.Finset.Card
import Mathlib.Order.Interval.Finset.Nat

/-!
# What a list of packet buffers stands for

`Contents` is what an `mmbuf_list` stands for: the buffers in it in order, and those taken out one
at a time and not put into it again, which link to nothing. `Represents` ties it to the list in
memory, and `mmbufList_trace_eq` says that no run of allowed operations tells them apart. The
buffers that `mmbuf_list_dequeue_all` takes out keep their links, because it returns them as a
linked list (`not_unlinked_dequeueAll`).
-/

namespace HalowBridge.Mmutils.Linked

/-- The buffers in the list, and those taken out of it one at a time. -/
structure Contents where
  members : List UInt32
  removed : List UInt32
  deriving DecidableEq

namespace Contents

variable (c : Contents)

/-- The buffer is taken out of the list. -/
def takeOut (mmbuf : UInt32) : Contents := ⟨c.members.erase mmbuf, mmbuf :: c.removed⟩

/-- The buffer is in the list now. -/
def putIn (mmbuf : UInt32) (members : List UInt32) : Contents :=
  ⟨members, c.removed.filter (· ≠ mmbuf)⟩

/-- One operation on the list. -/
def step : Op → Contents × Ret
  | .prepend mmbuf => (c.putIn mmbuf (mmbuf :: c.members), .void)
  | .append mmbuf => (c.putIn mmbuf (c.members ++ [mmbuf]), .void)
  | .remove mmbuf =>
      if mmbuf ∈ c.members then (c.takeOut mmbuf, .present true) else (c, .present false)
  | .dequeue =>
      match c.members.head? with
      | none => (c, .mmbuf null)
      | some mmbuf => (c.takeOut mmbuf, .mmbuf mmbuf)
  | .dequeueTail =>
      match c.members.getLast? with
      | none => (c, .mmbuf null)
      | some mmbuf => (c.takeOut mmbuf, .mmbuf mmbuf)
  | .dequeueAll => (⟨[], c.removed⟩, .linked (some c.members))
  | .clear _ => (⟨[], c.removed⟩, .released c.members)

/-- A buffer is put into the list only while it is in none. -/
def Allows : Op → Prop
  | .prepend mmbuf | .append mmbuf => mmbuf ≠ null ∧ mmbuf ∉ c.members
  | _ => True

instance : (op : Op) → Decidable (c.Allows op)
  | .prepend mmbuf | .append mmbuf =>
      inferInstanceAs (Decidable (mmbuf ≠ null ∧ mmbuf ∉ c.members))
  | .remove _ | .dequeue | .dequeueTail | .dequeueAll | .clear _ => inferInstanceAs (Decidable True)

end Contents

/-- Lists of buffers. -/
def lists : Machine Contents Op Ret := ⟨Contents.step⟩

/-- The store holds the contents. -/
structure Represents (s : Store) (c : Contents) : Prop where
  chain : Segment s.next s.list.head c.members null
  nonnull : null ∉ c.members
  nodup : c.members.Nodup
  tail : s.list.tail = c.members.getLast?.getD null
  len : s.list.len.toNat = c.members.length
  unlinked : ∀ mmbuf ∈ c.removed, s.next mmbuf = null
  apart : ∀ mmbuf ∈ c.removed, mmbuf ∉ c.members

/-! ## One operation -/

/-- There are not more buffers than addresses. -/
theorem length_lt {members : List UInt32} (nonnull : null ∉ members) (nodup : members.Nodup) :
    members.length < addresses := by
  have numbers : (members.map UInt32.toNat).Nodup := nodup.map fun _ _ => UInt32.toNat_inj.mp
  have inside : (members.map UInt32.toNat).toFinset ⊆ Finset.Ico 1 addresses := by
    intro n member
    obtain ⟨mmbuf, present, rfl⟩ := List.mem_map.mp (List.mem_toFinset.mp member)
    rw [Finset.mem_Ico]
    have nonzero : mmbuf.toNat ≠ 0 := by
      intro zero
      obtain rfl : mmbuf = null := UInt32.toNat_inj.mp zero
      exact nonnull present
    exact ⟨Nat.one_le_iff_ne_zero.mpr nonzero, mmbuf.toNat_lt⟩
  have card := Finset.card_le_card inside
  rw [List.toFinset_card_of_nodup numbers, List.length_map, Nat.card_Ico] at card
  rw [addresses] at card ⊢
  omega

section

variable {s : Store} {c : Contents} {mmbuf : UInt32}

namespace Represents

theorem head_eq_null_iff (holds : Represents s c) : s.list.head = null ↔ c.members = [] :=
  holds.chain.eq_null_iff holds.nonnull

theorem tail_eq_null_iff (holds : Represents s c) : s.list.tail = null ↔ c.members = [] := by
  rw [holds.tail]
  cases last : c.members.getLast? with
  | none => exact iff_of_true rfl (List.getLast?_eq_none_iff.mp last)
  | some mmbuf =>
      have member := List.mem_of_getLast? last
      refine iff_of_false (fun same => holds.nonnull (same ▸ member)) fun empty => ?_
      rw [empty] at member
      exact List.not_mem_nil member

end Represents

theorem storeNext_of_ne (nonnull : mmbuf ≠ null) (link : UInt32) :
    s.storeNext mmbuf link = some { s with next := Function.update s.next mmbuf link } :=
  if_neg nonnull

theorem loadNext_of_ne (nonnull : mmbuf ≠ null) : s.loadNext mmbuf = some (s.next mmbuf) :=
  if_neg nonnull

/-- The length of a list with one more buffer. -/
theorem toNat_len_add_one (holds : Represents s c) (fresh : mmbuf ∉ c.members)
    (nonnull : mmbuf ≠ null) : (s.list.len + 1).toNat = c.members.length + 1 := by
  have more : (mmbuf :: c.members).length < addresses := length_lt
    (not_or.mpr ⟨Ne.symm nonnull, holds.nonnull⟩ ∘ List.mem_cons.mp)
    (List.nodup_cons.mpr ⟨fresh, holds.nodup⟩)
  rw [List.length_cons, addresses] at more
  rw [UInt32.toNat_add, holds.len]
  exact Nat.mod_eq_of_lt more

/-- A buffer that is put in is not among those taken out. -/
theorem unlinked_putIn (link : UInt32) {members : List UInt32} (holds : Represents s c)
    (same : ∀ other, other ∈ members → other = mmbuf ∨ other ∈ c.members) :
    (∀ other ∈ (c.putIn mmbuf members).removed,
        Function.update s.next mmbuf link other = null) ∧
      ∀ other ∈ (c.putIn mmbuf members).removed, other ∉ members := by
  have kept (other : UInt32) (member : other ∈ (c.putIn mmbuf members).removed) :
      other ∈ c.removed ∧ other ≠ mmbuf := by
    rw [Contents.putIn, List.mem_filter, decide_eq_true_iff] at member
    exact member
  constructor
  · intro other member
    obtain ⟨old, different⟩ := kept other member
    rw [Function.update_of_ne different]
    exact holds.unlinked other old
  · intro other member inside
    obtain ⟨old, different⟩ := kept other member
    exact (same other inside).elim different (holds.apart other old)

theorem prepend_eq (nonnull : mmbuf ≠ null) :
    s.prepend mmbuf = some ⟨⟨mmbuf, if s.list.tail = null then mmbuf else s.list.tail,
      s.list.len + 1⟩, Function.update s.next mmbuf s.list.head⟩ := by
  rw [Store.prepend, storeNext_of_ne nonnull]
  rfl

theorem represents_prepend (holds : Represents s c) (nonnull : mmbuf ≠ null)
    (fresh : mmbuf ∉ c.members) :
    ∃ t, s.prepend mmbuf = some t ∧ Represents t (c.putIn mmbuf (mmbuf :: c.members)) := by
  refine ⟨_, prepend_eq nonnull, ?_⟩
  obtain ⟨unlinked, apart⟩ := unlinked_putIn s.list.head holds fun other =>
    (List.mem_cons (b := mmbuf) (l := c.members)).mp
  refine ⟨⟨rfl, ?_⟩, ?_, ?_, ?_, ?_, unlinked, apart⟩
  · dsimp only
    rw [Function.update_self]
    exact holds.chain.update fresh _
  · exact not_or.mpr ⟨Ne.symm nonnull, holds.nonnull⟩ ∘ List.mem_cons.mp
  · exact List.nodup_cons.mpr ⟨fresh, holds.nodup⟩
  · dsimp only [Contents.putIn]
    rw [List.getLast?_cons, Option.getD_some]
    by_cases empty : c.members = []
    · rw [if_pos (holds.tail_eq_null_iff.mpr empty), empty]
      rfl
    · rw [if_neg (mt holds.tail_eq_null_iff.mp empty), holds.tail,
        List.getLast?_eq_some_getLast empty]
      rfl
  · exact toNat_len_add_one holds fresh nonnull

theorem append_eq_of_null (nonnull : mmbuf ≠ null) (empty : s.list.head = null) :
    s.append mmbuf =
      some ⟨⟨mmbuf, mmbuf, s.list.len + 1⟩, Function.update s.next mmbuf null⟩ := by
  rw [Store.append, storeNext_of_ne nonnull]
  exact if_pos empty

theorem append_eq_of_ne (nonnull : mmbuf ≠ null) (some : s.list.head ≠ null)
    (last : s.list.tail ≠ null) :
    s.append mmbuf = .some ⟨⟨s.list.head, mmbuf, s.list.len + 1⟩,
      Function.update (Function.update s.next mmbuf null) s.list.tail mmbuf⟩ := by
  rw [Store.append, storeNext_of_ne nonnull]
  refine (if_neg some).trans ?_
  rw [storeNext_of_ne last]
  rfl

theorem represents_append (holds : Represents s c) (nonnull : mmbuf ≠ null)
    (fresh : mmbuf ∉ c.members) :
    ∃ t, s.append mmbuf = some t ∧ Represents t (c.putIn mmbuf (c.members ++ [mmbuf])) := by
  have member_or (other : UInt32) (member : other ∈ c.members ++ [mmbuf]) :
      other = mmbuf ∨ other ∈ c.members := by
    rw [List.mem_append, List.mem_singleton] at member
    exact member.symm
  have null_not : null ∉ c.members ++ [mmbuf] := fun member =>
    (member_or null member).elim (Ne.symm nonnull) holds.nonnull
  have distinct : (c.members ++ [mmbuf]).Nodup := by
    rw [List.nodup_append_comm]
    exact List.nodup_cons.mpr ⟨fresh, holds.nodup⟩
  have count : (s.list.len + 1).toNat = (c.members ++ [mmbuf]).length := by
    rw [toNat_len_add_one holds fresh nonnull, List.length_append, List.length_singleton]
  obtain ⟨unlinked, apart⟩ := unlinked_putIn null holds member_or
  by_cases empty : c.members = []
  · have head := holds.head_eq_null_iff.mpr empty
    refine ⟨_, append_eq_of_null nonnull head, ?_, null_not, distinct, ?_, count, unlinked, apart⟩
    · rw [Contents.putIn, empty]
      exact ⟨rfl, Function.update_self _ _ _⟩
    · rw [Contents.putIn, empty]
      rfl
  · obtain ⟨front, last, split⟩ := (List.eq_nil_or_concat' c.members).resolve_left empty
    have tail : s.list.tail = last := by
      rw [holds.tail, split, List.getLast?_concat, Option.getD_some]
    have present : last ∈ c.members := split ▸ List.mem_concat_self
    have different : mmbuf ≠ last := fun same => fresh (same ▸ present)
    have chain := holds.chain
    rw [split, segment_concat] at chain
    have once := holds.nodup
    rw [split, List.nodup_append_comm] at once
    have head := mt holds.head_eq_null_iff.mp empty
    refine ⟨_, append_eq_of_ne nonnull head (mt holds.tail_eq_null_iff.mp empty), ?_, null_not,
      distinct, ?_, count, ?_, apart⟩
    · dsimp only [Contents.putIn]
      rw [split, segment_concat, segment_concat, tail]
      have front_fresh : mmbuf ∉ front := fun member =>
        fresh (split ▸ List.mem_append_left _ member)
      refine ⟨⟨(chain.1.update front_fresh null).update (List.nodup_cons.mp once).1 mmbuf, ?_⟩, ?_⟩
      · exact Function.update_self _ _ _
      · rw [Function.update_of_ne different, Function.update_self]
    · dsimp only [Contents.putIn]
      rw [List.getLast?_concat, Option.getD_some]
    · intro other member
      have apart := holds.apart other (List.mem_filter.mp member).1
      dsimp only
      rw [tail, Function.update_of_ne (ne_of_mem_of_not_mem present apart).symm]
      exact unlinked other member

/-! ### Taking out -/

/-- What is left to show of a removal: the links lead around the buffer, and nobody else's were
changed. -/
theorem represents_takeOut {before after : List UInt32} {head prev : UInt32}
    {next : UInt32 → UInt32} (holds : Represents s c)
    (split : c.members = before ++ mmbuf :: after)
    (last : prev = before.getLast?.getD null)
    (chain : Segment next head (before ++ after) null)
    (others : ∀ other, other ∉ c.members → next other = s.next other) :
    Represents ⟨⟨head, if s.list.tail = mmbuf then prev else s.list.tail, s.list.len - 1⟩,
      Function.update next mmbuf null⟩ (c.takeOut mmbuf) := by
  have distinct := holds.nodup
  have member : mmbuf ∈ c.members := split ▸ List.mem_append_right _ List.mem_cons_self
  rw [split, List.nodup_middle, List.nodup_cons] at distinct
  obtain ⟨outside, distinct⟩ := distinct
  have rest : c.members.erase mmbuf = before ++ after := by
    rw [split, List.erase_append_right _ fun front => outside (List.mem_append_left _ front),
      List.erase_cons_head]
  refine ⟨?_, ?_, ?_, ?_, ?_, ?_, ?_⟩
  · rw [Contents.takeOut, rest]
    exact chain.update outside null
  · exact fun null => holds.nonnull (List.mem_of_mem_erase null)
  · exact holds.nodup.erase mmbuf
  · dsimp only [Contents.takeOut]
    rw [rest, holds.tail, split]
    cases after with
    | nil =>
        rw [List.getLast?_concat, Option.getD_some, if_pos rfl, last, List.append_nil]
    | cons next after =>
        have final : (before ++ mmbuf :: next :: after).getLast? =
            (before ++ next :: after).getLast? := by simp
        have more : before ++ next :: after ≠ [] := List.append_ne_nil_of_right_ne_nil _ (by simp)
        rw [final, List.getLast?_eq_some_getLast more, Option.getD_some, if_neg]
        exact ne_of_mem_of_not_mem (List.getLast_mem more) outside
  · have count := holds.len
    have some : 1 ≤ c.members.length := List.length_pos_of_mem member
    dsimp only [Contents.takeOut]
    rw [List.length_erase_of_mem member, UInt32.toNat_sub_of_le, count, UInt32.toNat_one]
    rw [UInt32.le_iff_toNat_le, count]
    exact some
  · intro other removed
    rcases List.mem_cons.mp removed with rfl | old
    · exact Function.update_self _ _ _
    · have apart := holds.apart other old
      dsimp only
      rw [Function.update_of_ne (ne_of_mem_of_not_mem member apart).symm, others other apart]
      exact holds.unlinked other old
  · intro other removed inside
    rcases List.mem_cons.mp removed with rfl | old
    · exact outside (rest ▸ inside)
    · exact holds.apart other old (List.mem_of_mem_erase inside)

/-- The front buffer is taken out. -/
theorem represents_takeOut_head {after : List UInt32} (holds : Represents s c)
    (split : c.members = mmbuf :: after) :
    Represents ⟨⟨s.next mmbuf, if s.list.tail = mmbuf then null else s.list.tail,
      s.list.len - 1⟩, Function.update s.next mmbuf null⟩ (c.takeOut mmbuf) := by
  have chain := holds.chain
  rw [split] at chain
  exact represents_takeOut holds (show c.members = [] ++ mmbuf :: after from split) rfl chain.2
    fun _ _ => rfl

/-- A buffer behind another one is taken out. -/
theorem represents_takeOut_behind {front after : List UInt32} {prev : UInt32}
    (holds : Represents s c) (split : c.members = front ++ prev :: mmbuf :: after) :
    Represents ⟨⟨s.list.head, if s.list.tail = mmbuf then prev else s.list.tail,
      s.list.len - 1⟩, Function.update (Function.update s.next prev (s.next mmbuf)) mmbuf null⟩
      (c.takeOut mmbuf) := by
  have chain := holds.chain
  rw [split, segment_append] at chain
  obtain ⟨_, first, start, -, second⟩ := chain
  rw [start] at first
  have distinct := holds.nodup
  rw [split, List.nodup_middle, List.nodup_cons, List.mem_append, not_or] at distinct
  obtain ⟨⟨notFront, notBehind⟩, -⟩ := distinct
  have notAfter : prev ∉ after := fun member => notBehind (List.mem_cons_of_mem _ member)
  have present : prev ∈ c.members := split ▸ List.mem_append_right _ List.mem_cons_self
  have around : c.members = (front ++ [prev]) ++ mmbuf :: after := by
    rw [split, List.append_assoc, List.singleton_append]
  apply represents_takeOut holds around
  · rw [List.getLast?_concat, Option.getD_some]
  · rw [segment_append]
    refine ⟨s.next mmbuf, ?_, second.update notAfter _⟩
    rw [segment_concat, Function.update_self]
    exact ⟨first.update notFront _, rfl⟩
  · intro other outside
    exact Function.update_of_ne (ne_of_mem_of_not_mem present outside).symm _ _

/-- A loop at a buffer other than the one it looks for goes on. -/
theorem findPrevLoop_succ {fuel : ℕ} {walk next : UInt32} (nonnull : next ≠ null)
    (different : next ≠ mmbuf) :
    s.findPrevLoop mmbuf (fuel + 1) walk next = s.findPrevLoop mmbuf fuel next (s.next next) := by
  rw [Store.findPrevLoop, if_neg nonnull, if_neg different]

/-- The loop finds the buffer in front. -/
theorem findPrevLoop_of_mem {between after : List UInt32} {fuel : ℕ} {next : UInt32}
    (walk : UInt32)
    (chain : Segment s.next next (between ++ mmbuf :: after) null)
    (nonnull : null ∉ between ++ mmbuf :: after) (first : mmbuf ∉ between)
    (enough : between.length < fuel) :
    ∃ front prev, walk :: between = front ++ [prev] ∧
      s.findPrevLoop mmbuf fuel walk next = some prev := by
  obtain ⟨fuel, rfl⟩ := Nat.exists_eq_add_one_of_ne_zero (Nat.ne_zero_of_lt enough)
  induction between generalizing fuel walk next with
  | nil =>
      obtain ⟨rfl, -⟩ := chain
      have notNull : next ≠ null := fun same => nonnull (same ▸ List.mem_cons_self)
      refine ⟨[], walk, rfl, ?_⟩
      rw [Store.findPrevLoop, if_neg notNull, if_pos rfl]
  | cons node between ih =>
      obtain ⟨rfl, chain⟩ := chain
      rw [List.cons_append, List.mem_cons, not_or] at nonnull
      rw [List.mem_cons, not_or] at first
      have less : between.length < fuel := Nat.lt_of_succ_lt_succ enough
      obtain ⟨fuel, rfl⟩ := Nat.exists_eq_add_one_of_ne_zero (Nat.ne_zero_of_lt less)
      obtain ⟨front, prev, split, found⟩ := ih _ chain nonnull.2 first.2 fuel less
      refine ⟨walk :: front, prev, ?_, ?_⟩
      · rw [split, List.cons_append]
      · rw [findPrevLoop_succ (Ne.symm nonnull.1) (Ne.symm first.1)]
        exact found

/-- The loop finds nothing when the buffer is not there. -/
theorem findPrevLoop_of_not_mem {rest : List UInt32} {fuel : ℕ} {next : UInt32} (walk : UInt32)
    (chain : Segment s.next next rest null) (nonnull : null ∉ rest) (absent : mmbuf ∉ rest)
    (enough : rest.length < fuel) : s.findPrevLoop mmbuf fuel walk next = some null := by
  obtain ⟨fuel, rfl⟩ := Nat.exists_eq_add_one_of_ne_zero (Nat.ne_zero_of_lt enough)
  induction rest generalizing fuel walk next with
  | nil =>
      obtain rfl := chain
      rw [Store.findPrevLoop, if_pos rfl]
  | cons node rest ih =>
      obtain ⟨rfl, chain⟩ := chain
      rw [List.mem_cons, not_or] at nonnull absent
      have less : rest.length < fuel := Nat.lt_of_succ_lt_succ enough
      obtain ⟨fuel, rfl⟩ := Nat.exists_eq_add_one_of_ne_zero (Nat.ne_zero_of_lt less)
      rw [findPrevLoop_succ (Ne.symm nonnull.1) (Ne.symm absent.1)]
      exact ih _ chain nonnull.2 absent.2 fuel less

theorem unlinked_eq (nonnull : mmbuf ≠ null) (prev : UInt32) :
    s.unlinked mmbuf prev = some ⟨⟨s.list.head, if s.list.tail = mmbuf then prev else s.list.tail,
      s.list.len - 1⟩, Function.update s.next mmbuf null⟩ :=
  storeNext_of_ne nonnull null

/-- A removal of a buffer that is not there. -/
theorem remove_of_not_mem (holds : Represents s c) (absent : mmbuf ∉ c.members) :
    s.remove mmbuf = some (s, false) := by
  rw [Store.remove]
  by_cases empty : s.list.head = null
  · rw [if_pos empty]
  · have chain := holds.chain
    have nonnull := holds.nonnull
    have bound := length_lt holds.nonnull holds.nodup
    cases members : c.members with
    | nil => exact absurd (holds.head_eq_null_iff.mpr members) empty
    | cons first rest =>
        rw [members] at chain nonnull absent bound
        obtain ⟨rfl, chain⟩ := chain
        rw [List.mem_cons, not_or] at nonnull absent
        have nothing := findPrevLoop_of_not_mem s.list.head chain nonnull.2 absent.2
          (Nat.lt_of_succ_lt bound)
        rw [if_neg empty, if_neg (Ne.symm absent.1), Store.findPrev, loadNext_of_ne empty]
        simp only [Option.bind_eq_bind, Option.bind_some, nothing, if_true, Option.pure_def]

/-- A removal of a buffer that is there. -/
theorem represents_remove (holds : Represents s c) (member : mmbuf ∈ c.members) :
    ∃ t, s.remove mmbuf = some (t, true) ∧ Represents t (c.takeOut mmbuf) := by
  have some : mmbuf ≠ null := fun same => holds.nonnull (same ▸ member)
  have chain := holds.chain
  have nonnull := holds.nonnull
  have bound := length_lt holds.nonnull holds.nodup
  have empty : s.list.head ≠ null :=
    mt holds.head_eq_null_iff.mp (List.ne_nil_of_mem member)
  rw [Store.remove, if_neg empty]
  cases members : c.members with
  | nil => exact absurd member (members ▸ List.not_mem_nil)
  | cons first rest =>
      rw [members] at chain nonnull bound member
      obtain ⟨head, chain⟩ := chain
      by_cases here : s.list.head = mmbuf
      · rw [if_pos here, loadNext_of_ne some]
        refine ⟨_, ?_, represents_takeOut_head holds (members.trans (by rw [← head, here]))⟩
        simp only [Option.bind_eq_bind, Option.bind_some, unlinked_eq some, Option.pure_def]
      · have inRest : mmbuf ∈ rest :=
          (List.mem_cons.mp member).resolve_left fun same => here (head.trans same.symm)
        obtain ⟨between, after, notBefore, split, -⟩ := List.exists_erase_eq inRest
        rw [split] at chain nonnull bound
        rw [List.mem_cons, not_or] at nonnull
        rw [List.length_cons, List.length_append] at bound
        have steps : between.length < addresses := by omega
        obtain ⟨front, prev, behind, found⟩ := findPrevLoop_of_mem s.list.head
          (head ▸ chain) nonnull.2 notBefore steps
        have around : c.members = front ++ prev :: mmbuf :: after := by
          rw [members, split, ← List.cons_append, ← head, behind, List.append_assoc,
            List.singleton_append]
        have prevSome : prev ≠ null := fun same =>
          holds.nonnull (around ▸ List.mem_append_right _ (same ▸ List.mem_cons_self))
        refine ⟨_, ?_, represents_takeOut_behind holds around⟩
        rw [if_neg here, Store.findPrev, loadNext_of_ne empty]
        simp only [Option.bind_eq_bind, Option.bind_some, found, if_neg prevSome,
          loadNext_of_ne some, storeNext_of_ne prevSome, unlinked_eq some, Option.pure_def]

theorem represents_dequeue {rest : List UInt32} (holds : Represents s c)
    (split : c.members = mmbuf :: rest) :
    ∃ t, s.dequeue = some (t, mmbuf) ∧ Represents t (c.takeOut mmbuf) := by
  have head : s.list.head = mmbuf := (split ▸ holds.chain).1
  have some : s.list.head ≠ null :=
    mt holds.head_eq_null_iff.mp (split ▸ List.cons_ne_nil _ _)
  subst head
  refine ⟨_, ?_, represents_takeOut_head holds split⟩
  rw [Store.dequeue, if_neg some]
  simp only [loadNext_of_ne some, Option.bind_eq_bind, Option.bind_some, storeNext_of_ne some,
    Option.pure_def]

theorem represents_dequeueTail (holds : Represents s c)
    (last : c.members.getLast? = some mmbuf) :
    ∃ t, s.dequeueTail = some (t, mmbuf) ∧ Represents t (c.takeOut mmbuf) := by
  have member := List.mem_of_getLast? last
  have tail : s.list.tail = mmbuf := by rw [holds.tail, last, Option.getD_some]
  have some : s.list.tail ≠ null :=
    mt holds.tail_eq_null_iff.mp (List.ne_nil_of_mem member)
  obtain ⟨t, removed, after⟩ := represents_remove holds member
  refine ⟨t, ?_, after⟩
  rw [Store.dequeueTail, if_neg some, tail]
  simp only [removed, Option.bind_eq_bind, Option.bind_some, Option.pure_def]

/-! ### The whole list -/

/-- A list without buffers, where nobody else's links were changed. -/
theorem represents_empty {next : UInt32 → UInt32} (holds : Represents s c)
    (others : ∀ other, other ∉ c.members → next other = s.next other) :
    Represents ⟨⟨null, null, 0⟩, next⟩ ⟨[], c.removed⟩ where
  chain := rfl
  nonnull := List.not_mem_nil
  nodup := List.nodup_nil
  tail := rfl
  len := rfl
  unlinked other old :=
    (others other (holds.apart other old)).trans (holds.unlinked other old)
  apart _ _ := List.not_mem_nil

theorem exists_loadNextOrNull (s : Store) (walk : UInt32) :
    ∃ next, s.loadNextOrNull walk = some next ∧ (walk ≠ null → next = s.next walk) := by
  by_cases last : walk = null
  · exact ⟨null, if_pos last, fun more => absurd last more⟩
  · exact ⟨s.next walk, (if_neg last).trans (loadNext_of_ne last), fun _ => rfl⟩

/-- The loop releases each buffer once, and reads no link of one it has released. -/
theorem clearLoop_eq (left : UInt32 → UInt32) {xs : List UInt32} {fuel : ℕ} {walk : UInt32}
    (chain : Segment s.next walk xs null) (nonnull : null ∉ xs) (nodup : xs.Nodup)
    (enough : xs.length < fuel) {next : UInt32} (ahead : walk ≠ null → next = s.next walk) :
    ∃ t, Store.clearLoop left fuel s walk next = some (t, xs) ∧ t.list = s.list ∧
      ∀ other, other ∉ xs → t.next other = s.next other := by
  obtain ⟨fuel, rfl⟩ := Nat.exists_eq_add_one_of_ne_zero (Nat.ne_zero_of_lt enough)
  induction xs generalizing s fuel walk next with
  | nil =>
      obtain rfl := chain
      exact ⟨s, by rw [Store.clearLoop, if_pos rfl], rfl, fun _ _ => rfl⟩
  | cons x xs ih =>
      obtain ⟨rfl, chain⟩ := chain
      rw [List.mem_cons, not_or] at nonnull
      rw [List.nodup_cons] at nodup
      have some : walk ≠ null := Ne.symm nonnull.1
      obtain rfl := ahead some
      have less : xs.length < fuel := Nat.lt_of_succ_lt_succ enough
      obtain ⟨fuel, rfl⟩ := Nat.exists_eq_add_one_of_ne_zero (Nat.ne_zero_of_lt less)
      have kept := chain.update nodup.1 (left walk)
      obtain ⟨after, load, following⟩ := exists_loadNextOrNull (s.release walk (left walk))
        (s.next walk)
      obtain ⟨t, released, list, others⟩ := ih (s := s.release walk (left walk)) kept nonnull.2
        nodup.2 following fuel less
      refine ⟨t, ?_, list, ?_⟩
      · rw [Store.clearLoop, if_neg some]
        simp only [load, Option.bind_eq_bind, Option.bind_some, released, Option.pure_def]
      · intro other outside
        rw [List.mem_cons, not_or] at outside
        rw [others other outside.2]
        exact Function.update_of_ne outside.1 _ _

theorem represents_clear (left : UInt32 → UInt32) (holds : Represents s c) :
    ∃ t, s.clear left = some (t, c.members) ∧ Represents t ⟨[], c.removed⟩ := by
  by_cases empty : s.list.head = null
  · have members := holds.head_eq_null_iff.mp empty
    refine ⟨s, ?_, ?_⟩
    · rw [Store.clear, if_pos empty, members]
    · rw [← members]
      exact holds
  · obtain ⟨t, released, list, others⟩ := clearLoop_eq left holds.chain holds.nonnull holds.nodup
      (length_lt holds.nonnull holds.nodup) (fun _ => rfl)
    refine ⟨_, ?_, represents_empty holds others⟩
    rw [Store.clear, if_neg empty, loadNext_of_ne empty]
    simp only [Option.bind_eq_bind, Option.bind_some, released, Option.pure_def]

/-! ## A run -/

/-- One allowed operation does to the list in memory what it does to the contents. -/
theorem represents_step (holds : Represents s c) (op : Op) (allowed : c.Allows op) :
    ∃ t, s.step op = some (t, (c.step op).2) ∧ Represents t (c.step op).1 := by
  cases op with
  | prepend mmbuf =>
      obtain ⟨t, done, after⟩ := represents_prepend holds allowed.1 allowed.2
      exact ⟨t, by rw [Store.step, done]; rfl, after⟩
  | append mmbuf =>
      obtain ⟨t, done, after⟩ := represents_append holds allowed.1 allowed.2
      exact ⟨t, by rw [Store.step, done]; rfl, after⟩
  | remove mmbuf =>
      rw [Store.step, Contents.step]
      by_cases member : mmbuf ∈ c.members
      · obtain ⟨t, done, after⟩ := represents_remove holds member
        rw [if_pos member, done]
        exact ⟨t, rfl, after⟩
      · rw [if_neg member, remove_of_not_mem holds member]
        exact ⟨s, rfl, holds⟩
  | dequeue =>
      rw [Store.step, Contents.step]
      cases members : c.members with
      | nil =>
          rw [Store.dequeue, if_pos (holds.head_eq_null_iff.mpr members)]
          exact ⟨s, rfl, holds⟩
      | cons mmbuf rest =>
          obtain ⟨t, done, after⟩ := represents_dequeue holds members
          rw [done]
          exact ⟨t, rfl, after⟩
  | dequeueTail =>
      rw [Store.step, Contents.step]
      cases last : c.members.getLast? with
      | none =>
          have members := List.getLast?_eq_none_iff.mp last
          rw [Store.dequeueTail, if_pos (holds.tail_eq_null_iff.mpr members)]
          exact ⟨s, rfl, holds⟩
      | some mmbuf =>
          obtain ⟨t, done, after⟩ := represents_dequeueTail holds last
          rw [done]
          exact ⟨t, rfl, after⟩
  | dequeueAll =>
      have nodes := holds.chain.follow holds.nonnull (length_lt holds.nonnull holds.nodup).le
      refine ⟨⟨⟨null, null, 0⟩, s.next⟩, ?_, represents_empty holds fun _ _ => rfl⟩
      rw [Contents.step, ← nodes]
      rfl
  | clear left =>
      obtain ⟨t, done, after⟩ := represents_clear left holds
      exact ⟨t, by rw [Store.step, done]; rfl, after⟩

theorem represents_init (next : UInt32 → UInt32) :
    Represents (mmbufListInit next) ⟨[], []⟩ where
  chain := rfl
  nonnull := List.not_mem_nil
  nodup := List.nodup_nil
  tail := rfl
  len := rfl
  unlinked _ removed := absurd removed List.not_mem_nil
  apart _ _ := List.not_mem_nil

/-- The walk of the sanity check counts the buffers and ends at the last one. -/
theorem sanityLoop_eq {xs : List UInt32} {fuel : ℕ} {walk : UInt32} (cnt prev : UInt32)
    (chain : Segment s.next walk xs null) (nonnull : null ∉ xs) (enough : xs.length < fuel) :
    s.sanityLoop fuel cnt prev walk =
      some (cnt + UInt32.ofNat xs.length, xs.getLast?.getD prev) := by
  obtain ⟨fuel, rfl⟩ := Nat.exists_eq_add_one_of_ne_zero (Nat.ne_zero_of_lt enough)
  induction xs generalizing fuel cnt prev walk with
  | nil =>
      obtain rfl := chain
      rw [Store.sanityLoop, if_pos rfl]
      exact congrArg (fun n => some (n, prev)) (UInt32.add_zero cnt).symm
  | cons x xs ih =>
      obtain ⟨rfl, chain⟩ := chain
      rw [List.mem_cons, not_or] at nonnull
      have less : xs.length < fuel := Nat.lt_of_succ_lt_succ enough
      obtain ⟨fuel, rfl⟩ := Nat.exists_eq_add_one_of_ne_zero (Nat.ne_zero_of_lt less)
      have count : cnt + 1 + UInt32.ofNat xs.length = cnt + UInt32.ofNat (xs.length + 1) := by
        rw [UInt32.ofNat_add, UInt32.add_assoc, UInt32.add_comm 1]
        rfl
      rw [Store.sanityLoop, if_neg (Ne.symm nonnull.1), ih _ _ chain nonnull.2 fuel less,
        List.length_cons, count, List.getLast?_cons, Option.getD_some]

/-- The assertions of the sanity check hold. -/
theorem Represents.sanityCheck (holds : Represents s c) : s.sanityCheck = some true := by
  have walked := sanityLoop_eq 0 null holds.chain holds.nonnull
    (length_lt holds.nonnull holds.nodup)
  have count : 0 + UInt32.ofNat c.members.length = s.list.len := by
    rw [UInt32.zero_add, ← holds.len, UInt32.ofNat_toNat]
  rw [count, ← holds.tail] at walked
  rw [Store.sanityCheck, walked]
  exact congrArg some (decide_eq_true ⟨rfl, rfl⟩)

end

/-- **A list of buffers is a list**: every allowed run returns what it returns for a list, and
leaves a store that holds the list, in which every buffer that was taken out links to nothing. -/
theorem mmbufList_trace_eq (next : UInt32 → UInt32) (ops : List Op)
    (allowed : lists.Guarded (fun _ c op => c.Allows op) ⟨[], []⟩ ops) :
    lists.trace ⟨[], []⟩ ops = program.trace (some (mmbufListInit next)) ops ∧
      ∃ s, program.exec (some (mmbufListInit next)) ops = some s ∧
        Represents s (lists.exec ⟨[], []⟩ ops) ∧ s.sanityCheck = some true := by
  obtain ⟨same, s, last, holds⟩ := lists.trace_simulation program
    (R := fun c s => ∃ t, s = some t ∧ Represents t c) ⟨_, rfl, represents_init next⟩ (by
      rintro _ c _ op ⟨s, rfl, holds⟩ allowed
      obtain ⟨t, done, after⟩ := represents_step holds op allowed
      have step : program.step (some s) op = (some t, (c.step op).2) := by
        simp only [program, Option.bind_some, done]
      rw [step]
      exact ⟨⟨t, rfl, after⟩, rfl⟩) allowed
  exact ⟨same, s, last, holds, holds.sanityCheck⟩

/-- Buffers are put in at both ends and taken out in the middle and at the end. -/
theorem mmbufList_trace_eq_one :
    ∃ s, program.exec (some (mmbufListInit fun _ => 0))
        [.append 4, .prepend 8, .append 12, .remove 4, .dequeueTail] = some s ∧
      Represents s ⟨[8], [12, 4]⟩ := by
  obtain ⟨-, s, last, holds, -⟩ := mmbufList_trace_eq (fun _ => 0)
    [.append 4, .prepend 8, .append 12, .remove 4, .dequeueTail] (by decide)
  exact ⟨s, last, holds⟩

/-- A buffer that `mmbuf_list_dequeue_all` takes out of a list still links to the next one. -/
theorem not_unlinked_dequeueAll :
    ¬ ∀ s, program.exec (some (mmbufListInit fun _ => 0)) [.append 4, .append 8, .dequeueAll] =
        some s → s.list.head = null → s.next 4 = null := by
  intro unlinked
  have final := unlinked ⟨⟨null, null, 0⟩, _⟩ rfl rfl
  exact absurd final (by decide +kernel)

end HalowBridge.Mmutils.Linked
