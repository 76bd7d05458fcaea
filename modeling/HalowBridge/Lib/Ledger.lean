import Mathlib.Data.Multiset.AddSub
import Mathlib.Data.Finset.Image
import Mathlib.Data.Set.Function

/-!
# Ledgers of requests and replies

A ledger is a sequence of entries: a request is opened, a request is closed, or nothing happens.
`balance` is the multiset of requests still open and `Covered` says that every closing entry closes
a request open at that moment.

`Covered.matching` turns the multiset bookkeeping into an assignment: in a covered ledger every
closing entry can be given an earlier opening entry of the same request, and no opening entry is
given twice.
-/

namespace HalowBridge

/-- One entry of a ledger of requests of type `β`. -/
inductive Entry (β : Type*) where
  | opens (b : β)
  | closes (b : β)
  | idle
  deriving DecidableEq

namespace Ledger

variable {β : Type*} [DecidableEq β]

/-- The open requests after one more entry. -/
def post (live : Multiset β) : Entry β → Multiset β
  | .opens b => b ::ₘ live
  | .closes b => live.erase b
  | .idle => live

/-- The requests still open after a sequence of entries. -/
def balance (es : List (Entry β)) : Multiset β := es.foldl post 0

/-- Every closing entry closes a request that is open when the entry is made. -/
def Covered (es : List (Entry β)) : Prop :=
  ∀ before b, before ++ [Entry.closes b] <+: es → b ∈ balance before

@[simp] theorem balance_nil : balance ([] : List (Entry β)) = 0 := rfl

@[simp] theorem balance_concat (es : List (Entry β)) (e : Entry β) :
    balance (es ++ [e]) = post (balance es) e := by
  rw [balance, List.foldl_append]
  rfl

theorem covered_nil : Covered ([] : List (Entry β)) := by
  intro before b here
  have := here.length_le
  simp at this

/-- A ledger stays covered when the new entry closes an open request or closes none. -/
theorem Covered.concat {es : List (Entry β)} {e : Entry β} (covered : Covered es)
    (last : ∀ b, e = .closes b → b ∈ balance es) : Covered (es ++ [e]) := by
  intro before b here
  rcases List.prefix_concat_iff.mp here with same | inside
  · rcases List.append_inj' same rfl with ⟨rfl, single⟩
    exact last b (List.singleton_inj.mp single).symm
  · exact covered before b inside

theorem Covered.of_prefix {es fs : List (Entry β)} (covered : Covered fs) (le : es <+: fs) :
    Covered es :=
  fun before b here => covered before b (here.trans le)

/-- `f` gives every closing entry of `es` an earlier opening entry of the same request, and gives
no opening entry twice. -/
def Matching (es : List (Entry β)) (f : ℕ → ℕ) : Prop :=
  (∀ j b, es[j]? = some (.closes b) → f j < j ∧ es[f j]? = some (.opens b)) ∧
    Set.InjOn f {j | ∃ b, es[j]? = some (.closes b)}

/-- The positions in `free` are the opening entries of the open requests, and `f` gives none of
them away. -/
def Leaves (es : List (Entry β)) (f : ℕ → ℕ) (free : Finset ℕ) : Prop :=
  (∀ i ∈ free, i < es.length ∧ ∀ j b, es[j]? = some (.closes b) → f j ≠ i) ∧
    free.val.map (fun i => es[i]?) = (balance es).map (fun b => some (.opens b))

section Extend

variable {es : List (Entry β)} {f : ℕ → ℕ} {free : Finset ℕ}

omit [DecidableEq β] in
/-- A closing entry of a lengthened ledger is an old one or the new entry. -/
theorem closes_concat {e : Entry β} {j : ℕ} {b : β}
    (closing : (es ++ [e])[j]? = some (.closes b)) :
    es[j]? = some (.closes b) ∨ (j = es.length ∧ e = .closes b) := by
  rcases Nat.lt_trichotomy j es.length with before | rfl | after
  · rw [List.getElem?_append_left before] at closing
    exact Or.inl closing
  · rw [List.getElem?_concat_length, Option.some.injEq] at closing
    exact Or.inr ⟨rfl, closing⟩
  · rw [List.getElem?_eq_none (by simp; omega)] at closing
    cases closing

omit [DecidableEq β] in
theorem lt_of_closes {j : ℕ} {b : β} (closing : es[j]? = some (.closes b)) : j < es.length :=
  (List.getElem?_eq_some_iff.mp closing).1

omit [DecidableEq β] in
/-- An entry that closes nothing keeps a matching. -/
theorem Matching.concat_open {e : Entry β} (matched : Matching es f)
    (noClose : ∀ b, e ≠ .closes b) : Matching (es ++ [e]) f := by
  have old : ∀ {j : ℕ} {b : β},
      (es ++ [e])[j]? = some (Entry.closes b) → es[j]? = some (Entry.closes b) :=
    fun closing => (closes_concat closing).resolve_right fun new => noClose _ new.2
  refine ⟨fun j b closing => ?_, ?_⟩
  · rcases matched.1 j b (old closing) with ⟨lt, opened⟩
    refine ⟨lt, ?_⟩
    rw [List.getElem?_append_left (List.getElem?_eq_some_iff.mp opened).1]
    exact opened
  · intro j closes k closes' same
    rcases closes with ⟨b, closing⟩
    rcases closes' with ⟨c, closing'⟩
    exact matched.2 ⟨b, old closing⟩ ⟨c, old closing'⟩ same

/-- A closing entry is matched with a position that is still free. -/
theorem Matching.concat_close {b : β} {i : ℕ} (matched : Matching es f)
    (leaves : Leaves es f free) (member : i ∈ free) (opened : es[i]? = some (.opens b)) :
    Matching (es ++ [.closes b]) (Function.update f es.length i) := by
  rcases leaves.1 i member with ⟨inside, unused⟩
  have away : ∀ {j : ℕ} {c : β}, es[j]? = some (.closes c) →
      Function.update f es.length i j = f j :=
    fun closing => Function.update_of_ne (lt_of_closes closing).ne _ _
  refine ⟨fun j c closing => ?_, ?_⟩
  · rcases closes_concat closing with old | ⟨rfl, new⟩
    · rcases matched.1 j c old with ⟨lt, found⟩
      rw [away old, List.getElem?_append_left (lt.trans (lt_of_closes old))]
      exact ⟨lt, found⟩
    · cases new
      rw [Function.update_self, List.getElem?_append_left inside]
      exact ⟨inside, opened⟩
  · intro j closes k closes' same
    rcases closes with ⟨c, closing⟩
    rcases closes' with ⟨d, closing'⟩
    rcases closes_concat closing with old | ⟨rfl, -⟩ <;>
      rcases closes_concat closing' with old' | ⟨rfl, -⟩
    · rw [away old, away old'] at same
      exact matched.2 ⟨c, old⟩ ⟨d, old'⟩ same
    · rw [away old, Function.update_self] at same
      exact (unused j c old same).elim
    · rw [away old', Function.update_self] at same
      exact (unused k d old' same.symm).elim
    · rfl

omit [DecidableEq β] in
theorem map_label_concat (e : Entry β) (inside : ∀ i ∈ free, i < es.length) :
    free.val.map (fun i => (es ++ [e])[i]?) = free.val.map (fun i => es[i]?) :=
  Multiset.map_congr rfl fun i member => List.getElem?_append_left (inside i member)

/-- Positions that are free stay free when the new entry closes nothing. -/
theorem Leaves.concat_idle (leaves : Leaves es f free) : Leaves (es ++ [.idle]) f free := by
  refine ⟨fun i member => ?_, ?_⟩
  · rcases leaves.1 i member with ⟨inside, unused⟩
    refine ⟨by simp; omega, fun j b closing => ?_⟩
    rcases closes_concat closing with old | ⟨-, new⟩
    · exact unused j b old
    · cases new
  · rw [map_label_concat .idle fun i member => (leaves.1 i member).1, balance_concat]
    exact leaves.2

/-- A new opening entry is a free position of its own. -/
theorem Leaves.concat_open {b : β} (matched : Matching es f) (leaves : Leaves es f free) :
    Leaves (es ++ [.opens b]) f (insert es.length free) := by
  have fresh : es.length ∉ free := fun member => (leaves.1 _ member).1.false
  refine ⟨fun i member => ?_, ?_⟩
  · refine ⟨?_, fun j c closing => ?_⟩
    · rcases Finset.mem_insert.mp member with rfl | member
      · simp
      · have := (leaves.1 i member).1
        simp
        omega
    · rcases closes_concat closing with old | ⟨-, new⟩
      · rcases Finset.mem_insert.mp member with rfl | member
        · have := (matched.1 j c old).1
          have := lt_of_closes old
          omega
        · exact (leaves.1 i member).2 j c old
      · cases new
  · rw [Finset.insert_val_of_notMem fresh, Multiset.map_cons,
      map_label_concat _ fun i member => (leaves.1 i member).1, leaves.2, balance_concat, post,
      Multiset.map_cons, List.getElem?_concat_length]

/-- A closing entry takes its position from the free ones. -/
theorem Leaves.concat_close {b : β} {i : ℕ} (leaves : Leaves es f free) (member : i ∈ free)
    (opened : es[i]? = some (.opens b)) (isOpen : b ∈ balance es) :
    Leaves (es ++ [.closes b]) (Function.update f es.length i) (free.erase i) := by
  refine ⟨fun k rest => ?_, ?_⟩
  · rcases Finset.mem_erase.mp rest with ⟨ne, old⟩
    rcases leaves.1 k old with ⟨inside, unused⟩
    refine ⟨by simp; omega, fun j c closing => ?_⟩
    rcases closes_concat closing with before | ⟨rfl, -⟩
    · rw [Function.update_of_ne (lt_of_closes before).ne]
      exact unused j c before
    · rw [Function.update_self]
      exact ne.symm
  · rw [map_label_concat _ fun k rest => (leaves.1 k (Finset.mem_of_mem_erase rest)).1,
      Finset.erase_val, Multiset.map_erase_of_mem _ _ member, leaves.2, balance_concat, post,
      Multiset.map_erase_of_mem _ _ isOpen, opened]

end Extend

/-- **A covered ledger can be matched.** Every closing entry is given an earlier opening entry of
the same request, and no opening entry is given twice. -/
theorem Covered.matching {es : List (Entry β)} (covered : Covered es) : ∃ f, Matching es f := by
  suffices both : ∃ f free, Matching es f ∧ Leaves es f free by
    obtain ⟨f, _, matched, _⟩ := both
    exact ⟨f, matched⟩
  induction es using List.reverseRecOn with
  | nil => exact ⟨id, ∅, ⟨by simp, by simp [Set.InjOn]⟩, by simp, rfl⟩
  | append_singleton es e ih =>
      rcases ih (covered.of_prefix (List.prefix_append es [e])) with ⟨f, free, matched, leaves⟩
      cases e with
      | idle => exact ⟨f, free, matched.concat_open (by simp), leaves.concat_idle⟩
      | opens b =>
          exact ⟨f, insert es.length free, matched.concat_open (by simp),
            leaves.concat_open matched⟩
      | closes b =>
          have isOpen := covered es b (List.prefix_refl _)
          have label : some (Entry.opens b) ∈ free.val.map (fun i => es[i]?) := by
            rw [leaves.2]
            exact Multiset.mem_map_of_mem _ isOpen
          rcases Multiset.mem_map.mp label with ⟨i, member, opened⟩
          exact ⟨_, _, matched.concat_close leaves member opened,
            leaves.concat_close member opened isOpen⟩

end Ledger

end HalowBridge
