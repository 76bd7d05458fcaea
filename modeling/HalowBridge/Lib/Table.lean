import Mathlib.Data.List.Perm.Basic
import Mathlib.Data.Multiset.Basic
import Mathlib.Data.Multiset.AddSub

/-!
# Tables of a fixed number of slots

`Table α n` is an array of `n` slots: the length travels with the list, so a table of another size
cannot be built. `set` replaces one slot, `overwrite` copies a block over the first slots, and
`firstIdx` is the first slot that passes a test, as a scan from slot `0` finds it.

A table is read through a *view*, which says what a slot holds, or that it holds nothing.
`content` is the multiset of what all slots hold and `others` what the slots beside one hold. The
two splits `content_eq` and `content_set` are all that filling, clearing and replacing a slot need.
-/

namespace HalowBridge

/-- An array of `n` slots. -/
structure Table (α : Type*) (n : ℕ) where
  slots : List α
  length_eq : slots.length = n
  deriving DecidableEq

namespace Table

variable {α β : Type*} {n : ℕ}

/-- All slots equal to `a`. -/
def fill (n : ℕ) (a : α) : Table α n := ⟨List.replicate n a, List.length_replicate⟩

/-- Replace the slot `i`. -/
def set (t : Table α n) (i : ℕ) (a : α) : Table α n :=
  ⟨t.slots.set i a, by rw [List.length_set, t.length_eq]⟩

/-- Copy `xs` over the first slots. -/
def overwrite (t : Table α n) (xs : List α) : Table α n :=
  ⟨(xs ++ t.slots.drop xs.length).take n, by
    rw [List.length_take, List.length_append, List.length_drop, t.length_eq]
    omega⟩

/-- Read the slot `i`. -/
def get (t : Table α n) (i : Fin n) : α := t.slots.get (i.cast t.length_eq.symm)

/-- The first slot that passes `p`. -/
def firstIdx (t : Table α n) (p : α → Bool) : Option ℕ := t.slots.findIdx? p

/-- What the slots hold, each slot read through `view`. -/
def content (view : α → Option β) (t : Table α n) : Multiset β := (t.slots.filterMap view : List β)

/-- What the slots other than `i` hold. -/
def others (view : α → Option β) (t : Table α n) (i : ℕ) : Multiset β :=
  ((t.slots.eraseIdx i).filterMap view : List β)

@[simp] theorem set_slots (t : Table α n) (i : ℕ) (a : α) : (t.set i a).slots = t.slots.set i a :=
  rfl

theorem getElem?_slots (t : Table α n) (i : Fin n) : t.slots[i.val]? = some (t.get i) :=
  List.getElem?_eq_getElem _

theorem overwrite_slots {t : Table α n} {xs : List α} (fits : xs.length ≤ n) :
    (t.overwrite xs).slots = xs ++ t.slots.drop xs.length := by
  apply List.take_of_length_le
  rw [List.length_append, List.length_drop, t.length_eq]
  omega

theorem lt_of_getElem? {t : Table α n} {i : ℕ} {a : α} (slot : t.slots[i]? = some a) : i < n := by
  obtain ⟨inside, -⟩ := List.getElem?_eq_some_iff.mp slot
  rwa [t.length_eq] at inside

theorem getElem?_set_self {t : Table α n} {i : ℕ} {a : α} (inside : i < n) :
    (t.set i a).slots[i]? = some a := by
  rw [set_slots, List.getElem?_set_self (by rwa [t.length_eq])]

theorem getElem?_set_ne {t : Table α n} {i j : ℕ} {a : α} (ne : i ≠ j) :
    (t.set i a).slots[j]? = t.slots[j]? :=
  List.getElem?_set_ne ne

/-- The slot a scan stops at passes the test, and no slot before it does. -/
theorem firstIdx_eq_some {t : Table α n} {p : α → Bool} {i : ℕ} (found : t.firstIdx p = some i) :
    ∃ a, t.slots[i]? = some a ∧ p a = true ∧
      ∀ j b, j < i → t.slots[j]? = some b → p b = false := by
  obtain ⟨inside, pass, fail⟩ := List.findIdx?_eq_some_iff_getElem.mp found
  refine ⟨t.slots[i], List.getElem?_eq_getElem inside, pass, fun j b before slot => ?_⟩
  obtain ⟨_, rfl⟩ := List.getElem?_eq_some_iff.mp slot
  exact Bool.eq_false_iff.mpr (fail j before)

/-- A scan that finds nothing tested every slot. -/
theorem firstIdx_eq_none {t : Table α n} {p : α → Bool} (missed : t.firstIdx p = none)
    {a : α} (member : a ∈ t.slots) : p a = false :=
  List.findIdx?_eq_none_iff.mp missed a member

/-- A scan finds some slot as soon as one passes. -/
theorem exists_firstIdx {t : Table α n} {p : α → Bool} {a : α} (member : a ∈ t.slots)
    (pass : p a = true) : ∃ i, t.firstIdx p = some i := by
  cases found : t.firstIdx p with
  | some i => exact ⟨i, rfl⟩
  | none =>
      have := firstIdx_eq_none found member
      rw [pass] at this
      cases this

/-! ## What the slots hold -/

variable {view : α → Option β} {t : Table α n}

theorem mem_content {b : β} : b ∈ content view t ↔ ∃ a ∈ t.slots, view a = some b := by
  simp only [content, Multiset.mem_coe, List.mem_filterMap]

theorem mem_others {i : ℕ} {b : β} :
    b ∈ others view t i ↔ ∃ j a, j ≠ i ∧ t.slots[j]? = some a ∧ view a = some b := by
  simp only [others, Multiset.mem_coe, List.mem_filterMap, List.mem_eraseIdx_iff_getElem?]
  constructor
  · intro member
    rcases member with ⟨a, ⟨j, ne, slot⟩, held⟩
    exact ⟨j, a, ne, slot, held⟩
  · intro member
    rcases member with ⟨j, a, ne, slot, held⟩
    exact ⟨a, ⟨j, ne, slot⟩, held⟩

/-- The content is what slot `i` holds beside what the others hold. -/
theorem content_eq {i : ℕ} {a : α} (slot : t.slots[i]? = some a) :
    content view t = ↑(view a).toList + others view t i := by
  obtain ⟨inside, rfl⟩ := List.getElem?_eq_some_iff.mp slot
  have perm := (List.getElem_cons_eraseIdx_perm inside).filterMap view
  rw [List.filterMap_cons] at perm
  rw [content, ← Multiset.coe_eq_coe.mpr perm, others]
  cases view t.slots[i] <;> rfl

/-- Replacing a slot changes what that slot holds and nothing else. -/
theorem content_set {i : ℕ} (inside : i < n) (a : α) :
    content view (t.set i a) = ↑(view a).toList + others view t i := by
  have perm := (List.set_perm_cons_eraseIdx (l := t.slots) (by rwa [t.length_eq]) a).filterMap view
  rw [List.filterMap_cons] at perm
  rw [content, set_slots, Multiset.coe_eq_coe.mpr perm, others]
  cases view a <;> rfl

theorem card_content_le : Multiset.card (content view t) ≤ n := by
  have := List.length_filterMap_le view t.slots
  rwa [t.length_eq] at this

/-- A table holds fewer than `n` values exactly when a slot holds nothing. -/
theorem card_content_lt_iff :
    Multiset.card (content view t) < n ↔ ∃ a ∈ t.slots, view a = none := by
  have shorter : (t.slots.filterMap view).length < t.slots.length ↔ _ :=
    List.length_filterMap_lt_length_iff_exists
  rw [t.length_eq] at shorter
  simpa only [content, Multiset.coe_card, exists_prop] using shorter

@[simp] theorem content_fill {a : α} (empty : view a = none) : content view (fill n a) = 0 := by
  refine Multiset.eq_zero_of_forall_notMem fun b member => ?_
  rcases mem_content.mp member with ⟨c, slot, held⟩
  rw [List.eq_of_mem_replicate slot, empty] at held
  cases held

end Table

end HalowBridge
