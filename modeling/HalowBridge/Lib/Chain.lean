import Mathlib.Data.List.Basic
import Mathlib.Logic.Function.Basic

/-!
# Linked nodes

Nodes that hold a link to the next node, in a memory `next`. `Segment next p xs q` says that the
links lead from `p` through the nodes of `xs` to `q`; with a null node for `q` it is a linked list.
A segment is cut at a node with `segment_append`, and a write to a node outside leaves it alone
(`segment_update`), so that a change of one link is read off a list that is cut there.

`follow` is the loop that collects the nodes up to the null node. It finds a linked list whenever it
may take as many steps as the list has nodes.
-/

namespace HalowBridge

variable {α : Type*} {next : α → α} {p q : α} {xs ys : List α}

/-- The links lead from a node through those of the list to another. -/
def Segment (next : α → α) : α → List α → α → Prop
  | p, [], q => p = q
  | p, x :: xs, q => p = x ∧ Segment next (next x) xs q

@[simp] theorem segment_nil : Segment next p [] q ↔ p = q := Iff.rfl

@[simp] theorem segment_cons {x : α} :
    Segment next p (x :: xs) q ↔ p = x ∧ Segment next (next x) xs q := Iff.rfl

/-- A segment in two parts. -/
theorem segment_append :
    Segment next p (xs ++ ys) q ↔ ∃ m, Segment next p xs m ∧ Segment next m ys q := by
  induction xs generalizing p with
  | nil => simp
  | cons x xs ih => simp only [List.cons_append, segment_cons, ih, and_assoc, exists_and_left]

/-- A segment up to its last node. -/
theorem segment_concat {x : α} :
    Segment next p (xs ++ [x]) q ↔ Segment next p xs x ∧ next x = q := by
  rw [segment_append]
  constructor
  · rintro ⟨_, front, rfl, last⟩
    exact ⟨front, last⟩
  · rintro ⟨front, last⟩
    exact ⟨x, front, rfl, last⟩

/-- Only the links of its nodes matter to a segment. -/
theorem Segment.congr {other : α → α} (segment : Segment next p xs q)
    (same : ∀ x ∈ xs, other x = next x) : Segment other p xs q := by
  induction xs generalizing p with
  | nil => exact segment
  | cons x xs ih =>
      obtain ⟨here, rest⟩ := segment
      refine ⟨here, ?_⟩
      rw [same x List.mem_cons_self]
      exact ih rest fun y member => same y (List.mem_cons_of_mem x member)

/-- A write outside a segment. -/
theorem Segment.update [DecidableEq α] {x : α} (segment : Segment next p xs q) (outside : x ∉ xs)
    (link : α) : Segment (Function.update next x link) p xs q :=
  segment.congr fun _ member =>
    Function.update_of_ne (ne_of_mem_of_not_mem member outside) link next

/-- A linked list is empty when it begins with the null node. -/
theorem Segment.eq_null_iff {null : α} (segment : Segment next p xs null) (nonnull : null ∉ xs) :
    p = null ↔ xs = [] := by
  cases xs with
  | nil => exact iff_of_true segment rfl
  | cons x xs =>
      obtain ⟨rfl, -⟩ := segment
      exact iff_of_false (fun same => nonnull (same ▸ List.mem_cons_self)) (List.cons_ne_nil _ _)

/-- The nodes from one on, up to the null node, in so many steps. -/
def follow [DecidableEq α] (next : α → α) (null : α) : ℕ → α → Option (List α)
  | 0, p => if p = null then some [] else none
  | fuel + 1, p => if p = null then some [] else (follow next null fuel (next p)).map (p :: ·)

/-- A linked list is found. -/
theorem Segment.follow [DecidableEq α] {null : α} {fuel : ℕ} (segment : Segment next p xs null)
    (nonnull : null ∉ xs) (enough : xs.length ≤ fuel) :
    follow next null fuel p = some xs := by
  induction xs generalizing p fuel with
  | nil =>
      obtain rfl := segment
      cases fuel <;> exact if_pos rfl
  | cons x xs ih =>
      obtain ⟨rfl, rest⟩ := segment
      obtain ⟨notHere, notThere⟩ := not_or.mp (mt List.mem_cons.mpr nonnull)
      cases fuel with
      | zero => exact absurd enough (Nat.not_succ_le_zero _)
      | succ fuel =>
          rw [HalowBridge.follow, if_neg (Ne.symm notHere),
            ih rest notThere (Nat.le_of_succ_le_succ enough), Option.map_some]

end HalowBridge
