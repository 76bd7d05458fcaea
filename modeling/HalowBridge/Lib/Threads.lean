import HalowBridge.Lib.Machine
import Mathlib.Algebra.BigOperators.Group.Multiset.Basic

/-!
# Calls that interleave

A `Program` says what the calls of some functions do to the state they share, one atomic step at a
time: `enter` begins a call and `advance` does the next step of a call that stands at a position of
type `π`. A call that returns has no position any more. The machine of a program keeps the list of
calls in progress, and its inputs say which call moves next, so that its runs are the interleavings
of any number of callers.

The calls in progress matter to an invariant as a multiset. `invariant` and `invariant_guarded` ask
for one lemma on `enter` and one on `advance`, in which the other calls are arbitrary; `total` adds
a weight up over the calls, so that an invariant about counters becomes arithmetic.
-/

namespace HalowBridge

/-- Functions that run concurrently on a shared state, step by step. -/
structure Program (σ π ι ε : Type*) where
  /-- A call begins. -/
  enter : σ → ι → σ × Option π
  /-- A call moves; the environment decides an outcome. -/
  advance : σ → π → ε → σ × Option π

/-- The shared state and the calls in progress. -/
structure Threads (σ π : Type*) where
  shared : σ
  calls : List π

/-- A call begins, or one in progress moves. -/
inductive Turn (ι ε : Type*) where
  | enter (call : ι)
  | advance (i : ℕ) (outcome : ε)

/-- The calls in progress once one of them stands at the position, or has returned. -/
def withCall {π : Type*} : Option π → Multiset π → Multiset π
  | none, calls => calls
  | some pc, calls => pc ::ₘ calls

@[simp] theorem withCall_none {π : Type*} (calls : Multiset π) : withCall none calls = calls := rfl

@[simp] theorem withCall_some {π : Type*} (pc : π) (calls : Multiset π) :
    withCall (some pc) calls = pc ::ₘ calls := rfl

theorem coe_toList_add {π : Type*} (next : Option π) (calls : Multiset π) :
    ↑next.toList + calls = withCall next calls := by
  cases next with
  | none => exact Multiset.zero_add calls
  | some pc => exact Multiset.singleton_add pc calls

/-- The sum of a weight over the calls. -/
def total {π : Type*} (weight : π → ℕ) (calls : Multiset π) : ℕ := (calls.map weight).sum

@[simp] theorem total_zero {π : Type*} (weight : π → ℕ) : total weight 0 = 0 := rfl

@[simp] theorem total_cons {π : Type*} (weight : π → ℕ) (pc : π) (calls : Multiset π) :
    total weight (pc ::ₘ calls) = weight pc + total weight calls := by
  rw [total, Multiset.map_cons, Multiset.sum_cons, total]

theorem total_le_total {π : Type*} {weight other : π → ℕ} (le : ∀ pc, weight pc ≤ other pc)
    (calls : Multiset π) : total weight calls ≤ total other calls := by
  induction calls using Multiset.induction_on with
  | empty => exact Nat.le_refl 0
  | cons pc calls ih =>
      rw [total_cons, total_cons]
      exact Nat.add_le_add (le pc) ih

theorem total_add {π : Type*} (weight other : π → ℕ) (calls : Multiset π) :
    total (fun pc => weight pc + other pc) calls = total weight calls + total other calls :=
  Multiset.sum_map_add

/-- What is taken out of a list was counted in it. -/
theorem count_eq_count_erase {π : Type*} [DecidableEq π] {calls : List π} {pc : π}
    (member : pc ∈ calls) (other : π) :
    calls.count other = (calls.erase pc).count other + if pc = other then 1 else 0 := by
  rw [(List.perm_cons_erase member).count_eq, List.count_cons]
  simp only [beq_iff_eq]

namespace Program

variable {σ π ι ε : Type*} (prog : Program σ π ι ε)

/-- One turn. A turn of a call that is not there does nothing. -/
def turn (s : Threads σ π) : Turn ι ε → Threads σ π
  | .enter call =>
      let (shared, next) := prog.enter s.shared call
      ⟨shared, s.calls ++ next.toList⟩
  | .advance i outcome =>
      match s.calls[i]? with
      | none => s
      | some pc =>
          let (shared, next) := prog.advance s.shared pc outcome
          ⟨shared, s.calls.take i ++ next.toList ++ s.calls.drop (i + 1)⟩

/-- All interleavings of the calls. -/
def machine : Machine (Threads σ π) (Turn ι ε) Unit where
  step s t := (prog.turn s t, ())

/-- A condition on the call that moves, the shared state and the other calls. -/
def Allows (G : σ → π → Multiset π → Prop) (s : Threads σ π) : Turn ι ε → Prop
  | .enter _ => True
  | .advance i _ =>
      match s.calls[i]? with
      | none => True
      | some pc => G s.shared pc ↑(s.calls.eraseIdx i)

instance {G : σ → π → Multiset π → Prop} [∀ s pc calls, Decidable (G s pc calls)]
    (s : Threads σ π) : (t : Turn ι ε) → Decidable (Allows G s t)
  | .enter _ => inferInstanceAs (Decidable True)
  | .advance i _ =>
      match h : s.calls[i]? with
      | none => .isTrue (by simp [Allows, h])
      | some pc => decidable_of_iff (G s.shared pc ↑(s.calls.eraseIdx i)) (by simp [Allows, h])

/-- Every turn of the run meets the condition. -/
abbrev AllowsAll (G : σ → π → Multiset π → Prop) (s : Threads σ π) (turns : List (Turn ι ε)) :
    Prop :=
  prog.machine.Guarded (fun _ s t => Allows G s t) s turns

theorem coe_take_append_drop {calls : List π} {i : ℕ} (next : Option π) :
    (↑(calls.take i ++ next.toList ++ calls.drop (i + 1)) : Multiset π) =
      withCall next ↑(calls.eraseIdx i) := by
  rw [← coe_toList_add, Multiset.coe_add, List.eraseIdx_eq_take_drop_succ]
  exact Multiset.coe_eq_coe.mpr ((List.perm_append_comm.append_right _).trans (by simp))

theorem coe_eq_cons_eraseIdx {calls : List π} {i : ℕ} {pc : π} (here : calls[i]? = some pc) :
    (↑calls : Multiset π) = pc ::ₘ ↑(calls.eraseIdx i) := by
  obtain ⟨inside, rfl⟩ := List.getElem?_eq_some_iff.mp here
  exact Multiset.coe_eq_coe.mpr (List.getElem_cons_eraseIdx_perm inside).symm

/-- The turn of a call that is there. -/
theorem turn_advance {s : Threads σ π} {i : ℕ} {pc : π} (here : s.calls[i]? = some pc)
    (outcome : ε) :
    (prog.turn s (.advance i outcome)).shared = (prog.advance s.shared pc outcome).1 ∧
      (↑(prog.turn s (.advance i outcome)).calls : Multiset π) =
        withCall (prog.advance s.shared pc outcome).2 ↑(s.calls.eraseIdx i) := by
  rw [turn, here]
  exact ⟨rfl, coe_take_append_drop _⟩

/-- One turn keeps what both kinds of step keep. -/
theorem turn_invariant {I : σ → Multiset π → Prop} {G : σ → π → Multiset π → Prop}
    (enter : ∀ s calls call, I s calls →
      I (prog.enter s call).1 (withCall (prog.enter s call).2 calls))
    (advance : ∀ s pc others outcome, I s (pc ::ₘ others) → G s pc others →
      I (prog.advance s pc outcome).1 (withCall (prog.advance s pc outcome).2 others))
    {s : Threads σ π} (holds : I s.shared ↑s.calls) {t : Turn ι ε} (allowed : Allows G s t) :
    I (prog.turn s t).shared ↑(prog.turn s t).calls := by
  cases t with
  | enter call =>
      have kept := enter _ _ call holds
      rw [← coe_toList_add, Multiset.coe_add] at kept
      simp only [turn]
      rwa [Multiset.coe_eq_coe.mpr List.perm_append_comm]
  | advance i outcome =>
      cases here : s.calls[i]? with
      | none =>
          rw [turn, here]
          exact holds
      | some pc =>
          obtain ⟨shared, calls⟩ := prog.turn_advance here outcome
          rw [Allows, here] at allowed
          rw [coe_eq_cons_eraseIdx here] at holds
          rw [shared, calls]
          exact advance _ _ _ outcome holds allowed

/-- The invariant rule for runs all of whose turns meet a condition. -/
theorem invariant_guarded {I : σ → Multiset π → Prop} {G : σ → π → Multiset π → Prop}
    {s₀ : σ} (init : I s₀ 0)
    (enter : ∀ s calls call, I s calls →
      I (prog.enter s call).1 (withCall (prog.enter s call).2 calls))
    (advance : ∀ s pc others outcome, I s (pc ::ₘ others) → G s pc others →
      I (prog.advance s pc outcome).1 (withCall (prog.advance s pc outcome).2 others))
    {turns : List (Turn ι ε)} (allowed : prog.AllowsAll G ⟨s₀, []⟩ turns) :
    I (prog.machine.exec ⟨s₀, []⟩ turns).shared ↑(prog.machine.exec ⟨s₀, []⟩ turns).calls :=
  prog.machine.exec_guarded (P := fun _ s => I s.shared ↑s.calls) init
    (fun _ _ _ holds allowed => prog.turn_invariant enter advance holds allowed) allowed

/-- The invariant rule for all runs, wherever they begin. -/
theorem invariant_from {I : σ → Multiset π → Prop} {s : Threads σ π} (init : I s.shared ↑s.calls)
    (enter : ∀ s calls call, I s calls →
      I (prog.enter s call).1 (withCall (prog.enter s call).2 calls))
    (advance : ∀ s pc others outcome, I s (pc ::ₘ others) →
      I (prog.advance s pc outcome).1 (withCall (prog.advance s pc outcome).2 others))
    (turns : List (Turn ι ε)) :
    I (prog.machine.exec s turns).shared ↑(prog.machine.exec s turns).calls := by
  refine prog.machine.exec_invariant (P := fun s => I s.shared ↑s.calls) init
    (fun s t holds => ?_) turns
  apply prog.turn_invariant (G := fun _ _ _ => True) enter
  · exact fun s pc others outcome holds _ => advance s pc others outcome holds
  · exact holds
  · cases t with
    | enter call => trivial
    | advance i outcome =>
        rw [Allows]
        split <;> trivial

/-- The invariant rule for all runs from the beginning. -/
theorem invariant {I : σ → Multiset π → Prop} {s₀ : σ} (init : I s₀ 0)
    (enter : ∀ s calls call, I s calls →
      I (prog.enter s call).1 (withCall (prog.enter s call).2 calls))
    (advance : ∀ s pc others outcome, I s (pc ::ₘ others) →
      I (prog.advance s pc outcome).1 (withCall (prog.advance s pc outcome).2 others))
    (turns : List (Turn ι ε)) :
    I (prog.machine.exec ⟨s₀, []⟩ turns).shared ↑(prog.machine.exec ⟨s₀, []⟩ turns).calls :=
  prog.invariant_from (s := ⟨s₀, []⟩) init enter advance turns

/-- The program with some of its functions only, or with other names for them. -/
def restrict {κ : Type*} (f : κ → ι) : Program σ π κ ε where
  enter s call := prog.enter s (f call)
  advance := prog.advance

end Program

end HalowBridge
