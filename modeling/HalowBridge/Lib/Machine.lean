import Mathlib.Data.List.Basic
import Mathlib.Data.List.Infix

/-!
# Runs of an input-driven machine

A `Machine` takes one input at a time, moves its state and shows one output. `exec` is the state
after a list of inputs and `trace` the inputs paired with the outputs they caused.

The induction over a run is packaged once. `exec_invariant` carries a predicate of the state and
`trace_history` a relation between the trace so far and the state it leads to. `exec_guarded` is the
form for runs all of whose steps meet a condition: `Guarded` asks the condition of every step, in
the trace and the state before it. `trace_simulation` compares two machines along such a run, and
`filterMap_trace_eq_iff` a machine with a function.
-/

namespace HalowBridge

/-- A deterministic machine: an input moves the state and causes one output. -/
structure Machine (σ ι ω : Type*) where
  step : σ → ι → σ × ω

namespace Machine

variable {σ ι ω : Type*} (m : Machine σ ι ω)

/-- The state after a list of inputs. -/
def exec (s : σ) : List ι → σ
  | [] => s
  | i :: is => exec (m.step s i).1 is

/-- The inputs of a run with the outputs they caused. -/
def trace (s : σ) : List ι → List (ι × ω)
  | [] => []
  | i :: is => (i, (m.step s i).2) :: trace (m.step s i).1 is

@[simp] theorem exec_nil (s : σ) : m.exec s [] = s := rfl

@[simp] theorem exec_cons (s : σ) (i : ι) (is : List ι) :
    m.exec s (i :: is) = m.exec (m.step s i).1 is := rfl

@[simp] theorem trace_nil (s : σ) : m.trace s [] = [] := rfl

@[simp] theorem trace_cons (s : σ) (i : ι) (is : List ι) :
    m.trace s (i :: is) = (i, (m.step s i).2) :: m.trace (m.step s i).1 is := rfl

theorem exec_append (s : σ) (is js : List ι) :
    m.exec s (is ++ js) = m.exec (m.exec s is) js := by
  induction is generalizing s with
  | nil => rfl
  | cons i is ih => exact ih _

theorem trace_append (s : σ) (is js : List ι) :
    m.trace s (is ++ js) = m.trace s is ++ m.trace (m.exec s is) js := by
  induction is generalizing s with
  | nil => rfl
  | cons i is ih => rw [List.cons_append, trace_cons, trace_cons, exec_cons, ih, List.cons_append]

theorem exec_concat (s : σ) (is : List ι) (i : ι) :
    m.exec s (is ++ [i]) = (m.step (m.exec s is) i).1 :=
  m.exec_append s is [i]

theorem trace_concat (s : σ) (is : List ι) (i : ι) :
    m.trace s (is ++ [i]) = m.trace s is ++ [(i, (m.step (m.exec s is) i).2)] :=
  m.trace_append s is [i]

/-- The trace of a run shows its inputs. -/
@[simp] theorem map_fst_trace (s : σ) (is : List ι) : (m.trace s is).map Prod.fst = is := by
  induction is generalizing s with
  | nil => rfl
  | cons i is ih => rw [trace_cons, List.map_cons, ih]

theorem mem_of_mem_trace {s : σ} {is : List ι} {i : ι} {o : ω} (member : (i, o) ∈ m.trace s is) :
    i ∈ is := by
  rw [← m.map_fst_trace s is]
  exact List.mem_map_of_mem member

/-- What one step preserves holds after every run. -/
theorem exec_invariant {P : σ → Prop} {s : σ} (init : P s)
    (preserved : ∀ s i, P s → P (m.step s i).1) (is : List ι) : P (m.exec s is) := by
  induction is generalizing s with
  | nil => exact init
  | cons i is ih => exact ih (preserved s i init)

/-- A relation between the trace so far and the state, extended by one step at the end. -/
theorem trace_history {P : List (ι × ω) → σ → Prop} {s₀ : σ} (init : P [] s₀)
    (extended : ∀ tr s i, P tr s → P (tr ++ [(i, (m.step s i).2)]) (m.step s i).1)
    (is : List ι) : P (m.trace s₀ is) (m.exec s₀ is) := by
  induction is using List.reverseRecOn with
  | nil => exact init
  | append_singleton is i ih =>
      rw [trace_concat, exec_concat]
      exact extended _ _ i ih

/-- Every step of the run meets `G`, read in the trace and the state before that step. -/
def Guarded (G : List (ι × ω) → σ → ι → Prop) (s₀ : σ) (is : List ι) : Prop :=
  ∀ before i, before ++ [i] <+: is → G (m.trace s₀ before) (m.exec s₀ before) i

theorem Guarded.of_prefix {G : List (ι × ω) → σ → ι → Prop} {s₀ : σ} {is js : List ι}
    (guarded : m.Guarded G s₀ js) (le : is <+: js) : m.Guarded G s₀ is :=
  fun before i here => guarded before i (here.trans le)

/-- The rest of a run is guarded from where it begins. -/
theorem Guarded.of_append {G : σ → ι → Prop} {s₀ : σ} {is js : List ι}
    (guarded : m.Guarded (fun _ => G) s₀ (is ++ js)) :
    m.Guarded (fun _ => G) (m.exec s₀ is) js := by
  intro before i here
  have inside : (is ++ before) ++ [i] <+: is ++ js := by
    rw [List.append_assoc]
    exact (List.prefix_append_right_inj is).mpr here
  have last := guarded (is ++ before) i inside
  rwa [exec_append] at last

theorem guarded_nil {G : List (ι × ω) → σ → ι → Prop} {s₀ : σ} : m.Guarded G s₀ [] := by
  intro before i here
  have := here.length_le
  simp at this

theorem Guarded.concat {G : List (ι × ω) → σ → ι → Prop} {s₀ : σ} {is : List ι} {i : ι}
    (guarded : m.Guarded G s₀ is) (last : G (m.trace s₀ is) (m.exec s₀ is) i) :
    m.Guarded G s₀ (is ++ [i]) := by
  intro before j here
  rcases List.prefix_concat_iff.mp here with same | inside
  · rcases List.append_inj' same rfl with ⟨rfl, single⟩
    obtain rfl := List.singleton_inj.mp single
    exact last
  · exact guarded before j inside

/-- The last step of a guarded run, and those before it. -/
theorem guarded_concat_iff {G : List (ι × ω) → σ → ι → Prop} {s₀ : σ} {is : List ι} {i : ι} :
    m.Guarded G s₀ (is ++ [i]) ↔
      m.Guarded G s₀ is ∧ G (m.trace s₀ is) (m.exec s₀ is) i :=
  ⟨fun guarded => ⟨guarded.of_prefix m (List.prefix_append is [i]),
      guarded is i (List.prefix_refl _)⟩,
    fun ⟨guarded, last⟩ => guarded.concat m last⟩

/-- The first step of a guarded run, and the rest of it. -/
theorem guarded_cons_iff {G : σ → ι → Prop} {s₀ : σ} {i : ι} {is : List ι} :
    m.Guarded (fun _ => G) s₀ (i :: is) ↔
      G s₀ i ∧ m.Guarded (fun _ => G) (m.step s₀ i).1 is := by
  constructor
  · intro guarded
    have whole : m.Guarded (fun _ => G) s₀ ([i] ++ is) := guarded
    exact ⟨guarded [] i (List.cons_prefix_cons.mpr ⟨rfl, List.nil_prefix⟩), whole.of_append⟩
  · rintro ⟨first, rest⟩ before j here
    cases before with
    | nil =>
        obtain ⟨rfl, -⟩ := List.cons_prefix_cons.mp here
        exact first
    | cons k before =>
        obtain ⟨rfl, inside⟩ := List.cons_prefix_cons.mp here
        exact rest before j inside

/-- A guarded run, step by step. -/
theorem guarded_iff {G : List (ι × ω) → σ → ι → Prop} {s₀ : σ} {is : List ι} :
    m.Guarded G s₀ is ↔
      ∀ k : Fin is.length, G (m.trace s₀ (is.take k)) (m.exec s₀ (is.take k)) (is.get k) := by
  constructor
  · intro guarded k
    apply guarded
    rw [List.get_eq_getElem, List.take_concat_get']
    exact List.take_prefix _ _
  · intro steps before i here
    obtain ⟨after, rfl⟩ := here
    have inside : before.length < (before ++ [i] ++ after).length := by simp
    simpa using steps ⟨before.length, inside⟩

instance {G : List (ι × ω) → σ → ι → Prop} [∀ tr s i, Decidable (G tr s i)] {s₀ : σ}
    {is : List ι} : Decidable (m.Guarded G s₀ is) :=
  decidable_of_iff _ m.guarded_iff.symm

/-- The invariant rule for runs all of whose steps meet a condition. -/
theorem exec_guarded {G : List (ι × ω) → σ → ι → Prop} {P : List (ι × ω) → σ → Prop} {s₀ : σ}
    (init : P [] s₀)
    (extended : ∀ tr s i, P tr s → G tr s i → P (tr ++ [(i, (m.step s i).2)]) (m.step s i).1)
    {is : List ι} (guarded : m.Guarded G s₀ is) : P (m.trace s₀ is) (m.exec s₀ is) := by
  induction is using List.reverseRecOn with
  | nil => exact init
  | append_singleton is i ih =>
      rw [trace_concat, exec_concat]
      exact extended _ _ i (ih (guarded.of_prefix m (List.prefix_append is [i])))
        (guarded is i (List.prefix_refl _))

/-- The simulation rule for such runs: where a relation between the states of two machines is kept
by every step that meets the condition, and the outputs are the same, the traces are the same. -/
theorem trace_simulation {τ : Type*} (n : Machine τ ι ω) {G : List (ι × ω) → σ → ι → Prop}
    {R : σ → τ → Prop} {s₀ : σ} {t₀ : τ} (init : R s₀ t₀)
    (matched : ∀ tr s t i, R s t → G tr s i →
      R (m.step s i).1 (n.step t i).1 ∧ (m.step s i).2 = (n.step t i).2)
    {is : List ι} (guarded : m.Guarded G s₀ is) :
    m.trace s₀ is = n.trace t₀ is ∧ R (m.exec s₀ is) (n.exec t₀ is) := by
  induction is using List.reverseRecOn with
  | nil => exact ⟨rfl, init⟩
  | append_singleton is i ih =>
      rcases ih (guarded.of_prefix m (List.prefix_append is [i])) with ⟨same, related⟩
      rcases matched _ _ _ i related (guarded is i (List.prefix_refl _)) with ⟨next, output⟩
      rw [trace_concat, trace_concat, exec_concat, exec_concat, same, output]
      exact ⟨rfl, next⟩

/-- Where a relation between two machines is kept by every step, their traces are the same exactly
along the runs all of whose steps have the same output. -/
theorem trace_eq_iff_guarded {τ : Type*} (n : Machine τ ι ω) {G : τ → ι → Prop}
    {R : σ → τ → Prop} (kept : ∀ s t i, R s t → R (m.step s i).1 (n.step t i).1)
    (same : ∀ s t i, R s t → ((m.step s i).2 = (n.step t i).2 ↔ G t i)) {s₀ : σ} {t₀ : τ}
    (init : R s₀ t₀) (is : List ι) :
    m.trace s₀ is = n.trace t₀ is ↔ n.Guarded (fun _ => G) t₀ is := by
  induction is generalizing s₀ t₀ with
  | nil => exact iff_of_true rfl n.guarded_nil
  | cons i is ih =>
      rw [trace_cons, trace_cons, guarded_cons_iff, List.cons.injEq, Prod.mk.injEq,
        same s₀ t₀ i init, ih (kept s₀ t₀ i init), eq_self_iff_true, true_and]

theorem filterMap_concat {α β : Type*} (f : α → Option β) (xs : List α) (x : α) :
    (xs ++ [x]).filterMap f = xs.filterMap f ++ (f x).toList := by
  rw [List.filterMap_append]
  cases value : f x <;> simp [value]

/-- A machine that answers some of its inputs gives the answers of a function, at all times, exactly
along the runs all of whose steps do. -/
theorem filterMap_trace_eq_iff {γ : Type*} (m : Machine σ ι (Option γ)) {f : ι → Option γ}
    {s₀ : σ} {is : List ι} :
    (∀ before, before <+: is → (m.trace s₀ before).filterMap Prod.snd = before.filterMap f) ↔
      m.Guarded (fun _ s i => (m.step s i).2 = f i) s₀ is := by
  have toList_inj {o p : Option γ} : o.toList = p.toList ↔ o = p := by
    cases o <;> cases p <;> simp
  induction is using List.reverseRecOn with
  | nil =>
      refine iff_of_true (fun before inside => ?_) m.guarded_nil
      rw [List.prefix_nil.mp inside]
      rfl
  | append_singleton is i ih =>
      have last (same : (m.trace s₀ is).filterMap Prod.snd = is.filterMap f) :
          (m.trace s₀ (is ++ [i])).filterMap Prod.snd = (is ++ [i]).filterMap f ↔
            (m.step (m.exec s₀ is) i).2 = f i := by
        rw [trace_concat, filterMap_concat, filterMap_concat, same, List.append_cancel_left_eq,
          toList_inj]
      rw [guarded_concat_iff]
      constructor
      · intro answers
        refine ⟨ih.mp fun before inside => ?_, ?_⟩
        · exact answers before (inside.trans (List.prefix_append is [i]))
        · exact (last (answers is (List.prefix_append is [i]))).mp
            (answers (is ++ [i]) (List.prefix_refl _))
      · rintro ⟨guarded, step⟩ before inside
        have answers := ih.mpr guarded
        rcases List.prefix_concat_iff.mp inside with rfl | earlier
        · exact (last (answers is (List.prefix_refl is))).mpr step
        · exact answers before earlier

end Machine

end HalowBridge
