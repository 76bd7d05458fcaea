import HalowBridge.Lib.Machine

/-!
# Polling a machine

A loop that looks at the state of a machine a number of times, and leaves it alone for a while
between two looks. What happens meanwhile is a list of inputs for each time, so that a schedule is a
list of lists with as many members as the loop has rounds.

`pollLoop_fst` reads the loop as a search in the list of the states it looks at, which is how two
reasons to stop are compared (`findIdx?_eq_iff_of_disjoint`).
-/

namespace HalowBridge

namespace Machine

variable {σ ι ω : Type*} (m : Machine σ ι ω)

/-- The states that are looked at. -/
def polled (s : σ) : List (List ι) → List σ
  | [] => []
  | inputs :: rest => s :: polled (m.exec s inputs) rest

theorem length_polled (s : σ) (schedule : List (List ι)) :
    (m.polled s schedule).length = schedule.length := by
  induction schedule generalizing s with
  | nil => rfl
  | cons inputs rest ih => rw [polled, List.length_cons, List.length_cons, ih]

/-- A machine that is left alone stays where it is. -/
theorem polled_replicate_nil (s : σ) (n : ℕ) :
    m.polled s (List.replicate n []) = List.replicate n s := by
  induction n with
  | zero => rfl
  | succ n ih => rw [List.replicate_succ, polled, exec_nil, ih, List.replicate_succ]

/-- The loop, from round `ii` on: the round in which it stops early, if it does, and the state it
leaves behind. -/
def pollLoop (exit : σ → Prop) [DecidablePred exit] (ii : ℕ) (s : σ) :
    List (List ι) → Option ℕ × σ
  | [] => (none, s)
  | inputs :: rest =>
      if exit s then (some ii, s) else pollLoop exit (ii + 1) (m.exec s inputs) rest

/-- The loop stops at the first state it looks at that meets the condition. -/
theorem pollLoop_fst (exit : σ → Prop) [DecidablePred exit] (ii : ℕ) (s : σ)
    (schedule : List (List ι)) :
    (m.pollLoop exit ii s schedule).1 =
      ((m.polled s schedule).findIdx? (exit ·)).map (· + ii) := by
  induction schedule generalizing ii s with
  | nil => rfl
  | cons inputs rest ih =>
      rw [pollLoop, polled, List.findIdx?_cons]
      by_cases ended : exit s
      · rw [if_pos ended, if_pos (decide_eq_true ended), Option.map_some, Nat.zero_add]
      · rw [if_neg ended, if_neg (by rwa [decide_eq_true_iff]), ih, Option.map_map]
        congr 1
        funext k
        exact (Nat.add_right_comm k 1 ii).symm

theorem pollLoop_zero_fst (exit : σ → Prop) [DecidablePred exit] (s : σ)
    (schedule : List (List ι)) :
    (m.pollLoop exit 0 s schedule).1 = (m.polled s schedule).findIdx? (exit ·) := by
  rw [pollLoop_fst]
  exact Option.map_id'

/-- Every state that is looked at is reached by a part of the inputs. -/
theorem exists_exec_of_mem_polled {s t : σ} {schedule : List (List ι)}
    (member : t ∈ m.polled s schedule) : ∃ inputs, t = m.exec s inputs := by
  induction schedule generalizing s with
  | nil => exact absurd member List.not_mem_nil
  | cons inputs rest ih =>
      rcases List.mem_cons.mp member with rfl | later
      · exact ⟨[], rfl⟩
      · obtain ⟨more, rfl⟩ := ih later
        exact ⟨inputs ++ more, (m.exec_append s inputs more).symm⟩

/-- The state that the loop leaves is reached by a part of the inputs. -/
theorem exists_exec_pollLoop (exit : σ → Prop) [DecidablePred exit] (ii : ℕ) (s : σ)
    (schedule : List (List ι)) :
    ∃ inputs, (m.pollLoop exit ii s schedule).2 = m.exec s inputs := by
  induction schedule generalizing ii s with
  | nil => exact ⟨[], rfl⟩
  | cons inputs rest ih =>
      rw [pollLoop]
      split
      · exact ⟨[], rfl⟩
      · obtain ⟨more, left⟩ := ih (ii + 1) (m.exec s inputs)
        exact ⟨inputs ++ more, left.trans (m.exec_append s inputs more).symm⟩

end Machine

/-- Two searches for things that exclude each other agree only if both fail. -/
theorem findIdx?_eq_iff_of_disjoint {σ : Type*} {p q : σ → Prop} [DecidablePred p]
    [DecidablePred q] {l : List σ} (disjoint : ∀ s ∈ l, p s → ¬ q s) :
    l.findIdx? (p ·) = l.findIdx? (q ·) ↔ ∀ s ∈ l, ¬ p s ∧ ¬ q s := by
  constructor
  · intro same
    cases index : l.findIdx? (p ·) with
    | none =>
        intro s member
        have first := List.findIdx?_eq_none_iff.mp index s member
        have second := List.findIdx?_eq_none_iff.mp (same ▸ index) s member
        exact ⟨of_decide_eq_false first, of_decide_eq_false second⟩
    | some k =>
        obtain ⟨inside, first, -⟩ := List.findIdx?_eq_some_iff_getElem.mp index
        obtain ⟨_, second, -⟩ := List.findIdx?_eq_some_iff_getElem.mp (same ▸ index)
        exact absurd (of_decide_eq_true second)
          (disjoint _ (List.getElem_mem inside) (of_decide_eq_true first))
  · intro neither
    have first : l.findIdx? (p ·) = none :=
      List.findIdx?_eq_none_iff.mpr fun s member => decide_eq_false (neither s member).1
    have second : l.findIdx? (q ·) = none :=
      List.findIdx?_eq_none_iff.mpr fun s member => decide_eq_false (neither s member).2
    rw [first, second]

end HalowBridge
