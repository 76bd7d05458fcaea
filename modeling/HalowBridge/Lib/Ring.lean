import HalowBridge.Lib.Table

/-!
# Rings

A table that is written round and round: the entry with the number `k` goes to the slot `k` modulo
the size. `Keeps` says that a table holds the last entries of a log so, and `Keeps.push` that it
goes on to do so.
-/

namespace HalowBridge.Table

variable {α : Type*} {n : ℕ}

/-- The slots hold the last entries of the log. -/
def Keeps (t : Table α n) (log : List α) : Prop :=
  ∀ k, log.length ≤ k + n → k < log.length → t.slots[k % n]? = log[k]?

theorem keeps_nil (t : Table α n) : t.Keeps [] := fun _ _ inside => (Nat.not_lt_zero _ inside).elim

/-- Two numbers less than a round apart have different slots. -/
theorem mod_ne_of_lt {j k : ℕ} (before : j < k) (near : k < j + n) : k % n ≠ j % n := by
  intro same
  have apart : (k - j) % n = 0 := Nat.sub_mod_eq_zero_of_mod_eq same
  rw [Nat.mod_eq_of_lt (by omega)] at apart
  omega

/-- The next entry goes over the oldest one. -/
theorem Keeps.push {t : Table α n} {log : List α} (keeps : t.Keeps log) (nonempty : 0 < n)
    (a : α) : (t.set (log.length % n) a).Keeps (log ++ [a]) := by
  intro k recent inside
  rw [List.length_append, List.length_singleton] at recent inside
  rcases Nat.lt_succ_iff_lt_or_eq.mp inside with older | rfl
  · rw [getElem?_set_ne (mod_ne_of_lt older (by omega)), List.getElem?_append_left older]
    exact keeps k (by omega) older
  · rw [getElem?_set_self (Nat.mod_lt _ nonempty), List.getElem?_concat_length]

end HalowBridge.Table
