import Mathlib.Data.List.Basic

/-!
# Loops that are undone

A loop whose step is undone by another is undone by the loop of the other over the list from its
end. So is a loop of loops, each of which is undone in turn.
-/

namespace HalowBridge

variable {σ ι κ : Type*}

/-- `g` undoes `f`, with the same input. -/
def Undoes (g f : σ → ι → σ) : Prop := ∀ s i, g (f s i) i = s

/-- **A loop is undone from its end.** -/
theorem Undoes.foldl_reverse {f g : σ → ι → σ} (undoes : Undoes g f) (is : List ι) (s : σ) :
    is.reverse.foldl g (is.foldl f s) = s := by
  induction is generalizing s with
  | nil => rfl
  | cons i is ih =>
      rw [List.foldl_cons, List.reverse_cons, List.foldl_append, ih]
      exact undoes s i

/-- The loops over one list for each element of another. -/
theorem Undoes.loop {f g : κ → σ → ι → σ} (undoes : ∀ k, Undoes (g k) (f k)) (is : List ι) :
    Undoes (fun s k => is.reverse.foldl (g k) s) (fun s k => is.foldl (f k) s) :=
  fun s k => (undoes k).foldl_reverse is s

end HalowBridge
