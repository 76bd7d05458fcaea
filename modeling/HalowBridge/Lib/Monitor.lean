import Mathlib.Data.List.Induction

/-!
# Monitors

A `Monitor` follows the actions of a system as long as each of them is allowed where it comes; a log
is accepted if every action in it is. What is proved of a system by an invariant, that its log is
accepted, is read off the log in two ways. `Behind` is a property of the actions before each action,
and `Accepts.behind` takes it from a relation between log and state. `Separated` says that between
two actions stands a third; by `Accepts.separated` it does where the first leads to states in which
the second is not allowed, and only the third leads out of these.
-/

namespace HalowBridge

/-- An action moves the state, or is not allowed. -/
structure Monitor (μ α : Type*) where
  step : μ → α → Option μ

namespace Monitor

variable {μ α : Type*} (m : Monitor μ α)

/-- The state after a log, if all of it is allowed. -/
def replay (s : μ) (log : List α) : Option μ := log.foldlM m.step s

/-- Every action of the log is allowed. -/
def Accepts (s : μ) (log : List α) : Prop := ∃ t, m.replay s log = some t

theorem replay_nil (s : μ) : m.replay s [] = some s := rfl

theorem replay_cons (s : μ) (a : α) (log : List α) :
    m.replay s (a :: log) = (m.step s a).bind fun t => m.replay t log := by
  rw [replay, List.foldlM_cons]
  rfl

theorem replay_append (s : μ) (log rest : List α) :
    m.replay s (log ++ rest) = (m.replay s log).bind fun t => m.replay t rest := by
  rw [replay, List.foldlM_append]
  rfl

variable {m} {s t u : μ} {log : List α} {a : α}

theorem replay_concat_iff :
    m.replay s (log ++ [a]) = some u ↔ ∃ t, m.replay s log = some t ∧ m.step t a = some u := by
  rw [replay_append, Option.bind_eq_some_iff]
  refine exists_congr fun t => and_congr_right fun _ => ?_
  rw [replay_cons, Option.bind_eq_some_iff]
  constructor
  · rintro ⟨v, moved, last⟩
    rw [replay_nil] at last
    exact moved.trans last
  · exact fun moved => ⟨u, moved, rfl⟩

/-- One action more. -/
theorem replay_concat (before : m.replay s log = some t) (allowed : m.step t a = some u) :
    m.replay s (log ++ [a]) = some u :=
  replay_concat_iff.mpr ⟨t, before, allowed⟩

/-- A relation between the log so far and the state, extended by one action at the end. -/
theorem replay_history {P : List α → μ → Prop} (init : P [] s)
    (extended : ∀ log s a t, P log s → m.step s a = some t → P (log ++ [a]) t)
    (replayed : m.replay s log = some t) : P log t := by
  induction log using List.reverseRecOn generalizing t with
  | nil =>
      rw [replay_nil, Option.some_inj] at replayed
      exact replayed ▸ init
  | append_singleton log a ih =>
      rcases replay_concat_iff.mp replayed with ⟨u, before, moved⟩
      exact extended log u a t (ih before) moved

/-- An accepted log around one of its actions. -/
theorem Accepts.around {before after : List α} (accepted : m.Accepts s (before ++ a :: after)) :
    ∃ t u, m.replay s before = some t ∧ m.step t a = some u ∧ m.Accepts u after := by
  rcases accepted with ⟨last, replayed⟩
  rw [replay_append] at replayed
  rcases Option.bind_eq_some_iff.mp replayed with ⟨t, first, rest⟩
  rw [replay_cons] at rest
  rcases Option.bind_eq_some_iff.mp rest with ⟨u, moved, rest⟩
  exact ⟨t, u, first, moved, last, rest⟩

/-! ## Properties of a log -/

/-- Each action has a property together with the actions before it. -/
def Behind (P : List α → α → Prop) (log : List α) : Prop :=
  ∀ before a after, log = before ++ a :: after → P before a

/-- Between two actions of a pair stands one that separates the first from what follows. -/
def Separated (pair sep : α → α → Prop) (log : List α) : Prop :=
  ∀ before a mid b after, log = before ++ a :: (mid ++ b :: after) → pair a b → ∃ c ∈ mid, sep a c

/-- Some action had a property together with the actions before it, and all since then have
another. -/
def Since (P : List α → α → Prop) (Q : α → Prop) (log : List α) : Prop :=
  ∃ before a after, log = before ++ a :: after ∧ P before a ∧ ∀ c ∈ after, Q c

theorem since_concat {P : List α → α → Prop} {Q : α → Prop} (now : P log a) :
    Since P Q (log ++ [a]) :=
  ⟨log, a, [], rfl, now, nofun⟩

theorem Since.concat {P : List α → α → Prop} {Q : α → Prop} (since : Since P Q log) (still : Q a) :
    Since P Q (log ++ [a]) := by
  rcases since with ⟨before, b, after, rfl, then', kept⟩
  refine ⟨before, b, after ++ [a], List.append_assoc .., then', fun c member => ?_⟩
  rcases List.mem_append.mp member with old | new
  · exact kept c old
  · rw [List.mem_singleton.mp new]
    exact still

/-- What the state says about the actions before it is known where an action is allowed. -/
theorem Accepts.behind {H : List α → μ → Prop} {P : List α → α → Prop} (init : H [] s)
    (extended : ∀ log s a t, H log s → m.step s a = some t → H (log ++ [a]) t)
    (allowed : ∀ log s a t, H log s → m.step s a = some t → P log a)
    (accepted : m.Accepts s log) : Behind P log := by
  rintro before a after rfl
  rcases accepted.around with ⟨t, u, first, moved, -⟩
  exact allowed before t a u (replay_history init extended first) moved

/-- What is kept by all actions but some is left by one of these only. -/
theorem exists_leaving {P : μ → Prop} {leaves : α → Prop} (init : P s)
    (kept : ∀ s c t, P s → ¬leaves c → m.step s c = some t → P t)
    (replayed : m.replay s log = some t) (left : ¬P t) : ∃ c ∈ log, leaves c := by
  induction log using List.reverseRecOn generalizing t with
  | nil =>
      rw [replay_nil, Option.some_inj] at replayed
      exact absurd (replayed ▸ init) left
  | append_singleton log a ih =>
      rcases replay_concat_iff.mp replayed with ⟨u, before, moved⟩
      by_cases out : leaves a
      · exact ⟨a, List.mem_append_right _ List.mem_cons_self, out⟩
      · rcases ih before fun stays => left (kept u a t stays out moved) with ⟨c, member, leaving⟩
        exact ⟨c, List.mem_append_left _ member, leaving⟩

/-- An action that is not allowed in the first states is behind one that leaves them. -/
theorem Accepts.preceded {P : μ → Prop} {second leaves : α → Prop} (init : P s)
    (kept : ∀ s c t, P s → ¬leaves c → m.step s c = some t → P t)
    (blocked : ∀ s b, P s → second b → m.step s b = none) (accepted : m.Accepts s log) :
    Behind (fun before b => second b → ∃ c ∈ before, leaves c) log := by
  rintro before b after rfl later
  rcases accepted.around with ⟨t, u, first, moved, -⟩
  refine exists_leaving init kept first fun stays => ?_
  rw [blocked t b stays later] at moved
  cases moved

/-- An action that is not allowed behind another is separated from it by one that leaves the states
in which it is not. -/
theorem Accepts.separated {P : α → α → μ → Prop} {pair sep : α → α → Prop}
    (entered : ∀ a b s t, pair a b → m.step s a = some t → P a b t)
    (kept : ∀ a b s c t, P a b s → ¬sep a c → m.step s c = some t → P a b t)
    (blocked : ∀ a b s, P a b s → pair a b → m.step s b = none) (accepted : m.Accepts s log) :
    Separated pair sep log := by
  rintro before a mid b after rfl paired
  rcases accepted.around with ⟨t, u, -, moved, rest⟩
  refine rest.preceded (entered a b t u paired moved) (kept a b)
    (fun s c holds same => ?_) mid b after rfl rfl
  exact same ▸ blocked a b s holds paired

end Monitor

end HalowBridge
