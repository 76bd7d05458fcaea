import Mathlib.Data.Nat.Notation
import Mathlib.Order.Defs.Unbundled

/-!
# Routines that stop early

A routine moves a state and returns a value, or stops with a reason. `Returns` says that it comes to
its end with a value, and `Stops` that it does not, each with the state that is left; a sequence of
routines is taken apart by `returns_bind_iff` and put together by `Returns.bind`.

`Routine.atExit` is the pattern of a label at the end of a function: what stands behind the label is
done in any case, unless the routine was halted for good.

`Keeps` is what holds of a routine however it ends: the state has only moved along a relation, and
if it stopped, then for a reason that is allowed. For a reflexive and transitive relation it goes
through sequences and loops (`keeps_bind`), so that each primitive step is looked at once.

`Triple` is a precondition with what holds at the end and what holds where the routine stops. Unlike
a relation it may speak of a value that was read before, so that a check made early is there later.
-/

namespace HalowBridge

/-- A routine on the state `σ` that may stop with a reason of type `ε`. -/
def Routine (σ ε α : Type) : Type := σ → Except ε α × σ

namespace Routine

variable {σ ε α β : Type}

instance : Monad (Routine σ ε) where
  pure a := fun s => (.ok a, s)
  bind x f := fun s =>
    match x s with
    | (.ok a, s) => f a s
    | (.error stop, s) => (.error stop, s)

/-- The routine stops. -/
def stop (reason : ε) : Routine σ ε α := fun s => (.error reason, s)

/-- The routine goes on if the condition holds. -/
def require (condition : Prop) [Decidable condition] (reason : ε) : Routine σ ε Unit :=
  if condition then pure () else stop reason

/-- The state. -/
def get : Routine σ ε σ := fun s => (.ok s, s)

/-- The state is changed by a function. -/
def modify (f : σ → σ) : Routine σ ε Unit := fun s => (.ok (), f s)

/-- The routine is run if the condition holds. -/
def when (condition : Prop) [Decidable condition] (x : Routine σ ε Unit) : Routine σ ε Unit :=
  if condition then x else pure ()

/-- A routine is run on a value that is there. -/
def whenSome (value : Option α) (x : α → Routine σ ε Unit) : Routine σ ε Unit :=
  match value with
  | some a => x a
  | none => pure ()

/-- What a routine does, and what is done at its end even if it stops, unless it is halted. -/
def atExit (halted : ε → Bool) (x : Routine σ ε α) (last : Routine σ ε Unit) : Routine σ ε α :=
  fun s =>
    match x s with
    | (.ok a, s) => (do last; pure a : Routine σ ε α) s
    | (.error reason, s) =>
        if halted reason then (.error reason, s) else (do last; stop reason : Routine σ ε α) s

/-- The routine, with its result ignored. It goes on where it stops, unless it is halted. -/
def ignore (halted : ε → Bool) (x : Routine σ ε α) : Routine σ ε Unit := fun s =>
  match x s with
  | (.ok _, s) => (.ok (), s)
  | (.error reason, s) => if halted reason then (.error reason, s) else (.ok (), s)

/-- How a routine ends, as a value. It goes on in any case, unless it is halted. -/
def attempt (halted : ε → Bool) (x : Routine σ ε α) : Routine σ ε (Except ε α) := fun s =>
  match x s with
  | (.ok a, s) => (.ok (.ok a), s)
  | (.error reason, s) => if halted reason then (.error reason, s) else (.ok (.error reason), s)

/-! ## Rules -/

/-- The routine comes to its end. -/
def Returns (x : Routine σ ε α) (s : σ) (a : α) (t : σ) : Prop := x s = (.ok a, t)

/-- The routine stops before its end. -/
def Stops (x : Routine σ ε α) (s : σ) (reason : ε) (t : σ) : Prop := x s = (.error reason, t)

variable {x : Routine σ ε α} {f : α → Routine σ ε β} {s t r : σ}

theorem returns_pure (a : α) (s : σ) : Returns (pure a : Routine σ ε α) s a s := rfl

theorem returns_get (s : σ) : Returns (get : Routine σ ε σ) s s s := rfl

theorem returns_modify (f : σ → σ) (s : σ) : Returns (modify f : Routine σ ε Unit) s () (f s) := rfl

theorem returns_pure_iff {a b : α} :
    (pure a : Routine σ ε α).Returns s b t ↔ b = a ∧ t = s := by
  show ((Except.ok a, s) : Except ε α × σ) = (.ok b, t) ↔ _
  rw [Prod.mk.injEq, Except.ok.injEq, eq_comm, @eq_comm _ s]

theorem returns_get_iff : (get : Routine σ ε σ).Returns s r t ↔ r = s ∧ t = s := by
  show ((Except.ok s, s) : Except ε σ × σ) = (.ok r, t) ↔ _
  rw [Prod.mk.injEq, Except.ok.injEq, eq_comm, @eq_comm _ s]

theorem bind_apply (x : Routine σ ε α) (f : α → Routine σ ε β) (s : σ) :
    (x >>= f) s =
      match x s with
      | (.ok a, s) => f a s
      | (.error stop, s) => (.error stop, s) := rfl

/-- A sequence goes on with its second part where the first has come to its end. -/
theorem Returns.bind_eq {a : α} (first : x.Returns s a r) : (x >>= f) s = f a r := by
  rw [bind_apply, first]

theorem Returns.bind {a : α} {b : β} (first : x.Returns s a r) (second : (f a).Returns r b t) :
    (x >>= f).Returns s b t :=
  first.bind_eq.trans second

theorem Returns.bind_stops {a : α} {reason : ε} (first : x.Returns s a r)
    (second : (f a).Stops r reason t) : (x >>= f).Stops s reason t :=
  first.bind_eq.trans second

theorem Stops.bind {reason : ε} (first : x.Stops s reason t) : (x >>= f).Stops s reason t := by
  rw [Stops, bind_apply, first]

theorem returns_or_stops (x : Routine σ ε α) (s : σ) :
    (∃ a t, x.Returns s a t) ∨ ∃ reason t, x.Stops s reason t := by
  rcases result : x s with ⟨_ | a, t⟩
  · exact .inr ⟨_, t, result⟩
  · exact .inl ⟨a, t, result⟩

/-- A sequence comes to its end if and only if both of its parts do. -/
theorem returns_bind_iff {b : β} :
    (x >>= f).Returns s b t ↔ ∃ a r, x.Returns s a r ∧ (f a).Returns r b t := by
  constructor
  · intro whole
    rcases returns_or_stops x s with ⟨a, r, first⟩ | ⟨reason, r, first⟩
    · refine ⟨a, r, first, ?_⟩
      rcases returns_or_stops (f a) r with ⟨b', t', second⟩ | ⟨reason, t', second⟩
      · have same := (first.bind second).symm.trans whole
        rw [Prod.mk.injEq, Except.ok.injEq] at same
        rw [← same.1, ← same.2]
        exact second
      · cases (first.bind_stops second).symm.trans whole
    · cases (Stops.bind (f := f) first).symm.trans whole
  · rintro ⟨a, r, first, second⟩
    exact first.bind second

theorem returns_require {condition : Prop} [Decidable condition] {reason : ε} (s : σ)
    (holds : condition) : (require condition reason).Returns s () s := by
  rw [require, if_pos holds]
  rfl

theorem stops_require {condition : Prop} [Decidable condition] {reason : ε} (s : σ)
    (fails : ¬condition) : (require condition reason).Stops s reason s := by
  rw [require, if_neg fails]
  rfl

theorem Returns.atExit {halted : ε → Bool} {last : Routine σ ε Unit} {a : α}
    (first : x.Returns s a r) (second : last.Returns r () t) :
    (atExit halted x last).Returns s a t := by
  rw [Returns, Routine.atExit, first]
  exact second.bind (returns_pure a t)

theorem Stops.atExit {halted : ε → Bool} {last : Routine σ ε Unit} {reason : ε}
    (first : x.Stops s reason r) (exits : halted reason = false)
    (second : last.Returns r () t) : (Routine.atExit halted x last).Stops s reason t := by
  rw [Stops, Routine.atExit, first]
  show (if halted reason then _ else _) = _
  rw [exits]
  exact second.bind_stops rfl

theorem Returns.ignore {halted : ε → Bool} {a : α} (first : x.Returns s a t) :
    (ignore halted x).Returns s () t := by
  rw [Returns, Routine.ignore, first]

theorem Returns.attempt {halted : ε → Bool} {a : α} (first : x.Returns s a t) :
    (attempt halted x).Returns s (.ok a) t := by
  rw [Returns, Routine.attempt, first]

/-! ## However it ends -/

/-- The state moves along a relation, and the routine stops for allowed reasons only. -/
def Keeps (moves : σ → σ → Prop) (allowed : ε → Prop) (x : Routine σ ε α) : Prop :=
  ∀ s, moves s (x s).2 ∧ ∀ reason, (x s).1 = .error reason → allowed reason

variable {moves moves' : σ → σ → Prop} {allowed : ε → Prop}

theorem Keeps.mono (keeps : x.Keeps moves allowed) (weaker : ∀ s t, moves s t → moves' s t) :
    x.Keeps moves' allowed := fun s => ⟨weaker _ _ (keeps s).1, (keeps s).2⟩

/-- A routine that never stops. -/
theorem Keeps.returns (keeps : x.Keeps moves fun _ => False) (s : σ) : ∃ a t, x.Returns s a t := by
  rcases returns_or_stops x s with returned | ⟨reason, t, stopped⟩
  · exact returned
  · exact absurd (congrArg Prod.fst stopped) ((keeps s).2 reason)

/-- A routine that is not halted is attempted with some result. -/
theorem Keeps.attempt_returns {halted : ε → Bool} (keeps : x.Keeps moves allowed)
    (exits : ∀ reason, allowed reason → halted reason = false) (s : σ) :
    ∃ result t, (Routine.attempt halted x).Returns s result t := by
  rcases returns_or_stops x s with ⟨a, t, returned⟩ | ⟨reason, t, stopped⟩
  · exact ⟨_, t, returned.attempt⟩
  · have may := (keeps s).2 reason (congrArg Prod.fst stopped)
    refine ⟨.error reason, t, ?_⟩
    rw [Returns, Routine.attempt, stopped]
    dsimp only
    rw [exits reason may, if_neg Bool.false_ne_true]

theorem keeps_modify {f : σ → σ} (moved : ∀ s, moves s (f s)) :
    (modify f : Routine σ ε Unit).Keeps moves allowed := fun s =>
  ⟨moved s, fun _ stopped => nomatch stopped⟩

theorem Keeps.ignore {halted : ε → Bool} (keeps : x.Keeps moves allowed) :
    (Routine.ignore halted x).Keeps moves allowed := fun s => by
  have moved := keeps s
  rw [Routine.ignore]
  rcases result : x s with ⟨reason | a, t⟩
  · rw [result] at moved
    dsimp only
    split
    next =>
      refine ⟨moved.1, fun reason' stopped => ?_⟩
      cases stopped
      exact moved.2 _ rfl
    next => exact ⟨moved.1, fun _ stopped => nomatch stopped⟩
  · rw [result] at moved
    exact ⟨moved.1, fun _ stopped => nomatch stopped⟩

section

variable [IsPreorder σ moves]

theorem keeps_pure (a : α) : (pure a : Routine σ ε α).Keeps moves allowed := fun s =>
  ⟨refl_of moves s, fun _ stopped => nomatch stopped⟩

theorem keeps_get : (get : Routine σ ε σ).Keeps moves allowed := fun s =>
  ⟨refl_of moves s, fun _ stopped => nomatch stopped⟩

theorem keeps_stop {reason : ε} (may : allowed reason) :
    (stop reason : Routine σ ε α).Keeps moves allowed := fun s => by
  refine ⟨refl_of moves s, fun reason' stopped => ?_⟩
  cases stopped
  exact may

theorem keeps_require {condition : Prop} [Decidable condition] {reason : ε}
    (may : ¬condition → allowed reason) : (require condition reason).Keeps moves allowed := by
  rw [require]
  split
  next => exact keeps_pure ()
  next fails => exact keeps_stop (may fails)

theorem keeps_bind (first : x.Keeps moves allowed)
    (second : ∀ a, (f a).Keeps moves allowed) : (x >>= f).Keeps moves allowed := fun s => by
  have moved := first s
  rw [bind_apply]
  rcases result : x s with ⟨reason | a, t⟩
  · rw [result] at moved
    refine ⟨moved.1, fun reason' stopped => ?_⟩
    cases stopped
    exact moved.2 _ rfl
  · rw [result] at moved
    exact ⟨trans_of moves moved.1 (second a t).1, (second a t).2⟩

end

/-- Something is done behind a routine, and the way it goes on does not move the state. -/
theorem keeps_behind {last : Routine σ ε Unit} {y : Routine σ ε α}
    (still : ∀ t, (y t).2 = t) (may : ∀ t reason, (y t).1 = .error reason → allowed reason)
    (ends : last.Keeps moves allowed) (closes : moves' s (last r).2) :
    moves' s ((last >>= fun _ => y) r).2 ∧
      ∀ reason, ((last >>= fun _ => y) r).1 = .error reason → allowed reason := by
  have moved := ends r
  rw [bind_apply]
  rcases result : last r with ⟨reason | _, t⟩
  · rw [result] at moved closes
    refine ⟨closes, fun reason' stopped => ?_⟩
    cases stopped
    exact moved.2 _ rfl
  · rw [result] at closes
    exact ⟨(still t).symm ▸ closes, may t⟩

/-- What is done at the end is seen however the routine ends. -/
theorem keeps_atExit {halted : ε → Bool} {last : Routine σ ε Unit}
    (keeps : x.Keeps moves allowed) (exits : ∀ reason, allowed reason → halted reason = false)
    (ends : last.Keeps moves allowed) (closes : ∀ s t, moves s t → moves' s (last t).2) :
    (Routine.atExit halted x last).Keeps moves' allowed := fun s => by
  have moved := keeps s
  rw [Routine.atExit]
  rcases result : x s with ⟨reason | a, t⟩
  · rw [result] at moved
    have may := moved.2 reason rfl
    dsimp only
    rw [exits reason may, if_neg Bool.false_ne_true]
    refine keeps_behind (fun _ => rfl) (fun _ reason' stopped => ?_) ends (closes s t moved.1)
    cases stopped
    exact may
  · rw [result] at moved
    exact keeps_behind (fun _ => rfl) (fun _ _ stopped => nomatch stopped) ends
      (closes s t moved.1)

/-! ## Pre- and postconditions -/

/-- From states with `pre`, the routine ends with `post`, or stops with `stops`. -/
def Triple (pre : σ → Prop) (x : Routine σ ε α) (post : α → σ → Prop) (stops : ε → σ → Prop) :
    Prop :=
  ∀ s, pre s →
    match x s with
    | (.ok a, t) => post a t
    | (.error reason, t) => stops reason t

variable {pre pre' : σ → Prop} {post post' : α → σ → Prop} {stops stops' : ε → σ → Prop}

theorem Triple.mono (triple : x.Triple pre post stops) (stronger : ∀ s, pre' s → pre s)
    (weaker : ∀ a t, post a t → post' a t)
    (weakerStops : ∀ reason t, stops reason t → stops' reason t) :
    x.Triple pre' post' stops' := fun s holds => by
  have ended := triple s (stronger s holds)
  rcases result : x s with ⟨reason | a, t⟩
  · rw [result] at ended
    exact weakerStops reason t ended
  · rw [result] at ended
    exact weaker a t ended

/-- A fact that does not depend on the state is taken out of the precondition. -/
theorem triple_of_fact {fact : Prop} (triple : fact → x.Triple pre post stops) :
    x.Triple (fun s => fact ∧ pre s) post stops :=
  fun s holds => triple holds.1 s holds.2

theorem triple_pure {a : α} (ends : ∀ s, pre s → post a s) :
    (pure a : Routine σ ε α).Triple pre post stops :=
  ends

theorem triple_get {post : σ → σ → Prop} (ends : ∀ s, pre s → post s s) :
    (get : Routine σ ε σ).Triple pre post stops :=
  ends

theorem triple_modify {f : σ → σ} {post : Unit → σ → Prop} (ends : ∀ s, pre s → post () (f s)) :
    (modify f : Routine σ ε Unit).Triple pre post stops :=
  ends

theorem triple_stop {reason : ε} (stopped : ∀ s, pre s → stops reason s) :
    (stop reason : Routine σ ε α).Triple pre post stops :=
  stopped

theorem triple_require {condition : Prop} [Decidable condition] {reason : ε}
    {post : Unit → σ → Prop} (ends : ∀ s, pre s → condition → post () s)
    (stopped : ∀ s, pre s → ¬condition → stops reason s) :
    (require condition reason).Triple pre post stops := by
  rw [require]
  split
  next holds => exact triple_pure fun s before => ends s before holds
  next fails => exact triple_stop fun s before => stopped s before fails

/-- A sequence, by what holds between its parts. -/
theorem Triple.bind (between : α → σ → Prop) {post : β → σ → Prop}
    (first : x.Triple pre between stops) (second : ∀ a, (f a).Triple (between a) post stops) :
    (x >>= f).Triple pre post stops := fun s holds => by
  have ended := first s holds
  rw [bind_apply]
  rcases result : x s with ⟨reason | a, t⟩
  · rw [result] at ended
    exact ended
  · rw [result] at ended
    exact second a t ended

/-- What a check has found is a fact from now on. -/
theorem triple_require_bind {condition : Prop} [Decidable condition] {reason : ε}
    {rest : Routine σ ε α} (run : condition → rest.Triple pre post stops)
    (stopped : ∀ s, pre s → ¬condition → stops reason s) :
    (require condition reason >>= fun _ => rest).Triple pre post stops :=
  Triple.bind (fun _ s => condition ∧ pre s)
    (triple_require (fun _ before holds => ⟨holds, before⟩) stopped)
    fun _ => triple_of_fact run

theorem Triple.attempt {halted : ε → Bool} (triple : x.Triple pre post stops)
    {post' : Except ε α → σ → Prop} (ends : ∀ a t, post a t → post' (.ok a) t)
    (goes : ∀ reason t, stops reason t → halted reason = false → post' (.error reason) t) :
    (Routine.attempt halted x).Triple pre post' stops := fun s holds => by
  have ended := triple s holds
  rw [Routine.attempt]
  rcases result : x s with ⟨reason | a, t⟩
  · rw [result] at ended
    dsimp only
    rcases exits : halted reason with _ | _
    · exact goes reason t ended exits
    · exact ended
  · rw [result] at ended
    exact ends a t ended

/-- An invariant is kept however the routine ends. -/
abbrev Maintains (inv : σ → Prop) (x : Routine σ ε α) : Prop :=
  x.Triple inv (fun _ => inv) fun _ => inv

variable {inv : σ → Prop}

theorem maintains_pure (a : α) : (pure a : Routine σ ε α).Maintains inv := fun _ holds => holds

theorem maintains_get : (get : Routine σ ε σ).Maintains inv := fun _ holds => holds

theorem maintains_stop (reason : ε) : (stop reason : Routine σ ε α).Maintains inv :=
  fun _ holds => holds

theorem maintains_require {condition : Prop} [Decidable condition] (reason : ε) :
    (require condition reason).Maintains inv :=
  triple_require (fun _ holds _ => holds) fun _ holds _ => holds

theorem Triple.when {condition : Prop} [Decidable condition] {x : Routine σ ε Unit}
    {post : Unit → σ → Prop} (run : condition → x.Triple pre post stops)
    (skipped : ∀ s, pre s → ¬condition → post () s) :
    (Routine.when condition x).Triple pre post stops := by
  rw [Routine.when]
  split
  next holds => exact run holds
  next fails => exact triple_pure fun s before => skipped s before fails

theorem Maintains.when {condition : Prop} [Decidable condition] {x : Routine σ ε Unit}
    (maintains : x.Maintains inv) : (Routine.when condition x).Maintains inv :=
  Triple.when (fun _ => maintains) fun _ holds _ => holds

theorem Maintains.whenSome {x : α → Routine σ ε Unit} {value : Option α}
    (maintains : ∀ a, (x a).Maintains inv) : (Routine.whenSome value x).Maintains inv := by
  cases value with
  | none => exact maintains_pure ()
  | some a => exact maintains a

theorem Maintains.bind (first : x.Maintains inv) (second : ∀ a, (f a).Maintains inv) :
    (x >>= f).Maintains inv :=
  Triple.bind _ first second

theorem Maintains.state (maintains : x.Maintains inv) {s : σ} (holds : inv s) : inv (x s).2 := by
  have ended := maintains s holds
  rcases result : x s with ⟨reason | a, t⟩ <;> rw [result] at ended <;> exact ended

theorem Maintains.ignore {halted : ε → Bool} (maintains : x.Maintains inv) :
    (Routine.ignore halted x).Maintains inv := fun s holds => by
  have ended := maintains.state holds
  rw [Routine.ignore]
  rcases result : x s with ⟨reason | a, t⟩
  · rw [result] at ended
    dsimp only
    rcases halted reason with _ | _ <;> exact ended
  · rw [result] at ended
    exact ended

end Routine

end HalowBridge
