import HalowBridge.Halow.Supervisor

/-!
# Reconnecting: when the link is torn down, and when the retry is lost

A reconnect is meant to follow a lost link. The timer is armed by a link-down notification and
nothing disarms it when the link comes back, so `do_halow_reconnect` can disable a station whose
link is up. `linkKept_of_quiet` says that this is the only way: no run in which each link-up
notification finds the timer disarmed and no reconnect on its way to the driver tears down a link
that is up. `linkLost_of_loud` says that one such notification is enough, whatever the run before
it was.

The timer fires once and a failed `mmwlan_sta_enable` starts it again only by the coincidence that a
link-down notification was served during the call. `notStranded_of_covered` says that a station is
left disabled with a disarmed timer only after such a failure, and `stranded_of_uncovered` that
every such failure can be the last event of the bridge.
-/

namespace HalowBridge.Halow

/-! ## A link that is up is not torn down -/

/-- No step of the run calls `mmwlan_sta_disable` while the last notification was link up. -/
def LinkKept (events : List Event) : Prop :=
  supervisor.Guarded
    (fun _ s event => (step s event).2 = some .staDisable → s.lastLink ≠ some .up) start events

/-- A reconnect is under way that has not yet called `mmwlan_sta_disable`, or will be. -/
def Scheduled (s : State) : Prop := s.armed ∨ s.task = .entered ∨ s.task = .beforeDisable

/-- A link-up notification finds no reconnect scheduled. -/
def Quiet (s : State) : Event → Prop
  | .notify .up => s.callback = .idle → ¬ Scheduled s
  | _ => True

instance (s : State) : Decidable (Scheduled s) := inferInstanceAs (Decidable (_ ∨ _ ∨ _))

instance (s : State) : (event : Event) → Decidable (Quiet s event)
  | .notify .up => inferInstanceAs (Decidable (_ → ¬ _))
  | .notify .down | .xTimerCreate _ | .callback | .xTimerStart _ | .expire | .reconnect
  | .staDisabled _ | .staEnabled _ => isTrue trivial

/-- The callback is serving a link-down notification. -/
def ServingDown (s : State) : Prop := s.callback = .downTest ∨ s.callback = .downStart

/-- A reconnect is scheduled, and a link-down notification served, only while the link is down. -/
def LinkInv (s : State) : Prop := Scheduled s ∨ ServingDown s → s.lastLink = some .down

/-- Only the serving of a link-down notification goes on to serve one. -/
theorem servingDown_of_linkStatusCallback {s : State}
    (serving : ServingDown (linkStatusCallback s)) : ServingDown s := by
  cases pc : s.callback <;> simp [ServingDown, linkStatusCallback, pc] at serving ⊢
  split at serving <;> simp_all

/-- Only the first statements of a reconnect lead to the call of `mmwlan_sta_disable`. -/
theorem scheduled_of_doHalowReconnect {s : State} (scheduled : Scheduled (doHalowReconnect s).1) :
    Scheduled s := by
  cases pc : s.task <;> simp [Scheduled, doHalowReconnect, pc] at scheduled ⊢ <;> exact scheduled

/-- A step that schedules nothing and notifies of nothing keeps the invariant. -/
theorem LinkInv.frame {s s' : State} (inv : LinkInv s) (link : s'.lastLink = s.lastLink)
    (scheduled : Scheduled s' → Scheduled s) (serving : ServingDown s' → ServingDown s) :
    LinkInv s' := by
  intro busy
  rw [link]
  exact inv (busy.imp scheduled serving)

theorem linkInv_step {s : State} {event : Event} (inv : LinkInv s) (quiet : Quiet s event) :
    LinkInv (step s event).1 := by
  cases event with
  | xTimerCreate created => exact inv
  | notify link =>
      by_cases idle : s.callback = .idle
      · cases link with
        | up =>
            intro busy
            rcases busy with scheduled | serving
            · simp only [step, idle, ↓reduceIte] at scheduled
              exact (quiet idle scheduled).elim
            · simp [ServingDown, step, idle] at serving
        | down =>
            intro _
            simp only [step, idle, ↓reduceIte]
      · simpa only [step, idle, ↓reduceIte] using inv
  | callback =>
      apply inv.frame (linkStatusCallback_lastLink s)
      · intro scheduled
        simpa only [step, Scheduled, linkStatusCallback_armed, linkStatusCallback_task]
          using scheduled
      · exact servingDown_of_linkStatusCallback
  | xTimerStart pass =>
      by_cases ready : s.callback = .downStart
      · intro _
        simpa only [step, ready, ↓reduceIte] using inv (.inr (.inr ready))
      · simpa only [step, ready, ↓reduceIte] using inv
  | expire =>
      by_cases fires : s.armed = true ∧ s.task = .idle
      · intro _
        simpa only [step, fires, and_self, ↓reduceIte] using inv (.inl (.inl fires.1))
      · simpa only [step, fires, ↓reduceIte] using inv
  | reconnect =>
      apply inv.frame (doHalowReconnect_lastLink s) scheduled_of_doHalowReconnect
      intro serving
      simpa only [step, ServingDown, doHalowReconnect_callback] using serving
  | staDisabled success =>
      by_cases waiting : s.task = .inDisable
      · cases success <;>
          · apply inv.frame <;> simp [Scheduled, ServingDown, step, waiting]
      · simpa only [step, waiting, ↓reduceIte] using inv
  | staEnabled success =>
      by_cases waiting : s.task = .inEnable
      · apply inv.frame <;> simp [Scheduled, ServingDown, step, waiting]
      · simpa only [step, waiting, ↓reduceIte] using inv

theorem linkInv_start : LinkInv start := by
  simp [LinkInv, Scheduled, ServingDown, start]

/-- The only statement that calls `mmwlan_sta_disable`. -/
theorem task_of_staDisable {s : State} {event : Event}
    (call : (step s event).2 = some .staDisable) : s.task = .beforeDisable := by
  cases event with
  | reconnect =>
      cases pc : s.task <;> simp [step, doHalowReconnect, pc] at call ⊢
  | notify link => cases link <;> simp only [step] at call <;> split at call <;> cases call
  | staDisabled success =>
      cases success <;> simp only [step] at call <;> split at call <;> cases call
  | xTimerStart pass => simp only [step] at call; split at call <;> cases call
  | expire => simp only [step] at call; split at call <;> cases call
  | staEnabled success => simp only [step] at call; split at call <;> cases call
  | xTimerCreate created => cases call
  | callback => cases call

/-- **A link that is up is torn down only after a link-up notification that found a reconnect
scheduled.** -/
theorem linkKept_of_quiet {events : List Event}
    (quiet : supervisor.Guarded (fun _ => Quiet) start events) : LinkKept events := by
  intro before event here call
  have inv : LinkInv (supervisor.exec start before) :=
    supervisor.exec_guarded (P := fun _ => LinkInv) linkInv_start
      (fun _ _ _ inv here => linkInv_step inv here)
      (quiet.of_prefix _ ((List.prefix_append before [event]).trans here))
  rw [inv (.inl (.inr (.inr (task_of_staDisable call))))]
  simp

/-- The link is lost, and the timer expires 15 s later. -/
def expiredDown : List Event :=
  connected ++ [.notify .down, .callback, .xTimerStart true, .expire]

theorem linkKept_of_quiet_expiredDown :
    supervisor.Guarded (fun _ => Quiet) start (expiredDown ++ [.reconnect, .reconnect]) ∧
      LinkKept (expiredDown ++ [.reconnect, .reconnect]) := by
  have quiet : supervisor.Guarded (fun _ => Quiet) start
      (expiredDown ++ [.reconnect, .reconnect]) := by decide
  exact ⟨quiet, linkKept_of_quiet quiet⟩

/-- The link is lost and comes back before the timer expires. -/
def expiredUp : List Event :=
  connected ++ [.notify .down, .callback, .xTimerStart true, .notify .up, .callback, .callback,
    .expire, .reconnect]

/-- **A link that is up can be torn down.** -/
theorem not_linkKept_expiredUp : ¬ ∀ events, LinkKept events := by
  intro kept
  have up := kept (expiredUp ++ [.reconnect]) expiredUp .reconnect (List.prefix_refl _) (by decide)
  exact up (by decide)

/-- From any state with a reconnect scheduled, the statements of the timer task alone lead to the
call of `mmwlan_sta_disable`. -/
theorem exists_staDisable {s : State} (scheduled : Scheduled s) :
    ∃ events, (supervisor.exec s events).lastLink = s.lastLink ∧
      (step (supervisor.exec s events) .reconnect).2 = some .staDisable := by
  obtain ⟨done, timer, created, armed, task, callback, link, disabled⟩ := s
  rcases scheduled with rfl | rfl | rfl
  · -- The timer expires once the reconnect that is under way, if any, has returned.
    cases task with
    | idle => exact ⟨[.expire, .reconnect], rfl, rfl⟩
    | entered => exact ⟨[.reconnect], rfl, rfl⟩
    | beforeDisable => exact ⟨[], rfl, rfl⟩
    | returning => exact ⟨[.reconnect, .expire, .reconnect], rfl, rfl⟩
    | disableFailed | enableReturned =>
        exact ⟨[.reconnect, .reconnect, .expire, .reconnect], rfl, rfl⟩
    | inDisable =>
        exact ⟨[.staDisabled false, .reconnect, .reconnect, .expire, .reconnect], rfl, rfl⟩
    | inEnable =>
        exact ⟨[.staEnabled true, .reconnect, .reconnect, .expire, .reconnect], rfl, rfl⟩
    | beforeEnable =>
        exact ⟨[.reconnect, .staEnabled true, .reconnect, .reconnect, .expire, .reconnect],
          rfl, rfl⟩
  · exact ⟨[.reconnect], rfl, rfl⟩
  · exact ⟨[], rfl, rfl⟩

/-- **One link-up notification with a reconnect scheduled is enough.** After any run, it can be
followed by a reconnect that tears the link down. -/
theorem linkLost_of_loud {before : List Event} {event : Event}
    (loud : ¬ Quiet (supervisor.exec start before) event) :
    ∃ after, ¬ LinkKept (before ++ [event] ++ after) := by
  have up : event = .notify .up := by
    by_contra other
    exact loud (by unfold Quiet; split <;> simp_all)
  subst up
  obtain ⟨idle, scheduled⟩ :
      (supervisor.exec start before).callback = .idle ∧
        Scheduled (supervisor.exec start before) := by
    simpa [Quiet] using loud
  have moved : supervisor.exec start (before ++ [.notify .up]) =
      { supervisor.exec start before with callback := .upTest, lastLink := some .up } := by
    rw [supervisor.exec_concat]
    simp [supervisor, step] at idle ⊢
    simp [idle]
  have waiting : Scheduled (supervisor.exec start (before ++ [.notify .up])) := by
    rw [moved]
    exact scheduled
  rcases exists_staDisable waiting with ⟨events, link, call⟩
  rw [← supervisor.exec_append] at link call
  refine ⟨events ++ [.reconnect], fun kept => ?_⟩
  rw [← List.append_assoc] at kept
  have notUp := kept _ .reconnect (List.prefix_refl _) call
  exact notUp (by rw [link, moved])

/-! ## The retry is not lost -/

/-- After the first link-up, a disabled station with no reconnect executing has its timer armed. -/
def NotStranded (s : State) : Prop :=
  s.initialConnectDone → s.reconnectTimer → s.task = .idle → s.disabled → s.armed

/-- A failed call that leaves the station disabled finds the timer armed. -/
def Covered (s : State) : Event → Prop
  | .staDisabled false => s.task = .inDisable → s.disabled → s.armed
  | .staEnabled false => s.task = .inEnable → s.armed
  | _ => True

instance (s : State) : (event : Event) → Decidable (Covered s event)
  | .staDisabled false | .staEnabled false => inferInstanceAs (Decidable (_ → _))
  | .notify _ | .xTimerCreate _ | .callback | .xTimerStart _ | .expire | .reconnect
  | .staDisabled true | .staEnabled true => isTrue trivial

/-- The reconnect has its last driver call behind it, or none is executing. -/
def Settled : ReconnectPc → Prop
  | .idle | .disableFailed | .enableReturned | .returning => True
  | .entered | .beforeDisable | .inDisable | .beforeEnable | .inEnable => False

/-- The timer covers a disabled station whenever no reconnect is at work on it. -/
def RetryInv (s : State) : Prop := Settled s.task → s.disabled → s.armed

theorem settled_of_doHalowReconnect {s : State} (settled : Settled (doHalowReconnect s).1.task) :
    Settled s.task := by
  cases pc : s.task <;> simp [Settled, doHalowReconnect, pc] at settled ⊢

theorem retryInv_step {s : State} {event : Event} (inv : RetryInv s) (covered : Covered s event) :
    RetryInv (step s event).1 := by
  cases event with
  | xTimerCreate created => exact inv
  | notify link =>
      by_cases idle : s.callback = .idle
      · cases link <;> simpa only [RetryInv, step, idle, ↓reduceIte] using inv
      · simpa only [step, idle, ↓reduceIte] using inv
  | callback =>
      simpa only [RetryInv, step, linkStatusCallback_armed, linkStatusCallback_task,
        linkStatusCallback_disabled] using inv
  | xTimerStart pass =>
      by_cases ready : s.callback = .downStart
      · intro settled disabled
        simp only [step, ready, ↓reduceIte] at settled disabled ⊢
        rw [inv settled disabled]
        rfl
      · simpa only [step, ready, ↓reduceIte] using inv
  | expire =>
      by_cases fires : s.armed = true ∧ s.task = .idle
      · intro settled
        simp only [step, fires, and_self, ↓reduceIte] at settled
        exact settled.elim
      · simpa only [step, fires, ↓reduceIte] using inv
  | reconnect =>
      intro settled disabled
      simp only [step, doHalowReconnect_disabled, doHalowReconnect_armed] at disabled ⊢
      exact inv (settled_of_doHalowReconnect settled) disabled
  | staDisabled success =>
      by_cases waiting : s.task = .inDisable
      · cases success with
        | true =>
            intro settled
            simp only [step, waiting, ↓reduceIte] at settled
            exact settled.elim
        | false =>
            intro _ disabled
            simp only [step, waiting, ↓reduceIte, Bool.false_eq_true] at disabled ⊢
            exact covered waiting disabled
      · simpa only [step, waiting, ↓reduceIte] using inv
  | staEnabled success =>
      by_cases waiting : s.task = .inEnable
      · cases success with
        | true => simp [RetryInv, step, waiting]
        | false =>
            intro _ _
            simp only [step, waiting, ↓reduceIte]
            exact covered waiting
      · simpa only [step, waiting, ↓reduceIte] using inv

/-- **The retry is lost only by a failed call that finds the timer disarmed.** In a run without
such a failure, no state after the first link-up is stranded. -/
theorem notStranded_of_covered {events before : List Event}
    (covered : supervisor.Guarded (fun _ => Covered) start events) (le : before <+: events) :
    NotStranded (supervisor.exec start before) := by
  intro _ _ idle disabled
  have inv : RetryInv (supervisor.exec start before) :=
    supervisor.exec_guarded (P := fun _ => RetryInv) (fun _ disabled => disabled)
      (fun _ _ _ inv here => retryInv_step inv here) (covered.of_prefix _ le)
  exact inv (by rw [idle]; trivial) disabled

/-- A reconnect that succeeds. -/
def recoveredRun : List Event :=
  expiredDown ++ [.reconnect, .reconnect, .staDisabled true, .reconnect, .staEnabled true,
    .reconnect, .reconnect]

theorem notStranded_of_covered_recoveredRun :
    supervisor.Guarded (fun _ => Covered) start recoveredRun ∧
      NotStranded (supervisor.exec start recoveredRun) := by
  have covered : supervisor.Guarded (fun _ => Covered) start recoveredRun := by decide
  exact ⟨covered, notStranded_of_covered covered (List.prefix_refl _)⟩

/-- A reconnect whose `mmwlan_sta_enable` fails. -/
def strandedRun : List Event :=
  expiredDown ++ [.reconnect, .reconnect, .staDisabled true, .reconnect, .staEnabled false,
    .reconnect, .reconnect]

/-- **The bridge can be left disabled for good.** Every `xTimerStart` of the run succeeds. -/
theorem stranded_strandedRun :
    ¬ ∀ events, Event.xTimerStart false ∉ events → NotStranded (supervisor.exec start events) := by
  intro promise
  have armed := promise strandedRun (by decide) (by decide) (by decide) (by decide) (by decide)
  revert armed
  decide

/-- What a reconnect has behind it: the first link-up and the timer, and once it is past
`mmwlan_sta_disable`, a disabled station. -/
structure Underway (s : State) : Prop where
  ready : s.armed ∨ s.callback = .downStart ∨ s.task ≠ .idle →
    s.initialConnectDone ∧ s.reconnectTimer
  disabled : s.task = .beforeEnable ∨ s.task = .inEnable → s.disabled

theorem underway_step {s : State} {event : Event} (inv : Underway s) :
    Underway (step s event).1 := by
  obtain ⟨ready, disabled⟩ := inv
  cases event with
  | xTimerCreate created => exact ⟨by grind [step], disabled⟩
  | notify link => cases link <;> constructor <;> grind [step]
  | callback => constructor <;> grind [step, linkStatusCallback]
  | xTimerStart pass => constructor <;> grind [step]
  | expire => constructor <;> grind [step]
  | reconnect => constructor <;> grind [step, doHalowReconnect]
  | staDisabled success => cases success <;> constructor <;> grind [step]
  | staEnabled success => constructor <;> grind [step]

theorem underway (events : List Event) : Underway (supervisor.exec start events) :=
  supervisor.exec_invariant (P := Underway) ⟨by simp [start], by simp [start]⟩
    (fun _ _ inv => underway_step inv) events

/-- **Every failed call that finds the timer disarmed can be the last event of the bridge**: the
call returns, and no thread is left that would ever enable the station again. -/
theorem stranded_of_uncovered {before : List Event} {event : Event}
    (uncovered : ¬ Covered (supervisor.exec start before) event) :
    ¬ NotStranded (supervisor.exec start (before ++ [event, .reconnect, .reconnect])) := by
  rcases underway before with ⟨ready, disabled⟩
  rw [supervisor.exec_append]
  generalize supervisor.exec start before = s at *
  obtain ⟨done, timer, created, armed, task, callback, link, off⟩ := s
  cases event with
  | staEnabled success =>
      cases success with
      | true => exact (uncovered trivial).elim
      | false =>
          obtain ⟨rfl, rfl⟩ : task = .inEnable ∧ armed = false := by
            simpa [Covered] using uncovered
          obtain ⟨rfl, rfl⟩ : done = true ∧ created = true := by simpa using ready
          obtain rfl : off = true := by simpa using disabled
          intro promise
          exact Bool.noConfusion (promise rfl rfl rfl rfl)
  | staDisabled success =>
      cases success with
      | true => exact (uncovered trivial).elim
      | false =>
          obtain ⟨rfl, rfl, rfl⟩ : task = .inDisable ∧ off = true ∧ armed = false := by
            simpa [Covered] using uncovered
          obtain ⟨rfl, rfl⟩ : done = true ∧ created = true := by simpa using ready
          intro promise
          exact Bool.noConfusion (promise rfl rfl rfl rfl)
  | _ => exact (uncovered trivial).elim

end HalowBridge.Halow
