import HalowBridge.Lib.Machine

/-!
# The HaLow link supervisor

Two threads share the flags `initial_connect_done` and `reconnecting` and the one-shot timer
`reconnect_timer`. The IP stack calls `link_status_callback` for each link notification, one at a
time. The timer task calls `do_halow_reconnect` at each expiry, and serves no other expiry while
the call runs.

Each thread is a program counter over the statements of its function that read or write shared
state or call the driver, and an `Event` is one such statement or the return of a driver call. So a
run of `supervisor` is any interleaving of the two threads, of the notifications and expiries, and
of the results of `mmwlan_sta_disable`, `mmwlan_sta_enable`, `xTimerCreate` and `xTimerStart`. An
event that its thread is not ready for changes nothing.

`armed` covers a start command that still waits in the queue of the timer task: the task serves
that queue before the timer can expire again. Two fields are not of the source: `lastLink` is the
most recent notification, and `disabled` records a successful `mmwlan_sta_disable` that no
successful `mmwlan_sta_enable` has followed.
-/

namespace HalowBridge.Halow

inductive LinkState where
  | up
  | down
  deriving DecidableEq

/-- Where `do_halow_reconnect` stands. -/
inductive ReconnectPc where
  /-- No call is executing. -/
  | idle
  /-- Before `reconnecting = true`. -/
  | entered
  /-- Before the call of `mmwlan_sta_disable`. -/
  | beforeDisable
  | inDisable
  /-- `mmwlan_sta_disable` failed; before `reconnecting = false`. -/
  | disableFailed
  /-- Before the call of `mmwlan_sta_enable`. -/
  | beforeEnable
  | inEnable
  /-- `mmwlan_sta_enable` returned; before `reconnecting = false`. -/
  | enableReturned
  /-- Before the return. -/
  | returning
  deriving DecidableEq

/-- Where `link_status_callback` stands. -/
inductive CallbackPc where
  | idle
  /-- Link up; before the test of `reconnecting`. -/
  | upTest
  /-- Link up; before `reconnecting = false`. -/
  | upClear
  /-- Link up; before the test of `initial_connect_done`. -/
  | upConnect
  /-- Link down; before the test of the two flags and the timer handle. -/
  | downTest
  /-- Link down; before the call of `xTimerStart`. -/
  | downStart
  deriving DecidableEq

structure State where
  initialConnectDone : Bool
  reconnecting : Bool
  /-- The handle is not `NULL`. -/
  reconnectTimer : Bool
  armed : Bool
  task : ReconnectPc
  callback : CallbackPc
  lastLink : Option LinkState
  disabled : Bool
  deriving DecidableEq

inductive Event where
  /-- `app_wlan_init` creates the timer, or fails to. -/
  | xTimerCreate (created : Bool)
  /-- The IP stack calls `link_status_callback`. -/
  | notify (link : LinkState)
  /-- The next statement of `link_status_callback`. -/
  | callback
  /-- The call of `xTimerStart` in `link_status_callback`, with its result. -/
  | xTimerStart (pass : Bool)
  /-- The timer expires and the timer task calls `do_halow_reconnect`. -/
  | expire
  /-- The next statement of `do_halow_reconnect`. -/
  | reconnect
  /-- `mmwlan_sta_disable` returns. -/
  | staDisabled (success : Bool)
  /-- `mmwlan_sta_enable` returns. -/
  | staEnabled (success : Bool)
  deriving DecidableEq

/-- The driver calls a statement can make. -/
inductive Call where
  | staDisable
  | staEnable
  deriving DecidableEq

/-- The next statement of `link_status_callback`. -/
def linkStatusCallback (s : State) : State :=
  match s.callback with
  | .upTest => { s with callback := if s.reconnecting then .upClear else .upConnect }
  | .upClear => { s with reconnecting := false, callback := .upConnect }
  | .upConnect => { s with initialConnectDone := true, callback := .idle }
  | .downTest =>
      if s.initialConnectDone && !s.reconnecting && s.reconnectTimer then
        { s with callback := .downStart }
      else { s with callback := .idle }
  | .idle | .downStart => s

/-- The next statement of `do_halow_reconnect`, with the driver call it makes. -/
def doHalowReconnect (s : State) : State × Option Call :=
  match s.task with
  | .entered => ({ s with reconnecting := true, task := .beforeDisable }, none)
  | .beforeDisable => ({ s with task := .inDisable }, some .staDisable)
  | .disableFailed => ({ s with reconnecting := false, task := .returning }, none)
  | .beforeEnable => ({ s with task := .inEnable }, some .staEnable)
  | .enableReturned => ({ s with reconnecting := false, task := .returning }, none)
  | .returning => ({ s with task := .idle }, none)
  | .idle | .inDisable | .inEnable => (s, none)

def step (s : State) : Event → State × Option Call
  | .xTimerCreate created => ({ s with reconnectTimer := s.reconnectTimer || created }, none)
  | .notify link =>
      if s.callback = .idle then
        match link with
        | .up => ({ s with callback := .upTest, lastLink := some .up }, none)
        | .down => ({ s with callback := .downTest, lastLink := some .down }, none)
      else (s, none)
  | .callback => (linkStatusCallback s, none)
  | .xTimerStart pass =>
      if s.callback = .downStart then
        ({ s with armed := s.armed || pass, callback := .idle }, none)
      else (s, none)
  | .expire =>
      if s.armed = true ∧ s.task = .idle then
        ({ s with armed := false, task := .entered }, none)
      else (s, none)
  | .reconnect => doHalowReconnect s
  | .staDisabled success =>
      if s.task = .inDisable then
        if success then ({ s with disabled := true, task := .beforeEnable }, none)
        else ({ s with task := .disableFailed }, none)
      else (s, none)
  | .staEnabled success =>
      if s.task = .inEnable then
        ({ s with disabled := s.disabled && !success, task := .enableReturned }, none)
      else (s, none)

/-- The statics of the source before `app_wlan_init`. -/
def start : State where
  initialConnectDone := false
  reconnecting := false
  reconnectTimer := false
  armed := false
  task := .idle
  callback := .idle
  lastLink := none
  disabled := false

def supervisor : Machine State Event (Option Call) := ⟨step⟩

/-- The first connection: the timer exists and one link-up notification has been served. -/
def connected : List Event := [.xTimerCreate true, .notify .up, .callback, .callback]

/-! ## What a step touches

An invariant of the link or of the retry speaks of a few fields only. The lemmas below say which
events change them, and how. -/

section Frame

variable (s : State)

@[simp] theorem linkStatusCallback_armed : (linkStatusCallback s).armed = s.armed := by
  unfold linkStatusCallback
  split <;> try rfl
  split <;> rfl

@[simp] theorem linkStatusCallback_task : (linkStatusCallback s).task = s.task := by
  unfold linkStatusCallback
  split <;> try rfl
  split <;> rfl

@[simp] theorem linkStatusCallback_lastLink : (linkStatusCallback s).lastLink = s.lastLink := by
  unfold linkStatusCallback
  split <;> try rfl
  split <;> rfl

@[simp] theorem linkStatusCallback_disabled : (linkStatusCallback s).disabled = s.disabled := by
  unfold linkStatusCallback
  split <;> try rfl
  split <;> rfl

@[simp] theorem doHalowReconnect_armed : (doHalowReconnect s).1.armed = s.armed := by
  unfold doHalowReconnect
  split <;> rfl

@[simp] theorem doHalowReconnect_callback : (doHalowReconnect s).1.callback = s.callback := by
  unfold doHalowReconnect
  split <;> rfl

@[simp] theorem doHalowReconnect_lastLink : (doHalowReconnect s).1.lastLink = s.lastLink := by
  unfold doHalowReconnect
  split <;> rfl

@[simp] theorem doHalowReconnect_disabled : (doHalowReconnect s).1.disabled = s.disabled := by
  unfold doHalowReconnect
  split <;> rfl

end Frame

end HalowBridge.Halow
