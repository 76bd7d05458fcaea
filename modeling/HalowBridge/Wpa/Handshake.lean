import HalowBridge.Lib.Monitor
import HalowBridge.Wpa.Supplicant
import Mathlib.Logic.Function.Basic

/-!
# The discipline of the keys

What the handshakes are for, as a monitor over the actions of the supplicant. A `KeyState` is what a
station may know: a PTK on offer that has not been proved, the PTK that has, whether the driver has
it, the replay counter of the last frame that was proved, the group keys. The monitor allows a frame
to be taken only with a higher counter, a PTK to be taken into use only once for each derivation and
to be given to the driver only while the driver does not have it, and no key to be given on the word
of a frame without a MIC.

`runEvents_accepted` says that every run of the supplicant is accepted, whatever frames arrive, in
whatever order, and whatever the callbacks answer. The rest is read off the monitor.
-/

namespace HalowBridge.Wpa

open Routine

/-! ## The monitor -/

inductive GroupKey
  | gtk | igtk | bigtk
  deriving DecidableEq, Repr

/-- What is known about the keys of an association. -/
structure KeyState where
  /-- A PTK that has been derived and not been proved. -/
  offered : Option WpaPtk
  /-- The PTK that has been proved, and whether the driver has it. -/
  ptk : Option WpaPtk
  /-- The replay counter of the last frame with a proof. -/
  counter : Option (List UInt8)
  /-- The group keys in use, of the handshakes and of WNM-Sleep. -/
  group : GroupKey → Bool → List UInt8
  /-- The frame at hand has a proof, or the AKM has none. -/
  authentic : Bool
  /-- The handshake has been completed since the PTK was last withdrawn. -/
  completed : Bool

namespace KeyState

def init : KeyState := ⟨none, none, none, fun _ _ => [], false, false⟩

/-- No keys. -/
def clear (s : KeyState) : KeyState :=
  { s with offered := none, ptk := none, group := fun _ _ => [] }

def storeGroup (s : KeyState) (kind : GroupKey) (wnmSleep : Bool) (key : List UInt8)
    (stored : Bool) : KeyState :=
  { s with
    group := if stored then Function.update s.group kind
      (Function.update (s.group kind) wnmSleep key) else s.group }

/-- A group key that is in use is not given again. -/
def giveGroup (s : KeyState) (kind : GroupKey) (wnmSleep : Bool) (key : List UInt8)
    (stored : Bool) : Option KeyState :=
  if (wnmSleep ∨ s.authentic) ∧ s.group kind false ≠ key ∧ s.group kind true ≠ key then
    some (s.storeGroup kind wnmSleep key stored)
  else none

/-- The PTK is given to the driver. -/
def givePtk (s : KeyState) (tk : List UInt8) (ok : Bool) : Option KeyState :=
  match s.ptk with
  | none => none
  | some ptk =>
      if s.authentic ∧ ¬ptk.installed ∧ tk = ptk.tk.take ptk.tkLen then
        some { s with ptk := some { ptk with installed := ok } }
      else none

/-- The PTK is taken from the driver. -/
def withdrawPtk (s : KeyState) : Option KeyState :=
  match s.ptk with
  | none => none
  | some ptk =>
      if s.authentic ∧ s.completed then
        some { s with ptk := some { ptk with installed := false }, completed := false }
      else none

/-- A frame has been proved, with the PTK on offer or with the one in use. -/
def prove (s : KeyState) (counter : List UInt8) (adopted : Bool) : Option KeyState :=
  if ∀ last ∈ s.counter, last < counter then
    if adopted then
      s.offered.map fun ptk =>
        { s with offered := none, ptk := some ptk, counter := some counter, authentic := true }
    else s.ptk.map fun _ => { s with counter := some counter, authentic := true }
  else none

def step (s : KeyState) : Action → Option KeyState
  | .received micLen => some { s with authentic := micLen = 0 }
  | .derive tptk ok =>
      some { s with offered := if ok then some tptk else s.offered.map fun _ => tptk }
  | .verified counter adopted => s.prove counter adopted
  | .setPtk _ _ _ tk _ ok => s.givePtk tk ok
  | .deletePtk _ _ _ => s.withdrawPtk
  | .setGtk _ _ _ _ _ _ gtk wnmSleep ok => s.giveGroup .gtk wnmSleep gtk ok
  | .setIgtk _ keyIdx _ key wnmSleep ok =>
      s.giveGroup .igtk wnmSleep key (ok || keyIdx = 0x0400 || keyIdx = 0x0500)
  | .setBigtk _ _ _ key wnmSleep ok => s.giveGroup .bigtk wnmSleep key ok
  | .setState state => some { s with completed := s.completed || state = .completed }
  | .assoc => some { s.clear with counter := none }
  | .disassoc => some s.clear
  | _ => some s

end KeyState

/-- The monitor of the keys. -/
def keyMonitor : Monitor KeyState Action := ⟨KeyState.step⟩

/-! ## The supplicant is what the monitor knows -/

/-- A value that is there if a flag is set. -/
def flagged {α : Type} (flag : Bool) (a : α) : Option α := if flag then some a else none

/-- The group keys of the supplicant. -/
def groupKeys (sm : WpaSm) : GroupKey → Bool → List UInt8
  | .gtk, false => sm.gtk
  | .gtk, true => sm.gtkWnmSleep
  | .igtk, false => sm.igtk
  | .igtk, true => sm.igtkWnmSleep
  | .bigtk, false => sm.bigtk
  | .bigtk, true => sm.bigtkWnmSleep

/-- The fields of the supplicant on the PTK and on the frame that proved it. -/
def pairwiseKeys (sm : WpaSm) :=
  (sm.tptkSet, sm.tptk, sm.ptkSet, sm.ptk, sm.rxReplayCounterSet, sm.rxReplayCounter)

/-- The monitor has the keys of the supplicant. -/
structure Tracks (s : KeyState) (sm : WpaSm) : Prop where
  offered : s.offered = flagged sm.tptkSet sm.tptk
  ptk : s.ptk = flagged sm.ptkSet sm.ptk
  counter : s.counter = flagged sm.rxReplayCounterSet sm.rxReplayCounter
  group : s.group = groupKeys sm
  fresh : sm.tptk.installed = false
  unset : sm.ptkSet = false → sm.ptk.tkLen = 0

/-- The log is accepted, and what the monitor has seen is what the supplicant has. If it is asked
for, the frame at hand has a proof, and the handshake was completed before, and is not now. -/
def Disciplined (authentic left : Bool) (w : World) : Prop :=
  ∃ s, keyMonitor.replay KeyState.init w.log = some s ∧ Tracks s w.sm ∧
    (w.state = .completed → s.completed = true) ∧ (authentic = true → s.authentic = true) ∧
      (left = true → s.completed = true ∧ w.state ≠ .completed)

/-- Other group keys. -/
theorem Tracks.withGroup {s : KeyState} {sm sm' : WpaSm} {group : GroupKey → Bool → List UInt8}
    (tracks : Tracks s sm) (same : pairwiseKeys sm' = pairwiseKeys sm)
    (groups : groupKeys sm' = group) : Tracks { s with group := group } sm' := by
  rw [pairwiseKeys, pairwiseKeys, Prod.mk.injEq, Prod.mk.injEq, Prod.mk.injEq, Prod.mk.injEq,
    Prod.mk.injEq] at same
  rcases same with ⟨tptkSet, tptk, ptkSet, ptk, counterSet, counter⟩
  constructor
  · rw [tptkSet, tptk]
    exact tracks.offered
  · rw [ptkSet, ptk]
    exact tracks.ptk
  · rw [counterSet, counter]
    exact tracks.counter
  · exact groups.symm
  · rw [tptk]
    exact tracks.fresh
  · rw [ptkSet, ptk]
    exact tracks.unset

/-- The supplicant with a group key that it has stored. -/
def withGroupKey (sm : WpaSm) (wnmSleep : Bool) (key : List UInt8) : GroupKey → WpaSm
  | .gtk => if wnmSleep then { sm with gtkWnmSleep := key } else { sm with gtk := key }
  | .igtk => if wnmSleep then { sm with igtkWnmSleep := key } else { sm with igtk := key }
  | .bigtk => if wnmSleep then { sm with bigtkWnmSleep := key } else { sm with bigtk := key }

theorem groupKeys_withGroupKey (sm : WpaSm) (wnmSleep : Bool) (key : List UInt8)
    (kind : GroupKey) :
    groupKeys (withGroupKey sm wnmSleep key kind) = Function.update (groupKeys sm) kind
      (Function.update (groupKeys sm kind) wnmSleep key) := by
  funext kind' wnmSleep'
  rcases kind with _ | _ | _ <;> rcases wnmSleep with _ | _ <;>
    rcases kind' with _ | _ | _ <;> rcases wnmSleep' with _ | _ <;> rfl

/-- The monitor and the supplicant store a group key in the same place. -/
theorem Tracks.storeGroup {s : KeyState} {sm : WpaSm} (tracks : Tracks s sm) (wnmSleep : Bool)
    (key : List UInt8) (kind : GroupKey) :
    Tracks (s.storeGroup kind wnmSleep key true) (withGroupKey sm wnmSleep key kind) := by
  have same : pairwiseKeys (withGroupKey sm wnmSleep key kind) = pairwiseKeys sm := by
    rcases kind with _ | _ | _ <;> rcases wnmSleep with _ | _ <;> rfl
  rw [KeyState.storeGroup, if_pos rfl, tracks.group]
  exact tracks.withGroup same (groupKeys_withGroupKey sm wnmSleep key kind)

/-- A PTK with a TK has been proved. -/
theorem Tracks.ptk_eq_some {s : KeyState} {sm : WpaSm} (tracks : Tracks s sm)
    (there : sm.ptk.tkLen ≠ 0) : sm.ptkSet = true ∧ s.ptk = some sm.ptk := by
  have set : sm.ptkSet = true := by
    rcases set : sm.ptkSet with _ | _
    · exact absurd (tracks.unset set) there
    · rfl
  refine ⟨set, ?_⟩
  rw [tracks.ptk, set]
  rfl

variable {a c : Bool} {w : World}

theorem Disciplined.mono {a' c' : Bool} (disciplined : Disciplined a c w) (le : a' ≤ a)
    (le' : c' ≤ c) : Disciplined a' c' w := by
  rcases disciplined with ⟨s, replayed, tracks, known, authentic, left⟩
  exact ⟨s, replayed, tracks, known, fun h => authentic (le h), fun h => left (le' h)⟩

/-- A step of the monitor together with one of the supplicant. -/
theorem Disciplined.step {action : Action} {sm : WpaSm} {state : WpaState} {a' c' : Bool}
    (disciplined : Disciplined a c w)
    (moves : ∀ s, Tracks s w.sm → (w.state = .completed → s.completed = true) →
      (a = true → s.authentic = true) → (c = true → s.completed = true ∧ w.state ≠ .completed) →
        ∃ t, s.step action = some t ∧ Tracks t sm ∧ (state = .completed → t.completed = true) ∧
          (a' = true → t.authentic = true) ∧
            (c' = true → t.completed = true ∧ state ≠ .completed)) :
    Disciplined a' c' ⟨sm, state, w.log ++ [action]⟩ := by
  rcases disciplined with ⟨s, replayed, tracks, known, authentic, left⟩
  rcases moves s tracks known authentic left with ⟨t, moved, rest⟩
  exact ⟨t, Monitor.replay_concat replayed moved, rest⟩

/-- An action that the monitor passes over. -/
def Neutral (action : Action) : Prop := ∀ s : KeyState, s.step action = some s

theorem Disciplined.logged {action : Action} (disciplined : Disciplined a c w)
    (neutral : Neutral action) : Disciplined a c ⟨w.sm, w.state, w.log ++ [action]⟩ :=
  disciplined.step fun s tracks known authentic left =>
    ⟨s, neutral s, tracks, known, authentic, left⟩

theorem maintains_act {action : Action} (neutral : Neutral action) :
    (act action).Maintains (Disciplined a c) :=
  triple_modify fun _ disciplined => disciplined.logged neutral

/-- A change of fields that the monitor does not follow. -/
theorem maintains_update {f : WpaSm → WpaSm}
    (same : ∀ sm, pairwiseKeys (f sm) = pairwiseKeys sm ∧ groupKeys (f sm) = groupKeys sm) :
    (update f).Maintains (Disciplined a c) :=
  triple_modify fun w ⟨s, replayed, tracks, rest⟩ =>
    ⟨s, replayed, tracks.withGroup (same w.sm).1 ((same w.sm).2.trans tracks.group.symm), rest⟩

/-- A new state. The handshake has been left unless the state is `WPA_COMPLETED`. -/
theorem Disciplined.setState {state : WpaState} {c' : Bool} (disciplined : Disciplined a c w)
    (left : c' = true → state ≠ .completed ∧ (c = true ∨ w.state = .completed)) :
    Disciplined a c' { w with state := state, log := w.log ++ [.setState state] } := by
  refine disciplined.step fun s tracks known authentic before =>
    ⟨{ s with completed := s.completed || state = .completed }, rfl,
      { tracks with }, fun now => ?_, authentic, fun asked => ?_⟩
  · rw [now]
    exact Bool.or_true _
  · rcases left asked with ⟨other, done⟩
    have completed : s.completed = true := done.elim (fun asked => (before asked).1) known
    refine ⟨?_, other⟩
    show (s.completed || _) = true
    rw [completed]
    rfl

theorem maintains_wpaSmSetState {state : WpaState} (left : c = true → state ≠ .completed) :
    (wpaSmSetState state).Maintains (Disciplined a c) :=
  triple_modify fun _ disciplined => disciplined.setState fun asked => ⟨left asked, .inl asked⟩

/-! ## The functions of the supplicant -/

/-- The state machine that is read is the one there is. -/
theorem triple_getSm_bind {α : Type} {pre : World → Prop} {post : α → World → Prop}
    {stops : Stop → World → Prop} {rest : WpaSm → Call α}
    (run : ∀ sm, (rest sm).Triple (fun w => w.sm = sm ∧ pre w) post stops) :
    (getSm >>= rest).Triple pre post stops :=
  Triple.bind (fun sm w => w.sm = sm ∧ pre w) (fun _ holds => ⟨rfl, holds⟩) run

theorem maintains_getSm {inv : World → Prop} : getSm.Maintains inv := fun _ holds => holds

theorem maintains_orStop {α : Type} {inv : World → Prop} (value : Option α) (reason : Stop) :
    (orStop value reason).Maintains inv := by
  cases value with
  | none => exact maintains_stop reason
  | some a => exact maintains_pure a

theorem triple_labelFailed {pre : World → Prop} {x : Call Unit}
    (triple : x.Triple pre (fun _ => Disciplined a c) fun _ => Disciplined a c) :
    (labelFailed x).Triple pre (fun _ => Disciplined a c) fun _ => Disciplined a c := by
  refine Triple.bind (fun _ => Disciplined a c)
    (triple.attempt (fun _ _ holds => holds) fun _ _ holds _ => holds) fun result => ?_
  rcases result with (_ | _ | _) | _
  on_goal 2 => exact maintains_act fun _ => rfl
  all_goals exact maintains_pure ()

section

variable (env : Callbacks)

/-- A frame that is sent says nothing about the keys. -/
theorem maintains_wpaEapolKeySend (ptk : WpaPtk) (ver : UInt16) (msg : EapolKey) :
    (wpaEapolKeySend env ptk ver msg).Maintains (Disciplined a c) := by
  unfold wpaEapolKeySend
  refine maintains_getSm.bind fun sm => Maintains.bind ?_ fun _ => ?_
  · exact Maintains.when (Maintains.whenSome fun bssid => maintains_update fun _ => ⟨rfl, rfl⟩)
  refine (maintains_require _).bind fun _ => (maintains_require _).bind fun _ => ?_
  refine (maintains_orStop _ _).bind fun mic => maintains_get.bind fun w => ?_
  exact (maintains_act fun _ => rfl).bind fun _ => maintains_require _

theorem maintains_wpaSupplicantSend2of4 (key : EapolKey) (ver : UInt16) (ptk : WpaPtk) :
    (wpaSupplicantSend2of4 env key ver ptk).Maintains (Disciplined a c) := by
  unfold wpaSupplicantSend2of4
  refine maintains_getSm.bind fun sm => (maintains_require _).bind fun _ => ?_
  exact maintains_wpaEapolKeySend env _ _ _

theorem maintains_wpaSupplicantSend4of4 (key : EapolKey) (ver keyInfo : UInt16) :
    (wpaSupplicantSend4of4 env key ver keyInfo).Maintains (Disciplined a c) := by
  unfold wpaSupplicantSend4of4
  refine maintains_getSm.bind fun sm => (maintains_require _).bind fun _ => ?_
  exact maintains_wpaEapolKeySend env _ _ _

theorem maintains_wpaSupplicantSend2of2 (key : EapolKey) (ver keyInfo : UInt16) :
    (wpaSupplicantSend2of2 env key ver keyInfo).Maintains (Disciplined a c) := by
  unfold wpaSupplicantSend2of2
  refine maintains_getSm.bind fun sm => (maintains_require _).bind fun _ => ?_
  exact maintains_wpaEapolKeySend env _ _ _

/-! ### Message 1/4 -/

/-- A derivation does not say that the driver has the PTK. -/
theorem wpaDerivePtk_installed (sm : WpaSm) (key : EapolKey) :
    (wpaDerivePtk env sm key).2.installed = sm.tptk.installed :=
  wpaPmkToPtk_installed ..

/-- A derivation offers a PTK that the driver does not have. -/
theorem maintains_deriveTptk (key : EapolKey) :
    (deriveTptk env key).Maintains (Disciplined a c) := by
  unfold deriveTptk
  refine triple_getSm_bind fun sm => ?_
  have installed := wpaDerivePtk_installed env sm key
  rcases derived : wpaDerivePtk env sm key with ⟨ok, tptk⟩
  rw [derived] at installed
  dsimp only at installed ⊢
  have swapped : (if ok ∧ sm.conf.pairwiseCipher = .tkip then swapTkipMicKeys tptk
      else tptk).installed = sm.tptk.installed := by
    rw [← installed]
    split <;> rfl
  refine Triple.bind (fun _ => Disciplined a c) (triple_modify ?_) fun _ => maintains_require _
  rintro w ⟨rfl, disciplined⟩
  refine disciplined.step fun s tracks known authentic left =>
    ⟨_, rfl, { tracks with offered := ?_, fresh := swapped.trans tracks.fresh }, known, authentic,
      left⟩
  show (if ok then some _ else s.offered.map _) = flagged (w.sm.tptkSet || ok) _
  rw [tracks.offered]
  rcases ok with _ | _
  · rw [Bool.or_false, if_neg Bool.false_ne_true]
    rcases w.sm.tptkSet with _ | _ <;> rfl
  · rw [Bool.or_true]
    rfl

theorem maintains_getPmk (pmkid : Option (List UInt8)) :
    (getPmk env pmkid).Maintains (Disciplined a c) := by
  unfold getPmk
  refine maintains_getSm.bind fun sm => ?_
  rcases env.getPmk sm pmkid with ⟨res, pmk, curPmksa⟩
  dsimp only
  refine Maintains.bind (maintains_update fun _ => ⟨rfl, rfl⟩) fun _ => ?_
  exact (maintains_require _).bind fun _ => maintains_require _

theorem maintains_renewSnonce : (renewSnonce env).Maintains (Disciplined a c) := by
  unfold renewSnonce
  refine maintains_getSm.bind fun sm => Maintains.when ?_
  exact (maintains_orStop _ _).bind fun random => maintains_update fun _ => ⟨rfl, rfl⟩

theorem maintains_wpaSupplicantProcess1of4 (key : EapolKey) (ver : UInt16) (keyData : List UInt8)
    (encryption : FrameEncryption) :
    (wpaSupplicantProcess1of4 env key ver keyData encryption).Maintains (Disciplined a c) := by
  unfold wpaSupplicantProcess1of4
  refine triple_labelFailed (maintains_get.bind fun w => ?_)
  refine (maintains_require _).bind fun _ => (maintains_require _).bind fun _ => ?_
  refine Maintains.bind ?_ fun _ => ?_
  · exact Maintains.when ((maintains_act fun _ => rfl).bind fun _ => maintains_stop _)
  have other : WpaState.fourWayHandshake ≠ .completed := nofun
  refine (maintains_orStop _ _).bind fun ie => (maintains_getPmk env _).bind fun _ => ?_
  refine Maintains.bind (maintains_wpaSmSetState fun _ => other) fun _ => ?_
  refine (maintains_renewSnonce env).bind fun _ => (maintains_deriveTptk env key).bind fun _ => ?_
  refine (maintains_require _).bind fun _ => maintains_getSm.bind fun sm => ?_
  refine (maintains_wpaSupplicantSend2of4 env _ _ _).bind fun _ => ?_
  exact maintains_update fun _ => ⟨rfl, rfl⟩

/-! ### Keys to the driver -/

/-- A key is given to the driver and stored, or given and refused. -/
theorem triple_giveKey {pre : World → Prop} {action : Bool → Action} {lenient : Prop}
    [Decidable lenient] {store : WpaSm → WpaSm} {a' c' : Bool}
    (given : ∀ w ok, pre w → ok = true ∨ lenient →
      Disciplined a' c' ⟨store w.sm, w.state, w.log ++ [action ok]⟩)
    (refused : ∀ w, pre w → ¬lenient →
      Disciplined a' c' ⟨w.sm, w.state, w.log ++ [action false]⟩) :
    (giveKey env action lenient store).Triple pre (fun _ => Disciplined a' c')
      fun _ => Disciplined a' c' := by
  unfold giveKey
  refine Triple.bind (fun before w => w = before ∧ pre w)
    (triple_get fun w holds => ⟨rfl, holds⟩) fun before => ?_
  dsimp only
  refine Triple.bind (fun _ w => pre before ∧
    w = ⟨before.sm, before.state, before.log ++ [action (env.setKey before.log)]⟩)
    (triple_modify ?_) fun _ => triple_require_bind (fun passed => triple_modify ?_) ?_
  · rintro w ⟨rfl, holds⟩
    exact ⟨holds, rfl⟩
  · rintro w ⟨holds, rfl⟩
    exact given before _ holds passed
  · rintro w ⟨holds, rfl⟩ failed
    rcases answer : env.setKey before.log with _ | _
    · exact refused before holds fun passed => failed (.inr passed)
    · exact absurd (.inl answer) failed

/-- The PTK is taken from the driver after the handshake has been completed. -/
theorem triple_wpaSupplicantHandleM4Timeout :
    (wpaSupplicantHandleM4Timeout env).Triple (Disciplined true true)
      (fun _ => Disciplined true false) fun _ => Disciplined true false := by
  unfold wpaSupplicantHandleM4Timeout
  refine triple_getSm_bind fun sm => Triple.when
    (fun there => triple_giveKey env ?_ fun _ _ no => absurd trivial no)
    fun w holds _ => holds.2.mono le_rfl (Bool.false_le _)
  rintro w ok ⟨rfl, disciplined⟩ -
  refine disciplined.step fun s tracks known authentic left => ?_
  rcases tracks.ptk_eq_some there with ⟨set, ptk⟩
  rcases left rfl with ⟨completed, other⟩
  refine ⟨{ s with ptk := some { w.sm.ptk with installed := false }, completed := false }, ?_,
    { tracks with ptk := ?_ },
    fun now => absurd now other, authentic, nofun⟩
  · show s.withdrawPtk = _
    rw [KeyState.withdrawPtk, ptk]
    exact if_pos ⟨authentic rfl, completed⟩
  · rw [set]
    rfl

/-- The PTK is given to the driver if the driver does not have it. -/
theorem maintains_wpaSupplicantInstallPtk (flag : KeyFlag) :
    (wpaSupplicantInstallPtk env flag).Maintains (Disciplined true c) := by
  unfold wpaSupplicantInstallPtk
  refine triple_getSm_bind fun sm => ?_
  dsimp only
  split
  next => exact triple_pure fun w holds => holds.2
  next absent =>
    split
    next => exact triple_pure fun w holds => holds.2
    next =>
      refine triple_require_bind (fun _ => ?_) fun w holds _ => holds.2
      refine triple_require_bind (fun lengths => ?_) fun w holds _ => holds.2
      have there : sm.ptk.tkLen ≠ 0 := by omega
      -- the monitor takes the key in either case
      have allowed {s : KeyState} (tracks : Tracks s sm) (authentic : s.authentic = true)
          (ok : Bool) : s.givePtk (sm.ptk.tk.take sm.ptk.tkLen) ok =
            some { s with ptk := some { sm.ptk with installed := ok } } := by
        rw [KeyState.givePtk, (tracks.ptk_eq_some there).2]
        exact if_pos ⟨authentic, absent, rfl⟩
      refine triple_giveKey env ?_ ?_
      · rintro w ok ⟨rfl, disciplined⟩ passed
        have ok_eq : ok = true := passed.resolve_right id
        refine disciplined.step fun s tracks known authentic left =>
          ⟨_, allowed tracks (authentic rfl) ok, { tracks with ptk := ?_ }, known, authentic, left⟩
        rw [ok_eq, (tracks.ptk_eq_some there).1]
        rfl
      · rintro w ⟨rfl, disciplined⟩ -
        refine disciplined.step fun s tracks known authentic left =>
          ⟨_, allowed tracks (authentic rfl) false, { tracks with ptk := ?_ }, known, authentic,
            left⟩
        rw [(tracks.ptk_eq_some there).1]
        show some { w.sm.ptk with installed := false } = some w.sm.ptk
        rw [← Bool.eq_false_iff.mpr absent]

theorem maintains_wpaSupplicantActivatePtk :
    (wpaSupplicantActivatePtk env).Maintains (Disciplined a c) := by
  unfold wpaSupplicantActivatePtk
  refine maintains_getSm.bind fun sm => triple_giveKey env ?_ ?_
  · exact fun w ok disciplined _ => disciplined.logged fun _ => rfl
  · exact fun w disciplined _ => disciplined.logged fun _ => rfl

/-- A group key that is not in use is given to the driver. -/
theorem triple_giveKey_group (kind : GroupKey) {sm : WpaSm} {wnmSleep : Bool} {key : List UInt8}
    {action : Bool → Action} {lenient : Prop} [Decidable lenient] {store : WpaSm → WpaSm}
    (steps : ∀ (s : KeyState) ok,
      s.step (action ok) = s.giveGroup kind wnmSleep key (ok || decide lenient))
    (stores : store sm = withGroupKey sm wnmSleep key kind)
    (may : wnmSleep = true ∨ a = true) (unused : ∀ b, groupKeys sm kind b ≠ key) :
    (giveKey env action lenient store).Triple (fun w => w.sm = sm ∧ Disciplined a c w)
      (fun _ => Disciplined a c) fun _ => Disciplined a c := by
  have allowed {s : KeyState} (tracks : Tracks s sm) (authentic : a = true → s.authentic = true)
      (stored : Bool) : s.giveGroup kind wnmSleep key stored =
        some (s.storeGroup kind wnmSleep key stored) := by
    rw [KeyState.giveGroup, tracks.group]
    exact if_pos ⟨may.imp id authentic, unused false, unused true⟩
  refine triple_giveKey env ?_ ?_
  · rintro w ok ⟨rfl, disciplined⟩ passed
    refine disciplined.step fun s tracks known authentic left =>
      ⟨s.storeGroup kind wnmSleep key true, ?_, stores ▸ tracks.storeGroup wnmSleep key kind,
        known, authentic, left⟩
    have stored : (ok || decide lenient) = true :=
      passed.elim (fun ok => by rw [ok]; rfl) fun holds => by
        rw [decide_eq_true holds, Bool.or_true]
    rw [steps, allowed tracks authentic, stored]
  · rintro w ⟨rfl, disciplined⟩ fails
    refine disciplined.step fun s tracks known authentic left =>
      ⟨s, ?_, tracks, known, authentic, left⟩
    rw [steps, allowed tracks authentic, decide_eq_false fails]
    rfl

theorem maintains_wpaSupplicantInstallGtk (gd : WpaGtkData) (keyRsc : List UInt8)
    (wnmSleep : Bool) (may : wnmSleep = true ∨ a = true) :
    (wpaSupplicantInstallGtk env gd keyRsc wnmSleep).Maintains (Disciplined a c) := by
  unfold wpaSupplicantInstallGtk
  refine triple_getSm_bind fun sm => ?_
  split
  next => exact triple_pure fun w holds => holds.2
  next unused =>
    refine triple_giveKey_group env .gtk (fun s ok => ?_) rfl may
      (Bool.forall_bool.mpr (not_or.mp unused))
    rw [decide_false, Bool.or_false]
    rfl

theorem maintains_wpaSupplicantInstallIgtk (kde : List UInt8) (wnmSleep : Bool)
    (may : wnmSleep = true ∨ a = true) :
    (wpaSupplicantInstallIgtk env kde wnmSleep).Maintains (Disciplined a c) := by
  unfold wpaSupplicantInstallIgtk
  refine triple_getSm_bind fun sm => ?_
  dsimp only
  split
  next => exact triple_pure fun w holds => holds.2
  next unused =>
    refine triple_require_bind (fun _ => ?_) fun w holds _ => holds.2
    refine triple_giveKey_group env .igtk (fun s ok => ?_) rfl may
      (Bool.forall_bool.mpr (not_or.mp unused))
    rw [Bool.decide_or, ← Bool.or_assoc]
    rfl

theorem maintains_wpaSupplicantInstallBigtk (kde : List UInt8) (wnmSleep : Bool)
    (may : wnmSleep = true ∨ a = true) :
    (wpaSupplicantInstallBigtk env kde wnmSleep).Maintains (Disciplined a c) := by
  unfold wpaSupplicantInstallBigtk
  refine triple_getSm_bind fun sm => ?_
  dsimp only
  split
  next => exact triple_pure fun w holds => holds.2
  next unused =>
    refine triple_require_bind (fun _ => ?_) fun w holds _ => holds.2
    refine triple_giveKey_group env .bigtk (fun s ok => ?_) rfl may
      (Bool.forall_bool.mpr (not_or.mp unused))
    rw [decide_false, Bool.or_false]
    rfl

theorem maintains_checkGroupCipher (groupCipher : Cipher) (keylen maxkeylen : ℕ) :
    (wpaSupplicantCheckGroupCipher groupCipher keylen maxkeylen).Maintains (Disciplined a c) := by
  unfold wpaSupplicantCheckGroupCipher
  refine (maintains_require _).bind fun _ => (maintains_require _).bind fun _ => ?_
  exact maintains_pure _

theorem maintains_wpaSupplicantPairwiseGtk (key : EapolKey) (gtk : List UInt8) :
    (wpaSupplicantPairwiseGtk env key gtk).Maintains (Disciplined true c) := by
  unfold wpaSupplicantPairwiseGtk
  refine maintains_getSm.bind fun sm => (maintains_require _).bind fun _ => ?_
  split
  next => exact maintains_pure ()
  next =>
    refine (maintains_checkGroupCipher _ _ _).bind fun found => ?_
    exact maintains_wpaSupplicantInstallGtk env _ _ _ (.inr rfl)

theorem maintains_ieee80211wSetKeys (ie : Ies) :
    (ieee80211wSetKeys env ie).Maintains (Disciplined true c) := by
  unfold ieee80211wSetKeys
  refine maintains_getSm.bind fun sm => Maintains.when (Maintains.bind ?_ fun _ => ?_)
  · exact Maintains.whenSome fun igtk => (maintains_require _).bind fun _ =>
      maintains_wpaSupplicantInstallIgtk env _ _ (.inr rfl)
  · exact Maintains.whenSome fun bigtk => Maintains.when ((maintains_require _).bind fun _ =>
      maintains_wpaSupplicantInstallBigtk env _ _ (.inr rfl))

/-! ### Message 3/4 -/

theorem maintains_wpaHandleExtKeyId (kde : Ies) :
    (wpaHandleExtKeyId kde).Maintains (Disciplined a c) := by
  unfold wpaHandleExtKeyId
  refine maintains_getSm.bind fun sm => ?_
  dsimp only
  split
  next =>
    split
    next => exact Maintains.bind (maintains_update fun _ => ⟨rfl, rfl⟩) fun _ => maintains_require _
    next => exact (maintains_require _).bind fun _ => maintains_update fun _ => ⟨rfl, rfl⟩
  next => exact (maintains_require _).bind fun _ => maintains_update fun _ => ⟨rfl, rfl⟩

theorem maintains_wpaSupplicantKeyNegComplete (secure : Bool) :
    (wpaSupplicantKeyNegComplete secure).Maintains (Disciplined a false) := by
  unfold wpaSupplicantKeyNegComplete
  refine (maintains_act fun _ => rfl).bind fun _ => ?_
  refine Maintains.bind (maintains_wpaSmSetState nofun) fun _ => ?_
  refine maintains_getSm.bind fun sm => Maintains.when ?_
  refine (maintains_act fun _ => rfl).bind fun _ => (maintains_act fun _ => rfl).bind fun _ => ?_
  exact Maintains.when (maintains_act fun _ => rfl)

theorem maintains_checkSsid (ie : Ies) : (checkSsid ie).Maintains (Disciplined a c) := by
  unfold checkSsid
  refine maintains_getSm.bind fun sm => Maintains.when ((maintains_require _).bind fun _ => ?_)
  exact maintains_act fun _ => rfl

theorem maintains_check3of4 (key : EapolKey) (ie : Ies) :
    (check3of4 env key ie).Maintains (Disciplined a c) := by
  unfold check3of4
  refine maintains_getSm.bind fun sm => (maintains_require _).bind fun _ => ?_
  refine (maintains_require _).bind fun _ => (maintains_require _).bind fun _ => ?_
  refine (maintains_require _).bind fun _ => (maintains_wpaHandleExtKeyId ie).bind fun _ => ?_
  exact (maintains_require _).bind fun _ => maintains_require _

/-- What was kept while the handshake had been left need not be known any longer. -/
theorem Maintains.forget {α : Type} {x : Call α} (maintains : x.Maintains (Disciplined a c)) :
    x.Triple (Disciplined a c) (fun _ => Disciplined a c) fun _ => Disciplined a false :=
  Triple.mono maintains (fun _ holds => holds) (fun _ _ holds => holds)
    fun _ _ holds => holds.mono le_rfl (Bool.false_le _)

/-- The PTK of an earlier handshake is withdrawn before the new one is given. -/
theorem triple_installFrom3of4 (key : EapolKey) (ver : UInt16) (oldState : WpaState) :
    (installFrom3of4 env key ver oldState).Triple
      (Disciplined true (decide (oldState = .completed))) (fun _ => Disciplined true false)
        fun _ => Disciplined true false := by
  unfold installFrom3of4
  refine Triple.bind _ (Maintains.forget maintains_getSm) fun sm => ?_
  refine Triple.bind _ (Maintains.forget
    (Maintains.when (maintains_wpaSupplicantInstallPtk env .rx))) fun _ => ?_
  refine Triple.bind (fun _ => Disciplined true false) (Triple.when (fun completed => ?_)
    fun w holds _ => holds.mono le_rfl (Bool.false_le _)) fun _ => ?_
  · rw [decide_eq_true completed]
    exact triple_wpaSupplicantHandleM4Timeout env
  refine (maintains_wpaSupplicantSend4of4 env _ _ _).bind fun _ => ?_
  refine Maintains.bind (maintains_update fun _ => ⟨rfl, rfl⟩) fun _ => Maintains.when ?_
  split
  next => exact maintains_wpaSupplicantActivatePtk env
  next => exact maintains_wpaSupplicantInstallPtk env _

theorem maintains_gtkFrom3of4 (key : EapolKey) (ie : Ies) :
    (gtkFrom3of4 env key ie).Maintains (Disciplined true c) := by
  unfold gtkFrom3of4
  refine maintains_getSm.bind fun sm => Maintains.when ((maintains_orStop _ _).bind fun gtk => ?_)
  exact maintains_wpaSupplicantPairwiseGtk env _ _

theorem maintains_complete3of4 (key : EapolKey) (ie : Ies) :
    (complete3of4 env key ie).Maintains (Disciplined true false) := by
  unfold complete3of4
  refine Maintains.bind (Maintains.when ?_) fun _ =>
    Maintains.bind (maintains_wpaSmSetState nofun) fun _ => ?_
  · exact (maintains_act fun _ => rfl).bind fun _ => maintains_act fun _ => rfl
  refine (maintains_gtkFrom3of4 env _ _).bind fun _ => ?_
  refine (maintains_ieee80211wSetKeys env ie).bind fun _ => maintains_getSm.bind fun sm => ?_
  refine Maintains.bind (Maintains.when (maintains_wpaSupplicantKeyNegComplete _)) fun _ => ?_
  refine Maintains.bind (Maintains.when (maintains_act fun _ => rfl)) fun _ => ?_
  refine Maintains.bind (Maintains.whenSome fun bitmap => maintains_act fun _ => rfl) fun _ => ?_
  exact maintains_update fun _ => ⟨rfl, rfl⟩

/-- Message 3/4 leaves a handshake that had been completed, if there was one. -/
theorem maintains_wpaSupplicantProcess3of4 (key : EapolKey) (ver : UInt16) (keyData : List UInt8) :
    (wpaSupplicantProcess3of4 env key ver keyData).Maintains (Disciplined true false) := by
  unfold wpaSupplicantProcess3of4
  have other : WpaState.fourWayHandshake ≠ .completed := nofun
  refine triple_labelFailed (Triple.bind (fun before w => w = before ∧ Disciplined true false w)
    (triple_get fun w holds => ⟨rfl, holds⟩) fun before => ?_)
  dsimp only
  refine Triple.bind (fun _ => Disciplined true (decide (before.state = .completed)))
    (triple_modify ?_) fun _ => ?_
  · rintro w ⟨rfl, disciplined⟩
    exact disciplined.setState fun completed => ⟨other, .inr (of_decide_eq_true completed)⟩
  refine Triple.bind _ (Maintains.forget (maintains_orStop _ _)) fun ie => ?_
  refine Triple.bind _ (Maintains.forget (maintains_checkSsid ie)) fun _ => ?_
  refine Triple.bind _ (Maintains.forget (maintains_check3of4 env key ie)) fun _ => ?_
  refine Triple.bind _ (triple_installFrom3of4 env key ver _) fun _ => ?_
  exact maintains_complete3of4 env key ie

/-! ### The group key handshake -/

theorem maintains_wpaSupplicantProcess1of2 (key : EapolKey) (keyData : List UInt8) (ver : UInt16) :
    (wpaSupplicantProcess1of2 env key keyData ver).Maintains (Disciplined true false) := by
  unfold wpaSupplicantProcess1of2
  refine triple_labelFailed (maintains_getSm.bind fun sm => (maintains_require _).bind fun _ => ?_)
  refine (maintains_orStop _ _).bind fun ie => ?_
  refine Maintains.bind (maintains_wpaSmSetState nofun) fun _ => ?_
  refine (maintains_require _).bind fun _ => (maintains_orStop _ _).bind fun gtk => ?_
  refine (maintains_require _).bind fun _ => (maintains_require _).bind fun _ => ?_
  refine (maintains_checkGroupCipher _ _ _).bind fun found => ?_
  refine (maintains_ieee80211wSetKeys env ie).ignore.bind fun _ => ?_
  refine (maintains_wpaSupplicantInstallGtk env _ _ _ (.inr rfl)).bind fun _ => ?_
  refine (maintains_wpaSupplicantSend2of2 env _ _ _).bind fun _ => ?_
  refine (maintains_act fun _ => rfl).bind fun _ => ?_
  refine Maintains.bind (maintains_wpaSmSetState nofun) fun _ => ?_
  exact maintains_act fun _ => rfl

/-! ### Frames that arrive -/

/-- A frame with a right MIC has a proof, and a replay counter above the last one. -/
theorem triple_wpaSupplicantVerifyEapolKeyMic (sm : WpaSm) (key : EapolKey) (ver : UInt16)
    (frame : List UInt8)
    (fresh : ¬(sm.rxReplayCounterSet ∧ key.replayCounter ≤ sm.rxReplayCounter)) :
    (wpaSupplicantVerifyEapolKeyMic env key ver frame).Triple
      (fun w => w.sm = sm ∧ Disciplined a c w) (fun _ => Disciplined true c)
        fun _ => Disciplined a c := by
  unfold wpaSupplicantVerifyEapolKeyMic
  -- the monitor finds the frame fresh
  have newer {s : KeyState} (tracks : Tracks s sm) :
      ∀ last ∈ s.counter, last < key.replayCounter := by
    intro last member
    rw [tracks.counter, flagged] at member
    split at member
    next set =>
      rw [← Option.some_inj.mp member]
      exact List.not_le.mp fun le => fresh ⟨set, le⟩
    next => cases member
  refine triple_getSm_bind fun read => ?_
  split
  next proved =>
    refine triple_modify ?_
    rintro w ⟨rfl, same, disciplined⟩
    refine disciplined.step fun s tracks known authentic left =>
      ⟨{ s with
          offered := none
          ptk := some w.sm.tptk
          counter := some key.replayCounter
          authentic := true }, ?_, ?_, known, fun _ => rfl, left⟩
    · have offered : s.offered = some w.sm.tptk := by
        rw [tracks.offered, proved.1]
        rfl
      show s.prove key.replayCounter true = _
      rw [KeyState.prove, offered]
      exact if_pos (newer (same ▸ tracks))
    · exact ⟨rfl, rfl, rfl, tracks.group, rfl,
        fun unset => absurd unset.symm Bool.false_ne_true⟩
  next =>
    refine triple_require_bind (fun proved => triple_modify ?_) fun w holds _ => holds.2.2
    rintro w ⟨rfl, same, disciplined⟩
    refine disciplined.step fun s tracks known authentic left =>
      ⟨{ s with counter := some key.replayCounter, authentic := true }, ?_, ?_, known,
        fun _ => rfl, left⟩
    · have ptk : s.ptk = some w.sm.ptk := by
        rw [tracks.ptk, proved.1]
        rfl
      show s.prove key.replayCounter false = _
      rw [KeyState.prove, ptk]
      exact if_pos (newer (same ▸ tracks))
    · exact { tracks with counter := rfl }

/-- Key data is decrypted for a frame with a MIC, unless the AKM has none. -/
theorem triple_decryptKeyData (micLen : ℕ) (key : EapolKey) (ver : UInt16) :
    (decryptKeyData env micLen key ver).Triple (Disciplined a c)
      (fun _ w => (hasBits key.keyInfo KeyInfo.encrKeyData → micLen ≠ 0 →
        hasBits key.keyInfo KeyInfo.mic) ∧ Disciplined a c w) fun _ => Disciplined a c := by
  unfold decryptKeyData
  split
  next =>
    refine triple_require_bind (fun mic => ?_) fun w holds _ => holds
    refine triple_require_bind (fun _ => triple_getSm_bind fun sm => ?_) fun w holds _ => holds
    exact Triple.mono (maintains_orStop _ _) (fun w holds => holds.2)
      (fun _ w holds => ⟨fun _ _ => mic, holds⟩) fun _ w holds => holds
  next plain =>
    exact triple_pure fun w holds => ⟨fun encr some => absurd ⟨encr, some⟩ plain, holds⟩

/-- Keys are taken from a frame that has a proof. -/
theorem maintains_processKey (micLen : ℕ) (key : EapolKey) (ver : UInt16) (keyData : List UInt8)
    (encryption : FrameEncryption)
    (encrypted : hasBits key.keyInfo KeyInfo.encrKeyData → micLen ≠ 0 →
      hasBits key.keyInfo KeyInfo.mic)
    (proved : hasBits key.keyInfo KeyInfo.mic ∨ micLen = 0 → a = true) :
    (processKey env micLen key ver keyData encryption).Maintains (Disciplined a false) := by
  unfold processKey
  dsimp only
  split
  next =>
    refine (maintains_require _).bind fun _ => ?_
    split
    next flags =>
      have authentic : a = true := by
        refine proved ?_
        by_cases none : micLen = 0
        · exact .inr none
        · exact .inl (flags.elim id fun encr => encrypted encr none)
      rw [authentic]
      exact maintains_wpaSupplicantProcess3of4 env key ver keyData
    next => exact maintains_wpaSupplicantProcess1of4 env key ver keyData encryption
  next =>
    split
    next flags =>
      rw [proved (flags.imp And.right And.left)]
      exact maintains_wpaSupplicantProcess1of2 env key keyData ver
    next => exact maintains_pure ()

/-- A frame, whatever it is. -/
theorem maintains_wpaSmRxEapol (buf : List UInt8) (encryption : FrameEncryption) :
    (wpaSmRxEapol env buf encryption).Maintains (Disciplined false false) := by
  unfold wpaSmRxEapol
  refine triple_getSm_bind fun sm => ?_
  dsimp only
  generalize wpaMicLen _ _ = micLen
  have weaken {a : Bool} {w : World} (holds : Disciplined a false w) : Disciplined false false w :=
    holds.mono (Bool.false_le _) le_rfl
  refine Triple.bind (fun _ w => w.sm = sm ∧ Disciplined (decide (micLen = 0)) false w)
    (triple_modify ?_) fun _ => ?_
  · rintro w ⟨rfl, disciplined⟩
    exact ⟨rfl, disciplined.step fun s tracks known _ left =>
      ⟨{ s with authentic := micLen = 0 }, rfl, { tracks with }, known, id, left⟩⟩
  split
  next => exact triple_stop fun w holds => weaken holds.2
  next frame key _ =>
    refine triple_require_bind (fun fresh => ?_) fun w holds _ => weaken holds.2
    refine triple_require_bind (fun _ => ?_) fun w holds _ => weaken holds.2
    -- whether the frame has a proof behind the check of the MIC
    refine Triple.bind (fun _ =>
      Disciplined (decide (micLen = 0) || hasBits key.keyInfo KeyInfo.mic) false)
      (Triple.when (fun mic => ?_) fun w holds none => ?_) fun _ => ?_
    · refine Triple.mono (triple_wpaSupplicantVerifyEapolKeyMic env sm key _ frame fresh)
        (fun w holds => holds) (fun _ w holds => ?_) fun _ w holds => weaken holds
      rw [mic, Bool.or_true]
      exact holds
    · rw [Bool.eq_false_iff.mpr none, Bool.or_false]
      exact holds.2
    refine Triple.bind _ (Triple.mono (triple_decryptKeyData env micLen key _)
      (fun w holds => holds) (fun _ w holds => holds) fun _ w holds => weaken holds)
        fun keyData => ?_
    refine triple_of_fact fun encrypted => Triple.mono (Maintains.bind (maintains_processKey env
      micLen key _ keyData encryption encrypted ?_) fun _ => maintains_pure _)
      (fun w holds => holds) (fun _ w holds => weaken holds) fun _ w holds => weaken holds
    rintro (mic | none)
    · rw [mic, Bool.or_true]
    · rw [decide_eq_true none, Bool.true_or]

theorem maintains_wpaWnmsleepInstallKey (subelem : WnmSleepSubelem) (buf : List UInt8) :
    (wpaWnmsleepInstallKey env subelem buf).Maintains (Disciplined a c) := by
  unfold wpaWnmsleepInstallKey
  refine maintains_getSm.bind fun sm => ?_
  rcases subelem with _ | _ | _
  · refine (maintains_require _).bind fun _ => (maintains_require _).bind fun _ => ?_
    exact maintains_wpaSupplicantInstallGtk env _ _ _ (.inl rfl)
  · exact maintains_wpaSupplicantInstallIgtk env _ _ (.inl rfl)
  · exact Maintains.when (maintains_wpaSupplicantInstallBigtk env _ _ (.inl rfl))

end

/-! ## Runs -/

/-- The state machine has no keys behind `wpa_sm_clear_ptk`. -/
theorem Tracks.clear {s : KeyState} {sm : WpaSm} (tracks : Tracks s sm) :
    Tracks s.clear (wpaSmClearPtk sm) := by
  refine ⟨rfl, rfl, tracks.counter, ?_, rfl, fun _ => rfl⟩
  funext kind b
  rcases kind with _ | _ | _ <;> rcases b with _ | _ <;> rfl

/-- One event. -/
theorem stepEvent_disciplined (event : Event) (disciplined : Disciplined false false w) :
    Disciplined false false (stepEvent w event).1 := by
  rcases event with ⟨env, buf, encryption⟩ | bssid | _ | ⟨env, subelem, buf⟩ | ⟨pmk, curPmksa⟩ |
    ⟨conf, useExtKeyId⟩ | state
  · exact (maintains_wpaSmRxEapol env buf encryption).state disciplined
  · refine disciplined.step fun s tracks known authentic left =>
      ⟨{ s.clear with counter := none }, rfl, ?_, known, authentic, left⟩
    exact { tracks.clear with counter := rfl }
  · refine disciplined.step fun s tracks known authentic left =>
      ⟨s.clear, rfl, ?_, known, authentic, left⟩
    exact tracks.clear.withGroup rfl tracks.clear.group.symm
  · exact (maintains_wpaWnmsleepInstallKey env subelem buf).state disciplined
  · rcases disciplined with ⟨s, replayed, tracks, rest⟩
    exact ⟨s, replayed, tracks.withGroup rfl tracks.group.symm, rest⟩
  · rcases disciplined with ⟨s, replayed, tracks, rest⟩
    exact ⟨s, replayed, tracks.withGroup rfl tracks.group.symm, rest⟩
  · exact disciplined.setState nofun

theorem disciplined_init (conf : Config) : Disciplined false false (World.init conf) := by
  refine ⟨.init, rfl, ⟨rfl, rfl, rfl, ?_, rfl, fun _ => rfl⟩, nofun, nofun, nofun⟩
  funext kind b
  rcases kind with _ | _ | _ <;> rcases b with _ | _ <;> rfl

/-- Every run is disciplined. -/
theorem runEvents_disciplined (conf : Config) (events : List Event) :
    Disciplined false false (runEvents conf events) :=
  supplicant.exec_invariant (disciplined_init conf)
    (fun _ event disciplined => stepEvent_disciplined event disciplined) events

/-- The monitor accepts every run. -/
theorem runEvents_accepted (conf : Config) (events : List Event) :
    keyMonitor.Accepts .init (runEvents conf events).log := by
  rcases runEvents_disciplined conf events with ⟨s, replayed, -⟩
  exact ⟨s, replayed⟩

end HalowBridge.Wpa
