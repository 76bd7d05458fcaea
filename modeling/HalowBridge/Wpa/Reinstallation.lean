import HalowBridge.Wpa.Handshake

/-!
# What the keys of a run come from

Every run is accepted by the monitor of the keys, and what the monitor forbids is read off the log.
A PTK that the driver has is given to it again only behind a new adoption or a deletion, which this
port makes for a message 3/4 that arrives after the handshake; a PTK is adopted only behind a
derivation of its own; replay counters rise; a group key in use is not given again; and no frame
without a proof moves a key. `runEvents_setPtk_origin` follows the bytes of a PTK that is given to
the driver back to the derivation they come from.
-/

namespace HalowBridge.Wpa

open Monitor

/-! ## Kinds of actions -/

/-- The TPTK becomes the PTK. -/
def Adopts (action : Action) : Prop := ∃ counter, action = .verified counter true

/-- A frame has a proof. -/
def Proves (action : Action) : Prop := ∃ counter adopted, action = .verified counter adopted

/-- A derivation that is complete. -/
def Derives (action : Action) : Prop := ∃ tptk, action = .derive tptk true

def Withdraws (action : Action) : Prop := ∃ addr keyIdx ok, action = .deletePtk addr keyIdx ok

/-- The association ends, or a new one begins. -/
def Reassociates (action : Action) : Prop := action = .assoc ∨ action = .disassoc

/-- No PTK is adopted, and the association goes on. -/
def Quiet (action : Action) : Prop := ¬Adopts action ∧ ¬Reassociates action

/-- A group key that is given to the driver, for WNM-Sleep or not, and whether it is stored. -/
def groupKeyOf : Action → Option (GroupKey × Bool × List UInt8 × Bool)
  | .setGtk _ _ _ _ _ _ gtk wnmSleep ok => some (.gtk, wnmSleep, gtk, ok)
  | .setIgtk _ keyIdx _ key wnmSleep ok =>
      some (.igtk, wnmSleep, key, ok || keyIdx = 0x0400 || keyIdx = 0x0500)
  | .setBigtk _ _ _ key wnmSleep ok => some (.bigtk, wnmSleep, key, ok)
  | _ => none

/-- A key moves on the word of a frame. -/
def MovesKey (action : Action) : Prop :=
  Withdraws action ∨ (∃ alg addr keyIdx tk flag ok, action = .setPtk alg addr keyIdx tk flag ok) ∨
    ∃ kind key stored, groupKeyOf action = some (kind, false, key, stored)

/-! ## What a step does -/

namespace KeyState

variable {s t : KeyState} {action : Action}

theorem step_of_groupKeyOf {kind : GroupKey} {wnmSleep : Bool} {key : List UInt8} {stored : Bool}
    (given : groupKeyOf action = some (kind, wnmSleep, key, stored)) :
    s.step action = s.giveGroup kind wnmSleep key stored := by
  cases action with
  | setGtk | setIgtk | setBigtk =>
      rw [groupKeyOf, Option.some_inj, Prod.mk.injEq, Prod.mk.injEq, Prod.mk.injEq] at given
      rcases given with ⟨rfl, rfl, rfl, rfl⟩
      rfl
  | _ => cases given

theorem giveGroup_eq_some {kind : GroupKey} {wnmSleep : Bool} {key : List UInt8} {stored : Bool}
    (moved : s.giveGroup kind wnmSleep key stored = some t) :
    ((wnmSleep ∨ s.authentic) ∧ s.group kind false ≠ key ∧ s.group kind true ≠ key) ∧
      t = s.storeGroup kind wnmSleep key stored := by
  rw [giveGroup] at moved
  split at moved
  next allowed => exact ⟨allowed, (Option.some_inj.mp moved).symm⟩
  next => cases moved

theorem givePtk_eq_some {tk : List UInt8} {ok : Bool} (moved : s.givePtk tk ok = some t) :
    ∃ ptk, s.ptk = some ptk ∧ (s.authentic ∧ ¬ptk.installed ∧ tk = ptk.tk.take ptk.tkLen) ∧
      t = { s with ptk := some { ptk with installed := ok } } := by
  rw [givePtk] at moved
  split at moved
  next => cases moved
  next ptk there =>
    split at moved
    next allowed => exact ⟨ptk, there, allowed, (Option.some_inj.mp moved).symm⟩
    next => cases moved

theorem withdrawPtk_eq_some (moved : s.withdrawPtk = some t) :
    ∃ ptk, s.ptk = some ptk ∧ (s.authentic ∧ s.completed) ∧
      t = { s with ptk := some { ptk with installed := false }, completed := false } := by
  rw [withdrawPtk] at moved
  split at moved
  next => cases moved
  next ptk there =>
    split at moved
    next allowed => exact ⟨ptk, there, allowed, (Option.some_inj.mp moved).symm⟩
    next => cases moved

theorem prove_eq_some {counter : List UInt8} {adopted : Bool}
    (moved : s.prove counter adopted = some t) :
    (∀ last ∈ s.counter, last < counter) ∧
      ((adopted = true ∧ ∃ ptk, s.offered = some ptk ∧ t = { s with
        offered := none, ptk := some ptk, counter := some counter, authentic := true }) ∨
      (adopted = false ∧ t = { s with counter := some counter, authentic := true })) := by
  rw [prove] at moved
  split at moved
  next newer =>
    refine ⟨newer, ?_⟩
    split at moved
    next yes =>
      rcases Option.map_eq_some_iff.mp moved with ⟨ptk, there, rfl⟩
      exact .inl ⟨yes, ptk, there, rfl⟩
    next no =>
      rcases Option.map_eq_some_iff.mp moved with ⟨ptk, there, rfl⟩
      exact .inr ⟨Bool.eq_false_iff.mpr no, rfl⟩
  next => cases moved

/-- Where the PTK comes from. -/
theorem step_ptk (moved : s.step action = some t) :
    (Quiet action ∧ t.ptk = s.ptk) ∨ (Adopts action ∧ t.ptk = s.offered) ∨
      (Reassociates action ∧ t.ptk = none) ∨
      ∃ ptk, s.ptk = some ptk ∧
        ((∃ alg addr keyIdx tk flag ok, action = .setPtk alg addr keyIdx tk flag ok ∧
          t.ptk = some { ptk with installed := ok }) ∨
        (Withdraws action ∧ t.ptk = some { ptk with installed := false })) := by
  cases action with
  | verified counter adopted =>
      rcases prove_eq_some moved with ⟨-, ⟨rfl, ptk, there, rfl⟩ | ⟨rfl, rfl⟩⟩
      · exact .inr (.inl ⟨⟨counter, rfl⟩, there.symm⟩)
      · exact .inl ⟨by simp [Quiet, Adopts, Reassociates], rfl⟩
  | setPtk alg addr keyIdx tk flag ok =>
      rcases givePtk_eq_some moved with ⟨ptk, there, -, rfl⟩
      exact .inr (.inr (.inr ⟨ptk, there, .inl ⟨_, _, _, _, _, _, rfl, rfl⟩⟩))
  | deletePtk addr keyIdx ok =>
      rcases withdrawPtk_eq_some moved with ⟨ptk, there, -, rfl⟩
      exact .inr (.inr (.inr ⟨ptk, there, .inr ⟨⟨_, _, _, rfl⟩, rfl⟩⟩))
  | setGtk | setIgtk | setBigtk =>
      rcases giveGroup_eq_some moved with ⟨-, rfl⟩
      exact .inl ⟨by simp [Quiet, Adopts, Reassociates], rfl⟩
  | assoc =>
      rw [← Option.some_inj.mp moved]
      exact .inr (.inr (.inl ⟨.inl rfl, rfl⟩))
  | disassoc =>
      rw [← Option.some_inj.mp moved]
      exact .inr (.inr (.inl ⟨.inr rfl, rfl⟩))
  | _ =>
      rw [← Option.some_inj.mp moved]
      exact .inl ⟨by simp [Quiet, Adopts, Reassociates], rfl⟩

/-- A PTK on offer comes from a derivation. -/
theorem step_offered (moved : s.step action = some t) :
    (Quiet action ∧ (∀ tptk ok, action ≠ .derive tptk ok) ∧ t.offered = s.offered) ∨
      t.offered = none ∨
      ∃ tptk ok, action = .derive tptk ok ∧
        t.offered = if ok then some tptk else s.offered.map fun _ => tptk := by
  cases action with
  | derive tptk ok =>
      rw [← Option.some_inj.mp moved]
      exact .inr (.inr ⟨tptk, ok, rfl, rfl⟩)
  | verified counter adopted =>
      rcases prove_eq_some moved with ⟨-, ⟨rfl, ptk, there, rfl⟩ | ⟨rfl, rfl⟩⟩
      · exact .inr (.inl rfl)
      · exact .inl ⟨by simp [Quiet, Adopts, Reassociates], nofun, rfl⟩
  | setPtk =>
      rcases givePtk_eq_some moved with ⟨ptk, there, -, rfl⟩
      exact .inl ⟨by simp [Quiet, Adopts, Reassociates], nofun, rfl⟩
  | deletePtk =>
      rcases withdrawPtk_eq_some moved with ⟨ptk, there, -, rfl⟩
      exact .inl ⟨by simp [Quiet, Adopts, Reassociates], nofun, rfl⟩
  | setGtk | setIgtk | setBigtk =>
      rcases giveGroup_eq_some moved with ⟨-, rfl⟩
      exact .inl ⟨by simp [Quiet, Adopts, Reassociates], nofun, rfl⟩
  | assoc | disassoc =>
      rw [← Option.some_inj.mp moved]
      exact .inr (.inl rfl)
  | _ =>
      rw [← Option.some_inj.mp moved]
      exact .inl ⟨by simp [Quiet, Adopts, Reassociates], nofun, rfl⟩

/-- What is known about the frame at hand and about the handshake. -/
theorem step_flags (moved : s.step action = some t) :
    (t.authentic = s.authentic ∨ Proves action ∨
      ∃ micLen, action = .received micLen ∧ t.authentic = decide (micLen = 0)) ∧
    (t.completed = s.completed ∨ action = .setState .completed ∨
      t.completed = false ∧ Withdraws action) := by
  cases action with
  | received micLen =>
      rw [← Option.some_inj.mp moved]
      exact ⟨.inr (.inr ⟨micLen, rfl, rfl⟩), .inl rfl⟩
  | setState state =>
      rw [← Option.some_inj.mp moved]
      refine ⟨.inl rfl, ?_⟩
      by_cases now : state = .completed
      · exact .inr (.inl (congrArg _ now))
      · refine .inl ?_
        show (s.completed || decide (state = .completed)) = s.completed
        rw [decide_eq_false now, Bool.or_false]
  | verified counter adopted =>
      rcases prove_eq_some moved with ⟨-, ⟨-, ptk, there, rfl⟩ | ⟨-, rfl⟩⟩
      · exact ⟨.inr (.inl ⟨counter, adopted, rfl⟩), .inl rfl⟩
      · exact ⟨.inr (.inl ⟨counter, adopted, rfl⟩), .inl rfl⟩
  | setPtk =>
      rcases givePtk_eq_some moved with ⟨ptk, there, -, rfl⟩
      exact ⟨.inl rfl, .inl rfl⟩
  | deletePtk addr keyIdx ok =>
      rcases withdrawPtk_eq_some moved with ⟨ptk, there, -, rfl⟩
      exact ⟨.inl rfl, .inr (.inr ⟨rfl, addr, keyIdx, ok, rfl⟩)⟩
  | setGtk | setIgtk | setBigtk =>
      rcases giveGroup_eq_some moved with ⟨-, rfl⟩
      exact ⟨.inl rfl, .inl rfl⟩
  | _ =>
      rw [← Option.some_inj.mp moved]
      exact ⟨.inl rfl, .inl rfl⟩

/-- The replay counter rises, unless an association begins. -/
theorem step_counter (moved : s.step action = some t) :
    t.counter = s.counter ∨ action = .assoc ∨
      ∃ counter adopted, action = .verified counter adopted ∧ t.counter = some counter ∧
        ∀ last ∈ s.counter, last < counter := by
  cases action with
  | assoc => exact .inr (.inl rfl)
  | verified counter adopted =>
      rcases prove_eq_some moved with ⟨newer, ⟨-, ptk, there, rfl⟩ | ⟨-, rfl⟩⟩
      · exact .inr (.inr ⟨counter, adopted, rfl, rfl, newer⟩)
      · exact .inr (.inr ⟨counter, adopted, rfl, rfl, newer⟩)
  | setPtk =>
      rcases givePtk_eq_some moved with ⟨ptk, there, -, rfl⟩
      exact .inl rfl
  | deletePtk =>
      rcases withdrawPtk_eq_some moved with ⟨ptk, there, -, rfl⟩
      exact .inl rfl
  | setGtk | setIgtk | setBigtk =>
      rcases giveGroup_eq_some moved with ⟨-, rfl⟩
      exact .inl rfl
  | _ =>
      rw [← Option.some_inj.mp moved]
      exact .inl rfl

/-- A group key is stored, or the keys are cleared. -/
theorem step_group (moved : s.step action = some t) :
    t.group = s.group ∨ Reassociates action ∨
      ∃ kind wnmSleep key, groupKeyOf action = some (kind, wnmSleep, key, true) ∧
        t.group = Function.update s.group kind (Function.update (s.group kind) wnmSleep key) := by
  rcases given : groupKeyOf action with _ | ⟨kind, wnmSleep, key, stored⟩
  · cases action with
    | verified counter adopted =>
        rcases prove_eq_some moved with ⟨-, ⟨-, ptk, there, rfl⟩ | ⟨-, rfl⟩⟩ <;> exact .inl rfl
    | setPtk =>
        rcases givePtk_eq_some moved with ⟨ptk, there, -, rfl⟩
        exact .inl rfl
    | deletePtk =>
        rcases withdrawPtk_eq_some moved with ⟨ptk, there, -, rfl⟩
        exact .inl rfl
    | setGtk | setIgtk | setBigtk => cases given
    | assoc => exact .inr (.inl (.inl rfl))
    | disassoc => exact .inr (.inl (.inr rfl))
    | _ =>
        rw [← Option.some_inj.mp moved]
        exact .inl rfl
  · rw [step_of_groupKeyOf given] at moved
    rcases giveGroup_eq_some moved with ⟨-, rfl⟩
    rcases stored with _ | _
    · exact .inl rfl
    · exact .inr (.inr ⟨kind, wnmSleep, key, rfl, rfl⟩)

end KeyState

/-! ## Runs -/

/-- The PTK on offer is that of the last derivation, which was made since the last adoption and in
this association. -/
def Derived (tptk : WpaPtk) : List Action → Prop :=
  Since (fun _ a => ∃ ok, a = .derive tptk ok) fun a => Quiet a ∧ ∀ tptk ok, a ≠ .derive tptk ok

/-- The PTK in use is the one that was on offer at the last adoption. -/
def AdoptedFrom (tptk : WpaPtk) : List Action → Prop :=
  Since (fun before a => Adopts a ∧ Derived tptk before) Quiet

section

variable (conf : Config) (events : List Event)

/-- A PTK that the driver has is not given to it again, unless another has been adopted or the PTK
has been deleted. -/
theorem runEvents_setPtk_separated :
    Separated (fun a b => (∃ alg addr keyIdx tk flag, a = .setPtk alg addr keyIdx tk flag true) ∧
        ∃ alg addr keyIdx tk flag ok, b = .setPtk alg addr keyIdx tk flag ok)
      (fun _ c => Adopts c ∨ Withdraws c) (runEvents conf events).log := by
  refine (runEvents_accepted conf events).separated
    (P := fun _ _ s => ∀ ptk ∈ s.ptk, ptk.installed = true) ?_ ?_ ?_
  · rintro a b s t ⟨⟨alg, addr, keyIdx, tk, flag, rfl⟩, -⟩ moved
    rcases KeyState.givePtk_eq_some moved with ⟨ptk, there, -, rfl⟩
    rintro _ ⟨⟩
    rfl
  · intro a b s c t installed other moved
    rw [not_or] at other
    rcases KeyState.step_ptk moved with ⟨-, same⟩ | ⟨adopts, -⟩ | ⟨-, gone⟩ | ⟨ptk, there, given⟩
    · rw [same]
      exact installed
    · exact absurd adopts other.1
    · rw [gone]
      exact nofun
    · rcases given with ⟨alg, addr, keyIdx, tk, flag, ok, rfl, -⟩ | ⟨withdraws, -⟩
      · rcases KeyState.givePtk_eq_some moved with ⟨ptk', there', ⟨-, absent, -⟩, -⟩
        exact absurd (installed ptk' there') absent
      · exact absurd withdraws other.2
  · rintro a b s installed ⟨-, alg, addr, keyIdx, tk, flag, ok, rfl⟩
    rcases moved : s.givePtk tk ok with _ | t
    · exact moved
    · rcases KeyState.givePtk_eq_some moved with ⟨ptk, there, ⟨-, absent, -⟩, -⟩
      exact absurd (installed ptk there) absent

/-- The PTK is deleted only after the handshake has been completed, and again only after it has been
completed again. -/
theorem runEvents_deletePtk_separated :
    Separated (fun a b => Withdraws a ∧ Withdraws b) (fun _ c => c = .setState .completed)
        (runEvents conf events).log ∧
      Behind (fun before b => Withdraws b → ∃ c ∈ before, c = .setState .completed)
        (runEvents conf events).log := by
  have kept (s t : KeyState) (c : Action) (open' : s.completed = false)
      (other : ¬c = .setState .completed) (moved : s.step c = some t) : t.completed = false := by
    rcases (KeyState.step_flags moved).2 with same | done | ⟨left, -⟩
    · exact same.trans open'
    · exact absurd done other
    · exact left
  have blocked (s : KeyState) (b : Action) (open' : s.completed = false) (withdraws : Withdraws b) :
      s.step b = none := by
    rcases moved : s.step b with _ | t
    · rfl
    · rcases withdraws with ⟨addr, keyIdx, ok, rfl⟩
      rcases KeyState.withdrawPtk_eq_some moved with ⟨-, -, ⟨-, done⟩, -⟩
      rw [open'] at done
      cases done
  constructor
  · refine (runEvents_accepted conf events).separated (P := fun _ _ s => s.completed = false) ?_
      (fun a b s c t => kept s t c) fun a b s holds pair => blocked s b holds pair.2
    rintro a b s t ⟨⟨addr, keyIdx, ok, rfl⟩, -⟩ moved
    rcases KeyState.withdrawPtk_eq_some moved with ⟨-, -, -, rfl⟩
    rfl
  · exact (runEvents_accepted conf events).preceded (P := fun s => s.completed = false) rfl
      (fun s c t => kept s t c) blocked

/-- A PTK is adopted only behind a derivation of its own, in the same association. -/
theorem runEvents_adoption_separated :
    Separated (fun a b => (Adopts a ∨ Reassociates a) ∧ Adopts b) (fun _ c => Derives c)
        (runEvents conf events).log ∧
      Behind (fun before b => Adopts b → ∃ c ∈ before, Derives c) (runEvents conf events).log := by
  have kept (s t : KeyState) (c : Action) (nothing : s.offered = none) (other : ¬Derives c)
      (moved : s.step c = some t) : t.offered = none := by
    rcases KeyState.step_offered moved with ⟨-, -, same⟩ | gone | ⟨tptk, ok, rfl, offered⟩
    · exact same.trans nothing
    · exact gone
    · rcases ok with _ | _
      · rw [offered, nothing]
        rfl
      · exact absurd ⟨tptk, rfl⟩ other
  have blocked (s : KeyState) (b : Action) (nothing : s.offered = none) (adopts : Adopts b) :
      s.step b = none := by
    rcases moved : s.step b with _ | t
    · rfl
    · rcases adopts with ⟨counter, rfl⟩
      rcases KeyState.prove_eq_some moved with ⟨-, ⟨-, ptk, there, -⟩ | ⟨no, -⟩⟩
      · rw [nothing] at there
        cases there
      · cases no
  constructor
  · refine (runEvents_accepted conf events).separated (P := fun _ _ s => s.offered = none) ?_
      (fun a b s c t => kept s t c) fun a b s holds pair => blocked s b holds pair.2
    rintro a b s t ⟨⟨counter, rfl⟩ | rfl | rfl, -⟩ moved
    · rcases KeyState.prove_eq_some moved with ⟨-, ⟨-, ptk, there, rfl⟩ | ⟨no, -⟩⟩
      · rfl
      · cases no
    · rw [← Option.some_inj.mp moved]
      rfl
    · rw [← Option.some_inj.mp moved]
      rfl
  · exact (runEvents_accepted conf events).preceded (P := fun s => s.offered = none) rfl
      (fun s c t => kept s t c) blocked

/-- The replay counters of the frames with a proof rise, except where an association begins. -/
theorem runEvents_verified_separated :
    Separated (fun a b => ∃ counter adopted counter' adopted', a = .verified counter adopted ∧
        b = .verified counter' adopted' ∧ counter' ≤ counter)
      (fun _ c => c = .assoc) (runEvents conf events).log := by
  refine (runEvents_accepted conf events).separated (P := fun a _ s =>
    ∃ counter adopted last, a = .verified counter adopted ∧ s.counter = some last ∧
      counter ≤ last) ?_ ?_ ?_
  · rintro a b s t ⟨counter, adopted, -, -, rfl, -⟩ moved
    refine ⟨counter, adopted, counter, rfl, ?_, List.le_refl _⟩
    rcases KeyState.prove_eq_some moved with ⟨-, ⟨-, -, -, rfl⟩ | ⟨-, rfl⟩⟩ <;> rfl
  · rintro a b s c t ⟨counter, adopted, last, rfl, known, le⟩ other moved
    rcases KeyState.step_counter moved with same | assoc | ⟨next, adopted', -, now, newer⟩
    · exact ⟨counter, adopted, last, rfl, same.trans known, le⟩
    · exact absurd assoc other
    · have lt := newer last known
      exact ⟨counter, adopted, next, rfl, now, List.le_trans le (List.le_of_lt lt)⟩
  · rintro a b s ⟨counter, adopted, last, rfl, known, le⟩ ⟨_, _, counter', adopted', ⟨⟩, rfl, ge⟩
    rcases moved : s.step (.verified counter' adopted') with _ | t
    · exact moved
    · have lt := (KeyState.prove_eq_some moved).1 last known
      exact absurd lt (List.not_lt.mpr (List.le_trans ge le))

/-- A group key that is in use is not given to the driver again, unless the keys are cleared or
another key of its kind takes its place. -/
theorem runEvents_groupKey_separated :
    Separated (fun a b => ∃ kind wnmSleep wnmSleep' key stored,
        groupKeyOf a = some (kind, wnmSleep, key, true) ∧
          groupKeyOf b = some (kind, wnmSleep', key, stored))
      (fun a c => Reassociates c ∨ ∃ kind wnmSleep key key',
        groupKeyOf a = some (kind, wnmSleep, key, true) ∧
          groupKeyOf c = some (kind, wnmSleep, key', true))
      (runEvents conf events).log := by
  refine (runEvents_accepted conf events).separated (P := fun a _ s => ∃ kind wnmSleep key,
    groupKeyOf a = some (kind, wnmSleep, key, true) ∧ s.group kind wnmSleep = key) ?_ ?_ ?_
  · rintro a b s t ⟨kind, wnmSleep, -, key, -, given, -⟩ moved
    rw [show keyMonitor.step s a = _ from KeyState.step_of_groupKeyOf given] at moved
    rcases KeyState.giveGroup_eq_some moved with ⟨-, rfl⟩
    refine ⟨kind, wnmSleep, key, given, ?_⟩
    show Function.update s.group kind (Function.update (s.group kind) wnmSleep key) kind wnmSleep
      = _
    rw [Function.update_self, Function.update_self]
  · rintro a b s c t ⟨kind, wnmSleep, key, given, inUse⟩ other moved
    rw [not_or] at other
    refine ⟨kind, wnmSleep, key, given, ?_⟩
    rcases KeyState.step_group moved with same | cleared | ⟨kind', wnmSleep', key', stored, group⟩
    · rw [same, inUse]
    · exact absurd cleared other.1
    · rw [group]
      by_cases sameKind : kind = kind'
      · subst sameKind
        have different : wnmSleep ≠ wnmSleep' := fun same =>
          other.2 ⟨kind, wnmSleep, key, key', given, same ▸ stored⟩
        rw [Function.update_self, Function.update_of_ne different, inUse]
      · rw [Function.update_of_ne sameKind, inUse]
  · rintro a b s ⟨kind, wnmSleep, key, given, inUse⟩ ⟨_, _, wnmSleep', _, stored, given', again⟩
    rw [given, Option.some_inj, Prod.mk.injEq, Prod.mk.injEq, Prod.mk.injEq] at given'
    rcases given' with ⟨rfl, rfl, rfl, -⟩
    rw [show keyMonitor.step s b = _ from KeyState.step_of_groupKeyOf again]
    rcases moved : s.giveGroup kind wnmSleep' key stored with _ | t
    · rfl
    · rcases (KeyState.giveGroup_eq_some moved).1 with ⟨-, unused, unusedSleep⟩
      rcases wnmSleep with _ | _
      · exact absurd inUse unused
      · exact absurd inUse unusedSleep

/-- No key moves on the word of a frame without a proof, unless the AKM has none. -/
theorem runEvents_movesKey_separated :
    Separated (fun a b => (∃ micLen, a = .received micLen ∧ micLen ≠ 0) ∧ MovesKey b)
        (fun _ c => Proves c ∨ c = .received 0) (runEvents conf events).log ∧
      Behind (fun before b => MovesKey b → ∃ c ∈ before, Proves c ∨ c = .received 0)
        (runEvents conf events).log := by
  have kept (s t : KeyState) (c : Action) (unproved : s.authentic = false)
      (other : ¬(Proves c ∨ c = .received 0)) (moved : s.step c = some t) :
      t.authentic = false := by
    rw [not_or] at other
    rcases (KeyState.step_flags moved).1 with same | proves | ⟨micLen, rfl, now⟩
    · exact same.trans unproved
    · exact absurd proves other.1
    · rw [now]
      exact decide_eq_false fun none => other.2 (congrArg _ none)
  have blocked (s : KeyState) (b : Action) (unproved : s.authentic = false) (moves : MovesKey b) :
      s.step b = none := by
    rcases moved : s.step b with _ | t
    · rfl
    · have proved : s.authentic = true := by
        rcases moves with ⟨addr, keyIdx, ok, rfl⟩ | ⟨alg, addr, keyIdx, tk, flag, ok, rfl⟩ |
          ⟨kind, key, stored, given⟩
        · rcases KeyState.withdrawPtk_eq_some moved with ⟨-, -, ⟨proved, -⟩, -⟩
          exact proved
        · rcases KeyState.givePtk_eq_some moved with ⟨-, -, ⟨proved, -⟩, -⟩
          exact proved
        · rw [KeyState.step_of_groupKeyOf given] at moved
          exact (KeyState.giveGroup_eq_some moved).1.1.resolve_left Bool.false_ne_true
      rw [unproved] at proved
      cases proved
  constructor
  · refine (runEvents_accepted conf events).separated (P := fun _ _ s => s.authentic = false) ?_
      (fun a b s c t => kept s t c) fun a b s holds pair => blocked s b holds pair.2
    rintro a b s t ⟨⟨micLen, rfl, some⟩, -⟩ moved
    rw [← Option.some_inj.mp moved]
    exact decide_eq_false some
  · exact (runEvents_accepted conf events).preceded (P := fun s => s.authentic = false) rfl
      (fun s c t => kept s t c) blocked

/-- The TK of a PTK that is given to the driver is that of the last derivation before the last
adoption, and both were made in this association. -/
theorem runEvents_setPtk_origin :
    Behind (fun before a => ∀ alg addr keyIdx tk flag ok, a = .setPtk alg addr keyIdx tk flag ok →
      ∃ tptk, tk = tptk.tk.take tptk.tkLen ∧ AdoptedFrom tptk before)
      (runEvents conf events).log := by
  refine (runEvents_accepted conf events).behind (H := fun log s =>
    (∀ tptk ∈ s.offered, Derived tptk log) ∧
      ∀ ptk ∈ s.ptk, ∃ tptk, ptk.tk = tptk.tk ∧ ptk.tkLen = tptk.tkLen ∧ AdoptedFrom tptk log)
    ⟨fun _ there => absurd there (Option.not_mem_none _),
      fun _ there => absurd there (Option.not_mem_none _)⟩ ?_ ?_
  · rintro log s a t ⟨offered, inUse⟩ moved
    constructor
    · rcases KeyState.step_offered moved with ⟨quiet, other, same⟩ | gone | ⟨tptk, ok, rfl, now⟩
      · rw [same]
        exact fun tptk there => (offered tptk there).concat ⟨quiet, other⟩
      · rw [gone]
        exact fun _ there => nomatch there
      · intro tptk' there
        have same : tptk' = tptk := by
          rw [now] at there
          rcases ok with _ | _
          · rcases Option.map_eq_some_iff.mp there with ⟨-, -, same⟩
            exact same.symm
          · exact (Option.some_inj.mp there).symm
        rw [same]
        exact since_concat ⟨ok, rfl⟩
    · rcases KeyState.step_ptk moved with ⟨quiet, same⟩ | ⟨adopts, now⟩ | ⟨-, gone⟩ |
        ⟨ptk, there, given⟩
      · rw [same]
        intro ptk there
        rcases inUse ptk there with ⟨tptk, tk_eq, tkLen_eq, adopted⟩
        exact ⟨tptk, tk_eq, tkLen_eq, adopted.concat quiet⟩
      · rw [now]
        exact fun ptk there => ⟨ptk, rfl, rfl, since_concat ⟨adopts, offered ptk there⟩⟩
      · rw [gone]
        exact fun _ there => nomatch there
      · rcases inUse ptk there with ⟨tptk, tk_eq, tkLen_eq, adopted⟩
        rcases given with ⟨alg, addr, keyIdx, tk, flag, ok, rfl, now⟩ |
          ⟨⟨addr, keyIdx, ok, rfl⟩, now⟩
        all_goals
          rw [now]
          rintro _ ⟨⟩
          exact ⟨tptk, tk_eq, tkLen_eq,
            adopted.concat (by simp [Quiet, Adopts, Reassociates])⟩
  · rintro log s a t ⟨-, inUse⟩ moved alg addr keyIdx tk flag ok rfl
    rcases KeyState.givePtk_eq_some moved with ⟨ptk, there, ⟨-, -, same⟩, -⟩
    rcases inUse ptk there with ⟨tptk, tk_eq, tkLen_eq, adopted⟩
    exact ⟨tptk, by rw [same, tk_eq, tkLen_eq], adopted⟩

end

end HalowBridge.Wpa
