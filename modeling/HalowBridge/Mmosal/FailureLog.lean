import HalowBridge.Lib.Machine
import HalowBridge.Lib.Ring

/-!
# The preserved failure log

Failures are logged into a ring of four records in memory that a reset does not clear, beside the
number of failures and the number of those that were displayed. At the next boot the records that
were not displayed yet are dumped, as far as the ring still has them, each with its number.

`FailureHistory` says what a dump should show: the last four of the records since the dump before,
with their numbers since the first one. `trace_preserved_iff` compares the two along any run. The
records are always the right ones while the counters do not go all the way round. The numbers are
right where the ring has not gone round since the last dump. Where it has, they are counted from the
index of the first slot that is shown, and that is the number of its failure only for the failures 0
to 3.
-/

namespace HalowBridge.Mmosal

/-- `MAX_FAILURE_RECORDS` -/
abbrev maxFailureRecords : ℕ := 4

/-- `struct mmosal_failure_info` -/
structure FailureInfo where
  pc : UInt32
  lr : UInt32
  fileid : UInt32
  line : UInt32
  platformInfo : Vector UInt32 4
  deriving DecidableEq

/-- `FAST_MOD` -/
def fastMod (x m : UInt32) : UInt32 := x &&& (m - 1)

theorem toNat_fastMod (x : UInt32) : (fastMod x 4).toNat = x.toNat % maxFailureRecords :=
  Nat.and_two_pow_sub_one_eq_mod x.toNat 2

/-- `struct mmosal_preserved_failure_info` -/
structure PreservedFailureInfo where
  magic : UInt32
  failureCount : UInt32
  displayedFailureCount : UInt32
  info : Table FailureInfo maxFailureRecords

def assertInfoMagic : UInt32 := 0xabcd1234

/-- What is printed about a failure: its number and the record. -/
structure Line where
  number : UInt32
  info : FailureInfo
  deriving DecidableEq

namespace PreservedFailureInfo

/-- `mmosal_log_failure_info` -/
def logFailureInfo (s : PreservedFailureInfo) (info : FailureInfo) : PreservedFailureInfo :=
  let s :=
    if s.magic ≠ assertInfoMagic then { s with failureCount := 0, displayedFailureCount := 0 }
    else s
  let recordNum := fastMod s.failureCount 4
  { s with
    magic := assertInfoMagic
    failureCount := s.failureCount + 1
    info := s.info.set recordNum.toNat info }

/-- The record in the slot of a number. -/
def record (s : PreservedFailureInfo) (number : UInt32) : FailureInfo :=
  s.info.get ⟨(fastMod number 4).toNat, by
    rw [toNat_fastMod]
    exact Nat.mod_lt _ (Nat.succ_pos 3)⟩

/-- The loop of `mmosal_dump_failure_info`. -/
def dumpLoop (s : PreservedFailureInfo) (firstFailureNum newFailureCount : UInt32) : List Line :=
  (List.range newFailureCount.toNat).map fun failureOffset =>
    ⟨firstFailureNum + UInt32.ofNat failureOffset,
      s.record (firstFailureNum + UInt32.ofNat failureOffset)⟩

/-- `mmosal_dump_failure_info` -/
def dumpFailureInfo (s : PreservedFailureInfo) : PreservedFailureInfo × List Line :=
  let newFailureCount := s.failureCount - s.displayedFailureCount
  let lines :=
    if newFailureCount ≥ 4 then s.dumpLoop (fastMod s.failureCount 4) 4
    else s.dumpLoop s.displayedFailureCount newFailureCount
  ({ s with displayedFailureCount := s.failureCount }, lines)

/-- The dump at boot, which asks for the magic number first. -/
def systemInit (s : PreservedFailureInfo) : PreservedFailureInfo × List Line :=
  if s.magic = assertInfoMagic then s.dumpFailureInfo else (s, [])

end PreservedFailureInfo

inductive Event where
  | log (info : FailureInfo)
  | dump

/-- The preserved memory. -/
def preserved : Machine PreservedFailureInfo Event (List Line) where
  step s
    | .log info => (s.logFailureInfo info, [])
    | .dump => s.systemInit

/-- All records that were ever logged, and how many of them at the last dump. -/
structure FailureHistory where
  records : List FailureInfo
  dumped : ℕ

namespace FailureHistory

/-- How many records a dump should show. -/
def shown (h : FailureHistory) : ℕ := min (h.records.length - h.dumped) maxFailureRecords

/-- What a dump should show: the last records with their numbers. -/
def lines (h : FailureHistory) : List Line :=
  ((h.records.drop (h.records.length - h.shown)).zipIdx (h.records.length - h.shown)).map
    fun (info, number) => ⟨UInt32.ofNat number, info⟩

/-- A dump has fewer records to show than the ring has slots, or it has four and the last of them is
one of the first seven. The counters have 32 bits. -/
def Readable (h : FailureHistory) : Prop :=
  h.records.length - h.dumped < 4 ∨
    4 ≤ (h.records.length - h.dumped) % 4294967296 ∧
      4 ≤ h.records.length % 4294967296 ∧ h.records.length % 4294967296 < 8

end FailureHistory

/-- What the memory is to preserve. -/
def history : Machine FailureHistory Event (List Line) where
  step h
    | .log info => ({ h with records := h.records ++ [info] }, [])
    | .dump => ({ h with dumped := h.records.length }, h.lines)

/-- Dumps are readable. -/
def ReadableDump (h : FailureHistory) : Event → Prop
  | .log _ => True
  | .dump => h.Readable

instance (h : FailureHistory) : Decidable h.Readable := inferInstanceAs (Decidable (_ ∨ _))

instance (h : FailureHistory) : (event : Event) → Decidable (ReadableDump h event)
  | .log _ => isTrue trivial
  | .dump => inferInstanceAs (Decidable h.Readable)

/-- The memory belongs to the history: nothing was logged yet, or the counters are those of the
history and the ring has its last records. -/
structure Preserves (s : PreservedFailureInfo) (h : FailureHistory) : Prop where
  dumped_le : h.dumped ≤ h.records.length
  unused : s.magic ≠ assertInfoMagic → h.records = []
  counters : s.magic = assertInfoMagic →
    s.failureCount = UInt32.ofNat h.records.length ∧
      s.displayedFailureCount = UInt32.ofNat h.dumped ∧ s.info.Keeps h.records

variable {s : PreservedFailureInfo} {h : FailureHistory}

theorem preserves_start (unused : s.magic ≠ assertInfoMagic) : Preserves s ⟨[], 0⟩ where
  dumped_le := Nat.le_refl 0
  unused _ := rfl
  counters magic := (unused magic).elim

/-- The slot of a number of 32 bits is that of the number. -/
theorem fastMod_ofNat (number : ℕ) :
    (fastMod (UInt32.ofNat number) 4).toNat = number % maxFailureRecords := by
  rw [toNat_fastMod, UInt32.toNat_ofNat']
  exact Nat.mod_mod_of_dvd number (by decide)

theorem preserves_log (preserves : Preserves s h) (info : FailureInfo) :
    Preserves (s.logFailureInfo info) { h with records := h.records ++ [info] } := by
  have next (number : ℕ) : UInt32.ofNat number + 1 = UInt32.ofNat (number + 1) :=
    (UInt32.ofNat_add number 1).symm
  refine ⟨?_, fun other => (other rfl).elim, fun _ => ?_⟩
  · rw [List.length_append]
    exact Nat.le_add_right_of_le preserves.dumped_le
  · rw [List.length_append, List.length_singleton]
    by_cases magic : s.magic = assertInfoMagic
    · obtain ⟨count, displayed, keeps⟩ := preserves.counters magic
      rw [PreservedFailureInfo.logFailureInfo, if_neg (not_not.mpr magic)]
      dsimp only
      rw [count, fastMod_ofNat]
      exact ⟨next _, displayed, keeps.push (Nat.succ_pos 3) info⟩
    · have empty := preserves.unused magic
      have dumped := preserves.dumped_le
      rw [empty, List.length_nil, Nat.le_zero] at dumped
      have first : (fastMod 0 4).toNat = 0 := by decide
      have pushed := (Table.keeps_nil s.info).push (Nat.succ_pos 3) info
      rw [PreservedFailureInfo.logFailureInfo, if_pos magic, empty, dumped]
      dsimp only
      rw [first]
      exact ⟨rfl, rfl, pushed⟩

theorem preserves_dump (preserves : Preserves s h) :
    Preserves s.systemInit.1 { h with dumped := h.records.length } := by
  rw [PreservedFailureInfo.systemInit]
  split
  · next magic =>
      obtain ⟨count, -, keeps⟩ := preserves.counters magic
      exact ⟨Nat.le_refl _, fun other => (other magic).elim, fun _ => ⟨count, count, keeps⟩⟩
  · next other =>
      exact ⟨Nat.le_refl _, fun _ => preserves.unused other, fun magic => (other magic).elim⟩

/-! ## The lines of a dump -/

/-- The loop prints the end of the log, with numbers that begin where it is told to. -/
theorem dumpLoop_eq {records : List FailureInfo} (keeps : s.info.Keeps records) {k : ℕ}
    {first count : UInt32} (whole : k + count.toNat = records.length)
    (few : count.toNat ≤ maxFailureRecords)
    (slot : first.toNat % maxFailureRecords = k % maxFailureRecords) :
    s.dumpLoop first count = (records.drop k).zipIdx.map
      fun (info, offset) => ⟨first + UInt32.ofNat offset, info⟩ := by
  apply List.ext_getElem?
  intro i
  rw [PreservedFailureInfo.dumpLoop, List.getElem?_map, List.getElem?_map, List.getElem?_zipIdx,
    List.getElem?_drop]
  by_cases inside : i < count.toNat
  · have number : (fastMod (first + UInt32.ofNat i) 4).toNat = (k + i) % maxFailureRecords := by
      rw [toNat_fastMod, UInt32.toNat_add, UInt32.toNat_ofNat']
      simp only [maxFailureRecords] at slot ⊢
      omega
    have record : records[k + i]? = some (s.record (first + UInt32.ofNat i)) := by
      have recent : records.length ≤ k + i + maxFailureRecords := by omega
      rw [← keeps (k + i) recent (by omega), ← number]
      exact s.info.getElem?_slots ⟨_, _⟩
    rw [List.getElem?_range inside, record, Nat.zero_add]
    rfl
  · rw [List.getElem?_eq_none (by rw [List.length_range]; omega),
      List.getElem?_eq_none (by omega)]
    rfl

/-- Numbers that begin at `first` are those that begin at `k`, if there are any. -/
theorem lines_eq_iff {infos : List FailureInfo} {first : UInt32} {k : ℕ} :
    infos.zipIdx.map (fun (info, offset) => Line.mk (first + UInt32.ofNat offset) info) =
        (infos.zipIdx k).map (fun (info, number) => ⟨UInt32.ofNat number, info⟩) ↔
      infos = [] ∨ first = UInt32.ofNat k := by
  cases infos with
  | nil => exact iff_of_true rfl (.inl rfl)
  | cons info infos =>
      rw [or_iff_right (List.cons_ne_nil _ _)]
      constructor
      · intro same
        rw [List.zipIdx_cons, List.zipIdx_cons, List.map_cons, List.map_cons, List.cons.injEq,
          Line.mk.injEq] at same
        exact (UInt32.add_zero first).symm.trans same.1.1
      · rintro rfl
        apply List.ext_getElem?
        intro i
        rw [List.getElem?_map, List.getElem?_map, List.getElem?_zipIdx, List.getElem?_zipIdx,
          Option.map_map, Option.map_map]
        congr 1
        funext info
        simp only [Function.comp_apply, Nat.zero_add, UInt32.ofNat_add]

/-- The difference of the counters. -/
theorem toNat_newFailureCount (preserves : Preserves s h) (magic : s.magic = assertInfoMagic) :
    (s.failureCount - s.displayedFailureCount).toNat =
      (h.records.length - h.dumped) % 4294967296 := by
  have dumped := preserves.dumped_le
  obtain ⟨count, displayed, -⟩ := preserves.counters magic
  rw [count, displayed, UInt32.toNat_sub, UInt32.toNat_ofNat', UInt32.toNat_ofNat']
  omega

/-- A dump of four records shows the right ones, with the right numbers while they are below 8. -/
theorem lines_many_iff (preserves : Preserves s h) (magic : s.magic = assertInfoMagic)
    (many : 4 ≤ (h.records.length - h.dumped) % 4294967296) :
    s.dumpLoop (fastMod s.failureCount 4) 4 = h.lines ↔ h.Readable := by
  obtain ⟨count, -, keeps⟩ := preserves.counters magic
  have shown : h.shown = min (h.records.length - h.dumped) 4 := rfl
  rw [Nat.min_eq_right (by omega)] at shown
  have nonempty : h.records.drop (h.records.length - 4) ≠ [] := by
    rw [Ne, List.drop_eq_nil_iff]
    omega
  have slot : (fastMod s.failureCount 4).toNat % maxFailureRecords =
      (h.records.length - 4) % maxFailureRecords := by
    rw [count, fastMod_ofNat]
    simp only [maxFailureRecords]
    omega
  have printed : s.dumpLoop (fastMod s.failureCount 4) 4 = _ :=
    dumpLoop_eq keeps (k := h.records.length - 4) (Nat.sub_add_cancel (by omega))
      (Nat.le_refl 4) slot
  rw [printed, FailureHistory.lines, shown, lines_eq_iff, or_iff_right nonempty,
    ← UInt32.toNat_inj, count, fastMod_ofNat, UInt32.toNat_ofNat', FailureHistory.Readable]
  simp only [maxFailureRecords]
  omega

/-- A dump of fewer records is right. -/
theorem lines_few (preserves : Preserves s h) (magic : s.magic = assertInfoMagic)
    (few : h.records.length - h.dumped < 4) :
    s.dumpLoop s.displayedFailureCount (s.failureCount - s.displayedFailureCount) = h.lines := by
  have dumped := preserves.dumped_le
  obtain ⟨-, displayed, keeps⟩ := preserves.counters magic
  have fresh := toNat_newFailureCount preserves magic
  have shown : h.shown = min (h.records.length - h.dumped) 4 := rfl
  have start : h.records.length - (h.records.length - h.dumped) = h.dumped := by omega
  rw [Nat.min_eq_left few.le] at shown
  rw [FailureHistory.lines, shown, start, dumpLoop_eq keeps (k := h.dumped), lines_eq_iff]
  · exact .inr displayed
  · rw [fresh]
    omega
  · show _ ≤ 4
    omega
  · rw [displayed, UInt32.toNat_ofNat']
    exact Nat.mod_mod_of_dvd _ (by decide)

/-- Where the counters have gone all the way round, a dump of fewer records shows too few. -/
theorem lines_wrapped (preserves : Preserves s h) (magic : s.magic = assertInfoMagic)
    (wrapped : (h.records.length - h.dumped) % 4294967296 < 4)
    (many : 4 ≤ h.records.length - h.dumped) :
    s.dumpLoop s.displayedFailureCount (s.failureCount - s.displayedFailureCount) ≠ h.lines := by
  intro same
  have shown : h.shown = min (h.records.length - h.dumped) 4 := rfl
  have length := congrArg List.length same
  rw [Nat.min_eq_right many] at shown
  rw [PreservedFailureInfo.dumpLoop, FailureHistory.lines, shown, List.length_map,
    List.length_range, List.length_map, List.length_zipIdx, List.length_drop,
    toNat_newFailureCount preserves magic] at length
  omega

/-- **When a dump shows what it should.** -/
theorem lines_systemInit_iff (preserves : Preserves s h) :
    s.systemInit.2 = h.lines ↔ h.Readable := by
  by_cases magic : s.magic = assertInfoMagic
  · have many_iff : s.failureCount - s.displayedFailureCount ≥ 4 ↔
        4 ≤ (h.records.length - h.dumped) % 4294967296 := by
      rw [ge_iff_le, UInt32.le_iff_toNat_le, toNat_newFailureCount preserves magic]
      rfl
    rw [PreservedFailureInfo.systemInit, if_pos magic, PreservedFailureInfo.dumpFailureInfo]
    dsimp only
    by_cases many : 4 ≤ (h.records.length - h.dumped) % 4294967296
    · rw [if_pos (many_iff.mpr many)]
      exact lines_many_iff preserves magic many
    · rw [if_neg (mt many_iff.mp many)]
      by_cases few : h.records.length - h.dumped < 4
      · exact iff_of_true (lines_few preserves magic few) (.inl few)
      · refine iff_of_false ?_ (not_or.mpr ⟨few, fun readable => many readable.1⟩)
        exact lines_wrapped preserves magic (Nat.not_le.mp many) (Nat.not_lt.mp few)
  · have empty := preserves.unused magic
    have dumped := preserves.dumped_le
    rw [empty, List.length_nil, Nat.le_zero] at dumped
    rw [PreservedFailureInfo.systemInit, if_neg magic, FailureHistory.lines,
      FailureHistory.Readable, FailureHistory.shown, empty, dumped]
    exact iff_of_true rfl (.inl (Nat.succ_pos 3))

/-- **What the preserved log shows**: in any run from memory without the magic number, every dump
shows what it should if and only if every dump is readable. -/
theorem trace_preserved_iff (unused : s.magic ≠ assertInfoMagic) (events : List Event) :
    preserved.trace s events = history.trace ⟨[], 0⟩ events ↔
      history.Guarded (fun _ => ReadableDump) ⟨[], 0⟩ events := by
  refine preserved.trace_eq_iff_guarded history (R := Preserves) ?_ ?_ (preserves_start unused)
    events
  · intro s h event preserves
    cases event with
    | log info => exact preserves_log preserves info
    | dump => exact preserves_dump preserves
  · intro s h event preserves
    cases event with
    | log info => exact iff_of_true rfl trivial
    | dump => exact lines_systemInit_iff preserves

/-! ## Eight failures before a boot -/

/-- Memory after power on. -/
def noise : PreservedFailureInfo :=
  ⟨0, 77, 78, ⟨List.replicate 4 ⟨0, 0, 0, 0, #v[0, 0, 0, 0]⟩, rfl⟩⟩

/-- A failure in some line of a file. -/
def failureAt (line : UInt32) : FailureInfo := ⟨0x42001000, 0x42002000, 3, line, #v[0, 0, 0, 0]⟩

/-- Eight failures and a boot. -/
def eightFailures : List Event :=
  [.log (failureAt 1), .log (failureAt 2), .log (failureAt 3), .log (failureAt 4),
    .log (failureAt 5), .log (failureAt 6), .log (failureAt 7), .log (failureAt 8), .dump]

/-- Three failures and a boot, then one more and another boot. -/
def failuresAndBoots : List Event :=
  [.log (failureAt 1), .log (failureAt 2), .log (failureAt 3), .dump, .log (failureAt 4), .dump]

theorem trace_preserved_failuresAndBoots :
    preserved.trace noise failuresAndBoots = history.trace ⟨[], 0⟩ failuresAndBoots :=
  (trace_preserved_iff (s := noise) (by decide) failuresAndBoots).mpr (by decide)

theorem trace_preserved_ne : ¬ ∀ (s : PreservedFailureInfo) (events : List Event),
    s.magic ≠ assertInfoMagic →
      preserved.trace s events = history.trace ⟨[], 0⟩ events := by
  intro same
  have outputs := congrArg (List.map Prod.snd) (same noise eightFailures (by decide))
  exact absurd outputs (by decide)

end HalowBridge.Mmosal
