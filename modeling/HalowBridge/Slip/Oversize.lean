import HalowBridge.Slip.Resync

/-!
# Frames that do not fit

When a byte finds the buffer full, `slip_rx` returns `SLIP_RX_BUFFER_LIMIT` and takes it that no
frame has started, so that the rest of the frame is dropped. What it does not do is forget the bytes
in the buffer, and the END of the frame asks only how many there are: the beginning of the oversize
frame is delivered.

`oversizeDropped_iff` says which streams are spared: behind every refused byte, the last escape
sequence of the frame is a broken one, or the buffer has no room at all.
-/

namespace HalowBridge.Slip

variable {n : ℕ}

/-- Once a byte of a frame was refused, the END of the frame does not complete it. -/
def OversizeDropped (s : SlipRxState n) (stream : List UInt8) : Prop :=
  ∀ before c rest, before ++ c :: (rest ++ [slipFrameEnd]) <+: stream → slipFrameEnd ∉ rest →
    (slipRx ((feed n).exec s before) c).2 = .bufferLimit →
      (slipRx ((feed n).exec s (before ++ c :: rest)) slipFrameEnd).2 ≠ .complete

/-- The byte is to be appended and the buffer is full. -/
def Refuses (s : SlipRxState n) (c : UInt8) : Prop :=
  s.length = n ∧
    (s.escape = true ∧ ValidCode c ∨
      s.escape = false ∧ s.frameStarted = true ∧ c ≠ slipFrameEnd ∧ c ≠ slipFrameEsc)

/-- The last escape sequence has a bad code, or is cut off by the END. -/
def Broken : Option (Option UInt8) → Prop
  | none => False
  | some none => True
  | some (some code) => ¬ ValidCode code

/-! ## The refused byte -/

theorem bufferLimit_of_slipRxAppend {s : SlipRxState n} {c : UInt8} :
    (slipRxAppend s c).2 = .bufferLimit ↔ s.length = n := by
  rw [slipRxAppend]
  split
  · next full => exact iff_of_true rfl full
  · next room => exact iff_of_false (by simp) room

theorem refuses_iff {s : SlipRxState n} {c : UInt8} :
    (slipRx s c).2 = .bufferLimit ↔ Refuses s c := by
  by_cases isEnd : c = slipFrameEnd
  · have invalid : ¬ ValidCode c := by
      rw [isEnd]
      decide
    rw [slipRx, if_pos isEnd]
    refine iff_of_false ?_ ?_
    · split_ifs <;> simp
    · rintro ⟨-, ⟨-, valid⟩ | ⟨-, -, notEnd, -⟩⟩
      · exact invalid valid
      · exact notEnd isEnd
  cases escape : s.escape with
  | true =>
      by_cases valid : ValidCode c
      · obtain ⟨byte, stands⟩ := exists_standsFor valid
        rw [slipRx_escaped escape stands, bufferLimit_of_slipRxAppend]
        exact ⟨fun full => ⟨full, .inl ⟨escape, valid⟩⟩, fun refused => refused.1⟩
      · obtain ⟨notEscEnd, notEscEsc⟩ := not_or.mp valid
        rw [slipRx, if_neg isEnd, if_pos escape, if_neg notEscEnd, if_neg notEscEsc]
        refine iff_of_false (by simp) ?_
        rintro ⟨-, ⟨-, good⟩ | ⟨clear, -⟩⟩
        · exact valid good
        · rw [escape] at clear
          cases clear
  | false =>
      have plain : Refuses s c ↔ s.length = n ∧ s.frameStarted = true ∧ c ≠ slipFrameEsc := by
        simp [Refuses, escape, isEnd]
      rw [plain, slipRx, if_neg isEnd, if_neg (by simp [escape])]
      split_ifs with isEsc started
      · simp [isEsc]
      · rw [bufferLimit_of_slipRxAppend]
        simp [started, isEsc]
      · simp [started]

/-- What a refused byte leaves. -/
theorem slipRx_of_refuses {s : SlipRxState n} {c : UInt8} (refused : Refuses s c) :
    (slipRx s c).1.frameStarted = false ∧ (slipRx s c).1.escape = false ∧
      (slipRx s c).1.length = n := by
  obtain ⟨full, ⟨escape, valid⟩ | ⟨clear, started, notEnd, notEsc⟩⟩ := refused
  · obtain ⟨byte, stands⟩ := exists_standsFor valid
    rw [slipRx_escaped escape stands, slipRxAppend, dif_pos full]
    exact ⟨rfl, rfl, full⟩
  · rw [slipRx, if_neg notEnd, if_neg (by simp [clear]), if_neg notEsc, if_pos started,
      slipRxAppend, dif_pos full]
    exact ⟨rfl, clear, full⟩

/-! ## The rest of the frame -/

/-- What an END completes. -/
theorem complete_iff {s : SlipRxState n} :
    (slipRx s slipFrameEnd).2 = .complete ↔ s.escape = false ∧ 0 < s.length := by
  rw [slipRx, if_pos rfl]
  cases escape : s.escape with
  | true => simp
  | false => split_ifs <;> simp_all

/-- The END of an oversize frame completes it unless the last escape sequence is a broken one. -/
theorem complete_of_refuses {s : SlipRxState n} {c : UInt8} (refused : Refuses s c)
    {rest : List UInt8} (noEnd : slipFrameEnd ∉ rest) :
    (slipRx ((feed n).exec s (c :: rest)) slipFrameEnd).2 ≠ .complete ↔
      n = 0 ∨ Broken (escapes rest).getLast? := by
  rw [Machine.exec_cons, Ne, complete_iff]
  rcases Nat.eq_zero_or_pos n with rfl | buffered
  · have le := ((feed 0).exec ((feed 0).step s c).1 rest).length_le
    exact iff_of_true (fun complete => by omega) (.inl rfl)
  · obtain ⟨started, clear, full⟩ := slipRx_of_refuses refused
    have leaves : Leaves (slipRx s c).1.length ((feed n).exec ((feed n).step s c).1 rest)
        (escapes rest).getLast? := leaves_feed buffered started clear noEnd
    rw [or_iff_right buffered.ne']
    generalize (feed n).exec ((feed n).step s c).1 rest = t at leaves ⊢
    rw [full] at leaves
    match (escapes rest).getLast?, leaves with
    | none, ⟨clear, length⟩ => simp [Broken, clear, length, buffered]
    | some (some code), ⟨clear, empty⟩ =>
        rw [Broken, ← empty]
        simp [clear]
    | some none, open_ =>
        have escape : t.escape = true := open_
        simp [Broken, escape]

/-- **Oversize frames are dropped exactly where the last escape sequence behind the refused byte is
a broken one**, or nothing fits the buffer. The length of the frame never exceeds the buffer. -/
theorem oversizeDropped_iff (buffer : Table UInt8 n) (stream : List UInt8) :
    (∀ before, before <+: stream → ((feed n).exec (.init buffer) before).length ≤ n) ∧
      (OversizeDropped (.init buffer) stream ↔
        ∀ before c rest, before ++ c :: (rest ++ [slipFrameEnd]) <+: stream →
          slipFrameEnd ∉ rest → Refuses ((feed n).exec (.init buffer) before) c →
            n = 0 ∨ Broken (escapes rest).getLast?) := by
  refine ⟨fun before _ => SlipRxState.length_le _, ?_⟩
  constructor
  · intro dropped before c rest inside noEnd refused
    rw [← complete_of_refuses refused noEnd, ← Machine.exec_append]
    exact dropped before c rest inside noEnd (refuses_iff.mpr refused)
  · intro spared before c rest inside noEnd limit
    have refused := refuses_iff.mp limit
    rw [Machine.exec_append]
    exact (complete_of_refuses refused noEnd).mpr (spared before c rest inside noEnd refused)

/-- **Three bytes for a buffer of two**: the first two are delivered. -/
theorem not_oversizeDropped_threeBytes :
    ¬ OversizeDropped (.init (.fill 2 0)) [slipFrameEnd, 1, 2, 3, slipFrameEnd] := by
  intro dropped
  exact dropped [slipFrameEnd, 1, 2] 3 [] (by decide) (by decide) (by decide) (by decide)

end HalowBridge.Slip
