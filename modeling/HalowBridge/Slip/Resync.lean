import HalowBridge.Slip.Codec

/-!
# Noise before a frame

Bytes that arrive before the first END are meant to be dropped. `slip_rx` drops them one by one, but
it handles escape sequences before it asks whether a frame has started: a valid sequence puts a byte
into the buffer, and an escape byte at the end of the noise makes the first END an error.

`delivered_noise_iff` says exactly when the frame behind the noise still arrives alone. Only the
last escape sequence of the noise matters (`escapes`): there is none, or it is a bad one, which
resets the receiver, or the noise ends inside it and the packet is made of escaped bytes only.
-/

namespace HalowBridge.Slip

variable {n : ℕ}

/-- The bytes that an escape sequence stands for. -/
def Special (c : UInt8) : Prop := c = slipFrameEnd ∨ c = slipFrameEsc

instance (c : UInt8) : Decidable (Special c) := inferInstanceAs (Decidable (_ ∨ _))

/-- The second byte of a valid escape sequence. -/
def ValidCode (code : UInt8) : Prop := code = slipFrameEscEnd ∨ code = slipFrameEscEsc

instance (code : UInt8) : Decidable (ValidCode code) := inferInstanceAs (Decidable (_ ∨ _))

/-- The escape sequences of some bytes by their second byte, `none` for one that is cut off. -/
def escapes : List UInt8 → List (Option UInt8)
  | [] => []
  | [c] => if c = slipFrameEsc then [none] else []
  | c :: code :: rest =>
      if c = slipFrameEsc then some code :: escapes rest else escapes (code :: rest)

/-- What the last escape sequence before a frame has to be for the packet to get through. -/
def Passes (packet : List UInt8) : Option (Option UInt8) → Prop
  | none => True
  | some (some code) => ¬ ValidCode code
  | some none => ∀ c ∈ packet, Special c

instance (packet : List UInt8) : (last : Option (Option UInt8)) → Decidable (Passes packet last)
  | none => inferInstanceAs (Decidable True)
  | some (some _) => inferInstanceAs (Decidable (¬ _))
  | some none => inferInstanceAs (Decidable (∀ c ∈ packet, Special c))

/-! ## Bytes outside a frame -/

/-- No frame has started, and escape sequences have left the bytes `acc`. -/
structure Unstarted (s : SlipRxState n) (acc : List UInt8) : Prop where
  frameStarted : s.frameStarted = false
  escape : s.escape = false
  frame : s.frame = acc

theorem unstarted_reinit (s : SlipRxState n) : Unstarted s.reinit [] := ⟨rfl, rfl, rfl⟩

/-- A plain byte is dropped. -/
theorem slipRx_drop {s : SlipRxState n} {acc : List UInt8} (unstarted : Unstarted s acc)
    {c : UInt8} (notEnd : c ≠ slipFrameEnd) (notEsc : c ≠ slipFrameEsc) :
    slipRx s c = (s, .inProgress) := by
  rw [slipRx, if_neg notEnd, if_neg (by simp [unstarted.escape]), if_neg notEsc,
    if_neg (by simp [unstarted.frameStarted])]

/-- One byte of a packet, outside a frame. -/
theorem reads_escaped_unstarted {s : SlipRxState n} {acc : List UInt8}
    (unstarted : Unstarted s acc) (room : acc.length < n) (c : UInt8) :
    ∃ t, Reads s (escaped c) [] t ∧ Unstarted t (acc ++ [c].filter (Special ·)) := by
  have space : s.length < n := by rwa [← s.length_frame, unstarted.frame]
  by_cases special : Special c
  · obtain ⟨code, stands, isPair⟩ :
        ∃ code, StandsFor code c ∧ escaped c = [slipFrameEsc, code] := by
      rcases special with rfl | rfl
      · exact ⟨_, Or.inl ⟨rfl, rfl⟩, rfl⟩
      · exact ⟨_, Or.inr ⟨rfl, rfl⟩, rfl⟩
    rcases reads_sequence unstarted.escape space stands with ⟨t, reads, frame, started, clear⟩
    rw [isPair, List.filter_cons_of_pos (by simpa using special)]
    refine ⟨t, reads, started.trans unstarted.frameStarted, clear, ?_⟩
    rw [frame, unstarted.frame, List.filter_nil]
  · obtain ⟨notEnd, notEsc⟩ := not_or.mp special
    rw [escaped, if_neg notEsc, if_neg notEnd, List.filter_cons_of_neg (by simpa using special),
      List.filter_nil, List.append_nil]
    exact ⟨s, .inProgress (slipRx_drop unstarted notEnd notEsc), unstarted⟩

/-- The bytes of a packet, outside a frame: those that had to be escaped arrive. -/
theorem reads_packet_unstarted {s : SlipRxState n} {acc : List UInt8}
    (unstarted : Unstarted s acc) (packet : List UInt8) (fits : acc.length + packet.length ≤ n) :
    ∃ t, Reads s (packet.flatMap escaped) [] t ∧
      Unstarted t (acc ++ packet.filter (Special ·)) := by
  induction packet generalizing s acc with
  | nil => exact ⟨s, .nil s, by rwa [List.filter_nil, List.append_nil]⟩
  | cons c packet ih =>
      have single := List.length_filter_le (Special ·) [c]
      rw [List.length_cons] at fits
      rcases reads_escaped_unstarted unstarted (by omega) c with ⟨r, head, first⟩
      rw [List.length_singleton] at single
      rcases ih first (by rw [List.length_append]; omega) with ⟨t, rest, last⟩
      refine ⟨t, head.append rest, ?_⟩
      rwa [List.append_assoc, ← List.filter_append] at last

/-- A frame whose first END did not start it. -/
theorem reads_tail_unstarted {s : SlipRxState n} (unstarted : Unstarted s [])
    {packet : List UInt8} (fits : packet.length ≤ n) :
    ∃ t, Reads s (packet.flatMap escaped ++ [slipFrameEnd])
      ([packet.filter (Special ·)].filter (· ≠ [])) t := by
  rcases reads_packet_unstarted unstarted packet (by simpa using fits) with ⟨full, body, finished⟩
  rcases reads_close finished.escape finished.frame with ⟨t, last, -⟩
  exact ⟨t, body.append last⟩

/-- `slip_rx` byte by byte, without reinitialisation by its caller. -/
def feed (n : ℕ) : Machine (SlipRxState n) UInt8 SlipRxStatus := ⟨slipRx⟩

theorem exists_standsFor {code : UInt8} (valid : ValidCode code) : ∃ c, StandsFor code c := by
  rcases valid with rfl | rfl
  · exact ⟨_, Or.inl ⟨rfl, rfl⟩⟩
  · exact ⟨_, Or.inr ⟨rfl, rfl⟩⟩

/-- What the noise leaves in a receiver that stood at the length `length`, by its last escape
sequence. -/
def Leaves (length : ℕ) (t : SlipRxState n) : Option (Option UInt8) → Prop
  | none => t.escape = false ∧ t.length = length
  | some (some code) => t.escape = false ∧ (t.length = 0 ↔ ¬ ValidCode code)
  | some none => t.escape = true

/-- The second byte of an escape sequence outside a frame. -/
theorem slipRx_code (buffered : 0 < n) {s : SlipRxState n} (started : s.frameStarted = false)
    (escape : s.escape = true) {code : UInt8} (notEnd : code ≠ slipFrameEnd) :
    (slipRx s code).1.frameStarted = false ∧ (slipRx s code).1.escape = false ∧
      ((slipRx s code).1.length = 0 ↔ ¬ ValidCode code) := by
  by_cases valid : ValidCode code
  · obtain ⟨byte, stands⟩ := exists_standsFor valid
    rw [slipRx_escaped escape stands, slipRxAppend]
    split
    · next full =>
        exact ⟨rfl, rfl, iff_of_false (fun zero => buffered.ne' (full.symm.trans zero))
          (not_not_intro valid)⟩
    · exact ⟨started, rfl, iff_of_false (Nat.succ_ne_zero _) (not_not_intro valid)⟩
  · obtain ⟨notEscEnd, notEscEsc⟩ := not_or.mp valid
    rw [slipRx, if_neg notEnd, if_pos escape, if_neg notEscEnd, if_neg notEscEsc]
    exact ⟨rfl, rfl, iff_of_true rfl valid⟩

/-- What bytes without an END leave depends on the last escape sequence. -/
theorem leaves_feed (buffered : 0 < n) {s : SlipRxState n} (started : s.frameStarted = false)
    (clear : s.escape = false) {rest : List UInt8} (noEnd : slipFrameEnd ∉ rest) :
    Leaves s.length ((feed n).exec s rest) (escapes rest).getLast? := by
  have esc {s : SlipRxState n} (clear : s.escape = false) :
      (feed n).step s slipFrameEsc = ({ s with escape := true }, .inProgress) := slipRx_esc clear
  induction rest using escapes.induct generalizing s with
  | case1 => exact ⟨clear, rfl⟩
  | case2 =>
      rw [Machine.exec_cons, esc clear]
      rfl
  | case3 c notEsc =>
      have dropped : (feed n).step s c = (s, .inProgress) :=
        slipRx_drop ⟨started, clear, rfl⟩ (Ne.symm (by simpa using noEnd)) notEsc
      rw [escapes, if_neg notEsc, Machine.exec_cons, dropped]
      exact ⟨clear, rfl⟩
  | case4 code rest ih =>
      simp only [List.mem_cons, not_or] at noEnd
      obtain ⟨startedT, clearT, empty⟩ := slipRx_code buffered (s := { s with escape := true })
        started rfl (Ne.symm noEnd.2.1)
      have leaves := ih startedT clearT noEnd.2.2
      rw [Machine.exec_cons, esc clear, escapes, if_pos rfl, List.getLast?_cons]
      -- A later sequence decides alone; without one the receiver stays as this one left it.
      cases last : (escapes rest).getLast? with
      | some later =>
          rw [last] at leaves
          cases later <;> exact leaves
      | none =>
          rw [last] at leaves
          exact ⟨leaves.1, leaves.2.symm ▸ empty⟩
  | case5 c code rest notEsc ih =>
      rw [List.mem_cons, not_or] at noEnd
      have dropped : (feed n).step s c = (s, .inProgress) :=
        slipRx_drop ⟨started, clear, rfl⟩ (Ne.symm noEnd.1) notEsc
      rw [escapes, if_neg notEsc, Machine.exec_cons, dropped]
      exact ih started clear noEnd.2

/-! ## Noise -/

/-- The receiver after some noise: nothing was delivered, no frame has started, and the buffer holds
bytes of escape sequences only. -/
structure Noise (s : SlipRxState n) (bytes : List UInt8) (t : SlipRxState n) : Prop where
  exec : (receiver n).exec s bytes = t
  delivered : delivered ((receiver n).trace s bytes) = []
  frameStarted : t.frameStarted = false
  special : ∀ c ∈ t.frame, Special c

theorem Noise.append {r s t : SlipRxState n} {first second : List UInt8} (left : Noise r first s)
    (right : Noise s second t) : Noise r (first ++ second) t where
  exec := by rw [Machine.exec_append, left.exec, right.exec]
  delivered := by
    rw [Machine.trace_append, delivered_append, left.exec, left.delivered, right.delivered,
      List.append_nil]
  frameStarted := right.frameStarted
  special := right.special

/-- One byte that does not complete a frame. -/
theorem Noise.single {s t : SlipRxState n} {c : UInt8} {status : SlipRxStatus}
    (step : slipRx s c = (t, status)) (open_ : status ≠ .complete)
    (frameStarted : t.frameStarted = false) (special : ∀ c ∈ t.frame, Special c) :
    Noise s [c] t where
  exec := by simp [receiver, step, open_]
  delivered := by simp [receiver, step, open_, HalowBridge.Slip.delivered]
  frameStarted := frameStarted
  special := special

section Noise

variable {s : SlipRxState n} (frameStarted : s.frameStarted = false)
  (special : ∀ c ∈ s.frame, Special c)
include frameStarted special

/-- The second byte of a valid sequence is appended, or refused by a full buffer. -/
theorem noise_append {code c : UInt8} (escape : s.escape = true) (stands : StandsFor code c) :
    Noise s [code] (slipRx s code).1 := by
  have step := slipRx_escaped escape stands
  have isSpecial : Special c := by
    rcases stands with ⟨-, rfl⟩ | ⟨-, rfl⟩
    · exact Or.inl rfl
    · exact Or.inr rfl
  rw [step]
  by_cases room : s.length < n
  · rcases slipRxAppend_room (s := { s with escape := false }) room c with
      ⟨t, appended, frame, started, -⟩
    rw [appended]
    refine .single (step.trans appended) (by decide) (started.trans frameStarted) ?_
    rw [frame]
    exact List.forall_mem_append.mpr ⟨special, List.forall_mem_singleton.mpr isSpecial⟩
  · have full : s.length = n := Nat.le_antisymm s.length_le (Nat.not_lt.mp room)
    have refused : slipRxAppend { s with escape := false } c =
        ({ s with escape := false, frameStarted := false }, .bufferLimit) := dif_pos full
    rw [refused]
    exact .single (step.trans refused) (by decide) rfl special

/-- One byte of the noise. -/
theorem noise_byte {c : UInt8} (notEnd : c ≠ slipFrameEnd) : Noise s [c] (slipRx s c).1 := by
  cases escape : s.escape with
  | true =>
      by_cases valid : ValidCode c
      · obtain ⟨byte, stands⟩ := exists_standsFor valid
        exact noise_append frameStarted special escape stands
      · obtain ⟨notEscEnd, notEscEsc⟩ := not_or.mp valid
        have step : slipRx s c = (({ s with escape := false } : SlipRxState n).reinit, .error) := by
          rw [slipRx, if_neg notEnd, if_pos escape, if_neg notEscEnd, if_neg notEscEsc]
        rw [step]
        exact .single step (by decide) rfl fun _ member => (List.not_mem_nil member).elim
  | false =>
      by_cases isEsc : c = slipFrameEsc
      · subst isEsc
        rw [slipRx_esc escape]
        exact .single (slipRx_esc escape) (by decide) frameStarted special
      · have dropped := slipRx_drop ⟨frameStarted, escape, rfl⟩ notEnd isEsc
        rw [dropped]
        exact .single dropped (by decide) frameStarted special

/-- Noise is fed to the receiver, which is never reinitialised meanwhile. -/
theorem noise_feed {noise : List UInt8} (noEnd : slipFrameEnd ∉ noise) :
    Noise s noise ((feed n).exec s noise) := by
  induction noise generalizing s with
  | nil => exact ⟨rfl, rfl, frameStarted, special⟩
  | cons c noise ih =>
      rw [List.mem_cons, not_or] at noEnd
      have first := noise_byte frameStarted special (Ne.symm noEnd.1)
      exact first.append (ih first.frameStarted first.special noEnd.2)

end Noise

/-! ## The frame behind the noise -/

/-- The frames delivered from a state. -/
theorem delivered_append_noise {s t : SlipRxState n} {noise : List UInt8} (left : Noise s noise t)
    (bytes : List UInt8) :
    delivered ((receiver n).trace s (noise ++ bytes)) =
      delivered ((receiver n).trace t bytes) := by
  rw [Machine.trace_append, delivered_append, left.exec, left.delivered, List.nil_append]

theorem delivered_idle {s : SlipRxState n} (idle : Idle s) {packet : List UInt8}
    (nonempty : packet ≠ []) (fits : packet.length ≤ n) :
    delivered ((receiver n).trace s (slipFrame packet)) = [packet] := by
  rcases reads_slipFrame idle fits with ⟨t, reads, -⟩
  rw [reads.delivered, List.filter_cons_of_pos (by simpa using nonempty), List.filter_nil]

/-- The END behind an open escape sequence is an error, and the frame does not start. -/
theorem delivered_after_escape {s : SlipRxState n} (escape : s.escape = true)
    {packet : List UInt8} (fits : packet.length ≤ n) :
    delivered ((receiver n).trace s (slipFrame packet)) =
      [packet.filter (Special ·)].filter (· ≠ []) := by
  have step : slipRx s slipFrameEnd = (s.reinit, .error) := by
    rw [slipRx, if_pos rfl, if_pos escape]
  have first := Noise.single step (by decide) rfl fun _ member => (List.not_mem_nil member).elim
  rcases reads_tail_unstarted (unstarted_reinit s) fits with ⟨t, reads⟩
  rw [slipFrame_eq]
  exact (delivered_append_noise first _).trans reads.delivered

/-- The END behind a valid escape sequence completes a frame of noise. -/
theorem delivered_after_bytes {s : SlipRxState n} (clear : s.escape = false)
    (filled : s.length ≠ 0) {packet : List UInt8} (fits : packet.length ≤ n) :
    delivered ((receiver n).trace s (slipFrame packet)) =
      s.frame :: [packet.filter (Special ·)].filter (· ≠ []) := by
  have step : slipRx s slipFrameEnd = (s, .complete) := by
    rw [slipRx, if_pos rfl, if_neg (by simp [clear]), if_pos (Nat.pos_of_ne_zero filled)]
  rcases reads_tail_unstarted (unstarted_reinit s) fits with ⟨t, reads⟩
  rw [slipFrame_eq]
  exact ((Reads.complete step).append reads).delivered

/-- A frame of noise is not the packet: it holds an escaped byte, and a packet with one is followed
by more. -/
theorem ne_singleton_of_noise {s : SlipRxState n} (special : ∀ c ∈ s.frame, Special c)
    (filled : s.length ≠ 0) {packet : List UInt8} :
    s.frame :: [packet.filter (Special ·)].filter (· ≠ []) ≠ [packet] := by
  intro single
  rw [List.cons.injEq] at single
  obtain ⟨rfl, nothing⟩ := single
  have kept : s.frame.filter (Special ·) = s.frame :=
    List.filter_eq_self.mpr (by simpa using special)
  rw [kept, List.filter_eq_nil_iff] at nothing
  exact filled (SlipRxState.frame_eq_nil.mp (by simpa using nothing))

/-- What is left of a packet is the packet when every byte was escaped. -/
theorem filter_special_eq_iff {packet : List UInt8} (nonempty : packet ≠ []) :
    [packet.filter (Special ·)].filter (· ≠ []) = [packet] ↔ ∀ c ∈ packet, Special c := by
  constructor
  · intro whole
    have kept : packet ∈ [packet.filter (Special ·)].filter (· ≠ []) := by
      rw [whole]
      exact List.mem_singleton_self packet
    have same := List.mem_singleton.mp (List.mem_filter.mp kept).1
    simpa using List.filter_eq_self.mp same.symm
  · intro special
    have kept : packet.filter (Special ·) = packet :=
      List.filter_eq_self.mpr (by simpa using special)
    rw [kept, List.filter_cons_of_pos (by simpa using nonempty), List.filter_nil]

/-- **When a frame behind noise is delivered, and nothing else.** -/
theorem delivered_noise_iff (buffer : Table UInt8 n) {noise packet : List UInt8}
    (noEnd : slipFrameEnd ∉ noise) (nonempty : packet ≠ []) (fits : packet.length ≤ n) :
    delivered ((receiver n).trace (.init buffer) (noise ++ slipFrame packet)) = [packet] ↔
      Passes packet (escapes noise).getLast? := by
  have buffered : 0 < n := (List.length_pos_iff.mpr nonempty).trans_le fits
  have left := noise_feed (s := .init buffer) rfl (fun _ member => (List.not_mem_nil member).elim)
    noEnd
  have leaves : Leaves 0 ((feed n).exec (.init buffer) noise) (escapes noise).getLast? :=
    leaves_feed buffered rfl rfl noEnd
  rw [delivered_append_noise left]
  generalize (feed n).exec (.init buffer) noise = t at left leaves
  match last : (escapes noise).getLast? with
  | none =>
      rw [last] at leaves
      exact iff_of_true (delivered_idle ⟨leaves.1, leaves.2⟩ nonempty fits) trivial
  | some (some code) =>
      rw [last] at leaves
      obtain ⟨clear, empty⟩ := leaves
      by_cases filled : t.length = 0
      · exact iff_of_true (delivered_idle ⟨clear, filled⟩ nonempty fits) (empty.mp filled)
      · refine iff_of_false ?_ fun bad => filled (empty.mpr bad)
        rw [delivered_after_bytes clear filled fits]
        exact ne_singleton_of_noise left.special filled
  | some none =>
      rw [last] at leaves
      rw [delivered_after_escape leaves fits]
      exact filter_special_eq_iff nonempty

/-- The noise ends in a bad escape sequence behind a valid one. -/
theorem delivered_noise_iff_badSequence :
    delivered ((receiver 4).trace (.init (.fill 4 0xa5))
      ([0x41, 0xdb, 0xdc, 0xdb, 0x41] ++ slipFrame [1, 0xc0, 2])) = [[1, 0xc0, 2]] :=
  (delivered_noise_iff (.fill 4 0xa5) (by decide) (by decide) (by decide)).mpr (by decide)

/-- **Noise can be delivered as a frame, and can cost the frame behind it.** An escape sequence for
END, and an escape byte alone. -/
theorem not_delivered_noise :
    slipFrameEnd ∉ [slipFrameEsc, slipFrameEscEnd] ∧ slipFrameEnd ∉ [slipFrameEsc] ∧
      delivered ((receiver 4).trace (.init (.fill 4 0xa5))
        ([slipFrameEsc, slipFrameEscEnd] ++ slipFrame [1, 2])) = [[slipFrameEnd]] ∧
      delivered ((receiver 4).trace (.init (.fill 4 0xa5)) ([slipFrameEsc] ++ slipFrame [1, 2])) =
        [] := by
  decide

end HalowBridge.Slip
