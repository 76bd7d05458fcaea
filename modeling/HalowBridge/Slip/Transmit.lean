import HalowBridge.Slip.Codec

/-!
# Failures of the transport

`slip_tx` promises zero on success and the error of the transport otherwise. Each byte of the packet
overwrites the result of the one before it, and the results of the two ENDs are not looked at, so
that it returns the last result for the packet and nothing else.

`reportsFailure_iff` says for which answers of the transport this is a report: none of them is an
error, or the last one for the packet is.
-/

namespace HalowBridge.Slip

variable {σ : Type*} (transportTxFn : σ → UInt8 → σ × ℤ)

/-- The transport with a record of its answers. -/
def recorded (arg : σ × List ℤ) (c : UInt8) : (σ × List ℤ) × ℤ :=
  let (next, ret) := transportTxFn arg.1 c
  ((next, arg.2 ++ [ret]), ret)

/-- The answers of the transport to the calls of `slip_tx`, in their order. -/
def answers (arg : σ) (packet : List UInt8) : List ℤ :=
  (slipTx (recorded transportTxFn) (arg, []) packet).1.2

/-- `slip_tx` returns zero only if every call of the transport did. -/
def ReportsFailure (arg : σ) (packet : List UInt8) : Prop :=
  (slipTx transportTxFn arg packet).2 = 0 → ∀ ret ∈ answers transportTxFn arg packet, ret = 0

/-- The last call before the closing END was for a byte of the packet, and it failed. -/
def LastByteFails (arg : σ) (packet : List UInt8) : Prop :=
  packet ≠ [] ∧ ∃ ret, (answers transportTxFn arg packet).dropLast.getLast? = some ret ∧ ret ≠ 0

theorem slipTxEscaped_recorded (arg : σ) (log : List ℤ) (code : UInt8) :
    ∃ front, slipTxEscaped (recorded transportTxFn) (arg, log) code =
      (((slipTxEscaped transportTxFn arg code).1,
        log ++ (front ++ [(slipTxEscaped transportTxFn arg code).2])),
        (slipTxEscaped transportTxFn arg code).2) := by
  rw [slipTxEscaped, slipTxEscaped]
  by_cases failed : (transportTxFn arg slipFrameEsc).2 = 0
  · refine ⟨[(transportTxFn arg slipFrameEsc).2], ?_⟩
    simp [recorded, failed]
  · exact ⟨[], by simp [recorded, failed]⟩

/-- The answers for a byte end with its result. -/
theorem slipTxByte_recorded (arg : σ) (log : List ℤ) (c : UInt8) :
    ∃ front, slipTxByte (recorded transportTxFn) (arg, log) c =
      (((slipTxByte transportTxFn arg c).1,
        log ++ (front ++ [(slipTxByte transportTxFn arg c).2])),
        (slipTxByte transportTxFn arg c).2) := by
  rw [slipTxByte, slipTxByte]
  split_ifs
  · exact slipTxEscaped_recorded transportTxFn arg log slipFrameEscEsc
  · exact slipTxEscaped_recorded transportTxFn arg log slipFrameEscEnd
  · exact ⟨[], rfl⟩

/-- The loop returns the last answer, or what it began with. -/
theorem slipTxLoop_recorded (arg : σ) (ret : ℤ) (log : List ℤ) (packet : List UInt8) :
    ∃ body, slipTxLoop (recorded transportTxFn) ((arg, log), ret) packet =
        (((slipTxLoop transportTxFn (arg, ret) packet).1, log ++ body),
          (slipTxLoop transportTxFn (arg, ret) packet).2) ∧
      body.getLast?.getD ret = (slipTxLoop transportTxFn (arg, ret) packet).2 ∧
      (body = [] ↔ packet = []) := by
  induction packet generalizing arg ret log with
  | nil => exact ⟨[], by rw [List.append_nil]; rfl, rfl, iff_of_true rfl rfl⟩
  | cons c packet ih =>
      obtain ⟨front, byte⟩ := slipTxByte_recorded transportTxFn arg log c
      obtain ⟨body, loop, last, -⟩ := ih (slipTxByte transportTxFn arg c).1
        (slipTxByte transportTxFn arg c).2
        (log ++ (front ++ [(slipTxByte transportTxFn arg c).2]))
      refine ⟨front ++ [(slipTxByte transportTxFn arg c).2] ++ body, ?_, ?_, by simp⟩
      · rw [slipTxLoop, slipTxLoop, byte, loop, List.append_assoc log]
      · rw [slipTxLoop, ← last, List.getLast?_append, List.getLast?_concat]
        cases body.getLast? <;> rfl

/-- The answers: for the first END, for the packet, and for the closing END. -/
theorem exists_answers (arg : σ) (packet : List UInt8) :
    ∃ first body last, answers transportTxFn arg packet = first :: (body ++ [last]) ∧
      body.getLast?.getD 0 = (slipTx transportTxFn arg packet).2 ∧ (body = [] ↔ packet = []) := by
  obtain ⟨body, loop, last, empty⟩ := slipTxLoop_recorded transportTxFn
    (transportTxFn arg slipFrameEnd).1 0 [(transportTxFn arg slipFrameEnd).2] packet
  have opened : (recorded transportTxFn (arg, []) slipFrameEnd).1 =
      ((transportTxFn arg slipFrameEnd).1, [(transportTxFn arg slipFrameEnd).2]) := rfl
  refine ⟨(transportTxFn arg slipFrameEnd).2, body,
    (transportTxFn (slipTxLoop transportTxFn ((transportTxFn arg slipFrameEnd).1, 0) packet).1
      slipFrameEnd).2, ?_, last, empty⟩
  rw [answers, slipTx, opened, loop]
  rfl

/-- **What `slip_tx` reports.** It returns zero only after calls that all returned zero, if and only
if all of them did or the last one for the packet failed. -/
theorem reportsFailure_iff (arg : σ) (packet : List UInt8) :
    ReportsFailure transportTxFn arg packet ↔
      (∀ ret ∈ answers transportTxFn arg packet, ret = 0) ∨
        LastByteFails transportTxFn arg packet := by
  obtain ⟨first, body, last, all, result, empty⟩ :=
    exists_answers transportTxFn arg packet
  have front : (answers transportTxFn arg packet).dropLast = first :: body := by
    rw [all, ← List.cons_append, List.dropLast_concat]
  rw [ReportsFailure, LastByteFails, front, ← result, Ne, ← empty]
  rcases List.eq_nil_or_concat body with rfl | ⟨others, final, rfl⟩
  · -- Nothing was sent for the packet, and the result is zero.
    exact ⟨fun reports => .inl (reports rfl), fun spared _ =>
      spared.elim id fun fails => (fails.1 rfl).elim⟩
  · rw [List.concat_eq_append, List.getLast?_concat, Option.getD_some, ← List.cons_append,
      List.getLast?_concat]
    constructor
    · intro reports
      by_cases zero : final = 0
      · exact .inl (reports zero)
      · exact .inr ⟨by simp, final, rfl, zero⟩
    · rintro (silent | ⟨-, ret, same, failed⟩) zero
      · exact silent
      · exact (failed ((Option.some.inj same).symm.trans zero)).elim

/-- **The first of two bytes fails**, and `slip_tx` returns zero. -/
theorem not_reportsFailure_firstByte :
    ¬ ReportsFailure (fun (calls : ℕ) _ => (calls + 1, if calls = 1 then -5 else 0)) 0 [1, 2] := by
  intro reports
  exact absurd (reports rfl (-5) (by decide)) (by decide)

end HalowBridge.Slip
