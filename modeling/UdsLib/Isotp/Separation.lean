import UdsLib.Isotp.Advertised

/-! The separation of Consecutive Frames. Between two of them lies, in every run, at least the time
that the peer asked for in the last Flow Control frame that cleared a block. -/
namespace UdsLib.Isotp
open Bytes Machine

/-- What matters of a call for the pace of the sender. -/
inductive Mark where
  /-- A Flow Control frame cleared a block, with this block size and STmin. -/
  | cleared (limits : UInt8 × UInt8)
  /-- A Consecutive Frame went out at this time. -/
  | sent (timeMs : UInt32)

def marksOf (rxBufferSize : UInt16) (n : Node) (op : Op) : List Mark :=
  match op with
  | .rx f _ => if Clears n f then [.cleared (f.data 1, f.data 2)] else []
  | .process timeMs _ => if framesOf (step rxBufferSize n op).2 = [] then [] else [.sent timeMs]
  | _ => []

/-- The transport with the marks of its calls as outputs. -/
def markStep (rxBufferSize : UInt16) (n : Node) (op : Op) : Node × List Mark :=
  ((step rxBufferSize n op).1, marksOf rxBufferSize n op)

/-- The limits of the last clearance. -/
def limitsAfter (ms : List Mark) : Option (UInt8 × UInt8) :=
  ms.foldl (fun limits m => match m with
    | .cleared new => some new
    | .sent _ => limits) none

/-- The time of the last Consecutive Frame; the clock starts at 0. -/
def lastSent (ms : List Mark) : UInt32 :=
  ms.foldl (fun time m => match m with
    | .cleared _ => time
    | .sent timeMs => timeMs) 0

/-- The STmin in force after the marks. -/
def stMinAfter (ms : List Mark) : UInt8 := ((limitsAfter ms).getD ownLimits).2

/-- Each Consecutive Frame keeps its distance from the one before it. -/
def Separated (ms : List Mark) : Prop :=
  ∀ before timeMs after, ms = before ++ .sent timeMs :: after →
    requiredSt (stMinAfter before) ≤ timeMs - lastSent before

variable {rxBufferSize : UInt16} {n : Node} {ms : List Mark}

theorem separated_nil : Separated [] := by
  intro before timeMs after h
  have hlen := congrArg List.length h
  simp at hlen

theorem Separated.concat {m : Mark} (h : Separated ms)
    (hm : ∀ timeMs, m = .sent timeMs → requiredSt (stMinAfter ms) ≤ timeMs - lastSent ms) :
    Separated (ms ++ [m]) := by
  intro before timeMs after heq
  rcases List.eq_nil_or_concat after with rfl | ⟨after', last, rfl⟩
  · obtain ⟨rfl, hlast⟩ := List.append_inj' heq rfl
    obtain rfl : m = .sent timeMs := by simpa using hlast
    exact hm timeMs rfl
  · rw [List.concat_eq_append, ← List.cons_append, ← List.append_assoc] at heq
    obtain ⟨hms, -⟩ := List.append_inj' heq rfl
    exact h before timeMs after' hms

/-- The transport obeys the limits of the last clearance, and its timer is at the last frame. -/
structure OnPace (ms : List Mark) (n : Node) : Prop where
  limits : LimitsOf n (limitsAfter ms)
  timer : n.iso.timerSt = lastSent ms
  separated : Separated ms

theorem OnPace.stMin (h : OnPace ms n) : n.iso.stMin = stMinAfter ms :=
  congrArg Prod.snd h.limits

theorem OnPace.unmarked (h : OnPace ms n) {op : Op} (hmarks : marksOf rxBufferSize n op = [])
    (hnote : noteLimits (limitsAfter ms) n op = limitsAfter ms)
    (htimer : (step rxBufferSize n op).1.iso.timerSt = n.iso.timerSt) :
    OnPace (ms ++ marksOf rxBufferSize n op) (step rxBufferSize n op).1 := by
  rw [hmarks, List.append_nil]
  have hlimits : LimitsOf (step rxBufferSize n op).1 (noteLimits (limitsAfter ms) n op) :=
    step_limits op h.limits
  rw [hnote] at hlimits
  exact ⟨hlimits, htimer.trans h.timer, h.separated⟩

theorem rx_timer (rxBufferSize : UInt16) (n : Node) (f : RxFrame) (ret : ℤ) :
    (isotpRxCallback rxBufferSize n f ret).1.iso.timerSt = n.iso.timerSt := by
  unfold isotpRxCallback
  split_ifs
  · rfl
  · cases pciOf f with
    | sf => unfold rxSf; dsimp only; split_ifs <;> rfl
    | ff => unfold rxFf; dsimp only; split_ifs <;> rfl
    | cf => unfold rxCf; dsimp only; split_ifs <;> rfl
    | fc => unfold rxFc; split_ifs <;> rfl
    | other => rfl

theorem send_timer (n : Node) (data : Sdu) (ret : ℤ) :
    (isotpSend n data ret).2.1.iso.timerSt = n.iso.timerSt := by
  generalize hr : isotpSend n data ret = r
  have heff := send_effect n data ret
  rw [hr] at heff
  cases heff <;> rfl

theorem refused_frames {iso : Ctx} {data : List UInt8} {ret : ℤ} (h : iso.canSend = true → ret ≠ 0) :
    framesOf (tpSendFrame iso data ret).2 = [] := by
  unfold tpSendFrame
  split_ifs with hcan
  · simp [framesOf, Output.frame?, h hcan]
  · rfl

theorem step_onPace (rxBufferSize : UInt16) (op : Op) (h : OnPace ms n) :
    OnPace (ms ++ marksOf rxBufferSize n op) (step rxBufferSize n op).1 := by
  cases op with
  | rx f ret =>
    by_cases hclears : Clears n f
    · have hmarks : marksOf rxBufferSize n (.rx f ret) = [.cleared (f.data 1, f.data 2)] :=
        if_pos hclears
      have hnote : noteLimits (limitsAfter ms) n (.rx f ret) = some (f.data 1, f.data 2) :=
        if_pos hclears
      have hlimits : LimitsOf (step rxBufferSize n (.rx f ret)).1
          (noteLimits (limitsAfter ms) n (.rx f ret)) := step_limits (.rx f ret) h.limits
      rw [hnote] at hlimits
      rw [hmarks]
      refine ⟨?_, ?_, h.separated.concat fun _ hsent => by cases hsent⟩
      · rw [limitsAfter, List.foldl_append]
        exact hlimits
      · rw [lastSent, List.foldl_append]
        exact (rx_timer rxBufferSize n f ret).trans h.timer
    · exact h.unmarked (if_neg hclears) (if_neg hclears) (rx_timer rxBufferSize n f ret)
  | send data ret => exact h.unmarked rfl rfl (send_timer n data ret)
  | process timeMs ret =>
    have hquiet (hframes : framesOf (tpIsotpProcess n timeMs ret).2 = [])
        (htimer : (tpIsotpProcess n timeMs ret).1.iso.timerSt = n.iso.timerSt) :
        OnPace (ms ++ marksOf rxBufferSize n (.process timeMs ret))
          (step rxBufferSize n (.process timeMs ret)).1 :=
      h.unmarked (if_pos hframes) rfl htimer
    have hsent (hdistance : requiredSt n.iso.stMin ≤ timeMs - n.iso.timerSt)
        (hframes : framesOf (tpIsotpProcess n timeMs ret).2 ≠ [])
        (htimer : (tpIsotpProcess n timeMs ret).1.iso.timerSt = timeMs) :
        OnPace (ms ++ marksOf rxBufferSize n (.process timeMs ret))
          (step rxBufferSize n (.process timeMs ret)).1 := by
      have hmarks : marksOf rxBufferSize n (.process timeMs ret) = [.sent timeMs] :=
        if_neg hframes
      rw [h.stMin, h.timer] at hdistance
      rw [hmarks]
      refine ⟨?_, ?_, h.separated.concat fun t ht => ?_⟩
      · rw [limitsAfter, List.foldl_append]
        exact step_limits (.process timeMs ret) h.limits
      · rw [lastSent, List.foldl_append]
        exact htimer
      · cases ht
        exact hdistance
    generalize hr : tpIsotpProcess n timeMs ret = r at hquiet hsent
    have heff := process_effect n timeMs ret
    rw [hr] at heff
    cases heff with
    | notSending | drained | early | blockEnd => exact hquiet rfl rfl
    | sent _ _ hdistance _ _ hret =>
      subst hret
      exact hsent hdistance (by simp) rfl
    | refused _ _ _ _ hfail => exact hquiet (refused_frames hfail) rfl
  | setFd enabled => exact h.unmarked rfl rfl rfl

/-- In every run of the transport, whatever is sent, received and refused in it, each Consecutive
Frame goes out at least the separation time after the one before it that the peer asked for in the
last Flow Control frame that cleared a block. -/
theorem separation_kept (rxBufferSize : UInt16) (mem : Node) (canSend : Bool) (txId rxId : UInt32)
    (ops : List Op) :
    Separated (trace (markStep rxBufferSize) (tpIsotpInit mem canSend txId rxId) ops) := by
  have hstart : OnPace [] (tpIsotpInit mem canSend txId rxId) := ⟨rfl, rfl, separated_nil⟩
  have hrun : OnPace ([] ++ trace (markStep rxBufferSize) (tpIsotpInit mem canSend txId rxId) ops)
      (exec (markStep rxBufferSize) (tpIsotpInit mem canSend txId rxId) ops) :=
    trace_invariant (H := OnPace) (fun _ _ op h _ => step_onPace rxBufferSize op h) hstart
      (Along.trivial _ ops)
  exact hrun.separated

end UdsLib.Isotp
