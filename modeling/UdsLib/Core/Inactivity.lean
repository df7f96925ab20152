import UdsLib.Core.Exchange

/-! The S3 timer as a law about silence. `uds_process` measures from the field `last_msg_time`, which
every message sets and `uds_init` leaves at 0. -/
namespace UdsLib.Core
open Bytes Machine Prog Services

variable {W : Type} {cfg : Config W} {d : Sdu} {s t : Sys W} {es : List Event}

/-- The time at which a message that arrives is noted. -/
def arrivalTime (cfg : Config W) (s : Sys W) : UInt32 :=
  (getTime cfg).value ((mutexLock cfg).final s)

/-- The time of the last message that is not empty, behind a call. -/
def heard (cfg : Config W) (h : Option UInt32) (s : Sys W) : Op W → Option UInt32
  | .inputSdu (.bytes d) => if d.bytes ≠ [] then some (arrivalTime cfg s) else h
  | _ => h

/-- In another session than the default one, `uds_process` goes back to it and locks exactly if more
than 5000 ms have passed since the last message, or since `tInit` if there was none. -/
def RevertsOnSilence (cfg : Config W) (tInit : UInt32) (p : Sys W × Option UInt32) (op : Op W) :
    Prop :=
  op = .process → p.1.ctx.activeSession ≠ sessionIdDefault →
    ((step cfg p.1 op).1.ctx.pair = (sessionIdDefault, 0) ↔
      5000 < processTime cfg p.1 - p.2.getD tInit)

/-- The condition for a call: before the first message, `uds_process` finds more than 5000 ms on the
clock exactly if so many have passed since `tInit`. -/
def ClockFits (cfg : Config W) (tInit : UInt32) (p : Sys W × Option UInt32) (op : Op W) : Prop :=
  op = .process → p.1.ctx.activeSession ≠ sessionIdDefault → p.2 = none →
    (5000 < processTime cfg p.1 ↔ 5000 < processTime cfg p.1 - tInit)

/-! ### What keeps the time of the last message -/

/-- The time of the last message stays. -/
def SameTime (c c' : Ctx) : Prop := c'.lastMsgTime = c.lastMsgTime

abbrev TimeKept (s : Sys W) (es : List Event) (t : Sys W) : Prop := Follows SameTime s es t

theorem sameTime_handling : Handling SameTime where
  same _ _ h := congrArg Conversation.lastMsgTime h
  trans _ _ _ h hnext := hnext.trans h
  refused _ := rfl
  answered _ _ := rfl
  asked _ _ _ := rfl

theorem timeKept_composable : Composable (TimeKept (W := W)) := follows_composable sameTime_handling

theorem sendNrc_timeKept (cfg : Config W) (sid nrc : UInt8) : Keeps TimeKept (sendNrc cfg sid nrc) :=
  sendNrc_follows sameTime_handling sid nrc

theorem executeHandler_timeKept {service : Service W} {sid : UInt8}
    (hfound : findService cfg sid = some service) : Keeps TimeKept (executeHandler cfg service d) := by
  intro t
  have hbyte : Keeps (TimeKept (W := W)) (byteAt d 0) := fun _ => rfl
  have htime : Keeps TimeKept (getTime cfg) := fun _ => rfl
  obtain ⟨es, -, htail⟩ := executeHandler_split timeKept_composable hbyte
    (fun sid => sendNrc_timeKept cfg sid nrcResponsePending) htime (fun _ => rfl) (fun _ _ _ => rfl)
    service t
  exact htail.trans (handler_follows sameTime_handling hfound d t)

theorem Gated.timeKept (h : Gated s es t) : TimeKept s es t := by
  unfold TimeKept Follows
  rw [h.1]
  rfl

theorem handleRequest_timeKept (hne : d.bytes ≠ []) : Keeps TimeKept (handleRequest cfg d) := by
  intro t
  have hleads := handleRequest_leads cfg t hne
  cases hfail : firstFailing cfg t d with
  | none =>
    rw [hfail] at hleads
    obtain ⟨service, hfound, hfinal, -⟩ := hleads
    have hentry : (atHandler cfg service d t).ctx.lastMsgTime = t.ctx.lastMsgTime := by
      rw [atHandler_ctx]
      rfl
    unfold TimeKept
    rw [hfinal]
    exact (executeHandler_timeKept hfound _).trans hentry
  | some check =>
    rw [hfail] at hleads
    obtain ⟨es, w, hgate, -, hfinal, -⟩ := hleads
    unfold TimeKept
    rw [hfinal]
    exact (sendNrc_timeKept cfg _ _ w).trans hgate.timeKept

theorem startRequest_timeKept (hne : d.bytes ≠ []) : Keeps TimeKept (startRequest cfg d) := by
  have hR := timeKept_composable (W := W)
  have htime : Keeps TimeKept (getTime cfg) := fun _ => rfl
  have hnew (now : UInt32) : Keeps (TimeKept (W := W)) (setCtx fun c =>
      { c with p2TimerStart := now, p2MsgPending := false, p2StarActive := false, rcrrpCount := 0 }) :=
    fun _ => rfl
  apply hR.bind htime
  intro _
  exact hR.bind (hnew _) fun _ => handleRequest_timeKept hne

theorem treatment_timeKept (c : Ctx) (hne : d.bytes ≠ []) : Keeps TimeKept (treatment cfg c d) := by
  have hR := timeKept_composable (W := W)
  unfold treatment busyAnswer
  apply Keeps.ite
  · intro _
    exact Keeps.ite (fun _ => hR.refl) fun _ => hR.discard (sendNrc_timeKept cfg _ _)
  intro _
  exact Keeps.ite (fun _ => takeAnswer_follows sameTime_handling d) fun _ => startRequest_timeKept hne

theorem finishProcess_timeKept (now : UInt32) : Keeps TimeKept (finishProcess cfg now) := by
  intro s
  obtain ⟨es, t, hsched, hfinal, -⟩ := finishProcess_parts cfg now s
  unfold TimeKept Follows SameTime
  rw [hfinal, mutexUnlock_ctx, hsched.ctx]

theorem answerInTime_timeKept (c : Ctx) (now : UInt32) : Keeps TimeKept (answerInTime cfg c now) := by
  have hR := timeKept_composable (W := W)
  unfold answerInTime
  apply Keeps.ite
  · intro _
    apply Keeps.ite
    · exact fun _ => hR.bind (sendNrc_timeKept cfg _ _) fun _ _ => rfl
    · intro _
      apply hR.bind (sendNrc_timeKept cfg _ _)
      intro _
      exact hR.bind (fun _ => rfl) fun _ => finishProcess_timeKept now
  · exact fun _ => finishProcess_timeKept now

/-! ### Runs -/

/-- A call keeps the time of the last message in step with the history. -/
theorem step_heard (op : Op W) {h : Option UInt32} (hs : s.ctx.lastMsgTime = h.getD 0) :
    (step cfg s op).1.ctx.lastMsgTime = (heard cfg h s op).getD 0 := by
  cases op with
  | inputSdu data =>
    rcases data.empty_or_message with hnone | ⟨d, rfl, hne⟩
    · have hkept : heard cfg h s (.inputSdu data) = h := by
        cases data with
        | null len => rfl
        | bytes d => exact if_neg (not_not_intro (hnone d rfl))
      rw [hkept, (step_ignored cfg s hnone).1, mutexUnlock_ctx, mutexLock_ctx]
      exact hs
    · have hnoted : heard cfg h s (.inputSdu (.bytes d)) = some (arrivalTime cfg s) := if_pos hne
      rw [hnoted, (step_treats cfg s hne).final, mutexUnlock_ctx]
      exact treatment_timeKept s.ctx hne (arrived cfg s)
  | process =>
    have hticked : (ticked cfg s).ctx.lastMsgTime = s.ctx.lastMsgTime := by
      rw [ticked_ctx]
      split_ifs <;> rfl
    have hfinal : (step cfg s .process).1 = _ := (udsProcess_run cfg s).1
    rw [hfinal]
    exact (answerInTime_timeKept _ _ _).trans (hticked.trans hs)
  | clientRequest sid data cb => exact (clientRequest_follows sameTime_handling sid data cb s).trans hs
  | fill off bytes => exact hs
  | sendResponse len => exact (sendResponse_follows sameTime_handling len s).trans hs
  | sendNrc sid nrc => exact (sendNrc_timeKept cfg sid nrc s).trans hs
  | elapse f => exact hs

/-- The S3 timer measures from the field. -/
theorem reverted_iff (cfg : Config W) (hsession : s.ctx.activeSession ≠ sessionIdDefault) :
    (step cfg s .process).1.ctx.pair = (sessionIdDefault, 0) ↔
      5000 < processTime cfg s - s.ctx.lastMsgTime := by
  cases step_process_pair cfg s with
  | kept hpair hsaved hkeys htime hopen =>
    rw [hpair]
    apply iff_of_false
    · exact fun h => hsession (congrArg Prod.fst h)
    · exact fun h => htime ⟨hsession, h⟩
  | timedOut htime hpair hsaved hkeys => exact iff_of_true hpair htime.2
  | session d hop => cases hop
  | key d level hop => cases hop

/-- One call reverts on silence exactly if the clock fits. -/
theorem step_reverts_iff (tInit : UInt32) (p : Sys W × Option UInt32) (op : Op W)
    (hp : p.1.ctx.lastMsgTime = p.2.getD 0) :
    RevertsOnSilence cfg tInit p op ↔ ClockFits cfg tInit p op := by
  unfold RevertsOnSilence ClockFits
  apply forall_congr'
  rintro rfl
  apply forall_congr'
  intro hsession
  rw [reverted_iff cfg hsession, hp]
  cases p.2 with
  | none =>
    rw [Option.getD_none, Option.getD_none, UInt32.sub_zero]
    exact ⟨fun h _ => h, fun h => h rfl⟩
  | some time =>
    apply iff_of_true
    · exact Iff.rfl
    · exact nofun

/-- The S3 timer fires exactly on silence, in any run from `uds_init` at the time `tInit`, as long as
`uds_process` finds no other session before the first message or the clock tells the same from 0 as
from `tInit`. -/
theorem s3_on_silence_iff (cfg : Config W) (b : Sys W) (tInit : UInt32) (ops : List (Op W)) :
    let start := ((udsInit cfg).final b, none)
    Along (recorded (step cfg) (heard cfg)) (RevertsOnSilence cfg tInit) start ops ↔
      Along (recorded (step cfg) (heard cfg)) (ClockFits cfg tInit) start ops := by
  intro start
  apply along_congr (I := fun p => p.1.ctx.lastMsgTime = p.2.getD 0)
  · exact fun p op hp _ => step_heard op hp
  · exact fun p op hp => step_reverts_iff tInit p op hp
  · change ((udsInit cfg).final b).ctx.lastMsgTime = 0
    rw [(udsInit_parts cfg b).1]
    split_ifs <;> rfl

/-- The extended session is restored when the clock is at 6000, and gone at the first call. -/
theorem restored_session_dropped :
    let b : Sys UInt32 := { powerOn with world := 6000 }
    let s := (udsInit nvmRestart).final b
    s.ctx.pair = (3, 0) ∧ processTime nvmRestart s = 6000 ∧
      (step nvmRestart s .process).1.ctx.pair = (1, 0) ∧
      ¬ Along (recorded (step nvmRestart) (heard nvmRestart)) (RevertsOnSilence nvmRestart 6000)
        (s, none) [.process] := by
  intro b s
  have hdropped : (step nvmRestart s .process).1.ctx.pair = (1, 0) := by decide
  refine ⟨by decide, by decide, hdropped, fun h => ?_⟩
  have hsilence := (h.1 rfl (by decide)).mp hdropped
  exact absurd hsilence (by decide)

end UdsLib.Core
