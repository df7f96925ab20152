import UdsLib.Core.Frame
import UdsLib.Core.Arrival

/-! `uds_process` part by part: it looks at the clock, runs the S3 timer, answers for the request
in progress when its deadline has passed, and works off the periodic scheduler. -/
namespace UdsLib.Core
open Bytes Machine Prog

variable {W : Type} {cfg : Config W}

/-- The S3 timer has run out at the time `now`. -/
def s3Passed (c : Ctx) (now : UInt32) : Prop :=
  c.activeSession ≠ sessionIdDefault ∧ now - c.lastMsgTime > 5000

instance (c : Ctx) (now : UInt32) : Decidable (s3Passed c now) :=
  inferInstanceAs (Decidable (_ ∧ _))

/-- The time at which `uds_process` looks at the clock. -/
def processTime (cfg : Config W) (s : Sys W) : UInt32 :=
  (getTime cfg).value ((mutexLock cfg).final s)

/-- The state behind the S3 timer. -/
def ticked (cfg : Config W) (s : Sys W) : Sys W :=
  (checkS3 cfg (processTime cfg s)).final ((getTime cfg).final ((mutexLock cfg).final s))

/-- The part of `uds_process` behind the S3 timer, for the context before the call. -/
def answerInTime (cfg : Config W) (c : Ctx) (now : UInt32) : M W Unit :=
  if deadlinePassed c now then
    if rcrrpExhausted cfg c then do
      let _ ← sendNrc cfg c.pendingSid nrcConditionsNotCorrect
      setCtx fun c => { c with rcrrpCount := 0 }
    else do
      let _ ← sendNrc cfg c.pendingSid nrcResponsePending
      setCtx fun c =>
        { c with rcrrpCount := c.rcrrpCount + 1, p2StarActive := true, p2TimerStart := now }
      finishProcess cfg now
  else finishProcess cfg now

/-- The events in front of the answer. -/
def Event.isTick : Event → Bool
  | .time _ => true
  | .call (.log _ _) _ => true
  | _ => false

/-- The events of the periodic scheduler. -/
def Event.isPeriodic : Event → Bool
  | .call (.periodicRead _ _) _ => true
  | .fault _ => true
  | .tpSend .periodic _ _ => true
  | _ => false

/-- The timers of the periodic slots are all that changes in the context. -/
structure Scheduled (s : Sys W) (es : List Event) (t : Sys W) : Prop where
  ctx : t.ctx = { s.ctx with periodicTimers := t.ctx.periodicTimers }
  mem : t.mem = s.mem
  events : ∀ e ∈ es, e.isPeriodic = true

theorem scheduled_composable : Composable (Scheduled (W := W)) where
  refl _ := ⟨rfl, rfl, nofun⟩
  trans h hnext := by
    constructor
    · rw [hnext.ctx, h.ctx]
    · exact hnext.mem.trans h.mem
    · exact List.forall_mem_append.mpr ⟨h.events, hnext.events⟩

theorem Scheduled.single {s : Sys W} {e : Event} {tx : ℕ → UInt8} {world : W}
    (he : e.isPeriodic = true) : Scheduled s [e] { s with tx := tx, world := world } :=
  ⟨rfl, rfl, fun _ hx => List.mem_singleton.mp hx ▸ he⟩

theorem writeTx_scheduled (off : ℕ) (bs : List UInt8) : Keeps Scheduled (writeTx cfg off bs) := by
  intro s
  refine ⟨rfl, rfl, fun e he => ?_⟩
  obtain ⟨f, rfl⟩ := writeTx_faults s he
  rfl

theorem schedule_scheduled (now : UInt32) (i : Fin 8) :
    Keeps Scheduled (schedule cfg now i) := by
  have hR := scheduled_composable (W := W)
  have hfault (f : Fault) (c : Prop) [Decidable c] :
      Keeps (Scheduled (W := W)) (onlyIf c (emit (.fault f))) :=
    Keeps.ite (fun _ s => .single rfl) fun _ => hR.refl
  have hsend (bs cs : List UInt8) (len : ℕ) : Keeps Scheduled (do
      writeTx cfg 0 bs
      writeTx cfg 1 cs
      let _ ← tpSend cfg .periodic len
      return ()) := by
    apply hR.bind (writeTx_scheduled 0 bs)
    intro _
    apply hR.bind (writeTx_scheduled 1 cs)
    intro _
    exact hR.bind (fun s => .single rfl) fun _ => hR.refl
  unfold schedule
  have hctx : Keeps (Scheduled (W := W)) getCtx := hR.refl
  apply hR.bind hctx
  intro t
  refine Keeps.ite (fun _ => ?_) fun _ => hR.refl
  refine hR.bind (fun s => .single rfl) fun u => hR.bind ?_ fun _ s => ⟨rfl, rfl, nofun⟩
  exact Keeps.ite (fun _ => hR.bind (hfault _ _) fun _ => hsend _ _ _) fun _ => hR.refl

theorem scheduleAll_scheduled (now : UInt32) (is : List (Fin 8)) :
    Keeps Scheduled (scheduleAll cfg now is) := by
  induction is with
  | nil => exact scheduled_composable.refl
  | cons i is ih => exact scheduled_composable.bind (schedule_scheduled now i) fun _ => ih

/-- The end of `uds_process`: the scheduler, and behind it the unlock. -/
theorem finishProcess_parts (cfg : Config W) (now : UInt32) (s : Sys W) : ∃ es t,
    Scheduled s es t ∧ (finishProcess cfg now).final s = (mutexUnlock cfg).final t ∧
      (finishProcess cfg now).outputs s = es ++ (mutexUnlock cfg).outputs t := by
  have hsched : Keeps Scheduled (onlyIf (s.ctx.periodicCount > 0)
      (scheduleAll cfg now (List.finRange 8))) :=
    Keeps.ite (fun _ => scheduleAll_scheduled now _) fun _ => scheduled_composable.refl
  exact ⟨_, _, hsched s, rfl, rfl⟩

/-- What the S3 timer does. -/
theorem checkS3_parts (cfg : Config W) (now : UInt32) (s : Sys W) :
    let t := (checkS3 cfg now).final s
    t = { s with world := t.world, ctx := if s3Passed s.ctx now then
        { s.ctx with activeSession := sessionIdDefault, securityLevel := 0 } else s.ctx } ∧
      ∀ e ∈ (checkS3 cfg now).outputs s, e.isTick = true := by
  have hlog (u : Sys W) :
      let log := internalLog cfg logInfo "S3 Timeout: Reverted to Default Session"
      log.final u = { u with world := (log.final u).world } ∧
        ∀ e ∈ log.outputs u, e.isTick = true := by
    dsimp only [internalLog, onlyIf]
    split_ifs
    · exact ⟨rfl, fun e he => List.mem_singleton.mp he ▸ rfl⟩
    · exact ⟨rfl, nofun⟩
  unfold checkS3
  rw [final_getCtx_bind, outputs_getCtx_bind, final_onlyIf, outputs_onlyIf]
  by_cases h : s3Passed s.ctx now
  · have h' : s.ctx.activeSession ≠ sessionIdDefault ∧ now - s.ctx.lastMsgTime > 5000 := h
    rw [if_pos h', if_pos h', if_pos h]
    exact hlog _
  · have h' : ¬ (s.ctx.activeSession ≠ sessionIdDefault ∧ now - s.ctx.lastMsgTime > 5000) := h
    rw [if_neg h', if_neg h', if_neg h]
    exact ⟨rfl, nofun⟩

theorem ticked_ctx (cfg : Config W) (s : Sys W) : (ticked cfg s).ctx =
    if s3Passed s.ctx (processTime cfg s) then
      { s.ctx with activeSession := sessionIdDefault, securityLevel := 0 }
    else s.ctx := by
  have hctx : ((getTime cfg).final ((mutexLock cfg).final s)).ctx = s.ctx := mutexLock_ctx cfg s
  unfold ticked
  rw [(checkS3_parts cfg _ _).1, hctx]

/-- The events of the S3 timer. -/
def s3Events (cfg : Config W) (s : Sys W) : List Event :=
  (checkS3 cfg (processTime cfg s)).outputs ((getTime cfg).final ((mutexLock cfg).final s))

/-- `uds_process` is the lock, the clock, the S3 timer and then `answerInTime`. -/
theorem udsProcess_run (cfg : Config W) (s : Sys W) :
    let rest := answerInTime cfg s.ctx (processTime cfg s)
    (udsProcess cfg).final s = rest.final (ticked cfg s) ∧
      (udsProcess cfg).outputs s = (mutexLock cfg).outputs s ++
        (.time (processTime cfg s) :: (s3Events cfg s ++ rest.outputs (ticked cfg s))) := by
  let now := processTime cfg s
  intro rest
  have hctx := ticked_ctx cfg s
  have hdead : deadlinePassed (ticked cfg s).ctx now = deadlinePassed s.ctx now := by
    rw [hctx]
    split_ifs <;> rfl
  have hlimit : rcrrpExhausted cfg (ticked cfg s).ctx = rcrrpExhausted cfg s.ctx := by
    rw [hctx]
    split_ifs <;> rfl
  have hsid : (ticked cfg s).ctx.pendingSid = s.ctx.pendingSid := by
    rw [hctx]
    split_ifs <;> rfl
  have hrest : rest = answerInTime cfg (ticked cfg s).ctx now := by
    unfold rest answerInTime
    rw [hdead, hlimit, hsid]
  unfold udsProcess
  rw [hrest]
  unfold answerInTime
  constructor
  · rw [final_bind, final_bind, final_bind, final_getCtx_bind]
    rfl
  · rw [outputs_bind, outputs_bind, outputs_bind, outputs_getCtx_bind]
    rfl

theorem udsProcess_parts (cfg : Config W) (s : Sys W) :
    let now := processTime cfg s
    let rest := answerInTime cfg s.ctx now
    (udsProcess cfg).final s = rest.final (ticked cfg s) ∧
      ∃ pre : List Event, (∀ e ∈ pre, e.isTick = true) ∧
        (udsProcess cfg).outputs s =
          (mutexLock cfg).outputs s ++ (pre ++ rest.outputs (ticked cfg s)) := by
  intro now rest
  obtain ⟨hfinal, houtputs⟩ := udsProcess_run cfg s
  have hs3 : ∀ e ∈ s3Events cfg s, e.isTick = true := (checkS3_parts cfg _ _).2
  exact ⟨hfinal, _, List.forall_mem_cons.mpr ⟨rfl, hs3⟩, houtputs⟩

end UdsLib.Core
