import UdsLib.Core.Api

/-! What the code of the stack is composed of: the writes to the context, one constructor each,
and the other actions. A property that all of them have holds of every handler and of every
call outside the dispatch. -/
namespace UdsLib.Core
open Bytes Machine Prog Services

variable {W : Type}

/-- The writes of the stack to its context, less those to the suppression flag. -/
inductive CtxWrite : (Ctx → Ctx) → Prop where
  | relock : CtxWrite fun c => { c with securityLevel := 0 }
  | session (sub : UInt8)
      (h : sub = sessionIdDefault ∨ sub = sessionIdProgramming ∨ sub = sessionIdExtended) :
      CtxWrite fun c => { c with activeSession := sub }
  | commState (v : UInt8) : CtxWrite fun c => { c with commState := v }
  | flashSequence (v : UInt8) : CtxWrite fun c => { c with flashSequence := v }
  | delayEnd (t : UInt32) : CtxWrite fun c => { c with securityDelayEnd := t }
  | keyAccepted (level : UInt8) :
      CtxWrite fun c => { c with securityAttempts := 0, securityLevel := level }
  | keyRejected : CtxWrite fun c => { c with securityAttempts := c.securityAttempts + 1 }
  | stopAll : CtxWrite fun c => { c with periodicIds := fun _ => 0, periodicCount := 0 }
  | stopId (id : UInt8) : CtxWrite (stopId id)
  | rate (j : Fin 8) (mode : UInt8) :
      CtxWrite fun c => { c with periodicRates := Function.update c.periodicRates j mode }
  | slot (j : Fin 8) (id mode : UInt8) :
      CtxWrite fun c =>
        { c with
          periodicIds := Function.update c.periodicIds j id
          periodicRates := Function.update c.periodicRates j mode }
  | register (j : Fin 8) (now : UInt32) :
      CtxWrite fun c =>
        { c with
          periodicTimers := Function.update c.periodicTimers j now
          periodicCount := c.periodicCount + 1 }
  | reschedule (i : Fin 8) (now : UInt32) (rate : UInt8) :
      CtxWrite fun c =>
        { c with periodicTimers := Function.update c.periodicTimers i (now + intervalOf rate) }
  | endPending : CtxWrite fun c => { c with p2MsgPending := false }
  | startPending : CtxWrite fun c => { c with p2MsgPending := true, p2StarActive := true }
  | pendingSince (now : UInt32) (sid : UInt8) :
      CtxWrite fun c => { c with p2TimerStart := now, pendingSid := sid }
  | repeatPending (now : UInt32) :
      CtxWrite fun c =>
        { c with rcrrpCount := c.rcrrpCount + 1, p2StarActive := true, p2TimerStart := now }
  | limitReached : CtxWrite fun c => { c with rcrrpCount := 0 }
  | sessionTimeout :
      CtxWrite fun c => { c with activeSession := sessionIdDefault, securityLevel := 0 }
  | request (sid : UInt8) (cb : Option ℕ) :
      CtxWrite fun c => { c with pendingSid := sid, clientCb := cb }
  | received (now : UInt32) : CtxWrite fun c => { c with lastMsgTime := now }
  | callbackDone : CtxWrite fun c => { c with clientCb := none }
  | answered : CtxWrite fun c => { c with pendingSid := 0 }
  | newRequest (now : UInt32) :
      CtxWrite fun c =>
        { c with
          p2TimerStart := now, p2MsgPending := false, p2StarActive := false, rcrrpCount := 0 }

/-- The actions of the stack outside the dispatch. Those that suppress a response are there
only under the condition `B`. -/
inductive Action (cfg : Config W) (B : Prop) : (α : Type) → M W α → Prop where
  | reads {α : Type} (f : Sys W → α) : Action cfg B α (Prog.reads f)
  | outside (f : Sys W → Sys W) (h : ∀ s, (f s).ctx = s.ctx) : Action cfg B Unit (Prog.modify f)
  | setCtx {f : Ctx → Ctx} (h : CtxWrite f) : Action cfg B Unit (Core.setCtx f)
  | getTime : Action cfg B UInt32 (Core.getTime cfg)
  | invoke (c : Call) : Action cfg B Reply (Core.invoke cfg c)
  | byteAt (d : Sdu) (i : ℕ) : Action cfg B UInt8 (Core.byteAt d i)
  | bytesAt (d : Sdu) (off n : ℕ) : Action cfg B (List UInt8) (Core.bytesAt d off n)
  | writeTx (off : ℕ) (bs : List UInt8) : Action cfg B Unit (Core.writeTx cfg off bs)
  | fault (f : Fault) : Action cfg B Unit (emit (.fault f))
  | requested (sid : UInt8) (ret : ℤ) : Action cfg B Unit (emit (.requested sid ret))
  | responseCb (cb : ℕ) (sid : UInt8) (data : Slice) :
      Action cfg B Unit (emit (.responseCb cb sid data))
  | tpSend {origin : Origin} (h : origin ≠ .response) (len : ℕ) :
      Action cfg B ℤ (Core.tpSend cfg origin len)
  | sendResponse (len : UInt16) : Action cfg B ℤ (Core.sendResponse cfg len)
  | setSuppress (h : B) : Action cfg B Unit Services.setSuppress
  | withhold (h : B) : Action cfg B Unit (emit .withheld)

/-- `m` is composed of such actions. -/
abbrev Steps (cfg : Config W) (B : Prop) {α : Type} (m : M W α) : Prop :=
  Composed (Action cfg B) m

namespace Steps

variable {cfg : Config W} {B : Prop} {α β : Type} {m : M W α} {f : α → M W β}

theorem optional {c : Prop} [Decidable c] {m : M W Unit} (hm : c → Steps cfg B m) :
    Steps cfg B (onlyIf c m) :=
  .ite hm fun _ => .pure ()

theorem first (h : Action cfg B α m) (hf : ∀ a, Steps cfg B (f a)) : Steps cfg B (m >>= f) :=
  .bind (.act h) fun _ => hf _

/-- A read of the request continues with the byte that is there. -/
theorem byte {d : Sdu} {i : ℕ} {f : UInt8 → M W β} (h : Steps cfg B (f (d.byte i))) :
    Steps cfg B (byteAt d i >>= f) :=
  .bind (.act (.byteAt d i)) fun _ => h

theorem write {g : Ctx → Ctx} {f : Unit → M W β} (hg : CtxWrite g) (h : Steps cfg B (f ())) :
    Steps cfg B (setCtx g >>= f) :=
  first (.setCtx hg) fun _ => h

theorem ctx {f : Ctx → M W β} (h : ∀ c, Steps cfg B (f c)) : Steps cfg B (getCtx >>= f) :=
  first (.reads _) h

theorem call {c : Call} {f : Reply → M W β} (h : ∀ r, Steps cfg B (f r)) :
    Steps cfg B (invoke cfg c >>= f) :=
  first (.invoke c) h

theorem invokeVoid (c : Call) : Steps cfg B (invokeVoid cfg c) := call fun _ => .pure ()

theorem internalLog (level : UInt8) (msg : String) :
    Steps cfg B (internalLog cfg level msg) :=
  optional fun _ => invokeVoid _

theorem mutexLock : Steps cfg B (mutexLock cfg) := optional fun _ => invokeVoid _

theorem mutexUnlock : Steps cfg B (mutexUnlock cfg) := optional fun _ => invokeVoid _

theorem sendNrc (sid nrc : UInt8) : Steps cfg B (sendNrc cfg sid nrc) := by
  unfold Core.sendNrc
  refine .ite (fun _ => .pure _) fun _ => ctx fun _ => ?_
  refine .bind (optional fun _ => .act (.setCtx .endPending)) fun _ => ?_
  exact first (.writeTx _ _) fun _ => .act (.tpSend (by decide) _)

theorem reject (sid nrc : UInt8) : Steps cfg B (reject cfg sid nrc) :=
  .bind (sendNrc sid nrc) fun _ => .pure ()

theorem safetyGate (sid : UInt8) (d : Sdu) : Steps cfg B (safetyGate cfg sid d) :=
  .ite (fun _ => .pure _) fun _ => call fun _ => .pure _

theorem clientRequest (sid : UInt8) (data : Buf) (cb : Option ℕ) :
    Steps cfg B (clientRequest cfg sid data cb) := by
  have hbody : Steps cfg B (requestBody cfg sid data cb) := by
    unfold requestBody
    refine .ite (fun _ => .pure _) fun _ => .ite (fun _ => .pure _) fun _ => ?_
    refine .bind mutexLock fun _ => write (.request sid cb) ?_
    refine first (.writeTx _ _) fun _ => first (.writeTx _ _) fun _ => ?_
    exact first (.tpSend (by decide) _) fun _ => .bind mutexUnlock fun _ => .pure _
  exact .bind hbody fun _ => first (.requested _ _) fun _ => .pure _

theorem runApp (p : AppProg W) : Steps cfg B (runApp cfg p) := by
  induction p with
  | done res => exact .pure res
  | look k ih => exact first (.reads _) fun _ => ih _ _
  | put w k ih => exact first (.outside _ fun _ => rfl) fun _ => ih
  | fill off bytes k ih => exact first (.outside _ fun _ => rfl) fun _ => ih
  | sendResponse len k ih => exact first (.sendResponse len) fun _ => ih _
  | sendNrc sid nrc k ih => exact .bind (sendNrc sid nrc) fun _ => ih _
  | clientRequest sid data cb k ih => exact .bind (clientRequest sid data cb) fun _ => ih _

theorem runResponseCb (d : Sdu) : Steps cfg B (runResponseCb cfg d) := by
  unfold Core.runResponseCb
  refine ctx fun c => ?_
  split
  · exact .pure ()
  · refine first (.responseCb _ _ _) fun _ => .bind (runApp _) fun _ => ?_
    exact .act (.setCtx .callbackDone)

theorem schedule (now : UInt32) (i : Fin 8) : Steps cfg B (schedule cfg now i) := by
  unfold Core.schedule
  refine ctx fun c => optional fun _ => call fun _ => .bind (optional fun _ => ?_) fun _ => ?_
  · refine .bind (optional fun _ => .act (.fault _)) fun _ => ?_
    refine first (.writeTx _ _) fun _ => first (.writeTx _ _) fun _ => ?_
    exact first (.tpSend (by decide) _) fun _ => .pure ()
  · exact .act (.setCtx (.reschedule _ _ _))

theorem scheduleAll (now : UInt32) (is : List (Fin 8)) : Steps cfg B (scheduleAll cfg now is) := by
  induction is with
  | nil => exact .pure ()
  | cons i is ih => exact .bind (schedule now i) fun _ => ih

theorem udsProcess : Steps cfg B (udsProcess cfg) := by
  have hs3 (now : UInt32) : Steps cfg B (checkS3 cfg now) :=
    ctx fun _ => optional fun _ => write .sessionTimeout (internalLog _ _)
  have hfinish (now : UInt32) : Steps cfg B (finishProcess cfg now) :=
    ctx fun _ => .bind (optional fun _ => scheduleAll _ _) fun _ => mutexUnlock
  unfold Core.udsProcess
  refine .bind mutexLock fun _ => first .getTime fun now => .bind (hs3 now) fun _ => ?_
  refine ctx fun _ => .ite (fun _ => .ite (fun _ => ?_) fun _ => ?_) fun _ => hfinish now
  · exact .bind (sendNrc _ _) fun _ => write .limitReached (.pure ())
  · exact .bind (sendNrc _ _) fun _ => write (.repeatPending _) (hfinish now)

end Steps

/-- `execute_handler` is the handler, and behind it the answer to a handler that asks for time. -/
theorem executeHandler_split {cfg : Config W} {d : Sdu} {R : Sys W → List Event → Sys W → Prop}
    (hR : Composable R) (hbyte : Keeps R (byteAt d 0))
    (hnrc : ∀ sid, Keeps R (sendNrc cfg sid nrcResponsePending)) (htime : Keeps R (getTime cfg))
    (hstart : Keeps R (setCtx fun c => { c with p2MsgPending := true, p2StarActive := true }))
    (hsince : ∀ now sid, Keeps R (setCtx fun c => { c with p2TimerStart := now, pendingSid := sid }))
    (service : Service W) (s : Sys W) :
    ∃ es, (executeHandler cfg service d).outputs s =
        .handler service.sid :: ((service.handler d).outputs s ++ es) ∧
      R ((service.handler d).final s) es ((executeHandler cfg service d).final s) := by
  refine ⟨_, rfl, ?_⟩
  change R _ ((onlyIf _ _).outputs _) ((onlyIf _ _).final ((service.handler d).final s))
  apply Keeps.ite
  · intro _
    apply hR.bind hbyte
    intro _
    apply hR.bind (hnrc _)
    intro _
    apply hR.bind hstart
    intro _
    exact hR.bind htime fun _ => hsince _ _
  · exact fun _ => hR.refl

/-- A handler that does not defer its answer is all that `execute_handler` is. -/
theorem executeHandler_done (cfg : Config W) (service : Service W) (d : Sdu) {s : Sys W}
    (h : (service.handler d).value s ≠ udsPending) :
    (executeHandler cfg service d).final s = (service.handler d).final s ∧
      (executeHandler cfg service d).outputs s =
        .handler service.sid :: (service.handler d).outputs s := by
  unfold executeHandler
  rw [final_bind, final_bind, final_onlyIf, outputs_bind, outputs_bind, outputs_onlyIf, final_emit,
    if_neg h, if_neg h, List.append_nil]
  exact ⟨rfl, rfl⟩

end UdsLib.Core
