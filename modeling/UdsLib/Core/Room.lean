import UdsLib.Core.Attempts
import UdsLib.Services.Room

/-! The transmit buffer over whole runs: what is written stays in it, and callbacks are told the room
that is left, as long as no request and no periodic message needs more than the buffer has. -/
namespace UdsLib.Core
open Bytes Machine Prog Services

variable {W : Type} {cfg : Config W} {d : Sdu} {s t u : Sys W} {es fs : List Event}

/-- The core service whose handler runs on a message, and the state in which it starts. -/
def servedBy (cfg : Config W) (s : Sys W) (d : Sdu) : Option (Service W × Sys W) :=
  if d.bytes ≠ [] ∧ s.ctx.p2MsgPending = false ∧ ¬ takesAsAnswer s.ctx d ∧
      ∀ entry ∈ cfg.userServices, entry.sid ≠ d.byte 0 then
    (reached cfg d s).map fun service => (service, atHandler cfg service d (entered cfg s))
  else none

/-- What `fn_periodic_read` returns. -/
def Event.periodicReply? : Event → Option ℤ
  | .call (.periodicRead _ _) ret => some ret
  | _ => none

/-- The periodic message with the data of this reply fits. -/
def ReplyFits (cfg : Config W) (e : Event) : Prop :=
  ∀ ret ∈ e.periodicReply?, 0 < ret → 1 + ret.toNat ≤ cfg.txBufferSize.toNat

/-- The condition for a call: the handler that a request reaches has the room it needs, and so has
the scheduler for what `fn_periodic_read` returns. -/
def RoomFor (cfg : Config W) (s : Sys W) : Op W → Prop
  | .inputSdu (.bytes d) => ∀ served ∈ servedBy cfg s d,
    roomOf cfg served.2 d served.1.sid ≤ cfg.txBufferSize.toNat
  | .process => ∀ e ∈ (step cfg s .process).2, ReplyFits cfg e
  | _ => True

instance (e : Event) : Decidable (ReplyFits cfg e) :=
  inferInstanceAs (Decidable (∀ _ ∈ _, _ → _))

instance (s : Sys W) : (op : Op W) → Decidable (RoomFor cfg s op)
  | .inputSdu (.bytes _) => inferInstanceAs (Decidable (∀ _ ∈ _, _ ≤ _))
  | .process => inferInstanceAs (Decidable (∀ _ ∈ _, ReplyFits _ _))
  | .inputSdu (.null _) => isTrue trivial
  | .clientRequest _ _ _ => isTrue trivial
  | .fill _ _ => isTrue trivial
  | .sendResponse _ => isTrue trivial
  | .sendNrc _ _ => isTrue trivial
  | .elapse _ => isTrue trivial

/-! ### Requests -/

theorem servedBy_runs {service : Service W} (h : servedBy cfg s d = some (service, u)) :
    Runs cfg s d service u ((service.handler d).final u) ((service.handler d).outputs u) := by
  unfold servedBy at h
  split_ifs at h with hchecks
  obtain ⟨hne, hidle, hans, hown⟩ := hchecks
  obtain ⟨found, hreached, hpair⟩ := Option.map_eq_some_iff.mp h
  obtain ⟨rfl, rfl⟩ := Prod.mk.inj hpair
  obtain ⟨hcore, hsid⟩ := (reached_chosen hreached).of_core hown
  exact Runs.of_reached hidle hans hne hreached hcore hown hsid

theorem Runs.servedBy {service : Service W} {v : Sys W} (h : Runs cfg s d service u v es) :
    Core.servedBy cfg s d = some (service, u) := by
  unfold Core.servedBy
  rw [if_pos ⟨h.nonempty, h.idle, h.request, h.own⟩, h.reached, h.start]
  rfl

/-- The events in front of a handler and behind it have nothing to do with the buffer. -/
theorem Runs.inRoom_iff {service : Service W} {v : Sys W} (hobey : Obedient cfg)
    (h : Runs cfg s d service u v es) :
    (∀ e ∈ (step cfg s (.inputSdu (.bytes d))).2, InRoom cfg e) ↔
      roomOf cfg u d service.sid ≤ cfg.txBufferSize.toNat := by
  obtain ⟨pre, post, hes, hpre, hpost⟩ := h.split
  have haround {fs : List Event} {a b : Sys W} (hout : Outside cfg d a fs b) :
      ∀ e ∈ fs, InRoom cfg e :=
    fun e he => surround_inRoom (hout.events e he)
  rw [hes, List.forall_mem_append, List.forall_mem_append, and_iff_right (haround hpre),
    and_iff_left (haround hpost), h.outputs]
  exact handler_room hobey service h.core h.length

/-! ### The periodic scheduler -/

/-- The events stay in the room exactly if the replies fit. -/
def Matched (cfg : Config W) (es : List Event) : Prop :=
  (∀ e ∈ es, InRoom cfg e) ↔ ∀ e ∈ es, ReplyFits cfg e

theorem matched_composable :
    Composable (fun (_ : Sys W) es (_ : Sys W) => Matched cfg es) where
  refl _ := iff_of_true nofun nofun
  trans h hnext := by
    unfold Matched
    rw [List.forall_mem_append, List.forall_mem_append]
    exact and_congr h hnext

theorem replyFits_other {e : Event} (he : e.periodicReply? = none) : ReplyFits cfg e := by
  intro ret hret
  rw [he] at hret
  cases hret

theorem replyFits_read {id : UInt8} {len : UInt16} {ret : ℤ} :
    ReplyFits cfg (.call (.periodicRead id len) ret) ↔
      (0 < ret → 1 + ret.toNat ≤ cfg.txBufferSize.toNat) := by
  constructor
  · exact fun h => h ret rfl
  · intro h r hr
    obtain rfl := Option.some.inj hr
    exact h

theorem Surround.replyFits {e : Event} (he : Surround cfg d e) : ReplyFits cfg e := by
  apply replyFits_other
  cases e with
  | call call ret =>
    rcases he.2 with hlock | ⟨level, msg, rfl⟩ | ⟨sid, rfl⟩
    · cases call with
      | periodicRead id len => cases hlock
      | _ => rfl
    · rfl
    · rfl
  | _ => rfl

theorem outside_matched {α : Type} {m : M W α} (hm : Keeps (Outside cfg d) m) :
    Keeps (fun _ es _ => Matched cfg es) m := by
  intro s
  have hevents := (hm s).events
  exact iff_of_true (fun e he => surround_inRoom (hevents e he)) fun e he => (hevents e he).replyFits

/-- The message of a periodic read. -/
def sendPeriodic (cfg : Config W) (id : UInt8) (reply : Reply) : M W Unit := do
  onlyIf (reply.ret > 8) do
    emit (.fault (.outBufRead reply.ret))
  writeTx cfg 0 [id]
  writeTx cfg 1 (slice (fun k => reply.out.getD k 0) 0 reply.ret.toNat)
  let _ ← tpSend cfg .periodic (lenOf (reply.ret + 1)).toNat
  return ()

theorem sendPeriodic_fits (id : UInt8) {reply : Reply} (hret : 0 < reply.ret) :
    Fits cfg (sendPeriodic cfg id reply) s ↔ 1 + reply.ret.toNat ≤ cfg.txBufferSize.toNat := by
  have hsent (t : Sys W) : Fits cfg (do
      let _ ← tpSend cfg .periodic (lenOf (reply.ret + 1)).toNat
      return ()) t := by
    rw [fits_then (fits_free rfl rfl)]
    exact fits_pure ()
  unfold sendPeriodic
  have hdata : slice (fun k => reply.out.getD k 0) 0 reply.ret.toNat ≠ [] :=
    List.ne_nil_of_length_pos (by rw [slice_length]; omega)
  rw [fits_onlyIf (fits_free rfl rfl), fits_write, fits_write, and_iff_left (hsent _), slice_length,
    or_iff_right hdata]
  exact and_iff_right_of_imp fun h => Or.inr ((Nat.le_add_right 1 _).trans h)

/-- No reply of the application is asked for on the way. -/
theorem sendPeriodic_replies (id : UInt8) (reply : Reply) :
    Emits (ReplyFits cfg) (sendPeriodic cfg id reply) s := by
  have hwrite (off : ℕ) (bs : List UInt8) (t : Sys W) :
      Emits (ReplyFits cfg) (writeTx cfg off bs) t := by
    intro e he
    obtain ⟨f, rfl⟩ := writeTx_faults t he
    exact replyFits_other rfl
  have hfault : Emits (ReplyFits cfg)
      (onlyIf (reply.ret > 8) (emit (.fault (.outBufRead reply.ret)))) s := by
    unfold onlyIf
    split_ifs
    · exact List.forall_mem_singleton.mpr (replyFits_other rfl)
    · exact emits_pure ()
  have hsent (n : ℕ) (t : Sys W) : Emits (ReplyFits cfg) (tpSend cfg .periodic n) t :=
    List.forall_mem_singleton.mpr (replyFits_other rfl)
  unfold sendPeriodic
  rw [emits_then hfault, emits_then (hwrite _ _ _), emits_then (hwrite _ _ _)]
  exact emits_bind.mpr ⟨hsent _ _, emits_pure ()⟩

theorem schedule_eq (cfg : Config W) (now : UInt32) (i : Fin 8) : schedule cfg now i = (do
    let ctx ← getCtx
    onlyIf (ctx.periodicIds i ≠ 0 ∧ now ≥ ctx.periodicTimers i) do
      let reply ← invoke cfg (.periodicRead (ctx.periodicIds i) 8)
      onlyIf (reply.ret > 0) (sendPeriodic cfg (ctx.periodicIds i) reply)
      setCtx fun c =>
        { c with
          periodicTimers :=
            Function.update c.periodicTimers i (now + intervalOf (ctx.periodicRates i)) }) :=
  rfl

/-- A periodic read, and what is done with the reply. -/
theorem periodicRead_matched {id : UInt8} {k : Reply → M W Unit}
    (hfits : ∀ reply t, Fits cfg (k reply) t ↔
      (0 < reply.ret → 1 + reply.ret.toNat ≤ cfg.txBufferSize.toNat))
    (hreplies : ∀ reply t, Emits (ReplyFits cfg) (k reply) t) :
    Keeps (fun _ es _ => Matched cfg es) (invoke cfg (.periodicRead id 8) >>= k) := by
  intro s
  change Fits cfg _ s ↔ Emits (ReplyFits cfg) _ s
  rw [fits_call rfl, emits_bind, emits_single rfl, and_iff_left (hreplies _ _), replyFits_read]
  exact hfits _ _

theorem schedule_matched (now : UInt32) (i : Fin 8) :
    Keeps (fun _ es _ => Matched cfg es) (schedule cfg now i) := by
  rw [schedule_eq]
  apply keeps_ctx
  intro c
  apply Keeps.ite
  · intro _
    apply periodicRead_matched
    · intro reply t
      rw [fits_bind, and_iff_left (setCtx_fits _)]
      unfold onlyIf
      split_ifs with hret
      · rw [sendPeriodic_fits _ hret]
        exact (imp_iff_right hret).symm
      · exact iff_of_true (fits_pure ()) fun h => absurd h hret
    · intro reply t
      refine emits_bind.mpr ⟨?_, nofun⟩
      unfold onlyIf
      split_ifs
      · exact sendPeriodic_replies _ _
      · exact emits_pure ()
  · exact fun _ => matched_composable.refl

theorem scheduleAll_matched (now : UInt32) (is : List (Fin 8)) :
    Keeps (fun _ es _ => Matched cfg es) (scheduleAll cfg now is) := by
  induction is with
  | nil => exact matched_composable.refl
  | cons i is ih => exact matched_composable.bind (schedule_matched now i) fun _ => ih

theorem finishProcess_matched (now : UInt32) :
    Keeps (fun _ es _ => Matched cfg es) (finishProcess cfg now) := by
  apply keeps_ctx
  intro c
  apply matched_composable.bind
  · exact Keeps.ite (fun _ => scheduleAll_matched now _) fun _ => matched_composable.refl
  · exact fun _ => outside_matched (d := noMessage) mutexUnlock_outside

theorem process_matched : Keeps (fun _ es _ => Matched cfg es) (udsProcess cfg) := by
  have hR : Composable (fun (_ : Sys W) es (_ : Sys W) => Matched cfg es) := matched_composable
  have hnone {α : Type} {m : M W α} (hm : Keeps (Outside cfg noMessage) m) :
      Keeps (fun _ es _ => Matched cfg es) m := outside_matched hm
  have hset (g : Ctx → Ctx) : Keeps (fun _ es _ => Matched cfg es) (setCtx g : M W Unit) :=
    fun _ => iff_of_true nofun nofun
  have hs3 (now : UInt32) : Keeps (fun _ es _ => Matched cfg es) (checkS3 cfg now) := by
    apply keeps_ctx
    intro c
    apply Keeps.ite
    · exact fun _ => hR.bind (hset _) fun _ => hnone (internalLog_outside _ _)
    · exact fun _ => hR.refl
  unfold udsProcess
  apply hR.bind (hnone mutexLock_outside)
  intro _
  apply hR.bind
  · exact hnone fun _ => .single rfl trivial
  intro _
  apply hR.bind (hs3 _)
  intro _
  apply keeps_ctx
  intro c
  apply Keeps.ite
  · intro _
    apply Keeps.ite
    · intro _
      apply hR.bind (hnone (sendNrc_outside _ _))
      exact fun _ => hR.discard (hset _)
    · intro _
      apply hR.bind (hnone (sendNrc_outside _ _))
      intro _
      exact hR.bind (hset _) fun _ => finishProcess_matched _
  · exact fun _ => finishProcess_matched _

/-! ### Calls and runs -/

/-- A call stays in the room exactly under its condition. -/
theorem step_inRoom (hobey : Obedient cfg) (s : Sys W) (op : Op W) :
    (∀ e ∈ (step cfg s op).2, InRoom cfg e) ↔ RoomFor cfg s op := by
  have hquiet (hout : Outside cfg op.sdu s (step cfg s op).2 (step cfg s op).1) :
      ∀ e ∈ (step cfg s op).2, InRoom cfg e :=
    fun e he => surround_inRoom (hout.events e he)
  cases step_footprint cfg s op with
  | process hop _ _ =>
    subst hop
    exact process_matched s
  | handler d service pre mid post u v hop hruns _ _ _ =>
    subst hop
    have hcondition : RoomFor cfg s (.inputSdu (.bytes d)) ↔
        roomOf cfg u d service.sid ≤ cfg.txBufferSize.toNat := by
      change (∀ served ∈ servedBy cfg s d, _) ↔ _
      rw [hruns.servedBy]
      simp
    rw [hcondition]
    exact hruns.inRoom_iff hobey
  | outside hout =>
    refine iff_of_true (hquiet hout) ?_
    cases op with
    | inputSdu data =>
      cases data with
      | null len => trivial
      | bytes d => exact fun served hserved => ((servedBy_runs hserved).inRoom_iff hobey).mp (hquiet hout)
    | process => exact (process_matched s).mp (hquiet hout)
    | _ => trivial

/-- If callbacks keep to the room they are told, a run writes only inside the transmit buffer, and
tells callbacks only room that there is, exactly if the buffer has at every call the room that the
handler or the scheduler relies on. -/
theorem tx_buffer_in_bounds_iff (cfg : Config W) (s : Sys W) (ops : List (Op W))
    (hobey : Obedient cfg) :
    (∀ e ∈ trace (step cfg) s ops, InRoom cfg e) ↔ Along (step cfg) (RoomFor cfg) s ops := by
  rw [forall_trace_iff]
  exact along_congr (I := fun _ => True) (fun _ _ _ _ => trivial)
    (fun s op _ => step_inRoom hobey s op) trivial

/-- A routine and a periodic data record, with buffers of different sizes. -/
def sizedConfig (txBufferSize : UInt16) : Config Unit :=
  { plainConfig with
    txBufferSize := txBufferSize
    isSet := fun c => c = .fnRoutineControl
    app := fun _ call w =>
      match call with
      | .periodicRead _ _ => (⟨3, [0x0A, 0x0B, 0x0C]⟩, w)
      | _ => (⟨0, []⟩, w) }

theorem sizedConfig_obedient (txBufferSize : UInt16) : Obedient (sizedConfig txBufferSize) := by
  intro ctx call w room hroom
  cases call with
  | periodicRead id len => cases hroom
  | _ => exact Nat.zero_le _

/-- Start a routine. -/
def routineOp : Op Unit := .inputSdu (.bytes ⟨[sidRoutineControl, 0x01, 0x02, 0x03], by decide⟩)

/-- Start a routine and a periodic data record. -/
def routineRun : List (Op Unit) :=
  [routineOp, .inputSdu (.bytes ⟨[0x2A, 0x01, 0xF2], by decide⟩), .process]

theorem routineRun_inRoom :
    let es := trace (step (sizedConfig 8)) (booted (sizedConfig 8)) routineRun
    .call (.periodicRead 0xF2 8) 3 ∈ es ∧ ∀ e ∈ es, InRoom (sizedConfig 8) e := by
  constructor
  · decide +kernel
  · exact (tx_buffer_in_bounds_iff (sizedConfig 8) (booted (sizedConfig 8)) routineRun
      (sizedConfig_obedient 8)).mpr (by decide +kernel)

/-- With 3 bytes the callback is told 65535 bytes behind the end, and the answer goes there, too. -/
theorem routine_out_of_room : Obedient (sizedConfig 3) ∧
    let es := trace (step (sizedConfig 3)) (booted (sizedConfig 3)) [routineOp]
    .call (.routineControl 0x01 0x0203 ⟨4, 0, []⟩ ⟨4, 65535⟩) 0 ∈ es ∧ .fault (.txWrite 3) ∈ es ∧
      ¬ ∀ e ∈ es, InRoom (sizedConfig 3) e := by
  have hwritten : .fault (.txWrite 3) ∈
      trace (step (sizedConfig 3)) (booted (sizedConfig 3)) [routineOp] := by
    decide +kernel
  refine ⟨sizedConfig_obedient 3, by decide +kernel, hwritten, ?_⟩
  exact fun h => h _ hwritten

end UdsLib.Core
