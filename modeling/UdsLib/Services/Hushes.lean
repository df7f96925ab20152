import UdsLib.Core.Hushes
import UdsLib.Services.Composition

/-! The handlers of the services with sub-functions, side by side on a request with bit 7 set and on
the same request without it. All but one mask the bit before they use the byte. -/
namespace UdsLib.Core.Hushes
open Bytes Machine Prog Services

variable {W : Type} {cfg : Config W} {d l q : Sdu}
variable (hcfg : IgnoresBit cfg d) (hlq : Forms l q)

include hcfg in
theorem respond {off : ℕ} {bs bs' : List UInt8} (len : UInt16) :
    Hushes (writeTx cfg off bs >>= fun _ => sendResponse cfg len)
      (writeTx cfg off bs' >>= fun _ => sendResponse cfg len) :=
  write (send hcfg len)

include hlq in
theorem len_eq : q.len = l.len := by
  unfold Sdu.len
  rw [hlq.length]

include hcfg hlq in
theorem testerPresent : Hushes (handleTesterPresent cfg l) (handleTesterPresent cfg q) := by
  unfold handleTesterPresent
  apply byte
  rw [hlq.sub]
  exact ite Iff.rfl (fun _ => respond hcfg _) fun _ => refuse hcfg _ _

include hcfg hlq in
theorem ecuReset : Hushes (handleEcuReset cfg l) (handleEcuReset cfg q) := by
  unfold handleEcuReset
  rw [len_eq hlq]
  apply check hcfg
  intro _
  apply byte
  rw [hlq.sub]
  apply check hcfg
  intro _
  apply suppress (not_not_intro hlq.down) hlq.up
  apply optional fun _ => voidCall hcfg _
  rw [if_neg (not_not_intro hlq.down), if_pos hlq.up]
  exact withhold hcfg _

include hcfg hlq in
theorem commControlled :
    Hushes (Services.commControlled cfg (l.byte 1)) (Services.commControlled cfg (q.byte 1)) := by
  unfold Services.commControlled
  rw [hlq.sub]
  refine assign (fun _ => rfl) (fun _ _ => rfl) ?_
  apply optional fun _ => voidCall hcfg _
  rw [if_neg (not_not_intro hlq.down), if_pos hlq.up]
  exact withhold hcfg _

include hcfg hlq in
theorem commControl : Hushes (handleCommControl cfg l) (handleCommControl cfg q) := by
  unfold handleCommControl
  rw [len_eq hlq]
  apply check hcfg
  intro _
  apply byte
  apply byte
  rw [hlq.sub, hlq.rest 2 (by decide)]
  apply check hcfg
  intro _
  apply check hcfg
  intro _
  apply suppress (not_not_intro hlq.down) hlq.up
  apply ite Iff.rfl
  · intro _
    apply call hcfg
    exact fun reply => check hcfg fun _ => commControlled hcfg hlq
  · exact fun _ => commControlled hcfg hlq

include hcfg hlq in
theorem readDtcInfo : Hushes (handleReadDtcInfo cfg l) (handleReadDtcInfo cfg q) := by
  unfold handleReadDtcInfo
  rw [len_eq hlq]
  apply check hcfg
  intro _
  apply byte
  rw [hlq.sub]
  apply check hcfg
  intro _
  apply check hcfg
  intro _
  apply suppress (not_not_intro hlq.down) hlq.up
  apply callOut hcfg
  intro written
  apply check hcfg
  intro _
  rw [if_neg (not_not_intro hlq.down), if_pos hlq.up]
  exact withhold hcfg _

include hcfg hlq in
theorem controlDtcSetting :
    Hushes (handleControlDtcSetting cfg l) (handleControlDtcSetting cfg q) := by
  unfold handleControlDtcSetting
  rw [len_eq hlq]
  apply check hcfg
  intro _
  apply byte
  rw [hlq.sub]
  apply check hcfg
  intro _
  apply suppress (not_not_intro hlq.down) hlq.up
  exact respond hcfg _

include hcfg in
/-- What `uds_internal_handle_session_control` does behind its answer is the same in both runs. -/
theorem sendThenSave : Hushes
    (sendResponse cfg 6 >>= fun _ => getCtx >>= fun ctx =>
      onlyIf (cfg.isSet .fnNvmSave) (invokeVoid cfg (.nvmSave [ctx.activeSession, ctx.securityLevel]))
        >>= fun _ => pure udsOk)
    (sendResponse cfg 6 >>= fun _ => getCtx >>= fun ctx =>
      onlyIf (cfg.isSet .fnNvmSave) (invokeVoid cfg (.nvmSave [ctx.activeSession, ctx.securityLevel]))
        >>= fun _ => pure udsOk) := by
  intro u v h
  apply muted_congruence.bind (send hcfg 6 u v h)
  rintro _ u' _ v' ⟨-, -, hctx, hmem⟩
  have hpair : u'.ctx.activeSession = v'.ctx.activeSession ∧
      u'.ctx.securityLevel = v'.ctx.securityLevel := by
    rw [hctx]
    exact ⟨rfl, rfl⟩
  refine muted_congruence.bind_at (s := u') (t := v') ⟨rfl, rfl⟩ ?_
  change Twin Muted
    (onlyIf _ (invokeVoid cfg (.nvmSave [u'.ctx.activeSession, u'.ctx.securityLevel])) >>= _)
    (onlyIf _ (invokeVoid cfg (.nvmSave [v'.ctx.activeSession, v'.ctx.securityLevel])) >>= _)
    u' v' Finished
  rw [hpair.1, hpair.2]
  unfold onlyIf
  split_ifs
  · exact ⟨muted_call _ _ _, udsOk_ne_pending, udsOk_ne_pending, hctx, hmem⟩
  · exact ⟨⟨rfl, rfl⟩, udsOk_ne_pending, udsOk_ne_pending, hctx, hmem⟩

include hcfg hlq in
theorem sessionControl : Hushes (handleSessionControl cfg l) (handleSessionControl cfg q) := by
  unfold handleSessionControl
  apply byte
  rw [hlq.sub]
  apply check hcfg
  intro _
  apply ctx
  intro c
  refine optional (fun _ => assigned (fun _ => rfl) fun _ _ => rfl) ?_
  refine assign (fun _ => rfl) (fun _ _ => rfl) ?_
  exact write (sendThenSave hcfg)

include hcfg hlq in
theorem requestSeed :
    Hushes (Services.requestSeed cfg (l.byte 1)) (Services.requestSeed cfg (q.byte 1)) := by
  unfold Services.requestSeed
  rw [hlq.sub]
  apply check hcfg
  intro _
  apply write
  apply callOut hcfg
  intro seedLen
  exact check hcfg fun _ => send hcfg _

include hcfg hlq in
theorem keyAccepted :
    Hushes (Services.keyAccepted cfg (l.byte 1)) (Services.keyAccepted cfg (q.byte 1)) := by
  unfold Services.keyAccepted
  rw [hlq.sub]
  refine assign (fun _ => rfl) (fun _ _ => rfl) ?_
  apply ctx
  intro c
  apply optional fun _ => voidCall hcfg _
  exact respond hcfg _

include hcfg in
theorem keyRejected (now : UInt32) (res : ℤ) :
    Hushes (Services.keyRejected cfg now res) (Services.keyRejected cfg now res) := by
  unfold Services.keyRejected
  refine assign (fun _ => rfl) (fun _ _ => rfl) ?_
  apply ctx
  intro c
  apply ite Iff.rfl
  · intro _
    refine assign (fun _ => rfl) (fun _ _ => rfl) ?_
    exact refuse hcfg _ _
  · exact fun _ => refuse hcfg _ _

include hcfg hlq in
theorem sendKey (now : UInt32) :
    Hushes (Services.sendKey cfg l now (l.byte 1)) (Services.sendKey cfg q now (q.byte 1)) := by
  unfold Services.sendKey
  rw [hlq.sub, len_eq hlq, hlq.slices 2 _ le_rfl]
  apply check hcfg
  intro _
  apply call hcfg
  intro reply
  exact ite Iff.rfl (fun _ => keyAccepted hcfg hlq) fun _ => keyRejected hcfg now _

include hcfg hlq in
theorem securityAccess : Hushes (handleSecurityAccess cfg l) (handleSecurityAccess cfg q) := by
  unfold handleSecurityAccess
  rw [len_eq hlq]
  apply check hcfg
  intro _
  apply time
  intro now
  apply ctx
  intro c
  apply check hcfg
  intro _
  refine assign (fun _ => rfl) (fun _ _ => rfl) ?_
  apply byte
  rw [hlq.sub]
  exact ite Iff.rfl (fun _ => requestSeed hcfg hlq) fun _ => sendKey hcfg hlq now

theorem stopId_flag (id : UInt8) (c : Ctx) (b : Bool) :
    stopId id { c with suppressPosResp := b } = { stopId id c with suppressPosResp := b } := by
  unfold stopId
  induction List.finRange 8 generalizing c with
  | nil => rfl
  | cons j js ih =>
    rw [List.foldl_cons, List.foldl_cons]
    by_cases hid : c.periodicIds j = id
    · have hid' : { c with suppressPosResp := b }.periodicIds j = id := hid
      rw [if_pos hid, if_pos hid']
      exact ih { c with
        periodicIds := Function.update c.periodicIds j 0, periodicCount := c.periodicCount - 1 }
    · have hid' : ¬ { c with suppressPosResp := b }.periodicIds j = id := hid
      rw [if_neg hid, if_neg hid']
      exact ih c

include hcfg hlq in
theorem stopIds (positions : List ℕ) (hpos : ∀ i ∈ positions, 2 ≤ i) :
    Hushes (Services.stopIds cfg l positions) (Services.stopIds cfg q positions) := by
  induction positions with
  | nil => exact respond hcfg _
  | cons i is ih =>
    obtain ⟨hi, his⟩ := List.forall_mem_cons.mp hpos
    apply byte
    rw [hlq.rest i (by omega)]
    exact assign (stopId_keeps _ fun _ _ => rfl) (stopId_flag _) (ih his)

include hcfg hlq in
theorem startIds (mode : UInt8) (positions : List ℕ) (hpos : ∀ i ∈ positions, 2 ≤ i) :
    Hushes (Services.startIds cfg l mode positions) (Services.startIds cfg q mode positions) := by
  induction positions with
  | nil => exact respond hcfg _
  | cons i is ih =>
    obtain ⟨hi, his⟩ := List.forall_mem_cons.mp hpos
    unfold Services.startIds
    apply byte
    rw [hlq.rest i (by omega)]
    apply ctx
    intro c
    have hslot (id : UInt8) : slotOf { c with suppressPosResp := true } id = slotOf c id := rfl
    rw [hslot, hslot]
    cases slotOf c (l.byte i) with
    | some j => exact assign (fun _ => rfl) (fun _ _ => rfl) (ih his)
    | none =>
      apply check hcfg
      intro _
      cases slotOf c 0 with
      | some j =>
        refine assign (fun _ => rfl) (fun _ _ => rfl) ?_
        apply time
        exact fun now => assign (fun _ => rfl) (fun _ _ => rfl) (ih his)
      | none => exact ih his

include hcfg hlq in
theorem periodicRead : Hushes (handlePeriodicRead cfg l) (handlePeriodicRead cfg q) := by
  have hmode (b : UInt8) : b &&& 0x0F = b &&& 0x7F &&& 0x0F :=
    (UInt8.and_assoc b 0x7F 0x0F).symm
  have hpos : ∀ i ∈ List.range' 2 (l.bytes.length - 2), 2 ≤ i :=
    fun i hi => (List.mem_range'_1.mp hi).1
  unfold handlePeriodicRead
  rw [len_eq hlq]
  apply check hcfg
  intro _
  apply byte
  rw [hmode (q.byte 1), hlq.sub, ← hmode, hlq.length]
  apply ite Iff.rfl
  · intro _
    apply ite Iff.rfl
    · intro _
      refine assign (fun _ => rfl) (fun _ _ => rfl) ?_
      exact respond hcfg _
    · exact fun _ => stopIds hcfg hlq _ hpos
  · intro _
    exact check hcfg fun _ => startIds hcfg hlq _ _ hpos

include hcfg hlq in
/-- Without the callback the byte that is not masked goes nowhere. -/
theorem routineControl (hunset : cfg.isSet .fnRoutineControl = false) :
    Hushes (handleRoutineControl cfg l) (handleRoutineControl cfg q) := by
  have hunset' : ¬ cfg.isSet .fnRoutineControl = true := Bool.eq_false_iff.mp hunset
  unfold handleRoutineControl
  rw [len_eq hlq]
  apply check hcfg
  intro _
  apply byte
  apply byte
  apply byte
  rw [if_pos hunset', if_pos hunset']
  exact refuse hcfg _ _

include hcfg hlq in
/-- Every handler of a service with sub-functions but one. -/
theorem handler : ∀ service ∈ coreServices cfg, service.subMask.isSome = true →
    (service.sid = sidRoutineControl → cfg.isSet .fnRoutineControl = false) →
    Hushes (service.handler l) (service.handler q) := by
  unfold coreServices coreService
  simp only [List.forall_mem_cons]
  refine ⟨fun _ _ => sessionControl hcfg hlq, fun _ _ => ecuReset hcfg hlq, nofun,
    fun _ _ => readDtcInfo hcfg hlq, nofun, nofun, fun _ _ => securityAccess hcfg hlq,
    fun _ _ => commControl hcfg hlq, nofun, nofun, fun _ h => routineControl hcfg hlq (h trivial), nofun,
    nofun, nofun, nofun, fun _ _ => testerPresent hcfg hlq,
    fun _ _ => controlDtcSetting hcfg hlq, fun _ _ => periodicRead hcfg hlq, nofun, nofun, ?_⟩
  exact List.forall_mem_nil _

end UdsLib.Core.Hushes
