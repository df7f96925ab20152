import UdsLib.Core.Actions

/-! The public calls that send a message (`uds_send_response`, `uds_send_nrc` and
`uds_client_request`) and the application code built on them. -/
namespace UdsLib.Core
open Bytes Machine Prog

variable {W : Type}

/-- `uds_send_response`. -/
def sendResponse (cfg : Config W) (len : UInt16) : M W ℤ := do
  if len > cfg.txBufferSize then
    return udsErrBufferTooSmall
  setCtx fun c => { c with p2MsgPending := false }
  let ctx ← getCtx
  if ctx.suppressPosResp then
    setCtx fun c => { c with suppressPosResp := false, rcrrpCount := 0 }
    emit .withheld
    return udsOk
  setCtx fun c => { c with rcrrpCount := 0 }
  tpSend cfg .response len.toNat

/-- `uds_send_nrc`. -/
def sendNrc (cfg : Config W) (sid nrc : UInt8) : M W ℤ := do
  if cfg.txBufferSize < 3 then
    return udsErrBufferTooSmall
  let ctx ← getCtx
  onlyIf (nrc ≠ nrcResponsePending ∧ sid = ctx.pendingSid) do
    setCtx fun c => { c with p2MsgPending := false }
  writeTx cfg 0 [nrcServiceNotSuppInSess, sid, nrc]
  tpSend cfg .nrc 3

/-- `!fn_is_safe || fn_is_safe(ctx, sid, data, len)`. -/
def safetyGate (cfg : Config W) (sid : UInt8) (d : Sdu) : M W Bool := do
  if ¬ cfg.isSet .fnIsSafe then
    return true
  let reply ← invoke cfg (.isSafe sid (d.slice 0 d.bytes.length))
  return reply.ret ≠ 0

/-- The body of `uds_client_request`. -/
def requestBody (cfg : Config W) (sid : UInt8) (data : Buf) (cb : Option ℕ) : M W ℤ := do
  if data.len > 0 ∧ data.isNull then
    return udsErrInvalidArg
  if data.len.toNat + 1 > cfg.txBufferSize.toNat then
    return udsErrBufferTooSmall
  mutexLock cfg
  setCtx fun c => { c with pendingSid := sid, clientCb := cb }
  writeTx cfg 0 [sid]
  writeTx cfg 1 data.content
  let result ← tpSend cfg .request (data.len.toNat + 1)
  mutexUnlock cfg
  return result

/-- `uds_client_request`. -/
def clientRequest (cfg : Config W) (sid : UInt8) (data : Buf) (cb : Option ℕ) : M W ℤ := do
  let result ← requestBody cfg sid data cb
  emit (.requested sid result)
  return result

/-- The run of application code. -/
def runApp (cfg : Config W) : AppProg W → M W ℤ
  | .done res => pure res
  | .look k => do
    let s ← reads fun s : Sys W => (s.ctx, s.world)
    runApp cfg (k s.1 s.2)
  | .put w k => do
    modify fun s : Sys W => { s with world := w }
    runApp cfg k
  | .fill off bytes k => do
    modify fun s : Sys W => { s with tx := blit s.tx off bytes }
    runApp cfg k
  | .sendResponse len k => do
    let res ← sendResponse cfg len
    runApp cfg (k res)
  | .sendNrc sid nrc k => do
    let res ← sendNrc cfg sid nrc
    runApp cfg (k res)
  | .clientRequest sid data cb k => do
    let res ← clientRequest cfg sid data cb
    runApp cfg (k res)

variable {cfg : Config W}

/-- `uds_send_nrc` changes the context only if its answer goes out and ends the request in
progress. -/
theorem sendNrc_ctx (cfg : Config W) (sid nrc : UInt8) (s : Sys W) :
    ((sendNrc cfg sid nrc).final s).ctx =
      if 3 ≤ cfg.txBufferSize ∧ nrc ≠ nrcResponsePending ∧ sid = s.ctx.pendingSid then
        { s.ctx with p2MsgPending := false }
      else s.ctx := by
  unfold sendNrc
  rw [final_ite]
  by_cases hfits : 3 ≤ cfg.txBufferSize
  · rw [if_neg (UInt16.not_lt.mpr hfits)]
    rw [final_getCtx_bind]
    simp only [final_bind, final_onlyIf, hfits, true_and]
    split_ifs <;> rfl
  · rw [if_pos (UInt16.not_le.mp hfits), if_neg (fun h => hfits h.1)]
    rfl

/-- An answer that fits is sent, after at most a fault. -/
theorem sendNrc_outputs (cfg : Config W) (sid nrc : UInt8) (s : Sys W) :
    ∃ faults : List Event, (∀ e ∈ faults, ∃ f, e = .fault f) ∧
      ∃ ret, (sendNrc cfg sid nrc).outputs s =
        if 3 ≤ cfg.txBufferSize then
          faults ++ [.tpSend .nrc [nrcServiceNotSuppInSess, sid, nrc] ret]
        else [] := by
  by_cases hfits : 3 ≤ cfg.txBufferSize
  · unfold sendNrc
    rw [if_neg (UInt16.not_lt.mpr hfits), outputs_getCtx_bind]
    simp only [if_pos hfits, outputs_bind, outputs_onlyIf, outputs_setCtx, ite_self,
      List.nil_append]
    have hwritten (m : ℕ → UInt8) := slice_blit_self m 0 [nrcServiceNotSuppInSess, sid, nrc]
    exact ⟨_, fun e => writeTx_faults _, _,
      congrArg _ (congrArg (fun data => [Event.tpSend .nrc data _]) (hwritten _))⟩
  · refine ⟨[], by simp, 0, ?_⟩
    unfold sendNrc
    rw [if_pos (UInt16.not_le.mp hfits), if_neg hfits]
    rfl

/-- A positive response that fits is withheld if the flag is up. -/
theorem sendResponse_suppressed {len : UInt16} {s : Sys W} (hlen : len ≤ cfg.txBufferSize)
    (hflag : s.ctx.suppressPosResp = true) :
    sendResponse cfg len s = (udsOk, { s with ctx := { s.ctx with
      p2MsgPending := false, suppressPosResp := false, rcrrpCount := 0 } }, [.withheld]) := by
  apply run_ext
  all_goals unfold sendResponse; rw [if_neg (UInt16.not_lt.mpr hlen)]
  · rw [value_bind, value_getCtx_bind, final_setCtx, if_pos hflag]
    rfl
  · rw [final_bind, final_getCtx_bind, final_setCtx, if_pos hflag]
    rfl
  · rw [outputs_bind, outputs_getCtx_bind, final_setCtx, if_pos hflag]
    rfl

/-- A positive response that fits is sent if the flag is down. -/
theorem sendResponse_sends {len : UInt16} {s : Sys W} (hlen : len ≤ cfg.txBufferSize)
    (hflag : s.ctx.suppressPosResp = false) :
    sendResponse cfg len s = tpSend cfg .response len.toNat { s with ctx := { s.ctx with
      p2MsgPending := false, rcrrpCount := 0 } } := by
  have hflag' : ¬ s.ctx.suppressPosResp = true := Bool.eq_false_iff.mp hflag
  apply run_ext
  all_goals unfold sendResponse; rw [if_neg (UInt16.not_lt.mpr hlen)]
  · rw [value_bind, value_getCtx_bind, final_setCtx, if_neg hflag']
    rfl
  · rw [final_bind, final_getCtx_bind, final_setCtx, if_neg hflag']
    rfl
  · rw [outputs_bind, outputs_getCtx_bind, final_setCtx, if_neg hflag']
    rfl

/-- All that `uds_send_response` can do: nothing, or to withhold the response, or to send it. -/
theorem sendResponse_keeps {R : Sys W → List Event → Sys W → Prop} {len : UInt16}
    (hrefused : ∀ s, R s [] s)
    (hwithheld : ∀ s, R s [.withheld] { s with ctx := { s.ctx with
      p2MsgPending := false, suppressPosResp := false, rcrrpCount := 0 } })
    (hsent : ∀ s ret w, R s [.tpSend .response (slice s.tx 0 len.toNat) ret] { s with
      ctx := { s.ctx with p2MsgPending := false, rcrrpCount := 0 }
      world := w }) :
    Keeps R (sendResponse cfg len) := by
  intro s
  by_cases hlen : len ≤ cfg.txBufferSize
  · unfold outputs final
    cases hflag : s.ctx.suppressPosResp with
    | true =>
      rw [sendResponse_suppressed hlen hflag]
      exact hwithheld s
    | false =>
      rw [sendResponse_sends hlen hflag]
      exact hsent s _ _
  · unfold sendResponse
    rw [if_pos (UInt16.not_le.mp hlen)]
    exact hrefused s

theorem sentOf_faults {es : List Event} (h : ∀ e ∈ es, ∃ f, e = .fault f) : sentOf es = [] := by
  apply List.filterMap_eq_nil_iff.mpr
  exact faults_forall h fun _ => rfl

theorem sendNrc_sent (sid nrc : UInt8) (s : Sys W) :
    sentOf ((sendNrc cfg sid nrc).outputs s) =
      if 3 ≤ cfg.txBufferSize then [[nrcServiceNotSuppInSess, sid, nrc]] else [] := by
  obtain ⟨faults, hfaults, ret, houtputs⟩ := sendNrc_outputs cfg sid nrc s
  rw [houtputs]
  split_ifs
  · rw [sentOf_append, sentOf_faults hfaults]
    rfl
  · rfl

end UdsLib.Core
