import UdsLib.Core.Dispatch

/-! The public interface of `uds_core.c`, and the stack as a machine that takes one call at
a time. -/
namespace UdsLib.Core
open Bytes Machine Prog

variable {W : Type}

/-- The timing parameters that `uds_init` puts into the context. -/
def initTiming (cfg : Config W) (c : Ctx) : Ctx :=
  let p2Ms := if cfg.p2Ms > 0 then cfg.p2Ms else 50
  let p2StarMs := if cfg.p2StarMs > 0 then cfg.p2StarMs else 5000
  { c with
    p2Ms := if cfg.strictCompliance ∧ p2Ms < 20 then 20 else p2Ms
    p2StarMs := if cfg.strictCompliance ∧ p2StarMs < 1000 then 1000 else p2StarMs }

/-- `uds_init`. -/
def udsInit (cfg : Config W) : M W ℤ := do
  setCtx fun _ => { Ctx.zero with activeSession := sessionIdDefault }
  setCtx (initTiming cfg)
  onlyIf cfg.strictCompliance do
    internalLog cfg logInfo "Strict Compliance: Enforcing minimum P2/P2* durations"
  internalLog cfg logInfo "UDS Stack Initialized"
  onlyIf (cfg.isSet .fnNvmLoad) do
    let reply ← invoke cfg (.nvmLoad 2)
    onlyIf (reply.ret = 2) do
      setCtx fun c =>
        { c with activeSession := reply.out.getD 0 0, securityLevel := reply.out.getD 1 0 }
      internalLog cfg logInfo "NVM State Loaded"
  return udsOk

/-- The S3 timer of `uds_process`. -/
def checkS3 (cfg : Config W) (now : UInt32) : M W Unit := do
  let ctx ← getCtx
  onlyIf (ctx.activeSession ≠ sessionIdDefault ∧ now - ctx.lastMsgTime > 5000) do
    setCtx fun c => { c with activeSession := sessionIdDefault, securityLevel := 0 }
    internalLog cfg logInfo "S3 Timeout: Reverted to Default Session"

/-- The response deadline of `uds_process` has passed. -/
def deadlinePassed (c : Ctx) (now : UInt32) : Bool :=
  c.p2MsgPending ∧
    now - c.p2TimerStart ≥ (if c.p2StarActive then c.p2StarMs else c.p2Ms.toUInt32)

/-- The budget of response-pending answers is used up. -/
def rcrrpExhausted (cfg : Config W) (c : Ctx) : Bool :=
  cfg.rcrrpLimit > 0 ∧ c.rcrrpCount ≥ cfg.rcrrpLimit

/-- `UDS_PERIODIC_*_INTERVAL_MS` of a rate. -/
def intervalOf (rate : UInt8) : UInt32 :=
  if rate = 0x01 then 100 else if rate = 0x02 then 500 else 1000

/-- One slot of the periodic scheduler. -/
def schedule (cfg : Config W) (now : UInt32) (i : Fin 8) : M W Unit := do
  let ctx ← getCtx
  onlyIf (ctx.periodicIds i ≠ 0 ∧ now ≥ ctx.periodicTimers i) do
    let reply ← invoke cfg (.periodicRead (ctx.periodicIds i) 8)
    onlyIf (reply.ret > 0) do
      onlyIf (reply.ret > 8) do
        emit (.fault (.outBufRead reply.ret))
      writeTx cfg 0 [ctx.periodicIds i]
      writeTx cfg 1 (slice (fun k => reply.out.getD k 0) 0 reply.ret.toNat)
      let _ ← tpSend cfg .periodic (lenOf (reply.ret + 1)).toNat
      return ()
    setCtx fun c =>
      { c with
        periodicTimers :=
          Function.update c.periodicTimers i (now + intervalOf (ctx.periodicRates i)) }

/-- The slots of the periodic scheduler from a list, in order. -/
def scheduleAll (cfg : Config W) (now : UInt32) : List (Fin 8) → M W Unit
  | [] => pure ()
  | i :: is => do
    schedule cfg now i
    scheduleAll cfg now is

/-- The end of `uds_process`: the periodic scheduler and the unlock. -/
def finishProcess (cfg : Config W) (now : UInt32) : M W Unit := do
  let ctx ← getCtx
  onlyIf (ctx.periodicCount > 0) do
    scheduleAll cfg now (List.finRange 8)
  mutexUnlock cfg

/-- `uds_process`. It returns with the mutex held when the response-pending limit is hit. -/
def udsProcess (cfg : Config W) : M W Unit := do
  mutexLock cfg
  let now ← getTime cfg
  checkS3 cfg now
  let ctx ← getCtx
  if deadlinePassed ctx now then
    if rcrrpExhausted cfg ctx then
      let _ ← sendNrc cfg ctx.pendingSid nrcConditionsNotCorrect
      setCtx fun c => { c with rcrrpCount := 0 }
      return ()
    let _ ← sendNrc cfg ctx.pendingSid nrcResponsePending
    setCtx fun c =>
      { c with rcrrpCount := c.rcrrpCount + 1, p2StarActive := true, p2TimerStart := now }
    return ← finishProcess cfg now
  finishProcess cfg now

/-- `sid == UDS_SID_TESTER_PRESENT && len >= 2u && (data[1] & 0x80u)`. -/
def suppressedTesterPresent (d : Sdu) : Bool :=
  d.byte 0 = sidTesterPresent ∧ 2 ≤ d.bytes.length ∧ d.byte 1 &&& 0x80 ≠ 0

/-- `is_pos || is_neg`: the message answers the client request for `pendingSid`. -/
def answersRequest (pendingSid : UInt8) (d : Sdu) : Bool :=
  d.byte 0 = pendingSid ||| responseOffset ∨
    (d.byte 0 = nrcServiceNotSuppInSess ∧ 2 ≤ d.bytes.length ∧ d.byte 1 = pendingSid)

/-- The client callback of a response, if one is registered. -/
def runResponseCb (cfg : Config W) (d : Sdu) : M W Unit := do
  let ctx ← getCtx
  match ctx.clientCb with
  | none => pure ()
  | some cb =>
    let data := d.slice 1 (d.bytes.length - 1)
    emit (.responseCb cb (d.byte 0) data)
    let _ ← runApp cfg (cfg.responseCb cb (d.byte 0) data)
    setCtx fun c => { c with clientCb := none }

/-- `uds_input_sdu` for a message that is not empty, up to the unlock. -/
def inputMessage (cfg : Config W) (d : Sdu) : M W Unit := do
  let sid ← byteAt d 0
  let now ← getTime cfg
  setCtx fun c => { c with lastMsgTime := now }
  let ctx ← getCtx
  if ctx.p2MsgPending then
    if suppressedTesterPresent d then
      return ()
    return ← reject cfg sid nrcBusyRepeatRequest
  if ctx.pendingSid ≠ 0 ∧ answersRequest ctx.pendingSid d then
    runResponseCb cfg d
    setCtx fun c => { c with pendingSid := 0 }
    return ()
  let now ← getTime cfg
  setCtx fun c =>
    { c with p2TimerStart := now, p2MsgPending := false, p2StarActive := false, rcrrpCount := 0 }
  handleRequest cfg d

/-- `uds_input_sdu`. -/
def inputSdu (cfg : Config W) (data : Buf) : M W Unit := do
  mutexLock cfg
  match data with
  | .null _ => mutexUnlock cfg
  | .bytes d => do
    onlyIf (d.bytes ≠ []) (inputMessage cfg d)
    mutexUnlock cfg

/-- A call of the public interface, a write of the application to `tx_buffer`, or a move of
the application's own state, such as the passing of time. -/
inductive Op (W : Type) where
  | inputSdu (data : Buf)
  | process
  | clientRequest (sid : UInt8) (data : Buf) (cb : Option ℕ)
  | fill (off : ℕ) (bytes : List UInt8)
  | sendResponse (len : UInt16)
  | sendNrc (sid nrc : UInt8)
  | elapse (f : W → W)

def Op.prog (cfg : Config W) : Op W → M W Unit
  | .inputSdu data => Core.inputSdu cfg data
  | .process => udsProcess cfg
  | .clientRequest sid data cb => do
    let _ ← Core.clientRequest cfg sid data cb
  | .fill off bytes => modify fun s => { s with tx := blit s.tx off bytes }
  | .sendResponse len => do
    let _ ← Core.sendResponse cfg len
  | .sendNrc sid nrc => do
    let _ ← Core.sendNrc cfg sid nrc
  | .elapse f => modify fun s => { s with world := f s.world }

/-- One call: the state after it and the events on the way. -/
def step (cfg : Config W) (s : Sys W) (op : Op W) : Sys W × List Event :=
  ((op.prog cfg).final s, (op.prog cfg).outputs s)

/-- A configuration without optional callbacks, DIDs and user services whose clock stands
still. -/
def plainConfig : Config Unit where
  getTimeMs w := (0, w)
  fnTpSend _ _ w := (0, w)
  isSet _ := false
  app _ _ w := (⟨0, []⟩, w)
  responseCb _ _ _ := .done 0
  p2Ms := 50
  p2StarMs := 5000
  txBufferSize := 64
  strictCompliance := false
  logLevel := 0
  securityDelayMs := 0
  securityMaxAttempts := 0
  rcrrpLimit := 0
  transferAcceptLastBlockReplay := false
  didTable := []
  userServices := []
  p2ServerMax := 50
  p2StarServerMax := 5000

/-- The stack after `uds_init`, with zeroed memories. -/
def booted (cfg : Config Unit) : Sys Unit :=
  (udsInit cfg).final ⟨Ctx.zero, fun _ => 0, fun _ => 0, ()⟩

/-- The same with a clock that the application moves. -/
def clockConfig : Config UInt32 where
  getTimeMs w := (w, w)
  fnTpSend _ _ w := (0, w)
  isSet _ := false
  app _ _ w := (⟨0, []⟩, w)
  responseCb _ _ _ := .done 0
  p2Ms := 50
  p2StarMs := 5000
  txBufferSize := 64
  strictCompliance := false
  logLevel := 0
  securityDelayMs := 0
  securityMaxAttempts := 0
  rcrrpLimit := 0
  transferAcceptLastBlockReplay := false
  didTable := []
  userServices := []
  p2ServerMax := 50
  p2StarServerMax := 5000

/-- The stack before `uds_init`, with zeroed memories and the clock at 0. -/
def powerOn : Sys UInt32 := ⟨Ctx.zero, fun _ => 0, fun _ => 0, 0⟩

end UdsLib.Core
