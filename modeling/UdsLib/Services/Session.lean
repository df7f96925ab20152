import UdsLib.Core.Reply

/-! `uds_service_session.c`: diagnostic session control and tester present. -/
namespace UdsLib.Services
open Bytes Machine Prog UdsLib.Core

variable {W : Type}

/-- `uds_internal_handle_session_control`. -/
def handleSessionControl (cfg : Config W) (d : Sdu) : M W ℤ := do
  let sub := (← byteAt d 1) &&& 0x7F
  if sub ≠ sessionIdDefault ∧ sub ≠ sessionIdProgramming ∧ sub ≠ sessionIdExtended then
    return ← sendNrc cfg sidSessionControl nrcSubfunctionNotSupported
  let ctx ← getCtx
  onlyIf (ctx.activeSession ≠ sub ∨ sub = sessionIdDefault) do
    setCtx fun c => { c with securityLevel := 0 }
  setCtx fun c => { c with activeSession := sub }
  let p2 := if cfg.p2ServerMax > 0 then cfg.p2ServerMax else 50
  let p2StarMs := if cfg.p2StarServerMax > 0 then cfg.p2StarServerMax else 5000
  let p2StarVal := p2StarMs / 10
  writeTx cfg 0 [sidSessionControl + responseOffset, sub, (p2 >>> 8).toUInt8, p2.toUInt8,
    (p2StarVal >>> 8).toUInt8, p2StarVal.toUInt8]
  let _ ← sendResponse cfg 6
  let ctx ← getCtx
  onlyIf (cfg.isSet .fnNvmSave) do
    invokeVoid cfg (.nvmSave [ctx.activeSession, ctx.securityLevel])
  return udsOk

/-- `uds_internal_handle_tester_present`. -/
def handleTesterPresent (cfg : Config W) (d : Sdu) : M W ℤ := do
  let sub := (← byteAt d 1) &&& 0x7F
  if sub = 0x00 then
    writeTx cfg 0 [sidTesterPresent + responseOffset, 0x00]
    return ← sendResponse cfg 2
  sendNrc cfg sidTesterPresent nrcSubfunctionNotSupported

end UdsLib.Services
