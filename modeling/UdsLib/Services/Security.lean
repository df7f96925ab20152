import UdsLib.Core.Reply

/-! `uds_service_security.c`: security access and authentication. -/
namespace UdsLib.Services
open Bytes Machine Prog UdsLib.Core

variable {W : Type}

/-- The seed branch of `uds_internal_handle_security_access`. -/
def requestSeed (cfg : Config W) (subRaw : UInt8) : M W ℤ := do
  let sub := subRaw &&& 0x7F
  if ¬ cfg.isSet .fnSecuritySeed then
    return ← sendNrc cfg sidSecurityAccess nrcConditionsNotCorrect
  writeTx cfg 0 [sidSecurityAccess + responseOffset, subRaw]
  let level := ((sub.toUInt16 + 1) / 2).toUInt8
  let seedLen ← invokeOut cfg (.securitySeed level ⟨2, (cfg.txBufferSize - 2).toNat⟩) 2
  if seedLen < 0 then
    return ← sendNrc cfg sidSecurityAccess (nrcOf seedLen)
  sendResponse cfg (lenOf seedLen + 2)

/-- An accepted key. -/
def keyAccepted (cfg : Config W) (subRaw : UInt8) : M W ℤ := do
  let sub := subRaw &&& 0x7F
  setCtx fun c => { c with securityAttempts := 0, securityLevel := sub / 2 }
  let ctx ← getCtx
  onlyIf (cfg.isSet .fnNvmSave) do
    invokeVoid cfg (.nvmSave [ctx.activeSession, ctx.securityLevel])
  writeTx cfg 0 [sidSecurityAccess + responseOffset, subRaw]
  sendResponse cfg 2

/-- A key that the application rejected with `res`. -/
def keyRejected (cfg : Config W) (now : UInt32) (res : ℤ) : M W ℤ := do
  setCtx fun c => { c with securityAttempts := c.securityAttempts + 1 }
  let ctx ← getCtx
  let maxAtt := if cfg.securityMaxAttempts ≠ 0 then cfg.securityMaxAttempts else 3
  if ctx.securityAttempts ≥ maxAtt then
    let delay := if cfg.securityDelayMs ≠ 0 then cfg.securityDelayMs else 10000
    setCtx fun c => { c with securityDelayEnd := now + delay }
    return ← sendNrc cfg sidSecurityAccess nrcExceededAttempts
  sendNrc cfg sidSecurityAccess (if res < 0 then nrcOf res else nrcInvalidKey)

/-- The key branch of `uds_internal_handle_security_access`. -/
def sendKey (cfg : Config W) (d : Sdu) (now : UInt32) (subRaw : UInt8) : M W ℤ := do
  let sub := subRaw &&& 0x7F
  if ¬ cfg.isSet .fnSecurityKey then
    return ← sendNrc cfg sidSecurityAccess nrcConditionsNotCorrect
  let reply ← invoke cfg (.securityKey (sub / 2) (d.slice 2 (d.len - 2).toNat))
  if reply.ret = 0 then
    return ← keyAccepted cfg subRaw
  keyRejected cfg now reply.ret

/-- `uds_internal_handle_security_access`. -/
def handleSecurityAccess (cfg : Config W) (d : Sdu) : M W ℤ := do
  if d.len < 2 then
    return ← sendNrc cfg sidSecurityAccess nrcIncorrectLength
  let now ← getTime cfg
  let ctx ← getCtx
  if ctx.securityDelayEnd ≠ 0 ∧ now < ctx.securityDelayEnd then
    return ← sendNrc cfg sidSecurityAccess nrcRequiredTimeDelay
  setCtx fun c => { c with securityDelayEnd := 0 }
  let subRaw ← byteAt d 1
  if (subRaw &&& 0x7F) % 2 ≠ 0 then
    return ← requestSeed cfg subRaw
  sendKey cfg d now subRaw

/-- `uds_internal_handle_authentication`. -/
def handleAuthentication (cfg : Config W) (d : Sdu) : M W ℤ := do
  if d.len < 2 then
    return ← sendNrc cfg sidAuthentication nrcIncorrectLength
  let subRaw ← byteAt d 1
  if ¬ cfg.isSet .fnAuth then
    return ← sendNrc cfg sidAuthentication nrcConditionsNotCorrect
  let maxPayload := cfg.txBufferSize - 2
  let written ← invokeOut cfg
    (.auth (subRaw &&& 0x7F) (d.slice 2 (d.len - 2).toNat) ⟨2, maxPayload.toNat⟩) 2
  if written < 0 then
    return ← sendNrc cfg sidAuthentication (nrcOf written)
  writeTx cfg 0 [sidAuthentication + responseOffset, subRaw]
  sendResponse cfg (lenOf written + 2)

end UdsLib.Services
