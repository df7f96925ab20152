import UdsLib.Core.Reply

/-! `uds_service_maintenance.c`: ECU reset, communication control and DTC management. -/
namespace UdsLib.Services
open Bytes Machine Prog UdsLib.Core

variable {W : Type}

/-- `ctx->suppress_pos_resp = true;` -/
def setSuppress : M W Unit := setCtx fun c => { c with suppressPosResp := true }

/-- `return UDS_OK;` of a handler that does not send the positive response it was about to. -/
def returnSuppressed : M W ℤ := do
  emit .withheld
  return udsOk

/-- `uds_internal_handle_ecu_reset`. -/
def handleEcuReset (cfg : Config W) (d : Sdu) : M W ℤ := do
  if d.len < 2 then
    return ← sendNrc cfg sidEcuReset nrcIncorrectLength
  let subRaw ← byteAt d 1
  let sub := subRaw &&& 0x7F
  if sub < 0x01 ∨ sub > 0x05 then
    return ← sendNrc cfg sidEcuReset nrcSubfunctionNotSupported
  onlyIf (subRaw &&& 0x80 ≠ 0) setSuppress
  onlyIf (cfg.isSet .fnReset) do
    invokeVoid cfg (.reset sub)
  if subRaw &&& 0x80 ≠ 0 then
    return ← returnSuppressed
  writeTx cfg 0 [sidEcuReset + responseOffset, sub]
  sendResponse cfg 2

/-- The end of `uds_internal_handle_comm_control`, after the application has agreed. -/
def commControlled (cfg : Config W) (subRaw : UInt8) : M W ℤ := do
  let ctrlType := subRaw &&& 0x7F
  setCtx fun c => { c with commState := ctrlType }
  internalLog cfg logInfo "Communication state changed"
  if subRaw &&& 0x80 ≠ 0 then
    return ← returnSuppressed
  writeTx cfg 0 [sidCommControl + responseOffset, ctrlType]
  sendResponse cfg 2

/-- `uds_internal_handle_comm_control`. -/
def handleCommControl (cfg : Config W) (d : Sdu) : M W ℤ := do
  if d.len < 3 then
    return ← sendNrc cfg sidCommControl nrcIncorrectLength
  let subRaw ← byteAt d 1
  let ctrlType := subRaw &&& 0x7F
  let commType ← byteAt d 2
  if ctrlType > 0x05 then
    return ← sendNrc cfg sidCommControl nrcSubfunctionNotSupported
  let typeNibble := commType &&& 0x0F
  if typeNibble = 0 ∨ typeNibble > 3 then
    return ← sendNrc cfg sidCommControl nrcRequestOutOfRange
  onlyIf (subRaw &&& 0x80 ≠ 0) setSuppress
  if cfg.isSet .fnCommControl then
    let reply ← invoke cfg (.commControl ctrlType commType)
    if reply.ret ≠ udsOk then
      return ← sendNrc cfg sidCommControl (nrcOf reply.ret)
    return ← commControlled cfg subRaw
  commControlled cfg subRaw

/-- `uds_internal_handle_clear_dtc`. -/
def handleClearDtc (cfg : Config W) (d : Sdu) : M W ℤ := do
  if d.len < 4 then
    return ← sendNrc cfg sidClearDtc nrcIncorrectLength
  if ¬ cfg.isSet .fnDtcClear then
    return ← sendNrc cfg sidClearDtc nrcConditionsNotCorrect
  let b1 ← byteAt d 1
  let b2 ← byteAt d 2
  let b3 ← byteAt d 3
  let group := b1.toUInt32 <<< 16 ||| b2.toUInt32 <<< 8 ||| b3.toUInt32
  let reply ← invoke cfg (.dtcClear group)
  if reply.ret ≠ udsOk then
    return ← sendNrc cfg sidClearDtc (nrcOf reply.ret)
  writeTx cfg 0 [sidClearDtc + responseOffset]
  sendResponse cfg 1

/-- The sub-functions of `0x19` that need a status mask. -/
def reqMask (sub : UInt8) : Bool :=
  sub ∈ [(0x01 : UInt8), 0x02, 0x07, 0x08, 0x0F, 0x11, 0x12, 0x13]

/-- `uds_internal_handle_read_dtc_info`. -/
def handleReadDtcInfo (cfg : Config W) (d : Sdu) : M W ℤ := do
  if d.len < 2 then
    return ← sendNrc cfg sidReadDtcInfo nrcIncorrectLength
  let subRaw ← byteAt d 1
  let sub := subRaw &&& 0x7F
  if reqMask sub ∧ d.len < 3 then
    return ← sendNrc cfg sidReadDtcInfo nrcIncorrectLength
  if ¬ cfg.isSet .fnDtcRead then
    return ← sendNrc cfg sidReadDtcInfo nrcConditionsNotCorrect
  onlyIf (subRaw &&& 0x80 ≠ 0) setSuppress
  let maxPayload := cfg.txBufferSize - 2
  let written ← invokeOut cfg (.dtcRead sub ⟨2, maxPayload.toNat⟩) 2
  if written < 0 then
    return ← sendNrc cfg sidReadDtcInfo (nrcOf written)
  if subRaw &&& 0x80 ≠ 0 then
    return ← returnSuppressed
  writeTx cfg 0 [sidReadDtcInfo + responseOffset, sub]
  sendResponse cfg (lenOf written + 2)

/-- `uds_internal_handle_control_dtc_setting`. -/
def handleControlDtcSetting (cfg : Config W) (d : Sdu) : M W ℤ := do
  if d.len < 2 then
    return ← sendNrc cfg sidControlDtcSetting nrcIncorrectLength
  let subRaw ← byteAt d 1
  let sub := subRaw &&& 0x7F
  if sub ≠ 0x01 ∧ sub ≠ 0x02 then
    return ← sendNrc cfg sidControlDtcSetting nrcSubfunctionNotSupported
  onlyIf (subRaw &&& 0x80 ≠ 0) setSuppress
  writeTx cfg 0 [sidControlDtcSetting + responseOffset, sub]
  sendResponse cfg 2

end UdsLib.Services
