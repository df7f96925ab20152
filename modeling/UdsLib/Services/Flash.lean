import UdsLib.Core.Reply

/-! `uds_service_flash.c`: routine control, download, upload and block transfer. -/
namespace UdsLib.Services
open Bytes Machine Prog UdsLib.Core

variable {W : Type}

/-- `uds_internal_handle_routine_control`. -/
def handleRoutineControl (cfg : Config W) (d : Sdu) : M W ℤ := do
  if d.len < 4 then
    return ← sendNrc cfg sidRoutineControl nrcIncorrectLength
  let type ← byteAt d 1
  let idHigh ← byteAt d 2
  let idLow ← byteAt d 3
  let id := idHigh.toUInt16 <<< 8 ||| idLow.toUInt16
  if ¬ cfg.isSet .fnRoutineControl then
    return ← sendNrc cfg sidRoutineControl nrcConditionsNotCorrect
  let maxPayload := cfg.txBufferSize - 4
  let written ← invokeOut cfg
    (.routineControl type id (d.slice 4 (d.len - 4).toNat) ⟨4, maxPayload.toNat⟩) 4
  if written < 0 then
    return ← sendNrc cfg sidRoutineControl (nrcOf written)
  writeTx cfg 0 [sidRoutineControl + responseOffset, type, idHigh, idLow]
  sendResponse cfg (lenOf written + 4)

/-- The positive response of request download and request upload. -/
def transferAccepted (cfg : Config W) (sid : UInt8) : M W ℤ := do
  setCtx fun c => { c with flashSequence := 0 }
  writeTx cfg 0 [sid + responseOffset, 0x20, 0x00, 0x00, 0x04, 0x00]
  sendResponse cfg 6

/-- `uds_internal_handle_request_download`. -/
def handleRequestDownload (cfg : Config W) (d : Sdu) : M W ℤ := do
  if d.len < 4 then
    return ← sendNrc cfg sidRequestDownload nrcIncorrectLength
  let addrLenFormat ← byteAt d 2
  let addrLen := addrLenOf addrLenFormat
  let sizeLen := sizeLenOf addrLenFormat
  if addrLen = 0 ∨ sizeLen = 0 ∨ addrLen > 4 ∨ sizeLen > 4 then
    return ← sendNrc cfg sidRequestDownload nrcRequestOutOfRange
  let some (addr, size) ← parseAddrLen d 3 (d.len - 3) addrLenFormat
    | return ← sendNrc cfg sidRequestDownload nrcIncorrectLength
  if ¬ cfg.isSet .fnRequestDownload then
    return ← sendNrc cfg sidRequestDownload nrcConditionsNotCorrect
  let reply ← invoke cfg (.requestDownload addr size)
  if reply.ret < 0 then
    return ← sendNrc cfg sidRequestDownload (nrcOf reply.ret)
  transferAccepted cfg sidRequestDownload

/-- The positive response of transfer data. -/
def blockAccepted (cfg : Config W) (sequence : UInt8) : M W ℤ := do
  writeTx cfg 0 [sidTransferData + responseOffset, sequence]
  sendResponse cfg 2

/-- The part of `uds_internal_handle_transfer_data` after the sequence check. -/
def transferBlock (cfg : Config W) (d : Sdu) (sequence : UInt8) : M W ℤ := do
  let reply ← invoke cfg (.transferData sequence (d.slice 2 (d.len - 2).toNat))
  if reply.ret < 0 then
    return ← sendNrc cfg sidTransferData (nrcOf reply.ret)
  setCtx fun c => { c with flashSequence := sequence }
  blockAccepted cfg sequence

/-- `uds_internal_handle_transfer_data`. -/
def handleTransferData (cfg : Config W) (d : Sdu) : M W ℤ := do
  if d.len < 2 then
    return ← sendNrc cfg sidTransferData nrcIncorrectLength
  if ¬ cfg.isSet .fnTransferData then
    return ← sendNrc cfg sidTransferData nrcConditionsNotCorrect
  let sequence ← byteAt d 1
  let ctx ← getCtx
  if ctx.flashSequence = 0 then
    if sequence ≠ 0x01 then
      return ← sendNrc cfg sidTransferData nrcRequestSequenceError
    return ← transferBlock cfg d sequence
  let expected := if ctx.flashSequence = 0xFF then 0x00 else ctx.flashSequence + 1
  if sequence ≠ expected then
    if cfg.transferAcceptLastBlockReplay ∧ sequence = ctx.flashSequence then
      return ← blockAccepted cfg sequence
    return ← sendNrc cfg sidTransferData nrcRequestSequenceError
  transferBlock cfg d sequence

/-- `uds_internal_handle_request_transfer_exit`. -/
def handleRequestTransferExit (cfg : Config W) (_ : Sdu) : M W ℤ := do
  if ¬ cfg.isSet .fnTransferExit then
    return ← sendNrc cfg sidTransferExit nrcConditionsNotCorrect
  let reply ← invoke cfg .transferExit
  if reply.ret < 0 then
    return ← sendNrc cfg sidTransferExit (nrcOf reply.ret)
  writeTx cfg 0 [sidTransferExit + responseOffset]
  sendResponse cfg 1

/-- `uds_internal_handle_request_upload`. Unlike its sibling it has no separate answer for a
format byte out of range. -/
def handleRequestUpload (cfg : Config W) (d : Sdu) : M W ℤ := do
  if d.len < 4 then
    return ← sendNrc cfg sidRequestUpload nrcIncorrectLength
  let addrLenFormat ← byteAt d 2
  let some (addr, size) ← parseAddrLen d 3 (d.len - 3) addrLenFormat
    | return ← sendNrc cfg sidRequestUpload nrcIncorrectLength
  if ¬ cfg.isSet .fnRequestUpload then
    return ← sendNrc cfg sidRequestUpload nrcConditionsNotCorrect
  let reply ← invoke cfg (.requestUpload addr size)
  if reply.ret < 0 then
    return ← sendNrc cfg sidRequestUpload (nrcOf reply.ret)
  transferAccepted cfg sidRequestUpload

end UdsLib.Services
