import UdsLib.Services.Data

/-! `uds_service_io.c`: input output control by identifier. -/
namespace UdsLib.Services
open Bytes Machine Prog UdsLib.Core

variable {W : Type}

/-- `uds_internal_handle_io_control`. -/
def handleIoControl (cfg : Config W) (d : Sdu) : M W ℤ := do
  if d.len < 4 then
    return ← sendNrc cfg sidIoControlById nrcIncorrectLength
  let idHigh ← byteAt d 1
  let idLow ← byteAt d 2
  let id := idHigh.toUInt16 <<< 8 ||| idLow.toUInt16
  let ctrlType ← byteAt d 3
  if ¬ cfg.isSet .fnIoControl then
    return ← sendNrc cfg sidIoControlById nrcServiceNotSupported
  let some entry := findDid cfg id
    | return ← sendNrc cfg sidIoControlById nrcRequestOutOfRange
  if ← sessionRefused entry then
    return ← sendNrc cfg sidIoControlById nrcServiceNotSuppInSess
  if ← securityRefused entry then
    return ← sendNrc cfg sidIoControlById nrcSecurityAccessDenied
  let maxPayload := cfg.txBufferSize - 3
  let written ← invokeOut cfg
    (.ioControl id ctrlType (d.slice 4 (d.len - 4).toNat) ⟨3, maxPayload.toNat⟩) 3
  if written < 0 then
    return ← sendNrc cfg sidIoControlById (nrcOf written)
  writeTx cfg 0 [sidIoControlById + responseOffset, idHigh, idLow]
  sendResponse cfg (lenOf written + 3)

end UdsLib.Services
