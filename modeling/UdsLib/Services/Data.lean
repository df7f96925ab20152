import Mathlib.Logic.Function.Basic
import UdsLib.Core.Reply

/-! `uds_service_data.c`: reading and writing data by identifier, periodic reading. -/
namespace UdsLib.Services
open Bytes Machine Prog UdsLib.Core

variable {W : Type}

/-- `(1u << shift) & mask` as a condition. -/
def maskAdmits (shift mask : UInt32) : M W Bool := do
  onlyIf (32 ≤ shift) (emit (.fault (.shift shift.toNat)))
  return (1 <<< shift) &&& mask ≠ 0

/-- `(entry->session_mask != 0u) && !((1u << (ctx->active_session - 1u)) & entry->session_mask)`. -/
def sessionRefused (entry : DidEntry) : M W Bool := do
  if entry.sessionMask = 0 then
    return false
  let ctx ← getCtx
  let admitted ← maskAdmits (ctx.activeSession.toUInt32 - 1) entry.sessionMask.toUInt32
  return !admitted

/-- `(entry->security_mask != 0u) && !((1u << ctx->security_level) & entry->security_mask)`. -/
def securityRefused (entry : DidEntry) : M W Bool := do
  if entry.securityMask = 0 then
    return false
  let ctx ← getCtx
  let admitted ← maskAdmits ctx.securityLevel.toUInt32 entry.securityMask.toUInt32
  return !admitted

/-- The indices at which the loop of `uds_internal_handle_read_data_by_id` finds a DID:
`for (i = 1; i + 1 < len; i += 2)`. -/
def didPositions (len : ℕ) : List ℕ := (List.range ((len - 1) / 2)).map fun k => 2 * k + 1

/-- The loop of `uds_internal_handle_read_data_by_id` and what follows it. -/
def readDids (cfg : Config W) (d : Sdu) : List ℕ → UInt16 → M W ℤ
  | [], txLen => do
    writeTx cfg 0 [sidReadDataById + responseOffset]
    sendResponse cfg txLen
  | i :: is, txLen => do
    let didHigh ← byteAt d i
    let didLow ← byteAt d (i + 1)
    let did := didHigh.toUInt16 <<< 8 ||| didLow.toUInt16
    let some entry := findDid cfg did
      | return ← sendNrc cfg sidReadDataById nrcRequestOutOfRange
    if ← sessionRefused entry then
      return ← sendNrc cfg sidReadDataById nrcRequestOutOfRange
    if ← securityRefused entry then
      return ← sendNrc cfg sidReadDataById nrcSecurityAccessDenied
    if txLen.toUInt32 + entry.size.toUInt32 + 2 > cfg.txBufferSize.toUInt32 then
      return ← sendNrc cfg sidReadDataById nrcResponseTooLong
    writeTx cfg txLen.toNat [(did >>> 8).toUInt8, did.toUInt8]
    let txLen := txLen + 2
    if entry.read then
      let res ← invokeOut cfg (.didRead did ⟨txLen.toNat, entry.size.toNat⟩) txLen.toNat
      if res < 0 then
        return ← sendNrc cfg sidReadDataById (nrcOf res)
      return ← readDids cfg d is (txLen + entry.size)
    let some storage := entry.storage
      | return ← sendNrc cfg sidReadDataById nrcConditionsNotCorrect
    let bytes ← readMem storage entry.size.toNat
    writeTx cfg txLen.toNat bytes
    readDids cfg d is (txLen + entry.size)

/-- `uds_internal_handle_read_data_by_id`. -/
def handleReadDataById (cfg : Config W) (d : Sdu) : M W ℤ :=
  readDids cfg d (didPositions d.bytes.length) 1

/-- The store of `uds_internal_handle_write_data_by_id`: `write_ok`. -/
def writeDid (cfg : Config W) (d : Sdu) (did : UInt16) (entry : DidEntry) : M W Bool := do
  if entry.write then
    let reply ← invoke cfg (.didWrite did (d.slice 3 entry.size.toNat))
    return reply.ret = 0
  let some storage := entry.storage
    | return false
  let bytes ← bytesAt d 3 entry.size.toNat
  writeMem storage bytes
  return true

/-- `uds_internal_handle_write_data_by_id`. -/
def handleWriteDataById (cfg : Config W) (d : Sdu) : M W ℤ := do
  if d.len < 3 then
    return ← sendNrc cfg sidWriteDataById nrcIncorrectLength
  let didHigh ← byteAt d 1
  let didLow ← byteAt d 2
  let did := didHigh.toUInt16 <<< 8 ||| didLow.toUInt16
  let some entry := findDid cfg did
    | return ← sendNrc cfg sidWriteDataById nrcRequestOutOfRange
  if ← sessionRefused entry then
    return ← sendNrc cfg sidWriteDataById nrcRequestOutOfRange
  if ← securityRefused entry then
    return ← sendNrc cfg sidWriteDataById nrcSecurityAccessDenied
  if d.len ≠ 3 + entry.size then
    return ← sendNrc cfg sidWriteDataById nrcIncorrectLength
  if ← writeDid cfg d did entry then
    writeTx cfg 0 [sidWriteDataById + responseOffset, didHigh, didLow]
    return ← sendResponse cfg 3
  sendNrc cfg sidWriteDataById nrcConditionsNotCorrect

/-- The positive response of the periodic read. -/
def periodicAccepted (cfg : Config W) : M W ℤ := do
  writeTx cfg 0 [sidReadByPerId + responseOffset]
  sendResponse cfg 1

/-- The slot loop that stops one id. -/
def stopId (id : UInt8) (c : Ctx) : Ctx :=
  (List.finRange 8).foldl (fun c j =>
    if c.periodicIds j = id then
      { c with
        periodicIds := Function.update c.periodicIds j 0, periodicCount := c.periodicCount - 1 }
    else c) c

/-- The loop over the ids to stop, at these indices of the request. -/
def stopIds (cfg : Config W) (d : Sdu) : List ℕ → M W ℤ
  | [] => periodicAccepted cfg
  | i :: is => do
    let id ← byteAt d i
    setCtx (stopId id)
    stopIds cfg d is

/-- The first slot that holds an id. -/
def slotOf (c : Ctx) (id : UInt8) : Option (Fin 8) :=
  (List.finRange 8).find? fun j => c.periodicIds j = id

/-- The loop over the ids to start, at these indices of the request. -/
def startIds (cfg : Config W) (d : Sdu) (mode : UInt8) : List ℕ → M W ℤ
  | [] => periodicAccepted cfg
  | i :: is => do
    let id ← byteAt d i
    let ctx ← getCtx
    match slotOf ctx id with
    | some j =>
      setCtx fun c => { c with periodicRates := Function.update c.periodicRates j mode }
      startIds cfg d mode is
    | none =>
      if ctx.periodicCount ≥ 8 then
        return ← sendNrc cfg sidReadByPerId nrcResponseTooLong
      match slotOf ctx 0 with
      | some j =>
        setCtx fun c =>
          { c with
            periodicIds := Function.update c.periodicIds j id
            periodicRates := Function.update c.periodicRates j mode }
        let now ← getTime cfg
        setCtx fun c =>
          { c with
            periodicTimers := Function.update c.periodicTimers j now
            periodicCount := c.periodicCount + 1 }
        startIds cfg d mode is
      | none => startIds cfg d mode is

/-- `uds_internal_handle_periodic_read`. -/
def handlePeriodicRead (cfg : Config W) (d : Sdu) : M W ℤ := do
  if d.len < 2 then
    return ← sendNrc cfg sidReadByPerId nrcIncorrectLength
  let mode := (← byteAt d 1) &&& 0x0F
  let positions := List.range' 2 (d.bytes.length - 2)
  if mode = 0x04 then
    if d.len = 2 then
      setCtx fun c => { c with periodicIds := fun _ => 0, periodicCount := 0 }
      return ← periodicAccepted cfg
    return ← stopIds cfg d positions
  if mode < 0x01 ∨ mode > 0x03 then
    return ← sendNrc cfg sidReadByPerId nrcRequestOutOfRange
  startIds cfg d mode positions

end UdsLib.Services
