import UdsLib.Core.Reply

/-! `uds_service_mem.c`: reading and writing memory by address. -/
namespace UdsLib.Services
open Bytes Machine Prog UdsLib.Core

variable {W : Type}

/-- `uds_internal_handle_read_memory_by_addr`. -/
def handleReadMemoryByAddr (cfg : Config W) (d : Sdu) : M W ℤ := do
  if d.len < 3 then
    return ← sendNrc cfg sidReadMemByAddr nrcIncorrectLength
  let format ← byteAt d 1
  let addrLen := addrLenOf format
  let sizeLen := sizeLenOf format
  if addrLen = 0 ∨ sizeLen = 0 ∨ addrLen > 4 ∨ sizeLen > 4 then
    return ← sendNrc cfg sidReadMemByAddr nrcRequestOutOfRange
  let some (addr, size) ← parseAddrLen d 2 (d.len - 2) format
    | return ← sendNrc cfg sidReadMemByAddr nrcIncorrectLength
  if ¬ cfg.isSet .fnMemRead then
    return ← sendNrc cfg sidReadMemByAddr nrcConditionsNotCorrect
  if size > cfg.txBufferSize.toUInt32 - 1 then
    return ← sendNrc cfg sidReadMemByAddr nrcResponseTooLong
  let res ← invokeOut cfg (.memRead addr size ⟨1, size.toNat⟩) 1
  if res < 0 then
    return ← sendNrc cfg sidReadMemByAddr (nrcOf res)
  writeTx cfg 0 [sidReadMemByAddr + responseOffset]
  sendResponse cfg (size + 1).toUInt16

/-- The part of `uds_internal_handle_write_memory_by_addr` behind the checks of the length. -/
def writeMemory (cfg : Config W) (d : Sdu) (format : UInt8) (addr size : UInt32) : M W ℤ := do
  let addrLen := addrLenOf format
  let sizeLen := sizeLenOf format
  let consumed := 2 + addrLen.toUInt16 + sizeLen.toUInt16
  if ¬ cfg.isSet .fnMemWrite then
    return ← sendNrc cfg sidWriteMemByAddr nrcConditionsNotCorrect
  if ¬ (← safetyGate cfg sidWriteMemByAddr d) then
    return ← sendNrc cfg sidWriteMemByAddr nrcConditionsNotCorrect
  let reply ← invoke cfg (.memWrite addr size (d.slice consumed.toNat size.toNat))
  if reply.ret < 0 then
    return ← sendNrc cfg sidWriteMemByAddr (nrcOf reply.ret)
  let echo ← bytesAt d 2 (addrLen.toNat + sizeLen.toNat)
  writeTx cfg 0 [sidWriteMemByAddr + responseOffset, format]
  writeTx cfg 2 echo
  sendResponse cfg (2 + addrLen.toUInt16 + sizeLen.toUInt16)

/-- `uds_internal_handle_write_memory_by_addr`. -/
def handleWriteMemoryByAddr (cfg : Config W) (d : Sdu) : M W ℤ := do
  if d.len < 3 then
    return ← sendNrc cfg sidWriteMemByAddr nrcIncorrectLength
  let format ← byteAt d 1
  let addrLen := addrLenOf format
  let sizeLen := sizeLenOf format
  if addrLen = 0 ∨ sizeLen = 0 ∨ addrLen > 4 ∨ sizeLen > 4 then
    return ← sendNrc cfg sidWriteMemByAddr nrcRequestOutOfRange
  let consumed := 2 + addrLen.toUInt16 + sizeLen.toUInt16
  let some (addr, size) ← parseAddrLen d 2 (d.len - 2) format
    | return ← sendNrc cfg sidWriteMemByAddr nrcIncorrectLength
  if d.len ≠ consumed + size.toUInt16 then
    return ← sendNrc cfg sidWriteMemByAddr nrcIncorrectLength
  writeMemory cfg d format addr size

end UdsLib.Services
