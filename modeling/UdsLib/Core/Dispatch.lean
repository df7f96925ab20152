import UdsLib.Services.Session
import UdsLib.Services.Maintenance
import UdsLib.Services.Data
import UdsLib.Services.Memory
import UdsLib.Services.Security
import UdsLib.Services.Flash
import UdsLib.Services.Io

/-! The service table of `uds_core.c` and the dispatch of a request to a handler. -/
namespace UdsLib.Core
open Bytes Machine Prog Services

variable {W : Type}

/-- A service as the dispatcher finds it. -/
abbrev Service (W : Type) : Type := ServiceEntry (Sdu → M W ℤ)

/-- The sub-function masks: 16 bytes, of which the first may be non-zero. -/
def subMask (first : UInt8) : List UInt8 := first :: List.replicate 15 0

def maskSub10 : List UInt8 := subMask 0x0E
def maskSub11 : List UInt8 := subMask 0x0E
def maskSub19 : List UInt8 := subMask 0x57
def maskSub27 : List UInt8 := 0xFE :: List.replicate 15 0xFF
def maskSub28 : List UInt8 := subMask 0x3F
def maskSub31 : List UInt8 := subMask 0x0E
def maskSub3E : List UInt8 := subMask 0x01
def maskSub85 : List UInt8 := subMask 0x06
def maskSub2A : List UInt8 := subMask 0x1E

/-- An entry of `core_services`: every core service is open to all sessions and levels. -/
def coreService (sid : UInt8) (minLen : UInt16) (handler : Sdu → M W ℤ)
    (subMask : Option (List UInt8)) : Service W where
  sid := sid
  minLen := minLen
  sessionMask := 0xFF
  securityMask := 0
  handler := handler
  subMask := subMask

/-- `core_services`. -/
def coreServices (cfg : Config W) : List (Service W) :=
  [coreService sidSessionControl 2 (handleSessionControl cfg) (some maskSub10),
    coreService sidEcuReset 2 (handleEcuReset cfg) (some maskSub11),
    coreService sidClearDtc 4 (handleClearDtc cfg) none,
    coreService sidReadDtcInfo 2 (handleReadDtcInfo cfg) (some maskSub19),
    coreService sidReadDataById 3 (handleReadDataById cfg) none,
    coreService sidReadMemByAddr 3 (handleReadMemoryByAddr cfg) none,
    coreService sidSecurityAccess 2 (handleSecurityAccess cfg) (some maskSub27),
    coreService sidCommControl 2 (handleCommControl cfg) (some maskSub28),
    coreService sidAuthentication 2 (handleAuthentication cfg) none,
    coreService sidWriteDataById 3 (handleWriteDataById cfg) none,
    coreService sidRoutineControl 4 (handleRoutineControl cfg) (some maskSub31),
    coreService sidRequestDownload 4 (handleRequestDownload cfg) none,
    coreService sidTransferData 2 (handleTransferData cfg) none,
    coreService sidTransferExit 1 (handleRequestTransferExit cfg) none,
    coreService sidWriteMemByAddr 3 (handleWriteMemoryByAddr cfg) none,
    coreService sidTesterPresent 2 (handleTesterPresent cfg) (some maskSub3E),
    coreService sidControlDtcSetting 2 (handleControlDtcSetting cfg) (some maskSub85),
    coreService sidReadByPerId 2 (handlePeriodicRead cfg) (some maskSub2A),
    coreService sidIoControlById 4 (handleIoControl cfg) none,
    coreService sidRequestUpload 4 (handleRequestUpload cfg) none]

/-- A user service runs the application's handler. -/
def userService (cfg : Config W) (entry : ServiceEntry (Sdu → AppProg W)) : Service W where
  sid := entry.sid
  minLen := entry.minLen
  sessionMask := entry.sessionMask
  securityMask := entry.securityMask
  handler := fun d => runApp cfg (entry.handler d)
  subMask := entry.subMask

/-- `find_service`: a user service overrides a core service. -/
def findService (cfg : Config W) (sid : UInt8) : Option (Service W) :=
  match cfg.userServices.find? fun entry => entry.sid = sid with
  | some entry => some (userService cfg entry)
  | none => (coreServices cfg).find? fun entry => entry.sid = sid

/-- `get_session_bit`. -/
def getSessionBit (session : UInt8) : UInt8 :=
  if session = sessionIdDefault then 0x01
  else if session = sessionIdProgramming then 0x04
  else if session = sessionIdExtended then 0x02
  else 0

/-- `is_session_supported`. -/
def isSessionSupported (ctx : Ctx) (service : Service W) : Bool :=
  service.sessionMask &&& getSessionBit ctx.activeSession ≠ 0

/-- `is_subfunction_supported`. -/
def isSubfunctionSupported (service : Service W) (sub : UInt8) : Bool :=
  match service.subMask with
  | none => true
  | some mask => mask.getD (sub >>> 3).toNat 0 &&& (1 <<< (sub &&& 0x7)) ≠ 0

/-- `execute_handler`. -/
def executeHandler (cfg : Config W) (service : Service W) (d : Sdu) : M W Unit := do
  emit (.handler service.sid)
  let res ← service.handler d
  onlyIf (res = udsPending) do
    let sid ← byteAt d 0
    let _ ← sendNrc cfg sid nrcResponsePending
    setCtx fun c => { c with p2MsgPending := true, p2StarActive := true }
    let now ← getTime cfg
    setCtx fun c => { c with p2TimerStart := now, pendingSid := sid }

/-- A negative answer of the dispatcher. -/
def reject (cfg : Config W) (sid nrc : UInt8) : M W Unit := do
  let _ ← sendNrc cfg sid nrc
  return ()

/-- The checks of `handle_request` after those of the sub-function. -/
def handleChecked (cfg : Config W) (service : Service W) (sid : UInt8) (d : Sdu) : M W Unit := do
  if d.len < service.minLen then
    return ← reject cfg sid nrcIncorrectLength
  let ctx ← getCtx
  if service.securityMask > ctx.securityLevel.toUInt16 then
    return ← reject cfg sid nrcSecurityAccessDenied
  if ¬ (← safetyGate cfg sid d) then
    return ← reject cfg sid nrcConditionsNotCorrect
  executeHandler cfg service d

/-- The checks of `handle_request` after that of the session. -/
def handleFound (cfg : Config W) (service : Service W) (sid : UInt8) (d : Sdu) : M W Unit := do
  if service.subMask.isSome then
    if d.len < 2 then
      return ← reject cfg sid nrcIncorrectLength
    let subRaw ← byteAt d 1
    if ¬ isSubfunctionSupported service (subRaw &&& 0x7F) then
      return ← reject cfg sid nrcSubfunctionNotSupported
    setCtx fun c => { c with suppressPosResp := decide (subRaw &&& 0x80 ≠ 0) }
    return ← handleChecked cfg service sid d
  handleChecked cfg service sid d

/-- `handle_request`. -/
def handleRequest (cfg : Config W) (d : Sdu) : M W Unit := do
  emit (.dispatch d.bytes)
  let sid ← byteAt d 0
  let some service := findService cfg sid
    | return ← reject cfg sid nrcServiceNotSupported
  let ctx ← getCtx
  if ¬ isSessionSupported ctx service then
    return ← reject cfg sid nrcServiceNotSuppInSess
  handleFound cfg service sid d

end UdsLib.Core
