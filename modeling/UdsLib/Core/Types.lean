import Mathlib.Data.Int.Notation
import UdsLib.Bytes.Memory
import UdsLib.Bytes.Sdu
import UdsLib.Machine.Program

/-! The context and the configuration of `uds_config.h`, and what the stack does to the
application around it. `W` is the state of that application, which its callbacks change. -/
namespace UdsLib.Core
open Bytes Machine

/-- `uds_ctx_t`. A client callback is known by a number that `Config.responseCb` resolves. -/
structure Ctx where
  activeSession : UInt8
  securityLevel : UInt8
  lastMsgTime : UInt32
  p2TimerStart : UInt32
  p2MsgPending : Bool
  p2StarActive : Bool
  clientCb : Option ℕ
  pendingSid : UInt8
  commState : UInt8
  suppressPosResp : Bool
  p2Ms : UInt16
  p2StarMs : UInt32
  flashSequence : UInt8
  securityDelayEnd : UInt32
  securityAttempts : UInt8
  rcrrpCount : UInt16
  periodicIds : Fin 8 → UInt8
  periodicRates : Fin 8 → UInt8
  periodicTimers : Fin 8 → UInt32
  periodicCount : UInt8

/-- The context after `memset(ctx, 0, sizeof(uds_ctx_t))`. -/
def Ctx.zero : Ctx where
  activeSession := 0
  securityLevel := 0
  lastMsgTime := 0
  p2TimerStart := 0
  p2MsgPending := false
  p2StarActive := false
  clientCb := none
  pendingSid := 0
  commState := 0
  suppressPosResp := false
  p2Ms := 0
  p2StarMs := 0
  flashSequence := 0
  securityDelayEnd := 0
  securityAttempts := 0
  rcrrpCount := 0
  periodicIds := fun _ => 0
  periodicRates := fun _ => 0
  periodicTimers := fun _ => 0
  periodicCount := 0

/-- The function pointers of `uds_config_t` that may be null. -/
inductive Callback where
  | fnLog
  | fnReset
  | fnCommControl
  | fnSecuritySeed
  | fnSecurityKey
  | fnIsSafe
  | fnNvmSave
  | fnNvmLoad
  | fnDtcRead
  | fnDtcClear
  | fnAuth
  | fnRoutineControl
  | fnRequestDownload
  | fnTransferData
  | fnTransferExit
  | fnMemRead
  | fnMemWrite
  | fnIoControl
  | fnRequestUpload
  | fnPeriodicRead
  | fnMutexLock
  | fnMutexUnlock
  deriving DecidableEq, Repr

/-- An output buffer handed to a callback: `&tx_buffer[off]` and the size told with it. -/
structure Room where
  off : ℕ
  cap : ℕ
  deriving DecidableEq, Repr

/-- A call of a callback with its arguments. -/
inductive Call where
  | log (level : UInt8) (msg : String)
  | reset (type : UInt8)
  | commControl (ctrlType commType : UInt8)
  | securitySeed (level : UInt8) (seedBuf : Room)
  | securityKey (level : UInt8) (key : Slice)
  | isSafe (sid : UInt8) (data : Slice)
  | nvmSave (state : List UInt8)
  | nvmLoad (len : UInt16)
  | dtcRead (subfn : UInt8) (outBuf : Room)
  | dtcClear (group : UInt32)
  | auth (subfn : UInt8) (data : Slice) (outBuf : Room)
  | routineControl (type : UInt8) (id : UInt16) (data : Slice) (outBuf : Room)
  | requestDownload (addr size : UInt32)
  | transferData (sequence : UInt8) (data : Slice)
  | transferExit
  | memRead (addr size : UInt32) (outBuf : Room)
  | memWrite (addr size : UInt32) (data : Slice)
  | ioControl (id : UInt16) (type : UInt8) (data : Slice) (outBuf : Room)
  | requestUpload (addr size : UInt32)
  | periodicRead (periodicId : UInt8) (maxLen : UInt16)
  | didRead (did : UInt16) (buf : Room)
  | didWrite (did : UInt16) (data : Slice)
  | mutexLock
  | mutexUnlock
  deriving DecidableEq, Repr

/-- What a callback gives back: its result and the bytes it put into its output buffer. -/
structure Reply where
  ret : ℤ
  out : List UInt8
  deriving DecidableEq, Repr

/-- Application code that the stack runs: a user service handler or a client callback. It may
read the context and acts on the stack through the public interface only. -/
inductive AppProg (W : Type) where
  | done (res : ℤ)
  | look (k : Ctx → W → AppProg W)
  | put (w : W) (k : AppProg W)
  | fill (off : ℕ) (bytes : List UInt8) (k : AppProg W)
  | sendResponse (len : UInt16) (k : ℤ → AppProg W)
  | sendNrc (sid nrc : UInt8) (k : ℤ → AppProg W)
  | clientRequest (sid : UInt8) (data : Buf) (cb : Option ℕ) (k : ℤ → AppProg W)

/-- `uds_service_entry_t`. -/
structure ServiceEntry (H : Type) where
  sid : UInt8
  minLen : UInt16
  sessionMask : UInt8
  securityMask : UInt16
  handler : H
  subMask : Option (List UInt8)

/-- `uds_did_entry_t`. `read` and `write` tell whether the entry has the callback, `storage`
is the address of its data. -/
structure DidEntry where
  id : UInt16
  size : UInt16
  sessionMask : UInt8
  securityMask : UInt16
  read : Bool
  write : Bool
  storage : Option ℕ

/-- A `uds_config_t` that `uds_init` accepts: the mandatory members are there, the optional
callbacks are those of `isSet`, and `app` says what the application answers to a call. -/
structure Config (W : Type) where
  getTimeMs : W → UInt32 × W
  fnTpSend : Ctx → List UInt8 → W → ℤ × W
  isSet : Callback → Bool
  app : Ctx → Call → W → Reply × W
  responseCb : ℕ → UInt8 → Slice → AppProg W
  p2Ms : UInt16
  p2StarMs : UInt32
  txBufferSize : UInt16
  strictCompliance : Bool
  logLevel : UInt8
  securityDelayMs : UInt32
  securityMaxAttempts : UInt8
  rcrrpLimit : UInt16
  transferAcceptLastBlockReplay : Bool
  didTable : List DidEntry
  userServices : List (ServiceEntry (Sdu → AppProg W))
  p2ServerMax : UInt16
  p2StarServerMax : UInt16

/-- The stack and its surroundings: the context, the memory behind `tx_buffer`, the memory of
the DID storages and the state of the application. -/
structure Sys (W : Type) where
  ctx : Ctx
  tx : ℕ → UInt8
  mem : ℕ → UInt8
  world : W

/-- Which message a call of `fn_tp_send` carries. -/
inductive Origin where
  | response
  | nrc
  | periodic
  | request
  deriving DecidableEq, Repr

/-- What the C standard leaves undefined. -/
inductive Fault where
  /-- Byte `i` of the request was read, but the request ends before it. -/
  | requestRead (i : ℕ)
  /-- `tx_buffer[i]` was written, but the buffer ends before it. -/
  | txWrite (i : ℕ)
  /-- `n` bytes were read from the 8-byte buffer of a periodic read. -/
  | outBufRead (n : ℤ)
  /-- A 32-bit value was shifted by `n`. -/
  | shift (n : ℕ)
  deriving DecidableEq, Repr

inductive Event where
  | call (c : Call) (ret : ℤ)
  | time (t : UInt32)
  | tpSend (origin : Origin) (data : List UInt8) (ret : ℤ)
  | responseCb (cb : ℕ) (sid : UInt8) (data : Slice)
  /-- `uds_client_request` for `sid` returned `ret`. -/
  | requested (sid : UInt8) (ret : ℤ)
  /-- `handle_request` was entered with this message. -/
  | dispatch (sdu : List UInt8)
  /-- The handler of the service `sid` was entered. -/
  | handler (sid : UInt8)
  /-- A positive outcome was reached whose response bit 7 suppresses. -/
  | withheld
  | fault (f : Fault)
  deriving DecidableEq, Repr

def Event.isDispatch : Event → Bool
  | .dispatch _ => true
  | _ => false

def Event.isHandler : Event → Bool
  | .handler _ => true
  | _ => false

/-- The message of a call of `fn_tp_send`. -/
def Event.sent? : Event → Option (List UInt8)
  | .tpSend _ data _ => some data
  | _ => none

/-- The messages handed to `fn_tp_send`, in order. -/
def sentOf (es : List Event) : List (List UInt8) := es.filterMap Event.sent?

theorem sentOf_append (es fs : List Event) : sentOf (es ++ fs) = sentOf es ++ sentOf fs :=
  List.filterMap_append ..

/-- Code of the stack. -/
abbrev M (W : Type) : Type → Type := Prog (Sys W) Event

end UdsLib.Core
