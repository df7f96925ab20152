import UdsLib.Core.Types

/-! What the stack's code is made of: reads, writes and calls, and the constants of
`uds_internal.h`. -/
namespace UdsLib.Core
open Bytes Machine Prog

variable {W : Type}

abbrev nrcServiceNotSupported : UInt8 := 0x11
abbrev nrcSubfunctionNotSupported : UInt8 := 0x12
abbrev nrcIncorrectLength : UInt8 := 0x13
abbrev nrcResponseTooLong : UInt8 := 0x14
abbrev nrcBusyRepeatRequest : UInt8 := 0x21
abbrev nrcConditionsNotCorrect : UInt8 := 0x22
abbrev nrcRequestSequenceError : UInt8 := 0x24
abbrev nrcRequestOutOfRange : UInt8 := 0x31
abbrev nrcSecurityAccessDenied : UInt8 := 0x33
abbrev nrcInvalidKey : UInt8 := 0x35
abbrev nrcExceededAttempts : UInt8 := 0x36
abbrev nrcRequiredTimeDelay : UInt8 := 0x37
abbrev nrcResponsePending : UInt8 := 0x78
abbrev nrcServiceNotSuppInSess : UInt8 := 0x7F

abbrev sidSessionControl : UInt8 := 0x10
abbrev sidEcuReset : UInt8 := 0x11
abbrev sidClearDtc : UInt8 := 0x14
abbrev sidReadDtcInfo : UInt8 := 0x19
abbrev sidReadDataById : UInt8 := 0x22
abbrev sidReadMemByAddr : UInt8 := 0x23
abbrev sidSecurityAccess : UInt8 := 0x27
abbrev sidCommControl : UInt8 := 0x28
abbrev sidAuthentication : UInt8 := 0x29
abbrev sidReadByPerId : UInt8 := 0x2A
abbrev sidWriteDataById : UInt8 := 0x2E
abbrev sidIoControlById : UInt8 := 0x2F
abbrev sidRoutineControl : UInt8 := 0x31
abbrev sidRequestDownload : UInt8 := 0x34
abbrev sidRequestUpload : UInt8 := 0x35
abbrev sidTransferData : UInt8 := 0x36
abbrev sidTransferExit : UInt8 := 0x37
abbrev sidWriteMemByAddr : UInt8 := 0x3D
abbrev sidTesterPresent : UInt8 := 0x3E
abbrev sidControlDtcSetting : UInt8 := 0x85

abbrev responseOffset : UInt8 := 0x40

abbrev sessionIdDefault : UInt8 := 0x01
abbrev sessionIdProgramming : UInt8 := 0x02
abbrev sessionIdExtended : UInt8 := 0x03

abbrev udsOk : ℤ := 0
abbrev udsErrInvalidArg : ℤ := -1
abbrev udsErrBufferTooSmall : ℤ := -2
abbrev udsPending : ℤ := 1

abbrev logInfo : UInt8 := 1

def getCtx : M W Ctx := reads Sys.ctx

def setCtx (f : Ctx → Ctx) : M W Unit := modify fun s => { s with ctx := f s.ctx }

/-- `if (c) m;` -/
def onlyIf (c : Prop) [Decidable c] (m : M W Unit) : M W Unit := if c then m else pure ()

/-- `config->get_time_ms()`. -/
def getTime (cfg : Config W) : M W UInt32 := fun s =>
  let r := cfg.getTimeMs s.world
  (r.1, { s with world := r.2 }, [.time r.1])

/-- A call of an application callback. -/
def invoke (cfg : Config W) (c : Call) : M W Reply := fun s =>
  let r := cfg.app s.ctx c s.world
  (r.1, { s with world := r.2 }, [.call c r.1.ret])

def invokeVoid (cfg : Config W) (c : Call) : M W Unit := do
  let _ ← invoke cfg c
  return ()

/-- `data[i]` of a request. -/
def byteAt (d : Sdu) (i : ℕ) : M W UInt8 := fun s =>
  (d.byte i, s, if i < d.bytes.length then [] else [.fault (.requestRead i)])

/-- The source of a `memcpy` of `n` bytes from `data[off]` of a request. -/
def bytesAt (d : Sdu) (off n : ℕ) : M W (List UInt8) := fun s =>
  (slice d.byte off n, s,
    if n = 0 ∨ off + n ≤ d.bytes.length then [] else [.fault (.requestRead (off + n - 1))])

/-- Consecutive writes to `tx_buffer[off]` and behind. -/
def writeTx (cfg : Config W) (off : ℕ) (bs : List UInt8) : M W Unit := fun s =>
  ((), { s with tx := blit s.tx off bs },
    if bs = [] ∨ off + bs.length ≤ cfg.txBufferSize.toNat then []
    else [.fault (.txWrite (off + bs.length - 1))])

/-- A call of a callback whose output buffer starts at `tx_buffer[off]`. -/
def invokeOut (cfg : Config W) (c : Call) (off : ℕ) : M W ℤ := do
  let r ← invoke cfg c
  writeTx cfg off r.out
  return r.ret

/-- `fn_tp_send(ctx, tx_buffer, len)`. -/
def tpSend (cfg : Config W) (origin : Origin) (len : ℕ) : M W ℤ := fun s =>
  let data := slice s.tx 0 len
  let r := cfg.fnTpSend s.ctx data s.world
  (r.1, { s with world := r.2 }, [.tpSend origin data r.1])

/-- The bytes of a DID storage. -/
def readMem (addr n : ℕ) : M W (List UInt8) := reads fun s => slice s.mem addr n

def writeMem (addr : ℕ) (bs : List UInt8) : M W Unit :=
  modify fun s => { s with mem := blit s.mem addr bs }

/-- `uds_internal_log`. -/
def internalLog (cfg : Config W) (level : UInt8) (msg : String) : M W Unit :=
  onlyIf (cfg.isSet .fnLog ∧ level ≤ cfg.logLevel) (invokeVoid cfg (.log level msg))

def mutexLock (cfg : Config W) : M W Unit :=
  onlyIf (cfg.isSet .fnMutexLock) (invokeVoid cfg .mutexLock)

def mutexUnlock (cfg : Config W) : M W Unit :=
  onlyIf (cfg.isSet .fnMutexUnlock) (invokeVoid cfg .mutexUnlock)

/-- `uds_internal_find_did`. -/
def findDid (cfg : Config W) (id : UInt16) : Option DidEntry :=
  cfg.didTable.find? fun entry => entry.id = id

/-- The big-endian number in the `n` bytes of the request from `data[off]` on. -/
def readBe (d : Sdu) (off : ℕ) : ℕ → M W UInt32
  | 0 => pure 0
  | n + 1 => do
    let v ← readBe d off n
    let b ← byteAt d (off + n)
    return v <<< 8 ||| b.toUInt32

/-- `addr_len` of a format byte. -/
def addrLenOf (format : UInt8) : UInt8 := format &&& 0x0F

/-- `size_len` of a format byte. -/
def sizeLenOf (format : UInt8) : UInt8 := (format >>> 4) &&& 0x0F

/-- `uds_internal_parse_addr_len(&data[off], len, format, &addr, &size)`. -/
def parseAddrLen (d : Sdu) (off : ℕ) (len : UInt16) (format : UInt8) :
    M W (Option (UInt32 × UInt32)) := do
  let addrLen := addrLenOf format
  let sizeLen := sizeLenOf format
  if addrLen = 0 ∨ addrLen > 4 ∨ sizeLen = 0 ∨ sizeLen > 4 then
    return none
  if len < addrLen.toUInt16 + sizeLen.toUInt16 then
    return none
  let addr ← readBe d off addrLen.toNat
  let size ← readBe d (off + addrLen.toNat) sizeLen.toNat
  return some (addr, size)

/-- `(uint8_t) - (int32_t) res`. -/
def nrcOf (res : ℤ) : UInt8 := UInt8.ofInt (-res)

/-- `(uint16_t) res`. -/
def lenOf (res : ℤ) : UInt16 := UInt16.ofInt res

section Evaluation

variable (s : Sys W) {α : Type}

theorem value_getCtx_bind (f : Ctx → M W α) :
    (getCtx >>= f).value s = (f s.ctx).value s := rfl
theorem final_getCtx_bind (f : Ctx → M W α) :
    (getCtx >>= f).final s = (f s.ctx).final s := rfl
theorem outputs_getCtx_bind (f : Ctx → M W α) :
    (getCtx >>= f).outputs s = (f s.ctx).outputs s := rfl

@[simp] theorem final_setCtx (f : Ctx → Ctx) : (setCtx f).final s = { s with ctx := f s.ctx } := rfl
@[simp] theorem outputs_setCtx (f : Ctx → Ctx) : (setCtx f).outputs s = [] := rfl

theorem value_byteAt_bind (d : Sdu) (i : ℕ) (f : UInt8 → M W α) :
    (byteAt d i >>= f).value s = (f (d.byte i)).value s := rfl
theorem final_byteAt_bind (d : Sdu) (i : ℕ) (f : UInt8 → M W α) :
    (byteAt d i >>= f).final s = (f (d.byte i)).final s := rfl

theorem outputs_byteAt_then (d : Sdu) (i : ℕ) (f : UInt8 → M W α) :
    (byteAt d i >>= f).outputs s = (byteAt d i).outputs s ++ (f (d.byte i)).outputs s := rfl

theorem outputs_byteAt_bind (d : Sdu) (i : ℕ) (f : UInt8 → M W α) (h : i < d.bytes.length) :
    (byteAt d i >>= f).outputs s = (f (d.byte i)).outputs s := by
  rw [outputs_bind, show (byteAt d i).outputs s = [] from if_pos h]
  rfl

@[simp] theorem final_onlyIf (c : Prop) [Decidable c] (m : M W Unit) :
    (onlyIf c m).final s = if c then m.final s else s := by
  unfold onlyIf
  split_ifs <;> rfl

@[simp] theorem outputs_onlyIf (c : Prop) [Decidable c] (m : M W Unit) :
    (onlyIf c m).outputs s = if c then m.outputs s else [] := by
  unfold onlyIf
  split_ifs <;> rfl

theorem writeTx_faults {cfg : Config W} {off : ℕ} {bs : List UInt8} {e : Event}
    (he : e ∈ (writeTx cfg off bs).outputs s) : ∃ f, e = .fault f := by
  unfold writeTx outputs at he
  split_ifs at he
  · cases he
  · exact ⟨_, List.mem_singleton.mp he⟩

theorem byteAt_faults {d : Sdu} {i : ℕ} {e : Event}
    (he : e ∈ (byteAt d i).outputs s) : ∃ f, e = .fault f := by
  unfold byteAt outputs at he
  split_ifs at he
  · cases he
  · exact ⟨_, List.mem_singleton.mp he⟩

theorem bytesAt_faults {d : Sdu} {off n : ℕ} {e : Event}
    (he : e ∈ (bytesAt d off n).outputs s) : ∃ f, e = .fault f := by
  unfold bytesAt outputs at he
  split_ifs at he
  · cases he
  · exact ⟨_, List.mem_singleton.mp he⟩

end Evaluation

/-- What holds of a fault holds of every event of a list of faults. -/
theorem faults_forall {P : Event → Prop} {es : List Event} (h : ∀ e ∈ es, ∃ f, e = .fault f)
    (hfault : ∀ f, P (.fault f)) : ∀ e ∈ es, P e := by
  intro e he
  obtain ⟨f, rfl⟩ := h e he
  exact hfault f

end UdsLib.Core
