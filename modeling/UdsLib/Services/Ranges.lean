import UdsLib.Services.LateLength

/-! The four services that are told an address range. What a handler makes of a request, up to the
call of the application, depends on its bytes alone. -/
namespace UdsLib.Services
open Bytes Machine Prog UdsLib.Core

variable {W : Type}

/-- What a handler makes of a request: it denies it, or asks the application for a range. -/
inductive Plan where
  | deny (nrc : UInt8)
  | ask (addr size : UInt32)
  deriving DecidableEq, Repr

section Plans

variable (cfg : Config W) (d : Sdu)

def planReadMemory : Plan :=
  if d.bytes.length < 3 then .deny nrcIncorrectLength
  else if ¬ ValidFormat (d.byte 1) then .deny nrcRequestOutOfRange
  else
    match fieldsAt d 2 (d.byte 1) with
    | none => .deny nrcIncorrectLength
    | some (addr, size) =>
      if ¬ cfg.isSet .fnMemRead then .deny nrcConditionsNotCorrect
      else if size > cfg.txBufferSize.toUInt32 - 1 then .deny nrcResponseTooLong
      else .ask addr size

/-- The safety gate, which comes before the application is asked, is left to the handler. -/
def planWriteMemory : Plan :=
  let format := d.byte 1
  if d.bytes.length < 3 then .deny nrcIncorrectLength
  else if ¬ ValidFormat format then .deny nrcRequestOutOfRange
  else
    match fieldsAt d 2 format with
    | none => .deny nrcIncorrectLength
    | some (addr, size) =>
      if d.len ≠ 2 + (addrLenOf format).toUInt16 + (sizeLenOf format).toUInt16 + size.toUInt16 then
        .deny nrcIncorrectLength
      else if ¬ cfg.isSet .fnMemWrite then .deny nrcConditionsNotCorrect
      else .ask addr size

/-- The plan of a download or an upload, whose callback is `callback` and which answers a format byte
out of range with `formatNrc`. -/
def planOpening (callback : Callback) (formatNrc : UInt8) : Plan :=
  if d.bytes.length < 4 then .deny nrcIncorrectLength
  else if ¬ ValidFormat (d.byte 2) then .deny formatNrc
  else
    match fieldsAt d 3 (d.byte 2) with
    | none => .deny nrcIncorrectLength
    | some (addr, size) =>
      if ¬ cfg.isSet callback then .deny nrcConditionsNotCorrect else .ask addr size

def planRequestDownload : Plan := planOpening cfg d .fnRequestDownload nrcRequestOutOfRange

def planRequestUpload : Plan := planOpening cfg d .fnRequestUpload nrcIncorrectLength

end Plans

/-! ### What follows a plan -/

def readRange (cfg : Config W) (addr size : UInt32) : M W ℤ := do
  let res ← invokeOut cfg (.memRead addr size ⟨1, size.toNat⟩) 1
  if res < 0 then
    return ← sendNrc cfg sidReadMemByAddr (nrcOf res)
  writeTx cfg 0 [sidReadMemByAddr + responseOffset]
  sendResponse cfg (size + 1).toUInt16

/-- The part of `writeMemory` behind the check of the callback. -/
def writeRange (cfg : Config W) (d : Sdu) (addr size : UInt32) : M W ℤ := do
  let format := d.byte 1
  let addrLen := addrLenOf format
  let sizeLen := sizeLenOf format
  let consumed := 2 + addrLen.toUInt16 + sizeLen.toUInt16
  if ¬ (← safetyGate cfg sidWriteMemByAddr d) then
    return ← sendNrc cfg sidWriteMemByAddr nrcConditionsNotCorrect
  let reply ← invoke cfg (.memWrite addr size (d.slice consumed.toNat size.toNat))
  if reply.ret < 0 then
    return ← sendNrc cfg sidWriteMemByAddr (nrcOf reply.ret)
  let echo ← bytesAt d 2 (addrLen.toNat + sizeLen.toNat)
  writeTx cfg 0 [sidWriteMemByAddr + responseOffset, format]
  writeTx cfg 2 echo
  sendResponse cfg (2 + addrLen.toUInt16 + sizeLen.toUInt16)

/-- What a download or an upload does with the range it is told. -/
def openRange (cfg : Config W) (sid : UInt8) (call : Call) : M W ℤ := do
  let reply ← invoke cfg call
  if reply.ret < 0 then
    return ← sendNrc cfg sid (nrcOf reply.ret)
  transferAccepted cfg sid

/-- A handler with its plan. -/
def follow (cfg : Config W) (sid : UInt8) (ask : UInt32 → UInt32 → M W ℤ) : Plan → M W ℤ
  | .deny nrc => sendNrc cfg sid nrc
  | .ask addr size => ask addr size

section Handlers

variable {cfg : Config W} {d : Sdu}

/-- A byte of the request is read without more ado. -/
theorem byteAt_inside {i : ℕ} (h : i < d.bytes.length) :
    (byteAt d i : M W UInt8) = pure (d.byte i) := by
  funext s
  exact congrArg (fun es => (d.byte i, s, es)) (if_pos h)

/-- And so are the fields behind a format byte. -/
theorem parseAddrLen_inside {off : ℕ} {len : UInt16} (format : UInt8) (hoff : off ≤ d.bytes.length)
    (hlen : len.toNat = d.bytes.length - off) :
    (parseAddrLen d off len format : M W _) = pure (fieldsAt d off format) := by
  funext s
  obtain ⟨hvalue, hfinal⟩ := parseAddrLen_parts format s hoff hlen
  refine run_ext hvalue hfinal ?_
  by_cases hv : ValidFormat format
  · by_cases hin : off + (addrLenOf format).toNat + (sizeLenOf format).toNat ≤ d.bytes.length
    · obtain ⟨_, _, -, -, houtputs, -⟩ := parseAddrLen_complete d off len s hv (by omega) hin
      exact houtputs
    · rw [parseAddrLen_eq d off len hv, if_pos (by omega)]
      rfl
  · rw [parseAddrLen_malformed d off len hv]
    rfl

theorem nibbles_iff (format : UInt8) :
    (addrLenOf format = 0 ∨ sizeLenOf format = 0 ∨ addrLenOf format > 4 ∨ sizeLenOf format > 4) ↔
      ¬ ValidFormat format := by
  rw [validFormat_iff, not_not]

theorem fieldsAt_invalid {off : ℕ} {format : UInt8} (h : ¬ ValidFormat format) :
    fieldsAt d off format = none := by
  unfold fieldsAt
  exact if_neg fun hfields => h hfields.1

theorem readMemory_follows : handleReadMemoryByAddr cfg d =
    follow cfg sidReadMemByAddr (readRange cfg) (planReadMemory cfg d) := by
  unfold handleReadMemoryByAddr planReadMemory
  by_cases hlen : d.bytes.length < 3
  · rw [if_pos hlen, if_pos (len_lt_iff.mpr hlen)]
    rfl
  have hrest : (d.len - 2).toNat = d.bytes.length - 2 :=
    len_sub (n := 2) (Nat.le_of_succ_le (Nat.not_lt.mp hlen))
  rw [if_neg hlen, if_neg (len_lt_iff.not.mpr hlen), byteAt_inside (by omega), pure_then]
  extract_lets addrLen sizeLen
  by_cases hv : ValidFormat (d.byte 1)
  · rw [if_neg (not_not_intro hv), if_neg ((nibbles_iff _).not.mpr (not_not_intro hv)),
      parseAddrLen_inside _ (by omega) hrest, pure_then]
    cases fieldsAt d 2 (d.byte 1) with
    | none => rfl
    | some fields =>
      obtain ⟨addr, size⟩ := fields
      dsimp only
      split_ifs
      · rfl
      · rfl
      · rfl
  · rw [if_pos hv, if_pos ((nibbles_iff _).mpr hv)]
    rfl

theorem writeMemory_follows : handleWriteMemoryByAddr cfg d =
    follow cfg sidWriteMemByAddr (writeRange cfg d) (planWriteMemory cfg d) := by
  unfold handleWriteMemoryByAddr planWriteMemory
  by_cases hlen : d.bytes.length < 3
  · rw [if_pos (len_lt_iff.mpr hlen)]
    dsimp only
    rw [if_pos hlen]
    rfl
  have hrest : (d.len - 2).toNat = d.bytes.length - 2 :=
    len_sub (n := 2) (Nat.le_of_succ_le (Nat.not_lt.mp hlen))
  rw [if_neg (len_lt_iff.not.mpr hlen), byteAt_inside (by omega), pure_then]
  extract_lets addrLen sizeLen format
  rw [if_neg hlen]
  by_cases hv : ValidFormat (d.byte 1)
  · rw [if_neg (not_not_intro hv), if_neg ((nibbles_iff _).not.mpr (not_not_intro hv)),
      parseAddrLen_inside _ (by omega) hrest, pure_then]
    cases fieldsAt d 2 (d.byte 1) with
    | none => rfl
    | some fields =>
      obtain ⟨addr, size⟩ := fields
      dsimp only
      unfold writeMemory
      split_ifs
      · rfl
      · rfl
      · rfl
  · rw [if_pos hv, if_pos ((nibbles_iff _).mpr hv)]
    rfl

theorem requestDownload_follows : handleRequestDownload cfg d =
    follow cfg sidRequestDownload
      (fun addr size => openRange cfg sidRequestDownload (.requestDownload addr size))
      (planRequestDownload cfg d) := by
  unfold handleRequestDownload planRequestDownload planOpening
  by_cases hlen : d.bytes.length < 4
  · rw [if_pos hlen, if_pos (len_lt_iff.mpr hlen)]
    rfl
  have hrest : (d.len - 3).toNat = d.bytes.length - 3 :=
    len_sub (n := 3) (Nat.le_of_succ_le (Nat.not_lt.mp hlen))
  rw [if_neg hlen, if_neg (len_lt_iff.not.mpr hlen), byteAt_inside (by omega), pure_then]
  extract_lets addrLen sizeLen
  by_cases hv : ValidFormat (d.byte 2)
  · rw [if_neg (not_not_intro hv), if_neg ((nibbles_iff _).not.mpr (not_not_intro hv)),
      parseAddrLen_inside _ (by omega) hrest, pure_then]
    cases fieldsAt d 3 (d.byte 2) with
    | none => rfl
    | some fields =>
      obtain ⟨addr, size⟩ := fields
      dsimp only
      split_ifs
      · rfl
      · rfl
  · rw [if_pos hv, if_pos ((nibbles_iff _).mpr hv)]
    rfl

/-- An upload leaves the format byte to the parser, which gives nothing for one out of range. -/
theorem requestUpload_follows : handleRequestUpload cfg d =
    follow cfg sidRequestUpload
      (fun addr size => openRange cfg sidRequestUpload (.requestUpload addr size))
      (planRequestUpload cfg d) := by
  unfold handleRequestUpload planRequestUpload planOpening
  by_cases hlen : d.bytes.length < 4
  · rw [if_pos hlen, if_pos (len_lt_iff.mpr hlen)]
    rfl
  have hrest : (d.len - 3).toNat = d.bytes.length - 3 :=
    len_sub (n := 3) (Nat.le_of_succ_le (Nat.not_lt.mp hlen))
  rw [if_neg hlen, if_neg (len_lt_iff.not.mpr hlen), byteAt_inside (by omega), pure_then,
    parseAddrLen_inside _ (by omega) hrest, pure_then]
  by_cases hv : ValidFormat (d.byte 2)
  · rw [if_neg (not_not_intro hv)]
    cases fieldsAt d 3 (d.byte 2) with
    | none => rfl
    | some fields =>
      obtain ⟨addr, size⟩ := fields
      dsimp only
      split_ifs
      · rfl
      · rfl
  · rw [if_pos hv, fieldsAt_invalid hv]
    rfl

end Handlers

end UdsLib.Services
