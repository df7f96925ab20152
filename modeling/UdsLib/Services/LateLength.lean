import UdsLib.Services.Composition
import UdsLib.Services.WriteMemory

/-! The requests that a handler answers with NRC 0x13: those that fail a check of the length in
the handler itself, and those that the application refuses with this NRC. -/
namespace UdsLib.Services
open Bytes Machine Prog UdsLib.Core

variable {W : Type} {α : Type}

/-- The service `sid` answers with NRC 0x13. -/
def LengthError (sid : UInt8) (es : List Event) : Prop :=
  ∃ ret, Event.tpSend .nrc [nrcServiceNotSuppInSess, sid, nrcIncorrectLength] ret ∈ es

/-- A negative result of a callback that is passed on as NRC 0x13. -/
def RefusesLength (n : ℤ) : Prop := n < 0 ∧ nrcOf n = nrcIncorrectLength

/-- The result of a callback called in the state `u`. -/
def resultOf (cfg : Config W) (u : Sys W) (call : Call) : ℤ := (cfg.app u.ctx call u.world).1.ret

/-- The DID at an index of the request. -/
def didAt (d : Sdu) (i : ℕ) : UInt16 := (d.byte i).toUInt16 <<< 8 ||| (d.byte (i + 1)).toUInt16

/-- The DID is closed to the session of the context. -/
def sessionShut (entry : DidEntry) (c : Ctx) : Prop :=
  entry.sessionMask ≠ 0 ∧
    (1 <<< (c.activeSession.toUInt32 - 1)) &&& entry.sessionMask.toUInt32 = 0

/-- The DID is closed to the security level of the context. -/
def securityShut (entry : DidEntry) (c : Ctx) : Prop :=
  entry.securityMask ≠ 0 ∧
    (1 <<< c.securityLevel.toUInt32) &&& entry.securityMask.toUInt32 = 0

instance (entry : DidEntry) (c : Ctx) : Decidable (sessionShut entry c) :=
  inferInstanceAs (Decidable (_ ∧ _))

instance (entry : DidEntry) (c : Ctx) : Decidable (securityShut entry c) :=
  inferInstanceAs (Decidable (_ ∧ _))

/-- The address and the size behind a format byte, if both are there. -/
def fieldsAt (d : Sdu) (off : ℕ) (format : UInt8) : Option (UInt32 × UInt32) :=
  let addrLen := (addrLenOf format).toNat
  let sizeLen := (sizeLenOf format).toNat
  if ValidFormat format ∧ off + addrLen + sizeLen ≤ d.bytes.length then
    some (.ofNat (ofBe (slice d.byte off addrLen)),
      .ofNat (ofBe (slice d.byte (off + addrLen) sizeLen)))
  else none

/-! ### Late length errors, service by service -/

section Late

variable (cfg : Config W) (u : Sys W) (d : Sdu)

def lateClearDtc : Prop :=
  let call := Call.dtcClear ((d.byte 1).toUInt32 <<< 16 ||| (d.byte 2).toUInt32 <<< 8 |||
    (d.byte 3).toUInt32)
  cfg.isSet .fnDtcClear = true ∧ resultOf cfg u call ≠ udsOk ∧
    nrcOf (resultOf cfg u call) = nrcIncorrectLength

def lateReadDtcInfo : Prop :=
  let sub := d.byte 1 &&& 0x7F
  (reqMask sub = true ∧ d.bytes.length < 3) ∨
    ¬ (reqMask sub = true ∧ d.bytes.length < 3) ∧ cfg.isSet .fnDtcRead = true ∧
      RefusesLength (resultOf cfg u (.dtcRead sub ⟨2, (cfg.txBufferSize - 2).toNat⟩))

/-- The DIDs are read one after the other, each in the world that the one before it left. -/
def lateReadDids (c : Ctx) : List ℕ → UInt16 → W → Prop
  | [], _, _ => False
  | i :: is, txLen, w =>
    match findDid cfg (didAt d i) with
    | none => False
    | some entry =>
      let next := txLen + 2
      ¬ sessionShut entry c ∧ ¬ securityShut entry c ∧
        ¬ txLen.toUInt32 + entry.size.toUInt32 + 2 > cfg.txBufferSize.toUInt32 ∧
        if entry.read then
          let r := cfg.app c (.didRead (didAt d i) ⟨next.toNat, entry.size.toNat⟩) w
          RefusesLength r.1.ret ∨
            ¬ r.1.ret < 0 ∧ lateReadDids c is (next + entry.size) r.2
        else entry.storage.isSome = true ∧ lateReadDids c is (next + entry.size) w

def lateReadDataById : Prop := lateReadDids cfg d u.ctx (didPositions d.bytes.length) 1 u.world

def lateReadMemoryByAddr : Prop :=
  let format := d.byte 1
  ValidFormat format ∧
    match fieldsAt d 2 format with
    | none => True
    | some (addr, size) =>
      cfg.isSet .fnMemRead = true ∧ ¬ size > cfg.txBufferSize.toUInt32 - 1 ∧
        RefusesLength (resultOf cfg u (.memRead addr size ⟨1, size.toNat⟩))

/-- The rejected keys after which the delay begins. -/
def maxAttempts : UInt8 := if cfg.securityMaxAttempts ≠ 0 then cfg.securityMaxAttempts else 3

/-- The clock is read before the application is called. -/
def lateSecurityAccess : Prop :=
  let now := (getTime cfg).value u
  let t := { (getTime cfg).final u with ctx := { u.ctx with securityDelayEnd := 0 } }
  let sub := d.byte 1 &&& 0x7F
  ¬ (u.ctx.securityDelayEnd ≠ 0 ∧ now < u.ctx.securityDelayEnd) ∧
    if sub % 2 ≠ 0 then
      cfg.isSet .fnSecuritySeed = true ∧
        RefusesLength (resultOf cfg t (.securitySeed ((sub.toUInt16 + 1) / 2).toUInt8
          ⟨2, (cfg.txBufferSize - 2).toNat⟩))
    else
      cfg.isSet .fnSecurityKey = true ∧ ¬ u.ctx.securityAttempts + 1 ≥ maxAttempts cfg ∧
        RefusesLength (resultOf cfg t (.securityKey (sub / 2) (d.slice 2 (d.len - 2).toNat)))

def lateCommControl : Prop :=
  let ctrlType := d.byte 1 &&& 0x7F
  let typeNibble := d.byte 2 &&& 0x0F
  let result := resultOf cfg u (.commControl ctrlType (d.byte 2))
  d.bytes.length < 3 ∨
    ¬ d.bytes.length < 3 ∧ ¬ ctrlType > 0x05 ∧ ¬ (typeNibble = 0 ∨ typeNibble > 3) ∧
      cfg.isSet .fnCommControl = true ∧ result ≠ udsOk ∧ nrcOf result = nrcIncorrectLength

def lateAuthentication : Prop :=
  cfg.isSet .fnAuth = true ∧
    RefusesLength (resultOf cfg u (.auth (d.byte 1 &&& 0x7F) (d.slice 2 (d.len - 2).toNat)
      ⟨2, (cfg.txBufferSize - 2).toNat⟩))

def lateWriteDataById : Prop :=
  ∃ entry, findDid cfg (didAt d 1) = some entry ∧ ¬ sessionShut entry u.ctx ∧
    ¬ securityShut entry u.ctx ∧ d.len ≠ 3 + entry.size

def lateRoutineControl : Prop :=
  cfg.isSet .fnRoutineControl = true ∧
    RefusesLength (resultOf cfg u (.routineControl (d.byte 1) (didAt d 2)
      (d.slice 4 (d.len - 4).toNat) ⟨4, (cfg.txBufferSize - 4).toNat⟩))

def lateRequestDownload : Prop :=
  let format := d.byte 2
  ValidFormat format ∧
    match fieldsAt d 3 format with
    | none => True
    | some (addr, size) => cfg.isSet .fnRequestDownload = true ∧
        RefusesLength (resultOf cfg u (.requestDownload addr size))

def lateTransferData : Prop :=
  let sequence := d.byte 1
  let expected :=
    if u.ctx.flashSequence = 0 then 0x01
    else if u.ctx.flashSequence = 0xFF then 0x00 else u.ctx.flashSequence + 1
  cfg.isSet .fnTransferData = true ∧ sequence = expected ∧
    RefusesLength (resultOf cfg u (.transferData sequence (d.slice 2 (d.len - 2).toNat)))

def lateTransferExit : Prop :=
  cfg.isSet .fnTransferExit = true ∧ RefusesLength (resultOf cfg u .transferExit)

/-- The safety gate is asked a second time before the application is called. -/
def lateWriteMemoryByAddr : Prop :=
  let format := d.byte 1
  let consumed := 2 + (addrLenOf format).toUInt16 + (sizeLenOf format).toUInt16
  ValidFormat format ∧
    match fieldsAt d 2 format with
    | none => True
    | some (addr, size) =>
      d.len ≠ consumed + size.toUInt16 ∨
        d.len = consumed + size.toUInt16 ∧ cfg.isSet .fnMemWrite = true ∧
          (safetyGate cfg sidWriteMemByAddr d).value u = true ∧
          RefusesLength (resultOf cfg ((safetyGate cfg sidWriteMemByAddr d).final u)
            (.memWrite addr size (d.slice consumed.toNat size.toNat)))

def lateIoControl : Prop :=
  cfg.isSet .fnIoControl = true ∧
    ∃ entry, findDid cfg (didAt d 1) = some entry ∧ ¬ sessionShut entry u.ctx ∧
      ¬ securityShut entry u.ctx ∧
      RefusesLength (resultOf cfg u (.ioControl (didAt d 1) (d.byte 3)
        (d.slice 4 (d.len - 4).toNat) ⟨3, (cfg.txBufferSize - 3).toNat⟩))

/-- A format byte out of range is a length error here, too. -/
def lateRequestUpload : Prop :=
  match fieldsAt d 3 (d.byte 2) with
  | none => True
  | some (addr, size) => cfg.isSet .fnRequestUpload = true ∧
      RefusesLength (resultOf cfg u (.requestUpload addr size))

/-- Entered in the state `u`, the handler of the service `sid` finds a length error that the
dispatcher has let pass. -/
def LateLength (sid : UInt8) : Prop :=
  match sid with
  | 0x14 => lateClearDtc cfg u d
  | 0x19 => lateReadDtcInfo cfg u d
  | 0x22 => lateReadDataById cfg u d
  | 0x23 => lateReadMemoryByAddr cfg u d
  | 0x27 => lateSecurityAccess cfg u d
  | 0x28 => lateCommControl cfg u d
  | 0x29 => lateAuthentication cfg u d
  | 0x2E => lateWriteDataById cfg u d
  | 0x31 => lateRoutineControl cfg u d
  | 0x34 => lateRequestDownload cfg u d
  | 0x36 => lateTransferData cfg u d
  | 0x37 => lateTransferExit cfg u
  | 0x3D => lateWriteMemoryByAddr cfg u d
  | 0x2F => lateIoControl cfg u d
  | 0x35 => lateRequestUpload cfg u d
  | _ => False

end Late

/-! ### What a program says -/

/-- From `s` the program puts out an answer of the service `sid` with NRC 0x13. -/
def Says (sid : UInt8) (m : M W α) (s : Sys W) : Prop := LengthError sid (m.outputs s)

section Rules

variable {cfg : Config W} {β : Type} {sid : UInt8} {d : Sdu} {s : Sys W}

theorem lengthError_append {es fs : List Event} :
    LengthError sid (es ++ fs) ↔ LengthError sid es ∨ LengthError sid fs := by
  unfold LengthError
  simp only [List.mem_append, exists_or]

theorem not_lengthError {es : List Event} (h : ∀ e ∈ es, ∀ data ret, e ≠ .tpSend .nrc data ret) :
    ¬ LengthError sid es := by
  rintro ⟨ret, hmem⟩
  exact h _ hmem _ _ rfl

theorem single_not_lengthError {e : Event} (h : ∀ data ret, e ≠ .tpSend .nrc data ret) :
    ¬ LengthError sid [e] :=
  not_lengthError fun _ he => List.mem_singleton.mp he ▸ h

theorem faults_not_lengthError {es : List Event} (h : ∀ e ∈ es, ∃ f, e = .fault f) :
    ¬ LengthError sid es := by
  apply not_lengthError
  exact faults_forall h fun _ _ _ => nofun

/-- A program goes on as the rest does behind a start that says nothing. -/
theorem says_bind {m : M W α} {f : α → M W β} (h : ¬ LengthError sid (m.outputs s)) :
    Says sid (m >>= f) s ↔ Says sid (f (m.value s)) (m.final s) := by
  unfold Says
  rw [outputs_bind, lengthError_append]
  exact or_iff_right h

theorem says_byte {i : ℕ} {f : UInt8 → M W β} :
    Says sid (byteAt d i >>= f) s ↔ Says sid (f (d.byte i)) s :=
  says_bind (faults_not_lengthError fun _ => byteAt_faults s)

theorem says_bytes {off n : ℕ} {f : List UInt8 → M W β} :
    Says sid (bytesAt d off n >>= f) s ↔ Says sid (f (slice d.byte off n)) s :=
  says_bind (faults_not_lengthError fun _ => bytesAt_faults s)

theorem says_ctx {f : Ctx → M W β} : Says sid (getCtx >>= f) s ↔ Says sid (f s.ctx) s := Iff.rfl

theorem says_time {f : UInt32 → M W β} : Says sid (getTime cfg >>= f) s ↔
    Says sid (f ((getTime cfg).value s)) ((getTime cfg).final s) :=
  says_bind (single_not_lengthError fun _ _ => nofun)

theorem says_assign {g : Ctx → Ctx} {f : Unit → M W β} :
    Says sid (setCtx g >>= f) s ↔ Says sid (f ()) { s with ctx := g s.ctx } := Iff.rfl

theorem says_read {addr n : ℕ} {f : List UInt8 → M W β} :
    Says sid (readMem addr n >>= f) s ↔ Says sid (f (slice s.mem addr n)) s := Iff.rfl

theorem says_write {off : ℕ} {bs : List UInt8} {f : Unit → M W β} :
    Says sid (writeTx cfg off bs >>= f) s ↔ Says sid (f ()) ((writeTx cfg off bs).final s) :=
  says_bind (faults_not_lengthError fun _ => writeTx_faults s)

/-- A look says nothing. -/
theorem says_look {m : M W α} {f : α → M W β} (hm : Composed (Look cfg True True) m) :
    Says sid (m >>= f) s ↔ Says sid (f (m.value s)) (m.final s) := by
  apply says_bind
  apply not_lengthError
  intro e he data ret hsent
  have hlook := (Look.composed hm s).events e he
  rw [hsent] at hlook
  exact absurd hlook Bool.false_ne_true

theorem maskAdmits_final (shift mask : UInt32) : (maskAdmits shift mask).final s = s := by
  unfold maskAdmits
  rw [final_bind, final_onlyIf]
  split_ifs <;> rfl

theorem sessionRefused_final (entry : DidEntry) (s : Sys W) :
    (sessionRefused entry).final s = s := by
  unfold sessionRefused
  rw [final_ite, final_getCtx_bind, final_bind, maskAdmits_final]
  split_ifs <;> rfl

theorem sessionRefused_value (entry : DidEntry) (s : Sys W) :
    (sessionRefused entry).value s = decide (sessionShut entry s.ctx) := by
  unfold sessionRefused sessionShut
  by_cases hmask : entry.sessionMask = 0
  · simp [hmask]
  · rw [if_neg hmask, value_getCtx_bind]
    simp [hmask, maskAdmits]

theorem securityRefused_final (entry : DidEntry) (s : Sys W) :
    (securityRefused entry).final s = s := by
  unfold securityRefused
  rw [final_ite, final_getCtx_bind, final_bind, maskAdmits_final]
  split_ifs <;> rfl

theorem securityRefused_value (entry : DidEntry) (s : Sys W) :
    (securityRefused entry).value s = decide (securityShut entry s.ctx) := by
  unfold securityRefused securityShut
  by_cases hmask : entry.securityMask = 0
  · simp [hmask]
  · rw [if_neg hmask, value_getCtx_bind]
    simp [hmask, maskAdmits]

theorem says_sessionRefused (cfg : Config W) {entry : DidEntry} {f : Bool → M W β} :
    Says sid (sessionRefused entry >>= f) s ↔ Says sid (f (sessionShut entry s.ctx)) s := by
  have hlook : Composed (Look cfg True True) (sessionRefused entry) := sessionRefused_look entry
  rw [says_look hlook, sessionRefused_final, sessionRefused_value]

theorem says_securityRefused (cfg : Config W) {entry : DidEntry} {f : Bool → M W β} :
    Says sid (securityRefused entry >>= f) s ↔ Says sid (f (securityShut entry s.ctx)) s := by
  have hlook : Composed (Look cfg True True) (securityRefused entry) := securityRefused_look entry
  rw [says_look hlook, securityRefused_final, securityRefused_value]

theorem fieldsAt_incomplete {off : ℕ} {format : UInt8} (h : d.bytes.length <
    off + (addrLenOf format).toNat + (sizeLenOf format).toNat) : fieldsAt d off format = none := by
  unfold fieldsAt
  exact if_neg fun hfields => absurd hfields.2 (Nat.not_le.mpr h)

theorem fieldsAt_valid {off : ℕ} {format : UInt8} {fields : UInt32 × UInt32}
    (h : fieldsAt d off format = some fields) : ValidFormat format := by
  unfold fieldsAt at h
  extract_lets addrLen sizeLen at h
  split_ifs at h with hfields
  exact hfields.1

/-- A parser of the fields finds them and changes nothing. -/
theorem parseAddrLen_parts {off : ℕ} {len : UInt16} (format : UInt8) (s : Sys W)
    (hoff : off ≤ d.bytes.length) (hlen : len.toNat = d.bytes.length - off) :
    (parseAddrLen d off len format).value s = fieldsAt d off format ∧
      (parseAddrLen d off len format).final s = s := by
  by_cases hv : ValidFormat format
  · by_cases hin : off + (addrLenOf format).toNat + (sizeLenOf format).toNat ≤ d.bytes.length
    · obtain ⟨addr, size, hvalue, hfinal, -, haddr, hsize⟩ :=
        parseAddrLen_complete d off len s hv (by omega) hin
      refine ⟨?_, hfinal⟩
      unfold fieldsAt
      rw [hvalue, if_pos ⟨hv, hin⟩, ← haddr, ← hsize, UInt32.ofNat_toNat, UInt32.ofNat_toNat]
    · rw [parseAddrLen_eq d off len hv, if_pos (by omega), fieldsAt_incomplete (by omega)]
      exact ⟨rfl, rfl⟩
  · unfold fieldsAt
    rw [parseAddrLen_malformed d off len hv, if_neg fun h => hv h.1]
    exact ⟨rfl, rfl⟩

/-- What a parser of the fields goes on with. -/
theorem says_fields (cfg : Config W) {off : ℕ} {len : UInt16} {format : UInt8}
    {f : Option (UInt32 × UInt32) → M W β} (hoff : off ≤ d.bytes.length)
    (hlen : len.toNat = d.bytes.length - off) :
    Says sid (parseAddrLen d off len format >>= f) s ↔ Says sid (f (fieldsAt d off format)) s := by
  have hlook : Composed (Look cfg True True) (parseAddrLen d off len format) :=
    Look.parseAddrLen d off len format
  obtain ⟨hvalue, hfinal⟩ := parseAddrLen_parts format s hoff hlen
  rw [says_look hlook, hvalue, hfinal]

/-- The flag is up already. -/
theorem says_suppress {c : Prop} [Decidable c] {f : Unit → M W β}
    (hc : c → s.ctx.suppressPosResp = true) :
    Says sid (onlyIf c setSuppress >>= f) s ↔ Says sid (f ()) s := by
  unfold onlyIf
  by_cases h : c
  · have hsame : { s with ctx := { s.ctx with suppressPosResp := true } } = s := by
      rw [← hc h]
    rw [if_pos h]
    exact says_assign.trans (by rw [hsame])
  · rw [if_neg h]
    exact Iff.rfl

theorem says_call {call : Call} {f : Reply → M W β} : Says sid (invoke cfg call >>= f) s ↔
    Says sid (f (cfg.app s.ctx call s.world).1) ((invoke cfg call).final s) :=
  says_bind (single_not_lengthError fun _ _ => nofun)

theorem says_callOut {call : Call} {off : ℕ} {f : ℤ → M W β} :
    Says sid (invokeOut cfg call off >>= f) s ↔
      Says sid (f (resultOf cfg s call)) ((invokeOut cfg call off).final s) := by
  apply says_bind
  unfold invokeOut
  rw [outputs_bind, lengthError_append, outputs_bind, lengthError_append]
  have hcall : ¬ LengthError sid [.call call (resultOf cfg s call)] :=
    single_not_lengthError fun _ _ => nofun
  rintro (h | h | ⟨ret, hmem⟩)
  · exact hcall h
  · exact faults_not_lengthError (fun _ => writeTx_faults _) h
  · exact List.not_mem_nil hmem

theorem says_refuse (htx : 3 ≤ cfg.txBufferSize) {nrc : UInt8} :
    Says sid (sendNrc cfg sid nrc) s ↔ nrc = nrcIncorrectLength := by
  obtain ⟨faults, hfaults, ret, houtputs⟩ := sendNrc_outputs cfg sid nrc s
  unfold Says
  rw [houtputs, if_pos htx, lengthError_append]
  constructor
  · rintro (h | ⟨ret', hmem⟩)
    · exact absurd h (faults_not_lengthError hfaults)
    · have heq := List.mem_singleton.mp hmem
      simp only [Event.tpSend.injEq, List.cons.injEq] at heq
      exact heq.2.1.2.2.1.symm
  · rintro rfl
    exact Or.inr ⟨ret, List.mem_singleton.mpr rfl⟩

theorem not_says_response {len : UInt16} : ¬ Says sid (sendResponse cfg len) s := by
  have hkept : Keeps (fun _ es _ => ¬ LengthError sid es) (sendResponse cfg len) := by
    apply sendResponse_keeps
    · exact fun _ => not_lengthError nofun
    · exact fun _ => single_not_lengthError fun _ _ => Event.noConfusion
    · intro s ret w
      apply single_not_lengthError
      rintro data ret' hnrc
      cases hnrc
  exact hkept s

theorem not_says_respond {off : ℕ} {bs : List UInt8} {len : UInt16} :
    ¬ Says sid (writeTx cfg off bs >>= fun _ => sendResponse cfg len) s := by
  rw [says_write]
  exact not_says_response

/-- A check with another NRC has to be passed. -/
theorem says_check (htx : 3 ≤ cfg.txBufferSize) {c : Prop} [Decidable c] {nrc : UInt8} {n : M W ℤ}
    (hnrc : nrc ≠ nrcIncorrectLength) :
    Says sid (if c then sendNrc cfg sid nrc else n) s ↔ ¬ c ∧ Says sid n s := by
  split_ifs with hc
  · rw [says_refuse htx]
    exact iff_of_false hnrc fun h => h.1 hc
  · exact (and_iff_right hc).symm

/-- A check of the length is failed, or it has to be passed. -/
theorem says_length (htx : 3 ≤ cfg.txBufferSize) {c : Prop} [Decidable c] {n : M W ℤ} :
    Says sid (if c then sendNrc cfg sid nrcIncorrectLength else n) s ↔ c ∨ ¬ c ∧ Says sid n s := by
  split_ifs with hc
  · rw [says_refuse htx]
    exact iff_of_true rfl (Or.inl hc)
  · exact (and_iff_right hc).symm.trans (or_iff_right hc).symm

theorem says_either (htx : 3 ≤ cfg.txBufferSize) {c : Prop} [Decidable c] {nrc : UInt8}
    {n : M W ℤ} : Says sid (if c then sendNrc cfg sid nrc else n) s ↔
      c ∧ nrc = nrcIncorrectLength ∨ ¬ c ∧ Says sid n s := by
  split_ifs with hc
  · rw [says_refuse htx]
    simp [hc]
  · simp [hc]

/-- The result of a callback is the last chance. -/
theorem says_result (htx : 3 ≤ cfg.txBufferSize) {c : Prop} [Decidable c] {nrc : UInt8} {n : M W ℤ}
    (hn : ¬ Says sid n s) :
    Says sid (if c then sendNrc cfg sid nrc else n) s ↔ c ∧ nrc = nrcIncorrectLength := by
  rw [says_either htx]
  exact or_iff_left fun h => hn h.2

end Rules

/-! ### The handlers -/

section Handlers

variable {cfg : Config W} {d : Sdu} {u : Sys W}

theorem clearDtc_lengthError (htx : 3 ≤ cfg.txBufferSize) (hlen : 4 ≤ d.bytes.length) :
    Says sidClearDtc (handleClearDtc cfg d) u ↔ lateClearDtc cfg u d := by
  unfold handleClearDtc lateClearDtc
  rw [if_neg (not_len_lt (n := 4) hlen), says_check htx (by decide), not_not, says_byte, says_byte, says_byte]
  rw [says_call, says_result htx not_says_respond]
  rfl

theorem not_says_withheld {sid : UInt8} : ¬ Says (W := W) sid returnSuppressed u := by
  rintro ⟨ret, hmem⟩
  exact nomatch List.mem_singleton.mp hmem

theorem len_lt_three : d.len < 3 ↔ d.bytes.length < 3 := by
  rw [UInt16.lt_iff_toNat_lt, d.len_toNat]
  rfl

theorem readDtcInfo_lengthError (htx : 3 ≤ cfg.txBufferSize) (hlen : 2 ≤ d.bytes.length)
    (hup : d.byte 1 &&& 0x80 ≠ 0 → u.ctx.suppressPosResp = true) :
    Says sidReadDtcInfo (handleReadDtcInfo cfg d) u ↔ lateReadDtcInfo cfg u d := by
  unfold handleReadDtcInfo lateReadDtcInfo
  rw [if_neg (not_len_lt (n := 2) hlen), says_byte, says_length htx, says_check htx (by decide),
    not_not, says_suppress hup, len_lt_three]
  extract_lets sub maxPayload
  rw [says_callOut, says_result htx]
  · rfl
  · split_ifs
    · exact not_says_withheld
    · exact not_says_respond

theorem voidCall_lengthError {sid : UInt8} (call : Call) :
    ¬ LengthError sid ((invokeVoid cfg call).outputs u) := by
  have hcall : ¬ LengthError sid [.call call (resultOf cfg u call)] :=
    single_not_lengthError fun _ _ => nofun
  exact hcall

theorem says_optional {sid : UInt8} {c : Prop} [Decidable c] {call : Call} {f : Unit → M W ℤ} :
    Says sid (onlyIf c (invokeVoid cfg call) >>= f) u ↔
      Says sid (f ()) ((onlyIf c (invokeVoid cfg call)).final u) := by
  apply says_bind
  rw [outputs_onlyIf]
  split_ifs
  · exact voidCall_lengthError call
  · exact not_lengthError fun _ he => nomatch he

theorem commControlled_lengthError : ¬ Says sidCommControl (commControlled cfg (d.byte 1)) u := by
  unfold commControlled
  extract_lets ctrlType
  rw [says_assign]
  unfold internalLog
  rw [says_optional]
  split_ifs
  · exact not_says_withheld
  · exact not_says_respond

theorem commControl_lengthError (htx : 3 ≤ cfg.txBufferSize)
    (hup : d.byte 1 &&& 0x80 ≠ 0 → u.ctx.suppressPosResp = true) :
    Says sidCommControl (handleCommControl cfg d) u ↔ lateCommControl cfg u d := by
  unfold handleCommControl lateCommControl
  rw [says_length htx, says_byte, says_byte, says_check htx (by decide), says_check htx (by decide),
    says_suppress hup, len_lt_three]
  by_cases hset : cfg.isSet .fnCommControl = true
  · rw [if_pos hset, says_call, says_result htx commControlled_lengthError]
    simp only [hset, true_and]
    rfl
  · rw [if_neg hset]
    simp only [hset, commControlled_lengthError, Bool.false_eq_true, false_and, and_false]

theorem authentication_lengthError (htx : 3 ≤ cfg.txBufferSize) (hlen : 2 ≤ d.bytes.length) :
    Says sidAuthentication (handleAuthentication cfg d) u ↔ lateAuthentication cfg u d := by
  unfold handleAuthentication lateAuthentication
  rw [if_neg (not_len_lt (n := 2) hlen), says_byte, says_check htx (by decide), not_not]
  extract_lets maxPayload
  rw [says_callOut, says_result htx not_says_respond]
  rfl

theorem routineControl_lengthError (htx : 3 ≤ cfg.txBufferSize) (hlen : 4 ≤ d.bytes.length) :
    Says sidRoutineControl (handleRoutineControl cfg d) u ↔ lateRoutineControl cfg u d := by
  unfold handleRoutineControl lateRoutineControl
  rw [if_neg (not_len_lt (n := 4) hlen), says_byte, says_byte, says_byte, says_check htx (by decide),
    not_not]
  extract_lets maxPayload
  rw [says_callOut, says_result htx not_says_respond]
  rfl

theorem transferExit_lengthError (htx : 3 ≤ cfg.txBufferSize) :
    Says sidTransferExit (handleRequestTransferExit cfg d) u ↔ lateTransferExit cfg u := by
  unfold handleRequestTransferExit lateTransferExit
  rw [says_check htx (by decide), not_not, says_call, says_result htx not_says_respond]
  rfl

theorem transferBlock_lengthError (htx : 3 ≤ cfg.txBufferSize) (sequence : UInt8) :
    Says sidTransferData (transferBlock cfg d sequence) u ↔
      RefusesLength (resultOf cfg u (.transferData sequence (d.slice 2 (d.len - 2).toNat))) := by
  unfold transferBlock
  rw [says_call, says_result htx]
  · rfl
  · rw [says_assign]
    exact not_says_respond

theorem transferData_lengthError (htx : 3 ≤ cfg.txBufferSize) (hlen : 2 ≤ d.bytes.length) :
    Says sidTransferData (handleTransferData cfg d) u ↔ lateTransferData cfg u d := by
  have hlate (nrc : UInt8) (hnrc : nrc ≠ nrcIncorrectLength) :
      ¬ Says sidTransferData (sendNrc cfg sidTransferData nrc) u := (says_refuse htx).not.mpr hnrc
  unfold handleTransferData lateTransferData
  rw [if_neg (not_len_lt (n := 2) hlen), says_check htx (by decide), not_not, says_byte, says_ctx]
  refine and_congr_right fun _ => ?_
  by_cases hfirst : u.ctx.flashSequence = 0
  · rw [if_pos hfirst, if_pos hfirst, says_check htx (by decide), not_not, transferBlock_lengthError htx]
  · rw [if_neg hfirst, if_neg hfirst]
    extract_lets expected
    by_cases hnext : d.byte 1 = expected
    · rw [if_neg (not_not_intro hnext), transferBlock_lengthError htx]
      exact (and_iff_right hnext).symm
    · rw [if_pos hnext]
      refine iff_of_false ?_ fun h => hnext h.1
      split_ifs
      · exact not_says_respond
      · exact hlate _ (by decide)

theorem transferAccepted_lengthError {sid : UInt8} : ¬ Says sid (transferAccepted cfg sid) u := by
  unfold transferAccepted
  rw [says_assign]
  exact not_says_respond

/-- A handler that answers a format byte out of range on its own. -/
theorem says_format (htx : 3 ≤ cfg.txBufferSize) {sid format nrc : UInt8} {n : M W ℤ}
    (hnrc : nrc ≠ nrcIncorrectLength) :
    Says sid (if addrLenOf format = 0 ∨ sizeLenOf format = 0 ∨ addrLenOf format > 4 ∨
      sizeLenOf format > 4 then sendNrc cfg sid nrc else n) u ↔ ValidFormat format ∧ Says sid n u := by
  rw [says_check htx hnrc, validFormat_iff]

theorem requestDownload_lengthError (htx : 3 ≤ cfg.txBufferSize) (hlen : 4 ≤ d.bytes.length) :
    Says sidRequestDownload (handleRequestDownload cfg d) u ↔ lateRequestDownload cfg u d := by
  have hrest : (d.len - 3).toNat = d.bytes.length - 3 := len_sub (n := 3) (Nat.le_of_succ_le hlen)
  unfold handleRequestDownload lateRequestDownload
  rw [if_neg (not_len_lt (n := 4) hlen), says_byte]
  extract_lets addrLen sizeLen format
  rw [says_format htx (by decide), says_fields cfg (by omega) hrest]
  cases fieldsAt d 3 (d.byte 2) with
  | none => exact and_congr_right fun _ => iff_of_true ((says_refuse htx).mpr rfl) trivial
  | some fields =>
    obtain ⟨addr, size⟩ := fields
    dsimp only
    rw [says_check htx (by decide), not_not, says_call, says_result htx transferAccepted_lengthError]
    rfl

theorem requestUpload_lengthError (htx : 3 ≤ cfg.txBufferSize) (hlen : 4 ≤ d.bytes.length) :
    Says sidRequestUpload (handleRequestUpload cfg d) u ↔ lateRequestUpload cfg u d := by
  have hrest : (d.len - 3).toNat = d.bytes.length - 3 := len_sub (n := 3) (Nat.le_of_succ_le hlen)
  unfold handleRequestUpload lateRequestUpload
  rw [if_neg (not_len_lt (n := 4) hlen), says_byte, says_fields cfg (by omega) hrest]
  cases fieldsAt d 3 (d.byte 2) with
  | none => exact iff_of_true ((says_refuse htx).mpr rfl) trivial
  | some fields =>
    obtain ⟨addr, size⟩ := fields
    dsimp only
    rw [says_check htx (by decide), not_not, says_call, says_result htx transferAccepted_lengthError]
    rfl

theorem readMemoryByAddr_lengthError (htx : 3 ≤ cfg.txBufferSize) (hlen : 3 ≤ d.bytes.length) :
    Says sidReadMemByAddr (handleReadMemoryByAddr cfg d) u ↔ lateReadMemoryByAddr cfg u d := by
  have hrest : (d.len - 2).toNat = d.bytes.length - 2 := len_sub (n := 2) (Nat.le_of_succ_le hlen)
  unfold handleReadMemoryByAddr lateReadMemoryByAddr
  rw [if_neg (not_len_lt (n := 3) hlen), says_byte]
  extract_lets addrLen sizeLen format
  rw [says_format htx (by decide), says_fields cfg (by omega) hrest]
  cases fieldsAt d 2 (d.byte 1) with
  | none => exact and_congr_right fun _ => iff_of_true ((says_refuse htx).mpr rfl) trivial
  | some fields =>
    obtain ⟨addr, size⟩ := fields
    dsimp only
    rw [says_check htx (by decide), not_not, says_check htx (by decide), says_callOut,
      says_result htx not_says_respond]
    rfl

theorem writeMemory_lengthError (htx : 3 ≤ cfg.txBufferSize) (format : UInt8) (addr size : UInt32) :
    Says sidWriteMemByAddr (writeMemory cfg d format addr size) u ↔
      cfg.isSet .fnMemWrite = true ∧ (safetyGate cfg sidWriteMemByAddr d).value u = true ∧
        RefusesLength (resultOf cfg ((safetyGate cfg sidWriteMemByAddr d).final u)
          (.memWrite addr size (d.slice
            (2 + (addrLenOf format).toUInt16 + (sizeLenOf format).toUInt16).toNat size.toNat))) := by
  have hdone {echo : List UInt8} (t : Sys W) : ¬ Says sidWriteMemByAddr (do
      writeTx cfg 0 [sidWriteMemByAddr + responseOffset, format]
      writeTx cfg 2 echo
      sendResponse cfg (2 + (addrLenOf format).toUInt16 + (sizeLenOf format).toUInt16)) t := by
    rw [says_write]
    exact not_says_respond
  unfold writeMemory
  extract_lets addrLen sizeLen consumed
  rw [says_check htx (by decide), not_not, says_look (Look.safetyGate _ _), says_check htx (by decide),
    not_not, says_call, says_result htx]
  · rfl
  · rw [says_bytes]
    exact hdone _

theorem writeMemoryByAddr_lengthError (htx : 3 ≤ cfg.txBufferSize) (hlen : 3 ≤ d.bytes.length) :
    Says sidWriteMemByAddr (handleWriteMemoryByAddr cfg d) u ↔ lateWriteMemoryByAddr cfg u d := by
  have hrest : (d.len - 2).toNat = d.bytes.length - 2 := len_sub (n := 2) (Nat.le_of_succ_le hlen)
  unfold handleWriteMemoryByAddr lateWriteMemoryByAddr
  rw [if_neg (not_len_lt (n := 3) hlen), says_byte]
  extract_lets addrLen sizeLen consumed format
  rw [says_format htx (by decide), says_fields cfg (by omega) hrest]
  cases fieldsAt d 2 (d.byte 1) with
  | none => exact and_congr_right fun _ => iff_of_true ((says_refuse htx).mpr rfl) trivial
  | some fields =>
    obtain ⟨addr, size⟩ := fields
    dsimp only
    rw [says_length htx, writeMemory_lengthError htx, not_not]

theorem ioControl_lengthError (htx : 3 ≤ cfg.txBufferSize) (hlen : 4 ≤ d.bytes.length) :
    Says sidIoControlById (handleIoControl cfg d) u ↔ lateIoControl cfg u d := by
  have hid : (d.byte 1).toUInt16 <<< 8 ||| (d.byte 2).toUInt16 = didAt d 1 := rfl
  unfold handleIoControl lateIoControl
  rw [if_neg (not_len_lt (n := 4) hlen), says_byte, says_byte, says_byte, says_check htx (by decide),
    not_not, hid]
  refine and_congr_right fun _ => ?_
  cases findDid cfg (didAt d 1) with
  | none => exact iff_of_false ((says_refuse htx).not.mpr (by decide)) nofun
  | some entry =>
    dsimp only
    rw [says_sessionRefused cfg, says_check htx (by decide), says_securityRefused cfg,
      says_check htx (by decide), decide_eq_true_iff, decide_eq_true_iff, says_callOut,
      says_result htx not_says_respond]
    simp only [Option.some.injEq, exists_eq_left']
    rfl

theorem writeDid_lengthError {sid : UInt8} {did : UInt16} {entry : DidEntry} {f : Bool → M W ℤ}
    (hf : ∀ ok t, ¬ Says sid (f ok) t) : ¬ Says sid (writeDid cfg d did entry >>= f) u := by
  have hquiet : ¬ LengthError sid ((writeDid cfg d did entry).outputs u) := by
    unfold writeDid
    rw [outputs_ite]
    split_ifs
    · have hcall : ¬ LengthError sid [.call (.didWrite did (d.slice 3 entry.size.toNat))
        (resultOf cfg u (.didWrite did (d.slice 3 entry.size.toNat)))] :=
        single_not_lengthError fun _ _ => nofun
      exact hcall
    · cases entry.storage with
      | none => exact not_lengthError fun _ he => nomatch he
      | some storage =>
        rw [outputs_bind, lengthError_append]
        rintro (h | ⟨ret, hmem⟩)
        · exact faults_not_lengthError (fun _ => bytesAt_faults _) h
        · exact List.not_mem_nil hmem
  rw [says_bind hquiet]
  exact hf _ _

theorem writeDataById_lengthError (htx : 3 ≤ cfg.txBufferSize) (hlen : 3 ≤ d.bytes.length) :
    Says sidWriteDataById (handleWriteDataById cfg d) u ↔ lateWriteDataById cfg u d := by
  have hid : (d.byte 1).toUInt16 <<< 8 ||| (d.byte 2).toUInt16 = didAt d 1 := rfl
  unfold handleWriteDataById lateWriteDataById
  rw [if_neg (not_len_lt (n := 3) hlen), says_byte, says_byte]
  dsimp only
  rw [hid]
  cases findDid cfg (didAt d 1) with
  | none => exact iff_of_false ((says_refuse htx).not.mpr (by decide)) nofun
  | some entry =>
    have hstored : ¬ Says sidWriteDataById (writeDid cfg d (didAt d 1) entry >>= fun ok =>
        if ok = true then do
          writeTx cfg 0 [sidWriteDataById + responseOffset, d.byte 1, d.byte 2]
          sendResponse cfg 3
        else sendNrc cfg sidWriteDataById nrcConditionsNotCorrect) u := by
      apply writeDid_lengthError
      intro ok t
      split_ifs
      · exact not_says_respond
      · exact (says_refuse htx).not.mpr (by decide)
    dsimp only
    rw [says_sessionRefused cfg, says_check htx (by decide), says_securityRefused cfg,
      says_check htx (by decide), decide_eq_true_iff, decide_eq_true_iff, says_length htx]
    simp only [Option.some.injEq, exists_eq_left', hstored, and_false, or_false]

theorem readDids_lengthError (htx : 3 ≤ cfg.txBufferSize) (is : List ℕ) (txLen : UInt16) :
    Says sidReadDataById (readDids cfg d is txLen) u ↔
      lateReadDids cfg d u.ctx is txLen u.world := by
  induction is generalizing txLen u with
  | nil => exact iff_of_false not_says_respond id
  | cons i is ih =>
    have hid : (d.byte i).toUInt16 <<< 8 ||| (d.byte (i + 1)).toUInt16 = didAt d i := rfl
    unfold readDids lateReadDids
    rw [says_byte, says_byte]
    dsimp only
    rw [hid]
    cases findDid cfg (didAt d i) with
    | none => exact iff_of_false ((says_refuse htx).not.mpr (by decide)) id
    | some entry =>
      dsimp only
      rw [says_sessionRefused cfg, says_check htx (by decide), says_securityRefused cfg,
        says_check htx (by decide), decide_eq_true_iff, decide_eq_true_iff,
        says_check htx (by decide), says_write]
      refine and_congr_right fun _ => and_congr_right fun _ => and_congr_right fun _ => ?_
      by_cases hread : entry.read = true
      · rw [if_pos hread, if_pos hread, says_callOut, says_either htx, ih]
        rfl
      · rw [if_neg hread, if_neg hread]
        cases entry.storage with
        | none =>
          apply iff_of_false ((says_refuse htx).not.mpr (by decide))
          exact fun h => Bool.false_ne_true h.1
        | some storage =>
          dsimp only
          rw [says_read, says_write, ih]
          exact (and_iff_right rfl).symm

theorem requestSeed_lengthError (htx : 3 ≤ cfg.txBufferSize) :
    Says sidSecurityAccess (requestSeed cfg (d.byte 1)) u ↔ cfg.isSet .fnSecuritySeed = true ∧
      RefusesLength (resultOf cfg u (.securitySeed
        (((d.byte 1 &&& 0x7F).toUInt16 + 1) / 2).toUInt8 ⟨2, (cfg.txBufferSize - 2).toNat⟩)) := by
  unfold requestSeed
  extract_lets sub
  rw [says_check htx (by decide), not_not, says_write, says_callOut, says_result htx not_says_response]
  rfl

theorem keyRejected_lengthError (htx : 3 ≤ cfg.txBufferSize) (now : UInt32) {res : ℤ} :
    Says sidSecurityAccess (keyRejected cfg now res) u ↔
      ¬ u.ctx.securityAttempts + 1 ≥ maxAttempts cfg ∧ RefusesLength res := by
  unfold keyRejected
  rw [says_assign, says_ctx]
  extract_lets maxAtt delay
  by_cases hlimit : u.ctx.securityAttempts + 1 ≥ maxAttempts cfg
  · have hlimit' : { u.ctx with securityAttempts := u.ctx.securityAttempts + 1 }.securityAttempts ≥
      maxAtt := hlimit
    rw [if_pos hlimit', says_assign, says_refuse htx]
    exact iff_of_false (by decide) fun h => h.1 hlimit
  · have hlimit' : ¬ { u.ctx with
      securityAttempts := u.ctx.securityAttempts + 1 }.securityAttempts ≥ maxAtt := hlimit
    rw [if_neg hlimit', says_refuse htx]
    unfold RefusesLength
    split_ifs with hneg
    · exact (and_iff_right hneg).symm.trans (and_iff_right hlimit).symm
    · exact iff_of_false (by decide) fun h => hneg h.2.1

theorem sendKey_lengthError (htx : 3 ≤ cfg.txBufferSize) (now : UInt32) :
    Says sidSecurityAccess (sendKey cfg d now (d.byte 1)) u ↔ cfg.isSet .fnSecurityKey = true ∧
      ¬ u.ctx.securityAttempts + 1 ≥ maxAttempts cfg ∧
      RefusesLength (resultOf cfg u (.securityKey ((d.byte 1 &&& 0x7F) / 2)
        (d.slice 2 (d.len - 2).toNat))) := by
  have haccepted (t : Sys W) : ¬ Says sidSecurityAccess (keyAccepted cfg (d.byte 1)) t := by
    unfold keyAccepted
    extract_lets sub
    rw [says_assign, says_ctx, says_optional]
    exact not_says_respond
  unfold sendKey
  extract_lets sub
  rw [says_check htx (by decide), not_not, says_call]
  refine and_congr_right fun _ => ?_
  split_ifs with hret
  · refine iff_of_false (haccepted _) fun h => ?_
    exact absurd (hret ▸ h.2.1) (lt_irrefl (0 : ℤ))
  · exact keyRejected_lengthError htx now

theorem securityAccess_lengthError (htx : 3 ≤ cfg.txBufferSize) (hlen : 2 ≤ d.bytes.length) :
    Says sidSecurityAccess (handleSecurityAccess cfg d) u ↔ lateSecurityAccess cfg u d := by
  unfold handleSecurityAccess lateSecurityAccess
  rw [if_neg (not_len_lt (n := 2) hlen), says_time, says_ctx, says_check htx (by decide), says_assign,
    says_byte]
  refine and_congr_right fun _ => ?_
  by_cases hodd : (d.byte 1 &&& 0x7F) % 2 ≠ 0
  · rw [if_pos hodd, if_pos hodd, requestSeed_lengthError htx]
    rfl
  · rw [if_neg hodd, if_neg hodd, sendKey_lengthError htx]
    rfl

theorem sessionControl_lengthError (htx : 3 ≤ cfg.txBufferSize) :
    ¬ Says sidSessionControl (handleSessionControl cfg d) u := by
  have hsaved (t : Sys W) : ¬ Says sidSessionControl (do
      let ctx ← getCtx
      onlyIf (cfg.isSet .fnNvmSave) do
        invokeVoid cfg (.nvmSave [ctx.activeSession, ctx.securityLevel])
      return udsOk) t := by
    rw [says_ctx, says_optional]
    exact not_lengthError fun _ he => nomatch he
  have hrelock {c : Prop} [Decidable c] {g : Ctx → Ctx} (t : Sys W) :
      ¬ LengthError sidSessionControl ((onlyIf c (setCtx g)).outputs t) := by
    rw [outputs_onlyIf, outputs_setCtx, ite_self]
    exact not_lengthError nofun
  unfold handleSessionControl
  rw [says_byte, says_check htx (by decide), says_ctx, says_bind (hrelock _), says_assign]
  extract_lets p2 p2StarMs p2StarVal
  rw [says_write, says_bind not_says_response]
  exact fun h => hsaved _ h.2

theorem ecuReset_lengthError (htx : 3 ≤ cfg.txBufferSize) (hlen : 2 ≤ d.bytes.length)
    (hup : d.byte 1 &&& 0x80 ≠ 0 → u.ctx.suppressPosResp = true) :
    ¬ Says sidEcuReset (handleEcuReset cfg d) u := by
  unfold handleEcuReset
  rw [if_neg (not_len_lt (n := 2) hlen), says_byte, says_check htx (by decide), says_suppress hup,
    says_optional]
  rintro ⟨-, h⟩
  split_ifs at h
  · exact not_says_withheld h
  · exact not_says_respond h

theorem testerPresent_lengthError (htx : 3 ≤ cfg.txBufferSize) :
    ¬ Says sidTesterPresent (handleTesterPresent cfg d) u := by
  unfold handleTesterPresent
  rw [says_byte]
  extract_lets sub
  split_ifs
  · exact not_says_respond
  · exact (says_refuse htx).not.mpr (by decide)

theorem controlDtcSetting_lengthError (htx : 3 ≤ cfg.txBufferSize) (hlen : 2 ≤ d.bytes.length)
    (hup : d.byte 1 &&& 0x80 ≠ 0 → u.ctx.suppressPosResp = true) :
    ¬ Says sidControlDtcSetting (handleControlDtcSetting cfg d) u := by
  unfold handleControlDtcSetting
  rw [if_neg (not_len_lt (n := 2) hlen), says_byte, says_check htx (by decide), says_suppress hup]
  exact fun h => not_says_respond h.2

theorem stopIds_lengthError (is : List ℕ) : ¬ Says sidReadByPerId (stopIds cfg d is) u := by
  induction is generalizing u with
  | nil => exact not_says_respond
  | cons i is ih =>
    unfold stopIds
    rw [says_byte, says_assign]
    exact ih

theorem startIds_lengthError (htx : 3 ≤ cfg.txBufferSize) (mode : UInt8) (is : List ℕ) :
    ¬ Says sidReadByPerId (startIds cfg d mode is) u := by
  induction is generalizing u with
  | nil => exact not_says_respond
  | cons i is ih =>
    unfold startIds
    rw [says_byte, says_ctx]
    cases slotOf u.ctx (d.byte i) with
    | some j =>
      dsimp only
      rw [says_assign]
      exact ih
    | none =>
      dsimp only
      rw [says_check htx (by decide)]
      rintro ⟨-, h⟩
      cases hslot : slotOf u.ctx 0 with
      | some j =>
        rw [hslot] at h
        dsimp only at h
        rw [says_assign, says_time, says_assign] at h
        exact ih h
      | none =>
        rw [hslot] at h
        exact ih h

theorem periodicRead_lengthError (htx : 3 ≤ cfg.txBufferSize) (hlen : 2 ≤ d.bytes.length) :
    ¬ Says sidReadByPerId (handlePeriodicRead cfg d) u := by
  unfold handlePeriodicRead
  rw [if_neg (not_len_lt (n := 2) hlen), says_byte]
  extract_lets mode positions
  split_ifs
  · rw [says_assign]
    exact not_says_respond
  · exact stopIds_lengthError _
  · exact (says_refuse htx).not.mpr (by decide)
  · exact startIds_lengthError htx _ _

/-- A handler answers with NRC 0x13 exactly where it finds a late length error. -/
theorem handler_lengthError (htx : 3 ≤ cfg.txBufferSize) : ∀ service ∈ coreServices cfg,
    service.minLen.toNat ≤ d.bytes.length →
    (service.subMask.isSome = true → d.byte 1 &&& 0x80 ≠ 0 → u.ctx.suppressPosResp = true) →
    (Says service.sid (service.handler d) u ↔ LateLength cfg u d service.sid) := by
  unfold coreServices coreService
  simp only [List.forall_mem_cons]
  refine ⟨fun _ _ => iff_of_false (sessionControl_lengthError htx) id,
    fun hlen hup => iff_of_false (ecuReset_lengthError htx hlen (hup rfl)) id,
    fun hlen _ => clearDtc_lengthError htx hlen, fun hlen hup => readDtcInfo_lengthError htx hlen (hup rfl),
    fun _ _ => readDids_lengthError htx _ _, fun hlen _ => readMemoryByAddr_lengthError htx hlen,
    fun hlen _ => securityAccess_lengthError htx hlen, fun _ hup => commControl_lengthError htx (hup rfl),
    fun hlen _ => authentication_lengthError htx hlen, fun hlen _ => writeDataById_lengthError htx hlen,
    fun hlen _ => routineControl_lengthError htx hlen, fun hlen _ => requestDownload_lengthError htx hlen,
    fun hlen _ => transferData_lengthError htx hlen, fun _ _ => transferExit_lengthError htx,
    fun hlen _ => writeMemoryByAddr_lengthError htx hlen,
    fun _ _ => iff_of_false (testerPresent_lengthError htx) id,
    fun hlen hup => iff_of_false (controlDtcSetting_lengthError htx hlen (hup rfl)) id,
    fun hlen _ => iff_of_false (periodicRead_lengthError htx hlen) id,
    fun hlen _ => ioControl_lengthError htx hlen, fun hlen _ => requestUpload_lengthError htx hlen, ?_⟩
  exact List.forall_mem_nil _

end Handlers

end UdsLib.Services
