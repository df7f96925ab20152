import UdsLib.Core.Footprint
import UdsLib.Services.Lockout

/-! The room that the handlers need in `tx_buffer`. Some answers are written before their size is
compared with the buffer, and the room that is offered to a callback is a difference of 16-bit
numbers. -/
namespace UdsLib.Services
open Bytes Machine Prog UdsLib.Core

variable {W : Type} {α : Type}

/-- Nothing is written behind the end of `tx_buffer`, and no callback is told more room than there
is behind its pointer. -/
def InRoom (cfg : Config W) : Event → Prop
  | .fault (.txWrite _) => False
  | .call call _ => ∀ room ∈ call.room?, room.off + room.cap ≤ cfg.txBufferSize.toNat
  | _ => True

/-- A callback writes at most as many bytes as it is told. -/
def Obedient (cfg : Config W) : Prop :=
  ∀ ctx call w room, call.room? = some room → (cfg.app ctx call w).1.out.length ≤ room.cap

/-- The entry of a DID that is open to the session and the security level. -/
def openDid (cfg : Config W) (c : Ctx) (did : UInt16) : Option DidEntry :=
  (findDid cfg did).filter fun entry => ¬ sessionShut entry c ∧ ¬ securityShut entry c

/-! ### The room needed, service by service -/

/-- So many bytes, if they are written at all. -/
def needed (p : Prop) [Decidable p] (n : ℕ) : ℕ := if p then n else 0

theorem needed_le {p : Prop} [Decidable p] {n k : ℕ} : needed p n ≤ k ↔ (p → n ≤ k) := by
  unfold needed
  split_ifs with h
  · exact (imp_iff_right h).symm
  · exact iff_of_true (Nat.zero_le k) fun hp => absurd hp h

section Needed

variable (cfg : Config W) (u : Sys W) (d : Sdu)

def roomSessionControl : ℕ :=
  let sub := d.byte 1 &&& 0x7F
  needed (sub = sessionIdDefault ∨ sub = sessionIdProgramming ∨ sub = sessionIdExtended) 6

/-- A suppressed answer is not written at all. -/
def roomEcuReset : ℕ :=
  let sub := d.byte 1 &&& 0x7F
  needed (¬ (sub < 0x01 ∨ sub > 0x05) ∧ d.byte 1 &&& 0x80 = 0) 2

def roomClearDtc : ℕ :=
  let call := Call.dtcClear ((d.byte 1).toUInt32 <<< 16 ||| (d.byte 2).toUInt32 <<< 8 |||
    (d.byte 3).toUInt32)
  needed (cfg.isSet .fnDtcClear = true ∧ resultOf cfg u call = udsOk) 1

def roomReadDtcInfo : ℕ :=
  needed (¬ (reqMask (d.byte 1 &&& 0x7F) = true ∧ d.bytes.length < 3) ∧
    cfg.isSet .fnDtcRead = true) 2

/-- The bound on the size of the data is checked, but it wraps for an empty buffer. -/
def roomReadMemoryByAddr : ℕ :=
  needed ((fieldsAt d 2 (d.byte 1)).isSome = true ∧ cfg.isSet .fnMemRead = true) 1

/-- The clock is read before the application is called. -/
def roomSecurityAccess : ℕ :=
  let now := (getTime cfg).value u
  let t := { (getTime cfg).final u with ctx := { u.ctx with securityDelayEnd := 0 } }
  needed (¬ Locked u.ctx now ∧
    if (d.byte 1 &&& 0x7F) % 2 ≠ 0 then cfg.isSet .fnSecuritySeed = true
    else cfg.isSet .fnSecurityKey = true ∧ resultOf cfg t (keyCall d (d.byte 1)) = 0) 2

def roomCommControl : ℕ :=
  let ctrlType := d.byte 1 &&& 0x7F
  let typeNibble := d.byte 2 &&& 0x0F
  needed (¬ d.bytes.length < 3 ∧ ¬ ctrlType > 0x05 ∧ ¬ (typeNibble = 0 ∨ typeNibble > 3) ∧
    d.byte 1 &&& 0x80 = 0 ∧ (cfg.isSet .fnCommControl = true →
      resultOf cfg u (.commControl ctrlType (d.byte 2)) = udsOk)) 2

def roomAuthentication : ℕ := needed (cfg.isSet .fnAuth = true) 2

/-- The application or the table has taken the data. -/
def storesDid (entry : DidEntry) : Bool :=
  if entry.write then
    resultOf cfg u (.didWrite (didAt d 1) (d.slice 3 entry.size.toNat)) = 0
  else entry.storage.isSome

def roomWriteDataById : ℕ :=
  match openDid cfg u.ctx (didAt d 1) with
  | none => 0
  | some entry => needed (d.len = 3 + entry.size ∧ storesDid cfg u d entry = true) 3

def roomRoutineControl : ℕ := needed (cfg.isSet .fnRoutineControl = true) 4

/-- The answer of request download and request upload. -/
def roomTransfer (on : Callback) (call : UInt32 → UInt32 → Call) : ℕ :=
  match fieldsAt d 3 (d.byte 2) with
  | none => 0
  | some (addr, size) =>
    needed (cfg.isSet on = true ∧ ¬ resultOf cfg u (call addr size) < 0) 6

/-- The last block is answered again without a call. -/
def roomTransferData : ℕ :=
  let sequence := d.byte 1
  let last := u.ctx.flashSequence
  let expected := if last = 0 then 0x01 else if last = 0xFF then 0x00 else last + 1
  let call := Call.transferData sequence (d.slice 2 (d.len - 2).toNat)
  needed (cfg.isSet .fnTransferData = true ∧
    if sequence = expected then ¬ resultOf cfg u call < 0
    else last ≠ 0 ∧ cfg.transferAcceptLastBlockReplay = true ∧ sequence = last) 2

def roomTransferExit : ℕ :=
  needed (cfg.isSet .fnTransferExit = true ∧ ¬ resultOf cfg u .transferExit < 0) 1

/-- The fields of the request are repeated in the answer. -/
def roomWriteMemoryByAddr : ℕ :=
  let format := d.byte 1
  let consumed := 2 + (addrLenOf format).toUInt16 + (sizeLenOf format).toUInt16
  match fieldsAt d 2 format with
  | none => 0
  | some (addr, size) =>
    needed (d.len = consumed + size.toUInt16 ∧ cfg.isSet .fnMemWrite = true ∧
      (safetyGate cfg sidWriteMemByAddr d).value u = true ∧
      ¬ resultOf cfg ((safetyGate cfg sidWriteMemByAddr d).final u)
        (.memWrite addr size (d.slice consumed.toNat size.toNat)) < 0)
      (2 + ((addrLenOf format).toNat + (sizeLenOf format).toNat))

def roomTesterPresent : ℕ := needed (d.byte 1 &&& 0x7F = 0x00) 2

def roomControlDtcSetting : ℕ :=
  let sub := d.byte 1 &&& 0x7F
  needed (sub = 0x01 ∨ sub = 0x02) 2

/-- There is a slot for each of the ids at these indices of the request. -/
def startsIds (c : Ctx) : List ℕ → Bool
  | [] => true
  | i :: is =>
    match slotOf c (d.byte i), slotOf c 0 with
    | some _, _ => startsIds c is
    | none, none => c.periodicCount < 8 && startsIds c is
    | none, some j => c.periodicCount < 8 && startsIds
        { c with
          periodicIds := Function.update c.periodicIds j (d.byte i)
          periodicCount := c.periodicCount + 1 } is

def roomPeriodicRead : ℕ :=
  let mode := d.byte 1 &&& 0x0F
  needed (mode = 0x04 ∨ ¬ (mode < 0x01 ∨ mode > 0x03) ∧
    startsIds d u.ctx (List.range' 2 (d.bytes.length - 2)) = true) 1

def roomIoControl : ℕ :=
  needed (cfg.isSet .fnIoControl = true ∧ (openDid cfg u.ctx (didAt d 1)).isSome = true) 3

/-- The bytes of `tx_buffer` that the handler of the service `sid` relies on without a check of its
size, entered in the state `u`. -/
def roomOf (sid : UInt8) : ℕ :=
  match sid with
  | 0x10 => roomSessionControl d
  | 0x11 => roomEcuReset d
  | 0x14 => roomClearDtc cfg u d
  | 0x19 => roomReadDtcInfo cfg d
  | 0x23 => roomReadMemoryByAddr cfg d
  | 0x27 => roomSecurityAccess cfg u d
  | 0x28 => roomCommControl cfg u d
  | 0x29 => roomAuthentication cfg
  | 0x2A => roomPeriodicRead u d
  | 0x2E => roomWriteDataById cfg u d
  | 0x2F => roomIoControl cfg u d
  | 0x31 => roomRoutineControl cfg
  | 0x34 => roomTransfer cfg u d .fnRequestDownload .requestDownload
  | 0x35 => roomTransfer cfg u d .fnRequestUpload .requestUpload
  | 0x36 => roomTransferData cfg u d
  | 0x37 => roomTransferExit cfg u
  | 0x3D => roomWriteMemoryByAddr cfg u d
  | 0x3E => roomTesterPresent d
  | 0x85 => roomControlDtcSetting d
  | _ => 0

end Needed

/-! ### What stays in the buffer -/

/-- Started in `s`, a program stays in the room that there is. -/
def Fits (cfg : Config W) (m : M W α) (s : Sys W) : Prop := Emits (InRoom cfg) m s

section Rules

variable {cfg : Config W} {β : Type} {d : Sdu} {s : Sys W} {sid : UInt8}

theorem fits_bind {m : M W α} {f : α → M W β} :
    Fits cfg (m >>= f) s ↔ Fits cfg m s ∧ Fits cfg (f (m.value s)) (m.final s) :=
  emits_bind

theorem fits_then {m : M W α} {f : α → M W β} (h : Fits cfg m s) :
    Fits cfg (m >>= f) s ↔ Fits cfg (f (m.value s)) (m.final s) :=
  emits_then h

theorem fits_pure (a : α) : Fits cfg (pure a) s := emits_pure a

theorem fits_single {m : M W α} {e : Event} (h : m.outputs s = [e]) :
    Fits cfg m s ↔ InRoom cfg e :=
  emits_single h

theorem fits_ite {c : Prop} [Decidable c] {m n : M W α} (hm : Fits cfg m s) :
    Fits cfg (if c then m else n) s ↔ (¬ c → Fits cfg n s) :=
  emits_ite hm

theorem call_inRoom {call : Call} {ret : ℤ} (hroom : call.room? = none) :
    InRoom cfg (.call call ret) := by
  intro room hmem
  rw [hroom] at hmem
  cases hmem

theorem surround_inRoom {e : Event} (he : Surround cfg d e) : InRoom cfg e := by
  cases e with
  | fault f => exact absurd he not_false
  | call call ret =>
    apply call_inRoom
    rcases he.2 with hlock | ⟨level, msg, rfl⟩ | ⟨sid, rfl⟩
    · cases call with
      | mutexLock => rfl
      | mutexUnlock => rfl
      | _ => cases hlock
    · rfl
    · rfl
  | _ => trivial

theorem outside_fits {m : M W α} (hm : Keeps (Outside cfg d) m) (s : Sys W) : Fits cfg m s :=
  fun e he => surround_inRoom ((hm s).events e he)

theorem sendNrc_fits (nrc : UInt8) : Fits cfg (sendNrc cfg sid nrc) s :=
  outside_fits (d := noMessage) (sendNrc_outside sid nrc) s

theorem sendResponse_fits (len : UInt16) : Fits cfg (sendResponse cfg len) s :=
  outside_fits (d := noMessage) (sendResponse_outside len) s

/-- An event that has nothing to do with the buffer. -/
theorem fits_free {m : M W α} {e : Event} (h : m.outputs s = [e]) (he : InRoom cfg e = True) :
    Fits cfg m s :=
  (fits_single h).mpr (of_eq_true he)

theorem withheld_fits : Fits cfg returnSuppressed s :=
  fits_free rfl rfl

theorem byteAt_fits (i : ℕ) : Fits cfg (byteAt d i) s := by
  intro e he
  unfold byteAt outputs at he
  split_ifs at he
  · cases he
  · rw [List.mem_singleton.mp he]
    trivial

theorem bytesAt_fits (off n : ℕ) : Fits cfg (bytesAt d off n) s := by
  intro e he
  unfold bytesAt outputs at he
  split_ifs at he
  · cases he
  · rw [List.mem_singleton.mp he]
    trivial

theorem writeTx_fits {off : ℕ} {bs : List UInt8} : Fits cfg (writeTx cfg off bs) s ↔
    bs = [] ∨ off + bs.length ≤ cfg.txBufferSize.toNat := by
  unfold Fits Emits writeTx outputs
  split_ifs with h
  · exact iff_of_true nofun h
  · exact iff_of_false (fun hall => hall _ (List.mem_singleton.mpr rfl)) h

theorem fits_byte {i : ℕ} {f : UInt8 → M W β} :
    Fits cfg (byteAt d i >>= f) s ↔ Fits cfg (f (d.byte i)) s :=
  fits_then (byteAt_fits i)

theorem fits_bytes {off n : ℕ} {f : List UInt8 → M W β} :
    Fits cfg (bytesAt d off n >>= f) s ↔ Fits cfg (f (slice d.byte off n)) s :=
  fits_then (bytesAt_fits off n)

theorem fits_ctx {f : Ctx → M W β} : Fits cfg (getCtx >>= f) s ↔ Fits cfg (f s.ctx) s := Iff.rfl

theorem fits_time {f : UInt32 → M W β} : Fits cfg (getTime cfg >>= f) s ↔
    Fits cfg (f ((getTime cfg).value s)) ((getTime cfg).final s) :=
  fits_then (fits_free rfl rfl)

theorem fits_assign {g : Ctx → Ctx} {f : Unit → M W β} :
    Fits cfg (setCtx g >>= f) s ↔ Fits cfg (f ()) { s with ctx := g s.ctx } := Iff.rfl

theorem fits_read {addr n : ℕ} {f : List UInt8 → M W β} :
    Fits cfg (readMem addr n >>= f) s ↔ Fits cfg (f (slice s.mem addr n)) s := Iff.rfl

theorem fits_call {call : Call} {f : Reply → M W β} (hroom : call.room? = none) :
    Fits cfg (invoke cfg call >>= f) s ↔
      Fits cfg (f (cfg.app s.ctx call s.world).1) ((invoke cfg call).final s) :=
  fits_then ((fits_single rfl).mpr (call_inRoom hroom))

/-- A part that is left out at times. -/
theorem fits_onlyIf {c : Prop} [Decidable c] {m : M W Unit} {f : Unit → M W β}
    (hm : Fits cfg m s) :
    Fits cfg (onlyIf c m >>= f) s ↔ Fits cfg (f ()) ((onlyIf c m).final s) :=
  fits_then (by
    unfold onlyIf
    split_ifs
    · exact hm
    · exact fits_pure ())

theorem setCtx_fits (g : Ctx → Ctx) : Fits cfg (setCtx g) s := nofun

theorem setSuppress_fits : Fits cfg setSuppress s := nofun

theorem voidCall_fits {call : Call} (hroom : call.room? = none) :
    Fits cfg (invokeVoid cfg call) s :=
  (fits_call hroom).mpr (fits_pure ())

theorem fits_write {off : ℕ} {bs : List UInt8} {f : Unit → M W β} :
    Fits cfg (writeTx cfg off bs >>= f) s ↔ (bs = [] ∨ off + bs.length ≤ cfg.txBufferSize.toNat) ∧
      Fits cfg (f ()) ((writeTx cfg off bs).final s) :=
  fits_bind.trans (and_congr_left fun _ => writeTx_fits)

/-- A positive answer is written before its size is looked at. -/
theorem fits_respond {b : UInt8} {bs : List UInt8} {len : UInt16} :
    Fits cfg (writeTx cfg 0 (b :: bs) >>= fun _ => sendResponse cfg len) s ↔
      (b :: bs).length ≤ cfg.txBufferSize.toNat := by
  rw [fits_write, and_iff_left (sendResponse_fits len), Nat.zero_add]
  exact or_iff_right (List.cons_ne_nil b bs)

/-- A check that refuses has to be passed first. -/
theorem fits_check {c : Prop} [Decidable c] {nrc : UInt8} {n : M W ℤ} :
    Fits cfg (if c then sendNrc cfg sid nrc else n) s ↔ (¬ c → Fits cfg n s) :=
  fits_ite (sendNrc_fits nrc)

theorem maskAdmits_fits (shift mask : UInt32) : Fits cfg (maskAdmits shift mask : M W Bool) s :=
  (fits_onlyIf (fits_free rfl rfl)).mpr (fits_pure _)

theorem fits_sessionRefused {entry : DidEntry} {f : Bool → M W β} :
    Fits cfg (sessionRefused entry >>= f) s ↔ Fits cfg (f (sessionShut entry s.ctx)) s := by
  have hfits : Fits cfg (sessionRefused entry) s :=
    (fits_ite (fits_pure false)).mpr fun _ =>
      (fits_then (maskAdmits_fits _ _)).mpr (fits_pure _)
  rw [fits_then hfits, sessionRefused_final, sessionRefused_value]

theorem fits_securityRefused {entry : DidEntry} {f : Bool → M W β} :
    Fits cfg (securityRefused entry >>= f) s ↔ Fits cfg (f (securityShut entry s.ctx)) s := by
  have hfits : Fits cfg (securityRefused entry) s :=
    (fits_ite (fits_pure false)).mpr fun _ =>
      (fits_then (maskAdmits_fits _ _)).mpr (fits_pure _)
  rw [fits_then hfits, securityRefused_final, securityRefused_value]

theorem readBe_fits (off n : ℕ) : Fits cfg (readBe d off n) s := by
  induction n with
  | zero => exact fits_pure 0
  | succ n ih =>
    unfold readBe
    rw [fits_then ih, fits_byte]
    exact fits_pure _

theorem fits_fields {off : ℕ} {len : UInt16} {format : UInt8}
    {f : Option (UInt32 × UInt32) → M W β} (hoff : off ≤ d.bytes.length)
    (hlen : len.toNat = d.bytes.length - off) :
    Fits cfg (parseAddrLen d off len format >>= f) s ↔ Fits cfg (f (fieldsAt d off format)) s := by
  have hfits : Fits cfg (parseAddrLen d off len format) s := by
    unfold parseAddrLen
    extract_lets addrLen sizeLen
    rw [fits_ite (fits_pure none), fits_ite (fits_pure none)]
    intro _ _
    rw [fits_then (readBe_fits _ _), fits_then (readBe_fits _ _)]
    exact fits_pure _
  obtain ⟨hvalue, hfinal⟩ := parseAddrLen_parts format s hoff hlen
  rw [fits_then hfits, hvalue, hfinal]

/-- A callback fills the room behind its pointer and no more. -/
theorem fits_callOut (hobey : Obedient cfg) {call : Call} {off cap : ℕ} {f : ℤ → M W β}
    (hroom : call.room? = some ⟨off, cap⟩) : Fits cfg (invokeOut cfg call off >>= f) s ↔
      off + cap ≤ cfg.txBufferSize.toNat ∧
        Fits cfg (f (resultOf cfg s call)) ((invokeOut cfg call off).final s) := by
  have hcall : Fits cfg (invoke cfg call) s ↔ off + cap ≤ cfg.txBufferSize.toNat := by
    rw [fits_single rfl]
    constructor
    · exact fun h => h _ hroom
    · intro h room hmem
      obtain rfl := Option.some.inj (hroom.symm.trans hmem)
      exact h
  have hwritten := hobey s.ctx call s.world _ hroom
  rw [fits_bind]
  refine and_congr_left fun _ => ?_
  unfold invokeOut
  rw [fits_bind, hcall, fits_write]
  refine and_iff_left_of_imp fun h => ⟨Or.inr ?_, fits_pure _⟩
  exact (Nat.add_le_add_left hwritten off).trans h

/-- The room that is left behind `off` bytes is there only if the buffer has these. -/
theorem rest_room {off : ℕ} {size : UInt16} (hoff : off < 65536) :
    off + (size - .ofNat off).toNat ≤ size.toNat ↔ off ≤ size.toNat := by
  have hsub := UInt16.toNat_sub size (.ofNat off)
  rw [UInt16.toNat_ofNat_of_lt' hoff] at hsub
  have := size.toNat_lt
  omega

/-- A callback that is given the rest of the buffer. -/
theorem fits_rest (hobey : Obedient cfg) {call : Call} (off : ℕ) {f : ℤ → M W β} (hoff : off < 65536)
    (hroom : call.room? = some ⟨off, (cfg.txBufferSize - .ofNat off).toNat⟩)
    (hrest : off ≤ cfg.txBufferSize.toNat → ∀ r t, Fits cfg (f r) t) :
    Fits cfg (invokeOut cfg call off >>= f) s ↔ off ≤ cfg.txBufferSize.toNat := by
  rw [fits_callOut hobey hroom, rest_room hoff]
  exact and_iff_left_of_imp fun h => hrest h _ _

/-- A callback fills the part of the answer behind its head, or the request is refused. -/
theorem fits_filled (hobey : Obedient cfg) {call : Call} (off : ℕ) {b : UInt8} {bs : List UInt8}
    {len : ℤ → UInt16} (hoff : off < 65536)
    (hroom : call.room? = some ⟨off, (cfg.txBufferSize - .ofNat off).toNat⟩)
    (hhead : (b :: bs).length ≤ off) : Fits cfg (do
      let written ← invokeOut cfg call off
      if written < 0 then sendNrc cfg sid (nrcOf written)
      else do
        writeTx cfg 0 (b :: bs)
        sendResponse cfg (len written)) s ↔ off ≤ cfg.txBufferSize.toNat := by
  rw [fits_rest hobey off hoff hroom]
  intro hfits written t
  rw [fits_check, fits_respond]
  exact fun _ => hhead.trans hfits

end Rules

/-! ### The handlers -/

section Handlers

variable {cfg : Config W} {d : Sdu} {u : Sys W}

theorem sessionControl_room : Fits cfg (handleSessionControl cfg d) u ↔
    roomSessionControl d ≤ cfg.txBufferSize.toNat := by
  have hsaved (t : Sys W) : Fits cfg (do
      let ctx ← getCtx
      onlyIf (cfg.isSet .fnNvmSave) do
        invokeVoid cfg (.nvmSave [ctx.activeSession, ctx.securityLevel])
      return udsOk) t := by
    rw [fits_ctx, fits_onlyIf (voidCall_fits rfl)]
    exact fits_pure udsOk
  unfold handleSessionControl roomSessionControl
  rw [fits_byte, fits_check, fits_ctx, fits_onlyIf (setCtx_fits _), fits_assign, needed_le]
  extract_lets p2 p2StarMs p2StarVal
  rw [fits_write, fits_then (sendResponse_fits 6), and_iff_left (hsaved _)]
  simp [imp_iff_not_or]

theorem ecuReset_room (hlen : 2 ≤ d.bytes.length) : Fits cfg (handleEcuReset cfg d) u ↔
    roomEcuReset d ≤ cfg.txBufferSize.toNat := by
  unfold handleEcuReset roomEcuReset
  rw [if_neg (not_len_lt (n := 2) hlen), fits_byte, fits_check, fits_onlyIf setSuppress_fits,
    fits_onlyIf (voidCall_fits rfl), fits_ite withheld_fits, fits_respond, needed_le, and_imp, not_not]
  rfl

theorem clearDtc_room (hlen : 4 ≤ d.bytes.length) : Fits cfg (handleClearDtc cfg d) u ↔
    roomClearDtc cfg u d ≤ cfg.txBufferSize.toNat := by
  unfold handleClearDtc roomClearDtc
  rw [if_neg (not_len_lt (n := 4) hlen), fits_check, fits_byte, fits_byte, fits_byte, fits_call rfl,
    fits_check, fits_respond, needed_le, and_imp, not_not, not_not]
  rfl

theorem readDtcInfo_room (hobey : Obedient cfg) (hlen : 2 ≤ d.bytes.length) :
    Fits cfg (handleReadDtcInfo cfg d) u ↔ roomReadDtcInfo cfg d ≤ cfg.txBufferSize.toNat := by
  unfold handleReadDtcInfo roomReadDtcInfo
  rw [if_neg (not_len_lt (n := 2) hlen), fits_byte, fits_check, fits_check,
    fits_onlyIf setSuppress_fits, len_lt_three, not_not, needed_le, and_imp]
  extract_lets maxPayload
  rw [fits_rest hobey 2 (by decide) rfl]
  intro hroom written t
  rw [fits_check, fits_ite withheld_fits, fits_respond]
  exact fun _ _ => hroom

/-- The check of the size compares it with a difference that wraps for an empty buffer. -/
theorem size_room {size : UInt32} {tx : UInt16} :
    (¬ size > tx.toUInt32 - 1 → 1 + size.toNat ≤ tx.toNat) ↔ 1 ≤ tx.toNat := by
  have hsub := UInt32.toNat_sub tx.toUInt32 1
  have hone : (1 : UInt32).toNat = 1 := rfl
  have hwide : tx.toUInt32.toNat = tx.toNat := tx.toNat_toUInt32
  have hcheck : ¬ size > tx.toUInt32 - 1 ↔ size.toNat ≤ (tx.toUInt32 - 1).toNat :=
    UInt32.not_lt.trans UInt32.le_iff_toNat_le
  have := size.toNat_lt
  have := tx.toNat_lt
  rw [hcheck]
  omega

/-- A handler that refuses a format byte out of range on its own. -/
theorem fits_format {sid format nrc : UInt8} {n : M W ℤ} :
    Fits cfg (if addrLenOf format = 0 ∨ sizeLenOf format = 0 ∨ addrLenOf format > 4 ∨
      sizeLenOf format > 4 then sendNrc cfg sid nrc else n) u ↔ (ValidFormat format → Fits cfg n u) := by
  rw [fits_check, validFormat_iff]

theorem readMemoryByAddr_room (hobey : Obedient cfg) (hlen : 3 ≤ d.bytes.length) :
    Fits cfg (handleReadMemoryByAddr cfg d) u ↔
      roomReadMemoryByAddr cfg d ≤ cfg.txBufferSize.toNat := by
  have hrest : (d.len - 2).toNat = d.bytes.length - 2 := len_sub (n := 2) (Nat.le_of_succ_le hlen)
  unfold handleReadMemoryByAddr roomReadMemoryByAddr
  rw [if_neg (not_len_lt (n := 3) hlen), fits_byte]
  extract_lets addrLen sizeLen
  rw [fits_format, fits_fields (by omega) hrest, needed_le, and_imp]
  cases hfields : fieldsAt d 2 (d.byte 1) with
  | none => exact iff_of_true (fun _ => sendNrc_fits _) nofun
  | some fields =>
    obtain ⟨addr, size⟩ := fields
    dsimp only
    rw [imp_iff_right (fieldsAt_valid hfields), imp_iff_right Option.isSome_some, fits_check, not_not,
      fits_check]
    refine imp_congr_right fun _ => ?_
    rw [fits_callOut hobey rfl]
    constructor
    · exact fun h => size_room.mp fun hsize => (h hsize).1
    · intro hroom hsize
      refine ⟨size_room.mpr hroom hsize, ?_⟩
      rw [fits_check, fits_respond]
      exact fun _ => hroom

theorem requestSeed_room (hobey : Obedient cfg) : Fits cfg (requestSeed cfg (d.byte 1)) u ↔
    (cfg.isSet .fnSecuritySeed = true → 2 ≤ cfg.txBufferSize.toNat) := by
  unfold requestSeed
  extract_lets sub level
  rw [fits_check, fits_write, fits_rest hobey 2 (by decide) rfl, not_not]
  · exact imp_congr_right fun _ => and_iff_right_of_imp Or.inr
  · intro hroom seedLen t
    rw [fits_check]
    exact fun _ => sendResponse_fits _

theorem keyAccepted_room : Fits cfg (keyAccepted cfg (d.byte 1)) u ↔ 2 ≤ cfg.txBufferSize.toNat := by
  unfold keyAccepted
  extract_lets sub
  rw [fits_assign, fits_ctx, fits_onlyIf (voidCall_fits rfl), fits_respond]
  rfl

theorem keyRejected_room (now : UInt32) (res : ℤ) : Fits cfg (keyRejected cfg now res) u := by
  unfold Fits Emits outputs
  rw [keyRejected_run]
  exact sendNrc_fits _

theorem commControlled_room : Fits cfg (commControlled cfg (d.byte 1)) u ↔
    (d.byte 1 &&& 0x80 = 0 → 2 ≤ cfg.txBufferSize.toNat) := by
  unfold commControlled
  extract_lets ctrlType
  rw [fits_assign]
  unfold internalLog
  rw [fits_onlyIf (voidCall_fits rfl), fits_ite withheld_fits, fits_respond, not_not]
  rfl

theorem authentication_room (hobey : Obedient cfg) (hlen : 2 ≤ d.bytes.length) :
    Fits cfg (handleAuthentication cfg d) u ↔ roomAuthentication cfg ≤ cfg.txBufferSize.toNat := by
  unfold handleAuthentication roomAuthentication
  rw [if_neg (not_len_lt (n := 2) hlen), fits_byte, fits_check, not_not, needed_le]
  extract_lets maxPayload
  rw [fits_filled hobey 2 (by decide) rfl le_rfl]

theorem routineControl_room (hobey : Obedient cfg) (hlen : 4 ≤ d.bytes.length) :
    Fits cfg (handleRoutineControl cfg d) u ↔ roomRoutineControl cfg ≤ cfg.txBufferSize.toNat := by
  unfold handleRoutineControl roomRoutineControl
  rw [if_neg (not_len_lt (n := 4) hlen), fits_byte, fits_byte, fits_byte, fits_check, not_not, needed_le]
  extract_lets maxPayload
  rw [fits_filled hobey 4 (by decide) rfl le_rfl]

theorem transferAccepted_room {sid : UInt8} : Fits cfg (transferAccepted cfg sid) u ↔
    6 ≤ cfg.txBufferSize.toNat := by
  unfold transferAccepted
  rw [fits_assign, fits_respond]
  rfl

theorem blockAccepted_room {sequence : UInt8} : Fits cfg (blockAccepted cfg sequence) u ↔
    2 ≤ cfg.txBufferSize.toNat :=
  fits_respond

theorem transferBlock_room (sequence : UInt8) : Fits cfg (transferBlock cfg d sequence) u ↔
    (¬ resultOf cfg u (.transferData sequence (d.slice 2 (d.len - 2).toNat)) < 0 →
      2 ≤ cfg.txBufferSize.toNat) := by
  unfold transferBlock
  rw [fits_call rfl, fits_check, fits_assign, blockAccepted_room]
  rfl

theorem transferExit_room : Fits cfg (handleRequestTransferExit cfg d) u ↔
    roomTransferExit cfg u ≤ cfg.txBufferSize.toNat := by
  unfold handleRequestTransferExit roomTransferExit
  rw [fits_check, fits_call rfl, fits_check, fits_respond, needed_le, and_imp, not_not]
  rfl

theorem testerPresent_room : Fits cfg (handleTesterPresent cfg d) u ↔
    roomTesterPresent d ≤ cfg.txBufferSize.toNat := by
  unfold handleTesterPresent roomTesterPresent
  rw [fits_byte, needed_le]
  extract_lets sub
  split_ifs with hsub
  · rw [fits_respond]
    exact (imp_iff_right hsub).symm
  · exact iff_of_true (sendNrc_fits _) fun h => absurd h hsub

theorem controlDtcSetting_room (hlen : 2 ≤ d.bytes.length) :
    Fits cfg (handleControlDtcSetting cfg d) u ↔
      roomControlDtcSetting d ≤ cfg.txBufferSize.toNat := by
  unfold handleControlDtcSetting roomControlDtcSetting
  rw [if_neg (not_len_lt (n := 2) hlen), fits_byte, fits_check, fits_onlyIf setSuppress_fits,
    fits_respond, needed_le]
  simp [imp_iff_not_or]

theorem sendKey_room (now : UInt32) : Fits cfg (sendKey cfg d now (d.byte 1)) u ↔
    (cfg.isSet .fnSecurityKey = true → resultOf cfg u (keyCall d (d.byte 1)) = 0 →
      2 ≤ cfg.txBufferSize.toNat) := by
  unfold sendKey
  extract_lets sub
  rw [fits_check, not_not, fits_call rfl]
  refine imp_congr_right fun _ => ?_
  split_ifs with hret
  · rw [keyAccepted_room]
    exact (imp_iff_right hret).symm
  · exact iff_of_true (keyRejected_room _ _) fun h => absurd h hret

theorem securityAccess_room (hobey : Obedient cfg) (hlen : 2 ≤ d.bytes.length) :
    Fits cfg (handleSecurityAccess cfg d) u ↔
      roomSecurityAccess cfg u d ≤ cfg.txBufferSize.toNat := by
  unfold handleSecurityAccess roomSecurityAccess
  rw [if_neg (not_len_lt (n := 2) hlen), fits_time, fits_ctx, fits_check, fits_assign, fits_byte,
    needed_le, and_imp]
  refine imp_congr_right fun _ => ?_
  by_cases hodd : (d.byte 1 &&& 0x7F) % 2 ≠ 0
  · rw [if_pos hodd, if_pos hodd, requestSeed_room hobey]
  · rw [if_neg hodd, if_neg hodd, sendKey_room, and_imp]
    rfl

theorem commControl_room : Fits cfg (handleCommControl cfg d) u ↔
    roomCommControl cfg u d ≤ cfg.txBufferSize.toNat := by
  let call := Call.commControl (d.byte 1 &&& 0x7F) (d.byte 2)
  have hbody (t : Sys W) : Fits cfg (if cfg.isSet .fnCommControl then do
        let reply ← invoke cfg call
        if reply.ret ≠ udsOk then sendNrc cfg sidCommControl (nrcOf reply.ret)
        else commControlled cfg (d.byte 1)
      else commControlled cfg (d.byte 1)) t ↔
      (d.byte 1 &&& 0x80 = 0 → (cfg.isSet .fnCommControl = true → resultOf cfg t call = udsOk) →
        2 ≤ cfg.txBufferSize.toNat) := by
    by_cases hset : cfg.isSet .fnCommControl = true
    · rw [if_pos hset, fits_call rfl, fits_check, not_not, commControlled_room, imp_iff_right hset]
      exact imp.swap
    · rw [if_neg hset, commControlled_room]
      exact imp_congr_right fun _ => (imp_iff_right fun h => absurd h hset).symm
  unfold handleCommControl roomCommControl
  rw [fits_check, fits_byte, fits_byte, fits_check, fits_check, fits_onlyIf setSuppress_fits,
    needed_le, len_lt_three]
  simp only [and_imp]
  refine imp_congr_right fun _ => imp_congr_right fun _ => imp_congr_right fun _ => ?_
  rw [hbody]
  refine imp_congr_right fun hup => ?_
  rw [final_onlyIf, if_neg (not_not_intro hup)]

/-- The end of request download and request upload. -/
theorem openTransfer_room {sid nrc : UInt8} {on : Callback} {call : Call} (hcall : call.room? = none) :
    Fits cfg (if ¬ cfg.isSet on then sendNrc cfg sid nrc
      else do
        let reply ← invoke cfg call
        if reply.ret < 0 then sendNrc cfg sid (nrcOf reply.ret)
        else transferAccepted cfg sid) u ↔
      needed (cfg.isSet on = true ∧ ¬ resultOf cfg u call < 0) 6 ≤ cfg.txBufferSize.toNat := by
  rw [fits_check, not_not, fits_call hcall, fits_check, transferAccepted_room, needed_le, and_imp]
  rfl

theorem requestDownload_room (hlen : 4 ≤ d.bytes.length) :
    Fits cfg (handleRequestDownload cfg d) u ↔
      roomTransfer cfg u d .fnRequestDownload .requestDownload ≤ cfg.txBufferSize.toNat := by
  have hrest : (d.len - 3).toNat = d.bytes.length - 3 := len_sub (n := 3) (Nat.le_of_succ_le hlen)
  unfold handleRequestDownload roomTransfer
  rw [if_neg (not_len_lt (n := 4) hlen), fits_byte]
  extract_lets addrLen sizeLen
  rw [fits_format, fits_fields (by omega) hrest]
  cases hfields : fieldsAt d 3 (d.byte 2) with
  | none => exact iff_of_true (fun _ => sendNrc_fits _) (Nat.zero_le _)
  | some fields =>
    obtain ⟨addr, size⟩ := fields
    dsimp only
    rw [imp_iff_right (fieldsAt_valid hfields)]
    exact openTransfer_room rfl

theorem requestUpload_room (hlen : 4 ≤ d.bytes.length) :
    Fits cfg (handleRequestUpload cfg d) u ↔
      roomTransfer cfg u d .fnRequestUpload .requestUpload ≤ cfg.txBufferSize.toNat := by
  have hrest : (d.len - 3).toNat = d.bytes.length - 3 := len_sub (n := 3) (Nat.le_of_succ_le hlen)
  unfold handleRequestUpload roomTransfer
  rw [if_neg (not_len_lt (n := 4) hlen), fits_byte, fits_fields (by omega) hrest]
  cases fieldsAt d 3 (d.byte 2) with
  | none => exact iff_of_true (sendNrc_fits _) (Nat.zero_le _)
  | some fields =>
    obtain ⟨addr, size⟩ := fields
    exact openTransfer_room rfl

theorem transferData_room (hlen : 2 ≤ d.bytes.length) : Fits cfg (handleTransferData cfg d) u ↔
    roomTransferData cfg u d ≤ cfg.txBufferSize.toNat := by
  unfold handleTransferData roomTransferData
  rw [if_neg (not_len_lt (n := 2) hlen), fits_check, not_not, fits_byte, fits_ctx, needed_le, and_imp]
  refine imp_congr_right fun _ => ?_
  by_cases hfirst : u.ctx.flashSequence = 0
  · rw [if_pos hfirst, if_pos hfirst, fits_check, not_not, transferBlock_room]
    by_cases hnext : d.byte 1 = 0x01
    · rw [if_pos hnext, imp_iff_right hnext]
    · rw [if_neg hnext]
      exact iff_of_true (fun h => absurd h hnext) fun h => absurd hfirst h.1
  · rw [if_neg hfirst, if_neg hfirst]
    extract_lets expected
    by_cases hnext : d.byte 1 = expected
    · rw [if_neg (not_not_intro hnext), if_pos hnext, transferBlock_room]
    · rw [if_pos hnext, if_neg hnext]
      split_ifs with hreplay
      · rw [blockAccepted_room]
        exact (imp_iff_right ⟨hfirst, hreplay⟩).symm
      · exact iff_of_true (sendNrc_fits _) fun h => absurd h.2 hreplay

theorem writeMemory_room {format : UInt8} (hvalid : ValidFormat format) (addr size : UInt32) :
    Fits cfg (writeMemory cfg d format addr size) u ↔
      (cfg.isSet .fnMemWrite = true → (safetyGate cfg sidWriteMemByAddr d).value u = true →
        ¬ resultOf cfg ((safetyGate cfg sidWriteMemByAddr d).final u) (.memWrite addr size (d.slice
          (2 + (addrLenOf format).toUInt16 + (sizeLenOf format).toUInt16).toNat size.toNat)) < 0 →
        2 + ((addrLenOf format).toNat + (sizeLenOf format).toNat) ≤ cfg.txBufferSize.toNat) := by
  have hecho (n : ℕ) (t : Sys W) (hn : 0 < n) (len : UInt16) : Fits cfg (do
      writeTx cfg 0 [sidWriteMemByAddr + responseOffset, format]
      writeTx cfg 2 (slice d.byte 2 n)
      sendResponse cfg len) t ↔ 2 + n ≤ cfg.txBufferSize.toNat := by
    have hne : slice d.byte 2 n ≠ [] := List.ne_nil_of_length_pos (by rwa [slice_length])
    rw [fits_write, fits_write, and_iff_left (sendResponse_fits _), slice_length, or_iff_right hne]
    exact and_iff_right_of_imp fun h => Or.inr ((Nat.le_add_right 2 n).trans h)
  unfold writeMemory
  extract_lets addrLen sizeLen
  rw [fits_check, not_not, fits_then (outside_fits (safetyGate_outside _) _), fits_check, not_not,
    fits_call rfl, fits_check, fits_bytes, hecho]
  · rfl
  · exact Nat.add_pos_left hvalid.1.1 _

theorem writeMemoryByAddr_room (hlen : 3 ≤ d.bytes.length) :
    Fits cfg (handleWriteMemoryByAddr cfg d) u ↔
      roomWriteMemoryByAddr cfg u d ≤ cfg.txBufferSize.toNat := by
  have hrest : (d.len - 2).toNat = d.bytes.length - 2 := len_sub (n := 2) (Nat.le_of_succ_le hlen)
  unfold handleWriteMemoryByAddr roomWriteMemoryByAddr
  rw [if_neg (not_len_lt (n := 3) hlen), fits_byte]
  extract_lets addrLen sizeLen consumed
  rw [fits_format, fits_fields (by omega) hrest]
  cases hfields : fieldsAt d 2 (d.byte 1) with
  | none => exact iff_of_true (fun _ => sendNrc_fits _) (Nat.zero_le _)
  | some fields =>
    obtain ⟨addr, size⟩ := fields
    have hvalid := fieldsAt_valid hfields
    dsimp only
    rw [imp_iff_right hvalid, fits_check, not_not, writeMemory_room hvalid, needed_le]
    simp only [and_imp]
    rfl

/-- Both tests of an entry have to be passed first. -/
theorem fits_tests {entry : DidEntry} {sid nrc nrc' : UInt8} {n : M W ℤ} : Fits cfg (do
      if ← sessionRefused entry then
        return ← sendNrc cfg sid nrc
      if ← securityRefused entry then
        return ← sendNrc cfg sid nrc'
      n) u ↔ (¬ sessionShut entry u.ctx ∧ ¬ securityShut entry u.ctx → Fits cfg n u) := by
  rw [fits_sessionRefused, fits_check, fits_securityRefused, fits_check, decide_eq_true_iff,
    decide_eq_true_iff, and_imp]

theorem ioControl_room (hobey : Obedient cfg) (hlen : 4 ≤ d.bytes.length) :
    Fits cfg (handleIoControl cfg d) u ↔ roomIoControl cfg u d ≤ cfg.txBufferSize.toNat := by
  have hid : (d.byte 1).toUInt16 <<< 8 ||| (d.byte 2).toUInt16 = didAt d 1 := rfl
  unfold handleIoControl roomIoControl openDid
  rw [if_neg (not_len_lt (n := 4) hlen), fits_byte, fits_byte, fits_byte, fits_check, not_not, hid,
    needed_le, and_imp]
  refine imp_congr_right fun _ => ?_
  cases findDid cfg (didAt d 1) with
  | none => exact iff_of_true (sendNrc_fits _) nofun
  | some entry =>
    dsimp only
    rw [fits_tests, fits_filled hobey 3 (by decide) rfl le_rfl]
    simp

theorem writeDid_run (entry : DidEntry) : Fits cfg (writeDid cfg d (didAt d 1) entry) u ∧
    (writeDid cfg d (didAt d 1) entry).value u = storesDid cfg u d entry := by
  unfold writeDid storesDid
  by_cases hwrite : entry.write = true
  · rw [if_pos hwrite, if_pos hwrite, fits_call rfl]
    exact ⟨fits_pure _, rfl⟩
  · rw [if_neg hwrite, if_neg hwrite]
    cases entry.storage with
    | none => exact ⟨fits_pure false, rfl⟩
    | some storage =>
      dsimp only
      rw [fits_bytes]
      exact ⟨fits_pure true, rfl⟩

theorem writeDataById_room (hlen : 3 ≤ d.bytes.length) :
    Fits cfg (handleWriteDataById cfg d) u ↔
      roomWriteDataById cfg u d ≤ cfg.txBufferSize.toNat := by
  have hid : (d.byte 1).toUInt16 <<< 8 ||| (d.byte 2).toUInt16 = didAt d 1 := rfl
  unfold handleWriteDataById roomWriteDataById openDid
  rw [if_neg (not_len_lt (n := 3) hlen), fits_byte, fits_byte]
  dsimp only
  rw [hid]
  cases findDid cfg (didAt d 1) with
  | none => exact iff_of_true (sendNrc_fits _) (Nat.zero_le _)
  | some entry =>
    have hrun : Fits cfg (writeDid cfg d (didAt d 1) entry) u ∧ _ := writeDid_run entry
    obtain ⟨hfits, hvalue⟩ := hrun
    dsimp only
    rw [fits_tests, fits_check, not_not, fits_then hfits, hvalue, Option.filter_some]
    by_cases hopen : ¬ sessionShut entry u.ctx ∧ ¬ securityShut entry u.ctx
    · rw [if_pos (decide_eq_true hopen), imp_iff_right hopen, needed_le, and_imp]
      refine imp_congr_right fun _ => ?_
      split_ifs with hstored
      · rw [fits_respond]
        exact (imp_iff_right hstored).symm
      · exact iff_of_true (sendNrc_fits _) fun h => absurd h hstored
    · rw [if_neg (fun h => hopen (of_decide_eq_true h))]
      exact iff_of_true (fun h => absurd h hopen) (Nat.zero_le _)

/-- The lengths so far and the size of the entry add up without a wrap. -/
theorem data_room {txLen size tx : UInt16}
    (h : ¬ txLen.toUInt32 + size.toUInt32 + 2 > tx.toUInt32) :
    (txLen + 2).toNat = txLen.toNat + 2 ∧ txLen.toNat + 2 + size.toNat ≤ tx.toNat := by
  have hle := UInt32.le_iff_toNat_le.mp (UInt32.not_lt.mp h)
  have htwo : (2 : UInt32).toNat = 2 := rfl
  rw [UInt32.toNat_add, UInt32.toNat_add, UInt16.toNat_toUInt32, UInt16.toNat_toUInt32,
    UInt16.toNat_toUInt32, htwo] at hle
  have hnext := UInt16.toNat_add txLen 2
  have htwo' : (2 : UInt16).toNat = 2 := rfl
  have := txLen.toNat_lt
  have := size.toNat_lt
  have := tx.toNat_lt
  omega

/-- Reading data compares every part with the buffer before it is written. -/
theorem readDids_fits (hobey : Obedient cfg) (is : List ℕ) (txLen : UInt16)
    (h : is ≠ [] ∨ 1 ≤ cfg.txBufferSize.toNat) : Fits cfg (readDids cfg d is txLen) u := by
  induction is generalizing txLen u with
  | nil => exact fits_respond.mpr (h.resolve_left fun hne => hne rfl)
  | cons i is ih =>
    have hid : (d.byte i).toUInt16 <<< 8 ||| (d.byte (i + 1)).toUInt16 = didAt d i := rfl
    unfold readDids
    rw [fits_byte, fits_byte]
    dsimp only
    rw [hid]
    cases findDid cfg (didAt d i) with
    | none => exact sendNrc_fits _
    | some entry =>
      dsimp only
      rw [fits_tests, fits_check, fits_write]
      intro _ hsize
      obtain ⟨hnext, hroom⟩ := data_room hsize
      refine ⟨Or.inr ?_, ?_⟩
      · exact (Nat.le_add_right _ _).trans hroom
      by_cases hread : entry.read = true
      · rw [if_pos hread, fits_callOut hobey rfl, hnext, fits_check]
        exact ⟨hroom, fun _ => ih _ (Or.inr (by omega))⟩
      · rw [if_neg hread]
        cases entry.storage with
        | none => exact sendNrc_fits _
        | some storage =>
          dsimp only
          rw [fits_read, fits_write, slice_length, hnext]
          exact ⟨Or.inr hroom, ih _ (Or.inr (by omega))⟩

theorem stopIds_room (is : List ℕ) : Fits cfg (stopIds cfg d is) u ↔ 1 ≤ cfg.txBufferSize.toNat := by
  induction is generalizing u with
  | nil => exact fits_respond
  | cons i is ih =>
    unfold stopIds
    rw [fits_byte, fits_assign]
    exact ih

theorem startIds_room {c : Ctx} (hids : c.periodicIds = u.ctx.periodicIds)
    (hcount : c.periodicCount = u.ctx.periodicCount) (mode : UInt8) (is : List ℕ) :
    Fits cfg (startIds cfg d mode is) u ↔ (startsIds d c is = true → 1 ≤ cfg.txBufferSize.toNat) := by
  induction is generalizing u c with
  | nil => exact fits_respond.trans (imp_iff_right rfl).symm
  | cons i is ih =>
    have hslot (id : UInt8) : slotOf u.ctx id = slotOf c id := by
      unfold slotOf
      rw [hids]
    unfold startIds startsIds
    rw [fits_byte, fits_ctx, hslot]
    cases slotOf c (d.byte i) with
    | some j => exact ih hids hcount
    | none =>
      dsimp only
      rw [fits_check, hslot, ge_iff_le, UInt8.not_le, ← hcount]
      cases slotOf c 0 with
      | none =>
        dsimp only
        rw [Bool.and_eq_true, decide_eq_true_iff, and_imp, ih hids hcount]
      | some j =>
        dsimp only
        rw [Bool.and_eq_true, decide_eq_true_iff, and_imp, fits_assign, fits_time, fits_assign]
        refine imp_congr_right fun _ => ih ?_ ?_
        · exact congrArg (fun ids => Function.update ids j (d.byte i)) hids
        · exact congrArg (· + 1) hcount

theorem periodicRead_room (hlen : 2 ≤ d.bytes.length) : Fits cfg (handlePeriodicRead cfg d) u ↔
    roomPeriodicRead u d ≤ cfg.txBufferSize.toNat := by
  unfold handlePeriodicRead roomPeriodicRead
  rw [if_neg (not_len_lt (n := 2) hlen), fits_byte, needed_le]
  extract_lets mode positions
  by_cases hstop : mode = 0x04
  · rw [if_pos hstop, imp_iff_right (Or.inl hstop)]
    split_ifs
    · rw [fits_assign]
      exact fits_respond
    · exact stopIds_room positions
  · rw [if_neg hstop, fits_check, or_iff_right hstop, and_imp, startIds_room rfl rfl]

/-- A handler stays in the buffer exactly where the buffer has the room it needs. -/
theorem handler_room (hobey : Obedient cfg) : ∀ service ∈ coreServices cfg,
    service.minLen.toNat ≤ d.bytes.length →
    (Fits cfg (service.handler d) u ↔
      roomOf cfg u d service.sid ≤ cfg.txBufferSize.toNat) := by
  unfold coreServices coreService
  simp only [List.forall_mem_cons]
  refine ⟨fun _ => sessionControl_room, ecuReset_room, clearDtc_room, readDtcInfo_room hobey, ?_,
    readMemoryByAddr_room hobey, securityAccess_room hobey, fun _ => commControl_room,
    authentication_room hobey, writeDataById_room, routineControl_room hobey, requestDownload_room,
    transferData_room, fun _ => transferExit_room, writeMemoryByAddr_room,
    fun _ => testerPresent_room, controlDtcSetting_room, periodicRead_room, ioControl_room hobey,
    requestUpload_room, ?_⟩
  · intro hlen
    have hlen' : 3 ≤ d.bytes.length := hlen
    have hread : didPositions d.bytes.length ≠ [] := by
      apply List.ne_nil_of_length_pos
      rw [didPositions, List.length_map, List.length_range]
      omega
    exact iff_of_true (readDids_fits hobey _ _ (Or.inl hread)) (Nat.zero_le _)
  · exact List.forall_mem_nil _

end Handlers

end UdsLib.Services
