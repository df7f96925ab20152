import UdsLib.Services.Composition
import UdsLib.Services.WriteMemory

/-! What the handlers of the core services do, action by action, with all that is known of an
action where it is done: the bytes of the request that it reads, the callback that it calls and the
part of the request that goes with the call, and the fields of the context that it writes. -/
namespace UdsLib.Core
open Bytes

variable {W : Type}

/-- The part of the request that is handed to a callback. -/
def Call.slice? : Call → Option Slice
  | .securityKey _ key => some key
  | .isSafe _ data => some data
  | .auth _ data _ => some data
  | .routineControl _ _ data _ => some data
  | .transferData _ data => some data
  | .memWrite _ _ data => some data
  | .ioControl _ _ data _ => some data
  | .didWrite _ data => some data
  | _ => none

/-- `fn_mem_write`, which is told the declared size of its data. -/
def Call.isMemWrite : Call → Bool
  | .memWrite _ _ _ => true
  | _ => false

/-- The service whose handler makes the call. -/
def Call.service? : Call → Option UInt8
  | .reset _ => some sidEcuReset
  | .commControl _ _ => some sidCommControl
  | .securitySeed _ _ => some sidSecurityAccess
  | .securityKey _ _ => some sidSecurityAccess
  | .dtcRead _ _ => some sidReadDtcInfo
  | .dtcClear _ => some sidClearDtc
  | .auth _ _ _ => some sidAuthentication
  | .routineControl _ _ _ _ => some sidRoutineControl
  | .requestDownload _ _ => some sidRequestDownload
  | .transferData _ _ => some sidTransferData
  | .transferExit => some sidTransferExit
  | .memRead _ _ _ => some sidReadMemByAddr
  | .memWrite _ _ _ => some sidWriteMemByAddr
  | .ioControl _ _ _ _ => some sidIoControlById
  | .requestUpload _ _ => some sidRequestUpload
  | .didRead _ _ => some sidReadDataById
  | .didWrite _ _ => some sidWriteDataById
  | _ => none

/-- The calls that the handlers of several services make. -/
def Call.isShared : Call → Bool
  | .log _ _ => true
  | .isSafe _ _ => true
  | .nvmSave _ => true
  | _ => false

/-- The callback of the call is not null. -/
def Configured (cfg : Config W) : Call → Prop
  | .log _ _ => cfg.isSet .fnLog = true
  | .reset _ => cfg.isSet .fnReset = true
  | .commControl _ _ => cfg.isSet .fnCommControl = true
  | .securitySeed _ _ => cfg.isSet .fnSecuritySeed = true
  | .securityKey _ _ => cfg.isSet .fnSecurityKey = true
  | .isSafe _ _ => cfg.isSet .fnIsSafe = true
  | .nvmSave _ => cfg.isSet .fnNvmSave = true
  | .nvmLoad _ => cfg.isSet .fnNvmLoad = true
  | .dtcRead _ _ => cfg.isSet .fnDtcRead = true
  | .dtcClear _ => cfg.isSet .fnDtcClear = true
  | .auth _ _ _ => cfg.isSet .fnAuth = true
  | .routineControl _ _ _ _ => cfg.isSet .fnRoutineControl = true
  | .requestDownload _ _ => cfg.isSet .fnRequestDownload = true
  | .transferData _ _ => cfg.isSet .fnTransferData = true
  | .transferExit => cfg.isSet .fnTransferExit = true
  | .memRead _ _ _ => cfg.isSet .fnMemRead = true
  | .memWrite _ _ _ => cfg.isSet .fnMemWrite = true
  | .ioControl _ _ _ _ => cfg.isSet .fnIoControl = true
  | .requestUpload _ _ => cfg.isSet .fnRequestUpload = true
  | .periodicRead _ _ => cfg.isSet .fnPeriodicRead = true
  | .didRead id _ => ∃ entry, findDid cfg id = some entry ∧ entry.read = true
  | .didWrite id _ => ∃ entry, findDid cfg id = some entry ∧ entry.write = true
  | .mutexLock => cfg.isSet .fnMutexLock = true
  | .mutexUnlock => cfg.isSet .fnMutexUnlock = true

/-- The slice holds bytes of the request and ends where the request does, or before. -/
structure Within (d : Sdu) (part : Slice) : Prop where
  bytes : part.bytes = (d.bytes.drop part.off).take part.len
  ends : part.off + part.len ≤ d.bytes.length

end UdsLib.Core

namespace UdsLib.Services
open Bytes Machine Prog UdsLib.Core

variable {W : Type} {cfg : Config W} {d : Sdu} {sid : UInt8}

/-- The services that move blocks of memory. -/
def MovesBlocks (sid : UInt8) : Prop :=
  sid = sidRequestDownload ∨ sid = sidRequestUpload ∨ sid = sidTransferData

/-- The services that test the masks of a DID. -/
def TestsMasks (sid : UInt8) : Prop :=
  sid = sidReadDataById ∨ sid = sidWriteDataById ∨ sid = sidIoControlById

/-- The services that read parts of the context for themselves also write them alone. -/
structure Confined (sid : UInt8) (g : Ctx → Ctx) : Prop where
  pair : MayPair sid ∨ ∀ c, (g c).pair = c.pair
  transfer : MovesBlocks sid ∨ ∀ c, (g c).flashSequence = c.flashSequence
  lockout : sid = sidSecurityAccess ∨
    ∀ c, (g c).securityDelayEnd = c.securityDelayEnd ∧ (g c).securityAttempts = c.securityAttempts
  registry : sid = sidReadByPerId ∨
    ∀ c, (g c).periodicIds = c.periodicIds ∧ (g c).periodicCount = c.periodicCount
  timers : sid = sidReadByPerId ∨ ∀ c, (g c).periodicTimers = c.periodicTimers

/-- A call that the handler of the service `sid` may make for the request. -/
structure Allowed (cfg : Config W) (d : Sdu) (sid : UInt8) (call : Call) : Prop where
  configured : Configured cfg call
  service : call.service? = some sid ∨ call.isShared = true
  inside : call.isMemWrite = false → ∀ part, call.slice? = some part → Within d part

/-- The actions of the handler of the service `sid` on the request `d`. -/
inductive Deed (cfg : Config W) (d : Sdu) (sid : UInt8) : (α : Type) → M W α → Prop where
  | reads {α : Type} (f : Sys W → α) : Deed cfg d sid α (Prog.reads f)
  | getTime : Deed cfg d sid UInt32 (Core.getTime cfg)
  | byteAt {i : ℕ} (hi : i < d.bytes.length) : Deed cfg d sid UInt8 (Core.byteAt d i)
  | bytesAt {off n : ℕ} (hn : n = 0 ∨ off + n ≤ d.bytes.length) :
      Deed cfg d sid (List UInt8) (Core.bytesAt d off n)
  | invoke {call : Call} (hcall : Allowed cfg d sid call) :
      Deed cfg d sid Reply (Core.invoke cfg call)
  | sessionRefused (entry : DidEntry) (hsid : TestsMasks sid) :
      Deed cfg d sid Bool (Services.sessionRefused entry)
  | securityRefused (entry : DidEntry) (hsid : TestsMasks sid) :
      Deed cfg d sid Bool (Services.securityRefused entry)
  | writeTx (off : ℕ) (bs : List UInt8) : Deed cfg d sid Unit (Core.writeTx cfg off bs)
  | setCtx {g : Ctx → Ctx} (hg : Confined sid g) : Deed cfg d sid Unit (Core.setCtx g)
  | writeMem (addr : ℕ) (bs : List UInt8) : Deed cfg d sid Unit (Core.writeMem addr bs)
  | sendNrc (nrc : UInt8) : Deed cfg d sid ℤ (Core.sendNrc cfg sid nrc)
  | sendResponse (len : UInt16) : Deed cfg d sid ℤ (Core.sendResponse cfg len)
  | withhold : Deed cfg d sid Unit (emit .withheld)

/-- `m` is composed of such actions. -/
abbrev Deeds (cfg : Config W) (d : Sdu) (sid : UInt8) {α : Type} (m : M W α) : Prop :=
  Composed (Deed cfg d sid) m

namespace Deeds

variable {α β : Type}

theorem first {m : M W α} {f : α → M W β} (hm : Deed cfg d sid α m)
    (hf : ∀ a, Deeds cfg d sid (f a)) : Deeds cfg d sid (m >>= f) :=
  .bind (.act hm) fun _ => hf _

theorem byte {i : ℕ} {f : UInt8 → M W β} (hi : i < d.bytes.length)
    (hf : Deeds cfg d sid (f (d.byte i))) : Deeds cfg d sid (byteAt d i >>= f) :=
  .bind (.act (.byteAt hi)) fun _ => hf

theorem ctx {f : Ctx → M W β} (hf : ∀ c, Deeds cfg d sid (f c)) :
    Deeds cfg d sid (getCtx >>= f) :=
  first (.reads _) hf

theorem deny (nrc : UInt8) : Deeds cfg d sid (sendNrc cfg sid nrc) :=
  .act (.sendNrc nrc)

/-- A check that refuses goes on where it does not apply. -/
theorem check {p : Prop} [Decidable p] {nrc : UInt8} {n : M W ℤ}
    (hn : ¬ p → Deeds cfg d sid n) : Deeds cfg d sid (if p then sendNrc cfg sid nrc else n) :=
  .ite (fun _ => deny nrc) hn

theorem optional {p : Prop} [Decidable p] {m : M W Unit} (hm : p → Deeds cfg d sid m) :
    Deeds cfg d sid (onlyIf p m) :=
  .ite hm fun _ => .pure ()

theorem respond {off : ℕ} {bs : List UInt8} (len : UInt16) :
    Deeds cfg d sid (writeTx cfg off bs >>= fun _ => sendResponse cfg len) :=
  first (.writeTx off bs) fun _ => .act (.sendResponse len)

theorem withheld : Deeds cfg d sid (returnSuppressed : M W ℤ) :=
  first .withhold fun _ => .pure _

theorem call {call : Call} {f : Reply → M W β} (hcall : Allowed cfg d sid call)
    (hf : ∀ reply, Deeds cfg d sid (f reply)) : Deeds cfg d sid (invoke cfg call >>= f) :=
  first (.invoke hcall) hf

theorem callVoid {call : Call} (hcall : Allowed cfg d sid call) :
    Deeds cfg d sid (invokeVoid cfg call) :=
  Deeds.call hcall fun _ => .pure ()

theorem callOut {call : Call} {off : ℕ} {f : ℤ → M W β} (hcall : Allowed cfg d sid call)
    (hf : ∀ n, Deeds cfg d sid (f n)) : Deeds cfg d sid (invokeOut cfg call off >>= f) := by
  refine .bind (Deeds.call hcall fun _ => ?_) fun _ => hf _
  exact first (.writeTx _ _) fun _ => .pure _

theorem log (level : UInt8) (msg : String) : Deeds cfg d sid (internalLog cfg level msg) :=
  optional fun hlog => callVoid ⟨hlog.1, .inr rfl, nofun⟩

theorem safetyGate (asked : UInt8) : Deeds cfg d sid (safetyGate cfg asked d) := by
  refine .ite (fun _ => .pure _) fun hset => Deeds.call ⟨not_not.mp hset, .inr rfl, ?_⟩ ?_
  · intro _ part hpart
    obtain rfl := Option.some.inj hpart
    exact ⟨rfl, Nat.le_of_eq (Nat.zero_add _)⟩
  · exact fun _ => .pure _

theorem write {g : Ctx → Ctx} {f : Unit → M W β} (hg : Confined sid g)
    (hf : Deeds cfg d sid (f ())) : Deeds cfg d sid (setCtx g >>= f) :=
  first (.setCtx hg) fun _ => hf

theorem readBe {off n : ℕ} (hn : off + n ≤ d.bytes.length) :
    Deeds cfg d sid (readBe d off n) := by
  induction n with
  | zero => exact .pure 0
  | succ n ih => exact .bind (ih (by omega)) fun _ => byte (by omega) (.pure _)

end Deeds

/-- What is known of the fields once they are parsed. -/
theorem parseAddrLen_some {off : ℕ} {len : UInt16} {format : UInt8} {s : Sys W}
    {fields : UInt32 × UInt32} (h : (parseAddrLen d off len format).value s = some fields) :
    ValidFormat format ∧ (addrLenOf format).toNat + (sizeLenOf format).toNat ≤ len.toNat := by
  by_cases hv : ValidFormat format
  · rw [parseAddrLen_eq d off len hv] at h
    split_ifs at h with hlen
    · cases h
    · exact ⟨hv, Nat.not_lt.mp hlen⟩
  · have hinvalid := not_not.mp (mt (validFormat_iff format).mpr hv)
    unfold parseAddrLen at h
    rw [if_pos (by tauto)] at h
    cases h

/-- The parser stays within the `len` bytes it is given. -/
theorem Deeds.parse {β : Type} {off : ℕ} {len : UInt16} {format : UInt8}
    {f : Option (UInt32 × UInt32) → M W β} (hlen : off + len.toNat ≤ d.bytes.length)
    (hnone : Deeds cfg d sid (f none))
    (hsome : ∀ addr size, ValidFormat format →
      off + ((addrLenOf format).toNat + (sizeLenOf format).toNat) ≤ d.bytes.length →
      Deeds cfg d sid (f (some (addr, size)))) :
    Deeds cfg d sid (parseAddrLen d off len format >>= f) := by
  refine .bind ?_ fun s => ?_
  · by_cases hv : ValidFormat format
    · rw [parseAddrLen_eq d off len hv]
      refine .ite (fun _ => .pure _) fun hfits => ?_
      refine .bind (Deeds.readBe (by omega)) fun _ => .bind (Deeds.readBe (by omega)) fun _ => ?_
      exact .pure _
    · have hinvalid := not_not.mp (mt (validFormat_iff format).mpr hv)
      unfold parseAddrLen
      rw [if_pos (by tauto)]
      exact .pure _
  · cases hvalue : (parseAddrLen d off len format).value s with
    | none => exact hnone
    | some fields =>
      obtain ⟨hv, hfits⟩ := parseAddrLen_some hvalue
      exact hsome fields.1 fields.2 hv (by omega)

/-! ### The handlers -/

theorem confined_free {g : Ctx → Ctx} (hpair : ∀ c, (g c).pair = c.pair)
    (htransfer : ∀ c, (g c).flashSequence = c.flashSequence)
    (hlockout : ∀ c, (g c).securityDelayEnd = c.securityDelayEnd ∧
      (g c).securityAttempts = c.securityAttempts)
    (hregistry : ∀ c, (g c).periodicIds = c.periodicIds ∧ (g c).periodicCount = c.periodicCount)
    (htimers : ∀ c, (g c).periodicTimers = c.periodicTimers) : Confined sid g :=
  ⟨.inr hpair, .inr htransfer, .inr hlockout, .inr hregistry, .inr htimers⟩

theorem confined_pair {g : Ctx → Ctx} (hsid : MayPair sid)
    (htransfer : ∀ c, (g c).flashSequence = c.flashSequence)
    (hregistry : ∀ c, (g c).periodicIds = c.periodicIds ∧ (g c).periodicCount = c.periodicCount)
    (htimers : ∀ c, (g c).periodicTimers = c.periodicTimers)
    (hlockout : sid = sidSecurityAccess ∨ ∀ c, (g c).securityDelayEnd = c.securityDelayEnd ∧
      (g c).securityAttempts = c.securityAttempts) : Confined sid g :=
  ⟨.inl hsid, .inr htransfer, hlockout, .inr hregistry, .inr htimers⟩

theorem sessionControl_deeds (hlen : 2 ≤ d.bytes.length) :
    Deeds cfg d sidSessionControl (handleSessionControl cfg d) := by
  have hpair : MayPair sidSessionControl := .inl rfl
  unfold handleSessionControl
  apply Deeds.byte hlen
  apply Deeds.check
  intro _
  apply Deeds.ctx
  intro _
  apply Composed.bind
  · apply Deeds.optional
    intro _
    apply Composed.act
    apply Deed.setCtx
    exact confined_pair hpair (fun _ => rfl) (fun _ => ⟨rfl, rfl⟩) (fun _ => rfl)
      (.inr fun _ => ⟨rfl, rfl⟩)
  intro _
  apply Deeds.write
  · exact confined_pair hpair (fun _ => rfl) (fun _ => ⟨rfl, rfl⟩) (fun _ => rfl)
      (.inr fun _ => ⟨rfl, rfl⟩)
  apply Deeds.first (.writeTx _ _)
  intro _
  apply Deeds.first (.sendResponse _)
  intro _
  apply Deeds.ctx
  intro c
  apply Composed.bind
  · apply Deeds.optional
    intro hset
    exact Deeds.callVoid ⟨hset, .inr rfl, nofun⟩
  · exact fun _ => .pure _

theorem testerPresent_deeds (hlen : 2 ≤ d.bytes.length) :
    Deeds cfg d sidTesterPresent (handleTesterPresent cfg d) := by
  apply Deeds.byte hlen
  exact .ite (fun _ => Deeds.respond 2) fun _ => Deeds.deny _

theorem setSuppress_deeds {c : Prop} [Decidable c] : Deeds cfg d sid (onlyIf c setSuppress) := by
  apply Deeds.optional
  intro _
  apply Composed.act
  apply Deed.setCtx
  exact confined_free (fun _ => rfl) (fun _ => rfl) (fun _ => ⟨rfl, rfl⟩) (fun _ => ⟨rfl, rfl⟩)
    fun _ => rfl

theorem ecuReset_deeds (hlen : 2 ≤ d.bytes.length) :
    Deeds cfg d sidEcuReset (handleEcuReset cfg d) := by
  unfold handleEcuReset
  rw [if_neg (not_len_lt (n := 2) hlen)]
  apply Deeds.byte hlen
  apply Deeds.check
  intro _
  refine .bind setSuppress_deeds fun _ => .bind (Deeds.optional fun hset => ?_) fun _ => ?_
  · exact Deeds.callVoid ⟨hset, .inl rfl, nofun⟩
  · exact .ite (fun _ => Deeds.withheld) fun _ => Deeds.respond 2

theorem commControl_deeds : Deeds cfg d sidCommControl (handleCommControl cfg d) := by
  have hdone (subRaw : UInt8) : Deeds cfg d sidCommControl (commControlled cfg subRaw) := by
    apply Deeds.write
    · exact confined_free (fun _ => rfl) (fun _ => rfl) (fun _ => ⟨rfl, rfl⟩) (fun _ => ⟨rfl, rfl⟩)
        fun _ => rfl
    apply Composed.bind (Deeds.log _ _)
    exact fun _ => .ite (fun _ => Deeds.withheld) fun _ => Deeds.respond 2
  unfold handleCommControl
  apply Deeds.check
  intro hlen
  have hlen' : 3 ≤ d.bytes.length := Nat.not_lt.mp (mt (len_lt_iff (n := 3)).mpr hlen)
  apply Deeds.byte (by omega)
  apply Deeds.byte (by omega)
  apply Deeds.check
  intro _
  apply Deeds.check
  intro _
  refine .bind setSuppress_deeds fun _ => .ite (fun hset => ?_) fun _ => hdone _
  apply Deeds.call
  · exact ⟨hset, .inl rfl, nofun⟩
  · exact fun _ => Deeds.check fun _ => hdone _

theorem clearDtc_deeds (hlen : 4 ≤ d.bytes.length) :
    Deeds cfg d sidClearDtc (handleClearDtc cfg d) := by
  unfold handleClearDtc
  rw [if_neg (not_len_lt (n := 4) hlen)]
  apply Deeds.check
  intro hset
  apply Deeds.byte (by omega)
  apply Deeds.byte (by omega)
  apply Deeds.byte (by omega)
  apply Deeds.call
  · exact ⟨not_not.mp hset, .inl rfl, nofun⟩
  · exact fun _ => Deeds.check fun _ => Deeds.respond 1

theorem readDtcInfo_deeds (hlen : 2 ≤ d.bytes.length) :
    Deeds cfg d sidReadDtcInfo (handleReadDtcInfo cfg d) := by
  unfold handleReadDtcInfo
  rw [if_neg (not_len_lt (n := 2) hlen)]
  apply Deeds.byte hlen
  apply Deeds.check
  intro _
  apply Deeds.check
  intro hset
  apply Composed.bind setSuppress_deeds
  intro _
  apply Deeds.callOut
  · exact ⟨not_not.mp hset, .inl rfl, nofun⟩
  intro _
  apply Deeds.check
  exact fun _ => .ite (fun _ => Deeds.withheld) fun _ => Deeds.respond _

theorem controlDtcSetting_deeds (hlen : 2 ≤ d.bytes.length) :
    Deeds cfg d sidControlDtcSetting (handleControlDtcSetting cfg d) := by
  unfold handleControlDtcSetting
  rw [if_neg (not_len_lt (n := 2) hlen)]
  apply Deeds.byte hlen
  apply Deeds.check
  intro _
  exact .bind setSuppress_deeds fun _ => Deeds.respond 2

/-- Both bytes of a DID are there. -/
theorem didPositions_within {len i : ℕ} (h : i ∈ didPositions len) : i + 1 < len := by
  obtain ⟨k, hk, rfl⟩ := List.mem_map.mp h
  have := List.mem_range.mp hk
  omega

theorem readDids_deeds (is : List ℕ) (his : ∀ i ∈ is, i + 1 < d.bytes.length) (txLen : UInt16) :
    Deeds cfg d sidReadDataById (readDids cfg d is txLen) := by
  have hsid : TestsMasks sidReadDataById := .inl rfl
  induction is generalizing txLen with
  | nil => exact Deeds.respond _
  | cons i is ih =>
    obtain ⟨hi, hrest⟩ := List.forall_mem_cons.mp his
    unfold readDids
    apply Deeds.byte (by omega)
    apply Deeds.byte hi
    extract_lets did
    split
    next entry hentry =>
      apply Deeds.first (.sessionRefused entry hsid)
      intro _
      apply Deeds.check
      intro _
      apply Deeds.first (.securityRefused entry hsid)
      intro _
      apply Deeds.check
      intro _
      apply Deeds.check
      intro _
      apply Deeds.first (.writeTx _ _)
      intro _
      refine .ite (fun hread => ?_) fun _ => ?_
      · apply Deeds.callOut
        · exact ⟨⟨entry, hentry, hread⟩, .inl rfl, nofun⟩
        · exact fun _ => Deeds.check fun _ => ih hrest _
      · split
        · apply Deeds.first (.reads _)
          exact fun _ => Deeds.first (.writeTx _ _) fun _ => ih hrest _
        · exact Deeds.deny _
    next => exact Deeds.deny _

theorem readDataById_deeds : Deeds cfg d sidReadDataById (handleReadDataById cfg d) :=
  readDids_deeds _ (fun _ => didPositions_within) 1

/-- The data of a write are the rest of the request. -/
theorem writtenData_within {entry : DidEntry} (h3 : 3 ≤ d.bytes.length)
    (hlen : ¬ d.len ≠ 3 + entry.size) : 3 + entry.size.toNat = d.bytes.length := by
  have hsum := congrArg UInt16.toNat (not_not.mp hlen)
  have hlt := d.length_lt
  have hsize := entry.size.toNat_lt
  rw [d.len_toNat, UInt16.toNat_add] at hsum
  have hthree : (3 : UInt16).toNat = 3 := rfl
  omega

theorem writeDataById_deeds (hlen : 3 ≤ d.bytes.length) :
    Deeds cfg d sidWriteDataById (handleWriteDataById cfg d) := by
  have hsid : TestsMasks sidWriteDataById := .inr (.inl rfl)
  unfold handleWriteDataById
  rw [if_neg (not_len_lt (n := 3) hlen)]
  apply Deeds.byte (by omega)
  apply Deeds.byte (by omega)
  extract_lets did
  split
  next entry hentry =>
    apply Deeds.first (.sessionRefused entry hsid)
    intro _
    apply Deeds.check
    intro _
    apply Deeds.first (.securityRefused entry hsid)
    intro _
    apply Deeds.check
    intro _
    apply Deeds.check
    intro hsize
    have hdata := writtenData_within hlen hsize
    apply Composed.bind
    · unfold writeDid
      refine .ite (fun hwrite => ?_) fun _ => ?_
      · apply Deeds.call
        · refine ⟨⟨entry, hentry, hwrite⟩, .inl rfl, fun _ part hpart => ?_⟩
          obtain rfl := Option.some.inj hpart
          exact ⟨rfl, Nat.le_of_eq hdata⟩
        · exact fun _ => .pure _
      · split
        · apply Deeds.first (.bytesAt (.inr (Nat.le_of_eq hdata)))
          exact fun _ => Deeds.first (.writeMem _ _) fun _ => .pure _
        · exact .pure _
    · exact fun _ => .ite (fun _ => Deeds.respond 3) fun _ => Deeds.deny _
  next => exact Deeds.deny _

/-- A write to the registry of periodic ids. -/
theorem confined_registry {g : Ctx → Ctx} (hpair : ∀ c, (g c).pair = c.pair)
    (htransfer : ∀ c, (g c).flashSequence = c.flashSequence)
    (hlockout : ∀ c, (g c).securityDelayEnd = c.securityDelayEnd ∧
      (g c).securityAttempts = c.securityAttempts) : Confined sidReadByPerId g :=
  ⟨.inr hpair, .inr htransfer, .inr hlockout, .inl rfl, .inl rfl⟩

theorem periodicAccepted_deeds : Deeds cfg d sidReadByPerId (periodicAccepted cfg) :=
  Deeds.respond 1

theorem stopIds_deeds (is : List ℕ) (his : ∀ i ∈ is, i < d.bytes.length) :
    Deeds cfg d sidReadByPerId (stopIds cfg d is) := by
  induction is with
  | nil => exact periodicAccepted_deeds
  | cons i is ih =>
    obtain ⟨hi, hrest⟩ := List.forall_mem_cons.mp his
    apply Deeds.byte hi
    refine Deeds.write (confined_registry ?_ ?_ fun c => ?_) (ih hrest)
    · exact stopId_keeps _ fun _ _ => rfl
    · exact stopId_keeps _ fun _ _ => rfl
    · constructor
      · exact stopId_keeps (f := Ctx.securityDelayEnd) _ (fun _ _ => rfl) c
      · exact stopId_keeps (f := Ctx.securityAttempts) _ (fun _ _ => rfl) c

theorem startIds_deeds (mode : UInt8) (is : List ℕ) (his : ∀ i ∈ is, i < d.bytes.length) :
    Deeds cfg d sidReadByPerId (startIds cfg d mode is) := by
  induction is with
  | nil => exact periodicAccepted_deeds
  | cons i is ih =>
    obtain ⟨hi, hrest⟩ := List.forall_mem_cons.mp his
    unfold startIds
    apply Deeds.byte hi
    apply Deeds.ctx
    intro _
    split
    · apply Deeds.write
      · exact confined_registry (fun _ => rfl) (fun _ => rfl) fun _ => ⟨rfl, rfl⟩
      · exact ih hrest
    · apply Deeds.check
      intro _
      split
      · apply Deeds.write
        · exact confined_registry (fun _ => rfl) (fun _ => rfl) fun _ => ⟨rfl, rfl⟩
        apply Deeds.first .getTime
        intro _
        apply Deeds.write
        · exact confined_registry (fun _ => rfl) (fun _ => rfl) fun _ => ⟨rfl, rfl⟩
        · exact ih hrest
      · exact ih hrest

theorem periodicRead_deeds (hlen : 2 ≤ d.bytes.length) :
    Deeds cfg d sidReadByPerId (handlePeriodicRead cfg d) := by
  have hpositions : ∀ i ∈ List.range' 2 (d.bytes.length - 2), i < d.bytes.length := by
    intro i hi
    have := (List.mem_range'_1.mp hi).2
    omega
  unfold handlePeriodicRead
  rw [if_neg (not_len_lt (n := 2) hlen)]
  apply Deeds.byte hlen
  refine .ite (fun _ => .ite (fun _ => ?_) fun _ => ?_) fun _ => Deeds.check fun _ => ?_
  · apply Deeds.write
    · exact confined_registry (fun _ => rfl) (fun _ => rfl) fun _ => ⟨rfl, rfl⟩
    · exact periodicAccepted_deeds
  · exact stopIds_deeds _ hpositions
  · exact startIds_deeds _ _ hpositions

theorem readMemoryByAddr_deeds (hlen : 3 ≤ d.bytes.length) :
    Deeds cfg d sidReadMemByAddr (handleReadMemoryByAddr cfg d) := by
  have hrest := restLen_toNat d (by omega)
  unfold handleReadMemoryByAddr
  rw [if_neg (not_len_lt (n := 3) hlen)]
  apply Deeds.byte (by omega)
  apply Deeds.check
  intro _
  apply Deeds.parse (by omega)
  · exact Deeds.deny _
  intro addr size _ _
  apply Deeds.check
  intro hset
  apply Deeds.check
  intro _
  apply Deeds.callOut
  · exact ⟨not_not.mp hset, .inl rfl, nofun⟩
  · exact fun _ => Deeds.check fun _ => Deeds.respond _

theorem writeMemory_deeds {format : UInt8} (addr size : UInt32)
    (hfields : 2 + ((addrLenOf format).toNat + (sizeLenOf format).toNat) ≤ d.bytes.length) :
    Deeds cfg d sidWriteMemByAddr (writeMemory cfg d format addr size) := by
  unfold writeMemory
  apply Deeds.check
  intro hset
  apply Composed.bind (Deeds.safetyGate _)
  intro _
  apply Deeds.check
  intro _
  apply Deeds.call
  · exact ⟨not_not.mp hset, .inl rfl, fun hother => absurd hother nofun⟩
  intro _
  apply Deeds.check
  intro _
  apply Deeds.first (.bytesAt (.inr hfields))
  intro _
  apply Deeds.first (.writeTx _ _)
  exact fun _ => Deeds.respond _

theorem writeMemoryByAddr_deeds (hlen : 3 ≤ d.bytes.length) :
    Deeds cfg d sidWriteMemByAddr (handleWriteMemoryByAddr cfg d) := by
  have hrest := restLen_toNat d (by omega)
  unfold handleWriteMemoryByAddr
  rw [if_neg (not_len_lt (n := 3) hlen)]
  apply Deeds.byte (by omega)
  apply Deeds.check
  intro _
  apply Deeds.parse (by omega)
  · exact Deeds.deny _
  intro addr size _ hfields
  apply Deeds.check
  exact fun _ => writeMemory_deeds addr size hfields

/-- The rest of a request behind its first bytes. -/
theorem rest_within {n : UInt16} (hlen : n.toNat ≤ d.bytes.length) :
    Within d (d.slice n.toNat (d.len - n).toNat) := by
  have hrest := len_sub hlen
  constructor
  · rfl
  · change n.toNat + (d.len - n).toNat ≤ d.bytes.length
    omega

theorem securityAccess_deeds (hlen : 2 ≤ d.bytes.length) :
    Deeds cfg d sidSecurityAccess (handleSecurityAccess cfg d) := by
  have hpair : MayPair sidSecurityAccess := .inr rfl
  unfold handleSecurityAccess
  rw [if_neg (not_len_lt (n := 2) hlen)]
  apply Deeds.first .getTime
  intro now
  apply Deeds.ctx
  intro _
  apply Deeds.check
  intro _
  apply Deeds.write
  · exact confined_pair hpair (fun _ => rfl) (fun _ => ⟨rfl, rfl⟩) (fun _ => rfl) (.inl rfl)
  apply Deeds.byte hlen
  apply Composed.ite
  · intro _
    unfold requestSeed
    apply Deeds.check
    intro hset
    apply Deeds.first (.writeTx _ _)
    intro _
    apply Deeds.callOut
    · exact ⟨not_not.mp hset, .inl rfl, nofun⟩
    · exact fun _ => Deeds.check fun _ => .act (.sendResponse _)
  intro _
  unfold sendKey
  apply Deeds.check
  intro hset
  apply Deeds.call
  · refine ⟨not_not.mp hset, .inl rfl, fun _ part hpart => ?_⟩
    obtain rfl := Option.some.inj hpart
    exact rest_within (n := 2) hlen
  intro _
  apply Composed.ite
  · intro _
    unfold keyAccepted
    apply Deeds.write
    · exact confined_pair hpair (fun _ => rfl) (fun _ => ⟨rfl, rfl⟩) (fun _ => rfl) (.inl rfl)
    apply Deeds.ctx
    intro _
    apply Composed.bind
    · apply Deeds.optional
      exact fun hsave => Deeds.callVoid ⟨hsave, .inr rfl, nofun⟩
    · exact fun _ => Deeds.respond 2
  · intro _
    unfold keyRejected
    apply Deeds.write
    · exact confined_pair hpair (fun _ => rfl) (fun _ => ⟨rfl, rfl⟩) (fun _ => rfl) (.inl rfl)
    apply Deeds.ctx
    intro _
    apply Composed.ite
    · intro _
      apply Deeds.write
      · exact confined_pair hpair (fun _ => rfl) (fun _ => ⟨rfl, rfl⟩) (fun _ => rfl) (.inl rfl)
      · exact Deeds.deny _
    · exact fun _ => Deeds.deny _

theorem authentication_deeds (hlen : 2 ≤ d.bytes.length) :
    Deeds cfg d sidAuthentication (handleAuthentication cfg d) := by
  unfold handleAuthentication
  rw [if_neg (not_len_lt (n := 2) hlen)]
  apply Deeds.byte hlen
  apply Deeds.check
  intro hset
  apply Deeds.callOut
  · refine ⟨not_not.mp hset, .inl rfl, fun _ part hpart => ?_⟩
    obtain rfl := Option.some.inj hpart
    exact rest_within (n := 2) hlen
  · exact fun _ => Deeds.check fun _ => Deeds.respond _

theorem routineControl_deeds (hlen : 4 ≤ d.bytes.length) :
    Deeds cfg d sidRoutineControl (handleRoutineControl cfg d) := by
  unfold handleRoutineControl
  rw [if_neg (not_len_lt (n := 4) hlen)]
  apply Deeds.byte (by omega)
  apply Deeds.byte (by omega)
  apply Deeds.byte (by omega)
  apply Deeds.check
  intro hset
  apply Deeds.callOut
  · refine ⟨not_not.mp hset, .inl rfl, fun _ part hpart => ?_⟩
    obtain rfl := Option.some.inj hpart
    exact rest_within (n := 4) hlen
  · exact fun _ => Deeds.check fun _ => Deeds.respond _

theorem transferAccepted_deeds {sid : UInt8} (hsid : MovesBlocks sid) :
    Deeds cfg d sid (transferAccepted cfg sid) := by
  apply Deeds.write
  · exact ⟨.inr fun _ => rfl, .inl hsid, .inr fun _ => ⟨rfl, rfl⟩, .inr fun _ => ⟨rfl, rfl⟩,
      .inr fun _ => rfl⟩
  · exact Deeds.respond 6

theorem requestDownload_deeds (hlen : 4 ≤ d.bytes.length) :
    Deeds cfg d sidRequestDownload (handleRequestDownload cfg d) := by
  have hrest : (d.len - 3).toNat = d.bytes.length - 3 :=
    len_sub (n := 3) (Nat.le_of_succ_le hlen)
  unfold handleRequestDownload
  rw [if_neg (not_len_lt (n := 4) hlen)]
  apply Deeds.byte (by omega)
  apply Deeds.check
  intro _
  apply Deeds.parse (by omega)
  · exact Deeds.deny _
  intro addr size _ _
  apply Deeds.check
  intro hset
  apply Deeds.call
  · exact ⟨not_not.mp hset, .inl rfl, nofun⟩
  · exact fun _ => Deeds.check fun _ => transferAccepted_deeds (.inl rfl)

theorem requestUpload_deeds (hlen : 4 ≤ d.bytes.length) :
    Deeds cfg d sidRequestUpload (handleRequestUpload cfg d) := by
  have hrest : (d.len - 3).toNat = d.bytes.length - 3 :=
    len_sub (n := 3) (Nat.le_of_succ_le hlen)
  unfold handleRequestUpload
  rw [if_neg (not_len_lt (n := 4) hlen)]
  apply Deeds.byte (by omega)
  apply Deeds.parse (by omega)
  · exact Deeds.deny _
  intro addr size _ _
  apply Deeds.check
  intro hset
  apply Deeds.call
  · exact ⟨not_not.mp hset, .inl rfl, nofun⟩
  · exact fun _ => Deeds.check fun _ => transferAccepted_deeds (.inr (.inl rfl))

theorem blockAccepted_deeds (sequence : UInt8) :
    Deeds cfg d sidTransferData (blockAccepted cfg sequence) :=
  Deeds.respond 2

theorem transferBlock_deeds (hset : cfg.isSet .fnTransferData = true) (hlen : 2 ≤ d.bytes.length)
    (sequence : UInt8) : Deeds cfg d sidTransferData (transferBlock cfg d sequence) := by
  apply Deeds.call
  · refine ⟨hset, .inl rfl, fun _ part hpart => ?_⟩
    obtain rfl := Option.some.inj hpart
    exact rest_within (n := 2) hlen
  intro _
  apply Deeds.check
  intro _
  apply Deeds.write
  · exact ⟨.inr fun _ => rfl, .inl (.inr (.inr rfl)), .inr fun _ => ⟨rfl, rfl⟩,
      .inr fun _ => ⟨rfl, rfl⟩, .inr fun _ => rfl⟩
  · exact blockAccepted_deeds sequence

theorem transferData_deeds (hlen : 2 ≤ d.bytes.length) :
    Deeds cfg d sidTransferData (handleTransferData cfg d) := by
  unfold handleTransferData
  rw [if_neg (not_len_lt (n := 2) hlen)]
  apply Deeds.check
  intro hset
  have hblock (sequence : UInt8) := transferBlock_deeds (not_not.mp hset) hlen sequence
  apply Deeds.byte hlen
  apply Deeds.ctx
  intro _
  apply Composed.ite
  · exact fun _ => Deeds.check fun _ => hblock _
  · refine fun _ => .ite (fun _ => ?_) fun _ => hblock _
    exact .ite (fun _ => blockAccepted_deeds _) fun _ => Deeds.deny _

theorem transferExit_deeds : Deeds cfg d sidTransferExit (handleRequestTransferExit cfg d) := by
  unfold handleRequestTransferExit
  apply Deeds.check
  intro hset
  apply Deeds.call
  · exact ⟨not_not.mp hset, .inl rfl, nofun⟩
  · exact fun _ => Deeds.check fun _ => Deeds.respond 1

theorem ioControl_deeds (hlen : 4 ≤ d.bytes.length) :
    Deeds cfg d sidIoControlById (handleIoControl cfg d) := by
  have hsid : TestsMasks sidIoControlById := .inr (.inr rfl)
  unfold handleIoControl
  rw [if_neg (not_len_lt (n := 4) hlen)]
  apply Deeds.byte (by omega)
  apply Deeds.byte (by omega)
  apply Deeds.byte (by omega)
  apply Deeds.check
  intro hset
  split
  next entry _ =>
    apply Deeds.first (.sessionRefused entry hsid)
    intro _
    apply Deeds.check
    intro _
    apply Deeds.first (.securityRefused entry hsid)
    intro _
    apply Deeds.check
    intro _
    apply Deeds.callOut
    · refine ⟨not_not.mp hset, .inl rfl, fun _ part hpart => ?_⟩
      obtain rfl := Option.some.inj hpart
      exact rest_within (n := 4) hlen
    · exact fun _ => Deeds.check fun _ => Deeds.respond _
  next => exact Deeds.deny _

/-- The handler of a core service does no more than these actions, once the request has the
length that the dispatcher asks for. -/
theorem coreServices_deeds : ∀ service ∈ coreServices cfg,
    service.minLen.toNat ≤ d.bytes.length → Deeds cfg d service.sid (service.handler d) := by
  unfold coreServices coreService
  simp only [List.forall_mem_cons]
  refine ⟨sessionControl_deeds, ecuReset_deeds, clearDtc_deeds, readDtcInfo_deeds,
    fun _ => readDataById_deeds, readMemoryByAddr_deeds, securityAccess_deeds,
    fun _ => commControl_deeds, authentication_deeds, writeDataById_deeds, routineControl_deeds,
    requestDownload_deeds, transferData_deeds, fun _ => transferExit_deeds, writeMemoryByAddr_deeds,
    testerPresent_deeds, controlDtcSetting_deeds, periodicRead_deeds, ioControl_deeds,
    requestUpload_deeds, ?_⟩
  exact List.forall_mem_nil _

end UdsLib.Services
