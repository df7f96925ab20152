import UdsLib.Core.AddrLen
import UdsLib.Core.Path

/-! The way of every service handler to its answer. That the handlers are composed of the
stack's actions, and suppress a response only when bit 7 of the sub-function byte is set,
follows from it. -/
namespace UdsLib.Services
open Bytes Machine Prog UdsLib.Core UdsLib.Core.Path

variable {W : Type} {cfg : Config W} {P B K : Prop} {d : Sdu} {c h : Bool}

/-- Bit 7 of the sub-function byte. -/
def SuppressBit (d : Sdu) : Prop := d.byte 1 &&& 0x80 ≠ 0

instance (d : Sdu) : Decidable (SuppressBit d) := inferInstanceAs (Decidable (_ ≠ _))

/-- A head of `n` bytes and what a callback put behind it. -/
theorem filled_fits {n : UInt16} {written : ℤ} (hn : 1 ≤ n.toNat ∧ n.toNat ≤ 10)
    (hwritten : ¬ written < 0) (hroom : Contract cfg → written ≤ (cfg.txBufferSize - n).toNat) :
    Contract cfg →
      1 ≤ (lenOf written + n).toNat ∧ lenOf written + n ≤ cfg.txBufferSize := by
  intro hcontract
  have hbuffer := hcontract.buffer
  have hmax := cfg.txBufferSize.toNat_lt
  have hsub : (cfg.txBufferSize - n).toNat = cfg.txBufferSize.toNat - n.toNat :=
    UInt16.toNat_sub_of_le _ _ (UInt16.le_iff_toNat_le.mpr (by omega))
  have hle := hroom hcontract
  have hlen : (lenOf written).toNat = written.toNat := by
    have hmod : written % 2 ^ 16 = written := Int.emod_eq_of_lt (by omega) (by omega)
    have hlt : written.toNat < 65536 := by omega
    unfold lenOf UInt16.ofInt
    rw [hmod, UInt16.toNat_ofNat_of_lt' hlt]
  have hsum : (lenOf written + n).toNat = written.toNat + n.toNat := by
    rw [UInt16.toNat_add, hlen]
    omega
  rw [UInt16.le_iff_toNat_le, hsum]
  omega

theorem sessionControl_path (hP : P) :
    Path cfg sidSessionControl P B K false h (handleSessionControl cfg d) := by
  unfold handleSessionControl
  refine byte <| check fun hsub => ctx fun _ => ?_
  refine mayCommit .relock (fun _ => rfl) (.inr hP) fun _ => ?_
  refine .commit (.session _ (by tauto)) (fun _ => rfl) (.inr hP) <| .head _ ?_
  refine .sendThen (short_fits (by decide)) (fun _ => ?_) fun _ _ => rfl
  refine .bind (.act (.reads _)) fun _ => .bind (Look.optional fun _ => ?_) fun _ => .pure _
  exact Look.call rfl fun _ => hP

theorem testerPresent_path : Path cfg sidTesterPresent P B K false h (handleTesterPresent cfg d) :=
  byte <| .ite (fun _ => reply (by decide)) fun _ => deny _

theorem setSuppress_look (hB : SuppressBit d → B) :
    Composed (Look cfg P B) (onlyIf (d.byte 1 &&& 0x80 ≠ 0) setSuppress) :=
  Look.optional fun hbit => .act (.setSuppress (hB hbit))

theorem ecuReset_path (hB : SuppressBit d → B) :
    Path cfg sidEcuReset P B K false h (handleEcuReset cfg d) := by
  unfold handleEcuReset
  refine check fun _ => byte <| check fun _ => .look (setSuppress_look hB) fun _ => ?_
  refine .look (Look.optional fun _ => Look.call rfl nofun) fun _ => ?_
  exact .ite (fun hbit => .withhold (hB hbit)) fun _ => reply (by decide)

theorem commControlled_path (hB : SuppressBit d → B) :
    Path cfg sidCommControl P B K c h (commControlled cfg (d.byte 1)) := by
  unfold commControlled
  refine .commit (.commState _) (fun _ => rfl) (.inl fun _ => rfl) <| .look (Look.log _ _) fun _ => ?_
  exact .ite (fun hbit => .withhold (hB hbit)) fun _ => reply (by decide)

theorem commControl_path (hB : SuppressBit d → B) :
    Path cfg sidCommControl P B K false h (handleCommControl cfg d) := by
  unfold handleCommControl
  refine check fun _ => byte <| byte <| check fun _ => check fun _ => ?_
  refine .look (setSuppress_look hB) fun _ => .ite (fun _ => ?_) fun _ => commControlled_path hB
  exact call rfl nofun fun _ => check fun _ => commControlled_path hB

theorem clearDtc_path : Path cfg sidClearDtc P B K false h (handleClearDtc cfg d) := by
  unfold handleClearDtc
  refine check fun _ => check fun _ => byte <| byte <| byte ?_
  exact call rfl nofun fun _ => check fun _ => reply (by decide)

theorem readDtcInfo_path (hB : SuppressBit d → B) :
    Path cfg sidReadDtcInfo P B K false h (handleReadDtcInfo cfg d) := by
  unfold handleReadDtcInfo
  refine check fun _ => byte <| check fun _ => check fun _ => ?_
  refine .look (setSuppress_look hB) fun _ => ?_
  refine callOut rfl (by decide) rfl nofun fun n hroom => check fun hn => ?_
  refine .ite (fun hbit => .withhold (hB hbit)) fun _ => respond ?_
  exact filled_fits (by decide) hn hroom

theorem controlDtcSetting_path (hB : SuppressBit d → B) :
    Path cfg sidControlDtcSetting P B K false h (handleControlDtcSetting cfg d) := by
  unfold handleControlDtcSetting
  refine check fun _ => byte <| check fun _ => .look (setSuppress_look hB) fun _ => ?_
  exact reply (by decide)

theorem maskAdmits_look (shift mask : UInt32) : Composed (Look cfg P B) (maskAdmits shift mask) :=
  .bind (Look.optional fun _ => .act (.fault _)) fun _ => .pure _

theorem sessionRefused_look (entry : DidEntry) : Composed (Look cfg P B) (sessionRefused entry) :=
  .ite (fun _ => .pure _) fun _ => .bind (.act (.reads _)) fun _ =>
    .bind (maskAdmits_look _ _) fun _ => .pure _

theorem securityRefused_look (entry : DidEntry) :
    Composed (Look cfg P B) (securityRefused entry) :=
  .ite (fun _ => .pure _) fun _ => .bind (.act (.reads _)) fun _ =>
    .bind (maskAdmits_look _ _) fun _ => .pure _

/-- The room check of the loop keeps the response within the buffer. -/
theorem readDids_grows {txLen size max : UInt16} (hpos : 1 ≤ txLen.toNat)
    (hroom : ¬ txLen.toUInt32 + size.toUInt32 + 2 > max.toUInt32) :
    0 < (txLen + 2).toNat ∧ 1 ≤ (txLen + 2 + size).toNat ∧ txLen + 2 + size ≤ max := by
  have h1 := txLen.toNat_lt
  have h2 := size.toNat_lt
  have h3 := max.toNat_lt
  have htwo : (2 : UInt16).toNat = 2 := rfl
  have htwo' : (2 : UInt32).toNat = 2 := rfl
  rw [gt_iff_lt, UInt32.lt_iff_toNat_lt] at hroom
  simp only [UInt32.toNat_add, UInt16.toNat_toUInt32] at hroom
  rw [UInt16.le_iff_toNat_le]
  simp only [UInt16.toNat_add]
  omega

theorem readDids_path (is : List ℕ) (txLen : UInt16)
    (hlen : Contract cfg → 1 ≤ txLen.toNat ∧ txLen ≤ cfg.txBufferSize) (hpos : 1 ≤ txLen.toNat) :
    Path cfg sidReadDataById P B K false h (readDids cfg d is txLen) := by
  induction is generalizing txLen with
  | nil => exact respond hlen
  | cons i is ih =>
    unfold readDids
    refine byte <| byte ?_
    extract_lets did
    split
    next entry _ =>
      refine .look (sessionRefused_look entry) fun _ => check fun _ => ?_
      refine .look (securityRefused_look entry) fun _ => check fun _ => check fun hroom => ?_
      obtain ⟨hoff, hgrown⟩ := readDids_grows hpos hroom
      have hnext := ih (txLen + 2 + entry.size) (fun _ => hgrown) hgrown.1
      refine .look (.act (.fill hpos _)) fun _ => .ite (fun _ => ?_) fun _ => ?_
      · exact callOut rfl hoff rfl nofun fun _ _ => check fun _ => hnext
      · split
        · exact .look (.act (.reads _)) fun _ => .look (.act (.fill hoff _)) fun _ => hnext
        · exact deny _
    next => exact deny _

theorem readDataById_path :
    Path cfg sidReadDataById P B K false h (handleReadDataById cfg d) :=
  readDids_path _ _ (short_fits (by decide)) (by decide)

/-- The store is followed by the positive response, a refusal leaves the memory alone. -/
theorem writeDid_path (did : UInt16) (entry : DidEntry) {f : Bool → M W ℤ}
    (hyes : ∀ c, Path cfg sidWriteDataById P B K c h (f true))
    (hno : Path cfg sidWriteDataById P B K false h (f false)) :
    Path cfg sidWriteDataById P B K false h (writeDid cfg d did entry >>= f) := by
  have hf (b : Bool) : Path cfg sidWriteDataById P B K false h (f b) := by
    cases b with
    | true => exact hyes false
    | false => exact hno
  unfold writeDid
  rw [ite_then]
  refine .ite (fun _ => ?_) fun _ => ?_
  · rw [then_then]
    exact call rfl nofun fun _ => hf _
  · split
    · rw [then_then]
      refine .look (.act (.bytesAt _ _ _)) fun _ => ?_
      rw [then_then]
      exact .store _ _ (hyes true)
    · exact hno

theorem writeDataById_path :
    Path cfg sidWriteDataById P B K false h (handleWriteDataById cfg d) := by
  unfold handleWriteDataById
  refine check fun _ => byte <| byte ?_
  extract_lets did
  split
  next entry _ =>
    refine .look (sessionRefused_look entry) fun _ => check fun _ => ?_
    refine .look (securityRefused_look entry) fun _ => check fun _ => check fun _ => ?_
    refine writeDid_path _ _ (fun _ => ?_) (deny _)
    exact reply (by decide)
  next => exact deny _

theorem periodicAccepted_path : Path cfg sidReadByPerId P B K c h (periodicAccepted cfg) :=
  reply (by decide)

/-- What each pass of the slot loop keeps, the loop keeps. -/
theorem stopId_keeps {β : Type} {f : Ctx → β} (id : UInt8)
    (hf : ∀ (c : Ctx) (j : Fin 8), f { c with
      periodicIds := Function.update c.periodicIds j 0
      periodicCount := c.periodicCount - 1 } = f c) (c : Ctx) : f (stopId id c) = f c := by
  unfold stopId
  induction List.finRange 8 generalizing c with
  | nil => rfl
  | cons j js ih =>
    rw [List.foldl_cons, ih]
    split_ifs
    · exact hf c j
    · rfl

theorem stopIds_path (is : List ℕ) : Path cfg sidReadByPerId P B K c h (stopIds cfg d is) := by
  induction is generalizing c with
  | nil => exact periodicAccepted_path
  | cons i is ih =>
    refine byte <| .commit (.stopId _) ?_ (.inl ?_) ih
    · exact stopId_keeps _ fun _ _ => rfl
    · exact stopId_keeps _ fun _ _ => rfl

theorem startIds_path (hK : K) (mode : UInt8) (is : List ℕ) :
    Path cfg sidReadByPerId P B K c h (startIds cfg d mode is) := by
  induction is generalizing c with
  | nil => exact periodicAccepted_path
  | cons i is ih =>
    unfold startIds
    refine byte <| ctx fun _ => ?_
    split
    · exact .commit (.rate _ _) (fun _ => rfl) (.inl fun _ => rfl) ih
    · refine .ite (fun _ => .refuse _ fun _ => hK) fun _ => ?_
      split
      · refine .commit (.slot _ _ _) (fun _ => rfl) (.inl fun _ => rfl) <| time fun _ => ?_
        exact .commit (.register _ _) (fun _ => rfl) (.inl fun _ => rfl) ih
      · exact ih

theorem periodicRead_path (hK : 1 ≤ d.byte 1 &&& 0x0F ∧ d.byte 1 &&& 0x0F ≤ 3 → K) :
    Path cfg sidReadByPerId P B K false h (handlePeriodicRead cfg d) := by
  unfold handlePeriodicRead
  refine check fun _ => byte <| .ite (fun _ => ?_) fun _ => check fun hmode => ?_
  · refine .ite (fun _ => ?_) fun _ => stopIds_path _
    exact .commit .stopAll (fun _ => rfl) (.inl fun _ => rfl) periodicAccepted_path
  · have hmode' := not_or.mp hmode
    exact startIds_path (hK ⟨UInt8.not_lt.mp hmode'.1, UInt8.not_lt.mp hmode'.2⟩) _ _

/-- A block of memory that the size check admits, behind the first byte. -/
theorem block_fits {size : UInt32} (hcontract : Contract cfg)
    (hsize : ¬ size > cfg.txBufferSize.toUInt32 - 1) :
    1 ≤ (size + 1).toUInt16.toNat ∧ (size + 1).toUInt16 ≤ cfg.txBufferSize := by
  have hbuffer := hcontract.buffer
  have hmax := cfg.txBufferSize.toNat_lt
  have hone : (1 : UInt32).toNat = 1 := rfl
  have hsub : (cfg.txBufferSize.toUInt32 - 1).toNat = cfg.txBufferSize.toNat - 1 := by
    apply UInt32.toNat_sub_of_le
    rw [UInt32.le_iff_toNat_le, UInt16.toNat_toUInt32]
    omega
  have hle : size.toNat ≤ cfg.txBufferSize.toNat - 1 := by
    rw [← hsub]
    exact UInt32.le_iff_toNat_le.mp (UInt32.not_lt.mp hsize)
  have hsum : (size + 1).toUInt16.toNat = size.toNat + 1 := by
    rw [UInt32.toNat_toUInt16, UInt32.toNat_add]
    omega
  rw [UInt16.le_iff_toNat_le, hsum]
  omega

theorem readMemoryByAddr_path :
    Path cfg sidReadMemByAddr P B K false h (handleReadMemoryByAddr cfg d) := by
  unfold handleReadMemoryByAddr
  refine check fun _ => byte <| check fun _ => .look (Look.parseAddrLen _ _ _ _) fun _ => ?_
  split
  next addr size _ =>
    refine check fun _ => check fun hsize => callOut rfl (by decide) rfl nofun fun _ _ => ?_
    exact check fun _ => respond fun hcontract => block_fits hcontract hsize
  next => exact deny _

theorem writeMemory_path (format : UInt8) (hv : ValidFormat format) (addr size : UInt32) :
    Path cfg sidWriteMemByAddr P B K false h (writeMemory cfg d format addr size) := by
  unfold writeMemory
  refine check fun _ => .look (Look.safetyGate _ _) fun _ => check fun _ => ?_
  refine call rfl nofun fun _ => check fun _ => .look (.act (.bytesAt _ _ _)) fun _ => ?_
  have hecho : (2 + (addrLenOf format).toUInt16 + (sizeLenOf format).toUInt16).toNat =
      2 + (addrLenOf format).toNat + (sizeLenOf format).toNat := by
    have htwo : (2 : UInt16).toNat = 2 := rfl
    have := hv.1.2
    have := hv.2.2
    simp only [UInt16.toNat_add, UInt8.toNat_toUInt16]
    omega
  refine .head _ <| .look (.act (.fill (by decide) _)) fun _ => .send (short_fits ?_)
  have := hv.1.2
  have := hv.2.2
  rw [hecho]
  omega

theorem writeMemoryByAddr_path :
    Path cfg sidWriteMemByAddr P B K false h (handleWriteMemoryByAddr cfg d) := by
  unfold handleWriteMemoryByAddr
  refine check fun _ => byte <| check fun hv => .look (Look.parseAddrLen _ _ _ _) fun _ => ?_
  split
  · exact check fun _ => writeMemory_path _ ((validFormat_iff _).mpr hv) _ _
  · exact deny _

theorem requestSeed_path (subRaw : UInt8) :
    Path cfg sidSecurityAccess P B K false h (requestSeed cfg subRaw) := by
  unfold requestSeed
  refine check fun _ => .head _ <| callOut rfl (by decide) rfl nofun fun n hroom => ?_
  exact check fun hn => .send (filled_fits (by decide) hn hroom)

theorem keyAccepted_path (hP : P) (subRaw : UInt8) :
    Path cfg sidSecurityAccess P B K c h (keyAccepted cfg subRaw) := by
  unfold keyAccepted
  refine .commit (.keyAccepted _) (fun _ => rfl) (.inr hP) <| ctx fun _ => ?_
  refine .look (Look.optional fun _ => Look.call rfl fun _ => hP) fun _ => ?_
  exact reply (by decide)

theorem keyRejected_path (now : UInt32) (res : ℤ) :
    Path cfg sidSecurityAccess P B K false h (keyRejected cfg now res) := by
  unfold keyRejected
  refine .look (.act (.note .keyRejected (fun _ => rfl) fun _ => rfl)) fun _ => ctx fun _ => ?_
  refine .ite (fun _ => ?_) fun _ => deny _
  exact .look (.act (.note (.delayEnd _) (fun _ => rfl) fun _ => rfl)) fun _ => deny _

theorem securityAccess_path (hP : P) :
    Path cfg sidSecurityAccess P B K false h (handleSecurityAccess cfg d) := by
  unfold handleSecurityAccess sendKey
  refine check fun _ => time fun _ => ctx fun _ => check fun _ => ?_
  refine .look (.act (.note (.delayEnd _) (fun _ => rfl) fun _ => rfl)) fun _ => byte ?_
  refine .ite (fun _ => requestSeed_path _) fun _ => check fun _ => ?_
  refine call rfl (fun _ => hP) fun _ => ?_
  exact .ite (fun _ => keyAccepted_path hP _) fun _ => keyRejected_path _ _

theorem authentication_path :
    Path cfg sidAuthentication P B K false h (handleAuthentication cfg d) := by
  unfold handleAuthentication
  refine check fun _ => byte <| check fun _ => callOut rfl (by decide) rfl nofun fun _ hroom => ?_
  exact check fun hn => respond (filled_fits (by decide) hn hroom)

theorem routineControl_path :
    Path cfg sidRoutineControl P B K false h (handleRoutineControl cfg d) := by
  unfold handleRoutineControl
  refine check fun _ => byte <| byte <| byte <| check fun _ => ?_
  refine callOut rfl (by decide) rfl nofun fun _ hroom => ?_
  exact check fun hn => respond (filled_fits (by decide) hn hroom)

theorem transferAccepted_path (sid : UInt8) : Path cfg sid P B K c h (transferAccepted cfg sid) :=
  .commit (.flashSequence _) (fun _ => rfl) (.inl fun _ => rfl) <|
    reply (by decide)

theorem requestDownload_path :
    Path cfg sidRequestDownload P B K false h (handleRequestDownload cfg d) := by
  unfold handleRequestDownload
  refine check fun _ => byte <| check fun _ => .look (Look.parseAddrLen _ _ _ _) fun _ => ?_
  split
  · refine check fun _ => call rfl nofun fun _ => check fun _ => ?_
    exact transferAccepted_path _
  · exact deny _

theorem requestUpload_path :
    Path cfg sidRequestUpload P B K false h (handleRequestUpload cfg d) := by
  unfold handleRequestUpload
  refine check fun _ => byte <| .look (Look.parseAddrLen _ _ _ _) fun _ => ?_
  split
  · refine check fun _ => call rfl nofun fun _ => check fun _ => ?_
    exact transferAccepted_path _
  · exact deny _

theorem blockAccepted_path (sequence : UInt8) :
    Path cfg sidTransferData P B K c h (blockAccepted cfg sequence) :=
  reply (by decide)

theorem transferBlock_path (sequence : UInt8) :
    Path cfg sidTransferData P B K false h (transferBlock cfg d sequence) := by
  unfold transferBlock
  refine call rfl nofun fun _ => check fun _ => ?_
  exact .commit (.flashSequence _) (fun _ => rfl) (.inl fun _ => rfl) (blockAccepted_path _)

theorem transferData_path : Path cfg sidTransferData P B K false h (handleTransferData cfg d) := by
  unfold handleTransferData
  refine check fun _ => check fun _ => byte <| ctx fun _ => .ite (fun _ => ?_) fun _ => ?_
  · exact check fun _ => transferBlock_path _
  · refine .ite (fun _ => ?_) fun _ => transferBlock_path _
    exact .ite (fun _ => blockAccepted_path _) fun _ => deny _

theorem transferExit_path :
    Path cfg sidTransferExit P B K false h (handleRequestTransferExit cfg d) := by
  unfold handleRequestTransferExit
  refine check fun _ => call rfl nofun fun _ => check fun _ => ?_
  exact reply (by decide)

theorem ioControl_path : Path cfg sidIoControlById P B K false h (handleIoControl cfg d) := by
  unfold handleIoControl
  refine check fun _ => byte <| byte <| byte <| check fun _ => ?_
  split
  next entry _ =>
    refine .look (sessionRefused_look entry) fun _ => check fun _ => ?_
    refine .look (securityRefused_look entry) fun _ => check fun _ => ?_
    refine callOut rfl (by decide) rfl nofun fun _ hroom => check fun hn => respond ?_
    exact filled_fits (by decide) hn hroom
  next => exact deny _

/-- The services that may change the session or the security level. -/
def MayPair (sid : UInt8) : Prop := sid = sidSessionControl ∨ sid = sidSecurityAccess

/-- A handler of the core services goes one of the ways to its answer. It suppresses a response
only if the service has sub-functions and bit 7 is set, and refuses after a write only when it
starts periodic ids. -/
theorem coreServices_path (d : Sdu) : ∀ service ∈ coreServices cfg,
    Path cfg service.sid (MayPair service.sid) (service.subMask.isSome = true ∧ SuppressBit d)
      (service.sid = sidReadByPerId ∧ 1 ≤ d.byte 1 &&& 0x0F ∧ d.byte 1 &&& 0x0F ≤ 3) false false
      (service.handler d) := by
  unfold coreServices coreService
  simp only [List.forall_mem_cons]
  refine ⟨sessionControl_path (.inl rfl), ecuReset_path fun h => ⟨rfl, h⟩, clearDtc_path,
    readDtcInfo_path fun h => ⟨rfl, h⟩, readDataById_path, readMemoryByAddr_path,
    securityAccess_path (.inr rfl), commControl_path fun h => ⟨rfl, h⟩, authentication_path,
    writeDataById_path, routineControl_path, requestDownload_path, transferData_path,
    transferExit_path, writeMemoryByAddr_path, testerPresent_path,
    controlDtcSetting_path fun h => ⟨rfl, h⟩, periodicRead_path fun h => ⟨trivial, h⟩, ioControl_path,
    requestUpload_path, ?_⟩
  exact List.forall_mem_nil _

theorem service_steps {sid : UInt8} {service : Service W} (h : findService cfg sid = some service)
    (d : Sdu) : Steps cfg (service.subMask.isSome = true ∧ SuppressBit d) (service.handler d) := by
  unfold findService at h
  split at h
  · obtain rfl := Option.some.inj h
    exact Steps.runApp _
  · exact (coreServices_path d service (List.mem_of_find?_eq_some h)).steps

end UdsLib.Services
