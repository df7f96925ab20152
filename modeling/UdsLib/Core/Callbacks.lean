import UdsLib.Core.Footprint
import UdsLib.Core.Persistence
import UdsLib.Services.LateLength

/-! Callbacks that are null. The handlers look before they call, but the scheduler calls
`fn_periodic_read` for ids that a request registered without looking. -/
namespace UdsLib.Core
open Bytes Machine Prog Services

variable {W : Type} {cfg : Config W} {d : Sdu} {sid : UInt8} {s t : Sys W} {es : List Event}

/-- The request starts the periodic transmission of ids. -/
def StartsIds (d : Sdu) : Prop := 1 ≤ d.byte 1 &&& 0x0F ∧ d.byte 1 &&& 0x0F ≤ 3

instance (d : Sdu) : Decidable (StartsIds d) := inferInstanceAs (Decidable (_ ∧ _))

/-- The callback without which the service `sid` cannot do what the request asks for. -/
def neededBy (sid : UInt8) (d : Sdu) : Option Callback :=
  if sid = sidClearDtc then some .fnDtcClear
  else if sid = sidReadDtcInfo then some .fnDtcRead
  else if sid = sidReadMemByAddr then some .fnMemRead
  else if sid = sidSecurityAccess then
    some (if (d.byte 1 &&& 0x7F) % 2 ≠ 0 then .fnSecuritySeed else .fnSecurityKey)
  else if sid = sidAuthentication then some .fnAuth
  else if sid = sidReadByPerId then (if StartsIds d then some .fnPeriodicRead else none)
  else if sid = sidIoControlById then some .fnIoControl
  else if sid = sidRoutineControl then some .fnRoutineControl
  else if sid = sidRequestDownload then some .fnRequestDownload
  else if sid = sidRequestUpload then some .fnRequestUpload
  else if sid = sidTransferData then some .fnTransferData
  else if sid = sidTransferExit then some .fnTransferExit
  else if sid = sidWriteMemByAddr then some .fnMemWrite
  else none

/-- The DID at the index has neither a read callback nor a storage. -/
def Unreadable (cfg : Config W) (d : Sdu) (i : ℕ) : Prop :=
  ∃ entry, findDid cfg (didAt d i) = some entry ∧ entry.read = false ∧ entry.storage = none

/-- The request reads or writes a DID that has neither the callback for it nor a storage. -/
def LacksSource (cfg : Config W) (sid : UInt8) (d : Sdu) : Prop :=
  (sid = sidReadDataById ∧ ∃ i ∈ didPositions d.bytes.length, Unreadable cfg d i) ∨
    sid = sidWriteDataById ∧ ∃ entry,
      findDid cfg (didAt d 1) = some entry ∧ entry.write = false ∧ entry.storage = none

/-- The service `sid` needs a callback for the request that is null. -/
def LacksCallback (cfg : Config W) (sid : UInt8) (d : Sdu) : Prop :=
  (∃ f, neededBy sid d = some f ∧ cfg.isSet f = false) ∨ LacksSource cfg sid d

/-- The request is refused and nothing else is sent in response. -/
structure Declined (sid : UInt8) (es : List Event) : Prop where
  negative : ∃ nrc ret, .tpSend .nrc [nrcServiceNotSuppInSess, sid, nrc] ret ∈ es
  noPositive : ∀ data ret, .tpSend .response data ret ∉ es

/-- Every call that is made is of a callback that is not null. -/
def CallsSet (cfg : Config W) (es : List Event) : Prop :=
  ∀ call ret, .call call ret ∈ es → Configured cfg call

/-- No null callback is called. A message that reaches the handler of a core service, which lacks a
callback for it, is refused and registers nothing. -/
structure NothingMissing (cfg : Config W) (s : Sys W) (op : Op W) : Prop where
  configured : CallsSet cfg (step cfg s op).2
  refused : ∀ d service u v mid, op = .inputSdu (.bytes d) → Runs cfg s d service u v mid →
    LacksCallback cfg service.sid d → Declined service.sid mid
  unarmed : ∀ d service u v mid, op = .inputSdu (.bytes d) → Runs cfg s d service u v mid →
    LacksCallback cfg service.sid d →
      (step cfg s op).1.ctx.periodicIds = s.ctx.periodicIds

/-- A message that reaches the handler of a core service, which lacks a callback for it, finds room
for a negative response. If it is a request to start periodic ids, the registry counts as full and
an id is named. -/
def Refusable (cfg : Config W) (s : Sys W) : Op W → Prop
  | .inputSdu (.bytes d) => d.bytes ≠ [] → s.ctx.p2MsgPending = false → ¬ takesAsAnswer s.ctx d →
      ∀ service ∈ coreServices cfg, reached cfg d s = some service →
        LacksCallback cfg service.sid d → 3 ≤ cfg.txBufferSize ∧
          (service.sid = sidReadByPerId →
            8 ≤ s.ctx.periodicCount ∧ ∃ i ∈ List.range' 2 (d.bytes.length - 2), d.byte i ≠ 0)
  | _ => True

/-- No periodic id is registered. -/
def NoIds (c : Ctx) : Prop := ∀ i, c.periodicIds i = 0

instance (c : Ctx) : Decidable (NoIds c) := inferInstanceAs (Decidable (∀ _, _))

/-- Without `fn_periodic_read` no id is registered. -/
def Unarmed (cfg : Config W) (s : Sys W) : Prop :=
  cfg.isSet .fnPeriodicRead = false → NoIds s.ctx

/-! ### Refusals -/

section Refusals

variable {α : Type}

/-- Wherever it starts, the program refuses the request. -/
def Declines (sid : UInt8) (m : M W ℤ) : Prop := ∀ s, Declined sid (m.outputs s)

theorem refuses_nrc (htx : 3 ≤ cfg.txBufferSize) (nrc : UInt8) :
    Declines sid (sendNrc cfg sid nrc) := by
  intro s
  obtain ⟨faults, hfaults, ret, houtputs⟩ := sendNrc_outputs cfg sid nrc s
  rw [houtputs, if_pos htx]
  constructor
  · exact ⟨nrc, ret, by simp⟩
  · intro data ret' he
    rcases List.mem_append.mp he with hfault | hsent
    · obtain ⟨f, hf⟩ := hfaults _ hfault
      cases hf
    · cases List.mem_singleton.mp hsent

theorem Declined.after {fs : List Event} (h : Declined sid fs)
    (hes : ∀ data ret, .tpSend .response data ret ∉ es) : Declined sid (es ++ fs) := by
  obtain ⟨nrc, ret, hsent⟩ := h.negative
  constructor
  · exact ⟨nrc, ret, List.mem_append_right _ hsent⟩
  · intro data ret' he
    rcases List.mem_append.mp he with hfirst | hlater
    · exact hes data ret' hfirst
    · exact h.noPositive data ret' hlater

/-- What only looks around can go in front. -/
theorem refuses_look {m : M W α} {f : α → M W ℤ} (hm : Composed (Look cfg True True) m)
    (hf : ∀ s, Declines sid (f (m.value s))) : Declines sid (m >>= f) := by
  intro s
  apply Declined.after (hf s _)
  intro data ret he
  exact absurd ((Look.composed hm s).events _ he) Bool.false_ne_true

theorem refuses_byte {i : ℕ} {f : UInt8 → M W ℤ} (hf : Declines sid (f (d.byte i))) :
    Declines sid (byteAt d i >>= f) := by
  intro s
  apply Declined.after (hf s)
  intro data ret he
  obtain ⟨f, hf⟩ := byteAt_faults s he
  cases hf

theorem refuses_check (htx : 3 ≤ cfg.txBufferSize) {p : Prop} [Decidable p] {nrc : UInt8}
    {n : M W ℤ} (hn : ¬ p → Declines sid n) :
    Declines sid (if p then sendNrc cfg sid nrc else n) := by
  split_ifs with h
  · exact refuses_nrc htx nrc
  · exact hn h

/-- A callback that is null is looked for. -/
theorem refuses_missing (htx : 3 ≤ cfg.txBufferSize) {f : Callback} (hf : cfg.isSet f = false)
    {nrc : UInt8} {n : M W ℤ} :
    Declines sid (if ¬ cfg.isSet f = true then sendNrc cfg sid nrc else n) := by
  rw [if_pos (Bool.eq_false_iff.mp hf)]
  exact refuses_nrc htx nrc

theorem refuses_parse (cfg : Config W) {off : ℕ} {len : UInt16} {format : UInt8}
    {f : Option (UInt32 × UInt32) → M W ℤ} (hnone : Declines sid (f none))
    (hsome : ∀ addr size, Declines sid (f (some (addr, size)))) :
    Declines sid (parseAddrLen d off len format >>= f) := by
  have hparse : Composed (Look cfg True True) (parseAddrLen d off len format) :=
    Look.parseAddrLen d off len format
  apply refuses_look hparse
  intro s
  cases (parseAddrLen d off len format).value s with
  | none => exact hnone
  | some fields => exact hsome fields.1 fields.2

/-! ### The handlers -/

theorem clearDtc_refuses (htx : 3 ≤ cfg.txBufferSize) (hf : cfg.isSet .fnDtcClear = false) :
    Declines sidClearDtc (handleClearDtc cfg d) :=
  refuses_check htx fun _ => refuses_missing htx hf

theorem readDtcInfo_refuses (htx : 3 ≤ cfg.txBufferSize) (hf : cfg.isSet .fnDtcRead = false) :
    Declines sidReadDtcInfo (handleReadDtcInfo cfg d) := by
  apply refuses_check htx
  intro _
  apply refuses_byte
  exact refuses_check htx fun _ => refuses_missing htx hf

theorem readMemoryByAddr_refuses (htx : 3 ≤ cfg.txBufferSize) (hf : cfg.isSet .fnMemRead = false) :
    Declines sidReadMemByAddr (handleReadMemoryByAddr cfg d) := by
  apply refuses_check htx
  intro _
  apply refuses_byte
  apply refuses_check htx
  intro _
  apply refuses_parse cfg (refuses_nrc htx _)
  exact fun _ _ => refuses_missing htx hf

theorem securityAccess_refuses (htx : 3 ≤ cfg.txBufferSize)
    (hf : cfg.isSet (if (d.byte 1 &&& 0x7F) % 2 ≠ 0 then .fnSecuritySeed else .fnSecurityKey) =
      false) : Declines sidSecurityAccess (handleSecurityAccess cfg d) := by
  have htime : Composed (Look cfg True True) (getTime cfg) := .act .getTime
  have hctx : Composed (Look cfg True True) getCtx := .act (.reads _)
  have hunlock : Composed (Look cfg True True)
      (setCtx fun c => { c with securityDelayEnd := 0 }) :=
    .act (.note (.delayEnd 0) (fun _ => rfl) fun _ => rfl)
  apply refuses_check htx
  intro _
  apply refuses_look htime
  intro _
  apply refuses_look hctx
  intro _
  apply refuses_check htx
  intro _
  apply refuses_look hunlock
  intro _
  apply refuses_byte
  split_ifs at hf ⊢
  · exact refuses_missing htx hf
  · exact refuses_missing htx hf

theorem authentication_refuses (htx : 3 ≤ cfg.txBufferSize) (hf : cfg.isSet .fnAuth = false) :
    Declines sidAuthentication (handleAuthentication cfg d) := by
  apply refuses_check htx
  intro _
  exact refuses_byte (refuses_missing htx hf)

theorem ioControl_refuses (htx : 3 ≤ cfg.txBufferSize) (hf : cfg.isSet .fnIoControl = false) :
    Declines sidIoControlById (handleIoControl cfg d) := by
  apply refuses_check htx
  intro _
  exact refuses_byte (refuses_byte (refuses_byte (refuses_missing htx hf)))

theorem routineControl_refuses (htx : 3 ≤ cfg.txBufferSize)
    (hf : cfg.isSet .fnRoutineControl = false) :
    Declines sidRoutineControl (handleRoutineControl cfg d) := by
  apply refuses_check htx
  intro _
  exact refuses_byte (refuses_byte (refuses_byte (refuses_missing htx hf)))

theorem requestDownload_refuses (htx : 3 ≤ cfg.txBufferSize)
    (hf : cfg.isSet .fnRequestDownload = false) :
    Declines sidRequestDownload (handleRequestDownload cfg d) := by
  apply refuses_check htx
  intro _
  apply refuses_byte
  apply refuses_check htx
  intro _
  apply refuses_parse cfg (refuses_nrc htx _)
  exact fun _ _ => refuses_missing htx hf

theorem requestUpload_refuses (htx : 3 ≤ cfg.txBufferSize)
    (hf : cfg.isSet .fnRequestUpload = false) :
    Declines sidRequestUpload (handleRequestUpload cfg d) := by
  apply refuses_check htx
  intro _
  apply refuses_byte
  apply refuses_parse cfg (refuses_nrc htx _)
  exact fun _ _ => refuses_missing htx hf

theorem transferData_refuses (htx : 3 ≤ cfg.txBufferSize)
    (hf : cfg.isSet .fnTransferData = false) :
    Declines sidTransferData (handleTransferData cfg d) :=
  refuses_check htx fun _ => refuses_missing htx hf

theorem transferExit_refuses (htx : 3 ≤ cfg.txBufferSize)
    (hf : cfg.isSet .fnTransferExit = false) :
    Declines sidTransferExit (handleRequestTransferExit cfg d) :=
  refuses_missing htx hf

theorem writeMemoryByAddr_refuses (htx : 3 ≤ cfg.txBufferSize)
    (hf : cfg.isSet .fnMemWrite = false) :
    Declines sidWriteMemByAddr (handleWriteMemoryByAddr cfg d) := by
  apply refuses_check htx
  intro _
  apply refuses_byte
  apply refuses_check htx
  intro _
  apply refuses_parse cfg (refuses_nrc htx _)
  intro _ _
  exact refuses_check htx fun _ => refuses_missing htx hf

/-! ### The data identifiers -/

/-- The program leaves the context alone and sends no positive response. -/
def Unresponsive (m : M W α) : Prop :=
  ∀ s, (m.final s).ctx = s.ctx ∧ ∀ data ret, .tpSend .response data ret ∉ m.outputs s

/-- In the context `c` the program refuses the request. -/
def DeclinesIn (c : Ctx) (sid : UInt8) (m : M W ℤ) : Prop :=
  ∀ s, s.ctx = c → Declined sid (m.outputs s)

variable {c : Ctx}

theorem declines_of_in {m : M W ℤ} (h : ∀ c, DeclinesIn c sid m) : Declines sid m :=
  fun s => h s.ctx s rfl

theorem declinesIn_after {m : M W α} {f : α → M W ℤ} (hm : Unresponsive m)
    (hf : ∀ s, s.ctx = c → DeclinesIn c sid (f (m.value s))) : DeclinesIn c sid (m >>= f) := by
  intro s hs
  exact Declined.after (hf s hs _ ((hm s).1.trans hs)) (hm s).2

theorem declinesIn_nrc (htx : 3 ≤ cfg.txBufferSize) (nrc : UInt8) :
    DeclinesIn c sid (sendNrc cfg sid nrc) :=
  fun s _ => refuses_nrc htx nrc s

theorem declinesIn_check (htx : 3 ≤ cfg.txBufferSize) {p : Prop} [Decidable p] {nrc : UInt8}
    {n : M W ℤ} (hn : ¬ p → DeclinesIn c sid n) :
    DeclinesIn c sid (if p then sendNrc cfg sid nrc else n) := by
  split_ifs with h
  · exact declinesIn_nrc htx nrc
  · exact hn h

theorem unresponsive_of_faults {m : M W α} (hctx : ∀ s, (m.final s).ctx = s.ctx)
    (hm : ∀ s, ∀ e ∈ m.outputs s, ∃ f, e = .fault f) : Unresponsive m := by
  intro s
  refine ⟨hctx s, fun data ret he => ?_⟩
  obtain ⟨f, hf⟩ := hm s _ he
  cases hf

theorem byteAt_unresponsive (i : ℕ) : Unresponsive (byteAt d i : M W UInt8) :=
  unresponsive_of_faults (fun _ => rfl) fun s _ => byteAt_faults s

theorem writeTx_unresponsive (off : ℕ) (bs : List UInt8) : Unresponsive (writeTx cfg off bs) :=
  unresponsive_of_faults (fun _ => rfl) fun s _ => writeTx_faults s

theorem readMem_unresponsive (storage n : ℕ) : Unresponsive (readMem storage n : M W (List UInt8)) :=
  fun _ => ⟨rfl, nofun⟩

theorem invokeOut_unresponsive (call : Call) (off : ℕ) : Unresponsive (invokeOut cfg call off) := by
  intro s
  refine ⟨rfl, fun data ret he => ?_⟩
  rcases List.mem_append.mp he with hcall | hwrite
  · cases List.mem_singleton.mp hcall
  · rcases List.mem_append.mp hwrite with hwrite | hnone
    · obtain ⟨f, hf⟩ := writeTx_faults _ hwrite
      cases hf
    · cases hnone

theorem maskAdmits_faults {shift mask : UInt32} {s : Sys W} {e : Event}
    (he : e ∈ (maskAdmits shift mask).outputs s) : ∃ f, e = .fault f := by
  unfold maskAdmits at he
  rw [outputs_bind, outputs_onlyIf] at he
  split_ifs at he
  · exact ⟨_, List.mem_singleton.mp he⟩
  · cases he

theorem sessionRefused_unresponsive (entry : DidEntry) :
    Unresponsive (sessionRefused entry : M W Bool) := by
  apply unresponsive_of_faults
  · exact fun s => congrArg Sys.ctx (sessionRefused_final entry s)
  · intro s e he
    unfold sessionRefused at he
    rw [outputs_ite] at he
    split_ifs at he
    · cases he
    · rw [outputs_getCtx_bind, outputs_bind, outputs_pure, List.append_nil] at he
      exact maskAdmits_faults he

theorem securityRefused_unresponsive (entry : DidEntry) :
    Unresponsive (securityRefused entry : M W Bool) := by
  apply unresponsive_of_faults
  · exact fun s => congrArg Sys.ctx (securityRefused_final entry s)
  · intro s e he
    unfold securityRefused at he
    rw [outputs_ite] at he
    split_ifs at he
    · cases he
    · rw [outputs_getCtx_bind, outputs_bind, outputs_pure, List.append_nil] at he
      exact maskAdmits_faults he

/-- The entry cannot be read in the context: it is closed to the session, or has no source. -/
def ClosedIn (c : Ctx) (entry : DidEntry) : Prop :=
  sessionShut entry c ∨ entry.read = false ∧ entry.storage = none

/-- A list of DIDs is refused at one that cannot be read, if not before. -/
theorem readDids_refuses (htx : 3 ≤ cfg.txBufferSize) (is : List ℕ) (txLen : UInt16)
    (hlacks : ∃ i ∈ is, ∃ entry, findDid cfg (didAt d i) = some entry ∧ ClosedIn c entry) :
    DeclinesIn c sidReadDataById (readDids cfg d is txLen) := by
  induction is generalizing txLen with
  | nil =>
    obtain ⟨i, hi, -⟩ := hlacks
    cases hi
  | cons i is ih =>
    unfold readDids
    apply declinesIn_after (byteAt_unresponsive i)
    intro s _
    apply declinesIn_after (byteAt_unresponsive (i + 1))
    intro t _
    have hid : ((byteAt d i).value s).toUInt16 <<< 8 ||| ((byteAt d (i + 1)).value t).toUInt16 =
        didAt d i := rfl
    dsimp only
    rw [hid]
    split
    next entry hentry =>
      apply declinesIn_after (sessionRefused_unresponsive entry)
      intro s hs
      apply declinesIn_check htx
      intro hopen
      apply declinesIn_after (securityRefused_unresponsive entry)
      intro _ _
      apply declinesIn_check htx
      intro _
      apply declinesIn_check htx
      intro _
      apply declinesIn_after (writeTx_unresponsive _ _)
      intro _ _
      by_cases hhere : ClosedIn c entry
      · rcases hhere with hshut | ⟨hread, hstorage⟩
        · have hvalue := sessionRefused_value entry s
          rw [hs, decide_eq_true hshut] at hvalue
          exact absurd hvalue hopen
        · rw [if_neg (Bool.eq_false_iff.mp hread), hstorage]
          exact declinesIn_nrc htx _
      have hnext (txLen : UInt16) : DeclinesIn c sidReadDataById (readDids cfg d is txLen) := by
        apply ih
        obtain ⟨j, hj, entry', hentry', hclosed⟩ := hlacks
        rcases List.mem_cons.mp hj with rfl | hj
        · obtain rfl := Option.some.inj (hentry.symm.trans hentry')
          exact absurd hclosed hhere
        · exact ⟨j, hj, entry', hentry', hclosed⟩
      split_ifs
      · apply declinesIn_after (invokeOut_unresponsive _ _)
        exact fun _ _ => declinesIn_check htx fun _ => hnext _
      · split
        · apply declinesIn_after (readMem_unresponsive _ _)
          exact fun _ _ => declinesIn_after (writeTx_unresponsive _ _) fun _ _ => hnext _
        · exact declinesIn_nrc htx _
    next => exact declinesIn_nrc htx _

theorem writeDataById_refuses (htx : 3 ≤ cfg.txBufferSize)
    (hlacks : ∃ entry, findDid cfg (didAt d 1) = some entry ∧ entry.write = false ∧
      entry.storage = none) : Declines sidWriteDataById (handleWriteDataById cfg d) := by
  obtain ⟨entry, hentry, hwrite, hstorage⟩ := hlacks
  apply declines_of_in
  intro c
  apply declinesIn_check htx
  intro _
  apply declinesIn_after (byteAt_unresponsive 1)
  intro s _
  apply declinesIn_after (byteAt_unresponsive 2)
  intro t _
  have hid : ((byteAt d 1).value s).toUInt16 <<< 8 ||| ((byteAt d 2).value t).toUInt16 = didAt d 1 := rfl
  dsimp only
  rw [hid, hentry]
  apply declinesIn_after (sessionRefused_unresponsive entry)
  intro _ _
  apply declinesIn_check htx
  intro _
  apply declinesIn_after (securityRefused_unresponsive entry)
  intro _ _
  apply declinesIn_check htx
  intro _
  apply declinesIn_check htx
  intro _
  unfold writeDid
  rw [if_neg (Bool.eq_false_iff.mp hwrite), hstorage, pure_then, if_neg Bool.false_ne_true]
  exact declinesIn_nrc htx _

/-! ### The registry of periodic ids -/

/-- A registry without ids stays without. -/
def StaysEmpty (s : Sys W) (_ : List Event) (t : Sys W) : Prop := NoIds s.ctx → NoIds t.ctx

theorem staysEmpty_composable : Composable (StaysEmpty (W := W)) where
  refl _ := id
  trans h hnext := hnext ∘ h

theorem NoIds.of_store (hempty : NoIds s.ctx) (h : t.ctx.store = s.ctx.store) : NoIds t.ctx := by
  have hids : t.ctx.periodicIds = s.ctx.periodicIds := congrArg Store.periodicIds h
  intro i
  rw [hids]
  exact hempty i

theorem StaysEmpty.of_store (h : t.ctx.store = s.ctx.store) : StaysEmpty s es t :=
  fun hempty => hempty.of_store h

theorem byteAt_empty (i : ℕ) : Keeps (StaysEmpty (W := W)) (byteAt d i) := fun _ => id

theorem sendNrc_empty (nrc : UInt8) : Keeps StaysEmpty (sendNrc cfg sid nrc) := by
  intro s
  have hout : Outside cfg noMessage s _ _ := sendNrc_outside sid nrc s
  exact .of_store hout.store

theorem periodicAccepted_empty : Keeps StaysEmpty (periodicAccepted cfg) := by
  have hR : Composable (StaysEmpty (W := W)) := staysEmpty_composable
  apply hR.bind
  · exact fun _ => .of_store rfl
  · intro _ s
    have hout : Outside cfg noMessage s _ _ := sendResponse_outside 1 s
    exact .of_store hout.store

theorem stopId_empty (id : UInt8) {c : Ctx} (h : NoIds c) : NoIds (stopId id c) := by
  unfold stopId
  induction List.finRange 8 generalizing c with
  | nil => exact h
  | cons j js ih =>
    apply ih
    intro i
    dsimp only
    split_ifs
    · obtain rfl | hij := eq_or_ne i j
      · exact Function.update_self ..
      · exact (Function.update_of_ne hij ..).trans (h i)
    · exact h i

/-- A request that does not start ids leaves an empty registry empty. -/
theorem periodicRead_empty (h : ¬ StartsIds d) : Keeps StaysEmpty (handlePeriodicRead cfg d) := by
  have hR : Composable (StaysEmpty (W := W)) := staysEmpty_composable
  have hstop (is : List ℕ) : Keeps StaysEmpty (stopIds cfg d is) := by
    induction is with
    | nil => exact periodicAccepted_empty
    | cons i is ih =>
      have hstopped (id : UInt8) : Keeps (StaysEmpty (W := W)) (setCtx (stopId id)) := by
        intro s h
        rw [final_setCtx]
        dsimp only
        exact stopId_empty id h
      unfold stopIds
      apply hR.bind (byteAt_empty i)
      intro s
      apply hR.bind (hstopped (d.byte i))
      exact fun _ => ih
  apply Keeps.ite
  · exact fun _ => sendNrc_empty _
  intro _
  apply hR.bind (byteAt_empty 1)
  intro s
  change Keeps _ (if d.byte 1 &&& 0x0F = 0x04 then _ else _)
  apply Keeps.ite
  · intro _
    apply Keeps.ite
    · intro _
      apply hR.bind
      · exact fun _ _ _ => rfl
      · exact fun _ => periodicAccepted_empty
    · exact fun _ => hstop _
  · intro _
    apply Keeps.ite
    · exact fun _ => sendNrc_empty _
    · intro hmode
      have hmode' := not_or.mp hmode
      exact absurd ⟨UInt8.not_lt.mp hmode'.1, UInt8.not_lt.mp hmode'.2⟩ h

theorem slotOf_empty {c : Ctx} (h : NoIds c) (id : UInt8) :
    slotOf c id = if id = 0 then some 0 else none := by
  unfold slotOf
  split_ifs with hid
  · rw [hid, List.finRange_succ, List.find?_cons_of_pos (by simp [h 0])]
  · apply List.find?_eq_none.mpr
    intro j _
    simp [h j, Ne.symm hid]

/-- An empty registry that counts as full takes no id. -/
theorem startIds_full (htx : 3 ≤ cfg.txBufferSize) (mode : UInt8) (is : List ℕ)
    (hempty : NoIds s.ctx) (hfull : 8 ≤ s.ctx.periodicCount)
    (hid : ∃ i ∈ is, d.byte i ≠ 0) :
    Declined sidReadByPerId ((startIds cfg d mode is).outputs s) ∧
      ((startIds cfg d mode is).final s).ctx.periodicIds = s.ctx.periodicIds := by
  induction is generalizing s with
  | nil =>
    obtain ⟨i, hi, -⟩ := hid
    cases hi
  | cons i is ih =>
    have hbyte : ∀ data ret, .tpSend .response data ret ∉ (byteAt d i).outputs s := by
      intro data ret he
      obtain ⟨f, hf⟩ := byteAt_faults s he
      cases hf
    unfold startIds
    rw [outputs_byteAt_then, final_byteAt_bind, outputs_getCtx_bind, final_getCtx_bind,
      slotOf_empty hempty]
    by_cases hzero : d.byte i = 0
    · have hrest : ∃ j ∈ is, d.byte j ≠ 0 := by
        obtain ⟨j, hj, hne⟩ := hid
        rcases List.mem_cons.mp hj with rfl | hj
        · exact absurd hzero hne
        · exact ⟨j, hj, hne⟩
      rw [if_pos hzero]
      obtain ⟨hrefused, hids⟩ := ih (s := { s with ctx := { s.ctx with
        periodicRates := Function.update s.ctx.periodicRates 0 mode } }) hempty hfull hrest
      exact ⟨hrefused.after hbyte, hids⟩
    · rw [if_neg hzero]
      dsimp only
      rw [if_pos hfull]
      constructor
      · exact (refuses_nrc htx _ s).after hbyte
      · have hout : Outside cfg noMessage s _ _ :=
          sendNrc_outside sidReadByPerId nrcResponseTooLong s
        exact congrArg Store.periodicIds hout.store

theorem periodicRead_full (htx : 3 ≤ cfg.txBufferSize) (hlen : 2 ≤ d.bytes.length)
    (hstarts : StartsIds d) (hempty : NoIds s.ctx)
    (hfull : 8 ≤ s.ctx.periodicCount)
    (hid : ∃ i ∈ List.range' 2 (d.bytes.length - 2), d.byte i ≠ 0) :
    Declined sidReadByPerId ((handlePeriodicRead cfg d).outputs s) ∧
      ((handlePeriodicRead cfg d).final s).ctx.periodicIds = s.ctx.periodicIds := by
  have hfour : ¬ d.byte 1 &&& 0x0F = 0x04 := by
    intro h
    have hle := hstarts.2
    rw [h] at hle
    exact absurd hle (by decide)
  have hmode : ¬ (d.byte 1 &&& 0x0F < 0x01 ∨ d.byte 1 &&& 0x0F > 0x03) :=
    not_or.mpr ⟨UInt8.not_lt.mpr hstarts.1, UInt8.not_lt.mpr hstarts.2⟩
  unfold handlePeriodicRead
  rw [if_neg (not_len_lt (n := 2) hlen), outputs_byteAt_bind _ _ _ _ hlen, final_byteAt_bind]
  dsimp only
  rw [if_neg hfour, if_neg hmode]
  exact startIds_full htx _ _ hempty hfull hid

end Refusals

/-! ### All services -/

theorem lacks_needed {f : Callback} (hneeded : neededBy sid d = some f)
    (hread : sid ≠ sidReadDataById) (hwrite : sid ≠ sidWriteDataById)
    (h : LacksCallback cfg sid d) : cfg.isSet f = false := by
  rcases h with ⟨f', hf', hset⟩ | ⟨hsid, -⟩ | ⟨hsid, -⟩
  · obtain rfl := Option.some.inj (hneeded.symm.trans hf')
    exact hset
  · exact absurd hsid hread
  · exact absurd hsid hwrite

theorem not_lacks (hneeded : neededBy sid d = none) (hread : sid ≠ sidReadDataById)
    (hwrite : sid ≠ sidWriteDataById) : ¬ LacksCallback cfg sid d := by
  rintro (⟨f, hf, -⟩ | ⟨hsid, -⟩ | ⟨hsid, -⟩)
  · cases hneeded.symm.trans hf
  · exact hread hsid
  · exact hwrite hsid

/-- A request for a callback that is null is refused, unless it is to start periodic ids. -/
theorem coreServices_refuses (htx : 3 ≤ cfg.txBufferSize) : ∀ service ∈ coreServices cfg,
    LacksCallback cfg service.sid d → service.sid ≠ sidReadByPerId →
      Declines service.sid (service.handler d) := by
  have hfree {sid : UInt8} {m : M W ℤ} (hneeded : neededBy sid d = none)
      (hread : sid ≠ sidReadDataById) (hwrite : sid ≠ sidWriteDataById) :
      LacksCallback cfg sid d → sid ≠ sidReadByPerId → Declines sid m :=
    fun h => absurd h (not_lacks hneeded hread hwrite)
  have hneeds {sid : UInt8} {m : M W ℤ} {f : Callback} (hneeded : neededBy sid d = some f)
      (hread : sid ≠ sidReadDataById) (hwrite : sid ≠ sidWriteDataById)
      (hm : cfg.isSet f = false → Declines sid m) :
      LacksCallback cfg sid d → sid ≠ sidReadByPerId → Declines sid m :=
    fun h _ => hm (lacks_needed hneeded hread hwrite h)
  unfold coreServices coreService
  simp only [List.forall_mem_cons]
  refine ⟨hfree rfl (by decide) (by decide), hfree rfl (by decide) (by decide),
    hneeds rfl (by decide) (by decide) (clearDtc_refuses htx),
    hneeds rfl (by decide) (by decide) (readDtcInfo_refuses htx), ?_,
    hneeds rfl (by decide) (by decide) (readMemoryByAddr_refuses htx),
    hneeds rfl (by decide) (by decide) (securityAccess_refuses htx),
    hfree rfl (by decide) (by decide),
    hneeds rfl (by decide) (by decide) (authentication_refuses htx), ?_,
    hneeds rfl (by decide) (by decide) (routineControl_refuses htx),
    hneeds rfl (by decide) (by decide) (requestDownload_refuses htx),
    hneeds rfl (by decide) (by decide) (transferData_refuses htx),
    hneeds rfl (by decide) (by decide) (transferExit_refuses htx),
    hneeds rfl (by decide) (by decide) (writeMemoryByAddr_refuses htx),
    hfree rfl (by decide) (by decide), hfree rfl (by decide) (by decide),
    fun _ hother => absurd rfl hother,
    hneeds rfl (by decide) (by decide) (ioControl_refuses htx),
    hneeds rfl (by decide) (by decide) (requestUpload_refuses htx), ?_⟩
  · rintro (⟨f, hf, -⟩ | ⟨-, hlacks⟩ | ⟨hsid, -⟩) _
    · cases hf
    · obtain ⟨i, hi, entry, hentry, hnone⟩ := hlacks
      apply declines_of_in
      exact fun c => readDids_refuses htx _ _ ⟨i, hi, entry, hentry, .inr hnone⟩
    · exact absurd hsid (by decide)
  · rintro (⟨f, hf, -⟩ | ⟨hsid, -⟩ | ⟨-, hlacks⟩) _
    · cases hf
    · exact absurd hsid (by decide)
    · exact writeDataById_refuses htx hlacks
  · exact List.forall_mem_nil _

/-! ### The run -/

theorem CallsSet.append {fs : List Event} (h : CallsSet cfg es) (hnext : CallsSet cfg fs) :
    CallsSet cfg (es ++ fs) := by
  intro call ret he
  rcases List.mem_append.mp he with he | he
  · exact h call ret he
  · exact hnext call ret he

theorem CallsSet.none : CallsSet cfg [] := nofun

theorem internalLog_set (level : UInt8) (msg : String) (s : Sys W) :
    CallsSet cfg ((internalLog cfg level msg).outputs s) := by
  have hout : Outside cfg noMessage s _ _ := internalLog_outside level msg s
  exact fun call ret he => (hout.events _ he).1

theorem optional_set {p : Prop} [Decidable p] {m : M W Unit}
    (hm : p → ∀ s, CallsSet cfg (m.outputs s)) (s : Sys W) :
    CallsSet cfg ((onlyIf p m).outputs s) := by
  rw [outputs_onlyIf]
  split_ifs with h
  · exact hm h s
  · exact .none

theorem udsInit_set (cfg : Config W) (b : Sys W) : CallsSet cfg ((udsInit cfg).outputs b) := by
  have hload (s : Sys W) : CallsSet cfg ((onlyIf (cfg.isSet .fnNvmLoad) do
      let reply ← invoke cfg (.nvmLoad 2)
      onlyIf (reply.ret = 2) do
        setCtx fun c =>
          { c with activeSession := reply.out.getD 0 0, securityLevel := reply.out.getD 1 0 }
        internalLog cfg logInfo "NVM State Loaded").outputs s) := by
    apply optional_set
    intro hset s
    apply CallsSet.append
    · intro call ret he
      cases List.mem_singleton.mp he
      exact hset
    · apply optional_set
      intro _ s
      exact CallsSet.append .none (internalLog_set _ _ _)
  unfold udsInit
  rw [outputs_bind, outputs_bind, outputs_bind, outputs_bind, outputs_bind]
  apply CallsSet.append .none
  apply CallsSet.append .none
  apply CallsSet.append
  · apply optional_set
    exact fun _ => internalLog_set _ _
  · apply CallsSet.append (internalLog_set _ _ _)
    exact CallsSet.append (hload _) .none

theorem OfHandler.configured {call : Call} {ret : ℤ} (h : OfHandler cfg d sid (.call call ret)) :
    Configured cfg call :=
  Allowed.configured h

/-- Unless the scheduler makes it, a call is of a callback that is not null. -/
theorem step_call {op : Op W} {call : Call} {ret : ℤ} (he : .call call ret ∈ (step cfg s op).2) :
    Configured cfg call ∨ (∃ i, s.ctx.periodicIds i ≠ 0) ∧ (Event.call call ret).isPeriodic = true := by
  cases step_footprint cfg s op with
  | outside h => exact .inl (h.events _ he).1
  | process hop hstore hevents => exact (hevents _ he).imp_left And.left
  | handler d service pre mid post u v hop hruns hes hpre hpost =>
    left
    rw [hes, List.mem_append, List.mem_append] at he
    rcases he with he | he | he
    · exact (hpre.events _ he).1
    · exact (hruns.work.events _ he).configured
    · exact (hpost.events _ he).1

/-- A scheduler that is at work has its callback. -/
theorem step_configured (op : Op W) (harmed : Unarmed cfg s) :
    CallsSet cfg (step cfg s op).2 := by
  intro call ret he
  rcases step_call he with hconfigured | ⟨⟨i, hi⟩, hperiodic⟩
  · exact hconfigured
  · have hset : cfg.isSet .fnPeriodicRead = true := by
      by_contra hnone
      exact hi (harmed (Bool.eq_false_iff.mpr hnone) i)
    cases call with
    | periodicRead id len => exact hset
    | _ => exact absurd hperiodic Bool.false_ne_true

/-- The registry when the handler is entered is the one before the call. -/
theorem Runs.registry {service : Service W} {u v : Sys W} (h : Runs cfg s d service u v es) :
    u.ctx.periodicIds = s.ctx.periodicIds ∧ u.ctx.periodicCount = s.ctx.periodicCount := by
  rw [h.start, atHandler_ctx]
  unfold flagged
  rw [entered_ctx]
  exact ⟨rfl, rfl⟩

theorem lacks_periodic (hset : cfg.isSet .fnPeriodicRead = false) (hstarts : StartsIds d) :
    LacksCallback cfg sidReadByPerId d :=
  .inl ⟨.fnPeriodicRead, if_pos hstarts, hset⟩

theorem starts_of_lacks (h : LacksCallback cfg sidReadByPerId d) :
    StartsIds d ∧ cfg.isSet .fnPeriodicRead = false := by
  rcases h with ⟨f, hf, hset⟩ | ⟨hsid, -⟩ | ⟨hsid, -⟩
  · have hneeded : neededBy sidReadByPerId d =
        if StartsIds d then some .fnPeriodicRead else none := rfl
    rw [hneeded] at hf
    split_ifs at hf with hstarts
    obtain rfl := Option.some.inj hf
    exact ⟨hstarts, hset⟩
  · exact absurd hsid (by decide)
  · exact absurd hsid (by decide)

/-- The handler of a service on a request for a callback that is null. -/
theorem Runs.refused {service : Service W} {u v : Sys W} (h : Runs cfg s d service u v es)
    (harmed : Unarmed cfg s) (hok : Refusable cfg s (.inputSdu (.bytes d)))
    (hlacks : LacksCallback cfg service.sid d) :
    Declined service.sid es ∧ v.ctx.periodicIds = u.ctx.periodicIds := by
  obtain ⟨htx, hfull⟩ := hok h.nonempty h.idle h.request service h.core h.reached hlacks
  obtain ⟨hids, hcount⟩ := h.registry
  by_cases hsid : service.sid = sidReadByPerId
  · obtain ⟨hfull, hid⟩ := hfull hsid
    obtain ⟨hstarts, hset⟩ := starts_of_lacks (hsid ▸ hlacks)
    have hempty : NoIds u.ctx := by
      intro i
      rw [hids]
      exact harmed hset i
    obtain ⟨hservice, hlength⟩ : service.handler = handlePeriodicRead cfg ∧
        service.minLen.toNat = 2 := by
      obtain rfl := Option.some.inj (h.found hsid)
      exact ⟨rfl, rfl⟩
    have hlen : 2 ≤ d.bytes.length := hlength ▸ h.length
    rw [h.outputs, h.final, hservice, hsid]
    exact periodicRead_full htx hlen hstarts hempty (hcount ▸ hfull) hid
  · constructor
    · rw [h.outputs]
      exact coreServices_refuses htx service h.core hlacks hsid u
    · exact (h.work.registry.resolve_left hsid).1

/-- Without `fn_periodic_read` the registry stays empty. -/
theorem step_unarmed {op : Op W} (harmed : Unarmed cfg s) (hok : Refusable cfg s op) :
    Unarmed cfg (step cfg s op).1 := by
  intro hset
  have hempty := harmed hset
  cases step_footprint cfg s op with
  | outside h => exact hempty.of_store h.store
  | process hop hstore hevents =>
    have hids : (step cfg s op).1.ctx.periodicIds = s.ctx.periodicIds := by
      rcases hstore with hstore | ⟨-, hstore⟩
      · exact congrArg Store.periodicIds hstore
      · exact congrArg Store.periodicIds hstore
    intro i
    rw [hids]
    exact hempty i
  | handler d service pre mid post u v hop hruns hes hpre hpost =>
    have hbefore : NoIds u.ctx := hempty.of_store hpre.store
    suffices hafter : NoIds v.ctx from hafter.of_store hpost.store
    by_cases hsid : service.sid = sidReadByPerId
    · by_cases hstarts : StartsIds d
      · rw [hop] at hok
        obtain ⟨-, hids⟩ := hruns.refused harmed hok (hsid ▸ lacks_periodic hset hstarts)
        intro i
        rw [hids]
        exact hbefore i
      · have hservice : service.handler = handlePeriodicRead cfg := by
          obtain rfl := Option.some.inj (hruns.found hsid)
          rfl
        rw [hruns.final, hservice]
        exact periodicRead_empty hstarts u hbefore
    · intro i
      rw [(hruns.work.registry.resolve_left hsid).1]
      exact hbefore i

theorem step_nothing_missing {op : Op W} (harmed : Unarmed cfg s) (hok : Refusable cfg s op) :
    NothingMissing cfg s op := by
  constructor
  · exact step_configured op harmed
  · intro d service u v mid hop hruns hlacks
    rw [hop] at hok
    exact (hruns.refused harmed hok hlacks).1
  · intro d service u v mid hop hruns hlacks
    rw [hop] at hok ⊢
    obtain ⟨pre, post, -, hpre, hpost⟩ := hruns.split
    calc (step cfg s (.inputSdu (.bytes d))).1.ctx.periodicIds
      _ = v.ctx.periodicIds := congrArg Store.periodicIds hpost.store
      _ = u.ctx.periodicIds := (hruns.refused harmed hok hlacks).2
      _ = s.ctx.periodicIds := congrArg Store.periodicIds hpre.store

theorem udsInit_unarmed (cfg : Config W) (b : Sys W) : Unarmed cfg ((udsInit cfg).final b) := by
  intro _ i
  rw [(udsInit_parts cfg b).1]
  split_ifs
  · rfl
  · rfl

/-- No missing callback is called in a run from `uds_init` in which every request that needs one
and reaches its handler finds room for a negative response and does not start periodic ids. -/
theorem missing_callbacks (cfg : Config W) (b : Sys W) (ops : List (Op W))
    (hrun : Along (step cfg) (Refusable cfg) ((udsInit cfg).final b) ops) :
    CallsSet cfg ((udsInit cfg).outputs b) ∧
      Along (step cfg) (NothingMissing cfg) ((udsInit cfg).final b) ops := by
  constructor
  · exact udsInit_set cfg b
  · have hstart := udsInit_unarmed cfg b
    generalize (udsInit cfg).final b = s at *
    induction ops generalizing s with
    | nil => trivial
    | cons op ops ih =>
      obtain ⟨hop, hrest⟩ := hrun
      constructor
      · exact step_nothing_missing hstart hop
      · exact ih _ hrest (step_unarmed hstart hop)

/-- A request to clear all DTCs. -/
def clearRequest : Sdu := ⟨[0x14, 0xFF, 0xFF, 0xFF], by decide⟩

theorem clearRequest_refused :
    let s := booted plainConfig
    (CallsSet plainConfig ((udsInit plainConfig).outputs ⟨Ctx.zero, fun _ => 0, fun _ => 0, ()⟩) ∧
      Along (step plainConfig) (NothingMissing plainConfig) s
        [.inputSdu (.bytes clearRequest), .process]) ∧
      sentOf (step plainConfig s (.inputSdu (.bytes clearRequest))).2 = [[0x7F, 0x14, 0x22]] := by
  constructor
  · apply missing_callbacks
    refine ⟨?_, trivial, trivial⟩
    intro _ _ _ service _ hreached _
    have hclear : (reached plainConfig clearRequest (booted plainConfig)).map ServiceEntry.sid =
      some 0x14 := by decide
    have hsid := (congrArg (Option.map ServiceEntry.sid) hreached).symm.trans hclear
    refine ⟨by decide, fun hperiodic => ?_⟩
    cases (Option.some.inj hsid).symm.trans hperiodic
  · decide

/-- A request to send the periodic id 5 slowly. -/
def periodicRequest : Sdu := ⟨[0x2A, 0x01, 0x05], by decide⟩

/-- Without `fn_periodic_read` the request is accepted, and `uds_process` calls the callback. -/
theorem periodicRequest_calls_null :
    let s := booted plainConfig
    let ops := [.inputSdu (.bytes periodicRequest), .process]
    LacksCallback plainConfig sidReadByPerId periodicRequest ∧
      sentOf (trace (step plainConfig) s ops) = [[0x6A]] ∧
      .call (.periodicRead 5 8) 0 ∈ trace (step plainConfig) s ops ∧
      ¬ Configured plainConfig (.periodicRead 5 8) ∧
      ¬ Along (step plainConfig) (NothingMissing plainConfig) s ops := by
  intro s ops
  have hcalled : .call (.periodicRead 5 8) 0 ∈
      (step plainConfig (step plainConfig s (.inputSdu (.bytes periodicRequest))).1 .process).2 := by
    decide
  refine ⟨lacks_periodic rfl (by decide), by decide, by decide, nofun, ?_⟩
  rintro ⟨-, hprocess, -⟩
  cases hprocess.configured _ _ hcalled

end UdsLib.Core
