import UdsLib.Core.AddrLen
import UdsLib.Core.Api

/-! What `uds_internal_handle_write_memory_by_addr` hands to `fn_mem_write`: the declared size
is compared with the data present in 16 bits, but passed on in 32. -/
namespace UdsLib.Services
open Bytes Machine Prog UdsLib.Core

variable {W : Type} {cfg : Config W} {d : Sdu} {s : Sys W}

/-- A call `fn_mem_write(ctx, addr, size, data)`. -/
structure MemWrite where
  addr : UInt32
  size : UInt32
  data : Slice
  deriving DecidableEq

def memWrite? : Event → Option MemWrite
  | .call (.memWrite addr size data) _ => some ⟨addr, size, data⟩
  | _ => none

/-- The calls of `fn_mem_write`, in order. -/
def memWritesOf (es : List Event) : List MemWrite := es.filterMap memWrite?

/-- The bytes of a request up to the end of its address and size fields. -/
def headerLen (d : Sdu) : ℕ := 2 + (addrLenOf (d.byte 1)).toNat + (sizeLenOf (d.byte 1)).toNat

/-- The number in the size field. -/
def declaredSize (d : Sdu) : ℕ :=
  ofBe (slice d.byte (2 + (addrLenOf (d.byte 1)).toNat) (sizeLenOf (d.byte 1)).toNat)

/-- The bytes that follow the address and size fields. -/
def presentBytes (d : Sdu) : ℕ := d.bytes.length - headerLen d

/-- A valid format byte, and both fields are there. -/
def WellFormed (d : Sdu) : Prop := ValidFormat (d.byte 1) ∧ headerLen d ≤ d.bytes.length

instance (d : Sdu) : Decidable (WellFormed d) := inferInstanceAs (Decidable (_ ∧ _))

/-- `fn_mem_write` is always told the size of the data that the request carries, and a request
that declares another size is answered with NRC 0x13 and does not reach it. -/
def WriteSizeRight (cfg : Config W) (s : Sys W) (d : Sdu) : Prop :=
  let es := (handleWriteMemoryByAddr cfg d).outputs s
  (∀ w ∈ memWritesOf es,
    w.size.toNat = presentBytes d ∧ w.data.off + w.size.toNat ≤ d.bytes.length) ∧
  (WellFormed d → declaredSize d ≠ presentBytes d →
    sentOf es = [[nrcServiceNotSuppInSess, sidWriteMemByAddr, nrcIncorrectLength]] ∧
      memWritesOf es = [])

instance (cfg : Config W) (s : Sys W) (d : Sdu) : Decidable (WriteSizeRight cfg s d) :=
  inferInstanceAs (Decidable (_ ∧ _))

/-- The callback is there and the safety gate does not object. -/
def Granted (cfg : Config W) (s : Sys W) (d : Sdu) : Prop :=
  cfg.isSet .fnMemWrite = true ∧ (safetyGate cfg sidWriteMemByAddr d).value s = true

theorem memWritesOf_append (es fs : List Event) :
    memWritesOf (es ++ fs) = memWritesOf es ++ memWritesOf fs :=
  List.filterMap_append ..

theorem memWritesOf_faults {es : List Event} (h : ∀ e ∈ es, ∃ f, e = .fault f) :
    memWritesOf es = [] := by
  apply List.filterMap_eq_nil_iff.mpr
  exact faults_forall h fun _ => rfl

theorem memWritesOf_sendNrc (sid nrc : UInt8) :
    memWritesOf ((sendNrc cfg sid nrc).outputs s) = [] := by
  obtain ⟨faults, hfaults, ret, houtputs⟩ := sendNrc_outputs cfg sid nrc s
  rw [houtputs]
  split_ifs
  · rw [memWritesOf_append, memWritesOf_faults hfaults]
    rfl
  · rfl

theorem memWritesOf_sendResponse (len : UInt16) :
    memWritesOf ((sendResponse cfg len).outputs s) = [] := by
  unfold sendResponse
  rw [outputs_ite]
  split_ifs
  · rfl
  · rw [outputs_bind, outputs_setCtx, outputs_getCtx_bind, outputs_ite]
    split_ifs <;> rfl

theorem safetyGate_silent : memWritesOf ((safetyGate cfg sidWriteMemByAddr d).outputs s) = [] ∧
    sentOf ((safetyGate cfg sidWriteMemByAddr d).outputs s) = [] := by
  unfold safetyGate
  rw [outputs_ite]
  split_ifs <;> exact ⟨rfl, rfl⟩

/-- Past the gate there is one call of `fn_mem_write`, with the declared size. -/
theorem memWritesOf_writeMemory (hg : Granted cfg s d) (format : UInt8) (addr size : UInt32) :
    memWritesOf ((writeMemory cfg d format addr size).outputs s) =
      [⟨addr, size, d.slice
        (2 + (addrLenOf format).toUInt16 + (sizeLenOf format).toUInt16).toNat size.toNat⟩] := by
  unfold writeMemory
  extract_lets addrLen sizeLen consumed
  rw [if_neg (not_not_intro hg.1), outputs_bind, memWritesOf_append, safetyGate_silent.1, hg.2,
    if_neg (not_not_intro rfl), outputs_bind, memWritesOf_append, outputs_ite]
  refine congrArg (_ :: ·) ?_
  split_ifs
  · exact memWritesOf_sendNrc _ _
  · rw [outputs_bind, outputs_bind, outputs_bind, memWritesOf_append, memWritesOf_append,
      memWritesOf_append, memWritesOf_sendResponse, memWritesOf_faults fun e => bytesAt_faults _,
      memWritesOf_faults fun e => writeTx_faults _, memWritesOf_faults fun e => writeTx_faults _]
    rfl

/-- Without a grant the request is answered as out of conditions. -/
theorem writeMemory_refused (hg : ¬ Granted cfg s d) (format : UInt8) (addr size : UInt32) :
    memWritesOf ((writeMemory cfg d format addr size).outputs s) = [] ∧
    sentOf ((writeMemory cfg d format addr size).outputs s) =
      if 3 ≤ cfg.txBufferSize then
        [[nrcServiceNotSuppInSess, sidWriteMemByAddr, nrcConditionsNotCorrect]]
      else [] := by
  unfold writeMemory
  by_cases hset : cfg.isSet .fnMemWrite = true
  · have hgate : (safetyGate cfg sidWriteMemByAddr d).value s = false :=
      Bool.eq_false_iff.mpr fun h => hg ⟨hset, h⟩
    rw [if_neg (not_not_intro hset), outputs_bind, hgate, if_pos Bool.false_ne_true,
      memWritesOf_append, sentOf_append, safetyGate_silent.1, safetyGate_silent.2,
      memWritesOf_sendNrc, sendNrc_sent]
    exact ⟨rfl, rfl⟩
  · rw [if_pos hset, memWritesOf_sendNrc, sendNrc_sent]
    exact ⟨rfl, rfl⟩

theorem restLen_toNat (d : Sdu) (h : 2 ≤ d.bytes.length) :
    (d.len - 2).toNat = d.bytes.length - 2 :=
  len_sub (n := 2) h

theorem headerLen_toNat (hv : ValidFormat (d.byte 1)) :
    (2 + (addrLenOf (d.byte 1)).toUInt16 + (sizeLenOf (d.byte 1)).toUInt16).toNat =
      headerLen d := by
  have := hv.1.2
  have := hv.2.2
  rw [UInt16.add_assoc, UInt16.toNat_add, fieldsLen_toNat hv, show (2 : UInt16).toNat = 2 from rfl,
    headerLen]
  omega

/-- The comparison of the source, with the numbers behind its casts. -/
theorem len_eq_iff (h : WellFormed d) {size : UInt32} (hsize : size.toNat = declaredSize d) :
    d.len = 2 + (addrLenOf (d.byte 1)).toUInt16 + (sizeLenOf (d.byte 1)).toUInt16 +
        size.toUInt16 ↔ declaredSize d % 65536 = presentBytes d := by
  have := d.length_lt
  have hc := h.2
  rw [← UInt16.toNat_inj, UInt16.toNat_add, headerLen_toNat h.1, UInt32.toNat_toUInt16, hsize,
    Sdu.len_toNat, presentBytes]
  omega

/-- A request whose fields are not valid and complete gets one negative response. -/
theorem malformed_refused (cfg : Config W) (s : Sys W) (h : ¬ WellFormed d) : ∃ nrc,
    (handleWriteMemoryByAddr cfg d).outputs s = (sendNrc cfg sidWriteMemByAddr nrc).outputs s := by
  unfold handleWriteMemoryByAddr
  by_cases hshort : d.len < 3
  · exact ⟨_, by rw [if_pos hshort]⟩
  have hlen : 3 ≤ d.bytes.length := by
    simpa using UInt16.le_iff_toNat_le.mp (UInt16.not_lt.mp hshort)
  rw [if_neg hshort, outputs_byteAt_bind _ _ _ _ (by omega)]
  by_cases hv : ValidFormat (d.byte 1)
  · have hrest : (d.len - 2).toNat = d.bytes.length - 2 := by
      rw [UInt16.toNat_sub_of_le _ _ (UInt16.le_iff_toNat_le.mpr (by simp; omega)), Sdu.len_toNat]
      rfl
    have hend : d.bytes.length < headerLen d := Nat.not_le.mp fun hc => h ⟨hv, hc⟩
    unfold headerLen at hend
    rw [if_neg ((validFormat_iff _).mp hv), outputs_bind, parseAddrLen_eq d 2 _ hv,
      if_pos (by omega)]
    exact ⟨_, rfl⟩
  · rw [if_pos (by_contra fun hn => hv ((validFormat_iff _).mpr hn))]
    exact ⟨_, rfl⟩

/-- A well-formed request passes the length check if its declared size and the data present
agree in 16 bits. -/
theorem wellFormed_outputs (cfg : Config W) (s : Sys W) (h : WellFormed d) :
    ∃ addr size : UInt32,
    size.toNat = declaredSize d ∧
    (handleWriteMemoryByAddr cfg d).outputs s =
      if declaredSize d % 65536 = presentBytes d then
        (writeMemory cfg d (d.byte 1) addr size).outputs s
      else (sendNrc cfg sidWriteMemByAddr nrcIncorrectLength).outputs s := by
  have hend := h.2
  have hadd := h.1.1.1
  have hsz := h.1.2.1
  unfold headerLen at hend
  have hrest := restLen_toNat d (by omega)
  have hlong : ¬ d.len < 3 := by
    rw [UInt16.lt_iff_toNat_lt, Sdu.len_toNat, show (3 : UInt16).toNat = 3 from rfl]
    omega
  obtain ⟨addr, size, hvalue, hfinal, houtputs, -, hsize⟩ :=
    parseAddrLen_complete d 2 (d.len - 2) s h.1 (by omega) (by omega)
  refine ⟨addr, size, hsize, ?_⟩
  unfold handleWriteMemoryByAddr
  rw [if_neg hlong, outputs_byteAt_bind _ _ _ _ (by omega)]
  rw [if_neg ((validFormat_iff _).mp h.1), outputs_bind, hvalue, hfinal, houtputs]
  dsimp only
  rw [List.nil_append, outputs_ite, ← ite_not]
  simp only [ne_eq, len_eq_iff h hsize, not_not]

theorem agrees_of_eq (heq : declaredSize d = presentBytes d) :
    declaredSize d % 65536 = presentBytes d := by
  have hpresent : presentBytes d < 65536 := Nat.lt_of_le_of_lt (Nat.sub_le _ _) d.length_lt
  rw [heq, Nat.mod_eq_of_lt hpresent]

/-- A size that agrees in 16 bits is passed on, or refused for another reason: both are right
only if it agrees altogether. -/
theorem right_of_agreeing (h : WellFormed d) (hres : declaredSize d % 65536 = presentBytes d) :
    WriteSizeRight cfg s d ↔ declaredSize d = presentBytes d := by
  obtain ⟨addr, size, hsize, houtputs⟩ := wellFormed_outputs cfg s h
  have hend := h.2
  unfold WriteSizeRight
  dsimp only
  rw [houtputs, if_pos hres]
  by_cases hg : Granted cfg s d
  · rw [memWritesOf_writeMemory hg, headerLen_toNat h.1]
    constructor
    · intro hright
      exact hsize ▸ (hright.1 _ (List.mem_singleton.mpr rfl)).1
    · intro heq
      refine ⟨fun w hw => ?_, fun _ hne => absurd heq hne⟩
      rw [List.mem_singleton.mp hw]
      refine ⟨hsize.trans heq, ?_⟩
      show headerLen d + size.toNat ≤ _
      rw [hsize, heq, presentBytes]
      omega
  · obtain ⟨hwrites, hsent⟩ := writeMemory_refused hg (d.byte 1) addr size
    rw [hwrites, hsent]
    constructor
    · intro hright
      by_contra hne
      have hanswer := (hright.2 h hne).1
      split_ifs at hanswer
      exact absurd hanswer (by decide)
    · exact fun heq => ⟨fun w hw => absurd hw List.not_mem_nil, fun _ hne => absurd heq hne⟩

/-- A size that differs in 16 bits is rejected, if the buffer has room for the answer. -/
theorem right_of_differing (h : WellFormed d) (hres : declaredSize d % 65536 ≠ presentBytes d) :
    WriteSizeRight cfg s d ↔ 3 ≤ cfg.txBufferSize := by
  obtain ⟨addr, size, -, houtputs⟩ := wellFormed_outputs cfg s h
  have hne : declaredSize d ≠ presentBytes d := fun heq => hres (agrees_of_eq heq)
  unfold WriteSizeRight
  dsimp only
  rw [houtputs, if_neg hres, memWritesOf_sendNrc, sendNrc_sent]
  constructor
  · intro hright
    by_contra hsmall
    have hanswer := (hright.2 h hne).1
    rw [if_neg hsmall] at hanswer
    cases hanswer
  · intro hfits
    exact ⟨fun w hw => absurd hw List.not_mem_nil, fun _ _ => ⟨if_pos hfits, rfl⟩⟩

theorem right_of_malformed (h : ¬ WellFormed d) : WriteSizeRight cfg s d := by
  obtain ⟨nrc, houtputs⟩ := malformed_refused cfg s h
  unfold WriteSizeRight
  dsimp only
  rw [houtputs, memWritesOf_sendNrc]
  exact ⟨fun w hw => absurd hw List.not_mem_nil, fun hw => absurd hw h⟩

/-- The exact requests whose size is handled right. -/
theorem write_size_right_iff (cfg : Config W) (s : Sys W) (d : Sdu) :
    WriteSizeRight cfg s d ↔
      (WellFormed d → declaredSize d = presentBytes d ∨
        (declaredSize d % 65536 ≠ presentBytes d ∧ 3 ≤ cfg.txBufferSize)) := by
  by_cases h : WellFormed d
  · by_cases hres : declaredSize d % 65536 = presentBytes d
    · rw [right_of_agreeing h hres]
      simp [h, hres]
    · have hne : declaredSize d ≠ presentBytes d := fun heq => hres (agrees_of_eq heq)
      rw [right_of_differing h hres]
      simp [h, hres, hne]
  · exact iff_of_true (right_of_malformed h) fun hw => absurd hw h

def memoryConfig : Config Unit := { plainConfig with isSet := fun f => f = .fnMemWrite }

/-- Declares 0x10001 bytes and carries one. -/
def longWrite : Sdu := ⟨[0x3D, 0x31, 0x00, 0x01, 0x00, 0x01, 0xAA], by decide⟩

theorem long_write_reaches_callback :
    WellFormed longWrite ∧ declaredSize longWrite = 65537 ∧ presentBytes longWrite = 1 ∧
      ⟨0, 65537, ⟨6, 65537, [0xAA]⟩⟩ ∈
        memWritesOf (step memoryConfig (booted memoryConfig) (.inputSdu (.bytes longWrite))).2 ∧
      ¬ WriteSizeRight memoryConfig (booted memoryConfig) longWrite := by
  decide

end UdsLib.Services
