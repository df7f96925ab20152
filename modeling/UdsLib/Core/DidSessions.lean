import UdsLib.Core.Callbacks
import UdsLib.Core.RequestBounds
import UdsLib.Core.Shifts

/-! Two readings of a session mask. The dispatcher looks up the bit of the session, the handlers of
the DIDs shift by the session, and the bits of the extended and the programming session change
places. -/
namespace UdsLib.Core
open Bytes Machine Prog Services

variable {W : Type} {cfg : Config W} {d : Sdu} {entry : DidEntry} {s : Sys W} {mask session : UInt8}

/-- The session is one that the mask allows, read as the dispatcher reads it. -/
def MaskAllows (mask session : UInt8) : Prop := mask = 0 ∨ mask &&& getSessionBit session ≠ 0

instance (mask session : UInt8) : Decidable (MaskAllows mask session) :=
  inferInstanceAs (Decidable (_ ∨ _))

/-- The session is the default one, or the mask has the bits of the extended and the programming
session both or neither. -/
def ReadsAlike (mask session : UInt8) : Prop :=
  session = sessionIdDefault ∨
    (mask &&& getSessionBit sessionIdExtended ≠ 0 ↔
      mask &&& getSessionBit sessionIdProgramming ≠ 0)

instance (mask session : UInt8) : Decidable (ReadsAlike mask session) :=
  inferInstanceAs (Decidable (_ ∨ _))

/-- The handlers that test masks turn away a request for the DID of the entry. -/
structure TurnedAway (cfg : Config W) (entry : DidEntry) (s : Sys W) : Prop where
  read : ∀ d, 3 ≤ cfg.txBufferSize →
    (∃ i ∈ didPositions d.bytes.length, findDid cfg (didAt d i) = some entry) →
      Declined sidReadDataById ((handleReadDataById cfg d).outputs s)
  write : ∀ d, 3 ≤ d.bytes.length → findDid cfg (didAt d 1) = some entry →
    handleWriteDataById cfg d s = sendNrc cfg sidWriteDataById nrcRequestOutOfRange s
  io : ∀ d, 4 ≤ d.bytes.length → cfg.isSet .fnIoControl = true →
    findDid cfg (didAt d 1) = some entry →
      handleIoControl cfg d s = sendNrc cfg sidIoControlById nrcServiceNotSuppInSess s

/-! ### The tests -/

theorem and_wide (a b : UInt8) : a.toUInt32 &&& b.toUInt32 = 0 ↔ b &&& a = 0 := by
  rw [← UInt32.toNat_inj, ← UInt8.toNat_inj, UInt32.toNat_and, UInt8.toNat_and,
    UInt8.toNat_toUInt32, UInt8.toNat_toUInt32, Nat.and_comm]
  rfl

/-- The bit that the shift of the handlers gives to a session. -/
def shiftedBit (session : UInt8) : UInt8 :=
  if session = sessionIdDefault then 0x01
  else if session = sessionIdProgramming then 0x02
  else 0x04

theorem sessionShut_iff {c : Ctx} (hknown : Known c.activeSession) : sessionShut entry c ↔
    entry.sessionMask ≠ 0 ∧ entry.sessionMask &&& shiftedBit c.activeSession = 0 := by
  have hbit : (1 : UInt32) <<< (c.activeSession.toUInt32 - 1) =
      (shiftedBit c.activeSession).toUInt32 := by
    rcases hknown with h | h | h
    · rw [h]
      decide
    · rw [h]
      decide
    · rw [h]
      decide
  unfold sessionShut
  rw [hbit, and_wide]

/-- In a known session the handlers read the mask as the dispatcher does exactly under the
condition. -/
theorem reads_alike_iff {c : Ctx} (hknown : Known c.activeSession) :
    (¬ sessionShut entry c ↔ MaskAllows entry.sessionMask c.activeSession) ↔
      ReadsAlike entry.sessionMask c.activeSession := by
  have hzero (bit : UInt8) (h : entry.sessionMask = 0) : entry.sessionMask &&& bit = 0 := by
    rw [h, UInt8.zero_and]
  have hextended := hzero (getSessionBit sessionIdExtended)
  have hprogramming := hzero (getSessionBit sessionIdProgramming)
  rw [sessionShut_iff hknown]
  unfold MaskAllows ReadsAlike
  generalize entry.sessionMask = mask at *
  rcases hknown with h | h | h
  · rw [h]
    have hsame : shiftedBit sessionIdDefault = getSessionBit sessionIdDefault := rfl
    rw [hsame]
    tauto
  · rw [h]
    have hswapped : shiftedBit sessionIdProgramming = getSessionBit sessionIdExtended := rfl
    have hother : sessionIdProgramming ≠ sessionIdDefault := by decide
    rw [hswapped]
    tauto
  · rw [h]
    have hswapped : shiftedBit sessionIdExtended = getSessionBit sessionIdProgramming := rfl
    have hother : sessionIdExtended ≠ sessionIdDefault := by decide
    rw [hswapped]
    tauto

/-! ### The handlers -/

/-- In a known session the test is a condition on the context. -/
theorem sessionRefused_run (hknown : Known s.ctx.activeSession) :
    sessionRefused entry s = (decide (sessionShut entry s.ctx), s, []) := by
  have hshift : s.ctx.activeSession.toUInt32 - 1 < 32 := by
    rcases hknown with h | h | h
    · rw [h]
      decide
    · rw [h]
      decide
    · rw [h]
      decide
  apply run_ext
  · exact sessionRefused_value entry s
  · exact sessionRefused_final entry s
  · unfold sessionRefused
    rw [outputs_ite]
    split_ifs
    · rfl
    · rw [outputs_getCtx_bind, outputs_bind]
      unfold maskAdmits
      rw [outputs_bind, outputs_onlyIf, if_neg (UInt32.not_le.mpr hshift)]
      rfl

theorem writeDataById_turned_away (hknown : Known s.ctx.activeSession)
    (hshut : sessionShut entry s.ctx) (hlen : 3 ≤ d.bytes.length)
    (hentry : findDid cfg (didAt d 1) = some entry) :
    handleWriteDataById cfg d s = sendNrc cfg sidWriteDataById nrcRequestOutOfRange s := by
  unfold handleWriteDataById
  rw [if_neg (not_len_lt (n := 3) hlen), byteAt_then (by omega), byteAt_then (by omega)]
  have hid : (d.byte 1).toUInt16 <<< 8 ||| (d.byte 2).toUInt16 = didAt d 1 := rfl
  rw [hid, hentry]
  dsimp only
  rw [silent_then (sessionRefused_run hknown), decide_eq_true hshut]
  rfl

theorem ioControl_turned_away (hknown : Known s.ctx.activeSession)
    (hshut : sessionShut entry s.ctx) (hlen : 4 ≤ d.bytes.length)
    (hset : cfg.isSet .fnIoControl = true) (hentry : findDid cfg (didAt d 1) = some entry) :
    handleIoControl cfg d s = sendNrc cfg sidIoControlById nrcServiceNotSuppInSess s := by
  unfold handleIoControl
  rw [if_neg (not_len_lt (n := 4) hlen), byteAt_then (by omega), byteAt_then (by omega),
    byteAt_then (by omega), if_neg (not_not_intro hset)]
  have hid : (d.byte 1).toUInt16 <<< 8 ||| (d.byte 2).toUInt16 = didAt d 1 := rfl
  rw [hid, hentry]
  dsimp only
  rw [silent_then (sessionRefused_run hknown), decide_eq_true hshut]
  rfl

theorem turnedAway (hknown : Known s.ctx.activeSession) (hshut : sessionShut entry s.ctx) :
    TurnedAway cfg entry s := by
  constructor
  · rintro d htx ⟨i, hi, hentry⟩
    exact readDids_refuses htx _ _ ⟨i, hi, entry, hentry, .inl hshut⟩ s rfl
  · intro d hlen hentry
    exact writeDataById_turned_away hknown hshut hlen hentry
  · intro d hlen hset hentry
    exact ioControl_turned_away hknown hshut hlen hset hentry

/-- In a known session the test of the handlers admits the sessions that the dispatcher reads from
the mask exactly under the condition, and the three handlers turn away what the test refuses. -/
theorem did_mask_agrees_iff (cfg : Config W) (entry : DidEntry) (s : Sys W)
    (hknown : Known s.ctx.activeSession) :
    (((sessionRefused entry).value s = false ↔
        MaskAllows entry.sessionMask s.ctx.activeSession) ↔
      ReadsAlike entry.sessionMask s.ctx.activeSession) ∧
    ((sessionRefused entry).value s = true → TurnedAway cfg entry s) := by
  rw [sessionRefused_value, decide_eq_false_iff_not, decide_eq_true_iff]
  constructor
  · exact reads_alike_iff hknown
  · exact turnedAway hknown

/-- A DID for the extended session only. -/
def extendedEntry : DidEntry :=
  { id := 0xF190, size := 1, sessionMask := 0x02, securityMask := 0, read := false, write := false,
    storage := some 0 }

/-- The DID, and one for every session. -/
def extendedConfig : Config Unit :=
  { plainConfig with
    didTable := [extendedEntry, { extendedEntry with id := 0xF191, sessionMask := 0 }] }

/-- A read of both. -/
def bothRequest : Sdu := ⟨[0x22, 0xF1, 0x91, 0xF1, 0x90], by decide⟩

theorem defaultSession_turned_away :
    TurnedAway extendedConfig extendedEntry (booted extendedConfig) ∧
      Declined sidReadDataById
        ((handleReadDataById extendedConfig bothRequest).outputs (booted extendedConfig)) := by
  have haway : TurnedAway extendedConfig extendedEntry (booted extendedConfig) :=
    (did_mask_agrees_iff extendedConfig extendedEntry (booted extendedConfig) (by decide)).2
      (by decide)
  exact ⟨haway, haway.read bothRequest (by decide) ⟨3, by decide, rfl⟩⟩

/-- The change to a session. -/
def enterSession (session : UInt8) : Sdu := ⟨[0x10, session], by simp⟩

/-- The extended session is refused the DID that is for it, and the programming session reads it. -/
theorem extendedDid_programming :
    let ops (session : UInt8) :=
      [.inputSdu (.bytes (enterSession session)), .inputSdu (.bytes bothRequest)]
    sentOf (trace (step extendedConfig) (booted extendedConfig) (ops sessionIdExtended)) =
        [[0x50, 0x03, 0x00, 0x32, 0x01, 0xF4], [0x7F, 0x22, 0x31]] ∧
      sentOf (trace (step extendedConfig) (booted extendedConfig) (ops sessionIdProgramming)) =
        [[0x50, 0x02, 0x00, 0x32, 0x01, 0xF4], [0x62, 0xF1, 0x91, 0, 0xF1, 0x90, 0]] ∧
      ¬ ∀ s : Sys Unit, Known s.ctx.activeSession →
          ((sessionRefused extendedEntry).value s = false ↔
            MaskAllows extendedEntry.sessionMask s.ctx.activeSession) := by
  intro ops
  refine ⟨by decide, by decide, ?_⟩
  intro h
  have hagree := h ⟨{ Ctx.zero with activeSession := sessionIdProgramming }, fun _ => 0, fun _ => 0, ()⟩
    (by decide)
  rw [sessionRefused_value, decide_eq_false_iff_not] at hagree
  exact absurd ((reads_alike_iff (by decide)).mp hagree) (by decide)

end UdsLib.Core
