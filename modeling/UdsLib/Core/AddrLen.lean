import UdsLib.Bytes.BigEndian
import UdsLib.Core.Actions

/-! The address and size fields behind a format byte, and what `uds_internal_parse_addr_len`
reads from them. -/
namespace UdsLib.Core
open Bytes Machine Prog

variable {W : Type}

/-- Both nibbles of a format byte announce fields of 1 to 4 bytes. -/
def ValidFormat (format : UInt8) : Prop :=
  (1 ≤ (addrLenOf format).toNat ∧ (addrLenOf format).toNat ≤ 4) ∧
    1 ≤ (sizeLenOf format).toNat ∧ (sizeLenOf format).toNat ≤ 4

instance (format : UInt8) : Decidable (ValidFormat format) :=
  inferInstanceAs (Decidable ((_ ∧ _) ∧ _ ∧ _))

theorem validFormat_iff (format : UInt8) : ValidFormat format ↔
    ¬ (addrLenOf format = 0 ∨ sizeLenOf format = 0 ∨ addrLenOf format > 4 ∨
      sizeLenOf format > 4) := by
  have h4 : (4 : UInt8).toNat = 4 := rfl
  have h0 : (0 : UInt8).toNat = 0 := rfl
  simp only [ValidFormat, ← UInt8.toNat_inj, gt_iff_lt, UInt8.lt_iff_toNat_lt, h0, h4]
  omega

/-- The field widths of a valid format byte add up without a wrap. -/
theorem fieldsLen_toNat {format : UInt8} (hv : ValidFormat format) :
    ((addrLenOf format).toUInt16 + (sizeLenOf format).toUInt16).toNat =
      (addrLenOf format).toNat + (sizeLenOf format).toNat := by
  have := hv.1.2
  have := hv.2.2
  rw [UInt16.toNat_add, UInt8.toNat_toUInt16, UInt8.toNat_toUInt16]
  omega

theorem readBe_final (d : Sdu) (off n : ℕ) (s : Sys W) : (readBe d off n).final s = s := by
  induction n with
  | zero => rfl
  | succ n ih => exact ih

theorem readBe_outputs (d : Sdu) (off n : ℕ) (s : Sys W) (h : off + n ≤ d.bytes.length) :
    (readBe d off n).outputs s = [] := by
  induction n with
  | zero => rfl
  | succ n ih =>
    unfold readBe
    rw [outputs_bind, ih (by omega), outputs_byteAt_bind _ _ _ _ (by omega)]
    rfl

theorem readBe_value (d : Sdu) (off n : ℕ) (s : Sys W) (h : n ≤ 4) :
    ((readBe d off n).value s).toNat = ofBe (slice d.byte off n) := by
  induction n with
  | zero => rfl
  | succ n ih =>
    have hprev := ih (by omega)
    have hroom : ofBe (slice d.byte off n) < 2 ^ 24 := by
      have hlt := ofBe_lt (slice d.byte off n)
      have hpow : 256 ^ n ≤ 256 ^ 3 := Nat.pow_le_pow_right (by decide) (by omega)
      rw [slice_length] at hlt
      exact Nat.lt_of_lt_of_le hlt hpow
    unfold readBe
    rw [value_bind, value_byteAt_bind, ofBe_slice_succ, ← hprev]
    exact shiftIn_toNat _ _ (by rwa [hprev])

/-- Fields that a valid format byte announces are refused only if the message ends in them. -/
theorem parseAddrLen_eq (d : Sdu) (off : ℕ) (len : UInt16) {format : UInt8}
    (hv : ValidFormat format) :
    (parseAddrLen d off len format : M W _) =
      if len.toNat < (addrLenOf format).toNat + (sizeLenOf format).toNat then pure none
      else do
        let addr ← readBe d off (addrLenOf format).toNat
        let size ← readBe d (off + (addrLenOf format).toNat) (sizeLenOf format).toNat
        return some (addr, size) := by
  have hnibbles := (validFormat_iff format).mp hv
  have hlt : len < (addrLenOf format).toUInt16 + (sizeLenOf format).toUInt16 ↔
      len.toNat < (addrLenOf format).toNat + (sizeLenOf format).toNat := by
    rw [UInt16.lt_iff_toNat_lt, fieldsLen_toNat hv]
  unfold parseAddrLen
  rw [if_neg (by tauto)]
  simp only [hlt]

/-- A format byte with another nibble is refused without a look at the message. -/
theorem parseAddrLen_malformed (d : Sdu) (off : ℕ) (len : UInt16) {format : UInt8}
    (hv : ¬ ValidFormat format) : (parseAddrLen d off len format : M W _) = pure none := by
  have hnibbles : addrLenOf format = 0 ∨ addrLenOf format > 4 ∨ sizeLenOf format = 0 ∨
      sizeLenOf format > 4 := by
    have hinvalid := (validFormat_iff format).not.mp hv
    tauto
  unfold parseAddrLen
  rw [if_pos hnibbles]

/-- What complete fields hold. -/
theorem parseAddrLen_complete (d : Sdu) (off : ℕ) (len : UInt16) {format : UInt8} (s : Sys W)
    (hv : ValidFormat format)
    (hlen : (addrLenOf format).toNat + (sizeLenOf format).toNat ≤ len.toNat)
    (hin : off + (addrLenOf format).toNat + (sizeLenOf format).toNat ≤ d.bytes.length) :
    ∃ addr size : UInt32, (parseAddrLen d off len format).value s = some (addr, size) ∧
      (parseAddrLen d off len format).final s = s ∧
      (parseAddrLen d off len format).outputs s = [] ∧
      addr.toNat = ofBe (slice d.byte off (addrLenOf format).toNat) ∧
      size.toNat =
        ofBe (slice d.byte (off + (addrLenOf format).toNat) (sizeLenOf format).toNat) := by
  have haddr := readBe_value d off _ s hv.1.2
  have hsize := readBe_value d (off + (addrLenOf format).toNat) _ s hv.2.2
  rw [parseAddrLen_eq d off len hv, if_neg (by omega)]
  refine ⟨_, _, ?_, ?_, ?_, haddr, hsize⟩
  · rw [value_bind, value_bind, value_pure, readBe_final]
  · rw [final_bind, final_bind, final_pure, readBe_final, readBe_final]
  · rw [outputs_bind, outputs_bind, readBe_final, readBe_outputs d _ _ s (by omega),
      readBe_outputs d _ _ s hin]
    rfl

end UdsLib.Core
