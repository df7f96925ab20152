import Mathlib.Data.List.Basic
import Mathlib.Tactic.Common

/-! Messages as the entry points pass them around: a pointer and a `uint16_t` length. -/
namespace UdsLib.Bytes

/-- A complete UDS message; its length is passed as a `uint16_t`. -/
structure Sdu where
  bytes : List UInt8
  length_lt : bytes.length < 65536

def Sdu.len (d : Sdu) : UInt16 := UInt16.ofNat d.bytes.length

@[simp] theorem Sdu.len_toNat (d : Sdu) : d.len.toNat = d.bytes.length := by
  simpa [Sdu.len] using Nat.mod_eq_of_lt d.length_lt

theorem len_lt_iff {d : Sdu} {n : UInt16} : d.len < n ↔ d.bytes.length < n.toNat := by
  rw [UInt16.lt_iff_toNat_lt, d.len_toNat]

theorem not_len_lt {d : Sdu} {n : UInt16} (h : n.toNat ≤ d.bytes.length) : ¬ d.len < n := by
  rw [len_lt_iff]
  exact Nat.not_lt.mpr h

theorem len_sub {d : Sdu} {n : UInt16} (h : n.toNat ≤ d.bytes.length) :
    (d.len - n).toNat = d.bytes.length - n.toNat := by
  rw [UInt16.toNat_sub_of_le _ _ (UInt16.le_iff_toNat_le.mpr (by rwa [d.len_toNat])), d.len_toNat]

/-- The byte at an index; nothing is promised about indices behind the message. -/
def Sdu.byte (d : Sdu) (i : ℕ) : UInt8 := d.bytes.getD i 0

/-- The arguments of a call that passes `len` bytes from index `off` of a message on. -/
structure Slice where
  off : ℕ
  len : ℕ
  bytes : List UInt8
  deriving DecidableEq, Repr

/-- `(&data[off], len)`. Its bytes stop where the message does. -/
def Sdu.slice (d : Sdu) (off len : ℕ) : Slice := ⟨off, len, (d.bytes.drop off).take len⟩

/-- A pointer and a length of the public interface: the pointer can be null. -/
inductive Buf where
  | null (len : UInt16)
  | bytes (d : Sdu)

def Buf.len : Buf → UInt16
  | null len => len
  | bytes d => d.len

def Buf.isNull : Buf → Bool
  | null _ => true
  | bytes _ => false

/-- The bytes that a copy of the buffer takes. -/
def Buf.content : Buf → List UInt8
  | null _ => []
  | bytes d => d.bytes

/-- A buffer holds no message, or an empty one, or one to look at. -/
theorem Buf.empty_or_message (data : Buf) :
    (∀ d, data = .bytes d → d.bytes = []) ∨ ∃ d, data = .bytes d ∧ d.bytes ≠ [] := by
  cases data with
  | null len =>
    left
    intro d hd
    cases hd
  | bytes d =>
    by_cases hempty : d.bytes = []
    · left
      intro d' hd
      cases hd
      exact hempty
    · exact .inr ⟨d, rfl, hempty⟩

end UdsLib.Bytes
