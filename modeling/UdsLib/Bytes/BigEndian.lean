import Mathlib.Data.Nat.Digits.Defs
import UdsLib.Bytes.Memory

/-! The number that a list of bytes spells, most significant byte first. -/
namespace UdsLib.Bytes

def ofBe (bs : List UInt8) : ℕ := Nat.ofDigits 256 (bs.reverse.map UInt8.toNat)

@[simp] theorem ofBe_append_singleton (bs : List UInt8) (b : UInt8) :
    ofBe (bs ++ [b]) = ofBe bs * 256 + b.toNat := by
  simp [ofBe, Nat.ofDigits_cons, Nat.mul_comm, Nat.add_comm]

theorem ofBe_lt (bs : List UInt8) : ofBe bs < 256 ^ bs.length := by
  have hdigit : ∀ x ∈ bs.reverse.map UInt8.toNat, x < 256 := by
    intro x hx
    obtain ⟨b, -, rfl⟩ := List.mem_map.mp hx
    exact b.toNat_lt
  simpa [ofBe] using Nat.ofDigits_lt_base_pow_length (by decide) hdigit

/-- The last `n` bytes of a number. -/
def toBe : ℕ → ℕ → List UInt8
  | 0, _ => []
  | n + 1, v => toBe n (v / 256) ++ [UInt8.ofNat v]

@[simp] theorem toBe_length (n v : ℕ) : (toBe n v).length = n := by
  induction n generalizing v with
  | zero => rfl
  | succ n ih => simp [toBe, ih]

/-- A number that fits its bytes is read back from them. -/
theorem ofBe_toBe {n v : ℕ} (h : v < 256 ^ n) : ofBe (toBe n v) = v := by
  induction n generalizing v with
  | zero =>
    rw [Nat.pow_zero, Nat.lt_one_iff] at h
    rw [h]
    rfl
  | succ n ih =>
    have hrest : v / 256 < 256 ^ n := Nat.div_lt_of_lt_mul (by rwa [Nat.pow_succ, Nat.mul_comm] at h)
    rw [toBe, ofBe_append_singleton, ih hrest, UInt8.toNat_ofNat']
    omega

theorem ofBe_slice_succ (m : ℕ → UInt8) (off n : ℕ) :
    ofBe (slice m off (n + 1)) = ofBe (slice m off n) * 256 + (m (off + n)).toNat := by
  rw [slice_add, show slice m (off + n) 1 = [m (off + n)] from rfl, ofBe_append_singleton]

/-- Shifting a byte into a 32-bit accumulator that has room for it. -/
theorem shiftIn_toNat (v : UInt32) (b : UInt8) (h : v.toNat < 2 ^ 24) :
    (v <<< 8 ||| b.toUInt32).toNat = v.toNat * 256 + b.toNat := by
  have hb := b.toNat_lt
  rw [UInt32.toNat_or, UInt32.toNat_shiftLeft, UInt8.toNat_toUInt32,
    show (8 : UInt32).toNat % 32 = 8 from rfl, Nat.mod_eq_of_lt (by rw [Nat.shiftLeft_eq]; omega),
    ← Nat.shiftLeft_add_eq_or_of_lt (by omega), Nat.shiftLeft_eq]

end UdsLib.Bytes
