import Mathlib.Data.List.Basic
import Mathlib.Tactic.Common

/-! Flat memories: the value at every offset from a base pointer, with the slice
that is read from an offset and the copy of a list to an offset. -/
namespace UdsLib.Bytes

variable {β : Type*}

/-- The `n` values of `m` from offset `off` on. -/
def slice (m : ℕ → β) (off n : ℕ) : List β := (List.range n).map fun i => m (off + i)

/-- `m` after the values `xs` were copied to offset `off`. -/
def blit (m : ℕ → β) (off : ℕ) (xs : List β) : ℕ → β := fun i =>
  if h : off ≤ i ∧ i < off + xs.length then xs[i - off] else m i

@[simp] theorem slice_length (m : ℕ → β) (off n : ℕ) : (slice m off n).length = n := by
  simp [slice]

@[simp] theorem slice_zero (m : ℕ → β) (off : ℕ) : slice m off 0 = [] := rfl

@[simp] theorem slice_getElem (m : ℕ → β) (off n i : ℕ) (h : i < (slice m off n).length) :
    (slice m off n)[i] = m (off + i) := by
  simp [slice]

theorem slice_congr {m m' : ℕ → β} {off off' n : ℕ} (h : ∀ i < n, m (off + i) = m' (off' + i)) :
    slice m off n = slice m' off' n := by
  apply List.ext_getElem (by simp)
  intro i hi _
  simpa using h i (by simpa using hi)

theorem slice_add (m : ℕ → β) (off a b : ℕ) :
    slice m off (a + b) = slice m off a ++ slice m (off + a) b := by
  simp [slice, List.range_add, Nat.add_assoc]

theorem slice_succ (m : ℕ → β) (off n : ℕ) : slice m off (n + 1) = m off :: slice m (off + 1) n := by
  rw [Nat.add_comm, slice_add]
  rfl

theorem take_slice (m : ℕ → β) (off n k : ℕ) :
    (slice m off n).take k = slice m off (min n k) := by
  apply List.ext_getElem (by simp [Nat.min_comm])
  intro i hi _
  simp

theorem drop_slice (m : ℕ → β) (off n k : ℕ) :
    (slice m off n).drop k = slice m (off + k) (n - k) := by
  apply List.ext_getElem (by simp)
  intro i hi _
  simp [Nat.add_assoc]

theorem blit_outside (m : ℕ → β) (off : ℕ) (xs : List β) (i : ℕ)
    (h : i < off ∨ off + xs.length ≤ i) : blit m off xs i = m i := by
  unfold blit
  rw [dif_neg (by omega)]

theorem blit_inside (m : ℕ → β) (off : ℕ) (xs : List β) (i : ℕ) (h : i < xs.length) :
    blit m off xs (off + i) = xs[i] := by
  unfold blit
  rw [dif_pos (by omega)]
  simp

theorem slice_blit_self (m : ℕ → β) (off : ℕ) (xs : List β) :
    slice (blit m off xs) off xs.length = xs := by
  apply List.ext_getElem (by simp)
  intro i _ hi
  rw [slice_getElem, blit_inside m off xs i hi]

theorem slice_blit_before (m : ℕ → β) (o off n : ℕ) (xs : List β) (h : off + n ≤ o) :
    slice (blit m o xs) off n = slice m off n :=
  slice_congr fun i hi => blit_outside m o xs _ (Or.inl (by omega))

/-- A copy leaves a slice alone that has no offset in common with it. -/
theorem slice_blit_apart (m : ℕ → β) (o off n : ℕ) (xs : List β)
    (h : ∀ i < xs.length, ∀ j < n, o + i ≠ off + j) : slice (blit m o xs) off n = slice m off n := by
  apply slice_congr
  intro j hj
  apply blit_outside
  by_contra hinside
  exact h (off + j - o) (by omega) j hj (by omega)

/-- Copying right behind a slice appends to it. -/
theorem slice_blit_behind (m : ℕ → β) (off n : ℕ) (xs : List β) :
    slice (blit m (off + n) xs) off (n + xs.length) = slice m off n ++ xs := by
  rw [slice_add, slice_blit_before m (off + n) off n xs (Nat.le_refl _), slice_blit_self]

theorem slice_blit_append (m : ℕ → β) (n : ℕ) (xs : List β) :
    slice (blit m n xs) 0 (n + xs.length) = slice m 0 n ++ xs := by
  have h := slice_blit_behind m 0 n xs
  rwa [Nat.zero_add] at h

end UdsLib.Bytes
