import UdsLib.Bytes.Memory

/-! Logs of copies into a flat memory. What a slice holds behind a log is decided by the last copy
that touches it. -/
namespace UdsLib.Bytes

variable {β : Type*} {off n : ℕ}

/-- `m` after the copies of a log: each one is a list and the offset it goes to. -/
def replay (m : ℕ → β) (log : List (ℕ × List β)) : ℕ → β :=
  log.foldl (fun m copy => blit m copy.1 copy.2) m

/-- A copy that touches none of the `n` offsets from `off` on. -/
def Spares (off n : ℕ) (copy : ℕ × List β) : Prop :=
  copy.1 + copy.2.length ≤ off ∨ off + n ≤ copy.1

instance (off n : ℕ) (copy : ℕ × List β) : Decidable (Spares off n copy) :=
  inferInstanceAs (Decidable (_ ∨ _))

@[simp] theorem replay_nil (m : ℕ → β) : replay m [] = m := rfl

@[simp] theorem replay_cons (m : ℕ → β) (copy : ℕ × List β) (log : List (ℕ × List β)) :
    replay m (copy :: log) = replay (blit m copy.1 copy.2) log := rfl

theorem replay_append (m : ℕ → β) (log log' : List (ℕ × List β)) :
    replay m (log ++ log') = replay (replay m log) log' :=
  List.foldl_append

theorem slice_blit_spared (m : ℕ → β) {o : ℕ} {xs : List β} (h : Spares off n (o, xs)) :
    slice (blit m o xs) off n = slice m off n := by
  have hbounds : o + xs.length ≤ off ∨ off + n ≤ o := h
  apply slice_blit_apart
  intro i hi j hj
  omega

/-- A log that spares a slice leaves it as it was. -/
theorem slice_replay_spared (m : ℕ → β) {log : List (ℕ × List β)} (h : ∀ copy ∈ log, Spares off n copy) :
    slice (replay m log) off n = slice m off n := by
  induction log generalizing m with
  | nil => rfl
  | cons copy log ih =>
    obtain ⟨hcopy, hlog⟩ := List.forall_mem_cons.mp h
    rw [replay_cons, ih _ hlog, slice_blit_spared m hcopy]

/-- What was copied last is what is there. -/
theorem slice_replay_last (m : ℕ → β) (before : List (ℕ × List β)) (xs : List β)
    {after : List (ℕ × List β)} (h : ∀ copy ∈ after, Spares off xs.length copy) :
    slice (replay m (before ++ (off, xs) :: after)) off xs.length = xs := by
  rw [replay_append, replay_cons, slice_replay_spared _ h, slice_blit_self]

end UdsLib.Bytes
