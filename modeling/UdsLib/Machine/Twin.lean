import UdsLib.Machine.Program

/-! Two programs side by side, each started in a state of its own: what is between their outputs
and between their ends. -/
namespace UdsLib.Machine.Prog

variable {σ ο α β γ δ : Type}

/-- A relation between lists of outputs that related lists can be appended to. -/
structure Congruence (K : List ο → List ο → Prop) : Prop where
  nil : K [] []
  append : ∀ {es fs es' fs'}, K es fs → K es' fs' → K (es ++ es') (fs ++ fs')

/-- From `s` and `t` the programs put out lists related by `K` and end as `Q` says. -/
structure Twin (K : List ο → List ο → Prop) (m : Prog σ ο α) (n : Prog σ ο β) (s t : σ)
    (Q : α → σ → β → σ → Prop) : Prop where
  outputs : K (m.outputs s) (n.outputs t)
  ends : Q (m.value s) (m.final s) (n.value t) (n.final t)

variable {K : List ο → List ο → Prop} {s t : σ}

theorem Congruence.pure (hK : Congruence K) {a : α} {b : β} {Q : α → σ → β → σ → Prop}
    (h : Q a s b t) : Twin K (pure a) (pure b) s t Q :=
  ⟨hK.nil, h⟩

/-- What comes first is followed by what goes on from its end. -/
theorem Congruence.bind_at (hK : Congruence K) {m : Prog σ ο α} {n : Prog σ ο β}
    {f : α → Prog σ ο γ} {g : β → Prog σ ο δ} {Q : γ → σ → δ → σ → Prop}
    (hm : K (m.outputs s) (n.outputs t))
    (hf : Twin K (f (m.value s)) (g (n.value t)) (m.final s) (n.final t) Q) :
    Twin K (m >>= f) (n >>= g) s t Q :=
  ⟨hK.append hm hf.outputs, hf.ends⟩

theorem Congruence.bind (hK : Congruence K) {m : Prog σ ο α} {n : Prog σ ο β}
    {f : α → Prog σ ο γ} {g : β → Prog σ ο δ} {P : α → σ → β → σ → Prop}
    {Q : γ → σ → δ → σ → Prop} (hm : Twin K m n s t P)
    (hf : ∀ a u b v, P a u b v → Twin K (f a) (g b) u v Q) :
    Twin K (m >>= f) (n >>= g) s t Q :=
  hK.bind_at hm.outputs (hf _ _ _ _ hm.ends)

/-- What only one of the programs does comes first. -/
theorem Congruence.bind_left (hK : Congruence K) {m : Prog σ ο α} {f : α → Prog σ ο γ}
    {n : Prog σ ο δ} {Q : γ → σ → δ → σ → Prop} (hm : K (m.outputs s) [])
    (hf : Twin K (f (m.value s)) n (m.final s) t Q) : Twin K (m >>= f) n s t Q :=
  hK.bind_at (n := (Pure.pure () : Prog σ ο Unit)) (g := fun _ => n) hm hf

theorem Twin.ite {c c' : Prop} [Decidable c] [Decidable c'] {m m' : Prog σ ο α}
    {n n' : Prog σ ο β} {Q : α → σ → β → σ → Prop} (hiff : c ↔ c')
    (hm : c → Twin K m n s t Q) (hn : ¬ c → Twin K m' n' s t Q) :
    Twin K (if c then m else m') (if c' then n else n') s t Q := by
  by_cases hc : c
  · rw [if_pos hc, if_pos (hiff.mp hc)]
    exact hm hc
  · rw [if_neg hc, if_neg fun hc' => hc (hiff.mpr hc')]
    exact hn hc

end UdsLib.Machine.Prog
