import UdsLib.Machine.Run

/-! One machine explained by another: what the first puts out from one of its states to the next is
matched by a run of the second. Machines that agree step by step agree on whole runs. -/
namespace UdsLib.Machine

variable {σ α ο τ β π : Type*}

/-- A matching of the outputs of one machine with the actions and outputs of another, which can be
put together from the matchings of the parts of a run. -/
structure Matching (Q : List ο → List β → List π → Prop) : Prop where
  nil : Q [] [] []
  append : ∀ {os bs ps os' bs' ps'}, Q os bs ps → Q os' bs' ps' →
    Q (os ++ os') (bs ++ bs') (ps ++ ps')

/-- A run of the second machine from `x` to `y` matches the outputs `os`. -/
def Explained (step' : τ → β → τ × List π) (Q : List ο → List β → List π → Prop) (x : τ)
    (os : List ο) (y : τ) : Prop :=
  ∃ bs, exec step' x bs = y ∧ Q os bs (trace step' x bs)

variable {step : σ → α → σ × List ο} {step' : τ → β → τ × List π}
  {Q : List ο → List β → List π → Prop}

theorem Explained.refl (hQ : Matching Q) (x : τ) : Explained step' Q x [] x := ⟨[], rfl, hQ.nil⟩

theorem Explained.trans (hQ : Matching Q) {x y z : τ} {os os' : List ο}
    (h : Explained step' Q x os y) (hnext : Explained step' Q y os' z) :
    Explained step' Q x (os ++ os') z := by
  obtain ⟨bs, rfl, hbs⟩ := h
  obtain ⟨bs', rfl, hbs'⟩ := hnext
  refine ⟨bs ++ bs', exec_append x bs bs', ?_⟩
  rw [trace_append]
  exact hQ.append hbs hbs'

/-- One action of the second machine explains what matches it. -/
theorem Explained.single {x : τ} {os : List ο} (b : β) (h : Q os [b] (step' x b).2) :
    Explained step' Q x os (step' x b).1 := by
  refine ⟨[b], rfl, ?_⟩
  rw [trace_cons, trace_nil, List.append_nil]
  exact h

/-- Where two machines agree step by step on the states of an invariant, they agree on whole runs. -/
theorem runs_agree {step' : τ → α → τ × List ο} {I : σ → Prop} (abs : σ → τ)
    (hkept : ∀ s a, I s → I (step s a).1)
    (hstep : ∀ s a, I s → step' (abs s) a = (abs (step s a).1, (step s a).2)) {s : σ} (hs : I s)
    (as : List α) : I (exec step s as) ∧ exec step' (abs s) as = abs (exec step s as) ∧
      trace step' (abs s) as = trace step s as := by
  induction as generalizing s with
  | nil => exact ⟨hs, rfl, rfl⟩
  | cons a as ih =>
    rw [exec_cons, exec_cons, trace_cons, trace_cons, hstep s a hs]
    obtain ⟨hinv, hexec, htrace⟩ := ih (hkept s a hs)
    exact ⟨hinv, hexec, congrArg ((step s a).2 ++ ·) htrace⟩

end UdsLib.Machine
