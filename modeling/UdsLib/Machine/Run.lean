import Mathlib.Data.List.Infix
import Mathlib.Tactic.Common

/-! Runs of a deterministic machine whose steps emit a list of outputs. -/
namespace UdsLib.Machine

variable {σ α ο π : Type*} (step : σ → α → σ × List ο)

/-- The state after the actions of a list. -/
def exec : σ → List α → σ
  | s, [] => s
  | s, a :: as => exec (step s a).1 as

/-- The outputs of a list of actions, in order. -/
def trace : σ → List α → List ο
  | _, [] => []
  | s, a :: as => (step s a).2 ++ trace (step s a).1 as

/-- Every step of the run meets `C`, a condition on the state before it and its action. -/
def Along (C : σ → α → Prop) : σ → List α → Prop
  | _, [] => True
  | s, a :: as => C s a ∧ Along C (step s a).1 as

/-- `I` holds in every state the run goes through, its first one included. -/
def Always (I : σ → Prop) (s : σ) (as : List α) : Prop :=
  ∀ pre, pre <+: as → I (exec step s pre)

variable {step}

@[simp] theorem exec_nil (s : σ) : exec step s [] = s := rfl

@[simp] theorem exec_cons (s : σ) (a : α) (as : List α) :
    exec step s (a :: as) = exec step (step s a).1 as := rfl

@[simp] theorem trace_nil (s : σ) : trace step s [] = [] := rfl

@[simp] theorem trace_cons (s : σ) (a : α) (as : List α) :
    trace step s (a :: as) = (step s a).2 ++ trace step (step s a).1 as := rfl

theorem exec_append (s : σ) (as bs : List α) :
    exec step s (as ++ bs) = exec step (exec step s as) bs := by
  induction as generalizing s with
  | nil => rfl
  | cons a as ih => exact ih _

theorem trace_append (s : σ) (as bs : List α) :
    trace step s (as ++ bs) = trace step s as ++ trace step (exec step s as) bs := by
  induction as generalizing s with
  | nil => rfl
  | cons a as ih => simp only [List.cons_append, trace_cons, exec_cons, ih, List.append_assoc]

@[simp] theorem along_nil (C : σ → α → Prop) (s : σ) : Along step C s [] := trivial

@[simp] theorem along_cons (C : σ → α → Prop) (s : σ) (a : α) (as : List α) :
    Along step C s (a :: as) ↔ C s a ∧ Along step C (step s a).1 as := Iff.rfl

theorem along_append (C : σ → α → Prop) (s : σ) (as bs : List α) :
    Along step C s (as ++ bs) ↔ Along step C s as ∧ Along step C (exec step s as) bs := by
  induction as generalizing s with
  | nil => simp
  | cons a as ih => simp only [List.cons_append, along_cons, exec_cons, ih, and_assoc]

theorem Along.mono {C D : σ → α → Prop} (h : ∀ s a, C s a → D s a) {s : σ} {as : List α}
    (hc : Along step C s as) : Along step D s as := by
  induction as generalizing s with
  | nil => trivial
  | cons a as ih => exact ⟨h _ _ hc.1, ih hc.2⟩

theorem Along.trivial (s : σ) (as : List α) : Along step (fun _ _ => True) s as := by
  induction as generalizing s with
  | nil => exact True.intro
  | cons a as ih => exact ⟨True.intro, ih _⟩

/-- A condition on all actions of the run joins one along it. -/
theorem Along.and_forall {C : σ → α → Prop} {D : α → Prop} {s : σ} {as : List α}
    (h : Along step C s as) (hall : ∀ a ∈ as, D a) : Along step (fun s a => D a ∧ C s a) s as := by
  induction as generalizing s with
  | nil => exact True.intro
  | cons a as ih =>
    obtain ⟨ha, has⟩ := List.forall_mem_cons.mp hall
    exact ⟨⟨ha, h.1⟩, ih h.2 has⟩

/-- What a step preserves under `C`, a run whose steps meet `C` preserves. -/
theorem exec_invariant {I : σ → Prop} {C : σ → α → Prop}
    (hstep : ∀ s a, I s → C s a → I (step s a).1) {s : σ} {as : List α}
    (hs : I s) (h : Along step C s as) : I (exec step s as) := by
  induction as generalizing s with
  | nil => exact hs
  | cons a as ih => exact ih (hstep s a hs h.1) h.2

/-- A relation between the outputs so far and the state that every step under `C` keeps. -/
theorem trace_invariant {H : List ο → σ → Prop} {C : σ → α → Prop}
    (hstep : ∀ os s a, H os s → C s a → H (os ++ (step s a).2) (step s a).1) {os : List ο} {s : σ}
    {as : List α} (hs : H os s) (h : Along step C s as) :
    H (os ++ trace step s as) (exec step s as) := by
  induction as generalizing os s with
  | nil => simpa using hs
  | cons a as ih =>
    rw [trace_cons, ← List.append_assoc]
    exact ih (hstep os s a hs h.1) h.2

/-- Actions that neither change the state nor put out anything that `keep` keeps can be left
out of a run. -/
theorem trace_filter {I : σ → Prop} {C : σ → α → Prop} {drop : α → Bool}
    (keep : List ο → List π) (hkeep : ∀ os ps, keep (os ++ ps) = keep os ++ keep ps)
    (hstep : ∀ s a, I s → C s a → I (step s a).1)
    (hdrop : ∀ s a, I s → C s a → drop a = true → (step s a).1 = s ∧ keep (step s a).2 = [])
    {s : σ} {as : List α} (hs : I s) (h : Along step C s as) :
    keep (trace step s (as.filter fun a => !drop a)) = keep (trace step s as) := by
  induction as generalizing s with
  | nil => rfl
  | cons a as ih =>
    have hrest := ih (hstep s a hs h.1) h.2
    cases hd : drop a with
    | true =>
      obtain ⟨hsame, hout⟩ := hdrop s a hs h.1 hd
      rw [List.filter_cons_of_neg (by simp [hd]), trace_cons, hkeep, hout, List.nil_append,
        ← hrest, hsame]
    | false =>
      rw [List.filter_cons_of_pos (by simp [hd]), trace_cons, trace_cons, hkeep, hkeep, hrest]

/-- If a step into `P` either brings it about or finds it and meets `C`, a run into `P` that does
not start in it has a last step that brought it about. -/
theorem origin {P : σ → Prop} {A C : σ → α → Prop}
    (hstep : ∀ s a, P (step s a).1 → A s a ∨ (P s ∧ C s a)) {s : σ} {as : List α}
    (hs : ¬ P s) (h : P (exec step s as)) : ∃ before a after, as = before ++ a :: after ∧
      A (exec step s before) a ∧ Along step C (step (exec step s before) a).1 after := by
  suffices hrun : ∀ t, P (exec step t as) → (P t ∧ Along step C t as) ∨
      ∃ before a after, as = before ++ a :: after ∧ A (exec step t before) a ∧
        Along step C (step (exec step t before) a).1 after from
    (hrun s h).resolve_left fun hkept => hs hkept.1
  clear hs h
  induction as with
  | nil => exact fun t ht => Or.inl ⟨ht, True.intro⟩
  | cons b as ih =>
    intro t ht
    rcases ih (step t b).1 ht with ⟨hfirst, hrest⟩ | ⟨before, a, after, rfl, hbrought, hrest⟩
    · rcases hstep t b hfirst with hbrought | ⟨hfound, hb⟩
      · exact Or.inr ⟨[], b, as, rfl, hbrought, hrest⟩
      · exact Or.inl ⟨hfound, hb, hrest⟩
    · exact Or.inr ⟨b :: before, a, after, rfl, hbrought, hrest⟩

theorem always_cons (I : σ → Prop) (s : σ) (a : α) (as : List α) :
    Always step I s (a :: as) ↔ I s ∧ Always step I (step s a).1 as := by
  constructor
  · intro h
    refine ⟨h [] (List.nil_prefix), fun pre hp => ?_⟩
    exact h (a :: pre) (List.cons_prefix_cons.mpr ⟨rfl, hp⟩)
  · rintro ⟨hs, h⟩ pre hp
    cases pre with
    | nil => exact hs
    | cons b pre =>
      obtain ⟨rfl, htail⟩ := List.cons_prefix_cons.mp hp
      exact h pre htail

theorem always_nil (I : σ → Prop) (s : σ) : Always step I s [] ↔ I s := by
  simp [Always]

/-- Under an invariant that implies `P`, kept by the steps that meet `C` and followed by a
violation of `P` on any other step, `P` holds along a run of steps with `D` exactly when `C` does. -/
theorem always_iff_along_under {I P : σ → Prop} {C D : σ → α → Prop} (himp : ∀ s, I s → P s)
    (hstep : ∀ s a, I s → D s a → C s a → I (step s a).1)
    (hbreak : ∀ s a, I s → D s a → ¬ C s a → ¬ P (step s a).1) {s : σ} {as : List α} (hs : I s)
    (hd : Along step D s as) : Always step P s as ↔ Along step C s as := by
  induction as generalizing s with
  | nil => simp [always_nil, himp s hs]
  | cons a as ih =>
    rw [always_cons, along_cons]
    constructor
    · rintro ⟨-, hrest⟩
      have hc : C s a := by_contra fun h => hbreak s a hs hd.1 h (hrest [] List.nil_prefix)
      exact ⟨hc, (ih (hstep s a hs hd.1 hc) hd.2).mp hrest⟩
    · rintro ⟨hc, hrest⟩
      exact ⟨himp s hs, (ih (hstep s a hs hd.1 hc) hd.2).mpr hrest⟩

theorem always_iff_along {I P : σ → Prop} {C : σ → α → Prop} (himp : ∀ s, I s → P s)
    (hstep : ∀ s a, I s → C s a → I (step s a).1)
    (hbreak : ∀ s a, I s → ¬ C s a → ¬ P (step s a).1) {s : σ} {as : List α} (hs : I s) :
    Always step P s as ↔ Along step C s as :=
  always_iff_along_under himp (fun s a hi _ => hstep s a hi) (fun s a hi _ => hbreak s a hi) hs
    (Along.trivial s as)

/-- Under an invariant that the steps with a condition keep, what the condition implies at each step it
implies along the run. -/
theorem Along.of_kept {I : σ → Prop} {C D : σ → α → Prop}
    (hstep : ∀ s a, I s → C s a → I (step s a).1) (himp : ∀ s a, I s → C s a → D s a) {s : σ}
    {as : List α} (hs : I s) (h : Along step C s as) : Along step D s as := by
  induction as generalizing s with
  | nil => trivial
  | cons a as ih => exact ⟨himp s a hs h.1, ih (hstep s a hs h.1) h.2⟩

theorem Along.of_invariant {I : σ → Prop} {C D : σ → α → Prop}
    (hstep : ∀ s a, I s → I (step s a).1) (himp : ∀ s a, I s → C s a → D s a) {s : σ}
    {as : List α} (hs : I s) (h : Along step C s as) : Along step D s as :=
  h.of_kept (fun s a hs _ => hstep s a hs) himp hs

instance decidableAlong {C : σ → α → Prop} [∀ s a, Decidable (C s a)] (s : σ) (as : List α) :
    Decidable (Along step C s as) :=
  match as with
  | [] => inferInstanceAs (Decidable True)
  | a :: as =>
    have := decidableAlong (C := C) (step s a).1 as
    inferInstanceAs (Decidable (_ ∧ _))

/-- Two conditions that agree under an invariant, which their steps keep, agree along a run. -/
theorem along_congr_under {I : σ → Prop} {C D E : σ → α → Prop}
    (hstep : ∀ s a, I s → E s a → C s a → I (step s a).1)
    (hiff : ∀ s a, I s → E s a → (C s a ↔ D s a)) {s : σ} {as : List α} (hs : I s)
    (he : Along step E s as) : Along step C s as ↔ Along step D s as := by
  induction as generalizing s with
  | nil => exact Iff.rfl
  | cons a as ih =>
    rw [along_cons, along_cons, ← hiff s a hs he.1]
    exact and_congr_right fun hc => ih (hstep s a hs he.1 hc) he.2

theorem along_congr {I : σ → Prop} {C D : σ → α → Prop}
    (hstep : ∀ s a, I s → C s a → I (step s a).1) (hiff : ∀ s a, I s → (C s a ↔ D s a)) {s : σ}
    {as : List α} (hs : I s) : Along step C s as ↔ Along step D s as :=
  along_congr_under (fun s a hi _ => hstep s a hi) (fun s a hi _ => hiff s a hi) hs (Along.trivial s as)

/-- States that a relation kept by all steps holds between put out the same along every run. -/
theorem trace_congr {R : σ → σ → Prop}
    (hstep : ∀ s t a, R s t → (step s a).2 = (step t a).2 ∧ R (step s a).1 (step t a).1) {s t : σ}
    (h : R s t) (as : List α) : trace step s as = trace step t as := by
  induction as generalizing s t with
  | nil => rfl
  | cons a as ih =>
    obtain ⟨hout, hnext⟩ := hstep s t a h
    rw [trace_cons, trace_cons, hout, ih hnext]

/-- A condition on the outputs of a run is one on the outputs of each step. -/
theorem forall_trace_iff {P : ο → Prop} {s : σ} {as : List α} :
    (∀ o ∈ trace step s as, P o) ↔ Along step (fun s a => ∀ o ∈ (step s a).2, P o) s as := by
  induction as generalizing s with
  | nil => simp
  | cons a as ih => rw [trace_cons, List.forall_mem_append, along_cons, ih]

/-! ### Histories -/

variable {γ : Type*}

variable (step) in
/-- The machine with a history beside its state, which `note` continues from the state before a
step and its action. -/
def recorded (note : γ → σ → α → γ) (p : σ × γ) (a : α) : (σ × γ) × List ο :=
  (((step p.1 a).1, note p.2 p.1 a), (step p.1 a).2)

/-- A history does not disturb the run. -/
theorem recorded_run (note : γ → σ → α → γ) (s : σ) (h : γ) (as : List α) :
    (exec (recorded step note) (s, h) as).1 = exec step s as ∧
      trace (recorded step note) (s, h) as = trace step s as := by
  induction as generalizing s h with
  | nil => exact ⟨rfl, rfl⟩
  | cons a as ih =>
    obtain ⟨hstate, hout⟩ := ih (step s a).1 (note h s a)
    constructor
    · exact hstate
    · exact congrArg ((step s a).2 ++ ·) hout

/-- What every step keeps of a state and its history, a run keeps. -/
theorem recorded_invariant {note : γ → σ → α → γ} {I : σ → γ → Prop}
    (hstep : ∀ s h a, I s h → I (step s a).1 (note h s a)) {s : σ} {h : γ} (hs : I s h) (as : List α) :
    I (exec (recorded step note) (s, h) as).1 (exec (recorded step note) (s, h) as).2 := by
  induction as generalizing s h with
  | nil => exact hs
  | cons a as ih => exact ih (hstep s h a hs)

/-! ### Infinite schedules -/

variable (step) in
/-- The state after the first `i` actions of a schedule. -/
def stateAt (s : σ) (ops : ℕ → α) (i : ℕ) : σ := exec step s ((List.range i).map ops)

theorem stateAt_succ (s : σ) (ops : ℕ → α) (i : ℕ) :
    stateAt step s ops (i + 1) = (step (stateAt step s ops i) (ops i)).1 := by
  simp only [stateAt, List.range_succ, List.map_append, exec_append]
  rfl

/-- When a step either does nothing or lowers a rank, so does a stretch of steps. -/
theorem stateAt_settles {rank : σ → ℕ} {s : σ} {ops : ℕ → α}
    (hstep : ∀ i, stateAt step s ops (i + 1) = stateAt step s ops i ∨
      rank (stateAt step s ops (i + 1)) < rank (stateAt step s ops i)) {i j : ℕ} (hij : i ≤ j) :
    stateAt step s ops j = stateAt step s ops i ∨
      rank (stateAt step s ops j) < rank (stateAt step s ops i) := by
  induction j, hij using Nat.le_induction with
  | base => exact Or.inl rfl
  | succ j _ ih =>
    rcases hstep j with hsame | hless
    · rw [hsame]
      exact ih
    · rcases ih with hij | hij
      · rw [hij] at hless
        exact Or.inr hless
      · exact Or.inr (hless.trans hij)

/-- A schedule that keeps lowering the rank until `Done` holds reaches `Done`. -/
theorem eventually_done (rank : σ → ℕ) (Done : σ → Prop) {s : σ} {ops : ℕ → α}
    (hstep : ∀ i, stateAt step s ops (i + 1) = stateAt step s ops i ∨
      rank (stateAt step s ops (i + 1)) < rank (stateAt step s ops i))
    (hfair : ∀ i, ¬ Done (stateAt step s ops i) → ∃ j, i ≤ j ∧
      (stateAt step s ops j = stateAt step s ops i →
        rank (stateAt step s ops (j + 1)) < rank (stateAt step s ops i))) :
    ∃ N, Done (stateAt step s ops N) := by
  suffices h : ∀ k i, rank (stateAt step s ops i) = k → ∃ N, Done (stateAt step s ops N) from
    h _ 0 rfl
  intro k
  induction k using Nat.strong_induction_on with
  | _ k ih =>
    intro i hk
    by_cases hdone : Done (stateAt step s ops i)
    · exact ⟨i, hdone⟩
    · obtain ⟨j, hij, hmove⟩ := hfair i hdone
      rcases stateAt_settles hstep hij with hsame | hless
      · exact ih _ (hk ▸ hmove hsame) (j + 1) rfl
      · exact ih _ (hk ▸ hless) j rfl

end UdsLib.Machine
