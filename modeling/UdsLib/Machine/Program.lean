import UdsLib.Machine.Run

/-! Imperative programs: a state they change, a result, and the outputs they emit on the way.
The rules at the end lift what single actions do to every program composed of them. -/
namespace UdsLib.Machine

variable {σ ο α β : Type}

/-- Started in a state, a program ends with a result, a state and the outputs in between. -/
def Prog (σ ο α : Type) : Type := σ → α × σ × List ο

namespace Prog

def value (m : Prog σ ο α) (s : σ) : α := (m s).1

def final (m : Prog σ ο α) (s : σ) : σ := (m s).2.1

def outputs (m : Prog σ ο α) (s : σ) : List ο := (m s).2.2

instance : Monad (Prog σ ο) where
  pure a := fun s => (a, s, [])
  bind m f := fun s =>
    let r := m s
    let q := f r.1 r.2.1
    (q.1, q.2.1, r.2.2 ++ q.2.2)

/-- The part of the state that `f` reads. -/
def reads (f : σ → α) : Prog σ ο α := fun s => (f s, s, [])

def modify (f : σ → σ) : Prog σ ο Unit := fun s => ((), f s, [])

def emit (o : ο) : Prog σ ο Unit := fun s => ((), s, [o])

section Evaluation

variable (s : σ) (m : Prog σ ο α) (f : α → Prog σ ο β)

@[simp] theorem value_pure (a : α) : (pure a : Prog σ ο α).value s = a := rfl
@[simp] theorem final_pure (a : α) : (pure a : Prog σ ο α).final s = s := rfl
@[simp] theorem outputs_pure (a : α) : (pure a : Prog σ ο α).outputs s = [] := rfl

@[simp] theorem value_bind : (m >>= f).value s = (f (m.value s)).value (m.final s) := rfl
@[simp] theorem final_bind : (m >>= f).final s = (f (m.value s)).final (m.final s) := rfl
@[simp] theorem outputs_bind :
    (m >>= f).outputs s = m.outputs s ++ (f (m.value s)).outputs (m.final s) := rfl

@[simp] theorem value_reads (g : σ → α) : (reads g : Prog σ ο α).value s = g s := rfl
@[simp] theorem final_reads (g : σ → α) : (reads g : Prog σ ο α).final s = s := rfl
@[simp] theorem outputs_reads (g : σ → α) : (reads g : Prog σ ο α).outputs s = [] := rfl

@[simp] theorem final_modify (g : σ → σ) : (modify g : Prog σ ο Unit).final s = g s := rfl
@[simp] theorem outputs_modify (g : σ → σ) : (modify g : Prog σ ο Unit).outputs s = [] := rfl

@[simp] theorem final_emit (o : ο) : (emit o : Prog σ ο Unit).final s = s := rfl
@[simp] theorem outputs_emit (o : ο) : (emit o : Prog σ ο Unit).outputs s = [o] := rfl

theorem final_ite (c : Prop) [Decidable c] (m n : Prog σ ο α) :
    (if c then m else n).final s = if c then m.final s else n.final s := by
  split_ifs <;> rfl

theorem outputs_ite (c : Prop) [Decidable c] (m n : Prog σ ο α) :
    (if c then m else n).outputs s = if c then m.outputs s else n.outputs s := by
  split_ifs <;> rfl

end Evaluation

theorem run_ext {m : Prog σ ο α} {s : σ} {r : α × σ × List ο} (hvalue : m.value s = r.1)
    (hfinal : m.final s = r.2.1) (houtputs : m.outputs s = r.2.2) : m s = r :=
  Prod.ext hvalue (Prod.ext hfinal houtputs)

theorem pure_then (a : α) (f : α → Prog σ ο β) : (pure a : Prog σ ο α) >>= f = f a := rfl

/-- A program that only finds a value out goes on with it. -/
theorem silent_then {m : Prog σ ο α} {f : α → Prog σ ο β} {s : σ} {a : α} (hm : m s = (a, s, [])) :
    (m >>= f) s = f a s := by
  have hbind : (m >>= f) s = (let q := f (m s).1 (m s).2.1; (q.1, q.2.1, (m s).2.2 ++ q.2.2)) := rfl
  rw [hbind, hm]
  rfl

theorem then_then {γ : Type} (m : Prog σ ο α) (f : α → Prog σ ο β) (g : β → Prog σ ο γ) :
    m >>= f >>= g = m >>= fun a => f a >>= g := by
  funext s
  exact congrArg (fun es => (_, _, es)) (List.append_assoc ..)

theorem ite_then (c : Prop) [Decidable c] (m n : Prog σ ο α) (f : α → Prog σ ο β) :
    (if c then m else n) >>= f = if c then m >>= f else n >>= f := by
  split_ifs <;> rfl

/-- Started in `s`, a program puts out only what satisfies `P`. -/
def Emits (P : ο → Prop) (m : Prog σ ο α) (s : σ) : Prop := ∀ o ∈ m.outputs s, P o

section Emits

variable {P : ο → Prop} {m n : Prog σ ο α} {f : α → Prog σ ο β} {s : σ}

theorem emits_bind : Emits P (m >>= f) s ↔ Emits P m s ∧ Emits P (f (m.value s)) (m.final s) :=
  List.forall_mem_append

theorem emits_then (h : Emits P m s) :
    Emits P (m >>= f) s ↔ Emits P (f (m.value s)) (m.final s) :=
  emits_bind.trans (and_iff_right h)

theorem emits_pure (a : α) : Emits P (pure a : Prog σ ο α) s := nofun

theorem emits_single {o : ο} (h : m.outputs s = [o]) : Emits P m s ↔ P o := by
  unfold Emits
  rw [h]
  exact List.forall_mem_singleton

/-- Where one branch is in order, all depends on the other. -/
theorem emits_ite {c : Prop} [Decidable c] (hm : Emits P m s) :
    Emits P (if c then m else n) s ↔ (¬ c → Emits P n s) := by
  split_ifs with hc
  · exact iff_of_true hm fun h => absurd hc h
  · exact (imp_iff_right hc).symm

end Emits

/-- A relation between the state before, the outputs and the state after that can be followed
along a sequence of actions. -/
structure Composable (R : σ → List ο → σ → Prop) : Prop where
  refl : ∀ s, R s [] s
  trans : ∀ {s es t fs u}, R s es t → R t fs u → R s (es ++ fs) u

/-- Wherever `m` starts, what it does is in `R`. -/
def Keeps (R : σ → List ο → σ → Prop) (m : Prog σ ο α) : Prop :=
  ∀ s, R s (m.outputs s) (m.final s)

/-- The programs composed of the actions of a set. A continuation is only asked for the
values that the program before it can return. -/
inductive Composed (A : (α : Type) → Prog σ ο α → Prop) : {α : Type} → Prog σ ο α → Prop
  | act {α : Type} {m : Prog σ ο α} (hm : A α m) : Composed A m
  | pure {α : Type} (a : α) : Composed A (pure a : Prog σ ο α)
  | bind {α β : Type} {m : Prog σ ο α} {f : α → Prog σ ο β} (hm : Composed A m)
      (hf : ∀ s, Composed A (f (m.value s))) : Composed A (m >>= f)

theorem Composable.bind_at {R : σ → List ο → σ → Prop} (hR : Composable R) {m : Prog σ ο α}
    {f : α → Prog σ ο β} {s : σ} (hm : R s (m.outputs s) (m.final s))
    (hf : R (m.final s) ((f (m.value s)).outputs (m.final s))
      ((f (m.value s)).final (m.final s))) :
    R s ((m >>= f).outputs s) ((m >>= f).final s) := by
  rw [outputs_bind, final_bind]
  exact hR.trans hm hf

theorem Composable.bind {R : σ → List ο → σ → Prop} (hR : Composable R) {m : Prog σ ο α}
    {f : α → Prog σ ο β} (hm : Keeps R m) (hf : ∀ s, Keeps R (f (m.value s))) :
    Keeps R (m >>= f) :=
  fun s => hR.bind_at (hm s) (hf s _)

/-- A program whose result is dropped. -/
theorem Composable.discard {R : σ → List ο → σ → Prop} (hR : Composable R) {m : Prog σ ο α}
    (hm : Keeps R m) : Keeps R (m >>= fun _ => (pure () : Prog σ ο Unit)) :=
  hR.bind hm fun _ => hR.refl

theorem Keeps.ite {R : σ → List ο → σ → Prop} {c : Prop} [Decidable c] {m n : Prog σ ο α}
    (hm : c → Keeps R m) (hn : ¬ c → Keeps R n) : Keeps R (if c then m else n) := by
  split_ifs with h
  · exact hm h
  · exact hn h

variable {A : (α : Type) → Prog σ ο α → Prop}

theorem Composed.ite {c : Prop} [Decidable c] {m n : Prog σ ο α} (hm : c → Composed A m)
    (hn : ¬ c → Composed A n) : Composed A (if c then m else n) := by
  split_ifs with h
  · exact hm h
  · exact hn h

theorem Composed.mono {A' : (α : Type) → Prog σ ο α → Prop} (hA : ∀ {α m}, A α m → A' α m)
    {m : Prog σ ο α} (h : Composed A m) : Composed A' m := by
  induction h with
  | act hm => exact .act (hA hm)
  | pure a => exact .pure a
  | bind _ _ ihm ihf => exact .bind ihm ihf

/-- What every action keeps, every program composed of the actions keeps. -/
theorem Composed.keeps {R : σ → List ο → σ → Prop} (hR : Composable R)
    (hA : ∀ α m, A α m → Keeps R m) {m : Prog σ ο α} (h : Composed A m) : Keeps R m := by
  induction h with
  | act hm => exact hA _ _ hm
  | pure a => exact fun s => hR.refl s
  | bind _ _ ihm ihf => exact hR.bind ihm ihf

end Prog

/-- What the programs behind the actions keep, the run of a list of actions keeps. -/
theorem run_keeps {π : Type} {R : σ → List ο → σ → Prop} (hR : Prog.Composable R)
    {step : σ → π → σ × List ο} {C : σ → π → Prop}
    (hstep : ∀ s a, C s a → R s (step s a).2 (step s a).1) {s : σ} {as : List π}
    (h : Along step C s as) : R s (trace step s as) (exec step s as) :=
  trace_invariant (H := fun os t => R s os t)
    (fun _ t a hos hc => hR.trans hos (hstep t a hc)) (hR.refl s) h

end UdsLib.Machine
