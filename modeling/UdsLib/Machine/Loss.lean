import Mathlib.Data.List.Infix
import Mathlib.Tactic.Common

/-! What is left of a list of messages on a way that may lose some of them, but neither invents
nor repeats nor reorders any. -/
namespace UdsLib.Machine

variable {μ : Type*} {C D : Prop} {xs ys zs as bs : List μ}

/-- `xs` is a part of `ys`, in order, and all of it under the condition `C`. -/
structure LeftOf (C : Prop) (xs ys : List μ) : Prop where
  sublist : xs.Sublist ys
  all : C → xs = ys

namespace LeftOf

theorem refl (xs : List μ) : LeftOf C xs xs := ⟨List.Sublist.refl xs, fun _ => rfl⟩

theorem mono (hDC : D → C) (h : LeftOf C xs ys) : LeftOf D xs ys :=
  ⟨h.sublist, fun hd => h.all (hDC hd)⟩

theorem trans (h : LeftOf C xs ys) (hnext : LeftOf D ys zs) : LeftOf (C ∧ D) xs zs :=
  ⟨h.sublist.trans hnext.sublist, fun hc => (h.all hc.1).trans (hnext.all hc.2)⟩

theorem append (h : LeftOf C xs ys) (hnext : LeftOf C as bs) : LeftOf C (xs ++ as) (ys ++ bs) :=
  ⟨h.sublist.append hnext.sublist, fun hc => by rw [h.all hc, hnext.all hc]⟩

theorem cons (x : μ) (h : LeftOf C xs ys) : LeftOf C (x :: xs) (x :: ys) :=
  ⟨h.sublist.cons_cons x, fun hc => by rw [h.all hc]⟩

/-- The first message is lost. -/
theorem skip (x : μ) (hlost : ¬ C) (h : LeftOf D xs ys) : LeftOf C xs (x :: ys) :=
  ⟨h.sublist.cons x, fun hc => absurd hc hlost⟩

theorem nothing (hlost : ¬ C) (xs : List μ) : LeftOf C [] xs :=
  ⟨List.nil_sublist xs, fun hc => absurd hc hlost⟩

/-- What follows in front of a known part. -/
theorem prefixed (hs : List μ) (h : LeftOf C xs ys) : LeftOf C (hs ++ xs) (hs ++ ys) :=
  (refl hs).append h

end LeftOf

end UdsLib.Machine
