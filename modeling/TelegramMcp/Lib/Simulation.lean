import Mathlib.Logic.Basic

/-!
# Simulation of labelled systems

A `Lts` goes from state to state in labelled steps; the labels are what its environment sees, and a
state may have many steps of one label. `Lts.Run` is a run with its trace of labels. When `A` has an
answer to every step of `C`, with the same label and the states still related (`Simulates`), then
every trace of `C` is one of `A` (`Simulates.run`, `Simulates.traces`).
-/

universe u v w

/-- A labelled transition system with the states `σ` and the labels `ℓ`. -/
structure Lts (σ : Type u) (ℓ : Type v) where
  init : σ → Prop
  step : σ → ℓ → σ → Prop

namespace Lts

variable {σ : Type u} {τ : Type w} {ℓ : Type v}

/-- Steps in sequence, with the list of their labels. -/
inductive Run (S : Lts σ ℓ) : σ → List ℓ → σ → Prop
  | nil (s : σ) : Run S s [] s
  | cons {s s₁ s' : σ} {l : ℓ} {tr : List ℓ} (hstep : S.step s l s₁) (hrun : Run S s₁ tr s') :
    Run S s (l :: tr) s'

/-- The label sequences of the runs from an initial state, which is what can be seen of a system. -/
def Trace (S : Lts σ ℓ) (tr : List ℓ) : Prop := ∃ s s', S.init s ∧ S.Run s tr s'

/-- `A` follows `C` along a relation of their states, step for step and with the same labels. -/
structure Simulates (C : Lts σ ℓ) (A : Lts τ ℓ) (R : σ → τ → Prop) : Prop where
  init : ∀ s, C.init s → ∃ t, A.init t ∧ R s t
  step : ∀ s l s' t, R s t → C.step s l s' → ∃ t', A.step t l t' ∧ R s' t'

variable {C : Lts σ ℓ} {A : Lts τ ℓ} {R : σ → τ → Prop}

/-- A system that follows another's steps follows its runs. -/
theorem Simulates.run (h : Simulates C A R) {s s' : σ} {tr : List ℓ} (hrun : C.Run s tr s')
    {t : τ} (ht : R s t) : ∃ t', A.Run t tr t' ∧ R s' t' := by
  induction hrun generalizing t with
  | nil s => exact ⟨t, .nil t, ht⟩
  | cons hstep _ ih =>
    obtain ⟨t₁, hstep', h₁⟩ := h.step _ _ _ _ ht hstep
    obtain ⟨t', hrun', h'⟩ := ih h₁
    exact ⟨t', .cons hstep' hrun', h'⟩

/-- So the traces of `C` are traces of `A`. -/
theorem Simulates.traces (h : Simulates C A R) {tr : List ℓ} (htr : C.Trace tr) : A.Trace tr := by
  obtain ⟨s, s', hinit, hrun⟩ := htr
  obtain ⟨t, hinit', ht⟩ := h.init s hinit
  obtain ⟨t', hrun', -⟩ := h.run hrun ht
  exact ⟨t, t', hinit', hrun'⟩

end Lts
