import Mathlib.Logic.Basic

/-!
# Runs of a system

A `System` takes a step from a state on an input, or refuses it. `Reached P s` says that a run whose
every step satisfies `P` reaches `s`; `P` sees the state before the step and the input. What holds
initially and is kept by such a step holds in every state reached (`Reached.invariant`). When a
state itself tells that the steps to it were such steps, it is reached by these
(`Reached.restrict`). `exec` runs given inputs. A system whose steps another follows, in any number
of steps, reaches what that one reaches (`Reached.follow`).
-/

universe u v

/-- A transition system: `σ` are the states, `ι` what the environment does at a step. -/
structure System (σ : Type u) (ι : Type v) where
  init : σ → Prop
  step : ι → σ → Option σ

namespace System

variable {σ : Type u} {ι : Type v} {S : System σ ι} {P : σ → ι → Prop}

/-- The states that are reached from an initial one by steps that satisfy `P`. -/
inductive Reached (S : System σ ι) (P : σ → ι → Prop) : σ → Prop
  | init {s : σ} (h : S.init s) : Reached S P s
  | step {s s' : σ} (i : ι) (h : Reached S P s) (hp : P s i) (hs : S.step i s = some s') :
    Reached S P s'

/-- What holds initially and is kept by every step holds in every state reached. -/
theorem Reached.invariant {Inv : σ → Prop} (hinit : ∀ s, S.init s → Inv s)
    (hstep : ∀ s i s', Inv s → P s i → S.step i s = some s' → Inv s') {s : σ}
    (h : S.Reached P s) : Inv s := by
  induction h with
  | init h => exact hinit _ h
  | step i _ hp hs ih => exact hstep _ i _ ih hp hs

/-- If a step to a `Good` state is from a `Good` state and satisfies `P`, then so is every step of a
run to a `Good` state. -/
theorem Reached.restrict {Good : σ → Prop} {Q : σ → ι → Prop}
    (hstep : ∀ s i s', S.Reached Q s → S.step i s = some s' → Good s' → Good s ∧ P s i) {s : σ}
    (h : S.Reached Q s) (hs : Good s) : S.Reached P s := by
  induction h with
  | init h => exact .init h
  | step i h _ hi ih =>
    obtain ⟨hgood, hp⟩ := hstep _ i _ h hi hs
    exact (ih hgood).step i hp hi

/-- The state after these inputs, if none is refused on the way. -/
def exec (S : System σ ι) : List ι → σ → Option σ
  | [], s => some s
  | i :: is, s => (S.step i s).bind (S.exec is)

/-- Inputs may be run in two parts, the second from where the first leads. -/
theorem exec_append (is js : List ι) (s : σ) :
    S.exec (is ++ js) s = (S.exec is s).bind (S.exec js) := by
  induction is generalizing s with
  | nil => rfl
  | cons i is ih =>
    rw [List.cons_append, exec, exec, Option.bind_assoc]
    exact congrArg (S.step i s).bind (funext ih)

/-- What every step keeps, a run of given inputs keeps. -/
theorem exec_invariant {Inv : σ → Prop}
    (hstep : ∀ s i s', Inv s → S.step i s = some s' → Inv s') {is : List ι} {s s' : σ} (h : Inv s)
    (hs : S.exec is s = some s') : Inv s' := by
  induction is generalizing s with
  | nil =>
    cases hs
    exact h
  | cons i is ih =>
    obtain ⟨s₁, hs₁, hrest⟩ := Option.bind_eq_some_iff.1 hs
    exact ih (hstep s i s₁ h hs₁) hrest

/-- It is reached, by steps that satisfy `Q` when all inputs do. -/
theorem Reached.exec_of {Q : ι → Prop} {is : List ι} {s s' : σ} (h : S.Reached (fun _ i => Q i) s)
    (his : ∀ i ∈ is, Q i) (hs : S.exec is s = some s') : S.Reached (fun _ i => Q i) s' := by
  induction is generalizing s with
  | nil =>
    cases hs
    exact h
  | cons i is ih =>
    obtain ⟨s₁, hs₁, hrest⟩ := Option.bind_eq_some_iff.1 hs
    have hnext := h.step i (his i List.mem_cons_self) hs₁
    exact ih hnext (fun j hj => his j (List.mem_cons_of_mem _ hj)) hrest

/-- What inputs lead to from a state that is reached is reached. -/
theorem Reached.exec {is : List ι} {s s' : σ} (h : S.Reached (fun _ _ => True) s)
    (hs : S.exec is s = some s') : S.Reached (fun _ _ => True) s' :=
  h.exec_of (fun _ _ => trivial) hs

/-- When `T` follows every step of `S`, by inputs that satisfy `Q`, it reaches by such inputs the
image of what `S` reaches. -/
theorem Reached.follow {τ κ : Type*} {T : System τ κ} {Q : κ → Prop} {f : σ → τ}
    (hinit : ∀ s, S.init s → T.init (f s))
    (hstep : ∀ s i s', S.Reached P s → P s i → S.step i s = some s' →
      ∃ js, (∀ j ∈ js, Q j) ∧ T.exec js (f s) = some (f s')) {s : σ} (h : S.Reached P s) :
    T.Reached (fun _ j => Q j) (f s) := by
  induction h with
  | init h => exact .init (hinit _ h)
  | step i h hp hs ih =>
    obtain ⟨js, hall, hjs⟩ := hstep _ i _ h hp hs
    exact ih.exec_of hall hjs

end System
