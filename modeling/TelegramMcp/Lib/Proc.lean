import Mathlib.Logic.Basic

/-!
# Procedures that act on an environment

A `Proc` returns a value, fails with an error, or performs an action of `F` and goes on with the
response. The environment is not part of it: `Exec p tr r` says that `p` ends with `r` when its
actions and their responses are those of the trace `tr`, and `run` executes `p` under a handler,
nothing happening in between.

`Safe` is for procedures that others run beside. A `Contract` says, in terms of a ghost state `γ`,
which actions are allowed, what a response tells, and how the others may move the state on.
`Safe C p Q E g` says that `p`, started where the state is `g` or further, performs allowed actions
only, and ends where `Q` holds of its value or `E` of its error. Its rules are `Safe.pure`,
`Safe.fail`, `Safe.bind`, `Safe.lift`, `Safe.act` and `Safe.attempt`. Under `Contract.log`, where
the state is the trace itself, it speaks of executions (`Safe.of_exec`). `Once` is for procedures
whose first action is the only one of a kind, which `selected` finds in a trace.
-/

universe u

/-- A procedure with actions `F`, errors `ε` and the result `α`. -/
inductive Proc (F : Type → Type 1) (ε α : Type) : Type 1
  | ok (a : α)
  | fail (e : ε)
  | perform {β : Type} (act : F β) (next : β → Proc F ε α)

namespace Proc

variable {F : Type → Type 1} {ε α β ω : Type}

/-- Two procedures in sequence; an error of the first ends the whole. -/
def bind : Proc F ε α → (α → Proc F ε β) → Proc F ε β
  | .ok a, f => f a
  | .fail e, _ => .fail e
  | .perform act next, f => .perform act fun b => (next b).bind f

instance : Monad (Proc F ε) where
  pure := .ok
  bind := Proc.bind

/-- A check, which performs nothing and ends with its result. -/
def lift : Except ε α → Proc F ε α
  | .ok a => .ok a
  | .error e => .fail e

/-- One action, whose response decides how the procedure ends. -/
def act (f : F β) (k : β → Except ε α) : Proc F ε α := .perform f fun b => lift (k b)

/-- The procedure with its errors changed, as `map_err` does it. -/
def mapError {ε' : Type} (f : ε → ε') : Proc F ε α → Proc F ε' α
  | .ok a => .ok a
  | .fail e => .fail (f e)
  | .perform act next => .perform act fun b => (next b).mapError f

/-- The procedure with its error as a value, which its caller deals with. -/
def attempt {ε' : Type} : Proc F ε α → Proc F ε' (Except ε α)
  | .ok a => .ok (.ok a)
  | .fail e => .ok (.error e)
  | .perform act next => .perform act fun b => (next b).attempt

/-- A procedure that is through goes on with what follows. -/
@[simp] theorem ok_bind (a : α) (f : α → Proc F ε β) : (Proc.ok a : Proc F ε α) >>= f = f a := rfl

/-- A value is lifted to a procedure that performs nothing. -/
@[simp] theorem lift_ok (a : α) : (lift (.ok a) : Proc F ε α) = .ok a := rfl

/-- Checks in sequence: when the last of them fails, so does the procedure that makes them. -/
theorem lift_bind_of_error {x : Except ε α} {f : α → Except ε β} {k : α → Proc F ε ω} {e : ε}
    (h : (x >>= f) = .error e) (hk : ∀ a, f a = .error e → k a = .fail e) :
    (lift x >>= k) = .fail e := by
  cases x with
  | ok a => exact hk a h
  | error e' =>
    cases h
    rfl

/-- When all of them are passed, the procedure is what follows them. -/
theorem lift_bind_of_ok {P : Proc F ε ω → Prop} {x : Except ε α} {f : α → Except ε β}
    {k : α → Proc F ε ω} {b : β} (h : (x >>= f) = .ok b) (hk : ∀ a, f a = .ok b → P (k a)) :
    P (lift x >>= k) := by
  cases x with
  | ok a => exact hk a h
  | error e => cases h

/-! ## Executions -/

/-- An action with the response it was given, which is one entry of a trace. -/
structure Performed (F : Type → Type 1) : Type 1 where
  {β : Type}
  act : F β
  response : β

/-- How a procedure ends, for the actions and responses of a trace. -/
inductive Exec : Proc F ε α → List (Performed F) → Except ε α → Prop
  | ok (a : α) : Exec (.ok a) [] (.ok a)
  | fail (e : ε) : Exec (.fail e) [] (.error e)
  | perform {δ : Type} (act : F δ) (next : δ → Proc F ε α) (b : δ) {tr : List (Performed F)}
      {r : Except ε α} (h : Exec (next b) tr r) : Exec (.perform act next) (⟨act, b⟩ :: tr) r

namespace Exec

variable {tr : List (Performed F)}

/-- A sequence that starts with a check goes on when the check is passed. -/
theorem of_lift_bind {x : Except ε α} {f : α → Proc F ε β} {r : Except ε β}
    (h : Exec (lift x >>= f) tr r) : tr = [] ∨ ∃ a, x = .ok a ∧ Exec (f a) tr r := by
  cases x with
  | ok a => exact .inr ⟨a, rfl, h⟩
  | error e =>
    cases h
    exact .inl rfl

/-- A sequence that starts with an action performs it and goes on with its response. -/
theorem of_act_bind {δ : Type} {a : F δ} {k : δ → Except ε α} {f : α → Proc F ε β}
    {r : Except ε β} (h : Exec (Proc.act a k >>= f) tr r) :
    ∃ b tr', tr = ⟨a, b⟩ :: tr' ∧ Exec (lift (k b) >>= f) tr' r := by
  cases h with
  | perform _ _ b h => exact ⟨b, _, rfl, h⟩

/-- A check ends as its result says, with an empty trace. -/
theorem of_lift {x : Except ε α} {r : Except ε α} (h : Exec (lift x : Proc F ε α) tr r) :
    tr = [] ∧ r = x := by
  cases x with
  | ok a =>
    cases h
    exact ⟨rfl, rfl⟩
  | error e =>
    cases h
    exact ⟨rfl, rfl⟩

/-- A sequence fails in its first part, or its second goes on where that ended. -/
theorem of_bind {x : Proc F ε α} {f : α → Proc F ε β} {r : Except ε β} (h : Exec (x >>= f) tr r) :
    (∃ e, Exec x tr (.error e) ∧ r = .error e) ∨
      ∃ a tr₁ tr₂, tr = tr₁ ++ tr₂ ∧ Exec x tr₁ (.ok a) ∧ Exec (f a) tr₂ r := by
  induction x generalizing tr with
  | ok a => exact .inr ⟨a, [], tr, rfl, .ok a, h⟩
  | fail e =>
    cases h
    exact .inl ⟨e, .fail e, rfl⟩
  | perform act next ih =>
    cases h with
    | perform _ _ b h =>
      rcases ih b h with ⟨e, hx, rfl⟩ | ⟨a, tr₁, tr₂, rfl, hx, hf⟩
      · exact .inl ⟨e, .perform act next b hx, rfl⟩
      · exact .inr ⟨a, _, tr₂, rfl, .perform act next b hx, hf⟩

/-- A sequence that succeeds has succeeded in both parts, whose traces make its own. -/
theorem of_bind_ok {x : Proc F ε α} {f : α → Proc F ε β} {b : β}
    (h : Exec (x >>= f) tr (.ok b)) :
    ∃ a tr₁ tr₂, tr = tr₁ ++ tr₂ ∧ Exec x tr₁ (.ok a) ∧ Exec (f a) tr₂ (.ok b) := by
  rcases of_bind h with ⟨e, -, herror⟩ | h
  · cases herror
  · exact h

/-- An execution with the errors renamed is an execution, with its error renamed. -/
theorem of_mapError {ε' : Type} {g : ε → ε'} {p : Proc F ε α} {r : Except ε' α}
    (h : Exec (p.mapError g) tr r) : ∃ r', r = r'.mapError g ∧ Exec p tr r' := by
  induction p generalizing tr with
  | ok a =>
    cases h
    exact ⟨.ok a, rfl, .ok a⟩
  | fail e =>
    cases h
    exact ⟨.error e, rfl, .fail e⟩
  | perform act next ih =>
    cases h with
    | perform _ _ b h =>
      obtain ⟨r', hr, hex⟩ := ih b h
      exact ⟨r', hr, .perform act next b hex⟩

/-- With its errors renamed, a procedure succeeds only where it does itself. -/
theorem of_mapError_ok {ε' : Type} {g : ε → ε'} {p : Proc F ε α} {a : α}
    (h : Exec (p.mapError g) tr (.ok a)) : Exec p tr (.ok a) := by
  obtain ⟨r, hr, hex⟩ := of_mapError h
  cases r with
  | ok a' =>
    cases hr
    exact hex
  | error e => cases hr

/-- What is attempted does not fail: its error is a value. -/
theorem of_attempt {ε' : Type} {p : Proc F ε α} {r : Except ε' (Except ε α)}
    (h : Exec p.attempt tr r) : ∃ r', r = .ok r' ∧ Exec p tr r' := by
  induction p generalizing tr with
  | ok a =>
    cases h
    exact ⟨.ok a, rfl, .ok a⟩
  | fail e =>
    cases h
    exact ⟨.error e, rfl, .fail e⟩
  | perform act next ih =>
    cases h with
    | perform _ _ b h =>
      obtain ⟨r', hr, hex⟩ := ih b h
      exact ⟨r', hr, .perform act next b hex⟩

end Exec

/-- The result and the environment after a procedure, when a handler performs its actions. -/
def run (handle : {β : Type} → F β → ω → β × ω) : Proc F ε α → ω → Except ε α × ω
  | .ok a, w => (.ok a, w)
  | .fail e, w => (.error e, w)
  | .perform act next, w => (next (handle act w).1).run handle (handle act w).2

section
variable (handle : {β : Type} → F β → ω → β × ω) (w : ω)

/-- A lifted result is returned without an action. -/
@[simp] theorem run_lift (r : Except ε α) : (lift r : Proc F ε α).run handle w = (r, w) := by
  cases r <;> rfl

/-- A run under a handler of the actions is an execution. -/
theorem exec_run (p : Proc F ε α) : ∃ tr, Exec p tr (p.run handle w).1 := by
  induction p generalizing w with
  | ok a => exact ⟨[], .ok a⟩
  | fail e => exact ⟨[], .fail e⟩
  | perform act next ih =>
    obtain ⟨tr, htr⟩ := ih (handle act w).1 (handle act w).2
    exact ⟨_, .perform act next _ htr⟩

/-- A sequence runs its first part, then the rest on what that leaves. -/
theorem run_bind (x : Proc F ε α) (f : α → Proc F ε β) :
    (x >>= f).run handle w =
      match x.run handle w with
      | (.ok a, w') => (f a).run handle w'
      | (.error e, w') => (.error e, w') := by
  induction x generalizing w with
  | ok a => rfl
  | fail e => rfl
  | perform act next ih => exact ih _ _

end

/-! ## Contracts -/

/-- What a procedure may rely on and what it must keep to, in terms of a ghost state. -/
structure Contract (F : Type → Type 1) (γ : Type u) where
  /-- How others may move the state on. -/
  le : γ → γ → Prop
  refl : ∀ g, le g g
  trans : ∀ {g g' g''}, le g g' → le g' g'' → le g g''
  /-- The actions allowed in a state. -/
  allowed : {β : Type} → F β → γ → Prop
  /-- The states after an action, by its response. -/
  after : {β : Type} → F β → γ → β → γ → Prop

section
variable {γ : Type u} (C : Contract F γ)

/-- Started in the state `g` or further, the procedure keeps to the contract and ends in `Q` or in
`E`. -/
def Safe : Proc F ε α → (α → γ → Prop) → (ε → γ → Prop) → γ → Prop
  | .ok a, Q, _, g => ∀ g', C.le g g' → Q a g'
  | .fail e, _, E, g => ∀ g', C.le g g' → E e g'
  | .perform act next, Q, E, g => ∀ g₁, C.le g g₁ →
    C.allowed act g₁ ∧ ∀ b g₂, C.after act g₁ b g₂ → (next b).Safe Q E g₂

/-- The end of a procedure, as `Q` for its value or `E` for its error. -/
def Ends (Q : α → γ → Prop) (E : ε → γ → Prop) (g : γ) : Except ε α → Prop
  | .ok a => Q a g
  | .error e => E e g

/-- The trace as the state: nothing else acts, and everything is allowed. -/
def Contract.log (F : Type → Type 1) : Contract F (List (Performed F)) where
  le := Eq
  refl _ := rfl
  trans := Eq.trans
  allowed _ _ := True
  after act tr b tr' := tr' = tr ++ [⟨act, b⟩]

/-- The trace as the state, where what came before an action decides whether it is allowed. -/
def Contract.justified (ok : List (Performed F) → {β : Type} → F β → Prop) :
    Contract F (List (Performed F)) where
  le := Eq
  refl _ := rfl
  trans := Eq.trans
  allowed act tr := ok tr act
  after act tr b tr' := tr' = tr ++ [⟨act, b⟩]

/-- The contract that allows only these actions, whatever happens between them. -/
def Contract.only (ok : {β : Type} → F β → Prop) : Contract F Unit where
  le _ _ := True
  refl _ := trivial
  trans _ _ := trivial
  allowed act _ := ok act
  after _ _ _ _ := True

end

namespace Safe

variable {γ : Type u} {C : Contract F γ} {p x : Proc F ε α} {f : α → Proc F ε β}
  {Q : α → γ → Prop} {R : β → γ → Prop} {E : ε → γ → Prop} {g g' : γ}

/-- What is safe now is safe after anything that the others may do in between. -/
theorem mono (h : Safe C p Q E g) (hg : C.le g g') : Safe C p Q E g' := by
  cases p with
  | ok a => exact fun g₁ h₁ => h g₁ (C.trans hg h₁)
  | fail e => exact fun g₁ h₁ => h g₁ (C.trans hg h₁)
  | perform act next => exact fun g₁ h₁ => h g₁ (C.trans hg h₁)

/-- A program that is through is safe when the result is, now and after anything the contract
allows. -/
theorem pure {a : α} (h : ∀ g', C.le g g' → Q a g') : Safe C (Pure.pure a) Q E g := h

/-- A procedure that has failed is safe when its error is, now and later. -/
theorem fail {e : ε} (h : ∀ g', C.le g g' → E e g') : Safe C (.fail e) Q E g := h

/-- A sequence is safe when its second part is, wherever the first may end. -/
theorem bind (hx : Safe C x Q E g) (hf : ∀ a g', Q a g' → Safe C (f a) R E g') :
    Safe C (x >>= f) R E g := by
  induction x generalizing g with
  | ok a => exact hf a g (hx g (C.refl g))
  | fail e => exact hx
  | perform act next ih =>
    intro g₁ h₁
    obtain ⟨hallowed, hnext⟩ := hx g₁ h₁
    exact ⟨hallowed, fun b g₂ h₂ => ih b (hnext b g₂ h₂)⟩

/-- After its first action, a procedure is as safe as it was. -/
theorem next {δ : Type} {a : F δ} {k : δ → Proc F ε α} (h : Safe C (.perform a k) Q E g) (b : δ)
    (g' : γ) (ha : C.after a g b g') : Safe C (k b) Q E g' := (h g (C.refl g)).2 b g' ha

/-- What is safe with some ends is safe with weaker ones. -/
theorem imp {Q' : α → γ → Prop} {E' : ε → γ → Prop} (h : Safe C p Q E g)
    (hQ : ∀ a g', Q a g' → Q' a g') (hE : ∀ e g', E e g' → E' e g') : Safe C p Q' E' g := by
  induction p generalizing g with
  | ok a => exact fun g' hle => hQ a g' (h g' hle)
  | fail e => exact fun g' hle => hE e g' (h g' hle)
  | perform act next ih =>
    intro g₁ h₁
    obtain ⟨hallowed, hnext⟩ := h g₁ h₁
    exact ⟨hallowed, fun b g₂ h₂ => ih b (hnext b g₂ h₂)⟩

/-- A check is safe when both of its results are. -/
theorem lift {r : Except ε α} (hQ : ∀ a g', r = .ok a → C.le g g' → Q a g')
    (hE : ∀ e g', r = .error e → C.le g g' → E e g') : Safe C (Proc.lift r) Q E g := by
  cases r with
  | ok a => exact fun g' h => hQ a g' rfl h
  | error e => exact fun g' h => hE e g' rfl h

/-- One action: it is allowed, and whatever it tells ends well. -/
theorem act {δ : Type} {a : F δ} {k : δ → Except ε α}
    (hallowed : ∀ g₁, C.le g g₁ → C.allowed a g₁)
    (hQ : ∀ g₁ b g₂ v g₃, C.le g g₁ → C.after a g₁ b g₂ → k b = .ok v → C.le g₂ g₃ → Q v g₃)
    (hE : ∀ g₁ b g₂ e g₃, C.le g g₁ → C.after a g₁ b g₂ → k b = .error e → C.le g₂ g₃ → E e g₃) :
    Safe C (Proc.act a k) Q E g := fun g₁ h₁ =>
  ⟨hallowed g₁ h₁, fun b g₂ h₂ => lift (fun v g₃ hv h₃ => hQ g₁ b g₂ v g₃ h₁ h₂ hv h₃)
    fun e g₃ he h₃ => hE g₁ b g₂ e g₃ h₁ h₂ he h₃⟩

/-- One that leaves the state as it is, where others keep `I` too. -/
theorem act_same {δ : Type} {a : F δ} {k : δ → Except ε α} {I : γ → Prop}
    (hallowed : ∀ g, C.allowed a g) (hsame : ∀ g₁ b g₂, C.after a g₁ b g₂ → g₂ = g₁)
    (hle : ∀ {g g'}, I g → C.le g g' → I g') (h : I g) :
    Safe C (Proc.act a k) (fun _ => I) (fun _ => I) g := by
  have hkept {g₁ b g₂ g₃} (h₁ : C.le g g₁) (ha : C.after a g₁ b g₂) (h₃ : C.le g₂ g₃) : I g₃ := by
    cases hsame g₁ b g₂ ha
    exact hle (hle h h₁) h₃
  exact act (fun g₁ _ => hallowed g₁) (fun _ _ _ _ _ h₁ ha _ h₃ => hkept h₁ ha h₃)
    fun _ _ _ _ _ h₁ ha _ h₃ => hkept h₁ ha h₃

/-- With nothing to say of the result, a program that is through is safe. -/
theorem pure_true {a : α} :
    Safe C (Pure.pure a : Proc F ε α) (fun _ _ => True) (fun _ _ => True) g := fun _ _ => trivial

/-- With nothing to say of the result, a check is safe. -/
theorem lift_true (r : Except ε α) :
    Safe C (Proc.lift r : Proc F ε α) (fun _ _ => True) (fun _ _ => True) g :=
  lift (fun _ _ _ _ => trivial) fun _ _ _ _ => trivial

/-- An action that is always allowed, when nothing need be known of its end. -/
theorem act_true {δ : Type} {a : F δ} {k : δ → Except ε α} (ha : ∀ g, C.allowed a g) :
    Safe C (Proc.act a k) (fun _ _ => True) (fun _ _ => True) g :=
  act (fun g _ => ha g) (fun _ _ _ _ _ _ _ _ _ => trivial) fun _ _ _ _ _ _ _ _ _ => trivial

/-- In sequence, when nothing need be known of how the first ends. -/
theorem seq (hx : Safe C x (fun _ _ => True) (fun _ _ => True) g)
    (hf : ∀ a g', Safe C (f a) (fun _ _ => True) (fun _ _ => True) g') :
    Safe C (x >>= f) (fun _ _ => True) (fun _ _ => True) g :=
  hx.bind fun a g' _ => hf a g'

/-- With its errors renamed a procedure is safe when the renamed errors are. -/
theorem mapError {ε' : Type} {h : ε → ε'} {E' : ε' → γ → Prop}
    (hp : Safe C p Q (fun e g => E' (h e) g) g) : Safe C (p.mapError h) Q E' g := by
  induction p generalizing g with
  | ok a => exact hp
  | fail e => exact hp
  | perform act next ih =>
    intro g₁ h₁
    obtain ⟨hallowed, hnext⟩ := hp g₁ h₁
    exact ⟨hallowed, fun b g₂ h₂ => ih b (hnext b g₂ h₂)⟩

/-- With its errors as values a procedure is safe when the values are. -/
theorem attempt {ε' : Type} {E' : ε' → γ → Prop} (hp : Safe C p Q E g) :
    Safe C (p.attempt : Proc F ε' (Except ε α)) (fun r g => Ends Q E g r) E' g := by
  induction p generalizing g with
  | ok a => exact hp
  | fail e => exact hp
  | perform act next ih =>
    intro g₁ h₁
    obtain ⟨hallowed, hnext⟩ := hp g₁ h₁
    exact ⟨hallowed, fun b g₂ h₂ => ih b (hnext b g₂ h₂)⟩

/-- When actions too only move the state on, the procedure ends where it started or further. -/
theorem forward (hafter : ∀ {δ : Type} (act : F δ) g b g', C.after act g b g' → C.le g g')
    {g₀ : γ} (h₀ : C.le g₀ g) (hp : Safe C p Q E g) :
    Safe C p (fun a g' => Q a g' ∧ C.le g₀ g') E g := by
  induction p generalizing g with
  | ok a => exact fun g' h => ⟨hp g' h, C.trans h₀ h⟩
  | fail e => exact hp
  | perform act next ih =>
    intro g₁ h₁
    obtain ⟨hallowed, hnext⟩ := hp g₁ h₁
    refine ⟨hallowed, fun b g₂ h₂ => ih b ?_ (hnext b g₂ h₂)⟩
    exact C.trans h₀ (C.trans h₁ (hafter act g₁ b g₂ h₂))

/-- Under the contract of the trace, an action adds itself and its response. -/
theorem log_perform {Q : α → List (Performed F) → Prop} {E : ε → List (Performed F) → Prop}
    {tr : List (Performed F)} {δ : Type} {act : F δ} {next : δ → Proc F ε α}
    (h : ∀ b, Safe (.log F) (next b) Q E (tr ++ [⟨act, b⟩])) :
    Safe (.log F) (.perform act next) Q E tr := by
  intro tr₁ h₁
  refine ⟨trivial, fun b tr₂ h₂ => ?_⟩
  rw [show tr₂ = _ from h₂, ← show tr = tr₁ from h₁]
  exact h b

/-- Under the contract that logs the trace, an error comes with the trace until then. -/
theorem log_fail {Q : α → List (Performed F) → Prop} {E : ε → List (Performed F) → Prop}
    {tr : List (Performed F)} {e : ε} (h : E e tr) : Safe (.log F) (.fail e) Q E tr := by
  intro tr' heq
  rw [← show tr = tr' from heq]
  exact h

/-- Under the contract of the trace, every execution ends as promised. -/
theorem of_exec {Q : α → List (Performed F) → Prop} {E : ε → List (Performed F) → Prop}
    {tr₀ tr : List (Performed F)} {r : Except ε α} (h : Safe (.log F) p Q E tr₀)
    (hex : Exec p tr r) : Ends Q E (tr₀ ++ tr) r := by
  induction hex generalizing tr₀ with
  | ok a =>
    rw [List.append_nil]
    exact h tr₀ rfl
  | fail e =>
    rw [List.append_nil]
    exact h tr₀ rfl
  | perform act next b hex ih =>
    have hnext := (h tr₀ rfl).2 b _ rfl
    simpa only [List.append_assoc, List.singleton_append] using ih hnext

/-- Under a contract that allows only these, every execution performs no others. -/
theorem only_of_exec {ok : {β : Type} → F β → Prop} {Q : α → Unit → Prop} {E : ε → Unit → Prop}
    {tr : List (Performed F)} {r : Except ε α} (h : Safe (.only ok) p Q E ())
    (hex : Exec p tr r) : ∀ x ∈ tr, ok x.act := by
  induction hex with
  | ok a => exact fun _ hx => nomatch hx
  | fail e => exact fun _ hx => nomatch hx
  | perform act next b hex ih =>
    obtain ⟨hallowed, hnext⟩ := h () trivial
    intro x hx
    rcases List.mem_cons.1 hx with rfl | hx
    · exact hallowed
    · exact ih (hnext b () trivial) x hx

end Safe

/-! ## Procedures that act once -/

section
variable {κ : Type} (sel : {β : Type} → F β → Option κ)

/-- No selected action is ever performed. -/
abbrev Silent (p : Proc F ε α) : Prop :=
  p.Safe (.only fun act => sel act = none) (fun _ _ => True) (fun _ _ => True) ()

/-- The selected action that comes first, whatever the responses before it are. -/
def head : Proc F ε α → Option κ
  | .perform act _ => sel act
  | _ => none

/-- The selected actions of a trace, in their order. -/
def selected (tr : List (Performed F)) : List κ := tr.filterMap fun x => sel x.act

/-- A selected action comes first and is the only one, or there is none. -/
def Once : Proc F ε α → Prop
  | .perform act next =>
    sel act ≠ none ∧ (∀ b, (next b).Silent sel) ∨ (Proc.perform act next).Silent sel
  | _ => True

variable {sel} {p : Proc F ε α}

/-- Of no actions none is selected. -/
@[simp] theorem selected_nil : selected sel ([] : List (Performed F)) = [] := rfl

/-- A check performs nothing, so the first action is that of what comes after it. -/
theorem head_lift_bind {x : Except ε α} {f : α → Proc F ε β} :
    (lift x >>= f).head sel = x.toOption.bind fun a => (f a).head sel := by
  cases x with
  | ok a => rfl
  | error e => rfl

/-- An action is the first action of what starts with it. -/
theorem head_act_bind {δ : Type} {a : F δ} {k : δ → Except ε α} {f : α → Proc F ε β} :
    (act a k >>= f).head sel = sel a := rfl

/-- A procedure that performs no selected action has none first. -/
theorem Silent.head_eq (h : p.Silent sel) : p.head sel = none := by
  cases p with
  | ok a => rfl
  | fail e => rfl
  | perform act next => exact (h () trivial).1

/-- A procedure without any selected action has at most one. -/
theorem Silent.once (h : p.Silent sel) : p.Once sel := by
  cases p with
  | ok a => trivial
  | fail e => trivial
  | perform act next => exact .inr h

/-- After its first action such a procedure performs no selected one, or one at most if this was
none. -/
theorem Once.next {δ : Type} {a : F δ} {k : δ → Proc F ε α} (h : (Proc.perform a k).Once sel)
    (b : δ) : (k b).Silent sel := by
  rcases h with ⟨-, h⟩ | h
  · exact h b
  · exact (h () trivial).2 b () trivial

/-- A check, and what comes after it when it is passed. -/
theorem Once.check {x : Except ε α} {f : α → Proc F ε β} (hf : ∀ a, (f a).Once sel) :
    (lift x >>= f).Once sel := by
  cases x with
  | ok a => exact hf a
  | error e => trivial

/-- A selected action, and none after it. -/
theorem Once.act {δ : Type} {a : F δ} {k : δ → Except ε α} {f : α → Proc F ε β}
    (ha : sel a ≠ none) (hf : ∀ v, (f v).Silent sel) : (Proc.act a k >>= f).Once sel :=
  .inl ⟨ha, fun b => Safe.seq (Safe.lift_true (k b)) fun v _ => hf v⟩

end

end Proc
