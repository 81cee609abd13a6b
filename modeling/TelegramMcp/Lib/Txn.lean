import Mathlib.Logic.Basic

/-!
# Statement scripts, faults and transactions

A `Script` is a program of database statements in sequence: each statement reads and changes the
contents `σ` and hands its result to the statements after it. `Script.eval` is its meaning when
nothing goes wrong. `Script.run` executes it under a `Schedule`, which lets one statement fail with
an error or lets the process die before it. An `Op` is a script sent over a connection, each
statement committing by itself or all of them between `BEGIN` and `COMMIT`; `Op.call` gives its
outcome and the durable contents it leaves.

`Op.AtomicAt` says that a call under a schedule left everything or nothing. Every transaction is
atomic (`Op.atomicAt_transaction`), and so is a bare statement (`Op.atomicAt_statement`). Two bare
statements are atomic except when the schedule strikes the second (`Op.atomicAt_pair_iff`).

A call whose statements do not depend on a part of the contents ends the same when that part is
forgotten (`Op.call_commutes`).
-/

namespace Txn

/-- A program of statements in sequence, over database contents `σ`, with the result `α`. -/
inductive Script (σ α : Type) : Type 1
  | done (a : α) : Script σ α
  | exec {β : Type} (stmt : σ → β × σ) (next : β → Script σ α) : Script σ α

/-- What goes wrong at a statement: it fails with an error and has no effect, or the process dies
before it. -/
inductive Fault (ε : Type)
  | error (e : ε)
  | crash
  deriving DecidableEq

/-- `some (n, f)`: the fault `f` strikes after `n` successful statements. `none`: no fault. -/
abbrev Schedule (ε : Type) := Option (Nat × Fault ε)

/-- How a call ended, as its caller sees it; a caller does not see a crash. -/
inductive Outcome (ε α : Type)
  | ok (a : α)
  | err (e : ε)
  | crashed
  deriving DecidableEq

variable {σ α β ε : Type}

/-- The caller has no result: the call returned an error, or did not return. -/
def Outcome.Failed (r : Outcome ε α) : Prop := ∀ a, r ≠ .ok a

namespace Script

/-- Sequencing of scripts: what follows may depend on what the first returned. -/
def bind : Script σ α → (α → Script σ β) → Script σ β
  | .done a, k => k a
  | .exec stmt next, k => .exec stmt fun b => (next b).bind k

instance : Monad (Script σ) where
  pure := .done
  bind := Script.bind

/-- One statement, which returns something and changes the contents. -/
def statement (stmt : σ → α × σ) : Script σ α := .exec stmt .done

/-- A statement that changes the contents and returns nothing. -/
def modify (f : σ → σ) : Script σ Unit := statement fun db => ((), f db)

/-- A statement that reads the contents and changes nothing. -/
def query (f : σ → α) : Script σ α := statement fun db => (f db, db)

/-- A script after the `BEGIN` of its transaction, with the contents it began with. -/
def begun (s : Script σ α) : Script σ α := .exec (fun db => ((), db)) fun _ => s

/-- The result and the contents after a script in which no statement fails. -/
def eval : Script σ α → σ → α × σ
  | .done a, db => (a, db)
  | .exec stmt next, db => (next (stmt db).1).eval (stmt db).2

/-- The outcome, the contents reached and what is left of the schedule. -/
def run : Script σ α → Schedule ε → σ → Outcome ε α × σ × Schedule ε
  | .done a, flt, db => (.ok a, db, flt)
  | .exec _ _, some (0, .error e), db => (.err e, db, none)
  | .exec _ _, some (0, .crash), db => (.crashed, db, none)
  | .exec stmt next, some (n + 1, f), db => (next (stmt db).1).run (some (n, f)) (stmt db).2
  | .exec stmt next, none, db => (next (stmt db).1).run none (stmt db).2

/-- A script that is through returns its value and changes nothing. -/
@[simp] theorem eval_pure (a : α) (db : σ) : (pure a : Script σ α).eval db = (a, db) := rfl

/-- A statement is evaluated on the contents as they are. -/
@[simp] theorem eval_statement (stmt : σ → α × σ) (db : σ) :
    (statement stmt).eval db = stmt db := rfl

/-- A write leaves what its function makes of the contents. -/
@[simp] theorem eval_modify (f : σ → σ) (db : σ) : (modify f).eval db = ((), f db) := rfl

/-- A query returns what its function says of the contents. -/
@[simp] theorem eval_query (f : σ → α) (db : σ) : (query f).eval db = (f db, db) := rfl

/-- A sequence evaluates its first script, then the rest on the contents that leaves. -/
@[simp] theorem eval_bind (s : Script σ α) (k : α → Script σ β) (db : σ) :
    (s >>= k).eval db = (k (s.eval db).1).eval (s.eval db).2 := by
  change (s.bind k).eval db = _
  induction s generalizing db with
  | done a => rfl
  | exec stmt next ih => exact ih _ _

/-- Without a fault a script ends as it evaluates. -/
theorem run_none (s : Script σ α) (db : σ) :
    s.run (none : Schedule ε) db = (.ok (s.eval db).1, (s.eval db).2, none) := by
  induction s generalizing db with
  | done a => rfl
  | exec stmt next ih => exact ih _ _

/-- A script that ends well under a schedule ends as it evaluates. -/
theorem run_ok (s : Script σ α) {flt rest : Schedule ε} {db db' : σ} {a : α}
    (h : s.run flt db = (.ok a, db', rest)) : s.eval db = (a, db') := by
  induction s generalizing flt db with
  | done b => cases h; rfl
  | exec stmt next ih =>
    match flt with
    | some (0, .error e) => cases h
    | some (0, .crash) => cases h
    | some (n + 1, f) => exact ih _ h
    | none => exact ih _ h

/-- Without a crash in the schedule a script does not crash, and what is left has none either. -/
theorem run_ne_crashed (s : Script σ α) {flt : Schedule ε} (hf : ∀ n, flt ≠ some (n, .crash))
    (db : σ) : (s.run flt db).1 ≠ .crashed ∧ ∀ n, (s.run flt db).2.2 ≠ some (n, .crash) := by
  induction s generalizing flt db with
  | done a => exact ⟨nofun, hf⟩
  | exec stmt next ih =>
    match flt with
    | some (0, .error e) => exact ⟨nofun, nofun⟩
    | some (0, .crash) => exact absurd rfl (hf 0)
    | some (n + 1, .crash) => exact absurd rfl (hf (n + 1))
    | some (n + 1, .error e) => exact ih _ (fun k h => by cases h) _
    | none => exact ih _ (fun k h => by cases h) _

end Script

/-- A script sent over a connection: in a transaction, or each statement by itself. -/
structure Op (σ α : Type) where
  transactional : Bool
  body : Script σ α

namespace Op

/-- The body on the bare connection, each statement committing by itself. -/
def bare (body : Script σ α) : Op σ α := ⟨false, body⟩

/-- The body between `BEGIN` and `COMMIT`, which is rolled back when it does not get there. -/
def transaction (body : Script σ α) : Op σ α := ⟨true, body⟩

/-- The result and the contents after a call in which nothing fails. -/
def eval (op : Op σ α) (db : σ) : α × σ := op.body.eval db

/-- The outcome of a call and the durable contents it leaves. In a transaction `BEGIN` is the
statement before the body and `COMMIT` the one after it, and anything but a successful `COMMIT`
rolls back. A crash scheduled right after the last statement strikes before the caller sees the
result. -/
def call (op : Op σ α) (flt : Schedule ε) (db : σ) : Outcome ε α × σ :=
  if op.transactional then
    match op.body.begun.run flt db with
    | (.ok _, _, some (0, .error e)) => (.err e, db)
    | (.ok _, _, some (0, .crash)) => (.crashed, db)
    | (.ok _, db', some (1, .crash)) => (.crashed, db')
    | (.ok a, db', _) => (.ok a, db')
    | (.err e, _, _) => (.err e, db)
    | (.crashed, _, _) => (.crashed, db)
  else
    match op.body.run flt db with
    | (.ok _, db', some (0, .crash)) => (.crashed, db')
    | (r, db', _) => (r, db')

/-- A call without a fault ends as its body evaluates. -/
@[simp] theorem call_none (op : Op σ α) (db : σ) :
    op.call (none : Schedule ε) db = (.ok (op.eval db).1, (op.eval db).2) := by
  unfold call
  split <;> rw [Script.run_none] <;> rfl

/-- A call that ends well under a schedule ends as it evaluates. -/
theorem call_ok {op : Op σ α} {flt : Schedule ε} {db db' : σ} {a : α}
    (h : op.call flt db = (.ok a, db')) : op.eval db = (a, db') := by
  unfold call at h
  split at h
  · cases hr : op.body.begun.run flt db with
    | mk r p =>
      obtain ⟨db₁, rest⟩ := p
      have hev : ∀ b, r = .ok b → op.eval db = (b, db₁) := by
        rintro b rfl
        exact Script.run_ok op.body.begun hr
      rw [hr] at h
      split at h <;> cases h
      next heq => cases heq; exact hev a rfl
  · cases hr : op.body.run flt db with
    | mk r p =>
      obtain ⟨db₁, rest⟩ := p
      rw [hr] at h
      split at h
      · cases h
      · next heq =>
        cases heq; cases h
        exact Script.run_ok _ hr

/-- Without a crash in the schedule a call does not crash. -/
theorem call_ne_crashed (op : Op σ α) {flt : Schedule ε} (hf : ∀ n, flt ≠ some (n, .crash))
    (db : σ) : (op.call flt db).1 ≠ .crashed := by
  unfold call
  split
  · obtain ⟨h, hrest⟩ := op.body.begun.run_ne_crashed hf db
    split <;> simp_all
  · obtain ⟨h, hrest⟩ := op.body.run_ne_crashed hf db
    split <;> simp_all

/-- A read leaves the contents as they are, under any schedule. -/
@[simp] theorem call_query_snd (f : σ → α) (flt : Schedule ε) (db : σ) :
    ((bare (.query f)).call flt db).2 = db := by
  match flt with
  | some (0, .error e) | some (0, .crash) | some (1, .crash) | some (1, .error e)
  | some (n + 2, f) | none => rfl

/-- A call under a schedule left everything or nothing: nothing changed when the caller sees an
error, and after a crash the contents are the old ones or those of the completed call. -/
def AtomicAt (op : Op σ α) (flt : Schedule ε) (db : σ) : Prop :=
  match op.call flt db with
  | (.ok _, _) => True
  | (.err _, db') => db' = db
  | (.crashed, db') => db' = db ∨ db' = (op.eval db).2

/-- A transaction is atomic under every schedule, a crash included. -/
theorem atomicAt_transaction (body : Script σ α) (flt : Schedule ε) (db : σ) :
    (transaction body).AtomicAt flt db := by
  unfold AtomicAt call transaction
  simp only [if_true]
  cases hr : body.begun.run flt db with
  | mk r p =>
    obtain ⟨db₁, rest⟩ := p
    cases r with
    | ok a =>
      have hev : body.eval db = (a, db₁) := Script.run_ok body.begun hr
      match rest with
      | some (0, .error e) => exact rfl
      | some (0, .crash) => exact .inl rfl
      | some (1, .crash) => exact .inr (congrArg Prod.snd hev).symm
      | some (1, .error e) | some (n + 2, f) | none => exact trivial
    | err e => exact rfl
    | crashed => exact .inl rfl

/-- One statement on a bare connection is atomic under every schedule. -/
theorem atomicAt_statement (stmt : σ → α × σ) (flt : Schedule ε) (db : σ) :
    (bare (Script.statement stmt)).AtomicAt flt db := by
  match flt with
  | some (0, .error e) => exact rfl
  | some (0, .crash) => exact .inl rfl
  | some (1, .crash) => exact .inr rfl
  | some (1, .error e) | some (n + 2, f) | none => exact trivial

/-- An atomic call that returns an error has left the contents as they were. -/
theorem AtomicAt.err {op : Op σ α} {flt : Schedule ε} {db db' : σ} {e : ε}
    (h : op.AtomicAt flt db) (hcall : op.call flt db = (.err e, db')) : db' = db := by
  rwa [AtomicAt, hcall] at h

/-- An atomic call that crashes has left the contents as they were, or has its whole effect. -/
theorem AtomicAt.crashed {op : Op σ α} {flt : Schedule ε} {db db' : σ}
    (h : op.AtomicAt flt db) (hcall : op.call flt db = (.crashed, db')) :
    db' = db ∨ db' = (op.eval db).2 := by
  rwa [AtomicAt, hcall] at h

/-- An atomic call leaves the contents as they were or has its whole effect, however it ends. -/
theorem AtomicAt.snd {op : Op σ α} {flt : Schedule ε} {db : σ} (h : op.AtomicAt flt db) :
    (op.call flt db).2 = db ∨ (op.call flt db).2 = (op.eval db).2 := by
  cases hcall : op.call flt db with
  | mk out db' =>
    cases out with
    | ok a => exact .inr (congrArg Prod.snd (call_ok hcall)).symm
    | err e => exact .inl (h.err hcall)
    | crashed => exact h.crashed hcall

/-- Two statements on a bare connection, the second of which changes the contents. -/
def pair (first : σ → α × σ) (second : σ → σ) : Op σ α :=
  bare (.exec first fun a => .exec (fun db => ((), second db)) fun _ => .done a)

/-- How a call of two bare statements ends, and what it leaves. -/
theorem pair_call {first : σ → α × σ} {second : σ → σ} {flt : Schedule ε} {db db' : σ}
    {r : Outcome ε α} (h : (pair first second).call flt db = (r, db')) :
    (r = .ok (first db).1 ∨ r = .crashed) ∧ db' = second (first db).2 ∨
      r.Failed ∧ (db' = db ∨ db' = (first db).2) := by
  match flt with
  | some (0, .error e) | some (0, .crash) =>
    cases h
    exact .inr ⟨nofun, .inl rfl⟩
  | some (1, .error e) | some (1, .crash) =>
    cases h
    exact .inr ⟨nofun, .inr rfl⟩
  | some (2, .crash) =>
    cases h
    exact .inl ⟨.inr rfl, rfl⟩
  | some (2, .error e) | some (n + 3, f) | none =>
    cases h
    exact .inl ⟨.inl rfl, rfl⟩

/-- Two bare statements are atomic unless the schedule strikes the second one: an error there
leaves the first one's change behind, and so does a crash, unless the second had nothing left to
do. -/
theorem atomicAt_pair_iff (first : σ → α × σ) (second : σ → σ) (flt : Schedule ε) (db : σ) :
    (pair first second).AtomicAt flt db ↔
      ¬ ∃ f, flt = some (1, f) ∧ (first db).2 ≠ db ∧
        (f = .crash → second (first db).2 ≠ (first db).2) := by
  match flt with
  | some (0, .error e) => simp [AtomicAt, call, pair, bare, Script.run]
  | some (0, .crash) => simp [AtomicAt, call, pair, bare, Script.run]
  | some (1, .error e) => simp [AtomicAt, call, pair, bare, Script.run]
  | some (1, .crash) =>
    simp only [AtomicAt, call, pair, bare, Script.run, eval, Script.eval, Bool.false_eq_true,
      if_false, Option.some.injEq, Prod.mk.injEq, true_and, exists_eq_left', forall_const]
    rw [not_and_or, not_not, not_not, eq_comm (a := second _)]
  | some (2, .crash) => simp [AtomicAt, call, pair, bare, Script.run, eval, Script.eval]
  | some (2, .error e) => simp [AtomicAt, call, pair, bare, Script.run]
  | some (n + 3, f) => simp [AtomicAt, call, pair, bare, Script.run]
  | none => simp [AtomicAt, call, pair, bare, Script.run]

end Op

/-! ## Forgetting a part of the contents -/

section
variable (f : σ → σ)

/-- Every statement has the same result after `f`, and commutes with it. -/
def Script.Commutes : Script σ α → Prop
  | .done _ => True
  | .exec stmt next =>
    (∀ db, stmt (f db) = ((stmt db).1, f (stmt db).2)) ∧ ∀ b, (next b).Commutes

variable {f}

/-- A script commutes with a map of the contents when its parts do. -/
theorem Script.Commutes.bind {s : Script σ α} {k : α → Script σ β} (hs : s.Commutes f)
    (hk : ∀ a, (k a).Commutes f) : (s >>= k).Commutes f := by
  change (s.bind k).Commutes f
  induction s with
  | done a => exact hk a
  | exec stmt next ih => exact ⟨hs.1, fun b => ih b (hs.2 b)⟩

/-- A write commutes with a map of the contents when its function does. -/
theorem Script.Commutes.modify {g : σ → σ} (h : ∀ db, g (f db) = f (g db)) :
    (Script.modify g).Commutes f := ⟨fun db => congrArg (Prod.mk ()) (h db), fun _ => trivial⟩

/-- A query commutes when it returns the same on both sides. -/
theorem Script.Commutes.query {g : σ → α} (h : ∀ db, g (f db) = g db) :
    (Script.query g).Commutes f := ⟨fun db => congrArg (·, f db) (h db), fun _ => trivial⟩

/-- Under the same faults, a script that commutes does the same on the image of the contents, up to
where it fails. -/
theorem Script.Commutes.run {s : Script σ α} (h : s.Commutes f) (flt : Schedule ε) (db : σ) :
    s.run flt (f db) = ((s.run flt db).1, f (s.run flt db).2.1, (s.run flt db).2.2) := by
  induction s generalizing flt db with
  | done a => rfl
  | exec stmt next ih =>
    match flt with
    | some (0, .error e) | some (0, .crash) => rfl
    | some (n + 1, flt) | none =>
      rw [Script.run, Script.run, h.1 db]
      exact ih _ (h.2 _) _ _

/-- A call ends the same after `f`, and leaves what it would have left, after `f`. -/
theorem Op.call_commutes {op : Op σ α} (h : op.body.Commutes f) (flt : Schedule ε) (db : σ) :
    op.call flt (f db) = ((op.call flt db).1, f (op.call flt db).2) := by
  unfold Op.call
  split
  · have hbegun : op.body.begun.Commutes f := ⟨fun _ => rfl, fun _ => h⟩
    rw [hbegun.run]
    obtain ⟨out, db', rest⟩ := op.body.begun.run flt db
    match out, rest with
    | .ok _, some (0, .error _) | .ok _, some (0, .crash) | .ok _, some (1, .crash)
    | .ok _, some (1, .error _) | .ok _, some (n + 2, _) | .ok _, none | .err _, _
    | .crashed, _ => rfl
  · rw [h.run]
    obtain ⟨out, db', rest⟩ := op.body.run flt db
    match out, rest with
    | .ok _, some (0, .error _) | .ok _, some (0, .crash) | .ok _, some (n + 1, _)
    | .ok _, none | .err _, _ | .crashed, _ => rfl

end

end Txn
