import TelegramMcp.History.Retention

/-!
# The retention task

Every six hours the task takes the configured number of days from the clock and lets the store
delete what is older. The days are any `u64` and the arithmetic is that of a release build, so for
large numbers of days the cutoff wraps around; `retentionPass_exact_iff` says when it matters.
-/

namespace TelegramMcp.Server

open Rust Txn History

/-- The section `[retention]`: two limits, each of which may be missing. -/
structure RetentionConfig where
  /-- Messages older than this many days are dropped; a `u64`. -/
  maxAgeDays : Option Nat
  /-- Only the newest so many messages of a chat are kept. -/
  maxMessagesPerChat : Option I64

/-- The seconds of a day, as the multiplication of the configured days has them. -/
def secsPerDay : I64 := i64 86400

/-- The cutoff at a clock reading, both numbers cast from `u64`. -/
def ageCutoff (now days : Nat) : I64 :=
  IntN.wrappingSub (i64 now) (IntN.wrappingMul (i64 days) secsPerDay)

/-- One iteration of `run_retention`. A clock before the epoch reads as 0. -/
def retentionPass [Fts5] (cfg : RetentionConfig) (sinceEpoch : Option Nat) : Op Db (Nat × Nat) :=
  enforceRetention (cfg.maxAgeDays.map (ageCutoff (sinceEpoch.getD 0))) cfg.maxMessagesPerChat

/-- The rows that are not older than a time. -/
def since (oldest : Int) (db : Db) : List (Nat × StoredMessage) :=
  db.messages.rows.filter fun row => oldest ≤ row.2.date.val

/-- A pass removed by age exactly the messages before a time; the others remain, but for those
beyond the cap. -/
structure PrunedBefore (oldest : Int) (cap : Option I64) (db : Db) (r : (Nat × Nat) × Db) :
    Prop where
  count : r.1.1 + (since oldest db).length = db.messages.rows.length
  mem_iff : ∀ row, row ∈ r.2.messages.rows ↔ row ∈ since oldest db ∧
    ∀ keep ∈ cap, overflows keep ((since oldest db).map Prod.snd) row.2 = false

/-- The time so many days ago, as a number without bounds. -/
def daysAgo (now days : Nat) : Int := now - 86400 * days

/-- The cutoff that the code computes is the exact one, wrapped to 64 bits. -/
theorem ageCutoff_eq (now days : Nat) : ageCutoff now days = i64 (daysAgo now days) := by
  rw [ageCutoff, secsPerDay, i64, i64, i64, IntN.wrappingMul_wrapping, IntN.wrappingSub_wrapping,
    daysAgo, Int.mul_comm]

/-- The days for which no date compares to the wrapped cutoff as it should not: the cutoff does not
wrap, or every date is later and it wraps to the smallest value. -/
theorem ageCutoff_exact_iff (now days : Nat) :
    (∀ date : I64, date < ageCutoff now days ↔ date.val < daysAgo now days) ↔
      (-2 ^ 63 ≤ daysAgo now days ∧ daysAgo now days < 2 ^ 63) ∨
        (daysAgo now days < -2 ^ 63 ∧ daysAgo now days % 2 ^ 64 = 2 ^ 63) := by
  rw [ageCutoff_eq]
  generalize daysAgo now days = exact
  have hcongr : ((2 ^ 64 : Nat) : Int) ∣ (i64 exact).val - exact := Int.dvd_bmod_sub_self
  have hrange := (i64 exact).2
  have hval : ∀ date : I64, date < i64 exact ↔ date.val < (i64 exact).val := fun _ => Iff.rfl
  simp only [hval]
  generalize (i64 exact).val = cutoff at hcongr hrange
  refine ⟨?_, ?_⟩
  · intro h
    have hmin := h ⟨-2 ^ 63, by decide⟩
    have hmax := h ⟨2 ^ 63 - 1, by decide⟩
    simp only at hmin hmax
    norm_num at hcongr hrange hmin hmax ⊢
    omega
  · intro h date
    have hdate := date.2
    norm_num at hcongr hrange hdate h ⊢
    omega

/-! ## A pass -/

section
variable [Fts5] {cutoff : I64} {cap : Option I64} {oldest : Int} {db : Db}

/-- The rows that are left are those the age delete leaves, but for those beyond the cap. -/
theorem mem_enforceRetention {row : Nat × StoredMessage} :
    row ∈ ((enforceRetention (some cutoff) cap).eval db).2.messages.rows ↔
      row ∈ (aged (some cutoff) db).2.messages.rows ∧ ∀ keep ∈ cap,
        overflows keep ((aged (some cutoff) db).2.messages.rows.map Prod.snd) row.2 = false := by
  have hrows : ((enforceRetention (some cutoff) cap).eval db).2.messages.rows =
      (capped cap (aged (some cutoff) db).2).2.messages.rows := by
    rw [enforceRetention_eval]
    dsimp only
    split
    · rfl
    · rfl
  rw [hrows]
  cases cap with
  | none => simp [capped]
  | some keep =>
    rw [capped, Option.elim_some, mem_deleteWhere]
    simp

/-- A cutoff that no date tells from a time prunes before that time. -/
theorem prunedBefore_of_dates (h : ∀ date : I64, date < cutoff ↔ date.val < oldest) :
    PrunedBefore oldest cap db ((enforceRetention (some cutoff) cap).eval db) := by
  have hsince : (aged (some cutoff) db).2.messages.rows = since oldest db := by
    rw [aged_rows]
    refine List.filter_congr fun row _ => ?_
    rw [Option.all_some, decide_eq_decide, ← not_lt, h, not_lt]
  refine ⟨?_, ?_⟩
  · rw [enforceRetention_eval, ← hsince]
    exact aged_length
  · intro row
    rw [mem_enforceRetention, hsince]

/-- A store with one message of some date. -/
def dated (date : I64) : Db :=
  inserted (.ofText (i64 42) (i64 1) date "hello" .inbound) .migrated

/-- Whether a pass removes the only message tells the cutoff from a time. -/
theorem date_iff_of_prunedBefore {date : I64}
    (h : PrunedBefore oldest cap (dated date)
      ((enforceRetention (some cutoff) cap).eval (dated date))) :
    date < cutoff ↔ date.val < oldest := by
  have hrows : (dated date).messages.rows =
      [(1, .ofText (i64 42) (i64 1) date "hello" .inbound)] := rfl
  have hcount := h.count
  rw [enforceRetention_eval] at hcount
  have hdate : (StoredMessage.ofText (i64 42) (i64 1) date "hello" .inbound).date = date := rfl
  simp only [aged_fst, since, hrows, List.filter_cons, List.filter_nil, Option.any_some, hdate,
    decide_eq_true_eq] at hcount
  split at hcount
  · next hlt =>
    split at hcount
    · cases hcount
    · next hge => exact iff_of_true hlt (not_le.1 hge)
  · next hge =>
    split at hcount
    · next hle => exact iff_of_false hge (not_lt.2 hle)
    · cases hcount

end

/-- A pass removes by age exactly what is older than the configured days, whatever is stored, when
and only when that time is an `i64`, or lies before all dates and wraps to the first of them. -/
theorem retentionPass_exact_iff [Fts5] (now days : Nat) (cap : Option I64) :
    (∀ db, PrunedBefore (daysAgo now days) cap db
        ((retentionPass ⟨some days, cap⟩ (some now)).eval db)) ↔
      (-2 ^ 63 ≤ daysAgo now days ∧ daysAgo now days < 2 ^ 63) ∨
        (daysAgo now days < -2 ^ 63 ∧ daysAgo now days % 2 ^ 64 = 2 ^ 63) := by
  rw [← ageCutoff_exact_iff]
  refine ⟨?_, ?_⟩
  · intro h date
    exact date_iff_of_prunedBefore (h (dated date))
  · intro h db
    exact prunedBefore_of_dates h

/-- With the largest number of days a configuration can hold, the cutoff is tomorrow, and a message
just received is removed. -/
theorem retentionPass_removes_recent :
    ¬ ∀ (_ : Fts5) (now days : Nat) (cap : Option I64) (db : Db), days ≤ 2 ^ 63 - 1 →
      PrunedBefore (daysAgo now days) cap db
        ((retentionPass ⟨some days, cap⟩ (some now)).eval db) := by
  intro h
  have hpruned := h Fts5.ascii 1700000000 (2 ^ 63 - 1) none (@dated Fts5.ascii (i64 1700000000))
    (Nat.le_refl _)
  have hdate := (@date_iff_of_prunedBefore Fts5.ascii _ _ _ _ hpruned).1 (by decide)
  exact absurd hdate (by decide)

end TelegramMcp.Server
