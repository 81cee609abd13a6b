import TelegramMcp.History.Effects

/-!
# Which calls are all-or-nothing

Seven of the nine methods that write are atomic under every fault: they are a transaction or a
single statement. The two plain trims send a `DELETE` and a `'rebuild'` on the bare connection, so
a fault between the two leaves the rows gone and the index as it was. `Mutation.op_atomicAt_iff`
says exactly when that shows.
-/

namespace TelegramMcp.History

open Rust Txn Keyed

/-- The rows a delete selects, for the methods that delete outside a transaction. -/
def Mutation.bareDelete : Mutation → Option (List StoredMessage → StoredMessage → Bool)
  | trimOlderThan cutoff => some fun _ => olderThan cutoff
  | trimPerChatTo keep => some (overflows keep)
  | _ => none

/-- The documents of the rows that a delete keeps, which a rebuild would index. -/
def survivors [Fts5] (p : List StoredMessage → StoredMessage → Bool) (db : Db) :
    List (Nat × List String) :=
  (db.messages.rows.filter fun r => !p (db.messages.rows.map Prod.snd) r.2).map fun r =>
    (r.1, tokens r.2.text)

/-- A delete and a rebuild of the index on the bare connection, each committed by itself. -/
def bareTrim [Fts5] (p : List StoredMessage → StoredMessage → Bool) : Op Db Nat :=
  Op.pair (deleteWhere p) rebuilt

/-- A delete changes the database exactly when some row is selected. -/
theorem deleteWhere_ne_iff {p : List StoredMessage → StoredMessage → Bool} {db : Db} :
    (deleteWhere p db).2 ≠ db ↔ ∃ r ∈ db.messages.rows, p (db.messages.rows.map Prod.snd) r.2 := by
  refine ⟨?_, ?_⟩
  · intro hne
    by_contra hnone
    push Not at hnone
    refine hne (Db.ext rfl ?_ rfl rfl)
    exact RowidTable.ext (List.filter_eq_self.2 fun r hr => by simpa using hnone r hr)
  · rintro ⟨r, hr, hp⟩ heq
    have hmem : r ∈ (deleteWhere p db).2.messages.rows := heq.symm ▸ hr
    have hkept := (List.mem_filter.1 hmem).2
    simp [hp] at hkept

/-- A rebuild leaves the database as it is exactly when the index is in step. -/
theorem rebuilt_ne_iff [Fts5] {db : Db} : rebuilt db ≠ db ↔ db.fts ≠ FullText.ofDocs db.docs := by
  refine not_congr ⟨fun h => (congrArg Db.fts h).symm, fun h => ?_⟩
  exact Db.ext rfl rfl h.symm rfl

/-- A bare trim is atomic unless the fault strikes its rebuild after the delete removed a row: an
error then leaves the rows gone, and so does a crash, unless the index already is the one of the
surviving rows. -/
theorem bareTrim_atomicAt_iff [Fts5] (p : List StoredMessage → StoredMessage → Bool)
    (flt : Schedule HistoryError) (db : Db) :
    (bareTrim p).AtomicAt flt db ↔
      ¬ ∃ f, flt = some (1, f) ∧ (∃ r ∈ db.messages.rows, p (db.messages.rows.map Prod.snd) r.2) ∧
        (f = .crash → db.fts ≠ FullText.ofDocs (survivors p db)) := by
  rw [bareTrim, Op.atomicAt_pair_iff, deleteWhere_ne_iff, rebuilt_ne_iff]
  rfl

/-- The methods that are no bare trim are atomic under every fault: a statement is, and so is a
transaction. -/
theorem Mutation.atomicAt_of_bareDelete [Fts5] {m : Mutation} (h : m.bareDelete = none)
    (flt : Schedule HistoryError) (db : Db) : m.op.AtomicAt flt db := by
  cases m with
  | trimOlderThan | trimPerChatTo => cases h
  | insertMessage | recordInbound | enforceRetention => exact Op.atomicAt_transaction _ flt db
  | upsertChat | touchChatLastSeen | kvPut | markRead => exact Op.atomicAt_statement _ flt db

/-- A method that writes is all-or-nothing under a fault exactly when it is not a bare trim whose
rebuild is struck after its delete removed a row. All the others are a single statement or a
transaction. -/
theorem Mutation.op_atomicAt_iff [Fts5] (m : Mutation) (flt : Schedule HistoryError) (db : Db) :
    m.op.AtomicAt flt db ↔
      ¬ ∃ p f, m.bareDelete = some p ∧ flt = some (1, f) ∧
        (∃ r ∈ db.messages.rows, p (db.messages.rows.map Prod.snd) r.2) ∧
        (f = .crash → db.fts ≠ FullText.ofDocs (survivors p db)) := by
  cases hm : m.bareDelete with
  | none => exact iff_of_true (Mutation.atomicAt_of_bareDelete hm flt db) (by simp)
  | some p =>
    have hbare : m.op.AtomicAt flt db ↔ (bareTrim p).AtomicAt flt db := by
      cases m with
      | trimOlderThan | trimPerChatTo => cases hm; exact Iff.rfl
      | _ => cases hm
    rw [hbare, bareTrim_atomicAt_iff]
    simp

/-- A trim by age whose rebuild fails with a disk error after one message was deleted: the message
is gone, and the index still has it. -/
theorem trim_not_atomicAt :
    ¬ ∀ (_ : Fts5) (m : Mutation) (flt : Schedule HistoryError) (db : Db),
      m.op.AtomicAt flt db := by
  intro h
  let db : Db := @inserted Fts5.ascii
    (.ofText (i64 42) (i64 1) (i64 100) "old" .inbound) Db.migrated
  have hat := h Fts5.ascii (.trimOlderThan (i64 200))
    (some (1, .error (.sqlite "disk I/O error"))) db
  have hlen := congrArg (fun d : Db => d.messages.rows.length) (show _ = db from hat)
  exact absurd hlen (by decide)

end TelegramMcp.History
