import TelegramMcp.History.Effects
import TelegramMcp.History.Paging

/-!
# Retention

`enforceRetention` deletes by age and then by count, in one transaction with at most one rebuild of
the index. On an index in step it leaves the database of the two plain trims, and in each chat the
newest of the messages that are not too old (`enforceRetention_exact`).
-/

namespace TelegramMcp.History

open Rust Txn Keyed

/-- What is to remain of a chat: of its messages not older than the cutoff the newest, as many as
the cap allows. -/
def retained (maxAgeCutoff keepPerChat : Option I64) (chatId : I64) (db : Db) :
    List StoredMessage :=
  let recent := (inRange chatId none none db).filter fun m => maxAgeCutoff.all (· ≤ m.date)
  let newest := Newest.newestFirst (·.messageId) recent
  keepPerChat.elim newest fun keep => newest.take (max keep.val 0).toNat

/-- The two plain trims one after the other, each skipped without its limit, with their counts. -/
def plainTrims [Fts5] (maxAgeCutoff keepPerChat : Option I64) (db : Db) : (Nat × Nat) × Db :=
  let aged := maxAgeCutoff.elim (0, db) fun cutoff => (trimOlderThan cutoff).eval db
  let capped := keepPerChat.elim (0, aged.2) fun keep => (trimPerChatTo keep).eval aged.2
  ((aged.1, capped.1), capped.2)

/-- What a retention pass does to a database: which rows go, what is counted, and that the index is
left exact. -/
structure RetentionExact [Fts5] (maxAgeCutoff keepPerChat : Option I64) (db : Db)
    (counts : Nat × Nat) (after : Db) : Prop where
  /-- A row stays, unchanged, exactly when it is to. -/
  mem_iff : ∀ row, row ∈ after.messages.rows ↔
    row ∈ db.messages.rows ∧ row.2 ∈ retained maxAgeCutoff keepPerChat row.2.chatId db
  /-- The first count is that of the rows too old. -/
  agedOut : counts.1 =
    (db.messages.rows.filter fun row => maxAgeCutoff.any (row.2.date < ·)).length
  /-- The second count is that of the other rows removed. -/
  overflowed : counts.1 + counts.2 + after.messages.rows.length = db.messages.rows.length
  /-- The two trims have the same counts, and leave the same messages and index. -/
  plain : (counts, after) = plainTrims maxAgeCutoff keepPerChat db
  /-- Once more, and there is nothing to do. -/
  again : (enforceRetention maxAgeCutoff keepPerChat).eval after = ((0, 0), after)

/-! ## The two deletes -/

/-- What is deleted and what stays is all there was, so the count is the number of rows lost. -/
theorem deleteWhere_length (p : List StoredMessage → StoredMessage → Bool) (db : Db) :
    (deleteWhere p db).1 + (deleteWhere p db).2.messages.rows.length =
      db.messages.rows.length :=
  (List.length_eq_length_filter_add fun r : Nat × StoredMessage =>
    p (db.messages.rows.map Prod.snd) r.2).symm

/-- A delete that counts no row has changed nothing. -/
theorem deleteWhere_of_zero {p : List StoredMessage → StoredMessage → Bool} {db : Db}
    (h : (deleteWhere p db).1 = 0) : deleteWhere p db = (0, db) :=
  Prod.ext h (Db.ext rfl (RowidTable.ext (deleteWhere_zero h)) rfl rfl)

/-- Where no row is to be deleted, the statement changes nothing and counts none. -/
theorem deleteWhere_eq_self {p : List StoredMessage → StoredMessage → Bool} {db : Db}
    (h : ∀ row ∈ db.messages.rows, p (db.messages.rows.map Prod.snd) row.2 = false) :
    deleteWhere p db = (0, db) := by
  refine deleteWhere_of_zero (List.length_eq_zero_iff.2 (List.filter_eq_nil_iff.2 ?_))
  intro row hrow
  rw [h row hrow]
  exact Bool.false_ne_true

/-- What is left are the rows for which the condition did not hold before the statement. -/
theorem mem_deleteWhere {p : List StoredMessage → StoredMessage → Bool} {db : Db}
    {row : Nat × StoredMessage} :
    row ∈ (deleteWhere p db).2.messages.rows ↔
      row ∈ db.messages.rows ∧ p (db.messages.rows.map Prod.snd) row.2 = false := by
  change row ∈ db.messages.rows.filter _ ↔ _
  rw [List.mem_filter, Bool.not_eq_true']

section
variable {maxAgeCutoff keepPerChat : Option I64} {db : Db}

/-- The rows after the age delete: those that are not older than the cutoff, if there is one. -/
theorem aged_rows : (aged maxAgeCutoff db).2.messages.rows =
    db.messages.rows.filter fun row => maxAgeCutoff.all (· ≤ row.2.date) := by
  cases maxAgeCutoff with
  | none => exact (List.filter_eq_self.2 fun _ _ => rfl).symm
  | some cutoff =>
    refine List.filter_congr fun row _ => ?_
    change (!decide (row.2.date < cutoff)) = decide (cutoff ≤ row.2.date)
    rw [← decide_not, decide_eq_decide, not_lt]

/-- The count of the first half is the number of rows older than the cutoff. -/
theorem aged_fst : (aged maxAgeCutoff db).1 =
    (db.messages.rows.filter fun row => maxAgeCutoff.any (row.2.date < ·)).length := by
  cases maxAgeCutoff with
  | none => simp [aged]
  | some cutoff => rfl

/-- The messages of a chat after the age delete, in the order in which they were. -/
theorem inRange_aged (chatId : I64) : inRange chatId none none (aged maxAgeCutoff db).2 =
    (inRange chatId none none db).filter fun m => maxAgeCutoff.all (· ≤ m.date) := by
  simp only [inRange, aged_rows, List.filter_map, List.filter_filter, Function.comp_def]
  exact congrArg _ (List.filter_congr fun row _ => Bool.and_comm _ _)

/-- Without cursors, a row is in range when it is of the chat. -/
theorem between_none {chatId : I64} {m : StoredMessage} :
    between chatId none none m = decide (m.chatId = chatId) := by
  simp [between]

/-- A message is not beyond the cap exactly when it is among the newest of its chat. -/
theorem overflows_eq_false_iff {keep : I64} {row : Nat × StoredMessage}
    (hrow : row ∈ db.messages.rows) :
    overflows keep (db.messages.rows.map Prod.snd) row.2 = false ↔
      row.2 ∈ (Newest.newestFirst (·.messageId) (inRange row.2.chatId none none db)).take
        (max keep.val 0).toNat := by
  have hmem : row.2 ∈ inRange row.2.chatId none none db :=
    mem_inRange.2 ⟨⟨row.1, hrow⟩, by rw [between_none, decide_eq_true rfl]⟩
  have hnewer : (inRange row.2.chatId none none db).filter
      (fun y => row.2.messageId < y.messageId) =
        (db.messages.rows.map Prod.snd).filter fun r =>
          r.chatId = row.2.chatId && row.2.messageId < r.messageId := by
    rw [inRange, List.filter_filter]
    refine List.filter_congr fun y _ => ?_
    rw [between_none, Bool.and_comm]
  rw [Newest.mem_take_newestFirst inRange_nodup, and_iff_right hmem, hnewer, overflows, rowNumber,
    decide_eq_false_iff_not]
  omega

/-- A row stays through both deletes exactly when it is neither too old nor beyond the cap among
those that are not too old. -/
theorem mem_capped_aged {row : Nat × StoredMessage} :
    row ∈ (capped keepPerChat (aged maxAgeCutoff db).2).2.messages.rows ↔
      row ∈ db.messages.rows ∧
        row.2 ∈ retained maxAgeCutoff keepPerChat row.2.chatId db := by
  have hold : ∀ r, r ∈ (aged maxAgeCutoff db).2.messages.rows ↔
      r ∈ db.messages.rows ∧ maxAgeCutoff.all (· ≤ r.2.date) := by
    intro r
    rw [aged_rows, List.mem_filter]
  cases keepPerChat with
  | none =>
    rw [capped, Option.elim_none, hold, retained, Option.elim_none, Newest.newestFirst,
      List.mem_insertionSort, List.mem_filter]
    refine and_congr_right fun hrow => (and_iff_right ?_).symm
    exact mem_inRange.2 ⟨⟨row.1, hrow⟩, by rw [between_none, decide_eq_true rfl]⟩
  | some keep =>
    rw [capped, Option.elim_some, mem_deleteWhere, retained, Option.elim_some, ← inRange_aged]
    refine ⟨?_, ?_⟩
    · rintro ⟨hrow, hkept⟩
      exact ⟨((hold row).1 hrow).1, (overflows_eq_false_iff hrow).1 hkept⟩
    · rintro ⟨hrow, hkept⟩
      have hin := ((Newest.mem_take_newestFirst inRange_nodup).1 hkept).1
      rw [inRange_aged, List.mem_filter] at hin
      have haged := (hold row).2 ⟨hrow, hin.2⟩
      exact ⟨haged, (overflows_eq_false_iff haged).2 hkept⟩

/-! ## A pass -/

/-- The first half loses as many rows as it counts. -/
theorem aged_length : (aged maxAgeCutoff db).1 + (aged maxAgeCutoff db).2.messages.rows.length =
    db.messages.rows.length := by
  cases maxAgeCutoff with
  | none => exact Nat.zero_add _
  | some cutoff => exact deleteWhere_length (fun _ => olderThan cutoff) db

/-- The second half loses as many rows as it counts. -/
theorem capped_length : (capped keepPerChat db).1 +
    (capped keepPerChat db).2.messages.rows.length = db.messages.rows.length := by
  cases keepPerChat with
  | none => exact Nat.zero_add _
  | some keep => exact deleteWhere_length (overflows keep) db

/-- A first half that counts no row has changed nothing. -/
theorem aged_of_zero (h : (aged maxAgeCutoff db).1 = 0) : (aged maxAgeCutoff db).2 = db := by
  cases maxAgeCutoff with
  | none => rfl
  | some cutoff =>
    exact congrArg Prod.snd (deleteWhere_of_zero (p := fun _ => olderThan cutoff) h)

/-- A second half that counts no row has changed nothing. -/
theorem capped_of_zero (h : (capped keepPerChat db).1 = 0) : (capped keepPerChat db).2 = db := by
  cases keepPerChat with
  | none => rfl
  | some keep => exact congrArg Prod.snd (deleteWhere_of_zero (p := overflows keep) h)

/-- After the age delete there is nothing too old, so that a second one would change nothing. -/
theorem aged_eq_self (h : ∀ row ∈ db.messages.rows, maxAgeCutoff.all (· ≤ row.2.date)) :
    aged maxAgeCutoff db = (0, db) := by
  cases maxAgeCutoff with
  | none => rfl
  | some cutoff =>
    refine deleteWhere_eq_self (p := fun _ => olderThan cutoff) fun row hrow => ?_
    exact decide_eq_false (not_lt.2 (of_decide_eq_true (h row hrow)))

/-- With fewer rows, a message is no further from the newest of its chat. -/
theorem overflows_of_sublist {keep : I64} {rows rows' : List StoredMessage} {m : StoredMessage}
    (hsub : rows.Sublist rows') (h : overflows keep rows' m = false) :
    overflows keep rows m = false := by
  have hle := (hsub.filter fun r => r.chatId = m.chatId && m.messageId < r.messageId).length_le
  rw [overflows, rowNumber, decide_eq_false_iff_not] at h ⊢
  omega

/-- When no chat has more messages than the cap, the second half changes nothing. -/
theorem capped_eq_self (h : ∀ keep ∈ keepPerChat, ∀ row ∈ db.messages.rows,
    overflows keep (db.messages.rows.map Prod.snd) row.2 = false) :
    capped keepPerChat db = (0, db) := by
  cases keepPerChat with
  | none => rfl
  | some keep => exact deleteWhere_eq_self (h keep rfl)

/-- The second half only takes rows away, and keeps the order of the rest. -/
theorem capped_sublist : (capped keepPerChat db).2.messages.rows.Sublist db.messages.rows := by
  cases keepPerChat with
  | none => exact .refl _
  | some keep => exact List.filter_sublist

/-- After the overflow delete no chat has more than the cap, so that a second one would change
nothing. -/
theorem overflows_capped {keep : I64} (hkeep : keep ∈ keepPerChat) {row : Nat × StoredMessage}
    (hrow : row ∈ (capped keepPerChat db).2.messages.rows) :
    overflows keep ((capped keepPerChat db).2.messages.rows.map Prod.snd) row.2 = false := by
  refine overflows_of_sublist (capped_sublist.map Prod.snd) ?_
  cases hkeep
  exact (mem_deleteWhere.1 hrow).2

variable [Fts5]

/-- On an index in step a rebuild changes nothing. -/
theorem Indexed.rebuilt_eq (h : Indexed db) : rebuilt db = db := Db.ext rfl rfl h.symm rfl

/-- On an index in step a pass leaves the two deletes and a rebuild, whether or not it skips it. -/
theorem Indexed.enforceRetention_eq (h : Indexed db) :
    (enforceRetention maxAgeCutoff keepPerChat).eval db =
      (((aged maxAgeCutoff db).1, (capped keepPerChat (aged maxAgeCutoff db).2).1),
        rebuilt (capped keepPerChat (aged maxAgeCutoff db).2).2) := by
  rw [enforceRetention_eval]
  dsimp only
  split
  · rfl
  · have haged : (aged maxAgeCutoff db).2 = db := aged_of_zero (by omega)
    have hcapped : (capped keepPerChat (aged maxAgeCutoff db).2).2 = (aged maxAgeCutoff db).2 :=
      capped_of_zero (by omega)
    rw [hcapped, haged, h.rebuilt_eq]

/-- The two trims leave the same database, as they rebuild the index each time. -/
theorem Indexed.plainTrims_eq (h : Indexed db) :
    plainTrims maxAgeCutoff keepPerChat db =
      (((aged maxAgeCutoff db).1, (capped keepPerChat (aged maxAgeCutoff db).2).1),
        rebuilt (capped keepPerChat (aged maxAgeCutoff db).2).2) := by
  cases maxAgeCutoff with
  | none => cases keepPerChat with
    | none => exact congrArg (Prod.mk (0, 0)) h.rebuilt_eq.symm
    | some keep => rfl
  | some cutoff => cases keepPerChat with
    | none => rfl
    | some keep => rfl

/-- In what the two deletes leave, neither of them finds a row. -/
theorem enforceRetention_settled :
    (enforceRetention maxAgeCutoff keepPerChat).eval
        (rebuilt (capped keepPerChat (aged maxAgeCutoff db).2).2) =
      ((0, 0), rebuilt (capped keepPerChat (aged maxAgeCutoff db).2).2) := by
  have haged : aged maxAgeCutoff (rebuilt (capped keepPerChat (aged maxAgeCutoff db).2).2) =
      (0, rebuilt (capped keepPerChat (aged maxAgeCutoff db).2).2) := by
    refine aged_eq_self fun row hrow => ?_
    have hmem := capped_sublist.subset hrow
    rw [aged_rows] at hmem
    exact (List.mem_filter.1 hmem).2
  have hcapped : capped keepPerChat (rebuilt (capped keepPerChat (aged maxAgeCutoff db).2).2) =
      (0, rebuilt (capped keepPerChat (aged maxAgeCutoff db).2).2) :=
    capped_eq_self fun keep hkeep row hrow => overflows_capped hkeep hrow
  rw [enforceRetention_eval, haged]
  dsimp only
  rw [hcapped]
  rfl

end

/-- On an index in step a retention pass leaves in each chat the newest of the messages that are not
too old, counts what each delete removes, is the two plain trims, and leaves nothing to do. -/
theorem enforceRetention_exact [Fts5] (maxAgeCutoff keepPerChat : Option I64) (db : Db)
    (h : Indexed db) :
    RetentionExact maxAgeCutoff keepPerChat db
      ((enforceRetention maxAgeCutoff keepPerChat).eval db).1
      ((enforceRetention maxAgeCutoff keepPerChat).eval db).2 := by
  rw [h.enforceRetention_eq]
  refine ⟨fun row => mem_capped_aged, aged_fst, ?_, h.plainTrims_eq.symm, enforceRetention_settled⟩
  have haged : (aged maxAgeCutoff db).1 + (aged maxAgeCutoff db).2.messages.rows.length =
      db.messages.rows.length := aged_length
  have hcapped : (capped keepPerChat (aged maxAgeCutoff db).2).1 +
      (capped keepPerChat (aged maxAgeCutoff db).2).2.messages.rows.length =
        (aged maxAgeCutoff db).2.messages.rows.length := capped_length
  rw [← haged, ← hcapped, ← Nat.add_assoc]
  rfl

/-- A chat with an old message and a newer one. -/
def twoMessages [Fts5] : Db :=
  inserted (.ofText (i64 42) (i64 2) (i64 1000) "new" .inbound)
    (inserted (.ofText (i64 42) (i64 1) (i64 50) "old" .inbound) .migrated)

/-- The store of the example has an exact index. -/
theorem indexed_twoMessages [Fts5] : Indexed twoMessages := by
  have hmigrated : Indexed Db.migrated := rfl
  exact (hmigrated.inserted _).inserted _

/-- A pass over the two messages, with both limits, on a store whose index is exact. -/
theorem enforceRetention_exact_twoMessages :
    @RetentionExact Fts5.ascii (some (i64 60)) (some (i64 1)) (@twoMessages Fts5.ascii)
      ((@enforceRetention Fts5.ascii (some (i64 60)) (some (i64 1))).eval
        (@twoMessages Fts5.ascii)).1
      ((@enforceRetention Fts5.ascii (some (i64 60)) (some (i64 1))).eval
        (@twoMessages Fts5.ascii)).2 :=
  @enforceRetention_exact Fts5.ascii _ _ _ (@indexed_twoMessages Fts5.ascii)

end TelegramMcp.History
