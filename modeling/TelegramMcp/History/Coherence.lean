import TelegramMcp.History.Search

/-!
# The index follows the table

Every state reached from a fresh database by successful calls of the nine methods that write has
its full-text index in step with `messages` (`Reachable.indexed`). So a search returns stored text
only, and all of it below its cap (`Reachable.coherent`).
-/

namespace TelegramMcp.History

open Rust Txn Keyed

section
variable [Fts5]

/-- The states reached from a fresh database by calls in which nothing fails. What a call leaves
behind when one of its statements fails is the subject of `History.Atomicity`. -/
inductive Reachable : Db → Prop
  | migrated : Reachable Db.migrated
  | call {db db' : Db} (h : Reachable db) (m : Mutation) (flt : Schedule HistoryError)
      (r : m.Result) (hcall : m.op.call flt db = (.ok r, db')) : Reachable db'

/-- A call in which nothing fails is one of these calls. -/
theorem Reachable.eval {db : Db} (h : Reachable db) (m : Mutation) : Reachable (m.op.eval db).2 :=
  .call h m none _ (m.op.call_none db)

/-- Whether the index is in step depends on the rows and the index only, not on the other tables. -/
theorem Indexed.of_rows {db db' : Db} (h : Indexed db)
    (hrows : db'.messages.rows = db.messages.rows) (hfts : db'.fts = db.fts) : Indexed db' := by
  rw [Indexed, hfts, Db.docs, hrows]
  exact h

/-- A retention pass that removes nothing skips the rebuild, and needs none. -/
theorem Indexed.enforceRetention {db : Db} (h : Indexed db)
    (maxAgeCutoff keepPerChat : Option I64) :
    Indexed ((enforceRetention maxAgeCutoff keepPerChat).eval db).2 := by
  rw [enforceRetention_eval]
  dsimp only
  split
  · exact indexed_rebuilt _
  · next hzero =>
    have ha : (aged maxAgeCutoff db).1 = 0 := by omega
    have hc : (capped keepPerChat (aged maxAgeCutoff db).2).1 = 0 := by omega
    have haged : Indexed (aged maxAgeCutoff db).2 := by
      cases maxAgeCutoff with
      | none => exact h
      | some cutoff =>
        exact h.of_rows (deleteWhere_zero (p := fun _ => olderThan cutoff) ha) rfl
    cases keepPerChat with
    | none => exact haged
    | some keep => exact haged.of_rows (deleteWhere_zero (p := overflows keep) hc) rfl

/-- Every method that writes keeps the index in step, by one case for each method. -/
theorem Indexed.eval {db : Db} (h : Indexed db) (m : Mutation) : Indexed (m.op.eval db).2 := by
  cases m with
  | upsertChat c => exact h.of_rows rfl rfl
  | insertMessage m =>
    change Indexed ((insertMessage m).eval db).2
    rw [insertMessage_eval]
    exact h.inserted m
  | recordInbound chat msg =>
    change Indexed ((recordInbound chat msg).eval db).2
    rw [recordInbound_eval]
    exact Indexed.inserted (h.of_rows rfl rfl) msg
  | touchChatLastSeen chatId lastSeen => exact h.of_rows rfl rfl
  | kvPut key value => exact h.of_rows rfl rfl
  | markRead chatId upTo => exact h.of_rows rfl rfl
  | trimOlderThan cutoff =>
    change Indexed ((trimOlderThan cutoff).eval db).2
    rw [trimOlderThan_eval]
    exact indexed_rebuilt _
  | trimPerChatTo keep =>
    change Indexed ((trimPerChatTo keep).eval db).2
    rw [trimPerChatTo_eval]
    exact indexed_rebuilt _
  | enforceRetention cutoff keep => exact h.enforceRetention cutoff keep

/-- The index is in step in every state reached, by induction on the calls. Each method that touches
`messages` keeps it so, the trims by rebuilding it at their end. -/
theorem Reachable.indexed {db : Db} (h : Reachable db) : Indexed db := by
  induction h with
  | migrated => rfl
  | call _ m flt r hcall ih =>
    have := ih.eval m
    rwa [Op.call_ok hcall] at this

/-- What a search returns is exact: every hit is a stored message in scope that contains the
phrase, and a result below the cap has every such message. -/
def SearchExact (db : Db) : Prop :=
  ∀ query chatId since «until» hits,
    ((search query chatId since «until»).eval db).1 = .ok hits →
      (∀ hit ∈ hits, ∃ rowid m, (rowid, m) ∈ db.messages.rows ∧ inScope chatId since «until» m ∧
        Contains query m ∧ hit = searchHit (ftsPhraseEscape query) m) ∧
      (hits.length < 100 → ∀ rowid m, (rowid, m) ∈ db.messages.rows →
        inScope chatId since «until» m → Contains query m →
        searchHit (ftsPhraseEscape query) m ∈ hits)

/-- On an index in step a search finds the rows that contain the phrase, and no others. -/
theorem Indexed.searchExact {db : Db} (h : Indexed db) : SearchExact db := by
  intro query chatId since «until» hits hs
  rw [search_eval, matchPhrase_ftsPhraseEscape] at hs
  by_cases h0 : '\x00' ∈ query.toList
  · rw [if_pos h0] at hs
    cases hs
  · rw [if_neg h0] at hs
    cases hs
    refine ⟨?_, ?_⟩
    · intro hit hmem
      obtain ⟨m, hm, rfl⟩ := List.mem_map.1 hmem
      obtain ⟨⟨rowid, hr⟩, hsc, hc⟩ := (mem_searchRows_iff h).1 (List.mem_of_mem_take hm)
      exact ⟨rowid, m, hr, hsc, hc, rfl⟩
    · intro hlen rowid m hr hsc hc
      rw [List.length_map, List.length_take] at hlen
      rw [List.take_of_length_le (by omega)]
      exact List.mem_map_of_mem ((mem_searchRows_iff h).2 ⟨⟨rowid, hr⟩, hsc, hc⟩)

/-- In every state that is reached by calls of the store the index holds exactly the postings of the
stored messages, so that a search finds the messages that contain its phrase and no others. -/
theorem Reachable.coherent {db : Db} (h : Reachable db) : Indexed db ∧ SearchExact db :=
  ⟨h.indexed, h.indexed.searchExact⟩

end

/-- A message is stored, deleted by a trim and stored again under the same row number, and then
overwritten: only its last text can be found. -/
theorem Reachable.coherent_overwritten :
    ∃ db, db.messages.rows.map Prod.fst = [1] ∧ @Indexed Fts5.ascii db ∧
      @SearchExact Fts5.ascii db := by
  let old := StoredMessage.ofText (i64 42) (i64 7) (i64 100) "first text" .inbound
  let new := StoredMessage.ofText (i64 42) (i64 7) (i64 300) "second text" .inbound
  let := Fts5.ascii
  have h := (((Reachable.migrated.eval (.insertMessage old)).eval (.trimOlderThan (i64 200))).eval
    (.insertMessage old)).eval (.insertMessage new)
  exact ⟨_, by decide, Reachable.coherent h⟩

end TelegramMcp.History
