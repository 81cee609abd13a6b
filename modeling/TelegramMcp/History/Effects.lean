import TelegramMcp.History.Store

/-!
# What the methods leave in the database

One lemma for each method and each table it writes, so that later proofs do not unfold the
scripts, and `Indexed`: the full-text index is the one of the stored messages. The script that
stores a message keeps it (`Indexed.inserted`) because it takes out the postings of the text it
reads back before the row is overwritten; a `'rebuild'` restores it from any state
(`indexed_rebuilt`).
-/

namespace TelegramMcp.History

open Rust Txn Keyed

/-- The full-text index holds the postings of the stored messages, each once. -/
def Indexed [Fts5] (db : Db) : Prop := db.fts = FullText.ofDocs db.docs

/-- Of the writes to a chat row only the first and the last show: the first in `first_seen`. -/
theorem chatConflict_absorbing : chatConflict.Absorbing where
  absorb _ _ _ := rfl
  idem _ := rfl

/-- Of the writes to a message row only the last shows. -/
theorem messageConflict_absorbing : messageConflict.Absorbing where
  absorb _ _ _ := rfl
  idem _ := rfl

/-- A message replaces every column of the row of its key. -/
theorem messageConflict_merge {old new : StoredMessage} (h : old.key = new.key) :
    messageConflict.merge old new = new := by
  obtain ⟨hchat, hmessage⟩ := Prod.mk.inj h
  simp only [messageConflict, hchat, hmessage]

/-! ## Storing a message -/

section
variable [Fts5] (m : StoredMessage) (db : Db)

/-- The index without the postings of the message a new one replaces. -/
def unindexed : FullText.Index String :=
  (db.messages.find m.key).elim db.fts fun old =>
    FullText.remove old.1 (tokens old.2.text) db.fts

/-- The database after a message is stored: the row is upserted, and in the index its text takes the
place of the old one. -/
def inserted : Db :=
  let row := db.messages.merged messageConflict m
  { db with
    messages := db.messages.upsert messageConflict m
    fts := FullText.insert row.1 (tokens row.2.text) (unindexed m db) }

/-- The insertion of a message leaves the chats alone. -/
@[simp] theorem inserted_chats : (inserted m db).chats = db.chats := rfl

/-- It upserts the message in its table. -/
@[simp] theorem inserted_messages :
    (inserted m db).messages = db.messages.upsert messageConflict m := rfl

/-- It leaves the values alone. -/
@[simp] theorem inserted_kv : (inserted m db).kv = db.kv := rfl

/-- The three statements of the script together leave `inserted`, for a new message and for one that
is written over. -/
@[simp] theorem insertMessageSync_eval : (insertMessageSync m).eval db = ((), inserted m db) := by
  have hfind := db.messages.find_upsert_self messageConflict m
  unfold insertMessageSync
  simp only [Script.eval_bind, Script.eval_query]
  cases hold : db.messages.find m.key with
  | none =>
    simp only [Option.map_none, Script.eval_bind, Script.eval_modify, hfind]
    simp [inserted, unindexed, hold]
  | some old =>
    simp only [Option.map_some, Script.eval_bind, Script.eval_modify, hfind]
    simp [inserted, unindexed, hold]

end

/-- Storing a message keeps the index in step with the table. -/
theorem Indexed.inserted [Fts5] {db : Db} (h : Indexed db) (m : StoredMessage) :
    Indexed (inserted m db) := by
  let doc : Nat × StoredMessage → Nat × List String := fun r => (r.1, tokens r.2.text)
  let others := (db.messages.rows.filter fun r => r.2.key ≠ m.key).map doc
  have hnew : (History.inserted m db).docs.Perm
      (doc (db.messages.merged messageConflict m) :: others) :=
    (db.messages.perm_upsert messageConflict m).map doc
  unfold Indexed at h ⊢
  cases hold : db.messages.find m.key with
  | none =>
    have hun : unindexed m db = db.fts := by rw [unindexed, hold]; rfl
    have hall : db.messages.rows.filter (fun r => r.2.key ≠ m.key) = db.messages.rows :=
      List.filter_eq_self.2 fun r hr => decide_eq_true (Table.find_eq_none_iff.1 hold r hr)
    rw [FullText.ofDocs_perm hnew, History.inserted, hun, h]
    simp only [others, hall]
    exact FullText.insert_ofDocs (doc _) db.docs
  | some old =>
    have hun : unindexed m db = FullText.remove old.1 (tokens old.2.text) db.fts := by
      rw [unindexed, hold]; rfl
    obtain ⟨hmem, hk⟩ := Table.find_eq_some_iff.1 hold
    have hds : db.docs.Perm (doc old :: others) := by
      have hp := (perm_cons_filter_ne db.messages.nodup hmem).map doc
      rwa [hk] at hp
    rw [History.inserted, hun, h]
    exact FullText.ofDocs_replace hds hnew

/-- The index after a `'rebuild'` is in step, whatever it was. -/
theorem indexed_rebuilt [Fts5] (db : Db) : Indexed (rebuilt db) := rfl

/-- Reading after a message is stored: the message under its key, the old row elsewhere. -/
theorem row_inserted [Fts5] (m : StoredMessage) (db : Db) (k : I64 × I64) :
    (inserted m db).messages.row k = if k = m.key then some m else db.messages.row k := by
  rw [inserted_messages, RowidTable.row_upsert]
  split
  · next hk =>
    subst hk
    cases hold : db.messages.row m.key with
    | none => rfl
    | some old =>
      rw [Option.elim_some, messageConflict_merge (RowidTable.row_eq_some_iff.1 hold).2]
  · rfl

/-! ## The tables after each method -/

section
variable (db : Db)

/-- The upsert of a chat is one statement on one table. -/
@[simp] theorem upsertChatSync_eval (c : ChatInfo) :
    (upsertChatSync c).eval db = ((), { db with chats := db.chats.upsert chatConflict c }) := rfl

/-- Recording an inbound message upserts the chat and stores the message. -/
@[simp] theorem recordInbound_eval [Fts5] (chat : ChatInfo) (msg : StoredMessage) :
    (recordInbound chat msg).eval db =
      ((), inserted msg { db with chats := db.chats.upsert chatConflict chat }) := by
  simp [recordInbound, Op.transaction, Op.eval]

/-- Without a fault the record succeeds and leaves what its script evaluates to. -/
theorem recordInbound_call_none [Fts5] (chat : ChatInfo) (msg : StoredMessage) :
    ((recordInbound chat msg).call (none : Schedule HistoryError) db).1 = .ok () := by
  rw [Op.call_none]

/-- Run without a fault, the transaction has the effect of its body. -/
@[simp] theorem insertMessage_eval [Fts5] (m : StoredMessage) :
    (insertMessage m).eval db = ((), inserted m db) := by
  simp [insertMessage, Op.transaction, Op.eval]

/-- The chats after a touch: the one touched has the new date. -/
theorem touchChatLastSeen_find (chatId lastSeen k : I64) :
    ((touchChatLastSeen chatId lastSeen).eval db).2.chats.find k =
      (db.chats.find k).map fun c => if c.chatId = chatId then { c with lastSeen } else c :=
  Table.find_map _ _ (fun c => by split <;> rfl) k

/-- The value just put under a key is the value read from it. -/
theorem kvGet_kvPut (key key' value : String) :
    ((kvGet key').eval ((kvPut key value).eval db).2).1 =
      if key' = key then some value else ((kvGet key').eval db).1 := by
  change (((db.kv.upsert kvConflict (key, value)).find key').map Prod.snd) =
    if key' = key then some value else ((db.kv.find key').map Prod.snd)
  rw [Table.find_upsert]
  split
  · rw [Option.map_some, Table.merged]
    cases db.kv.find key <;> rfl
  · rfl

/-- The trim deletes the old rows and then rebuilds the index, and returns the number of rows
deleted. -/
theorem trimOlderThan_eval [Fts5] (cutoff : I64) :
    (trimOlderThan cutoff).eval db =
      ((deleteWhere (fun _ => olderThan cutoff) db).1,
        rebuilt (deleteWhere (fun _ => olderThan cutoff) db).2) := rfl

/-- The trim deletes the overflow and then rebuilds the index, and returns the number of rows
deleted. -/
theorem trimPerChatTo_eval [Fts5] (keep : I64) :
    (trimPerChatTo keep).eval db =
      ((deleteWhere (overflows keep) db).1, rebuilt (deleteWhere (overflows keep) db).2) := rfl

end

/-- A delete that removes no row leaves the rows as they are. -/
theorem deleteWhere_zero {p : List StoredMessage → StoredMessage → Bool} {db : Db}
    (h : (deleteWhere p db).1 = 0) : (deleteWhere p db).2.messages.rows = db.messages.rows := by
  have hnil := List.length_eq_zero_iff.1 h
  refine List.filter_eq_self.2 fun r hr => ?_
  simpa using List.filter_eq_nil_iff.1 hnil r hr

/-! ## Retention -/

section
variable [Fts5] (maxAgeCutoff keepPerChat : Option I64) (db : Db)

/-- The age delete of a retention pass, if it is configured. -/
def aged : Nat × Db :=
  maxAgeCutoff.elim (0, db) fun cutoff => deleteWhere (fun _ => olderThan cutoff) db

/-- The overflow delete of a retention pass, if it is configured. -/
def capped : Nat × Db := keepPerChat.elim (0, db) fun keep => deleteWhere (overflows keep) db

/-- A retention pass: both deletes, and a rebuild if either removed something. -/
theorem enforceRetention_eval :
    (enforceRetention maxAgeCutoff keepPerChat).eval db =
      let a := aged maxAgeCutoff db
      let c := capped keepPerChat a.2
      ((a.1, c.1), if a.1 + c.1 > 0 then rebuilt c.2 else c.2) := by
  cases maxAgeCutoff with
  | none => cases keepPerChat with
    | none => rfl
    | some keep =>
      simp only [enforceRetention, Op.transaction, Op.eval, Script.eval_bind]
      split <;> simp_all [aged, capped, deletePerChatOverflow, rebuildFts]
  | some cutoff => cases keepPerChat with
    | none =>
      simp only [enforceRetention, Op.transaction, Op.eval, Script.eval_bind]
      split <;> simp_all [aged, capped, deleteMessagesBefore, rebuildFts]
    | some keep =>
      simp only [enforceRetention, Op.transaction, Op.eval, Script.eval_bind]
      split <;>
        simp_all [aged, capped, deleteMessagesBefore, deletePerChatOverflow, rebuildFts]

/-- A retention pass leaves the chats and the values alone. -/
theorem enforceRetention_frame :
    ((enforceRetention maxAgeCutoff keepPerChat).eval db).2.chats = db.chats ∧
      ((enforceRetention maxAgeCutoff keepPerChat).eval db).2.kv = db.kv := by
  rw [enforceRetention_eval]
  have ha : (aged maxAgeCutoff db).2.chats = db.chats ∧ (aged maxAgeCutoff db).2.kv = db.kv := by
    cases maxAgeCutoff <;> exact ⟨rfl, rfl⟩
  have hc : ∀ d, (capped keepPerChat d).2.chats = d.chats ∧
      (capped keepPerChat d).2.kv = d.kv := by
    intro d
    cases keepPerChat <;> exact ⟨rfl, rfl⟩
  dsimp only
  split
  · exact ⟨(hc _).1.trans ha.1, (hc _).2.trans ha.2⟩
  · exact ⟨(hc _).1.trans ha.1, (hc _).2.trans ha.2⟩

/-- A retention pass deletes no chat, even when it deletes all messages of one. -/
theorem enforceRetention_chats :
    ((enforceRetention maxAgeCutoff keepPerChat).eval db).2.chats = db.chats :=
  (enforceRetention_frame maxAgeCutoff keepPerChat db).1

/-- A retention pass leaves the baselines and the offset of the updater alone. -/
theorem enforceRetention_kv :
    ((enforceRetention maxAgeCutoff keepPerChat).eval db).2.kv = db.kv :=
  (enforceRetention_frame maxAgeCutoff keepPerChat db).2

/-- A message that is there after a retention pass was there before it. -/
theorem enforceRetention_row {k : I64 × I64} {m : StoredMessage}
    (h : ((enforceRetention maxAgeCutoff keepPerChat).eval db).2.messages.row k = some m) :
    db.messages.row k = some m := by
  have hdel : ∀ (p : List StoredMessage → StoredMessage → Bool) (d : Db),
      (deleteWhere p d).2.messages.row k = some m → d.messages.row k = some m := by
    intro p d hd
    obtain ⟨⟨n, hn⟩, hk⟩ := RowidTable.row_eq_some_iff.1 hd
    exact RowidTable.row_eq_some_iff.2 ⟨⟨n, List.mem_of_mem_filter hn⟩, hk⟩
  have ha : (aged maxAgeCutoff db).2.messages.row k = some m → db.messages.row k = some m := by
    cases maxAgeCutoff with
    | none => exact id
    | some cutoff => exact hdel (fun _ => olderThan cutoff) db
  have hc : ∀ d, (capped keepPerChat d).2.messages.row k = some m → d.messages.row k = some m := by
    intro d
    cases keepPerChat with
    | none => exact id
    | some keep => exact hdel (overflows keep) d
  rw [enforceRetention_eval] at h
  dsimp only at h
  split at h
  · exact ha (hc _ h)
  · exact ha (hc _ h)

end

end TelegramMcp.History
