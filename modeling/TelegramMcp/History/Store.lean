import TelegramMcp.Lib.Txn
import TelegramMcp.Lib.Keyed
import TelegramMcp.Lib.FullText
import TelegramMcp.History.Types

/-!
# The history store

`Db` is the contents of the SQLite database: the tables `chats`, `messages` and `kv` and the FTS5
index. The `_sync` functions of the store are scripts of statements, one for each SQL statement;
the methods of `History` run them as one transaction or on the bare connection, as the source does.
`Mutation` names the nine methods that write, with their arguments.

What FTS5 itself does with text (its tokenizer and `snippet`) is the parameter `Fts5`. The order of
rows that compare equal in an `ORDER BY`, which SQL leaves open, is that of the table.
-/

namespace TelegramMcp

open Rust Txn Keyed

/-- The functions of FTS5 on text that the store relies on: how it cuts a text into tokens, and its
snippets. -/
class Fts5 where
  /-- The tokens of a text, in order. -/
  tokenize : String → List String
  /-- The excerpt of a text around the match of a query. -/
  snippet : String → Option String → String

/-- FTS5 on ASCII text: runs of letters and digits, in lower case, and an excerpt that is the whole
text. -/
@[reducible] def Fts5.ascii : Fts5 where
  tokenize s :=
    ((s.toList.splitOnP fun c => !c.isAlphanum).filter (· ≠ [])).map fun w =>
      String.ofList (w.map Char.toLower)
  snippet _ text := text.getD ""

/-- The tokens of a nullable column; a message without a text has none. -/
def tokens [Fts5] (text : Option String) : List String := text.elim [] Fts5.tokenize

/-- The contents of the database: the chats, the messages, the index over their texts, and the
values. -/
structure Db where
  chats : Table I64 ChatInfo ChatInfo.chatId
  messages : RowidTable (I64 × I64) StoredMessage StoredMessage.key
  /-- The postings of `messages_fts`. -/
  fts : FullText.Index String
  kv : Table String (String × String) Prod.fst

namespace Db

/-- Two databases are the same when their four tables are. -/
@[ext] theorem ext {d e : Db} (hc : d.chats = e.chats) (hm : d.messages = e.messages)
    (hf : d.fts = e.fts) (hk : d.kv = e.kv) : d = e := by
  cases d; cases e; cases hc; cases hm; cases hf; cases hk; rfl

/-- The stored messages as documents of the index: row number and tokens of the text. -/
def docs [Fts5] (db : Db) : List (Nat × List String) :=
  db.messages.rows.map fun r => (r.1, tokens r.2.text)

/-- The database right after `SCHEMA_V1`, with the version as its only value. -/
def migrated : Db where
  chats := .empty
  messages := .empty
  fts := 0
  kv := ⟨[("schema_version", "1")], by simp⟩

end Db

namespace History

/-- The chat row after `ON CONFLICT(chat_id)`: `first_seen` is the stored one. -/
def chatConflict : Merge ChatInfo.chatId where
  merge old excluded :=
    { old with
      kind := excluded.kind, title := excluded.title, username := excluded.username
      lastSeen := excluded.lastSeen }
  key_merge _ _ h := h

/-- The message row after `ON CONFLICT(chat_id, message_id)`: every other column is the new one. -/
def messageConflict : Merge StoredMessage.key where
  merge old excluded :=
    { old with
      date := excluded.date, fromId := excluded.fromId, fromName := excluded.fromName
      replyTo := excluded.replyTo, text := excluded.text, mediaKind := excluded.mediaKind
      mediaFileId := excluded.mediaFileId, mediaMeta := excluded.mediaMeta
      direction := excluded.direction, raw := excluded.raw }
  key_merge _ _ h := h

/-- The row of `kv` after `ON CONFLICT(key)`: the new value. -/
def kvConflict : Merge (Prod.fst : String × String → String) where
  merge old excluded := (old.1, excluded.2)
  key_merge _ _ h := h

/-! ## Scripts shared by the methods -/

/-- `upsert_chat_sync`: the row is inserted, or all of it but `first_seen` is written over the one
there is. -/
def upsertChatSync (c : ChatInfo) : Script Db Unit :=
  .modify fun db => { db with chats := db.chats.upsert chatConflict c }

/-- `insert_message_sync`: the old text, if there is one, leaves the index before the row is written
over, and then the new text enters it under the rowid of the row. -/
def insertMessageSync [Fts5] (m : StoredMessage) : Script Db Unit := do
  let existing ← .query fun db => (db.messages.find m.key).map fun r => (r.1, r.2.text)
  if let some (oldRowid, oldText) := existing then
    .modify fun db => { db with fts := FullText.remove oldRowid (tokens oldText) db.fts }
  .modify fun db => { db with messages := db.messages.upsert messageConflict m }
  .modify fun db =>
    match db.messages.find m.key with
    | some (rowid, row) => { db with fts := FullText.insert rowid (tokens row.text) db.fts }
    | none => db

/-- A message older than the cutoff, which itself stays. -/
def olderThan (cutoffUnixSecs : I64) (m : StoredMessage) : Bool := m.date < cutoffUnixSecs

/-- `ROW_NUMBER() OVER (PARTITION BY chat_id ORDER BY message_id DESC)`: the newest message of a
chat has number 1. -/
def rowNumber (rows : List StoredMessage) (m : StoredMessage) : Nat :=
  (rows.filter fun r => r.chatId = m.chatId && m.messageId < r.messageId).length + 1

/-- A message beyond the newest `keepNewest` of its chat, by its row number. -/
def overflows (keepNewest : I64) (rows : List StoredMessage) (m : StoredMessage) : Bool :=
  keepNewest.val < rowNumber rows m

/-- `DELETE FROM messages`, with a condition that may look at all rows, and the number of rows
removed. -/
def deleteWhere (p : List StoredMessage → StoredMessage → Bool) (db : Db) : Nat × Db :=
  let gone := p (db.messages.rows.map Prod.snd)
  ((db.messages.rows.filter fun r => gone r.2).length,
    { db with messages := db.messages.filter fun r => !gone r.2 })

/-- `delete_messages_before`: one statement, which returns the number of rows it deleted. -/
def deleteMessagesBefore (cutoffUnixSecs : I64) : Script Db Nat :=
  .statement (deleteWhere fun _ => olderThan cutoffUnixSecs)

/-- `delete_per_chat_overflow`: one statement over all chats, which keeps the newest messages of
each. -/
def deletePerChatOverflow (keepNewest : I64) : Script Db Nat :=
  .statement (deleteWhere (overflows keepNewest))

/-- The index after `'rebuild'`, which reads the texts of all rows. -/
def rebuilt [Fts5] (db : Db) : Db := { db with fts := FullText.ofDocs db.docs }

/-- `rebuild_fts`: the index is made anew from the rows there are. -/
def rebuildFts [Fts5] : Script Db Unit := .modify rebuilt

/-! ## The methods that write -/

/-- `History::upsert_chat`, one statement outside a transaction. -/
def upsertChat (c : ChatInfo) : Op Db Unit := .bare (upsertChatSync c)

/-- `History::touch_chat_last_seen`: an `UPDATE`, so that a chat that is not there is not
created. -/
def touchChatLastSeen (chatId lastSeen : I64) : Op Db Unit :=
  .bare (.modify fun db => { db with
    chats := db.chats.map (fun c => if c.chatId = chatId then { c with lastSeen } else c)
      fun c => by split <;> rfl })

/-- `History::insert_message`: the row and the index in one transaction. -/
def insertMessage [Fts5] (m : StoredMessage) : Op Db Unit := .transaction (insertMessageSync m)

/-- `History::record_inbound`: the chat, the message and the index in one transaction. -/
def recordInbound [Fts5] (chat : ChatInfo) (msg : StoredMessage) : Op Db Unit :=
  .transaction do
    upsertChatSync chat
    insertMessageSync msg

/-- `History::kv_put`: the value is written over the one the key had. -/
def kvPut (key value : String) : Op Db Unit :=
  .bare (.modify fun db => { db with kv := db.kv.upsert kvConflict (key, value) })

/-- `History::mark_read`: the baseline of the chat as decimal text, under a key with its id. -/
def markRead (chatId upToMessageId : I64) : Op Db Unit :=
  kvPut ("last_unread_baseline:" ++ chatId.toText) upToMessageId.toText

/-- `History::trim_older_than`: the deletion and the rebuild are two statements without a
transaction around them. -/
def trimOlderThan [Fts5] (cutoffUnixSecs : I64) : Op Db Nat :=
  .bare do
    let removed ← deleteMessagesBefore cutoffUnixSecs
    rebuildFts
    pure removed

/-- `History::trim_per_chat_to`: again two statements without a transaction around them. -/
def trimPerChatTo [Fts5] (keepNewest : I64) : Op Db Nat :=
  .bare do
    let removed ← deletePerChatOverflow keepNewest
    rebuildFts
    pure removed

/-- `History::enforce_retention`: each part only if it is configured, and the rebuild only if a row
went, all in one transaction. -/
def enforceRetention [Fts5] (maxAgeCutoff keepPerChat : Option I64) : Op Db (Nat × Nat) :=
  .transaction do
    let agedOut ← match maxAgeCutoff with
      | some cutoff => deleteMessagesBefore cutoff
      | none => pure 0
    let overflowed ← match keepPerChat with
      | some keep => deletePerChatOverflow keep
      | none => pure 0
    if agedOut + overflowed > 0 then
      rebuildFts
    pure (agedOut, overflowed)

/-- The methods of the store that write, with their arguments. A run of the store is a list of
these, whoever calls them. -/
inductive Mutation
  | upsertChat (c : ChatInfo)
  | insertMessage (m : StoredMessage)
  | recordInbound (chat : ChatInfo) (msg : StoredMessage)
  | touchChatLastSeen (chatId lastSeen : I64)
  | kvPut (key value : String)
  | markRead (chatId upToMessageId : I64)
  | trimOlderThan (cutoffUnixSecs : I64)
  | trimPerChatTo (keepNewest : I64)
  | enforceRetention (maxAgeCutoff keepPerChat : Option I64)

namespace Mutation

/-- What the method returns on success. -/
abbrev Result : Mutation → Type
  | trimOlderThan _ | trimPerChatTo _ => Nat
  | enforceRetention _ _ => Nat × Nat
  | _ => Unit

/-- The method as an operation on the database: a transaction, or statements on the bare
connection. -/
def op [Fts5] : (m : Mutation) → Op Db m.Result
  | upsertChat c => History.upsertChat c
  | insertMessage m => History.insertMessage m
  | recordInbound chat msg => History.recordInbound chat msg
  | touchChatLastSeen chatId lastSeen => History.touchChatLastSeen chatId lastSeen
  | kvPut key value => History.kvPut key value
  | markRead chatId upTo => History.markRead chatId upTo
  | trimOlderThan cutoff => History.trimOlderThan cutoff
  | trimPerChatTo keep => History.trimPerChatTo keep
  | enforceRetention cutoff keep => History.enforceRetention cutoff keep

end Mutation

/-! ## The methods that read -/

/-- `History::get_chat`: the row of the chat, if there is one. -/
def getChat (chatId : I64) : Op Db (Option ChatInfo) :=
  .bare (.query fun db => db.chats.find chatId)

/-- `History::kv_get`: the value of the key, if there is one. -/
def kvGet (key : String) : Op Db (Option String) :=
  .bare (.query fun db => (db.kv.find key).map Prod.snd)

/-- `History::get_message`: a message that is not there is an error that names it. -/
def getMessage (chatId messageId : I64) : Op Db (Except HistoryError StoredMessage) :=
  .bare (.query fun db =>
    match db.messages.row (chatId, messageId) with
    | some m => .ok m
    | none => .error (.notFound chatId messageId))

/-- `LIMIT` of SQLite, for which a negative number is no limit. -/
def limited {α : Type} (n : Int) (rows : List α) : List α :=
  if n < 0 then rows else rows.take n.toNat

/-- The condition of a page on a row: of the chat, and between the two cursors, both exclusive. -/
def between (chatId : I64) (beforeMessageId afterMessageId : Option I64) (m : StoredMessage) :
    Bool :=
  m.chatId = chatId && beforeMessageId.all (m.messageId < ·) && afterMessageId.all (· < m.messageId)

/-- The rows a page of messages is read from, newest first. -/
def messagesRows (chatId : I64) (beforeMessageId afterMessageId : Option I64) (db : Db) :
    List StoredMessage :=
  ((db.messages.rows.map Prod.snd).filter
    (between chatId beforeMessageId afterMessageId)).insertionSort
      fun a b => b.messageId ≤ a.messageId

/-- `History::messages`: the page of the statement, cut off at the limit, where a negative limit is
none. -/
def messages (chatId : I64) (beforeMessageId afterMessageId : Option I64) (limit : I64) :
    Op Db (List StoredMessage) :=
  .bare (.query fun db =>
    limited limit.val (messagesRows chatId beforeMessageId afterMessageId db))

/-- The baselines `mark_read` wrote, by the chat id in their keys; what does not parse is
skipped. -/
def baselines (db : Db) : List (I64 × I64) :=
  db.kv.rows.filterMap fun row => do
    let id ← stripPrefix "last_unread_baseline:" row.1
    pure (← IntN.parse id, ← IntN.parse row.2)

/-- The baseline of a chat: the last one inserted into the map, or 0. -/
def baseline (db : Db) (chatId : I64) : I64 := ((baselines db).reverse.lookup chatId).getD (i64 0)

/-- The chats, the most recently seen first, each with its unread count and largest message id. -/
def listChatsRows (db : Db) : List ChatSummary :=
  let msgs := db.messages.rows.map Prod.snd
  (db.chats.rows.insertionSort fun a b => b.lastSeen ≤ a.lastSeen).map fun info =>
    { info
      unreadCount := (msgs.filter fun m => m.chatId = info.chatId && m.direction = .inbound &&
        baseline db info.chatId < m.messageId).length
      lastMessageId := ((msgs.filter fun m => m.chatId = info.chatId).map (·.messageId)).max? }

/-- `History::list_chats`: two statements, of which the second reads all baselines at once. -/
def listChats : Op Db (List ChatSummary) := .bare (.query listChatsRows)

end History

end TelegramMcp
