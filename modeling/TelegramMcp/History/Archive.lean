import TelegramMcp.Lib.Simulation
import TelegramMcp.History.Atomicity
import TelegramMcp.History.Coherence
import TelegramMcp.History.Retention
import TelegramMcp.History.Unread

/-!
# What the history is for

`Archive` is the history without tables, row numbers or an index: a chat for each id, a message for
each key, a value for each name, and whether searching is to be relied on. `Mutation.effect` says
what each method does to it and `Archive.Answers` what each query may answer. A call that does not
return its result did everything or nothing, but for the two plain trims: these may stop with the
messages gone and searching no longer to be relied on.

`store` is the history as it is, under any faults, and `archive` what it should be; the labels of
both are the calls with their outcomes. Whatever the store does, the archive can do
(`store_simulates`), so no sequence of calls and outcomes tells them apart from the archive's side
(`store_traces`).
-/

namespace TelegramMcp.History

open Rust Txn Keyed

/-! ## Calls -/

/-- A method of the store that reads, with its arguments. None of them changes what is stored, so a
query has a result and nothing else. -/
inductive Query
  | getChat (chatId : I64)
  | kvGet (key : String)
  | getMessage (chatId messageId : I64)
  | messages (chatId : I64) (beforeMessageId afterMessageId : Option I64) (limit : I64)
  | listChats
  | search (query : String) (chatId since «until» : Option I64)

/-- What the method returns. -/
abbrev Query.Result : Query → Type
  | getChat _ => Option ChatInfo
  | kvGet _ => Option String
  | getMessage _ _ => Except HistoryError StoredMessage
  | messages _ _ _ _ => List StoredMessage
  | listChats => List ChatSummary
  | search _ _ _ _ => Except HistoryError (List SearchHit)

/-- The method as an operation on the database, as the store has it. -/
def Query.op [Fts5] : (q : Query) → Op Db q.Result
  | getChat chatId => History.getChat chatId
  | kvGet key => History.kvGet key
  | getMessage chatId messageId => History.getMessage chatId messageId
  | messages chatId before after limit => History.messages chatId before after limit
  | listChats => History.listChats
  | search query chatId since «until» => History.search query chatId since «until»

/-- What is seen of a call from outside: the method with its arguments, and its outcome. Neither the
statements it ran nor the rows it found can be told from this. -/
inductive Call
  | mutate (m : Mutation) (r : Outcome HistoryError m.Result)
  | query (q : Query) (r : Outcome HistoryError q.Result)

/-- The store as a system whose steps are the calls: each runs under some schedule of faults, which
the outcome alone shows. -/
def store [Fts5] : Lts Db Call where
  init db := db = .migrated
  step
    | db, .mutate m r, db' => ∃ flt : Schedule HistoryError, m.op.call flt db = (r, db')
    | db, .query q r, db' => ∃ flt : Schedule HistoryError, q.op.call flt db = (r, db')

/-! ## The archive -/

/-- The chats, the messages by chat and message id, the named values, and whether searches are to be
relied on. -/
structure Archive where
  chats : I64 → Option ChatInfo
  messages : I64 × I64 → Option StoredMessage
  kv : String → Option String
  searchable : Prop

namespace Archive

/-- An archive with nothing in it. -/
def new : Archive where
  chats _ := none
  messages _ := none
  kv := Function.update (fun _ => none) "schema_version" (some "1")
  searchable := True

/-- A chat is seen: its row is as given, but it was first seen when it was. -/
def see (a : Archive) (c : ChatInfo) : Archive :=
  { a with
    chats := Function.update a.chats c.chatId
      (some { c with firstSeen := ((a.chats c.chatId).map (·.firstSeen)).getD c.firstSeen }) }

/-- A chat is touched, if it is known: the date is written over, and nothing else of it changes. -/
def touch (a : Archive) (chatId lastSeen : I64) : Archive :=
  { a with
    chats := Function.update a.chats chatId
      ((a.chats chatId).map fun c => { c with lastSeen }) }

/-- A message takes the place of the one with its key. -/
def put (a : Archive) (m : StoredMessage) : Archive :=
  { a with messages := Function.update a.messages m.key (some m) }

/-- A value is put under a key, whatever was there before. -/
def set (a : Archive) (key value : String) : Archive :=
  { a with kv := Function.update a.kv key (some value) }

section
variable (a : Archive)

/-- After a chat was seen, its entry is the new one with the old `firstSeen`, and no other entry has
changed. -/
theorem see_chats (c : ChatInfo) (k : I64) :
    (a.see c).chats k = if k = c.chatId then
      some { c with firstSeen := ((a.chats c.chatId).map (·.firstSeen)).getD c.firstSeen }
    else a.chats k :=
  Function.update_apply ..

/-- A touch changes the date of a chat that is there and adds none that is not. -/
theorem touch_chats (chatId lastSeen k : I64) :
    (a.touch chatId lastSeen).chats k =
      if k = chatId then (a.chats chatId).map fun c => { c with lastSeen } else a.chats k :=
  Function.update_apply ..

/-- A message that is put takes the place of the one with the same key, and no other's. -/
theorem put_messages (m : StoredMessage) (k : I64 × I64) :
    (a.put m).messages k = if k = m.key then some m else a.messages k :=
  Function.update_apply ..

/-- After a value was put, its key has it and the other keys have what they had. -/
theorem set_kv (key value k : String) :
    (a.set key value).kv k = if k = key then some value else a.kv k :=
  Function.update_apply ..

end

/-- The keys of the messages of a kind. -/
def those (a : Archive) (p : StoredMessage → Prop) : Set (I64 × I64) :=
  {k | ∃ m, a.messages k = some m ∧ p m}

open scoped Classical in
/-- The messages of a kind go, and their number is returned. -/
noncomputable def drop (a : Archive) (gone : StoredMessage → Prop) : Nat × Archive :=
  ((a.those gone).ncard,
    { a with messages := fun k => (a.messages k).filter fun m => ¬ gone m })

/-- What is left after a drop are the messages that are not gone, each as it was. -/
theorem drop_messages {a : Archive} {gone : StoredMessage → Prop} {k : I64 × I64}
    {m : StoredMessage} :
    (a.drop gone).2.messages k = some m ↔ a.messages k = some m ∧ ¬ gone m := by
  classical
  change (a.messages k).filter _ = some m ↔ _
  rw [Option.filter_eq_some_iff, decide_eq_true_iff]

/-- The messages of the same chat with larger ids, of which a cap counts how many there are. -/
def newer (a : Archive) (m : StoredMessage) : Set (I64 × I64) :=
  a.those fun r => r.chatId = m.chatId ∧ m.messageId < r.messageId

/-- The messages older than the cutoff are dropped. -/
noncomputable def age (a : Archive) (cutoff : I64) : Nat × Archive := a.drop (·.date < cutoff)

/-- Of each chat, all but its newest messages are dropped: those with as many newer ones as are
kept. -/
noncomputable def cap (a : Archive) (keep : I64) : Nat × Archive :=
  a.drop fun m => keep.val ≤ (a.newer m).ncard

/-- Both, each if it is configured. Searching is repaired when a message went. -/
noncomputable def retain (a : Archive) (maxAgeCutoff keepPerChat : Option I64) :
    (Nat × Nat) × Archive :=
  let aged := maxAgeCutoff.elim (0, a) a.age
  let capped := keepPerChat.elim (0, aged.2) aged.2.cap
  ((aged.1, capped.1),
    { capped.2 with searchable := a.searchable ∨ 0 < aged.1 + capped.1 })

/-- After an index was rebuilt, searching can be relied on again. -/
def repaired (a : Archive) : Archive := { a with searchable := True }

/-- After a trim was torn apart, searching can no longer be relied on. -/
def torn (a : Archive) : Archive := { a with searchable := False }

end Archive

/-- What a method that writes returns, and the archive it leaves, when it is not struck by a
fault. -/
noncomputable def Mutation.effect : (m : Mutation) → Archive → m.Result × Archive
  | upsertChat c, a => ((), a.see c)
  | insertMessage m, a => ((), a.put m)
  | recordInbound chat msg, a => ((), (a.see chat).put msg)
  | touchChatLastSeen chatId lastSeen, a => ((), a.touch chatId lastSeen)
  | kvPut key value, a => ((), a.set key value)
  | markRead chatId upTo, a => ((), a.set (baselineKey chatId) upTo.toText)
  | trimOlderThan cutoff, a => ((a.age cutoff).1, (a.age cutoff).2.repaired)
  | trimPerChatTo keep, a => ((a.cap keep).1, (a.cap keep).2.repaired)
  | enforceRetention cutoff keep, a => a.retain cutoff keep

/-- The methods that are not all-or-nothing, which are the two bare trims. -/
def Mutation.Tears : Mutation → Prop
  | trimOlderThan _ | trimPerChatTo _ => True
  | _ => False

/-! ## What queries answer -/

namespace Archive

variable (a : Archive)

/-- A message of the chat between the two cursors, both exclusive and each optional. -/
def InRange (chatId : I64) (before after : Option I64) (m : StoredMessage) : Prop :=
  a.messages m.key = some m ∧ m.chatId = chatId ∧ (∀ b ∈ before, m.messageId < b) ∧
    ∀ b ∈ after, b < m.messageId

/-- The newest messages between the cursors, as many as the limit allows; a negative one allows
all. -/
structure IsPage (chatId : I64) (before after : Option I64) (limit : I64)
    (page : List StoredMessage) : Prop where
  newestFirst : page.Pairwise fun m m' => m'.messageId < m.messageId
  mem_iff : ∀ m, m ∈ page ↔ a.InRange chatId before after m ∧ (0 ≤ limit.val →
    ((a.those fun r => a.InRange chatId before after r ∧ m.messageId < r.messageId).ncard : Int) <
      limit.val)

/-- A value under a key that spells a baseline of the chat. -/
def Marks (chatId b : I64) : Prop :=
  ∃ key value id, a.kv key = some value ∧ stripPrefix "last_unread_baseline:" key = some id ∧
    IntN.parse id = some chatId ∧ IntN.parse value = some b

/-- A baseline of the chat, or 0 when there is none. -/
def IsBaseline (chatId b : I64) : Prop :=
  a.Marks chatId b ∨ (∀ b', ¬ a.Marks chatId b') ∧ b = i64 0

/-- Every chat once, the most recently seen first, with the number of its inbound messages after its
baseline and its largest message id. -/
structure IsListing (list : List ChatSummary) : Prop where
  recentFirst : list.Pairwise fun s s' => s'.info.lastSeen ≤ s.info.lastSeen
  once : (list.map (·.info.chatId)).Nodup
  mem_iff : ∀ c, c ∈ list.map (·.info) ↔ a.chats c.chatId = some c
  unread : ∀ s ∈ list, ∃ b, a.IsBaseline s.info.chatId b ∧ s.unreadCount =
    (a.those fun m => m.chatId = s.info.chatId ∧ m.direction = .inbound ∧ b < m.messageId).ncard
  last : ∀ s ∈ list, ∀ id, s.lastMessageId = some id ↔
    IsGreatest {id | (a.messages (s.info.chatId, id)).isSome} id

/-- A message in scope whose text contains the phrase that the query is. -/
def Found [Fts5] (query : String) (chatId since «until» : Option I64) (m : StoredMessage) : Prop :=
  a.messages m.key = some m ∧ inScope chatId since «until» m ∧ Contains query m

/-- Messages found, the newest first, and when they are not all of them, 100 that are no older than
the others. -/
structure IsFinding [Fts5] (query : String) (chatId since «until» : Option I64)
    (found : List StoredMessage) : Prop where
  newestFirst : found.Pairwise fun m m' => m'.date ≤ m.date
  once : (found.map StoredMessage.key).Nodup
  sound : ∀ m ∈ found, a.Found query chatId since «until» m
  le : found.length ≤ 100
  complete : ∀ m, a.Found query chatId since «until» m → m ∈ found ∨
    found.length = 100 ∧ ∀ m' ∈ found, m.date ≤ m'.date

/-- What a query may answer, said of the archive: the relation leaves open what the store's order of
rows decides. -/
def Answers [Fts5] : (q : Query) → q.Result → Prop
  | .getChat chatId, r => r = a.chats chatId
  | .kvGet key, r => r = a.kv key
  | .getMessage chatId messageId, r =>
    r = (a.messages (chatId, messageId)).elim (.error (.notFound chatId messageId)) .ok
  | .messages chatId before after limit, r => a.IsPage chatId before after limit r
  | .listChats, r => a.IsListing r
  | .search query chatId since «until», r =>
    if '\x00' ∈ query.toList then r = .error (.sqlite "unterminated string")
    else a.searchable → ∃ found, a.IsFinding query chatId since «until» found ∧
      r = .ok (found.map (searchHit (ftsPhraseEscape query)))

/-- A call with its outcome, and what it leaves: its effect, or nothing, or for a trim the deletion
alone. -/
inductive Step [Fts5] (a : Archive) : Call → Archive → Prop
  | done (m : Mutation) : Step a (.mutate m (.ok (m.effect a).1)) (m.effect a).2
  | undone (m : Mutation) {r : Outcome HistoryError m.Result} (hr : r.Failed) :
    Step a (.mutate m r) a
  | unseen (m : Mutation) : Step a (.mutate m .crashed) (m.effect a).2
  | torn (m : Mutation) (hm : m.Tears) {r : Outcome HistoryError m.Result} (hr : r.Failed) :
    Step a (.mutate m r) (m.effect a).2.torn
  | answered (q : Query) {r : q.Result} (hr : a.Answers q r) : Step a (.query q (.ok r)) a
  | unanswered (q : Query) {r : Outcome HistoryError q.Result} (hr : r.Failed) :
    Step a (.query q r) a

end Archive

/-- The archive as a system, with the calls of the store for its labels. -/
def archive [Fts5] : Lts Archive Call where
  init a := a = .new
  step a c a' := a.Step c a'

/-! ## The database of an archive -/

/-- The tables hold what the archive does, row for row: each key has the row that the archive gives
it, or none. Of the index this says nothing. -/
structure Contents (db : Db) (a : Archive) : Prop where
  chats : ∀ k, db.chats.find k = a.chats k
  messages : ∀ k, db.messages.row k = a.messages k
  kv : ∀ k, (db.kv.find k).map Prod.snd = a.kv k

/-- Besides the contents, the index is in step with the messages, as long as the archive says that
searching is to be relied on; after a delete that was cut short it need not be. -/
structure Holds [Fts5] (db : Db) (a : Archive) : Prop extends Contents db a where
  searchable : a.searchable → Indexed db

section
variable {db : Db} {a : Archive}

namespace Contents

variable (h : Contents db a)
include h

/-- The rows of the table are the messages of the archive, each under its own key. -/
theorem mem_iff {m : StoredMessage} :
    (∃ rowid, (rowid, m) ∈ db.messages.rows) ↔ a.messages m.key = some m := by
  rw [← h.messages, RowidTable.row_eq_some_iff, and_iff_left rfl]

/-- The stored messages of a kind are as many as the archive has. -/
theorem length_filter {p : StoredMessage → Bool} {P : StoredMessage → Prop}
    (hp : ∀ m, a.messages m.key = some m → (p m ↔ P m)) :
    ((stored db).filter p).length = (a.those P).ncard := by
  have hnodup : ((stored db).map StoredMessage.key).Nodup := by
    rw [stored, List.map_map]
    exact db.messages.nodup
  refine length_eq_ncard (hnodup.sublist (List.filter_sublist.map _)) fun k => ?_
  simp only [Archive.those, Set.mem_ofPred_eq, List.mem_filter, stored, List.mem_map, Prod.exists,
    exists_eq_right]
  refine ⟨?_, ?_⟩
  · rintro ⟨m, hm, hP⟩
    have hkey : m.key = k := (RowidTable.row_eq_some_iff.1 ((h.messages k).trans hm)).2
    subst hkey
    exact ⟨m, ⟨h.mem_iff.2 hm, (hp m hm).2 hP⟩, rfl⟩
  · rintro ⟨m, ⟨hmem, hpm⟩, rfl⟩
    have hm := h.mem_iff.1 hmem
    exact ⟨m, hm, (hp m hm).1 hpm⟩

/-- The upsert of a chat is what the archive does when it sees one. -/
theorem see (c : ChatInfo) :
    Contents { db with chats := db.chats.upsert chatConflict c } (a.see c) := by
  refine { h with chats := fun k => ?_ }
  rw [Archive.see_chats, ← h.chats, ← h.chats]
  refine (Table.find_upsert chatConflict c db.chats k).trans ?_
  split
  · rw [Table.merged]
    cases hold : db.chats.find c.chatId with
    | none => rfl
    | some old =>
      have hid : old.chatId = c.chatId := (Table.find_eq_some_iff.1 hold).2
      rw [Option.elim_some, Option.map_some, Option.getD_some]
      simp only [chatConflict, hid]
  · rfl

/-- The update of `last_seen` is the archive's touch, for a chat that is there and for one that is
not. -/
theorem touch (chatId lastSeen : I64) :
    Contents ((touchChatLastSeen chatId lastSeen).eval db).2 (a.touch chatId lastSeen) := by
  refine { h with chats := fun k => ?_ }
  rw [touchChatLastSeen_find, Archive.touch_chats, ← h.chats, ← h.chats]
  by_cases hk : k = chatId
  · subst hk
    rw [if_pos rfl]
    refine Option.map_congr fun old hold => ?_
    exact if_pos (Table.find_eq_some_iff.1 hold).2
  · rw [if_neg hk]
    refine (Option.map_congr fun old hold => ?_).trans Option.map_id'
    exact if_neg fun hid => hk ((Table.find_eq_some_iff.1 hold).2.symm.trans hid)

/-- The upsert of a message, with the maintenance of the index, is a put of the archive. -/
theorem put [Fts5] (m : StoredMessage) : Contents (inserted m db) (a.put m) := by
  refine { h with messages := fun k => ?_ }
  rw [row_inserted, Archive.put_messages, h.messages]

/-- The upsert of a value is the archive's `set`. -/
theorem set (key value : String) :
    Contents ((kvPut key value).eval db).2 (a.set key value) := by
  refine { h with kv := fun k => ?_ }
  rw [Archive.set_kv, ← h.kv]
  exact kvGet_kvPut db key k value

/-- A delete takes from the table the messages it selects, and the archive drops the same ones. -/
theorem drop {p : List StoredMessage → StoredMessage → Bool} {gone : StoredMessage → Prop}
    (hp : ∀ m, a.messages m.key = some m → (p (stored db) m ↔ gone m)) :
    (deleteWhere p db).1 = (a.drop gone).1 ∧
      Contents (deleteWhere p db).2 (a.drop gone).2 := by
  refine ⟨?_, { h with messages := fun k => ?_ }⟩
  · rw [Archive.drop, ← h.length_filter hp, stored, List.filter_map, List.length_map]
    rfl
  · ext m
    have hrow := RowidTable.row_filter (fun m => !p (stored db) m) db.messages k
    rw [Archive.drop_messages, ← h.messages]
    refine (hrow ▸ Option.filter_eq_some_iff).trans (and_congr_right fun hm => ?_)
    have hkey : m.key = k := (RowidTable.row_eq_some_iff.1 hm).2
    rw [h.messages, ← hkey] at hm
    rw [Bool.not_eq_true', ← hp m hm, Bool.not_eq_true]

/-- Deleting by age removes from the table what the archive drops, and counts the same. -/
theorem age (cutoff : I64) :
    (deleteWhere (fun _ => olderThan cutoff) db).1 = (a.age cutoff).1 ∧
      Contents (deleteWhere (fun _ => olderThan cutoff) db).2 (a.age cutoff).2 :=
  h.drop fun _ _ => decide_eq_true_iff

/-- Deleting the overflow of the chats removes from the table what the archive drops, and counts the
same. -/
theorem cap (keep : I64) :
    (deleteWhere (overflows keep) db).1 = (a.cap keep).1 ∧
      Contents (deleteWhere (overflows keep) db).2 (a.cap keep).2 := by
  refine h.drop fun m _ => ?_
  have hnewer := h.length_filter
    (p := fun r => r.chatId = m.chatId && m.messageId < r.messageId)
    (P := fun r => r.chatId = m.chatId ∧ m.messageId < r.messageId) fun r _ => by simp
  rw [overflows, rowNumber, decide_eq_true_iff, Archive.newer, ← hnewer]
  omega

/-- The first half of a retention pass, when no age is configured as well. -/
theorem aged (maxAgeCutoff : Option I64) :
    (aged maxAgeCutoff db).1 = (maxAgeCutoff.elim (0, a) a.age).1 ∧
      Contents (aged maxAgeCutoff db).2 (maxAgeCutoff.elim (0, a) a.age).2 := by
  cases maxAgeCutoff with
  | none => exact ⟨rfl, h⟩
  | some cutoff => exact h.age cutoff

/-- The second half of a retention pass, when no cap is configured as well. -/
theorem capped (keepPerChat : Option I64) :
    (capped keepPerChat db).1 = (keepPerChat.elim (0, a) a.cap).1 ∧
      Contents (capped keepPerChat db).2 (keepPerChat.elim (0, a) a.cap).2 := by
  cases keepPerChat with
  | none => exact ⟨rfl, h⟩
  | some keep => exact h.cap keep

/-- A retention pass does to the tables what it does to the archive, with the same counts. -/
theorem retain [Fts5] (cutoff keep : Option I64) :
    ((enforceRetention cutoff keep).eval db).1 = (a.retain cutoff keep).1 ∧
      Contents ((enforceRetention cutoff keep).eval db).2 (a.retain cutoff keep).2 := by
  obtain ⟨hagedOut, hrest⟩ := h.aged cutoff
  obtain ⟨hoverflowed, hleft⟩ := hrest.capped keep
  rw [enforceRetention_eval]
  refine ⟨Prod.ext hagedOut hoverflowed, ?_⟩
  dsimp only
  split
  · exact ⟨hleft.chats, hleft.messages, hleft.kv⟩
  · exact ⟨hleft.chats, hleft.messages, hleft.kv⟩

end Contents

/-! ## The methods that write -/

variable [Fts5]

/-- A method that no fault strikes has its effect on the archive that the store holds. -/
theorem Holds.effect (h : Holds db a) (m : Mutation) :
    (m.op.eval db).1 = (m.effect a).1 ∧ Holds (m.op.eval db).2 (m.effect a).2 := by
  have hindexed (hs : a.searchable) : Indexed (m.op.eval db).2 := (h.searchable hs).eval m
  cases m with
  | upsertChat c => exact ⟨rfl, { h.see c with searchable := hindexed }⟩
  | insertMessage m =>
    refine ⟨rfl, ?_, hindexed⟩
    rw [Mutation.op, insertMessage_eval]
    exact h.put m
  | recordInbound chat msg =>
    refine ⟨rfl, ?_, hindexed⟩
    rw [Mutation.op, recordInbound_eval]
    exact (h.see chat).put msg
  | touchChatLastSeen chatId lastSeen =>
    exact ⟨rfl, { h.touch chatId lastSeen with searchable := hindexed }⟩
  | kvPut key value => exact ⟨rfl, { h.set key value with searchable := hindexed }⟩
  | markRead chatId upTo =>
    exact ⟨rfl, { h.set (baselineKey chatId) upTo.toText with searchable := hindexed }⟩
  | trimOlderThan cutoff =>
    obtain ⟨hcount, hleft⟩ := h.age cutoff
    exact ⟨hcount, ⟨hleft.chats, hleft.messages, hleft.kv⟩, fun _ => indexed_rebuilt _⟩
  | trimPerChatTo keep =>
    obtain ⟨hcount, hleft⟩ := h.cap keep
    exact ⟨hcount, ⟨hleft.chats, hleft.messages, hleft.kv⟩, fun _ => indexed_rebuilt _⟩
  | enforceRetention cutoff keep =>
    obtain ⟨hcounts, hleft⟩ := h.retain cutoff keep
    refine ⟨hcounts, { hleft with searchable := ?_ }⟩
    rintro (hs | hremoved)
    · exact hindexed hs
    · -- something was removed, so the index was rebuilt
      obtain ⟨hagedOut, hrest⟩ := h.aged cutoff
      obtain ⟨hoverflowed, -⟩ := hrest.capped keep
      rw [← hagedOut, ← hoverflowed] at hremoved
      change Indexed ((History.enforceRetention cutoff keep).eval db).2
      rw [enforceRetention_eval]
      dsimp only
      rw [if_pos hremoved]
      exact indexed_rebuilt _

/-- A delete and a rebuild: both are done, or the call fails with nothing done, or with the messages
gone. -/
theorem Contents.bareTrim {p : List StoredMessage → StoredMessage → Bool} {n : Nat} {a' : Archive}
    (hdelete : (deleteWhere p db).1 = n ∧ Contents (deleteWhere p db).2 a')
    {flt : Schedule HistoryError} {r : Outcome HistoryError Nat} {db' : Db}
    (hcall : (bareTrim p).call flt db = (r, db')) :
    (r = .ok n ∨ r = .crashed) ∧ Holds db' a'.repaired ∨
      r.Failed ∧ (db' = db ∨ Holds db' a'.torn) := by
  obtain ⟨rfl, hleft⟩ := hdelete
  rcases Op.pair_call hcall with ⟨hr, rfl⟩ | ⟨hr, rfl | rfl⟩
  · exact .inl ⟨hr, ⟨hleft.chats, hleft.messages, hleft.kv⟩, fun _ => indexed_rebuilt _⟩
  · exact .inr ⟨hr, .inl rfl⟩
  · exact .inr ⟨hr, .inr ⟨⟨hleft.chats, hleft.messages, hleft.kv⟩, False.elim⟩⟩

/-- A method that is all-or-nothing has its effect under any fault, or has done nothing. -/
theorem Holds.atomic (h : Holds db a) {m : Mutation} {flt : Schedule HistoryError}
    {r : Outcome HistoryError m.Result} {db' : Db} (hat : m.op.AtomicAt flt db)
    (hcall : m.op.call flt db = (r, db')) : ∃ a', a.Step (.mutate m r) a' ∧ Holds db' a' := by
  obtain ⟨hresult, hleft⟩ := h.effect m
  cases r with
  | ok b =>
    have heval := Op.call_ok hcall
    rw [heval] at hresult hleft
    obtain rfl : b = (m.effect a).1 := hresult
    exact ⟨_, .done m, hleft⟩
  | err e =>
    rw [hat.err hcall]
    exact ⟨a, .undone m nofun, h⟩
  | crashed =>
    rcases hat.crashed hcall with rfl | rfl
    · exact ⟨a, .undone m nofun, h⟩
    · exact ⟨_, .unseen m, hleft⟩

/-- Every call that writes is a step of the archive, under any faults. -/
theorem Holds.mutate (h : Holds db a) {m : Mutation} {flt : Schedule HistoryError}
    {r : Outcome HistoryError m.Result} {db' : Db} (hcall : m.op.call flt db = (r, db')) :
    ∃ a', a.Step (.mutate m r) a' ∧ Holds db' a' := by
  cases m with
  | trimOlderThan cutoff =>
    rcases Contents.bareTrim (h.age cutoff) hcall with ⟨rfl | rfl, hdone⟩ | ⟨hr, rfl | htorn⟩
    · exact ⟨_, .done (.trimOlderThan cutoff), hdone⟩
    · exact ⟨_, .unseen (.trimOlderThan cutoff), hdone⟩
    · exact ⟨a, .undone _ hr, h⟩
    · exact ⟨_, .torn (.trimOlderThan cutoff) trivial hr, htorn⟩
  | trimPerChatTo keep =>
    rcases Contents.bareTrim (h.cap keep) hcall with ⟨rfl | rfl, hdone⟩ | ⟨hr, rfl | htorn⟩
    · exact ⟨_, .done (.trimPerChatTo keep), hdone⟩
    · exact ⟨_, .unseen (.trimPerChatTo keep), hdone⟩
    · exact ⟨a, .undone _ hr, h⟩
    · exact ⟨_, .torn (.trimPerChatTo keep) trivial hr, htorn⟩
  | upsertChat | insertMessage | recordInbound | touchChatLastSeen | kvPut | markRead
  | enforceRetention => exact h.atomic (Mutation.atomicAt_of_bareDelete rfl flt db) hcall

/-! ## The methods that read -/

omit [Fts5]

/-- The conditions of the page query on a row, read as conditions on its ids. -/
theorem between_iff {chatId : I64} {before after : Option I64} {m : StoredMessage} :
    between chatId before after m ↔ m.chatId = chatId ∧ (∀ b ∈ before, m.messageId < b) ∧
      ∀ b ∈ after, b < m.messageId := by
  simp [between, Option.all_eq_true, and_assoc]

/-- The rows that a page query selects are the messages that the archive has in that range. -/
theorem Contents.mem_inRange_iff (h : Contents db a) {chatId : I64} {before after : Option I64}
    {m : StoredMessage} :
    m ∈ inRange chatId before after db ↔ a.InRange chatId before after m := by
  rw [mem_inRange, h.mem_iff, between_iff, Archive.InRange]

/-- A page of the store is a page of the archive: sorted, and cut off at the limit from the right
end. -/
theorem Contents.page (h : Contents db a) (chatId : I64) (before after : Option I64) (limit : I64) :
    a.IsPage chatId before after limit
      ((History.messages chatId before after limit).eval db).1 := by
  refine ⟨messages_pairwise, fun m => ?_⟩
  by_cases hlimit : 0 ≤ limit.val
  · have hnewer := h.length_filter
      (p := fun r => decide (m.messageId < r.messageId) && between chatId before after r)
      (P := fun r => a.InRange chatId before after r ∧ m.messageId < r.messageId) fun r hr => by
        rw [Bool.and_eq_true, decide_eq_true_iff, between_iff, Archive.InRange, and_comm,
          and_iff_right hr]
    rw [messages_eval hlimit, Newest.mem_take_newestFirst inRange_nodup, h.mem_inRange_iff,
      inRange, List.filter_filter, ← hnewer]
    refine and_congr_right fun _ => ?_
    rw [stored]
    omega
  · have hall : ((History.messages chatId before after limit).eval db).1 =
        messagesRows chatId before after db := if_pos (not_le.1 hlimit)
    rw [hall, messagesRows, List.mem_insertionSort, ← inRange, h.mem_inRange_iff]
    exact (and_iff_left fun hpos => absurd hpos hlimit).symm

/-- The baselines that the scan of `kv` reads back are those the archive's values spell out. -/
theorem Contents.marks_iff (h : Contents db a) {chatId b : I64} :
    a.Marks chatId b ↔ (chatId, b) ∈ baselines db := by
  simp only [Archive.Marks, baselines, List.mem_filterMap, Option.bind_eq_bind,
    Option.bind_eq_some_iff, Option.pure_def, Option.some.injEq, Prod.mk.injEq, ← h.kv,
    Option.map_eq_some_iff, Table.find_eq_some_iff]
  refine ⟨?_, ?_⟩
  · rintro ⟨_, _, id, ⟨row, ⟨hrow, rfl⟩, rfl⟩, hid, hchat, hb⟩
    exact ⟨row, hrow, id, hid, chatId, hchat, b, hb, rfl, rfl⟩
  · rintro ⟨row, hrow, id, hid, _, hchat, _, hb, rfl, rfl⟩
    exact ⟨row.1, row.2, id, ⟨row, ⟨hrow, rfl⟩, rfl⟩, hid, hchat, hb⟩

/-- The baseline of a chat in the list is the one the archive has for it, or 0. -/
theorem Contents.isBaseline (h : Contents db a) (chatId : I64) :
    a.IsBaseline chatId (baseline db chatId) := by
  cases hlookup : (baselines db).reverse.lookup chatId with
  | some b =>
    obtain ⟨l₁, l₂, heq, -⟩ := List.lookup_eq_some_iff.1 hlookup
    refine .inl (h.marks_iff.2 ?_)
    rw [baseline, hlookup, Option.getD_some, ← List.mem_reverse, heq]
    simp
  | none =>
    refine .inr ⟨fun b' hb' => ?_, by rw [baseline, hlookup, Option.getD_none]⟩
    have hno := List.lookup_eq_none_iff.1 hlookup (chatId, b')
      (List.mem_reverse.2 (h.marks_iff.1 hb'))
    simp at hno

/-- The list of the chats is a listing of the archive: each chat once, with the count of its unread
messages. -/
theorem Contents.listing (h : Contents db a) : a.IsListing (listChatsRows db) := by
  have hinfos := map_info_listChatsRows db
  refine ⟨?_, ?_, fun c => ?_, fun s hs => ?_, fun s hs id => ?_⟩
  · exact List.pairwise_map.2 Newest.newestFirst_sorted
  · have hids := hinfos.map ChatInfo.chatId
    rw [List.map_map] at hids
    exact hids.nodup_iff.2 db.chats.nodup
  · rw [hinfos.mem_iff, ← h.chats, Table.find_eq_some_iff, and_iff_left rfl]
  · refine ⟨_, h.isBaseline s.info.chatId, ?_⟩
    rw [mem_listChatsRows hs]
    exact h.length_filter fun m _ => by
      simp only [Bool.and_eq_true, decide_eq_true_eq, and_assoc]
  · have hmem (id : I64) : (a.messages (s.info.chatId, id)).isSome ↔
        id ∈ ((stored db).filter fun m => m.chatId = s.info.chatId).map (·.messageId) := by
      rw [← h.messages, Option.isSome_iff_exists]
      simp only [RowidTable.row_eq_some_iff, List.mem_map, List.mem_filter, decide_eq_true_eq,
        stored, Prod.exists, exists_eq_right, Prod.mk.injEq, and_assoc]
    rw [mem_listChatsRows hs, List.max?_eq_some_iff]
    simp only [← hmem]
    rfl

/-- With an exact index, the hits of a search are a finding of the archive, cut off at 100. -/
theorem Holds.finding [Fts5] (h : Holds db a) (hs : a.searchable) (query : String)
    (chatId since «until» : Option I64) :
    a.IsFinding query chatId since «until»
      ((searchRows query chatId since «until» db).take 100) := by
  have hsorted : (searchRows query chatId since «until» db).Pairwise
      fun m m' => m'.date ≤ m.date :=
    Newest.newestFirst_sorted
  have hfound {m : StoredMessage} : m ∈ searchRows query chatId since «until» db ↔
      a.Found query chatId since «until» m := by
    rw [mem_searchRows_iff (h.searchable hs), h.mem_iff, Archive.Found]
  refine ⟨hsorted.sublist (List.take_sublist _ _), ?_,
    fun m hm => hfound.1 (List.mem_of_mem_take hm), List.length_take_le _ _,
    fun m hm => Newest.mem_take_or hsorted (hfound.2 hm) 100⟩
  have hnodup : ((searchRows query chatId since «until» db).map StoredMessage.key).Nodup := by
    rw [searchRows, ((List.perm_insertionSort _ _).map _).nodup_iff, List.map_map]
    exact db.messages.nodup.sublist (List.filter_sublist.map _)
  exact hnodup.sublist ((List.take_sublist _ _).map _)

/-- What a query reads from the tables is an answer of the archive. -/
theorem Holds.answers [Fts5] (h : Holds db a) (q : Query) : a.Answers q (q.op.eval db).1 := by
  cases q with
  | getChat chatId => exact h.chats chatId
  | kvGet key => exact h.kv key
  | getMessage chatId messageId =>
    rw [Archive.Answers, ← h.messages]
    dsimp only [Query.op, getMessage, Op.bare, Op.eval, Script.query, Script.statement, Script.eval]
    cases db.messages.row (chatId, messageId) <;> rfl
  | messages chatId before after limit => exact h.page chatId before after limit
  | listChats => exact h.listing
  | search query chatId since «until» =>
    rw [Archive.Answers, Query.op, search_eval, matchPhrase_ftsPhraseEscape]
    split
    · rfl
    · intro hs
      exact ⟨_, h.finding hs query chatId since «until», rfl⟩

/-- Every call that reads is a step of the archive, under any faults. -/
theorem Holds.query [Fts5] (h : Holds db a) {q : Query} {flt : Schedule HistoryError}
    {r : Outcome HistoryError q.Result} {db' : Db} (hcall : q.op.call flt db = (r, db')) :
    a.Step (.query q r) a ∧ Holds db' a := by
  have hsame : (q.op.call flt db).2 = db := by
    cases q with
    | getChat | kvGet | getMessage | messages | listChats | search =>
      exact Op.call_query_snd _ flt db
  rw [hcall] at hsame
  subst hsame
  refine ⟨?_, h⟩
  cases r with
  | ok b =>
    have hb : b = (q.op.eval db').1 := by rw [Op.call_ok hcall]
    exact .answered q (hb ▸ h.answers q)
  | err e => exact .unanswered q nofun
  | crashed => exact .unanswered q nofun

/-! ## Refinement -/

/-- A store that was just migrated holds the archive that has nothing in it. -/
theorem holds_new [Fts5] : Holds .migrated .new where
  chats _ := rfl
  messages _ := rfl
  kv k := by
    change ((Db.migrated.kv.find k).map Prod.snd) = Function.update (fun _ => none) _ _ k
    rw [Function.update_apply]
    split
    · next hk =>
      subst hk
      rfl
    · next hk =>
      rw [Table.find_eq_none_iff.2, Option.map_none]
      intro row hrow hkey
      rw [List.mem_singleton.1 hrow] at hkey
      exact hk hkey.symm
  searchable _ := rfl

/-- The archive follows the store, whatever the calls and the faults: a fresh store holds the empty
archive, and each call of the store, with the outcome it had, is a call the archive can make from
what the store held to what it holds then. -/
theorem store_simulates [Fts5] : store.Simulates archive Holds where
  init db hdb := ⟨.new, rfl, hdb ▸ holds_new⟩
  step db c db' a h hstep := by
    cases c with
    | mutate m r =>
      obtain ⟨flt, hcall⟩ := hstep
      exact h.mutate hcall
    | query q r =>
      obtain ⟨flt, hcall⟩ := hstep
      obtain ⟨hanswered, hsame⟩ := h.query hcall
      exact ⟨a, hanswered, hsame⟩

/-- Every sequence of calls and outcomes of the store, under any faults, is one of the archive: so
what holds of the archive's traces holds of the store's. -/
theorem store_traces [Fts5] (calls : List Call) (h : store.Trace calls) : archive.Trace calls :=
  store_simulates.traces h

end

/-- A message is stored, and a trim fails after its delete: the message is gone, although the call
returned an error. -/
theorem store_traces_torn :
    (@archive Fts5.ascii).Trace
      [.mutate (.insertMessage (.ofText (i64 42) (i64 1) (i64 100) "old" .inbound)) (.ok ()),
        .mutate (.trimOlderThan (i64 200)) (.err (.sqlite "disk I/O error")),
        .query (.getMessage (i64 42) (i64 1)) (.ok (.error (.notFound (i64 42) (i64 1))))] := by
  let fault : Schedule HistoryError := some (1, .error (.sqlite "disk I/O error"))
  exact @store_traces Fts5.ascii _ ⟨.migrated, _, rfl,
    .cons ⟨none, rfl⟩ (.cons ⟨fault, rfl⟩ (.cons ⟨none, rfl⟩ (.nil _)))⟩

end TelegramMcp.History
