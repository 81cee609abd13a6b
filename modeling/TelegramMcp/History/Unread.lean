import TelegramMcp.History.Effects

/-!
# Unread counts

`markRead` keeps the baseline of a chat as decimal text under a key with the chat id in it, next to
the other rows of `kv`, and `listChats` reads all baselines back in one scan. Over any run of the
methods a server calls, what it reads is the last baseline given for each chat, and every inbound
message is one of a chat that is listed (`listChats_unread`).
-/

namespace TelegramMcp.History

open Rust Txn Keyed

/-- The calls of a server: the updater records a message with its chat and puts its offset, the
tools touch a chat, mirror an outbound message or mark a chat read, and the retention task prunes. A
message is recorded with its own chat, as `mapUpdate` makes both of one update. -/
def Bookkept : Mutation → Prop
  | .recordInbound chat msg => msg.chatId = chat.chatId
  | .insertMessage m => m.direction = .outbound
  | .touchChatLastSeen _ _ | .markRead _ _ | .enforceRetention _ _ => True
  | .kvPut key _ => key = "update_offset"
  | .upsertChat _ | .trimOlderThan _ | .trimPerChatTo _ => False

/-- The database after a run of calls on a new one, none of which fails. -/
def afterRun [Fts5] (run : List Mutation) : Db :=
  run.foldl (fun db m => (m.op.eval db).2) .migrated

/-- The baseline that a call gives a chat, if it marks the chat read. -/
def readMark (chatId : I64) : Mutation → Option I64
  | .markRead chat upTo => if chat = chatId then some upTo else none
  | _ => none

/-- The last baseline that a run gave a chat, if it gave one. -/
def lastMark (chatId : I64) (run : List Mutation) : Option I64 :=
  (run.filterMap (readMark chatId)).getLast?

/-- The last baseline that a run gave a chat, or 0. -/
def lastRead (chatId : I64) (run : List Mutation) : I64 := (lastMark chatId run).getD (i64 0)

/-- The messages of the table, without their rowids. -/
def stored (db : Db) : List StoredMessage := db.messages.rows.map Prod.snd

/-- What a list of the chats says about the messages stored: it has each chat once, the inbound
messages above the last read mark are counted, and the last message is the one with the largest
id. -/
structure UnreadExact (run : List Mutation) (db : Db) (list : List ChatSummary) : Prop where
  /-- There is one entry for each chat row. -/
  entries : (list.map (·.info)).Perm db.chats.rows
  unread : ∀ s ∈ list, s.unreadCount = ((stored db).filter fun m =>
    m.chatId = s.info.chatId && m.direction = .inbound &&
      lastRead s.info.chatId run < m.messageId).length
  last_none : ∀ s ∈ list, s.lastMessageId = none ↔ ∀ m ∈ stored db, m.chatId ≠ s.info.chatId
  last_some : ∀ s ∈ list, ∀ id, s.lastMessageId = some id ↔
    (∃ m ∈ stored db, m.chatId = s.info.chatId ∧ m.messageId = id) ∧
      ∀ m ∈ stored db, m.chatId = s.info.chatId → m.messageId ≤ id
  inboundListed : ∀ m ∈ stored db, m.direction = .inbound → ∃ s ∈ list, s.info.chatId = m.chatId

/-! ## Baselines -/

/-- Of a run and one more call, the last mark is the one this call gives, if it gives one. -/
theorem lastMark_append (chatId : I64) (run : List Mutation) (m : Mutation) :
    lastMark chatId (run ++ [m]) = (readMark chatId m).or (lastMark chatId run) := by
  rw [lastMark, List.filterMap_append, lastMark]
  cases h : readMark chatId m with
  | none => simp [h]
  | some b => simp [h]

/-- The key of the baseline of a chat, which has its id in decimal. -/
def baselineKey (chatId : I64) : String := "last_unread_baseline:" ++ chatId.toText

/-- From the key of a baseline, the id of its chat is read back. -/
theorem stripPrefix_baselineKey (chatId : I64) :
    stripPrefix "last_unread_baseline:" (baselineKey chatId) = some chatId.toText :=
  stripPrefix_eq_some_iff.2 rfl

/-- Each chat has its own key, as the decimal text of an id determines it. -/
theorem baselineKey_injective : Function.Injective baselineKey := by
  intro c d h
  have hstrip := congrArg (stripPrefix "last_unread_baseline:") h
  rw [stripPrefix_baselineKey, stripPrefix_baselineKey, Option.some.injEq] at hstrip
  exact IntN.toText_injective hstrip

/-- The rows of `kv` hold the given baselines, and no other key looks like one of them. -/
structure Marked (mark : I64 → Option I64) (kv : Table String (String × String) Prod.fst) :
    Prop where
  keys : ∀ row ∈ kv.rows, stripPrefix "last_unread_baseline:" row.1 = none ∨
    ∃ chatId, row.1 = baselineKey chatId
  find : ∀ chatId, (kv.find (baselineKey chatId)).map Prod.snd = (mark chatId).map IntN.toText

/-- Putting a row under a key of another kind keeps the baselines. -/
theorem Marked.put_other {mark : I64 → Option I64}
    {kv : Table String (String × String) Prod.fst} (h : Marked mark kv) {key : String}
    (hkey : stripPrefix "last_unread_baseline:" key = none) (value : String) :
    Marked mark (kv.upsert kvConflict (key, value)) := by
  refine ⟨?_, ?_⟩
  · intro row hrow
    rcases Table.mem_upsert.1 hrow with rfl | ⟨hrow, -⟩
    · have hmerged : (Table.merged kvConflict kv (key, value)).1 = key := Table.key_merged _ _ _
      rw [hmerged]
      exact .inl hkey
    · exact h.keys row hrow
  · intro chatId
    have hne : baselineKey chatId ≠ key := by
      rintro rfl
      rw [stripPrefix_baselineKey] at hkey
      cases hkey
    rw [Table.find_upsert, if_neg hne, h.find]

/-- Putting a baseline changes that of its chat, and no other. -/
theorem Marked.put_baseline {mark mark' : I64 → Option I64}
    {kv : Table String (String × String) Prod.fst} (h : Marked mark kv) {chatId upTo : I64}
    (hown : mark' chatId = some upTo) (hother : ∀ c, c ≠ chatId → mark' c = mark c) :
    Marked mark' (kv.upsert kvConflict (baselineKey chatId, upTo.toText)) := by
  refine ⟨?_, ?_⟩
  · intro row hrow
    rcases Table.mem_upsert.1 hrow with rfl | ⟨hrow, -⟩
    · exact .inr ⟨chatId, Table.key_merged _ _ _⟩
    · exact h.keys row hrow
  · intro c
    rw [Table.find_upsert]
    by_cases hc : c = chatId
    · subst hc
      rw [if_pos rfl, hown, Table.merged]
      cases kv.find (baselineKey c) <;> rfl
    · rw [if_neg fun heq => hc (baselineKey_injective heq), h.find, hother c hc]

/-- The scan reads a baseline back exactly if it was the last one given. -/
theorem mem_baselines_iff {mark : I64 → Option I64} {db : Db} (h : Marked mark db.kv)
    {chatId upTo : I64} : (chatId, upTo) ∈ baselines db ↔ mark chatId = some upTo := by
  have hfound := h.find chatId
  simp only [baselines, List.mem_filterMap, Option.bind_eq_bind, Option.bind_eq_some_iff]
  refine ⟨?_, ?_⟩
  · rintro ⟨row, hrow, id, hid, c, hc, b, hb, heq⟩
    cases heq
    rcases h.keys row hrow with hnone | ⟨d, hd⟩
    · rw [hnone] at hid
      cases hid
    · rw [hd, stripPrefix_baselineKey] at hid
      cases hid
      rw [IntN.parse_toText] at hc
      cases hc
      rw [Table.find_eq_some_iff.2 ⟨hrow, hd⟩] at hfound
      obtain ⟨b', hb', htext⟩ := Option.map_eq_some_iff.1 hfound.symm
      rw [← htext, IntN.parse_toText] at hb
      exact hb'.trans hb
  · intro hmark
    rw [hmark] at hfound
    obtain ⟨row, hrow, hvalue⟩ := Option.map_eq_some_iff.1 hfound
    obtain ⟨hmem, hkey⟩ := Table.find_eq_some_iff.1 hrow
    refine ⟨row, hmem, chatId.toText, ?_, chatId, IntN.parse_toText _, upTo, ?_, rfl⟩
    · rw [hkey, stripPrefix_baselineKey]
    · rw [hvalue, IntN.parse_toText]

/-- A list of pairs that is the graph of a function looks it up. -/
theorem lookup_graph {κ β : Type} [BEq κ] [LawfulBEq κ] {f : κ → Option β} {l : List (κ × β)}
    (h : ∀ k b, (k, b) ∈ l ↔ f k = some b) (k : κ) : l.lookup k = f k := by
  cases hl : l.lookup k with
  | some b =>
    obtain ⟨l₁, l₂, rfl, -⟩ := List.lookup_eq_some_iff.1 hl
    exact ((h k b).1 (by simp)).symm
  | none =>
    cases hf : f k with
    | none => rfl
    | some b =>
      have hno := List.lookup_eq_none_iff.1 hl (k, b) ((h k b).2 hf)
      simp at hno

/-- The baseline read back for a chat is the last one given, or 0 without one. -/
theorem baseline_of_marked {mark : I64 → Option I64} {db : Db} (h : Marked mark db.kv)
    (chatId : I64) : baseline db chatId = (mark chatId).getD (i64 0) := by
  rw [baseline, lookup_graph (f := mark) fun k b => ?_]
  rw [List.mem_reverse, mem_baselines_iff h]

/-! ## Runs -/

/-- What every run keeps: the baselines are the last ones given, and every inbound message is of a
chat that has a row. -/
structure Kept (run : List Mutation) (db : Db) : Prop where
  marked : Marked (fun chatId => lastMark chatId run) db.kv
  listed : ∀ key m, db.messages.row key = some m → m.direction = .inbound →
    (db.chats.find m.chatId).isSome

/-- A call that marks no chat read and leaves `kv` alone keeps the baselines. -/
theorem marked_of {run : List Mutation} {m : Mutation}
    (hm : ∀ chatId, readMark chatId m = none) {kv : Table String (String × String) Prod.fst}
    (hkv : Marked (fun chatId => lastMark chatId run) kv) :
    Marked (fun chatId => lastMark chatId (run ++ [m])) kv := by
  have hsame :
      (fun chatId => lastMark chatId (run ++ [m])) = fun chatId => lastMark chatId run := by
    funext chatId
    rw [lastMark_append, hm, Option.none_or]
  rwa [hsame]

/-- A call that leaves the messages alone, and every chat row in place, keeps them listed. -/
theorem Kept.listed_of {run : List Mutation} {db db' : Db} (h : Kept run db)
    (hmessages : ∀ key m, db'.messages.row key = some m → m.direction = .inbound →
      db.messages.row key = some m ∨ (db'.chats.find m.chatId).isSome)
    (hchats : ∀ chatId, (db.chats.find chatId).isSome → (db'.chats.find chatId).isSome) :
    ∀ key m, db'.messages.row key = some m → m.direction = .inbound →
      (db'.chats.find m.chatId).isSome := by
  intro key m hrow hin
  rcases hmessages key m hrow hin with hold | hnew
  · exact hchats _ (h.listed key m hold hin)
  · exact hnew

/-- Every call of a server keeps the two invariants, by one case for each call. -/
theorem Kept.step [Fts5] {run : List Mutation} {db : Db} (h : Kept run db) {m : Mutation}
    (hm : Bookkept m) : Kept (run ++ [m]) (m.op.eval db).2 := by
  cases m with
  | recordInbound chat msg =>
    have hchat : msg.chatId = chat.chatId := hm
    change Kept _ ((recordInbound chat msg).eval db).2
    rw [recordInbound_eval]
    refine ⟨marked_of (fun _ => rfl) h.marked, h.listed_of ?_ ?_⟩
    · intro key m hrow _
      rw [row_inserted] at hrow
      split at hrow
      · cases hrow
        rw [inserted_chats, Table.find_upsert, if_pos hchat]
        exact .inr rfl
      · exact .inl hrow
    · intro chatId hfound
      rw [inserted_chats, Table.find_upsert]
      split
      · rfl
      · exact hfound
  | insertMessage m =>
    have hout : m.direction = .outbound := hm
    change Kept _ ((insertMessage m).eval db).2
    rw [insertMessage_eval]
    refine ⟨marked_of (fun _ => rfl) h.marked, h.listed_of ?_ fun _ hfound => hfound⟩
    intro key m' hrow hin
    rw [row_inserted] at hrow
    split at hrow
    · cases hrow
      rw [hout] at hin
      cases hin
    · exact .inl hrow
  | touchChatLastSeen chatId lastSeen =>
    refine ⟨marked_of (fun _ => rfl) h.marked, h.listed_of (fun _ _ hrow _ => .inl hrow) ?_⟩
    intro c hfound
    change (((touchChatLastSeen chatId lastSeen).eval db).2.chats.find c).isSome
    rw [touchChatLastSeen_find, Option.isSome_map]
    exact hfound
  | kvPut key value =>
    obtain rfl : key = "update_offset" := hm
    refine ⟨marked_of (fun _ => rfl) (h.marked.put_other ?_ value), h.listed⟩
    rfl
  | markRead chatId upTo =>
    refine ⟨h.marked.put_baseline ?_ ?_, h.listed⟩
    · rw [lastMark_append, readMark, if_pos rfl, Option.some_or]
    · intro c hc
      rw [lastMark_append, readMark, if_neg hc.symm, Option.none_or]
  | enforceRetention cutoff keep =>
    change Kept _ ((enforceRetention cutoff keep).eval db).2
    refine ⟨marked_of (fun _ => rfl) ?_, h.listed_of ?_ ?_⟩
    · rw [enforceRetention_kv]
      exact h.marked
    · intro key m hrow _
      exact .inl (enforceRetention_row cutoff keep db hrow)
    · intro chatId hfound
      rwa [enforceRetention_chats]
  | upsertChat c => cases hm
  | trimOlderThan cutoff => cases hm
  | trimPerChatTo keep => cases hm

/-- So they hold after every run, by induction on its calls. At the start the store has no chats, no
messages and no read marks, and each call does to the tables what the run says of it. -/
theorem kept_afterRun [Fts5] {run : List Mutation} (h : ∀ m ∈ run, Bookkept m) :
    Kept run (afterRun run) := by
  induction run using List.reverseRecOn with
  | nil =>
    refine ⟨⟨?_, ?_⟩, ?_⟩
    · intro row hrow
      rw [List.mem_singleton.1 hrow]
      exact .inl rfl
    · intro chatId
      have hnone : (afterRun []).kv.find (baselineKey chatId) = none := by
        refine Table.find_eq_none_iff.2 fun row hrow hkey => ?_
        have hstrip := stripPrefix_baselineKey chatId
        rw [← hkey, List.mem_singleton.1 hrow] at hstrip
        cases hstrip
      rw [hnone]
      rfl
    · intro key m hrow
      have hnone : (afterRun []).messages.row key = none := rfl
      rw [hnone] at hrow
      cases hrow
  | append_singleton run m ih =>
    have hrun := ih fun m hm => h m (List.mem_append_left _ hm)
    rw [afterRun, List.foldl_append]
    exact hrun.step (h m (List.mem_append_right _ (List.mem_singleton_self m)))

/-! ## The list of chats -/

/-- What the list says of a chat is made of its row, its unread count and its last message. -/
theorem mem_listChatsRows {db : Db} {s : ChatSummary} (h : s ∈ listChatsRows db) :
    s = {
      info := s.info
      unreadCount := ((stored db).filter fun m =>
        m.chatId = s.info.chatId && m.direction = .inbound &&
          baseline db s.info.chatId < m.messageId).length
      lastMessageId := (((stored db).filter fun m =>
        m.chatId = s.info.chatId).map (·.messageId)).max? } := by
  obtain ⟨info, -, rfl⟩ := List.mem_map.1 h
  rfl

/-- The list has each chat of the table once. -/
theorem map_info_listChatsRows (db : Db) :
    ((listChatsRows db).map (·.info)).Perm db.chats.rows := by
  rw [listChatsRows, List.map_map]
  exact (List.map_id _).symm ▸ List.perm_insertionSort _ _

/-- In a store that keeps its baselines and chats, the list of the chats is exact. -/
theorem Kept.unreadExact {run : List Mutation} {db : Db} (h : Kept run db) :
    UnreadExact run db (listChatsRows db) := by
  refine ⟨map_info_listChatsRows db, ?_, ?_, ?_, ?_⟩
  · intro s hs
    rw [mem_listChatsRows hs, baseline_of_marked h.marked]
    rfl
  · intro s hs
    rw [mem_listChatsRows hs, List.max?_eq_none_iff, List.map_eq_nil_iff, List.filter_eq_nil_iff]
    simp only [decide_eq_true_eq, ne_eq]
  · intro s hs id
    rw [mem_listChatsRows hs, List.max?_eq_some_iff]
    simp only [List.mem_map, List.mem_filter, decide_eq_true_eq, and_assoc]
    refine and_congr_right fun _ => ⟨?_, ?_⟩
    · intro hle m hm hchat
      exact hle _ ⟨m, hm, hchat, rfl⟩
    · rintro hle _ ⟨m, hm, hchat, rfl⟩
      exact hle m hm hchat
  · intro m hm hin
    obtain ⟨r, hr, rfl⟩ := List.mem_map.1 hm
    have hrow := RowidTable.row_eq_some_iff.2 ⟨⟨r.1, hr⟩, rfl⟩
    obtain ⟨info, hinfo⟩ := Option.isSome_iff_exists.1 (h.listed _ _ hrow hin)
    obtain ⟨hmem, hchat⟩ := Table.find_eq_some_iff.1 hinfo
    obtain ⟨s, hs, rfl⟩ := List.mem_map.1 ((map_info_listChatsRows db).mem_iff.2 hmem)
    exact ⟨s, hs, hchat⟩

/-- After any run of the calls of a server, the list of the chats is exact: each chat once, with its
messages since the last baseline, and no inbound message is left out. -/
theorem listChats_unread [Fts5] (run : List Mutation) (h : ∀ m ∈ run, Bookkept m) :
    UnreadExact run (afterRun run) (listChats.eval (afterRun run)).1 :=
  (kept_afterRun h).unreadExact

/-- A message of a group, which is marked read, and one more. -/
def groupRun : List Mutation :=
  let chat : ChatInfo := ⟨i64 (-100), .group, none, none, i64 5, i64 5⟩
  [.recordInbound chat (.ofText (i64 (-100)) (i64 1) (i64 5) "first" .inbound),
    .markRead (i64 (-100)) (i64 1),
    .recordInbound chat (.ofText (i64 (-100)) (i64 2) (i64 6) "second" .inbound)]

/-- The list after the run of the group: one message is unread, as the other was marked read. -/
theorem listChats_unread_groupRun :
    UnreadExact groupRun (@afterRun Fts5.ascii groupRun)
      (listChats.eval (@afterRun Fts5.ascii groupRun)).1 := by
  refine @listChats_unread Fts5.ascii groupRun ?_
  intro m hm
  simp only [groupRun, List.mem_cons, List.not_mem_nil, or_false] at hm
  rcases hm with rfl | rfl | rfl
  · rfl
  · trivial
  · rfl

end TelegramMcp.History
