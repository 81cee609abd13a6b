import TelegramMcp.Hook.Replies
import TelegramMcp.History.Atomicity

/-!
# Walking a chat backwards

A client reads the history of a chat page by page: each call of `tg_history_messages` has the
smallest id of the page before it as the cursor, until a page is empty. Between the pages messages
may be edited and newer ones may arrive. Each page takes the newest messages below the cursor, and
below any cursor there are only messages that were there at the start, so the walk ends and has met
each of them once (`walk_complete`).
-/

namespace TelegramMcp.Server

open Rust Txn History Proc Fields Hook

/-- The arguments of a call for a page below a cursor. -/
def pageArgs (chat : Json) (before after : Option I64) (limit : I64) : Entries :=
  ("chat", chat) :: (before.elim [] fun id => [("before_message_id", .ofI64 id)]) ++
    (after.elim [] fun id => [("after_message_id", .ofI64 id)]) ++ [("limit", .ofI64 limit)]

/-- The message ids of a page, from the JSON of the tool. -/
def pageIds (result : CallToolResult) : List I64 :=
  match result.content with
  | [.arr rows] => rows.filterMap fun row => (row.get "message_id").bind Json.asI64
  | _ => []

section
variable [Fts5] (bot : (c : BotCall) → ApiOutcome c.Result) (s : State) (chat : Json)

/-- The outcome of a call for a page, on the store as it then is. -/
def pageCall (before after : Option I64) (limit : I64) (db : Db) :
    Except McpError CallToolResult × Db :=
  (callTool s ⟨"tg_history_messages", some (pageArgs chat before after limit)⟩).run (serve bot) db

/-- The database after these writes, each under its own faults. -/
def afterWrites (db : Db) (writes : List (Mutation × Schedule HistoryError)) : Db :=
  writes.foldl (fun db w => (w.1.op.call w.2 db).2) db

/-- The pages of a walk, by their ids, with this number of calls at most. Each page has its own
limit and is followed by other writes. There is no walk when a call fails or more are needed. -/
def walk (limits : Nat → I64) (writes : Nat → List (Mutation × Schedule HistoryError)) :
    Nat → Nat → Option I64 → Db → Option (List (List I64))
  | 0, _, _, _ => none
  | calls + 1, page, before, db =>
    match (pageCall bot s chat before none (limits page) db).1 with
    | .error _ => none
    | .ok result =>
      match (pageIds result).min? with
      | none => some []
      | some smallest =>
        (walk limits writes calls (page + 1) (some smallest) (afterWrites db (writes page))).map
          fun pages => pageIds result :: pages

end

/-- The chat has a message of this id in the store. -/
def Holds (db : Db) (chatId id : I64) : Prop := (db.messages.row (chatId, id)).isSome

/-- What may be written between the pages: nothing is deleted, and what is stored in the chat is an
edit of a message that was there at the start or newer than all of them. -/
def AddsOnly (chatId : I64) (start : Db) : Mutation → Prop
  | .insertMessage msg | .recordInbound _ msg => msg.chatId = chatId →
    Holds start chatId msg.messageId ∨ ∀ id, Holds start chatId id → id < msg.messageId
  | .trimOlderThan _ | .trimPerChatTo _ | .enforceRetention _ _ => False
  | .upsertChat _ | .touchChatLastSeen _ _ | .kvPut _ _ | .markRead _ _ => True

/-! ## One page -/

/-- The arguments of a call for a page decode to its chat, its cursor and its limit. -/
theorem parseArgs_pageArgs {chat : Json} {r : ChatRef} (hchat : ChatRef.decode chat = .ok r)
    (before after : Option I64) (limit : I64) :
    parseArgs HistoryMessagesInput.fields (some (pageArgs chat before after limit)) =
      .ok ⟨r, before, after, limit⟩ := by
  have hlimit := Decode.i64_ofI64 limit
  have hread : HistoryMessagesInput.fields.read (pageArgs chat before after limit) =
      .ok ⟨r, before, after, limit⟩ := by
    refine read_seq_ok (read_seq_ok (read_seq_ok (read_map_ok hchat) ?_) ?_) ?_
    · cases before with
      | none => cases after <;> rfl
      | some id => exact Decode.option_i64_ofI64 id
    · cases after with
      | none => cases before <;> rfl
      | some id => cases before <;> exact Decode.option_i64_ofI64 id
    · cases before <;> cases after <;> exact hlimit
  have hcursor (o : Option I64) (name : String) : ∀ e ∈ o.elim [] fun id => [(name, Json.ofI64 id)],
      e.1 = name ∧ (Decode.option Decode.i64 e.2).map (fun _ => ()) = .ok () := by
    cases o with
    | none => exact List.forall_mem_nil _
    | some id =>
      rw [Option.elim_some, List.forall_mem_singleton, Decode.option_i64_ofI64]
      exact ⟨rfl, rfl⟩
  have hchecks : ∀ e ∈ pageArgs chat before after limit, ∀ check,
      HistoryMessagesInput.fields.checks.lookup e.1 = some check → check e.2 = .ok () := by
    rintro ⟨name, v⟩ he check hcheck
    rw [pageArgs, List.mem_append, List.mem_append, List.mem_cons, List.mem_singleton] at he
    rcases he with ((heq | he) | he) | heq
    · cases heq
      cases hcheck
      change (ChatRef.decode chat).map (fun _ => ()) = _
      rw [hchat]
      rfl
    · obtain ⟨rfl, hok⟩ := hcursor before _ _ he
      cases hcheck
      exact hok
    · obtain ⟨rfl, hok⟩ := hcursor after _ _ he
      cases hcheck
      exact hok
    · cases heq
      cases hcheck
      change (Decode.i64 (.ofI64 limit)).map (fun _ => ()) = _
      rw [hlimit]
      rfl
  rw [parseArgs, Option.getD_some, decode_ok hchecks hread]
  rfl

/-- A limit is at least 1 where it reaches the store. -/
theorem one_le_clamp (n : I64) : 1 ≤ (clamp n (i64 1) (i64 500)).val := by
  have h1 : (i64 1).val = 1 := by decide
  have h500 : (i64 500).val = 500 := by decide
  rw [clamp]
  split
  · exact h1.ge
  · next hlo =>
    split
    · omega
    · have hle : ¬ n.val < (i64 1).val := hlo
      omega

/-- The ids read from a page are those of its messages, in its order. -/
theorem pageIds_toJson (page : List StoredMessage) :
    pageIds ⟨[.arr (page.map StoredMessage.toJson)]⟩ = page.map (·.messageId) := by
  change (page.map StoredMessage.toJson).filterMap _ = _
  rw [List.filterMap_map, ← List.filterMap_eq_map]
  refine List.filterMap_congr ?_
  intro m _
  exact Json.asI64_ofI64 m.messageId

/-- A call for a page returns the page `messages` reads, with the limit clamped. -/
theorem pageCall_eq [Fts5] (bot : (c : BotCall) → ApiOutcome c.Result) {s : State} {chat : Json}
    {r : ChatRef} {chatId : I64} (hchat : ChatRef.decode chat = .ok r)
    (hresolve : resolveChat s.aliases r = .ok chatId) (before after : Option I64) (limit : I64)
    (db : Db) :
    pageCall bot s chat before after limit db =
      (.ok ⟨[.arr (((messages chatId before after (clamp limit (i64 1) (i64 500))).eval db).1.map
        StoredMessage.toJson)]⟩, db) := by
  change (tgHistoryMessages s _).run (serve bot) db = _
  rw [tgHistoryMessages, parseArgs_pageArgs hchat, Proc.lift_ok, Proc.ok_bind]
  dsimp only
  rw [hresolve]
  rfl

/-! ## What the chat holds -/

/-- The id is below the cursor, if there is one. -/
def Below (before : Option I64) (id : I64) : Prop := ∀ b ∈ before, id < b

section
variable {chatId id : I64} {before : Option I64} {db start : Db}

/-- The ids that the page query has in range are those below the cursor. -/
theorem mem_inRange_iff : (∃ m ∈ inRange chatId before none db, m.messageId = id) ↔
    Holds db chatId id ∧ Below before id := by
  rw [Holds, Option.isSome_iff_exists]
  have hbetween (m : StoredMessage) : between chatId before none m = true ↔
      m.chatId = chatId ∧ Below before m.messageId := by
    cases before with
    | none => simp [between, Below]
    | some b => simp [between, Below]
  simp only [mem_inRange, hbetween, Keyed.RowidTable.row_eq_some_iff]
  refine ⟨?_, ?_⟩
  · rintro ⟨m, ⟨hrow, rfl, hbelow⟩, rfl⟩
    exact ⟨⟨m, hrow, rfl⟩, hbelow⟩
  · rintro ⟨⟨m, hrow, hkey⟩, hbelow⟩
    obtain ⟨rfl, rfl⟩ := Prod.mk.inj hkey
    exact ⟨m, ⟨hrow, rfl, hbelow⟩, rfl⟩

/-- The ids of the messages that the chat holds, as a list without repetitions. -/
def heldIds (chatId : I64) (db : Db) : List I64 :=
  (inRange chatId none none db).map (·.messageId)

/-- The ids that a chat holds are listed, each of its messages once. -/
theorem mem_heldIds : id ∈ heldIds chatId db ↔ Holds db chatId id := by
  rw [heldIds, List.mem_map, mem_inRange_iff]
  exact and_iff_left fun _ hb => by cases hb

/-- What the chat holds later: all it held at the start, and otherwise only messages with larger ids
than every one of those. A walk goes on while the chat grows in this way. -/
structure Later (chatId : I64) (start db : Db) : Prop where
  kept : ∀ id, Holds start chatId id → Holds db chatId id
  newer : ∀ id, Holds db chatId id →
    Holds start chatId id ∨ ∀ id', Holds start chatId id' → id' < id

namespace Later

/-- A store is later than itself, as nothing was added to it. -/
theorem refl : Later chatId start start := ⟨fun _ h => h, fun _ h => .inl h⟩

/-- A write that leaves the messages alone leaves the store later. -/
theorem of_messages {db' : Db} (h : Later chatId start db) (heq : db'.messages = db.messages) :
    Later chatId start db' := by
  have hholds (id : I64) : Holds db' chatId id ↔ Holds db chatId id := by rw [Holds, Holds, heq]
  exact ⟨fun id hid => (hholds id).2 (h.kept id hid), fun id hid => h.newer id ((hholds id).1 hid)⟩

/-- A message above the start is stored, and the store is later. -/
theorem inserted [Fts5] (h : Later chatId start db) {msg : StoredMessage}
    (hmsg : msg.chatId = chatId →
      Holds start chatId msg.messageId ∨ ∀ id, Holds start chatId id → id < msg.messageId) :
    Later chatId start (History.inserted msg db) := by
  refine ⟨?_, ?_⟩
  · intro id hid
    rw [Holds, row_inserted]
    split
    · rfl
    · exact h.kept id hid
  · intro id hid
    rw [Holds, row_inserted] at hid
    split at hid
    · next hkey =>
      obtain ⟨hchat, rfl⟩ := Prod.mk.inj hkey
      exact hmsg hchat.symm
    · exact h.newer id hid

/-- A write that only adds leaves the store later, however it ends. -/
theorem write [Fts5] (h : Later chatId start db) {m : Mutation} (hm : AddsOnly chatId start m)
    (flt : Schedule HistoryError) : Later chatId start (m.op.call flt db).2 := by
  have hbare : m.bareDelete = none := by
    cases m with
    | trimOlderThan | trimPerChatTo => exact hm.elim
    | _ => rfl
  have heval : Later chatId start (m.op.eval db).2 := by
    cases m with
    | insertMessage msg =>
      change Later chatId start ((insertMessage msg).eval db).2
      rw [insertMessage_eval]
      exact h.inserted hm
    | recordInbound chat msg =>
      change Later chatId start ((recordInbound chat msg).eval db).2
      rw [recordInbound_eval]
      have hchats : Later chatId start
        { db with chats := db.chats.upsert chatConflict chat } := h.of_messages rfl
      exact hchats.inserted hm
    | upsertChat | touchChatLastSeen | kvPut | markRead => exact h.of_messages rfl
    | trimOlderThan | trimPerChatTo | enforceRetention => exact hm.elim
  rcases (Mutation.atomicAt_of_bareDelete hbare flt db).snd with heq | heq
  · rwa [heq]
  · rwa [heq]

/-- Writes that only add keep a store later. -/
theorem afterWrites [Fts5] (h : Later chatId start db)
    {writes : List (Mutation × Schedule HistoryError)}
    (hw : ∀ w ∈ writes, AddsOnly chatId start w.1) :
    Later chatId start (Server.afterWrites db writes) := by
  induction writes generalizing db with
  | nil => exact h
  | cons w writes ih =>
    obtain ⟨hfirst, hrest⟩ := List.forall_mem_cons.1 hw
    exact ih (h.write hfirst w.2) hrest

/-- Below a message of the start there is only what was there at the start. -/
theorem below_iff (h : Later chatId start db) {smallest : I64} (hs : Holds start chatId smallest) :
    Holds db chatId id ∧ Below (some smallest) id ↔
      Holds start chatId id ∧ Below (some smallest) id := by
  refine ⟨?_, fun hid => ⟨h.kept id hid.1, hid.2⟩⟩
  rintro ⟨hid, hbelow⟩
  refine ⟨(h.newer id hid).resolve_right ?_, hbelow⟩
  intro hnewer
  exact lt_asymm (hnewer smallest hs) (hbelow smallest rfl)

end Later

end

/-! ## The walk -/

/-- A page of a chat that below the cursor holds what it held at the start: its ids descend, and
they are those of the start from the first below the cursor down to the smallest. -/
structure PageOf (chatId : I64) (start : Db) (before : Option I64) (ids : List I64) : Prop where
  descending : ids.Pairwise fun a b => b < a
  held : ∀ id ∈ ids, Holds start chatId id ∧ Below before id
  complete : ∀ id, Holds start chatId id → Below before id → ∀ p ∈ ids, p ≤ id → id ∈ ids
  nonempty : ∀ id, Holds start chatId id → Below before id → ids ≠ []

/-- The walk so far: its pages list the ids of the start that are below the cursor, each once and in
descending order. -/
structure Walked (chatId : I64) (start : Db) (before : Option I64) (pages : List (List I64)) :
    Prop where
  descending : pages.flatten.Pairwise fun a b => b < a
  mem_iff : ∀ id, id ∈ pages.flatten ↔ Holds start chatId id ∧ Below before id

section
variable {chatId : I64} {before : Option I64} {db start : Db}

/-- A page of the store is a page of the ids below the cursor, when none were added there. -/
theorem pageOf_messages {limit : I64} (hlimit : 1 ≤ limit.val)
    (hbelow : ∀ id,
      Holds db chatId id ∧ Below before id ↔ Holds start chatId id ∧ Below before id) :
    PageOf chatId start before
      (((messages chatId before none limit).eval db).1.map (·.messageId)) := by
  have hpos : 0 ≤ limit.val := by omega
  refine ⟨List.pairwise_map.2 messages_pairwise, ?_, ?_, ?_⟩
  · intro id hid
    obtain ⟨m, hm, rfl⟩ := List.mem_map.1 hid
    exact (hbelow _).1 (mem_inRange_iff.1 ⟨m, mem_inRange_of_mem_messages hpos hm, rfl⟩)
  · intro id hid hbefore p hp hle
    obtain ⟨q, hq, rfl⟩ := List.mem_map.1 hp
    obtain ⟨m, hm, rfl⟩ := mem_inRange_iff.2 ((hbelow id).2 ⟨hid, hbefore⟩)
    exact List.mem_map.2 ⟨m, mem_messages_of_le hpos hq hm hle, rfl⟩
  · intro id hid hbefore hnil
    obtain ⟨m, hm, rfl⟩ := mem_inRange_iff.2 ((hbelow id).2 ⟨hid, hbefore⟩)
    exact messages_ne_nil hlimit hm (List.map_eq_nil_iff.1 hnil)

/-- A page, and the walk below its smallest id, are the walk from the cursor. -/
theorem PageOf.cons {ids : List I64} {smallest : I64} {pages : List (List I64)}
    (h : PageOf chatId start before ids) (hmem : smallest ∈ ids) (hmin : ∀ id ∈ ids, smallest ≤ id)
    (hrest : Walked chatId start (some smallest) pages) :
    Walked chatId start before (ids :: pages) := by
  have hlt : ∀ id ∈ pages.flatten, id < smallest := by
    intro id hid
    exact ((hrest.mem_iff id).1 hid).2 smallest rfl
  refine ⟨?_, ?_⟩
  · rw [List.flatten_cons, List.pairwise_append]
    refine ⟨h.descending, hrest.descending, ?_⟩
    intro a ha b hb
    exact (hlt b hb).trans_le (hmin a ha)
  · intro id
    rw [List.flatten_cons, List.mem_append, hrest.mem_iff]
    refine ⟨?_, ?_⟩
    · rintro (hid | ⟨hid, hbelow⟩)
      · exact h.held id hid
      · refine ⟨hid, ?_⟩
        intro b hb
        exact (hbelow smallest rfl).trans ((h.held smallest hmem).2 b hb)
    · rintro ⟨hid, hbelow⟩
      rcases le_or_gt smallest id with hle | hlt
      · exact .inl (h.complete id hid hbelow smallest hmem hle)
      · refine .inr ⟨hid, ?_⟩
        rintro b ⟨⟩
        exact hlt

instance (before : Option I64) (id : I64) : Decidable (Below before id) :=
  inferInstanceAs (Decidable (∀ b ∈ before, id < b))

/-- How many messages of the start are below the cursor, which every page makes fewer. -/
def remaining (chatId : I64) (start : Db) (before : Option I64) : Nat :=
  ((heldIds chatId start).filter fun id => Below before id).length

/-- There are fewer below a message that is below the cursor. -/
theorem remaining_lt {smallest : I64} (hs : Holds start chatId smallest)
    (hbelow : Below before smallest) :
    remaining chatId start (some smallest) < remaining chatId start before := by
  have hfilter : (heldIds chatId start).filter (fun id => Below (some smallest) id) =
      ((heldIds chatId start).filter fun id => Below before id).filter
        fun id => Below (some smallest) id := by
    rw [List.filter_filter]
    refine List.filter_congr ?_
    intro id _
    rw [Bool.eq_iff_iff, Bool.and_eq_true, decide_eq_true_eq, decide_eq_true_eq]
    refine ⟨fun hid => ⟨hid, fun b hb => (hid smallest rfl).trans (hbelow b hb)⟩, And.left⟩
  rw [remaining, remaining, hfilter, List.length_filter_lt_length_iff_exists]
  refine ⟨smallest, List.mem_filter.2 ⟨mem_heldIds.2 hs, decide_eq_true hbelow⟩, ?_⟩
  rw [decide_eq_true_eq]
  intro hself
  exact lt_irrefl smallest (hself smallest rfl)

end

section
variable [Fts5] (bot : (c : BotCall) → ApiOutcome c.Result) {s : State} {chat : Json}
  {r : ChatRef} {chatId : I64} {start : Db} {limits : Nat → I64}
  {writes : Nat → List (Mutation × Schedule HistoryError)}

/-- The walk from a cursor on, by induction on the number of calls. What is left of the start
shrinks with each page, so that more calls than ids below the cursor are enough, and the chat may
grow between any two. -/
theorem walk_walked (hchat : ChatRef.decode chat = .ok r)
    (hresolve : resolveChat s.aliases r = .ok chatId)
    (hwrites : ∀ page, ∀ w ∈ writes page, AddsOnly chatId start w.1) {calls page : Nat}
    {before : Option I64} {db : Db} (hlater : Later chatId start db)
    (hbelow : ∀ id, Holds db chatId id ∧ Below before id ↔ Holds start chatId id ∧ Below before id)
    (hcalls : remaining chatId start before < calls) :
    ∃ pages, walk bot s chat limits writes calls page before db = some pages ∧
      Walked chatId start before pages := by
  induction calls generalizing page before db with
  | zero => exact absurd hcalls (Nat.not_lt_zero _)
  | succ calls ih =>
    have hpage := pageOf_messages (one_le_clamp (limits page)) hbelow
    rw [walk, pageCall_eq bot hchat hresolve]
    simp only [pageIds_toJson]
    cases hmin : (((messages chatId before none (clamp (limits page) (i64 1) (i64 500))).eval
        db).1.map (·.messageId)).min? with
    | none =>
      have hnil := List.min?_eq_none_iff.1 hmin
      refine ⟨[], rfl, List.Pairwise.nil, ?_⟩
      intro id
      refine iff_of_false List.not_mem_nil ?_
      rintro ⟨hid, hbefore⟩
      exact hpage.nonempty id hid hbefore hnil
    | some smallest =>
      obtain ⟨hmem, hle⟩ := List.min?_eq_some_iff.1 hmin
      obtain ⟨hs, hsbelow⟩ := hpage.held smallest hmem
      have hnext := hlater.afterWrites (hwrites page)
      obtain ⟨pages, hwalk, hwalked⟩ := ih hnext (fun id => hnext.below_iff hs)
        (Nat.lt_of_lt_of_le (remaining_lt hs hsbelow) (Nat.le_of_lt_succ hcalls))
      refine ⟨_ :: pages, ?_, hpage.cons hmem hle hwalked⟩
      dsimp only
      rw [hwalk]
      rfl

/-- A walk with any limits ends after as many pages as there were messages, or fewer. Its pages
descend and have every message of the start once, whatever is added between them. A page between
two cursors has only messages between them, and skips none above its smallest. -/
theorem walk_complete (hchat : ChatRef.decode chat = .ok r)
    (hresolve : resolveChat s.aliases r = .ok chatId) :
    (∀ (start : Db) (limits : Nat → I64) (writes : Nat → List (Mutation × Schedule HistoryError)),
      (∀ page, ∀ w ∈ writes page, AddsOnly chatId start w.1) →
      ∀ calls, (heldIds chatId start).length < calls →
        ∃ pages, walk bot s chat limits writes calls 0 none start = some pages ∧
          pages.flatten.Pairwise (fun a b => b < a) ∧
          ∀ id, id ∈ pages.flatten ↔ Holds start chatId id) ∧
    ∀ (before after limit : I64) (db : Db), ∃ page : List StoredMessage,
      pageCall bot s chat (some before) (some after) limit db =
        (.ok ⟨[.arr (page.map StoredMessage.toJson)]⟩, db) ∧
      (∀ m ∈ page, m.chatId = chatId ∧ after < m.messageId ∧ m.messageId < before) ∧
      ∀ rowid m, (rowid, m) ∈ db.messages.rows → m.chatId = chatId → after < m.messageId →
        m.messageId < before → ∀ p ∈ page, p.messageId < m.messageId → m ∈ page := by
  refine ⟨?_, ?_⟩
  · intro start limits writes hwrites calls hcalls
    have hremaining : remaining chatId start none < calls :=
      Nat.lt_of_le_of_lt (List.length_filter_le _ _) hcalls
    obtain ⟨pages, hwalk, hwalked⟩ := walk_walked bot hchat hresolve hwrites .refl
      (fun _ => Iff.rfl) hremaining
    refine ⟨pages, hwalk, hwalked.descending, ?_⟩
    intro id
    rw [hwalked.mem_iff]
    exact and_iff_left fun _ hb => by cases hb
  · intro before after limit db
    have hlimit : 0 ≤ (clamp limit (i64 1) (i64 500)).val := by
      have := one_le_clamp limit
      omega
    have hbetween (m : StoredMessage) : between chatId (some before) (some after) m = true ↔
        m.chatId = chatId ∧ after < m.messageId ∧ m.messageId < before := by
      simp only [between, Option.all_some, Bool.and_eq_true, decide_eq_true_eq]
      tauto
    refine ⟨_, pageCall_eq bot hchat hresolve (some before) (some after) limit db, ?_, ?_⟩
    · intro m hm
      exact (hbetween m).1 (mem_inRange.1 (mem_inRange_of_mem_messages hlimit hm)).2
    · intro rowid m hrow hmchat hafter hbefore p hp hlt
      exact mem_messages_of_le hlimit hp
        (mem_inRange.2 ⟨⟨rowid, hrow⟩, (hbetween m).2 ⟨hmchat, hafter, hbefore⟩⟩) hlt.le

end

/-- The chat of the example has no ids from 60 on. -/
theorem holds_crowded [Fts5] {id : I64} (h : Holds crowded (i64 42) id) : id < i64 60 := by
  obtain ⟨m, hm⟩ := Option.isSome_iff_exists.1 h
  obtain ⟨⟨rowid, hrow⟩, hkey⟩ := Keyed.RowidTable.row_eq_some_iff.1 hm
  obtain ⟨i, hi⟩ := mem_crowded.1 hrow
  obtain rfl : m = (crowdedRow i).2 := (congrArg Prod.snd hi).symm
  obtain rfl : (crowdedRow i).2.messageId = id := congrArg Prod.snd hkey
  have hlt : (i.val : Int) + 1 < 60 := by omega
  exact hlt

/-- The walk through the crowded chat in pages of 20, while a newer message is stored between any
two of them, and its messages between the fifth and the tenth. -/
theorem walk_complete_crowded :
    (∃ pages, @walk Fts5.ascii offline withAlias (.ofI64 (i64 42)) (fun _ => i64 20)
        (fun _ => [(.insertMessage (.ofText (i64 42) (i64 60) (i64 200) "new" .inbound), none)])
        52 0 none (@crowded Fts5.ascii) = some pages ∧
      pages.flatten.Pairwise (fun a b => b < a) ∧
      ∀ id, id ∈ pages.flatten ↔ Holds (@crowded Fts5.ascii) (i64 42) id) ∧
    ∃ page : List StoredMessage,
      @pageCall Fts5.ascii offline withAlias (.ofI64 (i64 42)) (some (i64 10)) (some (i64 5))
        (i64 3) (@crowded Fts5.ascii) =
          (.ok ⟨[.arr (page.map StoredMessage.toJson)]⟩, @crowded Fts5.ascii) ∧
      ∀ m ∈ page, m.chatId = i64 42 ∧ i64 5 < m.messageId ∧ m.messageId < i64 10 := by
  let := Fts5.ascii
  have hchat : ChatRef.decode (.ofI64 (i64 42)) = .ok (.id (i64 42)) := rfl
  obtain ⟨hwalk, hpage⟩ := walk_complete offline (s := withAlias) hchat rfl
  refine ⟨hwalk crowded _ _ ?_ 52 ?_, ?_⟩
  · intro _ w hw
    obtain rfl := List.mem_singleton.1 hw
    exact fun _ => .inr fun id hid => holds_crowded hid
  · rw [heldIds, List.length_map]
    refine Nat.lt_of_le_of_lt (List.length_filter_le _ _) ?_
    change (((List.finRange 51).map crowdedRow).map Prod.snd).length < 52
    rw [List.length_map, List.length_map, List.length_finRange]
    omega
  · obtain ⟨page, heq, hbetween, -⟩ := hpage (i64 10) (i64 5) (i64 3) crowded
    exact ⟨page, heq, hbetween⟩

end TelegramMcp.Server
