import TelegramMcp.History.Paging
import TelegramMcp.Hook.Calls

/-!
# The replies a poll returns

A poll reads the newest 50 messages of the chat after the baseline and keeps the inbound ones. So it
returns every reply exactly when no reply has 50 newer messages in its chat, inbound or outbound
(`pollOnce_exact_iff`).
-/

namespace TelegramMcp.Hook

open Rust Txn History Server Proc

/-- How a server at which nothing fails performs an action, with these answers of the Bot API. -/
def serve [Fts5] (bot : (c : BotCall) → ApiOutcome c.Result) {β : Type} : Action β → Db → β × Db
  | .write m, db => (.ok (m.op.eval db).1, (m.op.eval db).2)
  | .read op _, db => (.ok (op.eval db).1, db)
  | .api c, db => (bot c, db)

/-- The reply that a message is: its id and its text. -/
def Reply.ofMessage (m : StoredMessage) : Reply := ⟨m.messageId, m.text⟩

/-- The replies among the messages of a page, in its order. -/
def inboundReplies (page : List StoredMessage) : List Reply :=
  (page.filter fun m => m.direction = .inbound).map .ofMessage

/-! ## What the hook makes of a page -/

/-- From the JSON of a row, a reply is read if the row is inbound. -/
theorem replyOf_toJson (m : StoredMessage) :
    replyOf m.toJson = if m.direction = .inbound then some (.ofMessage m) else none := by
  have hdirection : (m.toJson.get "direction").bind Json.asStr = some m.direction.asSql := rfl
  have hid : (m.toJson.get "message_id").bind Json.asI64 = some m.messageId :=
    Json.asI64_ofI64 m.messageId
  have htext : (m.toJson.get "text").bind Json.asStr = m.text := by
    change (Json.ofOption Json.str m.text).asStr = m.text
    cases m.text <;> rfl
  rw [replyOf, hdirection, hid, htext]
  cases m.direction with
  | inbound => rfl
  | outbound => rfl

/-- From the JSON of a page, the replies of its inbound rows are read, in the order of the page. -/
theorem filterMap_replyOf (page : List StoredMessage) :
    (page.map StoredMessage.toJson).filterMap replyOf = inboundReplies page := by
  induction page with
  | nil => rfl
  | cons m page ih =>
    rw [List.map_cons, List.filterMap_cons, replyOf_toJson, ih]
    unfold inboundReplies
    rw [List.filter_cons]
    cases m.direction with
    | inbound => rfl
    | outbound => rfl

section
variable [Fts5] (bot : (c : BotCall) → ApiOutcome c.Result) (s : State)

/-- A poll of a chat with an alias reads one page and sorts the replies on it. -/
theorem pollOnce_run {arg : String} {chat : I64} (h : s.aliases.get arg = some chat)
    (after : I64) (db : Db) :
    (pollOnce s arg after).run (serve bot) db =
      (.ok (sortReplies (inboundReplies
        ((messages chat none (some after) (i64 50)).eval db).1)), db) := by
  have hchat : pollTarget s.aliases (pollArgs arg after) = .ok chat := by
    rw [pollTarget_pollArgs, resolveChat_name_iff]
    exact h
  have hcall : (callTool s "tg_history_messages" (pollArgs arg after)).run (serve bot) db =
      (.ok ⟨[.arr (((messages chat none (some after) (i64 50)).eval db).1.map
        StoredMessage.toJson)]⟩, db) := by
    rw [callTool, callTool_pollArgs, hchat]
    rfl
  rw [pollOnce, run_bind, hcall]
  simp only [run_lift]
  rw [← filterMap_replyOf]
  rfl

/-- A poll of a chat that is no alias is an error of the server. -/
theorem pollOnce_unresolved {arg : String} (h : s.aliases.get arg = none) (after : I64) (db : Db) :
    (pollOnce s arg after).run (serve bot) db = (.error (.mcp (aliasErrToMcp ⟨arg⟩)), db) := by
  have hchat : pollTarget s.aliases (pollArgs arg after) = .error (aliasErrToMcp ⟨arg⟩) := by
    rw [pollTarget_pollArgs, resolveChat, Aliases.resolve, h]
    rfl
  rw [pollOnce, callTool, callTool_pollArgs, hchat]
  rfl

end

/-! ## Exact polls -/

/-- A message of the chat that was received after the baseline. -/
def IsReply (chat after : I64) (m : StoredMessage) : Prop :=
  m.chatId = chat ∧ m.direction = .inbound ∧ after < m.messageId

/-- The messages stored as received in the chat after the baseline, each once and in ascending
order. -/
structure Exact (db : Db) (chat after : I64) (replies : List Reply) : Prop where
  ascending : replies.Pairwise fun r r' => r.messageId < r'.messageId
  mem_iff : ∀ r, r ∈ replies ↔
    ∃ rowid m, (rowid, m) ∈ db.messages.rows ∧ IsReply chat after m ∧ r = .ofMessage m

section
variable {db : Db} {chat after : I64} {limit : I64}

/-- The sorted replies of any page are in strictly ascending order. -/
theorem sortReplies_ascending :
    (sortReplies (inboundReplies ((messages chat none (some after) limit).eval db).1)).Pairwise
      fun r r' => r.messageId < r'.messageId := by
  refine Newest.oldestFirst_pairwise (List.pairwise_map.2 (List.pairwise_map.2 ?_))
  refine (messages_pairwise.sublist List.filter_sublist).imp ?_
  intro m m' hlt
  exact (ne_of_lt hlt).symm

/-- The replies on a page are those with fewer newer messages than its limit. -/
theorem mem_sortReplies_iff (hlimit : 0 ≤ limit.val) {r : Reply} :
    r ∈ sortReplies (inboundReplies ((messages chat none (some after) limit).eval db).1) ↔
      ∃ rowid m, (rowid, m) ∈ db.messages.rows ∧ IsReply chat after m ∧
        (newerThan m db).length < limit.val.toNat ∧ r = .ofMessage m := by
  rw [sortReplies, (List.perm_insertionSort _ _).mem_iff, inboundReplies, List.mem_map]
  refine ⟨?_, ?_⟩
  · rintro ⟨m, hm, rfl⟩
    obtain ⟨hpage, hin⟩ := List.mem_filter.1 hm
    obtain ⟨hrange, hlt⟩ := (mem_messages_iff hlimit).1 hpage
    obtain ⟨⟨rowid, hrow⟩, hbetween⟩ := mem_inRange.1 hrange
    simp only [between, Option.all_none, Option.all_some, Bool.and_true, Bool.and_eq_true,
      decide_eq_true_eq] at hbetween hin
    exact ⟨rowid, m, hrow, ⟨hbetween.1, hin, hbetween.2⟩, hlt, rfl⟩
  · rintro ⟨rowid, m, hrow, ⟨hchat, hin, hafter⟩, hlt, rfl⟩
    have hrange : m ∈ inRange chat none (some after) db :=
      mem_inRange.2 ⟨⟨rowid, hrow⟩, by simp [between, hchat, hafter]⟩
    exact ⟨m, List.mem_filter.2 ⟨(mem_messages_iff hlimit).2 ⟨hrange, hlt⟩, by simp [hin]⟩, rfl⟩

/-- A page has all replies exactly when each of them has fewer newer messages than the limit. -/
theorem exact_page_iff (hlimit : 0 ≤ limit.val) :
    Exact db chat after
        (sortReplies (inboundReplies ((messages chat none (some after) limit).eval db).1)) ↔
      ∀ rowid m, (rowid, m) ∈ db.messages.rows → IsReply chat after m →
        (newerThan m db).length < limit.val.toNat := by
  refine ⟨?_, ?_⟩
  · intro hexact rowid m hrow hreply
    have hmem := (hexact.mem_iff _).2 ⟨rowid, m, hrow, hreply, rfl⟩
    obtain ⟨rowid', m', hrow', hreply', hlt, heq⟩ := (mem_sortReplies_iff hlimit).1 hmem
    have hsame : m = m' := by
      have hkey : m.key = m'.key :=
        Prod.ext (hreply.1.trans hreply'.1.symm) (congrArg Reply.messageId heq)
      exact congrArg Prod.snd (List.inj_on_of_nodup_map db.messages.nodup hrow hrow' hkey)
    rwa [hsame]
  · intro hfew
    refine ⟨sortReplies_ascending, fun r => (mem_sortReplies_iff hlimit).trans ?_⟩
    refine ⟨?_, ?_⟩
    · rintro ⟨rowid, m, hrow, hreply, -, rfl⟩
      exact ⟨rowid, m, hrow, hreply, rfl⟩
    · rintro ⟨rowid, m, hrow, hreply, rfl⟩
      exact ⟨rowid, m, hrow, hreply, hfew rowid m hrow hreply, rfl⟩

end

/-- A poll returns exactly the replies after the baseline when, and only when, its argument is an
alias and each of them has fewer than 50 newer messages in the chat: the store cuts the page off at
50 rows of either direction, before the inbound ones are taken. -/
theorem pollOnce_exact_iff [Fts5] (bot : (c : BotCall) → ApiOutcome c.Result) (s : State)
    {arg : String} {chat : I64} (h : Denotes s.aliases arg chat) (after : I64) (db : Db) :
    (∃ replies, ((pollOnce s arg after).run (serve bot) db).1 = .ok replies ∧
        Exact db chat after replies) ↔
      (s.aliases.get arg).isSome ∧
        ∀ rowid m, (rowid, m) ∈ db.messages.rows → IsReply chat after m →
          (newerThan m db).length < 50 := by
  rcases h with hsome | ⟨hnone, -⟩
  · rw [pollOnce_run bot s hsome, hsome, Option.isSome_some, and_iff_right rfl]
    have hlimit : 0 ≤ (i64 50).val := by decide
    refine Iff.trans ?_ (exact_page_iff hlimit)
    refine ⟨?_, ?_⟩
    · rintro ⟨_, ⟨⟩, hexact⟩
      exact hexact
    · intro hexact
      exact ⟨_, rfl, hexact⟩
  · rw [pollOnce_unresolved bot s hnone, hnone]
    refine iff_of_false ?_ (fun h => nomatch h.1)
    rintro ⟨_, ⟨⟩, -⟩

/-! ## A crowded chat -/

/-- A chat with 51 messages, of which the first two are inbound. -/
def crowdedRow (i : Fin 51) : Nat × StoredMessage :=
  (i.val + 1, .ofText (i64 42) ⟨i.val + 1, by omega⟩ (i64 100) "text"
    (if i.val < 2 then .inbound else .outbound))

/-- The rows of the crowded chat have ids of their own. -/
theorem crowdedRow_injective {i j : Fin 51}
    (h : (crowdedRow i).2.messageId = (crowdedRow j).2.messageId) : i = j := by
  have hval : (i.val : Int) + 1 = j.val + 1 := congrArg Subtype.val h
  omega

/-- The store with these rows and their chat, and an index made from them. -/
def crowded [Fts5] : Db :=
  rebuilt { Db.migrated with
    chats := ⟨[⟨i64 42, .private, none, none, i64 100, i64 100⟩], by simp⟩
    messages :=
      { rows := (List.finRange 51).map crowdedRow
        nodup := by
          rw [List.map_map]
          exact (List.nodup_finRange 51).map fun i j h =>
            crowdedRow_injective (congrArg Prod.snd h)
        rowids := by
          rw [List.map_map]
          exact (List.nodup_finRange 51).map fun i j h => Fin.ext (Nat.succ.inj h) } }

/-- The state of a server with an alias for the chat. -/
def withAlias : State := { unrestricted with aliases := ⟨⟨[("me", i64 42)], by simp⟩⟩ }

/-- The rows of the store are those. -/
theorem mem_crowded [Fts5] {r : Nat × StoredMessage} :
    r ∈ crowded.messages.rows ↔ ∃ i, crowdedRow i = r := by
  change r ∈ (List.finRange 51).map crowdedRow ↔ _
  simp

/-- The first message has 50 newer ones, and the second 49. -/
theorem newerThan_crowdedRow [Fts5] (i : Fin 51) (h : i.val < 2) :
    (newerThan (crowdedRow i).2 crowded).length = 50 - i.val := by
  obtain rfl | rfl : i = 0 ∨ i = 1 := by omega
  · rfl
  · rfl

/-- The Bot API when it answers nothing. -/
def offline (c : BotCall) : ApiOutcome c.Result := .refused (.http "offline")

/-- With the first message of the crowded chat as the baseline, a poll returns the second. -/
theorem pollOnce_exact_crowded :
    ∃ replies, ((@pollOnce Fts5.ascii withAlias "me" (i64 1)).run
        (@serve Fts5.ascii offline) (@crowded Fts5.ascii)).1 = .ok replies ∧
      Exact (@crowded Fts5.ascii) (i64 42) (i64 1) replies := by
  let := Fts5.ascii
  refine (pollOnce_exact_iff offline withAlias (.inl rfl) (i64 1) crowded).2 ⟨rfl, ?_⟩
  intro rowid m hrow ⟨_, hin, hafter⟩
  obtain ⟨i, hi⟩ := mem_crowded.1 hrow
  obtain rfl : m = (crowdedRow i).2 := (congrArg Prod.snd hi).symm
  have hlt : i.val < 2 := by
    by_contra hge
    exact nomatch (if_neg hge).symm.trans hin
  have hpos : (1 : Int) < i.val + 1 := hafter
  rw [newerThan_crowdedRow i hlt]
  omega

/-- With an older baseline, a poll misses the first of the two replies, as 50 newer rows fill the
page. -/
theorem pollOnce_misses :
    ¬ ∀ (_ : Fts5) (bot : (c : BotCall) → ApiOutcome c.Result) (s : State) (arg : String)
      (chat after : I64) (db : Db), s.aliases.get arg = some chat →
      ∃ replies, ((pollOnce s arg after).run (serve bot) db).1 = .ok replies ∧
        Exact db chat after replies := by
  intro h
  let := Fts5.ascii
  obtain ⟨replies, hrun, hexact⟩ := h _ offline withAlias "me" (i64 42) (i64 0) crowded rfl
  have hget : withAlias.aliases.get "me" = some (i64 42) := rfl
  rw [pollOnce_run _ withAlias hget] at hrun
  cases hrun
  have hlimit : 0 ≤ (i64 50).val := by decide
  have hlt := (exact_page_iff hlimit).1 hexact 1 (crowdedRow 0).2
    (mem_crowded.2 ⟨0, rfl⟩) ⟨rfl, rfl, by decide⟩
  rw [newerThan_crowdedRow 0 (by decide)] at hlt
  exact absurd hlt (by decide)

end TelegramMcp.Hook
