import TelegramMcp.Lib.Newest
import TelegramMcp.History.Store

/-!
# Pages of messages

`messagesSql` is the statement `messages` builds from the cursors it is given (`messagesSql_rows`).
What `messages` returns, by the messages stored between the cursors: the newest of them, as many as
the limit allows, each once (`mem_messages_iff`, `messages_pairwise`).
-/

namespace TelegramMcp.History

open Rust Txn

/-! ## The statement -/

/-- A condition of the `WHERE` clause, with the number of its parameter. -/
inductive Cond
  | chatIdEq (param : Nat)
  | messageIdLt (param : Nat)
  | messageIdGt (param : Nat)

/-- A `SELECT` of messages, newest first, with the parameter of its `LIMIT` and the arguments
bound to the parameters, which are numbered from 1. -/
structure Select where
  conds : List Cond
  limitParam : Nat
  args : List I64

namespace Select

/-- The condition is added to the statement with the next parameter, which is bound to `arg`. -/
def and (sql : Select) (cond : Nat → Cond) (arg : I64) : Select :=
  { sql with conds := sql.conds ++ [cond (sql.args.length + 1)], args := sql.args ++ [arg] }

/-- The limit takes the parameter after those of the conditions. -/
def limit (sql : Select) (arg : I64) : Select :=
  { sql with limitParam := sql.args.length + 1, args := sql.args ++ [arg] }

/-- The argument of a parameter; one that is not bound is `NULL`. -/
def arg (sql : Select) (param : Nat) : Option I64 :=
  if param = 0 then none else sql.args[param - 1]?

/-- A comparison of SQL, where one with `NULL` does not hold. -/
def holds (sql : Select) (m : StoredMessage) : Cond → Bool
  | .chatIdEq param => (sql.arg param).any (m.chatId = ·)
  | .messageIdLt param => (sql.arg param).any (m.messageId < ·)
  | .messageIdGt param => (sql.arg param).any (· < m.messageId)

/-- The rows that the statement returns: those that meet its conditions, newest first, up to its
limit. -/
def rows (sql : Select) (db : Db) : List StoredMessage :=
  let selected := (db.messages.rows.map Prod.snd).filter fun m => sql.conds.all (sql.holds m)
  let sorted := selected.insertionSort fun a b => b.messageId ≤ a.messageId
  (sql.arg sql.limitParam).elim sorted fun n => limited n.val sorted

end Select

/-- The statement that `messages` builds, with its parameters numbered as the source numbers
them. -/
def messagesSql (chatId : I64) (beforeMessageId afterMessageId : Option I64) (limit : I64) :
    Select :=
  let sql : Select := ⟨[.chatIdEq 1], 0, [chatId]⟩
  let sql := beforeMessageId.elim sql fun before => sql.and .messageIdLt before
  let sql := afterMessageId.elim sql fun after => sql.and .messageIdGt after
  sql.limit limit

section
variable (chatId : I64) (before after : Option I64) (limit : I64)

/-- Whichever cursors there are, each condition compares with its own parameter. -/
theorem messagesSql_holds (m : StoredMessage) :
    (messagesSql chatId before after limit).conds.all
      ((messagesSql chatId before after limit).holds m) = between chatId before after m := by
  cases before with
  | none => cases after with
    | none => simp [messagesSql, Select.limit, Select.holds, Select.arg, between]
    | some a => simp [messagesSql, Select.limit, Select.and, Select.holds, Select.arg, between]
  | some b => cases after with
    | none => simp [messagesSql, Select.limit, Select.and, Select.holds, Select.arg, between]
    | some a =>
      simp [messagesSql, Select.limit, Select.and, Select.holds, Select.arg, between,
        Bool.and_assoc]

/-- The parameter that the `LIMIT` clause names is the limit, in each of the four statements. -/
theorem messagesSql_limit :
    (messagesSql chatId before after limit).arg
      (messagesSql chatId before after limit).limitParam = some limit := by
  cases before with
  | none => cases after with
    | none => rfl
    | some a => rfl
  | some b => cases after with
    | none => rfl
    | some a => rfl

/-- The statement returns what `messages` does, so the numbering of its parameters fits what is
bound to them. -/
theorem messagesSql_rows (db : Db) :
    (messagesSql chatId before after limit).rows db =
      ((messages chatId before after limit).eval db).1 := by
  have hrows : ((messages chatId before after limit).eval db).1 =
      limited limit.val (messagesRows chatId before after db) := rfl
  rw [hrows, messagesRows, Select.rows, messagesSql_limit]
  simp only [messagesSql_holds]
  rfl

end

/-! ## Pages -/

/-- The messages of a chat that are stored between two cursors. -/
def inRange (chatId : I64) (beforeMessageId afterMessageId : Option I64) (db : Db) :
    List StoredMessage :=
  (db.messages.rows.map Prod.snd).filter (between chatId beforeMessageId afterMessageId)

/-- The stored messages of a chat newer than one of them. -/
def newerThan (m : StoredMessage) (db : Db) : List StoredMessage :=
  (db.messages.rows.map Prod.snd).filter fun r => r.chatId = m.chatId && m.messageId < r.messageId

section
variable {chatId : I64} {before after : Option I64} {db : Db}

/-- The rows in range are the stored messages that meet the conditions of the query. -/
theorem mem_inRange {m : StoredMessage} :
    m ∈ inRange chatId before after db ↔
      (∃ rowid, (rowid, m) ∈ db.messages.rows) ∧ between chatId before after m := by
  simp [inRange]

/-- In one chat no two messages have the same id, as the two are the key of the table. -/
theorem inRange_nodup : ((inRange chatId before after db).map (·.messageId)).Nodup := by
  have hkey : ((inRange chatId before after db).map StoredMessage.key).Nodup := by
    have hnodup : ((db.messages.rows.map Prod.snd).map StoredMessage.key).Nodup := by
      rw [List.map_map]
      exact db.messages.nodup
    exact hnodup.sublist (List.filter_sublist.map _)
  have hchat : ∀ m ∈ inRange chatId before after db, m.chatId = chatId := by
    intro m hm
    have hbetween := (mem_inRange.1 hm).2
    simp only [between, Bool.and_eq_true, decide_eq_true_eq] at hbetween
    exact hbetween.1.1
  refine List.pairwise_map.2 ((List.pairwise_map.1 hkey).imp_of_mem ?_)
  intro m m' hm hm' hne heq
  exact hne (Prod.ext ((hchat m hm).trans (hchat m' hm').symm) heq)

/-- A page is in strictly descending order of the message ids. -/
theorem messages_pairwise {limit : I64} :
    ((messages chatId before after limit).eval db).1.Pairwise
      fun m m' => m'.messageId < m.messageId := by
  have hrows : (messagesRows chatId before after db).Pairwise
      fun m m' => m'.messageId < m.messageId :=
    Newest.newestFirst_pairwise inRange_nodup
  change (limited limit.val (messagesRows chatId before after db)).Pairwise _
  unfold limited
  split
  · exact hrows
  · exact hrows.sublist (List.take_sublist _ _)

/-- A page is the newest messages between the cursors, as many as the limit allows. -/
theorem messages_eval {limit : I64} (hlimit : 0 ≤ limit.val) :
    ((messages chatId before after limit).eval db).1 =
      (Newest.newestFirst (·.messageId) (inRange chatId before after db)).take
        limit.val.toNat :=
  if_neg (not_lt.2 hlimit)

/-- A page returns nothing that is not in range. -/
theorem mem_inRange_of_mem_messages {limit : I64} (hlimit : 0 ≤ limit.val) {m : StoredMessage}
    (hm : m ∈ ((messages chatId before after limit).eval db).1) :
    m ∈ inRange chatId before after db := by
  rw [messages_eval hlimit, Newest.mem_take_newestFirst inRange_nodup] at hm
  exact hm.1

/-- No message between the cursors is skipped above one that is on the page. -/
theorem mem_messages_of_le {limit : I64} (hlimit : 0 ≤ limit.val) {m p : StoredMessage}
    (hp : p ∈ ((messages chatId before after limit).eval db).1)
    (hm : m ∈ inRange chatId before after db) (hle : p.messageId ≤ m.messageId) :
    m ∈ ((messages chatId before after limit).eval db).1 := by
  rw [messages_eval hlimit] at hp ⊢
  exact Newest.mem_take_newestFirst_of_le inRange_nodup hp hm hle

/-- A page is empty only when there is no message between the cursors. -/
theorem messages_ne_nil {limit : I64} (hlimit : 1 ≤ limit.val) {m : StoredMessage}
    (hm : m ∈ inRange chatId before after db) :
    ((messages chatId before after limit).eval db).1 ≠ [] := by
  have hperm : (Newest.newestFirst (·.messageId) (inRange chatId before after db)).Perm
      (inRange chatId before after db) := List.perm_insertionSort _ _
  rw [messages_eval (by omega), Ne, List.take_eq_nil_iff, not_or]
  exact ⟨by omega, List.ne_nil_of_mem (hperm.mem_iff.2 hm)⟩

/-- The messages on a page from the newest down to a cursor. -/
theorem mem_messages_iff {limit : I64} (hlimit : 0 ≤ limit.val) {m : StoredMessage} :
    m ∈ ((messages chatId none after limit).eval db).1 ↔
      m ∈ inRange chatId none after db ∧ (newerThan m db).length < limit.val.toNat := by
  rw [messages_eval hlimit, Newest.mem_take_newestFirst inRange_nodup]
  refine and_congr_right fun hm => ?_
  have hbetween := (mem_inRange.1 hm).2
  have hnewer : (inRange chatId none after db).filter (fun y => m.messageId < y.messageId) =
      newerThan m db := by
    rw [inRange, List.filter_filter, newerThan]
    refine List.filter_congr fun y _ => ?_
    cases after with
    | none =>
      simp only [between, Option.all_none, Bool.and_true, decide_eq_true_eq] at hbetween ⊢
      rw [hbetween, Bool.and_comm]
    | some a =>
      simp only [between, Option.all_none, Option.all_some, Bool.and_true, Bool.and_eq_true,
        decide_eq_true_eq] at hbetween ⊢
      rw [hbetween.1, Bool.eq_iff_iff]
      simp only [Bool.and_eq_true, decide_eq_true_eq]
      exact ⟨fun h => ⟨h.2.1, h.1⟩, fun h => ⟨h.2, h.1, hbetween.2.trans h.2⟩⟩
  rw [hnewer]

end

end TelegramMcp.History
