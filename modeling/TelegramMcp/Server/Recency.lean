import TelegramMcp.Server.Process

/-!
# When a chat was last seen

Two writers set `last_seen` to the date of a message: the updater's upsert and the touch of
`mirror_outbound`. Neither compares it with the date stored, and an edit carries the date of the
message it edits. Where every date written is at least the stored one (`InOrder`), `last_seen`
never decreases and `first_seen` stays below it (`recency_monotone`).
-/

namespace TelegramMcp.Server

open Rust Txn History Keyed Proc

/-- The chat a step dates, and the date it writes to `last_seen`: a tool with the date of its
message, or the updater with that of an update. -/
inductive World.Dates (w : World) : Input → I64 → I64 → Prop
  | touch {task : Nat} {chatId date : I64} {next : Except HistoryError Unit → Task}
    (ht : w.tasks[task]? = some (.perform (.write (.touchChatLastSeen chatId date)) next))
    (flt : Schedule HistoryError) (bot : (c : BotCall) → ApiOutcome c.Result) :
    Dates w (.advance task flt bot) chatId date
  | record {update : Json} {chat : ChatInfo} {msg : StoredMessage}
    (hu : Updater.mapUpdate update = some (chat, msg)) (flt : Schedule HistoryError) :
    Dates w (.record update flt) chat.chatId msg.date

/-- The date that a step writes, or would write if its store call did not fail, is not below the one
stored for the chat. -/
def InOrder (w : World) (i : Input) : Prop :=
  ∀ chatId date, w.Dates i chatId date → ∀ c ∈ w.db.chats.find chatId, c.lastSeen ≤ date

/-- Recording an update is in order when its message is not older than `last_seen`. -/
theorem InOrder.of_record {w : World} {update : Json} {flt : Schedule HistoryError}
    {chat : ChatInfo} {msg : StoredMessage} (hu : Updater.mapUpdate update = some (chat, msg))
    (h : ∀ c ∈ w.db.chats.find chat.chatId, c.lastSeen ≤ msg.date) :
    InOrder w (.record update flt) := by
  intro chatId date hd c hc
  cases hd with
  | record hu' =>
    cases hu.symm.trans hu'
    exact h c hc

/-- Every chat was first seen no later than it was last seen. -/
def FirstLeLast (db : Db) : Prop := ∀ k, ∀ c ∈ db.chats.find k, c.firstSeen ≤ c.lastSeen

/-- Every chat is still there and was last seen no earlier. -/
def LastSeenLe (db db' : Db) : Prop :=
  ∀ k, ∀ c ∈ db.chats.find k, ∃ c' ∈ db'.chats.find k, c.lastSeen ≤ c'.lastSeen

/-- What a step in order does to the chats: each keeps `first_seen` and is seen no earlier, and a
new one is first seen no later than last. -/
structure Forward (db db' : Db) : Prop where
  kept : ∀ k, ∀ c ∈ db.chats.find k, ∃ c' ∈ db'.chats.find k,
    c'.firstSeen = c.firstSeen ∧ c.lastSeen ≤ c'.lastSeen
  fresh : ∀ k, db.chats.find k = none → ∀ c' ∈ db'.chats.find k, c'.firstSeen ≤ c'.lastSeen

/-- A store that only went forward has taken no date back. -/
theorem Forward.lastSeenLe {db db' : Db} (h : Forward db db') : LastSeenLe db db' := by
  intro k c hc
  obtain ⟨c', hc', -, hle⟩ := h.kept k c hc
  exact ⟨c', hc', hle⟩

/-- A store that only went forward keeps `first_seen` below `last_seen`. -/
theorem FirstLeLast.forward {db db' : Db} (h : FirstLeLast db) (hf : Forward db db') :
    FirstLeLast db' := by
  intro k c' hc'
  cases hold : db.chats.find k with
  | none => exact hf.fresh k hold c' hc'
  | some c =>
    obtain ⟨d, hd, hfirst, hlast⟩ := hf.kept k c hold
    obtain rfl : c' = d := Option.mem_unique hc' hd
    rw [hfirst]
    exact (h k c hold).trans hlast

/-- A store whose chats have not changed has gone forward. -/
theorem Forward.of_chats {db db' : Db} (h : db'.chats = db.chats) : Forward db db' := by
  refine ⟨?_, ?_⟩
  · intro k c hc
    exact ⟨c, h ▸ hc, rfl, le_refl _⟩
  · intro k hk c' hc'
    rw [h, hk] at hc'
    cases hc'

/-- An atomic call goes forward when its complete effect does. Otherwise it left the store as it
was, and a store is never behind itself. -/
theorem Forward.call {α : Type} {op : Op Db α} {flt : Schedule HistoryError} {db : Db}
    (hat : op.AtomicAt flt db) (h : Forward db (op.eval db).2) :
    Forward db (op.call flt db).2 := by
  rcases hat.snd with heq | heq
  · rw [heq]
    exact .of_chats rfl
  · rw [heq]
    exact h

/-- A touch goes forward when its date is in order. -/
theorem Forward.touch {db : Db} {chatId date : I64}
    (h : ∀ c ∈ db.chats.find chatId, c.lastSeen ≤ date) :
    Forward db ((touchChatLastSeen chatId date).eval db).2 := by
  refine ⟨?_, ?_⟩
  · intro k c hc
    rw [touchChatLastSeen_find, show db.chats.find k = some c from hc, Option.map_some]
    refine ⟨_, rfl, ?_⟩
    obtain ⟨-, hk⟩ := Table.find_eq_some_iff.1 hc
    split
    · next heq =>
      subst hk
      exact ⟨rfl, h c (heq ▸ hc)⟩
    · exact ⟨rfl, le_refl _⟩
  · intro k hk c' hc'
    rw [touchChatLastSeen_find, hk] at hc'
    cases hc'

/-- A record goes forward when its date is in order, for a known chat and for a new one. -/
theorem Forward.record [Fts5] {db : Db} {chat : ChatInfo} {msg : StoredMessage}
    (hm : Updater.Mapped chat msg) (h : ∀ c ∈ db.chats.find chat.chatId, c.lastSeen ≤ msg.date) :
    Forward db ((recordInbound chat msg).eval db).2 := by
  rw [recordInbound_eval]
  have hfind : ∀ k,
      (inserted msg { db with chats := db.chats.upsert chatConflict chat }).chats.find k =
        if k = chat.chatId then some (db.chats.merged chatConflict chat) else db.chats.find k :=
    fun k => Table.find_upsert chatConflict chat db.chats k
  refine ⟨?_, ?_⟩
  · intro k c hc
    rw [hfind]
    split
    · next hk =>
      subst hk
      refine ⟨_, rfl, ?_⟩
      rw [Table.merged, show db.chats.find chat.chatId = some c from hc]
      refine ⟨rfl, ?_⟩
      change c.lastSeen ≤ chat.lastSeen
      rw [hm.lastSeen]
      exact h c hc
    · exact ⟨c, hc, rfl, le_refl _⟩
  · intro k hk c' hc'
    rw [hfind] at hc'
    split at hc'
    · next heq =>
      subst heq
      rw [Table.merged, hk] at hc'
      cases hc'
      change chat.firstSeen ≤ chat.lastSeen
      rw [hm.firstSeen, hm.lastSeen]
    · rw [hk] at hc'
      cases hc'

/-! ## Runs -/

/-- The contract under which the tools make only the writes they make. -/
def outgoing : Contract Action Unit where
  le _ _ := True
  refl _ := trivial
  trans _ _ := trivial
  allowed
    | .write m, _ => Outgoing m
    | _, _ => True
  after _ _ _ _ := True

/-- The tools keep to it, by one case for each tool. -/
theorem callTool_outgoing [Fts5] (s : State) (r : CallToolRequest) :
    Keeps outgoing (callTool s r) () := by
  refine callTool_keeps s r (fun _ _ _ => trivial) (fun _ _ _ => trivial)
    (fun _ _ _ _ => trivial) ?_ ()
  intro call text mediaKind replyTo g _ _
  refine Keeps.action (fun _ => trivial) fun sent g => ?_
  refine Safe.seq ?_ fun _ _ => Keeps.done _
  exact Keeps.action (fun _ => trivial) fun _ _ => Keeps.act fun _ => trivial

section
variable [Fts5] {s : State} {w w' : World} {i : Input}

/-- A step in order goes forward, when the tasks make no writes but those that date a chat, store a
row or mark a chat as read. -/
theorem World.Stepped.forward (hs : w.Stepped s i w') (htasks : ∀ t ∈ w.tasks, Keeps outgoing t ())
    (h : InOrder w i) : Forward w.db w'.db := by
  cases hs with
  | request | api | kill => exact .of_chats rfl
  | read ht flt bot =>
    rename_i readOnly next
    rw [World.stored_db, readOnly]
    exact .of_chats rfl
  | @write task m next ht flt bot =>
    have hm : Outgoing m := (htasks _ (List.mem_of_getElem? ht) () trivial).1
    rw [World.stored_db]
    cases m with
    | touchChatLastSeen chatId date =>
      exact .call (Op.atomicAt_statement _ _ _)
        (.touch fun c hc => h chatId date (.touch ht flt bot) c hc)
    | insertMessage row =>
      refine .call (Op.atomicAt_transaction _ _ _) (.of_chats ?_)
      change ((insertMessage row).eval w.db).2.chats = _
      rw [insertMessage_eval, inserted_chats]
    | markRead chatId upTo => exact .call (Op.atomicAt_statement _ _ _) (.of_chats rfl)
    | _ => exact hm.elim
  | record hu flt =>
    rw [World.stored_db]
    exact .call (Op.atomicAt_transaction _ _ _)
      (.record (Updater.mapUpdate_mapped hu) fun c hc => h _ _ (.record hu flt) c hc)
  | retain cutoff keep flt =>
    rw [World.stored_db]
    exact .call (Op.atomicAt_transaction _ _ _)
      (.of_chats (enforceRetention_chats cutoff keep w.db))

end

/-- `first_seen` is below `last_seen`, and no step that satisfies `P` takes `last_seen` back. -/
def Recency [Fts5] (s : State) (P : World → Input → Prop) (w : World) : Prop :=
  FirstLeLast w.db ∧ ∀ i w', P w i → World.step s i w = some w' → LastSeenLe w.db w'.db

/-- The invariant of such runs, with the contract of the tasks in progress. -/
def Chronological (w : World) : Prop := FirstLeLast w.db ∧ ∀ t ∈ w.tasks, Keeps outgoing t ()

/-- In every run whose steps all write their dates in order, `last_seen` never decreases and
`first_seen` is at most `last_seen`, whatever calls fail and whenever the process is killed. -/
theorem recency_monotone [Fts5] (s : State) (w : World) (h : (server s).Reached InOrder w) :
    Recency s InOrder w := by
  have hinv : Chronological w := by
    refine h.invariant ?_ ?_
    · rintro w rfl
      exact ⟨fun _ _ hc => (nomatch hc), fun _ ht => (nomatch ht)⟩
    · rintro w i w' ⟨hle, htasks⟩ hi hs
      have hstep := World.stepped hs
      refine ⟨hle.forward (hstep.forward htasks hi), ?_⟩
      exact hstep.keeps trivial (callTool_outgoing s) (fun _ _ => trivial) (fun _ _ _ => trivial)
        (fun _ _ _ _ _ _ _ => trivial) htasks
  refine ⟨hinv.1, fun i w' hi hs => ?_⟩
  exact ((World.stepped hs).forward hinv.2 hi).lastSeenLe

/-- The store call of a step, if it has one, meets no fault. -/
def Input.Faultless : Input → Prop
  | .advance _ flt _ | .record _ flt | .retain _ _ flt => flt = none
  | .request _ | .kill => True

/-- Order is also necessary: a step that writes a date without a fault takes `last_seen` back unless
it is in order. -/
theorem LastSeenLe.inOrder [Fts5] {s : State} {w w' : World} {i : Input}
    (h : LastSeenLe w.db w'.db) (hs : World.step s i w = some w') (hi : i.Faultless) :
    InOrder w i := by
  intro chatId date hd c hc
  cases hd with
  | @touch task _ _ next ht flt bot =>
    obtain rfl : flt = none := hi
    have hdb : w'.db = ((touchChatLastSeen chatId date).eval w.db).2 := by
      rw [World.step, ht] at hs
      cases hs
      rw [World.stored_db, Op.call_none]
      rfl
    obtain ⟨c', hc', hle⟩ := h chatId c hc
    obtain ⟨-, hk⟩ := Table.find_eq_some_iff.1 hc
    rw [hdb, touchChatLastSeen_find, show w.db.chats.find chatId = some c from hc] at hc'
    cases hc'
    dsimp only at hle
    rwa [if_pos hk] at hle
  | @record update chat msg hu flt =>
    obtain rfl : flt = none := hi
    have hdb : w'.db = ((recordInbound chat msg).eval w.db).2 := by
      rw [World.step, hu] at hs
      cases hs
      rw [World.stored_db, Op.call_none]
    obtain ⟨c', hc', hle⟩ := h chat.chatId c hc
    rw [hdb, recordInbound_eval, inserted_chats, Table.find_upsert, if_pos rfl, Table.merged,
      show w.db.chats.find chat.chatId = some c from hc] at hc'
    cases hc'
    rw [← (Updater.mapUpdate_mapped hu).lastSeen]
    exact hle

/-- Two messages are recorded in the order of their dates, and the chat has the later one. -/
theorem recency_monotone_recorded :
    ∃ w : World, w.db.chats.rows.map ChatInfo.lastSeen = [i64 200] ∧
      @Recency Fts5.ascii unrestricted InOrder w := by
  let := Fts5.ascii
  let P : World → Input → Prop := InOrder
  have h0 : (server unrestricted).Reached P ⟨.migrated, [], []⟩ := .init rfl
  have h1 := h0.step (Input.record (Updater.textUpdate 10 42 1 100 "first") none)
    (.of_record rfl fun _ hc => nomatch hc) rfl
  have h2 := h1.step (Input.record (Updater.textUpdate 11 42 2 200 "second") none)
    (.of_record rfl fun c hc => by
      obtain rfl : ⟨i64 42, .private, none, none, i64 100, i64 100⟩ = c := Option.some.inj hc
      decide) rfl
  exact ⟨_, rfl, recency_monotone unrestricted _ h2⟩

/-- The first of two messages is edited: the update has the date of the message, and `last_seen`
goes back to it. -/
theorem recency_reversed :
    ¬ ∀ (_ : Fts5) (s : State) (w : World), (server s).Reached (fun _ _ => True) w →
      Recency s (fun _ _ => True) w := by
  intro h
  let := Fts5.ascii
  let P : World → Input → Prop := fun _ _ => True
  have h0 : (server unrestricted).Reached P ⟨.migrated, [], []⟩ := .init rfl
  have h1 := h0.step (Input.record (Updater.textUpdate 10 42 1 100 "first") none) trivial rfl
  have h2 := h1.step (Input.record (Updater.textUpdate 11 42 2 200 "second") none) trivial rfl
  have hle := (h _ unrestricted _ h2).2
    (Input.record (Updater.editUpdate 12 42 1 100 "first, edited") none) _ trivial rfl
  obtain ⟨c', hc', hlast⟩ := hle (i64 42) ⟨i64 42, .private, none, none, i64 100, i64 200⟩ rfl
  obtain rfl : ⟨i64 42, .private, none, none, i64 100, i64 100⟩ = c' := Option.some.inj hc'
  exact absurd hlast (by decide)

end TelegramMcp.Server
