import TelegramMcp.Server.Process

/-!
# The rows of messages the server sent

Three writers share the row of a message the server sent: the mirror of the send, the mirror of an
edit, and the updater. The mirror of an edit does not know what the message replied to, and the
updater takes every message for inbound, so either may overwrite what the send stored. Where no edit
is of a reply and no update is of a sent message (`Undisturbed`), the row keeps every column but its
text (`provenance_kept`).
-/

namespace TelegramMcp.Server

open Rust Txn History Keyed Proc

/-- The `reply_to` with which a message was sent by `tg_send_message`. -/
def Sent.replyTo? (x : Sent) : Option (Option I64) :=
  match x.call with
  | .sendMessage _ _ _ replyTo _ _ => some replyTo
  | _ => none

/-- The call edits a message instead of sending one. -/
def isEdit : SendCall → Bool
  | .editMessageText _ _ _ _ => true
  | _ => false

/-- The row is the one first mirrored, but for its text. -/
def Sent.Matches (x : Sent) (row : StoredMessage) : Prop := row = { x.row with text := row.text }

/-- In this step Telegram performs a call that sends or edits, and answers it. -/
inductive World.Answered (w : World) : Input → SendCall → SentMessage → Prop
  | intro {task : Nat} {call : SendCall} {next : ApiOutcome SentMessage → Task} {msg : SentMessage}
    (ht : w.tasks[task]? = some (.perform (.api (.send call)) next)) (flt : Schedule HistoryError)
    {bot : (c : BotCall) → ApiOutcome c.Result} (hb : bot (.send call) = .accepted msg) :
    Answered w (.advance task flt bot) call msg

/-- Telegram's part: a new message has a chat and an identifier of its own, and an edit is of a
message sent by `tg_send_message`, whose chat, identifier and date the answer repeats. -/
structure Telegram (w : World) (i : Input) : Prop where
  fresh : ∀ call msg, w.Answered i call msg → isEdit call = false →
    (∀ x ∈ w.sent, x.row.key ≠ (msg.chatId, msg.messageId)) ∧
      w.db.messages.row (msg.chatId, msg.messageId) = none
  edited : ∀ call msg, w.Answered i call msg → isEdit call = true →
    ∃ x ∈ w.sent, x.replyTo?.isSome ∧ x.msg = msg

/-- No update is of a message that the server sent, and no edit is of one that was sent as a reply:
the two ways in which a row loses what it was stored with. -/
structure Undisturbed (w : World) (i : Input) : Prop where
  unrecorded : ∀ update flt, i = .record update flt → ∀ r ∈ Updater.mapUpdate update,
    ∀ x ∈ w.sent, x.row.key ≠ r.2.key
  plain : ∀ call msg, w.Answered i call msg → isEdit call = true →
    ∀ x ∈ w.sent, x.msg = msg → x.row.replyTo = none

/-! ## The ledger of sent messages as a contract -/

/-- The only message rows written are those of the ledger, but for their text; the ledger grows, and
has the message of every answer. -/
def ledger : Contract Action (List Sent) where
  le g g' := g ⊆ g'
  refl _ := List.Subset.refl _
  trans := List.Subset.trans
  allowed
    | .write (.insertMessage row), g => ∃ x ∈ g, x.Matches row
    | .write m, _ => Outgoing m
    | _, _ => True
  after
    | .api (.send call), g, .accepted msg, g' => g ⊆ g' ∧ ∃ x ∈ g', x.Matches (mirroredRow msg call)
    | _, g, _, g' => g ⊆ g'

/-- The tail of the send tools mirrors the message of the answer. -/
theorem deliver_ledger {call : SendCall} {text mediaKind : Option String} {replyTo : Option I64}
    (hrow : ∀ sent, outboundRow sent text mediaKind replyTo = mirroredRow sent call)
    (g : List Sent) : Keeps ledger (deliver call text mediaKind replyTo) g := by
  intro g₁ _
  refine ⟨trivial, ?_⟩
  rintro (msg | e | e) g₂ h₂
  case acceptedLost | refused => exact fun _ _ => trivial
  obtain ⟨-, x, hx, hm⟩ := h₂
  intro g₃ h₃
  refine ⟨trivial, ?_⟩
  rintro (e | ⟨⟩) g₄ h₄
  case error => exact fun _ _ => trivial
  intro g₅ h₅
  refine ⟨⟨x, h₅ (h₄ (h₃ hx)), ?_⟩, ?_⟩
  · rw [hrow]
    exact hm
  · rintro (e | ⟨⟩) _ _ <;> exact fun _ _ => trivial

/-- Every tool keeps to the ledger: it mirrors only what it has just sent or edited. -/
theorem callTool_ledger [Fts5] (s : State) (r : CallToolRequest) (g : List Sent) :
    Keeps ledger (callTool s r) g :=
  callTool_keeps s r (fun _ _ _ => trivial) (fun _ _ _ => trivial) (fun _ _ _ _ => trivial)
    (fun _ _ _ _ g _ hrow => deliver_ledger hrow g) g

/-! ## What a step does to the rows -/

/-- The row of a message that was sent has its chat and its id as the key. -/
@[simp] theorem mirroredRow_key (msg : SentMessage) (call : SendCall) :
    (mirroredRow msg call).key = (msg.chatId, msg.messageId) := by
  cases call <;> rfl

/-- The mirror of a plain message's edit is its own row with another text. -/
theorem Sent.matches_edit {x : Sent} {call : SendCall} (hx : x.replyTo?.isSome)
    (hplain : x.row.replyTo = none) (hcall : isEdit call = true) :
    x.Matches (mirroredRow x.msg call) := by
  obtain ⟨orig, msg⟩ := x
  cases call with
  | editMessageText =>
    cases orig with
    | sendMessage chatId text pm replyTo =>
      obtain rfl : replyTo = none := hplain
      rfl
    | _ => cases hx
  | _ => cases hcall

/-- An answered call that is no edit is a message sent. -/
theorem sentBy_accepted {call : SendCall} {msg : SentMessage} (h : isEdit call = false) :
    sentBy (.send call) (.accepted msg) = some ⟨call, msg⟩ := by
  cases call with
  | editMessageText => cases h
  | _ => rfl

/-- What a step sends is the call that was answered in it. -/
theorem sentBy_eq_some {c : BotCall} {bot : (c : BotCall) → ApiOutcome c.Result} {x : Sent}
    (h : sentBy c (bot c) = some x) :
    c = .send x.call ∧ bot (.send x.call) = .accepted x.msg ∧ isEdit x.call = false := by
  cases c with
  | send call =>
    cases hb : bot (.send call) with
    | accepted msg =>
      rw [hb] at h
      cases call <;> cases h <;> exact ⟨rfl, hb, rfl⟩
    | acceptedLost | refused => rw [hb] at h; cases call <;> cases h
  | _ => cases h

/-- The rows of sent messages are theirs but for the text, no two messages share a row, and the
tasks keep to the ledger. -/
structure Ledgered (w : World) : Prop where
  rows : ∀ x ∈ w.sent, ∀ row ∈ w.db.messages.row x.row.key, x.Matches row
  unique : ∀ x ∈ w.sent, ∀ y ∈ w.sent, x.row.key = y.row.key → x = y
  tasks : ∀ t ∈ w.tasks, Keeps ledger t w.sent

/-- Of a call on the store that is atomic, only the complete effect matters. -/
theorem Ledgered.rows_call {w : World} {α : Type} {op : Op Db α} {flt : Schedule HistoryError}
    (h : Ledgered w) (hat : op.AtomicAt flt w.db)
    (heval : ∀ x ∈ w.sent, ∀ row ∈ (op.eval w.db).2.messages.row x.row.key, x.Matches row) :
    ∀ x ∈ w.sent, ∀ row ∈ (op.call flt w.db).2.messages.row x.row.key, x.Matches row := by
  rcases hat.snd with heq | heq
  · rw [heq]
    exact h.rows
  · rw [heq]
    exact heval

section
variable [Fts5] {s : State} {w w' : World} {i : Input}

/-- The rows of the messages sent before a step match after it. -/
theorem Ledgered.rows_step (h : Ledgered w) (hs : w.Stepped s i w') (hi : Undisturbed w i) :
    ∀ x ∈ w.sent, ∀ row ∈ w'.db.messages.row x.row.key, x.Matches row := by
  cases hs with
  | request | api | kill => exact h.rows
  | @read task β op readOnly next ht flt bot =>
    rw [World.stored_db, readOnly]
    exact h.rows
  | @write task m next ht flt bot =>
    have hm : ledger.allowed (.write m) w.sent :=
      (h.tasks _ (List.mem_of_getElem? ht) _ (List.Subset.refl _)).1
    rw [World.stored_db]
    cases m with
    | touchChatLastSeen | markRead => exact h.rows_call (Op.atomicAt_statement _ _ _) h.rows
    | insertMessage new =>
      obtain ⟨y, hy, hnew⟩ := hm
      refine h.rows_call (Op.atomicAt_transaction _ _ _) ?_
      change ∀ x ∈ w.sent, ∀ row ∈ ((insertMessage new).eval w.db).2.messages.row x.row.key, _
      rw [insertMessage_eval]
      intro x hx row hrow
      rw [row_inserted] at hrow
      split at hrow
      · next hk =>
        cases hrow
        have hkey : new.key = y.row.key := by rw [hnew]
        rw [h.unique x hx y hy (hk.trans hkey)]
        exact hnew
      · exact h.rows x hx row hrow
    | _ => exact hm.elim
  | @record update chat msg hu flt =>
    rw [World.stored_db]
    refine h.rows_call (Op.atomicAt_transaction _ _ _) ?_
    rw [recordInbound_eval]
    intro x hx row hrow
    rw [row_inserted, if_neg (hi.unrecorded update flt rfl _ hu x hx)] at hrow
    exact h.rows x hx row hrow
  | retain cutoff keep flt =>
    rw [World.stored_db]
    refine h.rows_call (Op.atomicAt_transaction _ _ _) ?_
    intro x hx row hrow
    exact h.rows x hx row (enforceRetention_row cutoff keep w.db hrow)

/-- The ledger after a step: at most one message is new, the one answered in it. -/
theorem World.Stepped.sent (hs : w.Stepped s i w') :
    w'.sent = w.sent ∨ ∃ x, w'.sent = w.sent ++ [x] ∧ w'.db = w.db ∧ w.Answered i x.call x.msg ∧
      isEdit x.call = false := by
  cases hs with
  | request | kill => exact .inl rfl
  | read | write | record | retain => exact .inl (World.stored_sent _ _ _)
  | @api task c next ht flt bot =>
    cases hx : sentBy c (bot c) with
    | none => exact .inl (by rw [Option.toList_none, List.append_nil])
    | some x =>
      obtain ⟨rfl, hb, hedit⟩ := sentBy_eq_some hx
      exact .inr ⟨x, rfl, rfl, .intro ht flt hb, hedit⟩

/-- What was sent stays sent, whatever the step is. -/
theorem World.Stepped.sent_subset (hs : w.Stepped s i w') : w.sent ⊆ w'.sent := by
  rcases hs.sent with heq | ⟨x, heq, -⟩
  · rw [heq]
    exact List.Subset.refl _
  · rw [heq]
    exact List.subset_append_left _ _

/-- The message of an answer is in the ledger after the step. -/
theorem World.answered_mem {call : SendCall} {msg : SentMessage} (ha : w.Answered i call msg)
    (hs : World.step s i w = some w') (htg : Telegram w i) (hi : Undisturbed w i) :
    ∃ x ∈ w'.sent, x.Matches (mirroredRow msg call) := by
  cases hedit : isEdit call with
  | true =>
    obtain ⟨x, hx, hreply, rfl⟩ := htg.edited call msg ha hedit
    exact ⟨x, (World.stepped hs).sent_subset hx,
      Sent.matches_edit hreply (hi.plain call _ ha hedit x hx rfl) hedit⟩
  | false =>
    obtain ⟨ht, flt, hb⟩ := ha
    rename_i task next bot
    rw [World.step, ht] at hs
    cases hs
    refine ⟨⟨call, msg⟩, List.mem_append_right _ ?_, rfl⟩
    rw [hb, sentBy_accepted hedit, Option.toList_some]
    exact List.mem_singleton.2 rfl

/-- A step in which Telegram keeps its part and nothing disturbs the rows keeps the ledger. -/
theorem Ledgered.step (h : Ledgered w) (hs : World.step s i w = some w') (htg : Telegram w i)
    (hi : Undisturbed w i) : Ledgered w' := by
  have hstep := World.stepped hs
  refine ⟨?_, ?_, ?_⟩
  · intro x hx row hrow
    rcases hstep.sent with heq | ⟨new, heq, hdb, ha, hedit⟩
    · exact h.rows_step hstep hi x (heq ▸ hx) row hrow
    · rw [heq] at hx
      rcases List.mem_append.1 hx with hx | hx
      · exact h.rows_step hstep hi x hx row hrow
      · -- the row of a new message is not there yet
        obtain rfl := List.mem_singleton.1 hx
        obtain ⟨-, hnone⟩ := htg.fresh _ _ ha hedit
        rw [hdb, show x.row.key = _ from mirroredRow_key _ _, hnone] at hrow
        cases hrow
  · rcases hstep.sent with heq | ⟨new, heq, -, ha, hedit⟩
    · rw [heq]
      exact h.unique
    · rw [heq]
      obtain ⟨hfresh, -⟩ := htg.fresh _ _ ha hedit
      have hnew : new.row.key = (new.msg.chatId, new.msg.messageId) := mirroredRow_key _ _
      intro x hx y hy hk
      rw [List.mem_append, List.mem_singleton] at hx hy
      rcases hx with hx | rfl <;> rcases hy with hy | rfl
      · exact h.unique x hx y hy hk
      · exact absurd (hk.trans hnew) (hfresh x hx)
      · exact absurd (hk.symm.trans hnew) (hfresh y hy)
      · rfl
  · refine hstep.keeps hstep.sent_subset (fun r => callTool_ledger s r w'.sent)
      (fun _ _ => hstep.sent_subset) (fun _ _ _ => hstep.sent_subset) ?_ h.tasks
    intro task flt bot c next heq ht
    subst heq
    cases c with
    | send call =>
      cases hb : bot (.send call) with
      | accepted msg =>
        exact ⟨hstep.sent_subset, World.answered_mem (.intro ht flt hb) hs htg hi⟩
      | acceptedLost | refused => exact hstep.sent_subset
    | _ => exact hstep.sent_subset

end

/-- What the store keeps of the messages the server sent: they are outbound, they reply to what
`tg_send_message` was told, and no step that satisfies `P` changes another column than the text. -/
structure Provenance [Fts5] (s : State) (P : World → Input → Prop) (w : World) : Prop where
  direction : ∀ x ∈ w.sent, ∀ row ∈ w.db.messages.row x.row.key, row.direction = .outbound
  replyTo : ∀ x ∈ w.sent, ∀ replyTo ∈ x.replyTo?, ∀ row ∈ w.db.messages.row x.row.key,
    row.replyTo = replyTo
  textOnly : ∀ i w', P w i → World.step s i w = some w' → ∀ x ∈ w.sent,
    ∀ row ∈ w.db.messages.row x.row.key, ∀ row' ∈ w'.db.messages.row x.row.key,
      row' = { row with text := row'.text }

/-- In every run in which Telegram keeps its part, no edit is of a reply and no update is of a sent
message, the rows of what the server sent are outbound, reply to what `tg_send_message` was told,
and change in their text only, however the tool calls are interleaved. -/
theorem provenance_kept [Fts5] (s : State) (w : World)
    (h : (server s).Reached (fun w i => Telegram w i ∧ Undisturbed w i) w) :
    Provenance s (fun w i => Telegram w i ∧ Undisturbed w i) w := by
  have hinv : Ledgered w := by
    refine h.invariant ?_ ?_
    · rintro w rfl
      exact ⟨fun _ hx => (nomatch hx), fun _ hx => (nomatch hx), fun _ ht => (nomatch ht)⟩
    · rintro w i w' hw ⟨htg, hi⟩ hs
      exact hw.step hs htg hi
  refine ⟨?_, ?_, ?_⟩
  · intro x hx row hrow
    rw [show row = _ from hinv.rows x hx row hrow]
    cases hc : x.call <;> simp [Sent.row, mirroredRow, outboundRow, hc]
  · intro x hx replyTo hr row hrow
    rw [show row = _ from hinv.rows x hx row hrow]
    obtain ⟨call, msg⟩ := x
    cases call with
    | sendMessage => exact Option.some.inj hr
    | _ => cases hr
  · rintro i w' ⟨htg, hi⟩ hs x hx row hrow row' hrow'
    have hrows := (hinv.step hs htg hi).rows x ((World.stepped hs).sent_subset hx) row' hrow'
    rw [show row = _ from hinv.rows x hx row hrow]
    exact hrows

/-! ## A reply and its edit -/

/-- Telegram, answering every call that sends or edits with the same message. -/
def answering (msg : SentMessage) : (c : BotCall) → ApiOutcome c.Result
  | .send _ => .accepted msg
  | _ => .refused (.teloxide "not answered")

/-- The call of the Bot API that a task performs next, if it does. -/
def pendingCall : Task → Option BotCall
  | .perform (.api c) _ => some c
  | _ => none

/-- Where no call is pending, Telegram has no part to keep. -/
theorem Telegram.of_no_call {w : World} {i : Input}
    (h : ∀ task flt bot, i = .advance task flt bot → w.tasks[task]?.bind pendingCall = none) :
    Telegram w i := by
  have hno : ∀ call msg, ¬ w.Answered i call msg := by
    rintro call msg ⟨ht, flt, -⟩
    have hcall := h _ flt _ rfl
    rw [ht] at hcall
    cases hcall
  exact ⟨fun call msg ha => absurd ha (hno call msg), fun call msg ha => absurd ha (hno call msg)⟩

/-- What Telegram has to keep to when it answers a call. -/
theorem Telegram.of_answer {w : World} {task : Nat} {flt : Schedule HistoryError}
    {bot : (c : BotCall) → ApiOutcome c.Result} {c : SendCall} {msg : SentMessage}
    (ht : w.tasks[task]?.bind pendingCall = some (.send c)) (hb : bot (.send c) = .accepted msg)
    (hfresh : isEdit c = false → (∀ x ∈ w.sent, x.row.key ≠ (msg.chatId, msg.messageId)) ∧
      w.db.messages.row (msg.chatId, msg.messageId) = none)
    (hedit : isEdit c = true → ∃ x ∈ w.sent, x.replyTo?.isSome ∧ x.msg = msg) :
    Telegram w (.advance task flt bot) := by
  have hsame : ∀ c' msg', w.Answered (.advance task flt bot) c' msg' → c' = c ∧ msg' = msg := by
    rintro c' msg' ⟨ht', -, hb'⟩
    rw [ht'] at ht
    cases ht
    rw [hb] at hb'
    cases hb'
    exact ⟨rfl, rfl⟩
  refine ⟨?_, ?_⟩
  · intro c' msg' ha
    obtain ⟨rfl, rfl⟩ := hsame c' msg' ha
    exact hfresh
  · intro c' msg' ha
    obtain ⟨rfl, rfl⟩ := hsame c' msg' ha
    exact hedit

/-- Nothing is disturbed by what is no update, when no sent message is a reply. -/
theorem Undisturbed.of_plain {w : World} {i : Input} (hi : ∀ update flt, i ≠ .record update flt)
    (h : ∀ x ∈ w.sent, x.row.replyTo = none) : Undisturbed w i :=
  ⟨fun update flt heq => absurd heq (hi update flt), fun _ _ _ _ x hx _ => h x hx⟩

/-- The message 7 of the chat 42, as the examples send it. -/
def sentHi (replyTo : Option I64) : Sent :=
  ⟨.sendMessage (i64 42) "hi" none replyTo false true, ⟨i64 42, i64 7, i64 100⟩⟩

/-- It is sent, and then edited: no step records an update, and nothing else is sent. -/
theorem edited_run [Fts5] (P : World → Input → Prop) (args : Entries) (replyTo : Option I64)
    (hcall : callTool unrestricted ⟨"tg_send_message", some args⟩ =
      deliver (sentHi replyTo).call (some "hi") none replyTo)
    (hP : ∀ w i, Telegram w i → (∀ update flt, i ≠ .record update flt) →
      (∀ x ∈ w.sent, x = sentHi replyTo) → P w i) :
    ∃ w, (server unrestricted).Reached P w ∧ w.sent = [sentHi replyTo] ∧
      w.db.messages.row (i64 42, i64 7) =
        some (outboundRow (sentHi replyTo).msg (some "hello") none none) := by
  let msg := (sentHi replyTo).msg
  let edit : SendCall := .editMessageText (i64 42) (i64 7) "hello" none
  let bot := answering msg
  have hnone : ∀ x ∈ ([] : List Sent), x = sentHi replyTo := fun x hx => by cases hx
  have hsent : ∀ x ∈ [sentHi replyTo], x = sentHi replyTo := fun x hx => List.mem_singleton.1 hx
  have h0 : (server unrestricted).Reached P ⟨.migrated, [], []⟩ := .init rfl
  have h1 : (server unrestricted).Reached P
      ⟨.migrated, [deliver (sentHi replyTo).call (some "hi") none replyTo], []⟩ := by
    refine h0.step (Input.request ⟨"tg_send_message", some args⟩) ?_ (by rw [← hcall]; rfl)
    exact hP _ _ (.of_no_call fun _ _ _ hi => by cases hi) (fun _ _ hi => by cases hi) hnone
  have h2 := h1.step (Input.advance 0 none bot)
    (hP _ _ (.of_answer (c := (sentHi replyTo).call) rfl rfl
      (fun _ => ⟨fun _ hx => (by cases hx), rfl⟩) (fun he => by cases he))
      (fun _ _ hi => by cases hi) hnone) rfl
  have h3 := h2.step (Input.advance 0 none bot)
    (hP _ _ (.of_no_call (by rintro _ _ _ ⟨⟩; rfl)) (fun _ _ hi => by cases hi) hsent) rfl
  have h4 := h3.step (Input.advance 0 none bot)
    (hP _ _ (.of_no_call (by rintro _ _ _ ⟨⟩; rfl)) (fun _ _ hi => by cases hi) hsent) rfl
  have h5 := h4.step (Input.request ⟨"tg_edit_message",
    some [("chat", .int 42), ("message_id", .int 7), ("text", .str "hello")]⟩)
    (hP _ _ (.of_no_call fun _ _ _ hi => by cases hi) (fun _ _ hi => by cases hi) hsent) rfl
  have h6 := h5.step (Input.advance 1 none bot)
    (hP _ _ (.of_answer (c := edit) rfl rfl (fun he => by cases he) fun _ =>
      ⟨sentHi replyTo, List.mem_singleton.2 rfl, rfl, rfl⟩) (fun _ _ hi => by cases hi) hsent) rfl
  have h7 := h6.step (Input.advance 1 none bot)
    (hP _ _ (.of_no_call (by rintro _ _ _ ⟨⟩; rfl)) (fun _ _ hi => by cases hi) hsent) rfl
  have h8 := h7.step (Input.advance 1 none bot)
    (hP _ _ (.of_no_call (by rintro _ _ _ ⟨⟩; rfl)) (fun _ _ hi => by cases hi) hsent) rfl
  exact ⟨_, h8, rfl, rfl⟩

/-- A plain message keeps its provenance when it is edited, as it was no reply. -/
theorem provenance_kept_edited :
    ∃ w : World, w.sent.length = 1 ∧
      (∃ row ∈ w.db.messages.row (i64 42, i64 7), row.text = some "hello") ∧
      @Provenance Fts5.ascii unrestricted (fun w i => Telegram w i ∧ Undisturbed w i) w := by
  let := Fts5.ascii
  obtain ⟨w, hw, hsent, hrow⟩ := edited_run
    (fun w i => Telegram w i ∧ Undisturbed w i) [("chat", .int 42), ("text", .str "hi")] none rfl
    fun w i htg hi hsent => ⟨htg, .of_plain hi fun x hx => by rw [hsent x hx]; rfl⟩
  exact ⟨w, by rw [hsent]; rfl, ⟨_, hrow, rfl⟩, provenance_kept unrestricted w hw⟩

/-- The mirror of the edit of a reply clears what it replied to, as the row is written over as a
whole. -/
theorem provenance_lost :
    ¬ ∀ (_ : Fts5) (s : State) (w : World), (server s).Reached Telegram w →
      Provenance s Telegram w := by
  intro h
  let := Fts5.ascii
  obtain ⟨w, hw, hsent, hrow⟩ := edited_run Telegram
    [("chat", .int 42), ("text", .str "hi"), ("reply_to", .int 3)] (some (i64 3)) rfl
    fun w i htg _ _ => htg
  have hmem : sentHi (some (i64 3)) ∈ w.sent := by
    rw [hsent]
    exact List.mem_singleton.2 rfl
  cases (h _ unrestricted w hw).replyTo _ hmem _ rfl _ hrow

end TelegramMcp.Server
