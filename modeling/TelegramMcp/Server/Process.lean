import TelegramMcp.Lib.System
import TelegramMcp.History.Atomicity
import TelegramMcp.Server.Tools
import TelegramMcp.Updater.Mapping

/-!
# The running server

Tool calls run beside each other, beside the updater and beside the retention task, all on one
store. `server` is that system: a request starts a task, and a step lets one task perform its next
action, records one update, or prunes the history. The environment answers the Bot API calls, runs
the store calls under schedules of faults, and may kill the process.

`World.Stepped` is the inversion of a step. `callTool_safe_of` reduces a contract of all tools to
what the five send tools do with an answer, which is `deliver`.
-/

namespace TelegramMcp.Server

open Rust Txn History Proc

/-- The row that `deliver` mirrors for an answer to a call. -/
def mirroredRow (sent : SentMessage) : SendCall → StoredMessage
  | .sendMessage _ text _ replyTo _ _ => outboundRow sent (some text) none replyTo
  | .sendPhotoPath _ _ caption _ => outboundRow sent caption (some "photo") none
  | .sendDocumentPath _ _ caption _ => outboundRow sent caption (some "document") none
  | .editMessageText _ _ text _ => outboundRow sent (some text) none none
  | .forwardMessage _ _ _ => outboundRow sent none none none

/-- A message the server sent: the call, which is no edit, and the message that Telegram answered
with, under whose id the row is stored. -/
structure Sent where
  call : SendCall
  msg : SentMessage

/-- The row that was first mirrored for a message that was sent. -/
def Sent.row (x : Sent) : StoredMessage := mirroredRow x.msg x.call

/-- The message that a call of the Bot API sends, when it is answered. -/
def sentBy : (c : BotCall) → ApiOutcome c.Result → Option Sent
  | .send (.editMessageText _ _ _ _), _ => none
  | .send call, .accepted msg => some ⟨call, msg⟩
  | _, _ => none

/-- A tool call in progress: what is left of its program. -/
abbrev Task := ToolM CallToolResult

/-- The store, the tool calls in progress, and the messages sent so far. The last is no part of the
code: it is what the stored rows are compared with. -/
structure World where
  db : Db
  tasks : List Task
  sent : List Sent

/-- What happens: a request arrives; the next action of a task is performed; an update is recorded;
the retention task runs; the process is killed. -/
inductive Input
  | request (r : CallToolRequest)
  | advance (task : Nat) (flt : Schedule HistoryError) (bot : (c : BotCall) → ApiOutcome c.Result)
  | record (update : Json) (flt : Schedule HistoryError)
  | retain (maxAgeCutoff keepPerChat : Option I64) (flt : Schedule HistoryError)
  | kill

/-- The world after a store call; a crash ends all tasks. -/
def World.stored {β : Type} (w : World) (tasks : Except HistoryError β → List Task) :
    Outcome HistoryError β × Db → World
  | (.ok b, db) => { w with db, tasks := tasks (.ok b) }
  | (.err e, db) => { w with db, tasks := tasks (.error e) }
  | (.crashed, db) => { w with db, tasks := [] }

/-- The world after a task performed its next action: a call of the store under its faults, or a
call of the Bot API with its outcome. -/
def World.advance [Fts5] (w : World) (task : Nat) (flt : Schedule HistoryError)
    (bot : (c : BotCall) → ApiOutcome c.Result) : Task → Option World
  | .perform (.write m) next =>
    some (w.stored (fun r => w.tasks.set task (next r)) (m.op.call flt w.db))
  | .perform (.read op _) next =>
    some (w.stored (fun r => w.tasks.set task (next r)) (op.call flt w.db))
  | .perform (.api c) next =>
    some { w with
      tasks := w.tasks.set task (next (bot c)), sent := w.sent ++ (sentBy c (bot c)).toList }
  | _ => none

/-- A request starts a task, a task performs its next action, an update is recorded, messages are
pruned, or the process is killed and its tasks are gone. -/
def World.step [Fts5] (s : State) : Input → World → Option World
  | .request r, w => some { w with tasks := w.tasks ++ [callTool s r] }
  | .advance task flt bot, w => w.tasks[task]?.bind (w.advance task flt bot)
  | .record update flt, w => (Updater.mapUpdate update).map fun (chat, msg) =>
    w.stored (fun _ => w.tasks) ((recordInbound chat msg).call flt w.db)
  | .retain cutoff keep flt, w =>
    some (w.stored (fun _ => w.tasks) ((enforceRetention cutoff keep).call flt w.db))
  | .kill, w => some { w with tasks := [] }

/-- The server, from an empty store on, with no tool call in progress. -/
def server [Fts5] (s : State) : System World Input where
  init w := w = ⟨.migrated, [], []⟩
  step := World.step s

/-! ## What a step does -/

/-- After a call on the store, the store is as the call left it, also when the process died in
it. -/
@[simp] theorem World.stored_db {β : Type} (w : World) (tasks : Except HistoryError β → List Task)
    (r : Outcome HistoryError β × Db) : (w.stored tasks r).db = r.2 := by
  obtain ⟨_ | _ | _, db⟩ := r <;> rfl

/-- A call on the store sends nothing, whatever becomes of it. -/
@[simp] theorem World.stored_sent {β : Type} (w : World)
    (tasks : Except HistoryError β → List Task) (r : Outcome HistoryError β × Db) :
    (w.stored tasks r).sent = w.sent := by
  obtain ⟨_ | _ | _, db⟩ := r <;> rfl

/-- After a store call the tasks are those of its result, or none. -/
theorem World.mem_stored {β : Type} {w : World} {tasks : Except HistoryError β → List Task}
    {r : Outcome HistoryError β × Db} {t : Task} (h : t ∈ (w.stored tasks r).tasks) :
    ∃ b, t ∈ tasks b := by
  obtain ⟨b | e | _, db⟩ := r
  · exact ⟨_, h⟩
  · exact ⟨_, h⟩
  · cases h

/-- The steps of the server, one constructor for each kind with its guard and what it leaves. -/
inductive World.Stepped [Fts5] (s : State) (w : World) : Input → World → Prop
  | request (r : CallToolRequest) :
    Stepped s w (.request r) { w with tasks := w.tasks ++ [callTool s r] }
  | write {task : Nat} {m : Mutation} {next : Except HistoryError m.Result → Task}
    (ht : w.tasks[task]? = some (.perform (.write m) next)) (flt : Schedule HistoryError)
    (bot : (c : BotCall) → ApiOutcome c.Result) :
    Stepped s w (.advance task flt bot)
      (w.stored (fun r => w.tasks.set task (next r)) (m.op.call flt w.db))
  | read {task : Nat} {β : Type} {op : Op Db β}
    {readOnly : ∀ (flt : Schedule HistoryError) db, (op.call flt db).2 = db}
    {next : Except HistoryError β → Task}
    (ht : w.tasks[task]? = some (.perform (.read op readOnly) next)) (flt : Schedule HistoryError)
    (bot : (c : BotCall) → ApiOutcome c.Result) :
    Stepped s w (.advance task flt bot)
      (w.stored (fun r => w.tasks.set task (next r)) (op.call flt w.db))
  | api {task : Nat} {c : BotCall} {next : ApiOutcome c.Result → Task}
    (ht : w.tasks[task]? = some (.perform (.api c) next)) (flt : Schedule HistoryError)
    (bot : (c : BotCall) → ApiOutcome c.Result) :
    Stepped s w (.advance task flt bot)
      { w with
        tasks := w.tasks.set task (next (bot c)), sent := w.sent ++ (sentBy c (bot c)).toList }
  | record {update : Json} {chat : ChatInfo} {msg : StoredMessage}
    (hu : Updater.mapUpdate update = some (chat, msg)) (flt : Schedule HistoryError) :
    Stepped s w (.record update flt)
      (w.stored (fun _ => w.tasks) ((recordInbound chat msg).call flt w.db))
  | retain (cutoff keep : Option I64) (flt : Schedule HistoryError) :
    Stepped s w (.retain cutoff keep flt)
      (w.stored (fun _ => w.tasks) ((enforceRetention cutoff keep).call flt w.db))
  | kill : Stepped s w .kill { w with tasks := [] }

/-- Every step is one of those, which is all that the invariants use of `step`. -/
theorem World.stepped [Fts5] {s : State} {w w' : World} {i : Input}
    (h : World.step s i w = some w') : w.Stepped s i w' := by
  cases i with
  | request r => cases h; exact .request r
  | advance task flt bot =>
    obtain ⟨t, ht, hadv⟩ := Option.bind_eq_some_iff.1 h
    match t with
    | .ok _ | .fail _ => cases hadv
    | .perform (.write m) next => cases hadv; exact .write ht flt bot
    | .perform (.read op _) next => cases hadv; exact .read ht flt bot
    | .perform (.api c) next => cases hadv; exact .api ht flt bot
  | record update flt =>
    obtain ⟨⟨chat, msg⟩, hu, rfl⟩ := Option.map_eq_some_iff.1 h
    exact .record hu flt
  | retain cutoff keep flt => cases h; exact .retain cutoff keep flt
  | kill => cases h; exact .kill

/-! ## Contracts of the tools -/

/-- The writes of the tools, which are of three kinds. -/
def Outgoing : Mutation → Prop
  | .touchChatLastSeen _ _ | .insertMessage _ | .markRead _ _ => True
  | _ => False

/-- The message a request of a tool names, if its arguments decode. -/
def messageArg (r : CallToolRequest) : Option I64 :=
  match r.name with
  | "tg_send_message" =>
    (parseArgs SendMessageInput.fields r.arguments).toOption.bind (·.replyTo)
  | "tg_edit_message" =>
    (parseArgs EditMessageInput.fields r.arguments).toOption.map (·.messageId)
  | "tg_delete_message" =>
    (parseArgs DeleteMessageInput.fields r.arguments).toOption.map (·.messageId)
  | "tg_forward_message" =>
    (parseArgs ForwardMessageInput.fields r.arguments).toOption.map (·.messageId)
  | _ => none

/-- What holds of every call of the Bot API a tool makes: the chat it writes to was checked, and it
is about the message the arguments name. -/
structure Requested (s : State) (r : CallToolRequest) (c : BotCall) : Prop where
  allowed : ∀ chatId, c.request.writesTo = some chatId → checkSendAllowed s chatId = .ok ()
  messageId : c.request.messageId = (messageArg r).map asI32

/-- A call that writes to no chat and is about no message needs no check. -/
theorem Requested.plain {s : State} {r : CallToolRequest} {c : BotCall}
    (hchat : c.request.writesTo = none) (hid : c.request.messageId = none)
    (harg : messageArg r = none) : Requested s r c := by
  refine ⟨?_, by rw [hid, harg]; rfl⟩
  intro chatId h
  rw [hchat] at h
  cases h

/-- A call to a chat that was resolved and checked is one that the request asked for. -/
theorem Requested.checked {s : State} {r : CallToolRequest} {c : BotCall} {chatId : I64}
    (arg : Option I64) (hchat : c.request.writesTo = some chatId)
    (hallowed : checkSendAllowed s chatId = .ok ()) (hid : c.request.messageId = arg.map asI32)
    (harg : messageArg r = arg) : Requested s r c := by
  refine ⟨?_, by rw [hid, harg]⟩
  intro chatId' h
  rw [hchat] at h
  cases h
  exact hallowed

/-- A program keeps to a contract, whatever its result is. -/
abbrev Keeps {γ : Type} {α : Type} (C : Contract Action γ) (t : ToolM α) (g : γ) : Prop :=
  t.Safe C (fun _ _ => True) (fun _ _ => True) g

section
variable {γ : Type} {C : Contract Action γ} {g : γ}

/-- A lifted result performs nothing, so that it keeps to every contract. -/
theorem Keeps.lift {α : Type} (r : Except McpError α) : Keeps C (Proc.lift r) g :=
  Safe.lift_true r

/-- A check, and what comes after it when it is passed. -/
theorem Keeps.check {α β : Type} {r : Except McpError α} {f : α → ToolM β}
    (hf : ∀ a, r = .ok a → ∀ g, Keeps C (f a) g) : Keeps C (Proc.lift r >>= f) g :=
  Safe.bind (Q := fun a _ => r = .ok a) (Safe.lift (fun _ _ ha _ => ha) fun _ _ _ _ => trivial)
    fun a g ha => hf a ha g

/-- So does a program that is through. -/
theorem Keeps.done {α : Type} (a : α) : Keeps C (pure a) g := Safe.pure_true

/-- A single action keeps to a contract that always allows it. -/
theorem Keeps.act {α δ : Type} {a : Action δ} {k : δ → Except McpError α}
    (ha : ∀ g, C.allowed a g) : Keeps C (Proc.act a k) g := Safe.act_true ha

/-- An action that is always allowed, and what comes after it. -/
theorem Keeps.action {α β δ : Type} {a : Action δ} {k : δ → Except McpError α} {f : α → ToolM β}
    (ha : ∀ g, C.allowed a g) (hf : ∀ a g, Keeps C (f a) g) : Keeps C (Proc.act a k >>= f) g :=
  Safe.seq (Keeps.act ha) hf

/-- A contract that allows reads, `mark_read` and the calls of the Bot API that send nothing is kept
by all tools when it is kept by `deliver`, called with what the row of the call holds. -/
theorem callTool_keeps [Fts5] (s : State) (r : CallToolRequest)
    (hread : ∀ {β : Type} (op : Op Db β)
      (h : ∀ (flt : Schedule HistoryError) db, (op.call flt db).2 = db) g, C.allowed (.read op h) g)
    (hmark : ∀ chatId upTo g, C.allowed (.write (.markRead chatId upTo)) g)
    (hapi : ∀ c, (∀ call, c ≠ .send call) → Requested s r c → ∀ g, C.allowed (.api c) g)
    (hdeliver : ∀ call text mediaKind replyTo g, Requested s r (.send call) →
      (∀ sent, outboundRow sent text mediaKind replyTo = mirroredRow sent call) →
        Keeps C (deliver call text mediaKind replyTo) g) (g : γ) :
    Keeps C (callTool s r) g := by
  obtain ⟨name, args⟩ := r
  unfold callTool
  dsimp only
  split
  · exact .check fun _ _ _ =>
      .action (hapi _ (fun _ h => nomatch h) (.plain rfl rfl rfl)) fun _ _ => .done _
  · exact .check fun _ _ _ => .done _
  · refine .check fun input hin _ => .check fun chatId _ _ => .check fun _ hallowed _ =>
      .check fun _ _ g => hdeliver _ _ _ _ g (.checked _ rfl hallowed rfl ?_) fun _ => rfl
    simp only [messageArg, hin]
    rfl
  · exact .check fun _ _ _ => .check fun _ _ _ => .check fun _ hallowed _ => .check fun _ _ _ =>
      .check fun _ _ g => hdeliver _ _ _ _ g (.checked none rfl hallowed rfl rfl)
        fun _ => rfl
  · exact .check fun _ _ _ => .check fun _ _ _ => .check fun _ hallowed _ => .check fun _ _ g =>
      hdeliver _ _ _ _ g (.checked none rfl hallowed rfl rfl) fun _ => rfl
  · refine .check fun input hin _ => .check fun _ _ _ => .check fun _ hallowed _ =>
      .check fun _ _ g => hdeliver _ _ _ _ g
        (.checked (some input.messageId) rfl hallowed rfl ?_) fun _ => rfl
    simp only [messageArg, hin]
    rfl
  · refine .check fun input hin _ => .check fun _ _ _ => .check fun _ hallowed _ =>
      .action (hapi _ (fun _ h => nomatch h)
        (.checked (some input.messageId) rfl hallowed rfl ?_)) fun _ _ => .done _
    simp only [messageArg, hin]
    rfl
  · refine .check fun input hin _ => .check fun _ _ _ => .check fun _ _ _ =>
      .check fun _ hallowed g => hdeliver _ _ _ _ g
        (.checked (some input.messageId) rfl hallowed rfl ?_) fun _ => rfl
    simp only [messageArg, hin]
    rfl
  · exact .check fun _ _ _ => .check fun _ _ _ => .check fun _ hallowed _ => .check fun _ _ _ =>
      .action (hapi _ (fun _ h => nomatch h) (.checked none rfl hallowed rfl rfl))
        fun _ _ => .done _
  · exact .check fun _ _ _ => .action (hread _ _) fun _ _ => .done _
  · exact .check fun _ _ _ => .check fun _ _ _ => .action (hread _ _) fun _ _ => .done _
  · exact .check fun _ _ _ => .check fun _ _ _ => .action (hread _ _) fun _ _ => .done _
  · exact .check fun _ _ _ => .check fun _ _ _ => .action (hread _ _) fun _ _ =>
      .check fun _ _ _ => .done _
  · exact .check fun _ _ _ => .check fun _ _ _ => .action (hread _ _) fun _ _ =>
      .check fun _ _ _ => .done _
  · exact .check fun _ _ _ => .check fun _ _ _ => .action (hmark _ _) fun _ _ => .done _
  · exact .check fun _ _ _ => .check fun _ _ _ => .check fun _ _ _ => .action (hread _ _) fun _ _ =>
      .check fun _ _ _ => .check fun _ _ _ =>
        .action (hapi _ (fun _ h => nomatch h) (.plain rfl rfl rfl)) fun _ _ => .done _
  · exact Safe.fail fun _ _ => trivial

/-- An action that calls the Bot API with this property only. -/
def Calls (P : BotCall → Prop) : {β : Type} → Action β → Prop
  | _, .api c => P c
  | _, _ => True

/-- The calls that a tool makes are those its checks and arguments allow. -/
theorem callTool_calls [Fts5] {P : BotCall → Prop} (s : State) (r : CallToolRequest)
    (h : ∀ c, Requested s r c → P c) : Keeps (.only (Calls P)) (callTool s r) () := by
  refine callTool_keeps s r (fun _ _ _ => trivial) (fun _ _ _ => trivial)
    (fun c _ hc _ => h c hc) ?_ ()
  intro call text mediaKind replyTo g hc _
  refine Keeps.action (fun _ => h _ hc) fun sent g => ?_
  refine Safe.seq ?_ fun _ _ => Keeps.done _
  exact Keeps.action (fun _ => trivial) fun _ _ => Keeps.act fun _ => trivial

/-- A step keeps every task to its contract, when it moves the ghost state as the contract says. -/
theorem World.Stepped.keeps [Fts5] {s : State} {w w' : World} {i : Input} (hs : w.Stepped s i w')
    {g' : γ} (hle : C.le g g') (hcall : ∀ r, Keeps C (callTool s r) g')
    (hwrite : ∀ m b, C.after (.write m) g b g')
    (hread : ∀ {β : Type} (op : Op Db β) h b, C.after (.read op h) g b g')
    (hapi : ∀ task flt bot c next, i = .advance task flt bot →
      w.tasks[task]? = some (.perform (.api c) next) → C.after (.api c) g (bot c) g')
    (h : ∀ t ∈ w.tasks, Keeps C t g) : ∀ t ∈ w'.tasks, Keeps C t g' := by
  have hold : ∀ t ∈ w.tasks, Keeps C t g' := fun t ht => (h t ht).mono hle
  have hset : ∀ {task : Nat} {t' : Task}, Keeps C t' g' →
      ∀ t ∈ w.tasks.set task t', Keeps C t g' := by
    intro task t' ht' t ht
    rcases List.mem_or_eq_of_mem_set ht with ht | rfl
    · exact hold t ht
    · exact ht'
  cases hs with
  | request r =>
    intro t ht
    rcases List.mem_append.1 ht with ht | ht
    · exact hold t ht
    · rw [List.mem_singleton.1 ht]
      exact hcall r
  | write ht flt bot =>
    intro t hmem
    obtain ⟨b, hb⟩ := World.mem_stored hmem
    exact hset ((h _ (List.mem_of_getElem? ht) g (C.refl g)).2 b g' (hwrite _ b)) t hb
  | read ht flt bot =>
    intro t hmem
    obtain ⟨b, hb⟩ := World.mem_stored hmem
    exact hset ((h _ (List.mem_of_getElem? ht) g (C.refl g)).2 b g' (hread _ _ b)) t hb
  | api ht flt bot =>
    exact hset ((h _ (List.mem_of_getElem? ht) g (C.refl g)).2 _ g' (hapi _ flt bot _ _ rfl ht))
  | record hu flt =>
    intro t hmem
    obtain ⟨_, hb⟩ := World.mem_stored hmem
    exact hold t hb
  | retain cutoff keep flt =>
    intro t hmem
    obtain ⟨_, hb⟩ := World.mem_stored hmem
    exact hold t hb
  | kill => exact fun t ht => nomatch ht

end

end TelegramMcp.Server
