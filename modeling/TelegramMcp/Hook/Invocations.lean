import TelegramMcp.History.Unread
import TelegramMcp.Hook.Replies
import TelegramMcp.Hook.Split
import TelegramMcp.Server.Process

/-!
# Invocations of the hook

`runStop` and `runAsk` send a message, take its id as the baseline, and poll until a branch of
`select!` ends them. `chat` is the system of one Telegram chat: ids are assigned, messages are
stored with any delay, and invocations of the hook run one after another. An invocation returns only
ids above its baseline that are already assigned, and the next baseline is above all of these, so no
message is returned twice (`returned_disjoint`).
-/

namespace TelegramMcp.Hook

open Rust Txn History Server Proc

/-! ## The two hooks -/

/-- `DEFAULT_WAKEUP_MESSAGE`: what a Stop hook sends when the command line gives no text. -/
def defaultWakeupMessage : String :=
  "Claude finished its turn — reply here to continue, or press Ctrl+C in Claude Code to release."

/-- `DEFAULT_RETRY_MESSAGE`: the reason Claude is given when a Stop hook has waited in vain. -/
def defaultRetryMessage : String :=
  "No Telegram reply within the wait window. Decide whether to wait again or wrap up."

/-- `DEFAULT_ACK_MESSAGE`: the notice that a reply was seen, sent before the hook ends. -/
def defaultAckMessage : String := "Got it, working on it..."

/-- The notice of a Stop hook that the user is back at the computer. -/
def stopTakeoverMessage : String :=
  "🖥️ You took over at the computer — Claude is waiting for you in VS Code."

/-- The notice of a hook with questions that the user is back at the computer. -/
def askTakeoverMessage : String :=
  "🖥️ You took over at the computer — answer the question in the VS Code dialog."

/-- A branch of `select!`, as it was taken. Which one is ready first is not up to the hook, so it is
an input of the wait. -/
inductive Branch
  | ctrlC
  | timeout
  | localInput (userActive : Bool)
  | poll

/-- How an invocation ends: Claude goes on, or it gets a reason, made of these replies. It may also
wait for another branch. -/
inductive Ending
  | released
  | blocked (reason : String) (replies : List Reply)
  | waiting

/-- The replies that an invocation returns, once it has ended. -/
def Ending.replies : Ending → Option (List Reply)
  | .released => some []
  | .blocked _ replies => some replies
  | .waiting => none

/-- What an invocation meets: local input at its start, the server it connects to, the branches
taken, and whether the last notice is sent in time. -/
structure Course where
  userActive : Bool
  connection : Except HookError State
  branches : List Branch
  inTime : Bool

section
variable [Fts5] (s : State) (cli : CliArgs)

/-- `send_response_chunks`: each chunk is a message of its own, and an error of one does not keep
the next from being sent. -/
def sendResponseChunks : List String → HookM Unit
  | [] => pure ()
  | chunk :: chunks => do
    let _ ← (callTool s "tg_send_message" (sendArgs cli.chat chunk)).attempt
    sendResponseChunks chunks

/-- `send_notice`: the call is given up after a time, and its error is swallowed. -/
def sendNotice (text : String) (inTime : Bool) : HookM Unit :=
  if inTime then do
    let _ ← (callTool s "tg_send_message" (sendArgs cli.chat text)).attempt
    pure ()
  else pure ()

/-- `send_ack`: a notice that is sent right after a reply was seen. -/
def sendAck (inTime : Bool) : HookM Unit := sendNotice s cli defaultAckMessage inTime

/-- The loop of both hooks from the baseline on, over the branches that are taken. -/
def waitLoop (baseline : Baseline) (takeover : String) (onTimeout : Ending)
    (reason : List Reply → String) (inTime : Bool) : List Branch → HookM Ending
  | [] => pure .waiting
  | .ctrlC :: _ => pure .released
  | .timeout :: _ => pure onTimeout
  | .localInput userActive :: rest =>
    if cli.releaseOnLocalInput && userActive then do
      sendNotice s cli takeover inTime
      pure .released
    else waitLoop baseline takeover onTimeout reason inTime rest
  | .poll :: rest => do
    match ← (pollOnce s cli.chat baseline.sentMessageId).attempt with
    | .ok (r :: replies) =>
      sendAck s cli inTime
      pure (.blocked (reason (r :: replies)) (r :: replies))
    | .ok [] | .error _ => waitLoop baseline takeover onTimeout reason inTime rest

end

/-- What `run_stop` makes of the replies: the text of the only one, or a numbered line for each of
several. -/
def stopReason : List Reply → String
  | [r] => r.text.getD "(media-only message)"
  | replies => "\n".intercalate ((replies.zipIdx 1).map fun (r, i) =>
    "[" ++ toString i ++ "] " ++ r.text.getD "(media-only message)")

/-- The chunks of the last answer, which follow the wakeup. -/
def responseChunks (lastAssistantMessage : Option String) : List String :=
  lastAssistantMessage.elim [] fun text =>
    let trimmed := String.ofList (trim text.toList)
    if trimmed.isEmpty then []
    else (splitMessage trimmed.length trimmed telegramMaxMessageBytes).getD []

/-- `run_stop`, from its options on: it may release at once, else it sends its text and the last
answer and waits for a reply. -/
def runStop [Fts5] (c : Course) (cli : CliArgs) (lastAssistantMessage : Option String) :
    HookM Ending :=
  if cli.releaseOnLocalInput && c.userActive then pure .released
  else do
    let s ← .lift c.connection
    let baseline ← sendWakeup s cli.chat (cli.message.getD defaultWakeupMessage)
    sendResponseChunks s cli (responseChunks lastAssistantMessage)
    waitLoop s cli baseline stopTakeoverMessage
      (.blocked (cli.retryMessage.getD defaultRetryMessage) []) stopReason c.inTime c.branches

/-- What `run_ask` uses of the questions: the text that is sent, and what a reply answers. The wait
is the same for any questions. -/
structure Questions where
  render : String
  answerFromReply : String → String

/-- `run_ask`: the questions are sent, and it ends with the answer when there is one. -/
def runAsk [Fts5] (c : Course) (cli : CliArgs) (questions : Questions) : HookM Ending :=
  if cli.releaseOnLocalInput && c.userActive then pure .released
  else do
    let s ← .lift c.connection
    let baseline ← sendWakeup s cli.chat questions.render
    waitLoop s cli baseline askTakeoverMessage .released
      (fun replies => questions.answerFromReply ("\n".intercalate (replies.filterMap (·.text))))
      c.inTime c.branches

/-- An invocation of one of the two hooks, with its command line and what it was given on its
standard input. -/
inductive Invocation
  | stop (cli : CliArgs) (lastAssistantMessage : Option String)
  | ask (cli : CliArgs) (questions : Questions)

/-- The command line of an invocation, of either kind. -/
def Invocation.cli : Invocation → CliArgs
  | .stop cli _ | .ask cli _ => cli

/-- What an invocation does, on the course of events that it meets. -/
def Invocation.run [Fts5] (c : Course) : Invocation → HookM Ending
  | .stop cli lastAssistantMessage => runStop c cli lastAssistantMessage
  | .ask cli questions => runAsk c cli questions

/-! ## A chat -/

/-- The store, the last id assigned in the chat, the invocation in progress, and what those before
it returned. -/
structure Chat where
  db : Db
  lastId : Int
  hook : Option (HookM Ending)
  returned : List (List Reply)

/-- What happens: Telegram assigns an id; a server stores something; an invocation starts, performs
its next action (after which this is the last id), ends, or is killed. -/
inductive ChatEvent
  | assign (id : Int)
  | store (m : Mutation) (flt : Schedule HistoryError)
  | start (i : Invocation) (c : Course)
  | act (flt : Schedule HistoryError) (bot : (c : BotCall) → ApiOutcome c.Result) (lastId : Int)
  | finish
  | kill

/-- What the hook gets for a call of the store; when the server dies, the pipe closes. -/
def response {β : Type} : Outcome HistoryError β → Except HistoryError β
  | .ok b => .ok b
  | .err e => .error e
  | .crashed => .error (.sqlite "pipe closed mid-request")

/-- A call that returned without an error returned what its operation evaluates to. -/
theorem response_ok {β : Type} {op : Op Db β} {flt : Schedule HistoryError} {db : Db} {b : β}
    (h : response (op.call flt db).1 = .ok b) : b = (op.eval db).1 := by
  cases hr : op.call flt db with
  | mk r db' =>
    rw [hr] at h
    cases r with
    | ok b' =>
      cases h
      rw [Op.call_ok hr]
    | err e => cases h
    | crashed => cases h

namespace Chat

/-- The chat after a call of the store by the hook. -/
def called {β : Type} (w : Chat) (next : Except HistoryError β → HookM Ending)
    (r : Outcome HistoryError β × Db) : Chat :=
  { w with db := r.2, hook := some (next (response r.1)) }

/-- The chat after the invocation performed its next action: a request is answered, or the store is
called. -/
def act [Fts5] (w : Chat) (flt : Schedule HistoryError)
    (bot : (c : BotCall) → ApiOutcome c.Result) (lastId : Int) : HookM Ending → Option Chat
  | .perform (.write m) next => some (w.called next (m.op.call flt w.db))
  | .perform (.read op _) next => some (w.called next (op.call flt w.db))
  | .perform (.api c) next => some { w with lastId, hook := some (next (bot c)) }
  | _ => none

/-- What happens in the chat: an id is assigned, a message is stored, an invocation starts, acts,
ends or is killed. Only one invocation runs at a time. -/
def step [Fts5] : ChatEvent → Chat → Option Chat
  | .assign id, w => some { w with lastId := id }
  | .store m flt, w => some { w with db := (m.op.call flt w.db).2 }
  | .start i c, w => if w.hook.isNone then some { w with hook := some (i.run c) } else none
  | .act flt bot lastId, w => w.hook.bind (w.act flt bot lastId)
  | .finish, w =>
    match w.hook with
    | some (.ok ending) => ending.replies.map fun replies =>
      { w with hook := none, returned := w.returned ++ [replies] }
    | some (.fail _) => some { w with hook := none }
    | _ => none
  | .kill, w => some { w with hook := none }

end Chat

/-- A chat with an empty store, in which no id is assigned and no hook runs. -/
def chat [Fts5] : System Chat ChatEvent where
  init w := w.db = .migrated ∧ w.hook = none ∧ w.returned = []
  step := Chat.step

/-! ## What Telegram and the servers promise -/

/-- The message that a call stores, if it stores one. -/
def storedBy : Mutation → Option StoredMessage
  | .insertMessage m | .recordInbound _ m => some m
  | _ => none

/-- The messages stored for the chat have ids up to this one. -/
def Assigned (chatId : I64) (id : Int) (db : Db) : Prop :=
  ∀ r ∈ db.messages.rows, r.2.chatId = chatId → r.2.messageId.val ≤ id

/-- A call of a server, which stores no message of the chat before its id is assigned. -/
def Storable (chatId : I64) (id : Int) (m : Mutation) : Prop :=
  Bookkept m ∧ ∀ row ∈ storedBy m, row.chatId = chatId → row.messageId.val ≤ id

/-- Telegram assigns a message sent to the chat a new id, and answers with it. -/
def Answered (chatId : I64) (c : BotCall) (r : ApiOutcome c.Result) (id id' : Int) : Prop :=
  id ≤ id' ∧ ∀ x ∈ sentBy c r, (x.msg.chatId = chatId → x.msg.messageId.val ≤ id') ∧
    ((BotCall.send x.call).request.writesTo = some chatId → id < x.msg.messageId.val)

/-- Ids increase, only messages with an id are stored, and the invocations are all about this
chat. -/
def Promised (chatId : I64) (w : Chat) : ChatEvent → Prop
  | .assign id => w.lastId < id
  | .store m _ => Storable chatId w.lastId m
  | .start i c => ∀ s, c.connection = .ok s →
    ∀ n, s.aliases.get i.cli.chat = some n → n = chatId
  | .act _ bot lastId => ∀ c, Answered chatId c (bot c) w.lastId lastId
  | .finish | .kill => True

/-! ## The store -/

section
variable {chatId : I64} {id id' : Int} {db : Db}

/-- A touch stores no message, so it may always be made. -/
theorem storable_touch (chat date : I64) : Storable chatId id (.touchChatLastSeen chat date) := by
  refine ⟨trivial, ?_⟩
  intro row hrow
  cases hrow

/-- A mirrored message may be stored when its id is assigned, if it is of this chat. -/
theorem storable_insert {m : StoredMessage} (hm : m.direction = .outbound)
    (hid : m.chatId = chatId → m.messageId.val ≤ id) : Storable chatId id (.insertMessage m) := by
  refine ⟨hm, ?_⟩
  intro row hrow
  cases hrow
  exact hid

/-- What was assigned stays assigned when more ids are. -/
theorem Assigned.mono (h : Assigned chatId id db) (hle : id ≤ id') : Assigned chatId id' db :=
  fun r hr hchat => (h r hr hchat).trans hle

/-- Only the messages of a store say which ids it has. -/
theorem Assigned.of_messages {db' : Db} (h : Assigned chatId id db)
    (hm : db'.messages = db.messages) : Assigned chatId id db' := by
  intro r hr
  rw [hm] at hr
  exact h r hr

/-- A message with an assigned id may be stored in the chat. -/
theorem Assigned.inserted [Fts5] (h : Assigned chatId id db) {m : StoredMessage}
    (hm : m.chatId = chatId → m.messageId.val ≤ id) : Assigned chatId id (inserted m db) := by
  intro r hr
  rw [inserted_messages] at hr
  rcases Keyed.RowidTable.mem_upsert.1 hr with rfl | ⟨hr, -⟩
  · have hkey := Keyed.RowidTable.key_merged messageConflict db.messages m
    obtain ⟨hchat, hid⟩ := Prod.mk.inj hkey
    rw [hchat, hid]
    exact hm
  · exact h r hr

/-- A call that a server may make stores no message without an id, under any fault, since each
method it makes leaves either its complete effect or none. -/
theorem Assigned.call [Fts5] (h : Assigned chatId id db) {m : Mutation}
    (hm : Storable chatId id m) (flt : Schedule HistoryError) :
    Assigned chatId id (m.op.call flt db).2 := by
  obtain ⟨hkept, hrow⟩ := hm
  have heval : m.bareDelete = none ∧ Assigned chatId id (m.op.eval db).2 := by
    cases m with
    | upsertChat | trimOlderThan | trimPerChatTo => exact hkept.elim
    | insertMessage row =>
      refine ⟨rfl, ?_⟩
      rw [Mutation.op, insertMessage_eval]
      exact h.inserted (hrow row rfl)
    | recordInbound chat msg =>
      refine ⟨rfl, ?_⟩
      rw [Mutation.op, recordInbound_eval]
      exact Assigned.inserted (h.of_messages rfl) (hrow msg rfl)
    | touchChatLastSeen | kvPut | markRead => exact ⟨rfl, h.of_messages rfl⟩
    | enforceRetention cutoff keep =>
      refine ⟨rfl, ?_⟩
      intro r hr
      have hafter := Keyed.RowidTable.row_eq_some_iff.2 ⟨⟨r.1, hr⟩, rfl⟩
      have hbefore := enforceRetention_row cutoff keep db hafter
      obtain ⟨⟨n, hn⟩, -⟩ := Keyed.RowidTable.row_eq_some_iff.1 hbefore
      exact h (n, r.2) hn
  rcases (Mutation.atomicAt_of_bareDelete heval.1 flt db).snd with heq | heq
  · rw [heq]
    exact h
  · rw [heq]
    exact heval.2

end

/-! ## What an invocation may rely on -/

/-- The last id assigned as the state: writes are those of a server, what is read has an id, and
Telegram answers as promised. -/
def assigning (chatId : I64) : Contract Action Int where
  le := (· ≤ ·)
  refl := le_refl
  trans := le_trans
  allowed
    | .write m, id => Storable chatId id m
    | _, _ => True
  after
    | .write _, id, _, id' => id ≤ id'
    | .read op _, id, r, id' => id ≤ id' ∧
      ∀ b, r = .ok b → ∃ db, Assigned chatId id db ∧ b = (op.eval db).1
    | .api c, id, r, id' => Answered chatId c r id id'

/-- An action of a hook assigns ids, and takes none back. -/
theorem assigning_forward {chatId : I64} {δ : Type} (act : Action δ) (id : Int) (r : δ) (id' : Int)
    (h : (assigning chatId).after act id r id') : id ≤ id' := by
  cases act with
  | write m => exact h
  | read op readOnly => exact h.1
  | api c => exact h.1

section
variable {chatId : I64} {s : State} {cli : CliArgs} {start id : Int}

/-- A text to the chat gets an id that is new. -/
theorem deliver_assigning (text : String) (hid : start ≤ id) :
    Safe (assigning chatId)
      (deliver (.sendMessage chatId text none none false true) (some text) none none)
      (fun result _ => ∃ sent, result = ⟨[sendMessageOutput sent]⟩ ∧ start < sent.messageId.val)
      (fun _ _ => True) id := by
  intro id₁ h₁
  refine ⟨trivial, ?_⟩
  intro outcome id₂ hanswered
  obtain ⟨h₂, hsent⟩ := hanswered
  cases outcome with
  | acceptedLost e => exact fun _ _ => trivial
  | refused e => exact fun _ _ => trivial
  | accepted sent =>
    obtain ⟨hown, hnew⟩ := hsent _ rfl
    have hstart : start < sent.messageId.val := lt_of_le_of_lt (le_trans hid h₁) (hnew rfl)
    intro id₃ h₃
    refine ⟨storable_touch _ _, ?_⟩
    intro touched id₄ h₄
    cases touched with
    | error e => exact fun _ _ => trivial
    | ok u =>
      intro id₅ h₅
      refine ⟨storable_insert rfl fun hchat => ?_, ?_⟩
      · exact le_trans (hown hchat) (le_trans h₃ (le_trans h₄ h₅))
      · intro inserted id₆ h₆
        cases inserted with
        | error e => exact fun _ _ => trivial
        | ok u => exact fun _ _ => ⟨sent, rfl, hstart⟩

/-- The baseline read from the answer of a server is the id that the Bot API gave. -/
theorem extractBaseline_sendMessageOutput (sent : SentMessage) :
    extractBaseline ⟨[sendMessageOutput sent]⟩ = .ok ⟨sent.messageId⟩ := by
  have hid : ((sendMessageOutput sent).get "message_id").bind Json.asI64 = some sent.messageId :=
    Json.asI64_ofI64 sent.messageId
  simp [extractBaseline, toolResultText, context, Except.mapError, Bind.bind, Except.bind, hid]

/-- The replies read from the answer of a server are the inbound rows of its page, sorted. -/
theorem parseReplies_page (page : List StoredMessage) :
    parseReplies ⟨[.arr (page.map StoredMessage.toJson)]⟩ =
      .ok (sortReplies (inboundReplies page)) := by
  rw [← filterMap_replyOf]
  rfl

/-- The server resolves the argument of the hook to no other chat. -/
def About (chatId : I64) (s : State) (cli : CliArgs) : Prop :=
  ∀ n, s.aliases.get cli.chat = some n → n = chatId

/-- What an invocation returns is above what was assigned before it, and assigned. -/
def Fresh (start : Int) (ending : Ending) (id : Int) : Prop :=
  ∀ replies ∈ ending.replies, ∀ r ∈ replies,
    start < r.messageId.val ∧ r.messageId.val ≤ id

/-- An invocation that releases returns no replies, so no old ones. -/
theorem fresh_released : Fresh start .released id := by
  intro replies hreplies r hr
  cases hreplies
  cases hr

/-- Neither does one that blocks without a reply, as after a timeout. -/
theorem fresh_blocked_nil (reason : String) : Fresh start (.blocked reason []) id := by
  intro replies hreplies r hr
  cases hreplies
  cases hr

variable [Fts5]

/-- A message that is sent gets an id above those assigned so far. -/
theorem send_safe (habout : About chatId s cli) (text : String) (hid : start ≤ id) :
    Safe (assigning chatId) (callTool s "tg_send_message" (sendArgs cli.chat text))
      (fun result _ => ∃ sent, result = ⟨[sendMessageOutput sent]⟩ ∧ start < sent.messageId.val)
      (fun _ _ => True) id := by
  refine Safe.mapError ?_
  rw [callTool_sendArgs, sendTarget_sendArgs]
  refine Safe.bind (Q := fun n id' => n = chatId ∧ start ≤ id')
    (Safe.lift ?_ fun _ _ _ _ => trivial) ?_
  · intro n id' hn hle
    exact ⟨habout n ((resolveChat_name_iff _).1 hn), hid.trans hle⟩
  · intro n id' hn
    obtain ⟨rfl, hid'⟩ := hn
    refine Safe.bind (Q := fun _ id'' => start ≤ id'') (Safe.lift ?_ fun _ _ _ _ => trivial) ?_
    · intro _ id'' _ hle
      exact hid'.trans hle
    · intro _ id'' hid''
      exact deliver_assigning text hid''

/-- The baseline that a wakeup gives is a new id. -/
theorem sendWakeup_safe (habout : About chatId s cli) (text : String) (hid : start ≤ id) :
    Safe (assigning chatId) (sendWakeup s cli.chat text)
      (fun baseline _ => start < baseline.sentMessageId.val) (fun _ _ => True) id := by
  refine Safe.bind (send_safe habout text hid) ?_
  intro result id' hsent
  obtain ⟨sent, rfl, hnew⟩ := hsent
  rw [extractBaseline_sendMessageOutput]
  exact fun _ _ => hnew

/-- A notice keeps to the contract, whether it is sent in time or not. -/
theorem sendNotice_safe (habout : About chatId s cli) (text : String) (inTime : Bool) :
    Safe (assigning chatId) (sendNotice s cli text inTime) (fun _ _ => True) (fun _ _ => True)
      id := by
  unfold sendNotice
  split
  · exact Safe.bind (send_safe habout text (le_refl id)).attempt fun _ _ _ => fun _ _ => trivial
  · exact fun _ _ => trivial

/-- The chunks of the last answer keep to it, sent or not. -/
theorem sendResponseChunks_safe (habout : About chatId s cli) (chunks : List String) :
    Safe (assigning chatId) (sendResponseChunks s cli chunks) (fun _ _ => True)
      (fun _ _ => True) id := by
  induction chunks generalizing id with
  | nil => exact fun _ _ => trivial
  | cons chunk chunks ih =>
    exact Safe.bind (send_safe habout chunk (le_refl id)).attempt fun _ _ _ => ih

/-- A poll returns ids above the baseline, all of which are assigned. -/
theorem pollOnce_safe (habout : About chatId s cli) (after : I64) :
    Safe (assigning chatId) (pollOnce s cli.chat after)
      (fun replies id' => ∀ r ∈ replies, after.val < r.messageId.val ∧ r.messageId.val ≤ id')
      (fun _ _ => True) id := by
  let page (db : Db) := ((messages chatId none (some after) (i64 50)).eval db).1
  have hcall : Safe (assigning chatId)
      (callTool s "tg_history_messages" (pollArgs cli.chat after))
      (fun result id' => ∃ db, Assigned chatId id' db ∧
        result = ⟨[.arr ((page db).map StoredMessage.toJson)]⟩) (fun _ _ => True) id := by
    refine Safe.mapError ?_
    rw [callTool_pollArgs, pollTarget_pollArgs]
    refine Safe.bind (Q := fun n _ => n = chatId) (Safe.lift ?_ fun _ _ _ _ => trivial) ?_
    · intro n _ hn _
      exact habout n ((resolveChat_name_iff _).1 hn)
    · intro n id' hn id₁ _
      subst hn
      refine ⟨trivial, ?_⟩
      intro outcome id₂ hread
      cases outcome with
      | error e => exact fun _ _ => trivial
      | ok msgs =>
        obtain ⟨db, hdb, rfl⟩ := hread.2 msgs rfl
        exact fun id₃ h₃ => ⟨db, hdb.mono (hread.1.trans h₃), rfl⟩
  refine Safe.bind hcall ?_
  intro result id' hpage
  obtain ⟨db, hdb, rfl⟩ := hpage
  rw [parseReplies_page]
  intro id'' hle r hr
  obtain ⟨rowid, m, hrow, ⟨hchat, -, hafter⟩, -, rfl⟩ := (mem_sortReplies_iff (by decide)).1 hr
  exact ⟨hafter, (hdb (rowid, m) hrow hchat).trans hle⟩

/-- The loop returns replies above its baseline only. By induction on the branches: a branch that
does not end the loop leaves the baseline as it was. -/
theorem waitLoop_safe (habout : About chatId s cli) {baseline : Baseline}
    (hbase : start < baseline.sentMessageId.val) (takeover : String) {onTimeout : Ending}
    (htimeout : ∀ id, Fresh start onTimeout id) (reason : List Reply → String) (inTime : Bool)
    (branches : List Branch) :
    Safe (assigning chatId) (waitLoop s cli baseline takeover onTimeout reason inTime branches)
      (Fresh start) (fun _ _ => True) id := by
  induction branches generalizing id with
  | nil =>
    intro _ _ replies hreplies
    cases hreplies
  | cons branch rest ih =>
    cases branch with
    | ctrlC => exact fun _ _ => fresh_released
    | timeout => exact fun id' _ => htimeout id'
    | localInput userActive =>
      rw [waitLoop]
      split
      · exact Safe.bind (sendNotice_safe habout takeover inTime) fun _ _ _ _ _ => fresh_released
      · exact ih
    | poll =>
      rw [waitLoop]
      refine Safe.bind (pollOnce_safe habout baseline.sentMessageId).attempt ?_
      intro r id' hr
      match r with
      | .error _ => exact ih
      | .ok [] => exact ih
      | .ok (r :: replies) =>
        have hack : Safe (assigning chatId) (sendAck s cli inTime) (fun _ id'' => True ∧ id' ≤ id'')
            (fun _ _ => True) id' :=
          (sendNotice_safe habout defaultAckMessage inTime).forward assigning_forward (le_refl id')
        refine Safe.bind hack ?_
        intro _ id'' hle id₃ h₃ returned hreturned r' hr'
        cases hreturned
        obtain ⟨hafter, hid⟩ := hr r' hr'
        exact ⟨hbase.trans hafter, hid.trans (hle.2.trans h₃)⟩

/-- An invocation that connects, sends its wakeup, and goes on from a baseline that is new. -/
theorem wakeup_safe {connection : Except HookError State}
    (habout : ∀ s, connection = .ok s → About chatId s cli) (hid : start ≤ id) (text : String)
    {wait : State → Baseline → HookM Ending}
    (hwait : ∀ s baseline id', About chatId s cli → start < baseline.sentMessageId.val →
      Safe (assigning chatId) (wait s baseline) (Fresh start) (fun _ _ => True) id') :
    Safe (assigning chatId)
      (do
        let s ← Proc.lift connection
        let baseline ← sendWakeup s cli.chat text
        wait s baseline)
      (Fresh start) (fun _ _ => True) id := by
  refine Safe.bind (Q := fun s id' => About chatId s cli ∧ start ≤ id')
    (Safe.lift ?_ fun _ _ _ _ => trivial) ?_
  · intro s id' hs hle
    exact ⟨habout s hs, hid.trans hle⟩
  · intro s id' hs
    refine Safe.bind (sendWakeup_safe hs.1 text hs.2) fun baseline id'' hbase => ?_
    exact hwait s baseline id'' hs.1 hbase

/-- An invocation returns only ids that are assigned after its start. -/
theorem Invocation.run_safe {i : Invocation} {c : Course}
    (habout : ∀ s, c.connection = .ok s → About chatId s i.cli) (hid : start ≤ id) :
    Safe (assigning chatId) (i.run c) (Fresh start) (fun _ _ => True) id := by
  cases i with
  | stop cli lastAssistantMessage =>
    rw [Invocation.run, runStop]
    split
    · exact fun _ _ => fresh_released
    · refine wakeup_safe habout hid _ fun s baseline id' hs hbase => ?_
      refine Safe.bind (sendResponseChunks_safe hs _) fun _ _ _ => ?_
      exact waitLoop_safe hs hbase _ (fun _ => fresh_blocked_nil _) _ _ _
  | ask cli questions =>
    rw [Invocation.run, runAsk]
    split
    · exact fun _ _ => fresh_released
    · refine wakeup_safe habout hid _ fun s baseline id' hs hbase => ?_
      exact waitLoop_safe hs hbase _ (fun _ => fresh_released) _ _ _

end

/-! ## Runs -/

/-- The replies of an invocation all have ids up to this one. -/
def UpTo (id : Int) (replies : List Reply) : Prop := ∀ r ∈ replies, r.messageId.val ≤ id

/-- What holds throughout: what is stored has an id, what was returned has one up to the start of
the invocation in progress, and that one returns none of these. -/
structure Consumed [Fts5] (chatId : I64) (w : Chat) : Prop where
  store : Assigned chatId w.lastId w.db
  disjoint : w.returned.Pairwise fun rs rs' => ∀ r ∈ rs, ∀ r' ∈ rs', r.messageId ≠ r'.messageId
  bounded : ∀ rs ∈ w.returned, UpTo w.lastId rs
  hook : ∀ p ∈ w.hook, ∃ start, (∀ rs ∈ w.returned, UpTo start rs) ∧
    Safe (assigning chatId) p (Fresh start) (fun _ _ => True) w.lastId

section
variable [Fts5] {chatId : I64} {w w' : Chat}

/-- The invariant does not depend on what is stored, as long as it is assigned. -/
theorem Consumed.of_assigned (h : Consumed chatId w) {id : Int} (hle : w.lastId ≤ id) {db : Db}
    (hdb : Assigned chatId id db) : Consumed chatId { w with db, lastId := id } := by
  refine ⟨hdb, h.disjoint, fun rs hrs r hr => (h.bounded rs hrs r hr).trans hle, ?_⟩
  intro p hp
  obtain ⟨start, hstart, hsafe⟩ := h.hook p hp
  exact ⟨start, hstart, hsafe.mono hle⟩

/-- Another hook may run when its start is above all that was returned and it returns what is above
that. -/
theorem Consumed.withHook (h : Consumed chatId w) {hook : Option (HookM Ending)}
    (hhook : ∀ p ∈ hook, ∃ start, (∀ rs ∈ w.returned, UpTo start rs) ∧
      Safe (assigning chatId) p (Fresh start) (fun _ _ => True) w.lastId) :
    Consumed chatId { w with hook } :=
  ⟨h.store, h.disjoint, h.bounded, hhook⟩

/-- The hook does what the contract allows, and gets what it tells. -/
theorem Consumed.act (h : Consumed chatId w) {p : HookM Ending} (hp : w.hook = some p)
    {flt : Schedule HistoryError} {bot : (c : BotCall) → ApiOutcome c.Result} {lastId : Int}
    (hbot : ∀ c, Answered chatId c (bot c) w.lastId lastId)
    (hs : w.act flt bot lastId p = some w') : Consumed chatId w' := by
  obtain ⟨start, hstart, hsafe⟩ := h.hook p hp
  match p with
  | .ok _ | .fail _ => cases hs
  | .perform (.write m) next =>
    cases hs
    obtain ⟨hallowed, hnext⟩ := hsafe w.lastId (le_refl _)
    refine ⟨h.store.call hallowed flt, h.disjoint, h.bounded, ?_⟩
    intro p' hp'
    cases hp'
    exact ⟨start, hstart, hnext _ _ (le_refl w.lastId)⟩
  | .perform (.read op readOnly) next =>
    cases hs
    obtain ⟨-, hnext⟩ := hsafe w.lastId (le_refl _)
    refine ⟨?_, h.disjoint, h.bounded, ?_⟩
    · rw [Chat.called, readOnly]
      exact h.store
    · intro p' hp'
      cases hp'
      refine ⟨start, hstart, hnext _ _ ⟨le_refl w.lastId, ?_⟩⟩
      intro b hb
      exact ⟨w.db, h.store, response_ok hb⟩
  | .perform (.api c) next =>
    cases hs
    obtain ⟨-, hnext⟩ := hsafe w.lastId (le_refl _)
    have hle := (hbot c).1
    refine ⟨h.store.mono hle, h.disjoint, fun rs hrs r hr => (h.bounded rs hrs r hr).trans hle, ?_⟩
    intro p' hp'
    cases hp'
    exact ⟨start, hstart, hnext _ _ (hbot c)⟩

/-- Every event that is as promised keeps the invariant, by one case for each: Telegram gives out a
larger id, the server stores a message that has one already, a hook starts, or the hook that runs
takes its next action. -/
theorem Consumed.step (h : Consumed chatId w) {i : ChatEvent} (hi : Promised chatId w i)
    (hs : w.step i = some w') : Consumed chatId w' := by
  cases i with
  | assign id =>
    cases hs
    exact h.of_assigned (le_of_lt hi) (h.store.mono (le_of_lt hi))
  | store m flt =>
    cases hs
    exact h.of_assigned (le_refl _) (h.store.call hi flt)
  | start i c =>
    unfold Chat.step at hs
    dsimp only at hs
    split at hs
    · cases hs
      refine h.withHook ?_
      intro p hp
      cases hp
      exact ⟨w.lastId, h.bounded, Invocation.run_safe hi (le_refl _)⟩
    · cases hs
  | act flt bot lastId =>
    obtain ⟨p, hp, hact⟩ := Option.bind_eq_some_iff.1 hs
    exact h.act hp hi hact
  | finish =>
    unfold Chat.step at hs
    dsimp only at hs
    split at hs
    · next ending hhook =>
      obtain ⟨replies, hreplies, rfl⟩ := Option.map_eq_some_iff.1 hs
      obtain ⟨start, hstart, hsafe⟩ := h.hook _ hhook
      have hfresh := hsafe w.lastId (le_refl _) replies hreplies
      refine ⟨h.store, ?_, ?_, nofun⟩
      · refine List.pairwise_append.2 ⟨h.disjoint, List.pairwise_singleton _ _, ?_⟩
        intro rs hrs rs' hrs' r hr r' hr' heq
        rw [List.mem_singleton.1 hrs'] at hr'
        have hbefore := hstart rs hrs r hr
        have hafter := (hfresh r' hr').1
        rw [heq] at hbefore
        omega
      · intro rs hrs
        rcases List.mem_append.1 hrs with hrs | hrs
        · exact h.bounded rs hrs
        · rw [List.mem_singleton.1 hrs]
          exact fun r hr => (hfresh r hr).2
    · cases hs
      exact h.withHook nofun
    · cases hs
  | kill =>
    cases hs
    exact h.withHook nofun

/-- No message is returned by two invocations, in any run in which ids increase and only messages
with an id are stored: an invocation returns ids between its own text and the next one. -/
theorem returned_disjoint (chatId : I64) (w : Chat) (h : chat.Reached (Promised chatId) w) :
    w.returned.Pairwise fun rs rs' => ∀ r ∈ rs, ∀ r' ∈ rs', r.messageId ≠ r'.messageId := by
  have hw : Consumed chatId w := by
    refine h.invariant ?_ fun w i w' hw hi hs => hw.step hi hs
    intro w hinit
    obtain ⟨hdb, hhook, hreturned⟩ := hinit
    refine ⟨?_, ?_, ?_, ?_⟩
    · rw [hdb]
      intro r hr
      cases hr
    · rw [hreturned]
      exact .nil
    · rw [hreturned]
      intro rs hrs
      cases hrs
    · rw [hhook]
      exact nofun
  exact hw.disjoint

end

/-! ## One question -/

/-- Telegram, when it assigns this id to a text. -/
def answering (id : I64) : (c : BotCall) → ApiOutcome c.Result
  | .send (.sendMessage chatId _ _ _ _ _) => .accepted ⟨chatId, id, i64 100⟩
  | .send _ | .getMe | .deleteMessage _ _ | .sendChatAction _ _ | .downloadFile _ _ =>
    .refused (.http "offline")

/-- A server whose ids grow answers as the contract wants. -/
theorem answered_answering {chatId id : I64} {lastId : Int} (h : lastId < id.val) (c : BotCall) :
    Answered chatId c (answering id c) lastId id.val := by
  refine ⟨le_of_lt h, ?_⟩
  intro x hx
  match c with
  | .send (.sendMessage _ _ _ _ _ _) =>
    cases hx
    exact ⟨fun _ => le_refl _, fun _ => h⟩
  | .send (.sendPhotoPath _ _ _ _) | .send (.sendDocumentPath _ _ _ _)
  | .send (.editMessageText _ _ _ _) | .send (.forwardMessage _ _ _)
  | .getMe | .deleteMessage _ _ | .sendChatAction _ _ | .downloadFile _ _ => cases hx

/-- A server that answers with errors assigns nothing, as the contract wants. -/
theorem answered_offline {chatId : I64} {id : Int} (c : BotCall) :
    Answered chatId c (offline c) id id := by
  refine ⟨le_refl id, ?_⟩
  intro x hx
  match c with
  | .send (.sendMessage _ _ _ _ _ _) | .send (.sendPhotoPath _ _ _ _)
  | .send (.sendDocumentPath _ _ _ _) | .send (.editMessageText _ _ _ _)
  | .send (.forwardMessage _ _ _)
  | .getMe | .deleteMessage _ _ | .sendChatAction _ _ | .downloadFile _ _ => cases hx

/-- A hook with one question, for the alias of the chat 42. -/
def question : Invocation := .ask ⟨"me", none, none, 3600, 5, false, 2⟩ ⟨"Which one?", id⟩

/-- The course of events on which one poll is made for it. -/
def onePoll : Course := ⟨false, .ok withAlias, [.poll], false⟩

/-- An answer in the chat 42, as the updater stores it. -/
def answer (id : I64) (date : I64) (text : String) : StoredMessage :=
  .ofText (i64 42) id date text .inbound

/-- The chat of the answers, which was seen at some date. -/
def answerChat (date : I64) : ChatInfo := ⟨i64 42, .private, none, none, date, date⟩

/-- The reply to the first question. -/
def firstAnswer : StoredMessage := answer (i64 2) (i64 101) "yes"

/-- The reply to the second question, which comes later. -/
def secondAnswer : StoredMessage := answer (i64 4) (i64 103) "no"

/-- An answer may be stored when its id is assigned. -/
theorem storable_answer {id date : I64} {text : String} :
    Storable (i64 42) id.val (.recordInbound (answerChat date) (answer id date text)) := by
  refine ⟨rfl, ?_⟩
  intro row hrow _
  cases hrow
  exact le_refl id.val

/-- Two questions are asked one after the other, and each is answered before its poll. The second
one returns its own answer alone, while the first answer is still in the store. -/
theorem returned_disjoint_questions :
    ∃ w : Chat, w.returned = [[Reply.ofMessage firstAnswer], [Reply.ofMessage secondAnswer]] ∧
      w.returned.Pairwise fun rs rs' => ∀ r ∈ rs, ∀ r' ∈ rs', r.messageId ≠ r'.messageId := by
  have h0 : (@chat Fts5.ascii).Reached (Promised (i64 42)) ⟨.migrated, 0, none, []⟩ :=
    .init ⟨rfl, rfl, rfl⟩
  have h1 := h0.step (ChatEvent.start question onePoll) (by rintro s ⟨⟩ n ⟨⟩; rfl) rfl
  have h2 := h1.step (ChatEvent.act none (answering (i64 1)) 1) (answered_answering (by decide)) rfl
  have h3 := h2.step (ChatEvent.act none offline 1) answered_offline rfl
  have h4 := h3.step (ChatEvent.act none offline 1) answered_offline rfl
  have h5 := h4.step (ChatEvent.assign 2) (show (1 : Int) < 2 by decide) rfl
  have h6 := h5.step (ChatEvent.store (.recordInbound (answerChat (i64 101)) firstAnswer) none)
    storable_answer rfl
  have h7 := h6.step (ChatEvent.act none offline 2) answered_offline rfl
  have h8 := h7.step ChatEvent.finish trivial rfl
  -- the second question, with message 3 as its baseline
  have h9 := h8.step (ChatEvent.start question onePoll) (by rintro s ⟨⟩ n ⟨⟩; rfl) rfl
  have h10 := h9.step (ChatEvent.act none (answering (i64 3)) 3)
    (answered_answering (by decide)) rfl
  have h11 := h10.step (ChatEvent.act none offline 3) answered_offline rfl
  have h12 := h11.step (ChatEvent.act none offline 3) answered_offline rfl
  have h13 := h12.step (ChatEvent.assign 4) (show (3 : Int) < 4 by decide) rfl
  have h14 := h13.step (ChatEvent.store (.recordInbound (answerChat (i64 103)) secondAnswer) none)
    storable_answer rfl
  have h15 := h14.step (ChatEvent.act none offline 4) answered_offline rfl
  have h16 := h15.step ChatEvent.finish trivial rfl
  exact ⟨_, rfl, @returned_disjoint Fts5.ascii (i64 42) _ h16⟩

end TelegramMcp.Hook
