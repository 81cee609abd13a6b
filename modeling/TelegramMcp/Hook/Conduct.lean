import TelegramMcp.Hook.Main
import TelegramMcp.Server.Messages

/-!
# What the hook does to the server

A hook process sends plain texts to the chat of its command line and reads what came in there after
the first of them. In order, these are the text it was started for, the chunks of the last answer,
and at the end one notice at most: that a reply is being worked on, or that the user took over
(`main_conduct`). When the first is not accepted nothing follows, and without a chat of that alias
nothing is done at all.
-/

namespace TelegramMcp.Hook

open Rust Txn History Server Proc

/-! ## Contracts of the hook -/

/-- Safe under a contract that asks nothing of the end. -/
abbrev Keeps {γ : Type*} {α : Type} (C : Contract Action γ) (t : HookM α) (g : γ) : Prop :=
  t.Safe C (fun _ _ => True) (fun _ _ => True) g

section
variable {γ : Type*} {C : Contract Action γ} {s : State} {cli : CliArgs}

/-- A part whose errors are dealt with keeps to the contract when the part does. -/
theorem attempt_keeps {α β : Type} {t : HookM α} {f : Except HookError α → HookM β} {g : γ}
    (ht : Keeps C t g) (hf : ∀ r g, Keeps C (f r) g) : Keeps C (t.attempt >>= f) g :=
  Safe.bind (Safe.attempt ht) fun r g _ => hf r g

variable [Fts5]
  (hsend : ∀ text g, Keeps C (callTool s "tg_send_message" (sendArgs cli.chat text)) g)
include hsend

/-- Sending the text of a hook keeps to a contract that allows what its tool does. -/
theorem sendWakeup_keeps (text : String) (g : γ) : Keeps C (sendWakeup s cli.chat text) g :=
  Safe.seq (hsend text g) fun _ _ => Safe.lift_true _

/-- So is sending a notice, whether the `timeout` around it cuts it off or not. -/
theorem sendNotice_keeps (text : String) (inTime : Bool) (g : γ) :
    Keeps C (sendNotice s cli text inTime) g := by
  rw [sendNotice]
  split
  · exact attempt_keeps (hsend text g) fun _ _ => Safe.pure_true
  · exact Safe.pure_true

/-- So is sending the chunks of the last answer, whose errors are swallowed. -/
theorem sendResponseChunks_keeps (chunks : List String) (g : γ) :
    Keeps C (sendResponseChunks s cli chunks) g := by
  induction chunks generalizing g with
  | nil => exact Safe.pure_true
  | cons chunk chunks ih => exact attempt_keeps (hsend chunk g) fun _ => ih

variable (hpoll : ∀ after g, Keeps C (pollOnce s cli.chat after) g)
include hpoll

/-- So is the loop of `select!`, whatever branches it takes and however it ends. -/
theorem waitLoop_keeps (baseline : Baseline) (takeover : String) (onTimeout : Ending)
    (reason : List Reply → String) (inTime : Bool) (branches : List Branch) (g : γ) :
    Keeps C (waitLoop s cli baseline takeover onTimeout reason inTime branches) g := by
  induction branches generalizing g with
  | nil => exact Safe.pure_true
  | cons branch branches ih =>
    cases branch with
    | ctrlC | timeout => exact Safe.pure_true
    | localInput userActive =>
      rw [waitLoop]
      split
      · exact Safe.seq (sendNotice_keeps hsend _ _ g) fun _ _ => Safe.pure_true
      · exact ih g
    | poll =>
      refine attempt_keeps (hpoll _ g) fun polled g' => ?_
      cases polled with
      | error e => exact ih g'
      | ok replies =>
        cases replies with
        | nil => exact ih g'
        | cons reply replies =>
          exact Safe.seq (sendNotice_keeps hsend _ _ g') fun _ _ => Safe.pure_true

end

/-! ## What is sent -/

/-- A text as the hook sends it to a chat: plain, with its links shown, and as a reply to
nothing. -/
def message (chat : I64) (text : String) : SendCall := .sendMessage chat text none none false true

/-- The messages sent in an execution, whatever became of them. -/
abbrev messagesSent (tr : List (Performed Action)) : List SendCall := selected sends tr

section
variable [Fts5] {s : State} {arg text : String} {chat : I64} {tr : List (Performed Action)}

/-- The last message of an invocation: none, or one of two notices. -/
def Noticed (chat : I64) (takeover : String) (sent : List SendCall) : Prop :=
  sent = [] ∨ ∃ notice ∈ [takeover, defaultAckMessage], sent = [message chat notice]

/-- In this trace, a message with this text was sent to the chat, and the answer that it is `sent`
arrived. -/
def Acknowledged (chat : I64) (text : String) (sent : SentMessage) (tr : List (Performed Action)) :
    Prop :=
  (⟨.api (.send (message chat text)), .accepted sent⟩ : Performed Action) ∈ tr

/-- What the hook may do in its chat after this trace: it sends texts and reads; and the server
stores, for a text that was sent and the answer to it that arrived, the date and the row of this
message. -/
inductive Permitted (chat : I64) (tr : List (Performed Action)) : {β : Type} → Action β → Prop
  | send (text : String) : Permitted chat tr (.api (.send (message chat text)))
  | touch {text : String} {sent : SentMessage} (h : Acknowledged chat text sent tr) :
    Permitted chat tr (.write (.touchChatLastSeen sent.chatId sent.date))
  | insert {text : String} {sent : SentMessage} (h : Acknowledged chat text sent tr) :
    Permitted chat tr (.write (.insertMessage (outboundRow sent (some text) none none)))
  | read (after : I64)
    (h : ∀ (flt : Schedule HistoryError) db,
      ((messages chat none (some after) (i64 50)).call flt db).2 = db) :
    Permitted chat tr (.read (messages chat none (some after) (i64 50)) h)

/-- The contract under which what came before permits each action of the hook. -/
abbrev permitted (chat : I64) : Contract Action (List (Performed Action)) :=
  .justified fun tr => Permitted chat tr

omit [Fts5] in
/-- An answer that arrived stays one that arrived. -/
theorem Acknowledged.mono {sent : SentMessage} {tr' : List (Performed Action)}
    (h : Acknowledged chat text sent tr) (hle : tr <+: tr') : Acknowledged chat text sent tr' :=
  hle.subset h

/-- What an invocation sends, in order: its text, the chunks of the last answer, and a notice. -/
structure Script where
  sessionId : Option String
  text : String
  chunks : List String
  takeover : String

/-- An invocation follows its script in this chat: it sends nothing, the text only, or the text, the
chunks and at most one notice; and what came before it in the trace permits each action. -/
structure Follows (script : Script) (chat : I64) (tr : List (Performed Action)) : Prop where
  sends : messagesSent tr = [] ∨ messagesSent tr = [message chat script.text] ∨
    ∃ last, Noticed chat script.takeover last ∧
      messagesSent tr = (script.text :: script.chunks).map (message chat) ++ last
  permitted : ∀ before x after, tr = before ++ x :: after → Permitted chat before x.act

section
variable {c : Course} {cli : CliArgs}

end

end

/-! ## The process -/

namespace Surroundings

/-- What the process is to send, if its input is one it knows. -/
def script (cli : CliArgs) (input : Json) : Option Script :=
  if isPreToolUse input then
    (questionsOf input).toOption.map fun qs =>
      ⟨(input.get "session_id").bind Json.asStr, qs.render, [], askTakeoverMessage⟩
  else
    (StopInput.fromValue input).toOption.map fun stopInput =>
      ⟨stopInput.sessionId, cli.message.getD defaultWakeupMessage,
        responseChunks stopInput.lastAssistantMessage, stopTakeoverMessage⟩

section
variable [Fts5] [ReadJson] {w : Surroundings} {cli : CliArgs} {tr : List (Performed Action)}
  {r : Except HookError Status}

end

end Surroundings

end TelegramMcp.Hook
