import TelegramMcp.Server.Tools
import TelegramMcp.Hook.Cli

/-!
# The tool calls of the hook

The hook calls `tg_send_message` for the wakeup, whose answer is the baseline, and polls
`tg_history_messages` for what came in after it. Both calls pass the `--chat` argument as a JSON
string, which the server decodes as a name: a numeric chat id is looked up in the alias table and
not found. `chat_resolves_iff` says for which arguments the two agree.
-/

namespace TelegramMcp.Hook

open Rust Server Fields

/-- The errors of the hook: an error of the server as it came over the pipe, or messages, the
outermost first, as `anyhow` chains them. -/
inductive HookError
  | mcp (e : McpError)
  | messages (chain : List String)
  deriving DecidableEq

/-- A part of the hook, which acts through the server it is connected to. -/
abbrev HookM (α : Type) := Proc Action HookError α

/-- `McpClient::call_tool` as the hooks see it: a tool of the server is run, and its error is
theirs. -/
def callTool [Fts5] (s : State) (name : String) (arguments : Entries) : HookM CallToolResult :=
  (Server.callTool s ⟨name, some arguments⟩).mapError .mcp

/-- `tool_result_text`: the value in the first content of a result. -/
def toolResultText (result : CallToolResult) : Except String Json :=
  result.content.head?.elim (.error "MCP result missing content[0].text") .ok

/-- `.context`: an error with a text before it. -/
def context {α : Type} (what : String) (r : Except String α) : Except HookError α :=
  r.mapError fun e => .messages [what, e]

/-! ## The wakeup -/

/-- `Baseline`: the id of the message the hook sent. Replies are the inbound messages of the same
chat with larger ids than this one. -/
structure Baseline where
  sentMessageId : I64
  deriving DecidableEq

/-- `extract_baseline`: the id that the server gave the message, from the JSON of its answer; what
is missing there is an error that names the tool. -/
def extractBaseline (result : CallToolResult) : Except HookError Baseline := do
  let parsed ← context "tg_send_message result" (toolResultText result)
  match (parsed.get "message_id").bind Json.asI64 with
  | some sentMessageId => .ok ⟨sentMessageId⟩
  | none => .error (.messages ["tg_send_message: missing message_id"])

/-- The arguments of `tg_send_message`: the chat as it stands on the command line, always as a JSON
string. -/
def sendArgs (chat text : String) : Entries := [("chat", .str chat), ("text", .str text)]

/-- `send_wakeup`: the text is sent, and the id it got is the baseline of the polls. -/
def sendWakeup [Fts5] (s : State) (chat text : String) : HookM Baseline := do
  let result ← callTool s "tg_send_message" (sendArgs chat text)
  .lift (extractBaseline result)

/-! ## Polling -/

/-- `Reply`: a reply from the history; one of media only has no text. -/
structure Reply where
  messageId : I64
  text : Option String
  deriving DecidableEq

/-- The reply in a row of the history, if it is one. -/
def replyOf (m : Json) : Option Reply :=
  if (m.get "direction").bind Json.asStr = some "in" then
    ((m.get "message_id").bind Json.asI64).map fun messageId =>
      ⟨messageId, (m.get "text").bind Json.asStr⟩
  else none

/-- `replies.sort_by_key(|r| r.message_id)`, which is stable. -/
def sortReplies (replies : List Reply) : List Reply :=
  replies.insertionSort fun a b => a.messageId ≤ b.messageId

/-- `parse_replies`: of the rows returned, the inbound ones, with or without a text, in the order of
their ids. -/
def parseReplies (result : CallToolResult) : Except HookError (List Reply) := do
  let parsed ← context "tg_history_messages result" (toolResultText result)
  match parsed.asArray with
  | some arr => .ok (sortReplies (arr.filterMap replyOf))
  | none => .error (.messages ["tg_history_messages: expected JSON array"])

/-- The arguments of `tg_history_messages`: the newest 50 rows above the baseline. -/
def pollArgs (chat : String) (afterMessageId : I64) : Entries :=
  [("chat", .str chat), ("after_message_id", .ofI64 afterMessageId), ("limit", .int 50)]

/-- `poll_once`: one request, whose rows are filtered only after they were cut off at 50. -/
def pollOnce [Fts5] (s : State) (chat : String) (afterMessageId : I64) : HookM (List Reply) := do
  let result ← callTool s "tg_history_messages" (pollArgs chat afterMessageId)
  .lift (parseReplies result)

/-! ## The chat of a call -/

section
variable (aliases : Aliases)

/-- The chat that a call of `tg_send_message` goes to, from its arguments. -/
def sendTarget (arguments : Entries) : Except McpError I64 := do
  let input ← parseArgs SendMessageInput.fields (some arguments)
  resolveChat aliases input.chat

/-- The chat whose messages a call of `tg_history_messages` reads, from its arguments. -/
def pollTarget (arguments : Entries) : Except McpError I64 := do
  let input ← parseArgs HistoryMessagesInput.fields (some arguments)
  resolveChat aliases input.chat

/-- What the argument means: the id of an alias, or else the id it spells. -/
def Denotes (arg : String) (n : I64) : Prop :=
  aliases.get arg = some n ∨ aliases.get arg = none ∧ arg = n.toText

/-- Both calls of the hook go to this chat: the argument of `--chat` is resolved by the server to
the same id for sending and for polling. -/
structure Reaches (arg : String) (n : I64) : Prop where
  send : ∀ text, sendTarget aliases (sendArgs arg text) = .ok n
  poll : ∀ after, pollTarget aliases (pollArgs arg after) = .ok n

/-- The chat a send of the hook is for is the alias of the command line. -/
theorem sendTarget_sendArgs (arg text : String) :
    sendTarget aliases (sendArgs arg text) = resolveChat aliases (.name arg) := rfl

/-- The arguments of a poll decode to its chat, its baseline and its limit. -/
theorem parseArgs_pollArgs (arg : String) (after : I64) :
    parseArgs HistoryMessagesInput.fields (some (pollArgs arg after)) =
      .ok ⟨.name arg, none, some after, i64 50⟩ := by
  have hafter := Decode.option_i64_ofI64 after
  have hread : HistoryMessagesInput.fields.read (pollArgs arg after) =
      .ok ⟨.name arg, none, some after, i64 50⟩ :=
    read_seq_ok (read_seq_ok (read_seq_ok (read_map_ok rfl) rfl) hafter) rfl
  have hchecks : ∀ e ∈ pollArgs arg after, ∀ check,
      HistoryMessagesInput.fields.checks.lookup e.1 = some check → check e.2 = .ok () := by
    intro e he check hcheck
    simp only [pollArgs, List.mem_cons, List.not_mem_nil, or_false] at he
    rcases he with rfl | rfl | rfl
    · cases hcheck
      rfl
    · cases hcheck
      change (Decode.option Decode.i64 (.ofI64 after)).map _ = _
      rw [hafter]
      rfl
    · cases hcheck
      rfl
  rw [parseArgs, Option.getD_some, decode_ok hchecks hread]
  rfl

/-- The chat a poll of the hook reads is the alias of the command line. -/
theorem pollTarget_pollArgs (arg : String) (after : I64) :
    pollTarget aliases (pollArgs arg after) = resolveChat aliases (.name arg) := by
  rw [pollTarget, parseArgs_pollArgs]
  rfl

/-- The server resolves the chat of a wakeup and sends the text there. -/
theorem callTool_sendArgs [Fts5] (s : State) (arg text : String) :
    Server.callTool s ⟨"tg_send_message", some (sendArgs arg text)⟩ =
      Proc.lift (sendTarget s.aliases (sendArgs arg text)) >>= fun chat =>
        Proc.lift (checkSendAllowed s chat) >>= fun _ =>
          deliver (.sendMessage chat text none none false true) (some text) none none := rfl

/-- The server reads one page of the target of a poll. -/
theorem callTool_pollArgs [Fts5] (s : State) (arg : String) (after : I64) :
    Server.callTool s ⟨"tg_history_messages", some (pollArgs arg after)⟩ =
      Proc.lift (pollTarget s.aliases (pollArgs arg after)) >>= fun chat =>
        read (History.messages chat none (some after) (i64 50)) >>= fun msgs =>
          okJson (.arr (msgs.map StoredMessage.toJson)) := by
  change tgHistoryMessages s (some (pollArgs arg after)) = _
  rw [tgHistoryMessages, pollTarget_pollArgs, parseArgs_pollArgs, Proc.lift_ok, Proc.ok_bind]
  rfl

/-- A name resolves to the id of the alias, and only to that. -/
theorem resolveChat_name_iff {arg : String} {n : I64} :
    resolveChat aliases (.name arg) = .ok n ↔ aliases.get arg = some n := by
  rw [resolveChat, Aliases.resolve]
  cases aliases.get arg with
  | none => exact iff_of_false nofun nofun
  | some m => simp [Except.mapError]

/-- Both calls go where the alias table says, and nowhere when it says nothing. -/
theorem reaches_iff {arg : String} {n : I64} :
    Reaches aliases arg n ↔ aliases.get arg = some n := by
  rw [← resolveChat_name_iff]
  refine ⟨?_, ?_⟩
  · intro h
    exact (sendTarget_sendArgs aliases arg "").symm.trans (h.send "")
  · intro h
    exact ⟨fun text => (sendTarget_sendArgs aliases arg text).trans h,
      fun after => (pollTarget_pollArgs aliases arg after).trans h⟩

end

/-- The calls of the hook go to the chat that its `--chat` argument denotes exactly when the
argument is an alias name, or denotes no chat because it is no decimal number either: it is sent as
a JSON string, which the server takes for an alias only. -/
theorem chat_resolves_iff (aliases : Aliases) (argv : List String) :
    (∀ cli, CliArgs.parseFrom argv = .ok cli → ∀ n, Denotes aliases cli.chat n →
        Reaches aliases cli.chat n) ↔
      ∀ cli, CliArgs.parseFrom argv = .ok cli →
        (aliases.get cli.chat).isSome ∨ ∀ n : I64, cli.chat ≠ n.toText := by
  refine forall₂_congr fun cli _ => ?_
  simp only [reaches_iff, Denotes]
  cases hget : aliases.get cli.chat with
  | some m => simp
  | none => simp

/-- A numeric chat id on the command line, without an alias of that name: the server knows no such
alias. -/
theorem chat_unresolved :
    ¬ ∀ (aliases : Aliases) (argv : List String) (cli : CliArgs),
      CliArgs.parseFrom argv = .ok cli → ∀ n, Denotes aliases cli.chat n →
        Reaches aliases cli.chat n := by
  intro h
  have hreach := h ⟨.empty⟩ ["tg-hook", "--chat", "42"] _ (CliArgs.parseFrom_chat "tg-hook" "42")
    (i64 42) (.inr ⟨rfl, rfl⟩)
  cases (reaches_iff _).1 hreach

end TelegramMcp.Hook
