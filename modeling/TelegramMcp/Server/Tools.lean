import TelegramMcp.Lib.Proc
import TelegramMcp.History.Search
import TelegramMcp.Server.FilePath
import TelegramMcp.Server.ToolsIo

/-!
# The tools

A tool is a procedure whose actions are the calls of store methods and of client methods, in the
order the source makes them. `callTool` is the dispatcher. Validation performs no action; the five
tools that send or edit end with `deliver`: the client call, then `mirrorOutbound` with its two
writes, then the answer.
-/

namespace TelegramMcp.Server

open Rust Txn History

/-- The state shared by the tools, its client and store aside: the aliases, the chats that may be
sent to, and the root of the files. -/
structure State where
  aliases : Aliases
  /-- The chats the tools may send to; `none` is unrestricted. -/
  allowedSendTargets : Option (List I64)
  fileRoot : Option String

/-- The state of a server without aliases, send targets and file root. -/
def unrestricted : State := ⟨⟨.empty⟩, none, none⟩

/-- What a tool does outside itself: a write of the store, a read of it, a call of the Bot API. -/
inductive Action : Type → Type 1
  | write (m : Mutation) : Action (Except HistoryError m.Result)
  | read {β : Type} (op : Op Db β)
    (readOnly : ∀ (flt : Schedule HistoryError) db, (op.call flt db).2 = db) :
    Action (Except HistoryError β)
  | api (c : BotCall) : Action (ApiOutcome c.Result)

/-- A tool, or a part of one: actions on the store and the Bot API, and an error of the protocol. -/
abbrev ToolM (α : Type) := Proc Action McpError α

/-- A write to the store, with the error of the tool. -/
def write (m : Mutation) : ToolM m.Result :=
  .act (.write m) fun r => r.mapError historyErrToMcp

/-- A read of the store, with the error of the tool; that it changes nothing is part of the
action. -/
def read {β : Type} (op : Op Db β)
    (readOnly : ∀ (flt : Schedule HistoryError) db, (op.call flt db).2 = db := by
      exact Txn.Op.call_query_snd _) : ToolM β :=
  .act (.read op readOnly) fun r => r.mapError historyErrToMcp

/-- A call of the Bot API, with the error of the tool. -/
def api (c : BotCall) : ToolM c.Result :=
  .act (.api c) fun r => r.seen.mapError clientErrToMcp

/-- The result of a successful call: its contents, each the text of a JSON value. -/
structure CallToolResult where
  content : List Json

/-- `ok_json`: the result of a tool is one content, which is the text of a JSON value. -/
def okJson (v : Json) : ToolM CallToolResult := pure ⟨[v]⟩

/-- A `tools/call` request: the name of the tool and its arguments, if there are any. Missing
arguments are decoded as an empty object. -/
structure CallToolRequest where
  name : String
  arguments : Option Entries

/-! ## Checks -/

/-- `parse_args`: missing arguments are an empty object, and what does not decode is an invalid
parameter. -/
def parseArgs {α : Type} (f : Fields α) (args : Option Entries) : Except McpError α :=
  (f.decode (args.getD [])).mapError fun e => .invalidParams ("invalid arguments: " ++ e)

/-- The chat a reference names, or the error of an unknown alias. -/
def resolveChat (aliases : Aliases) (r : ChatRef) : Except McpError I64 :=
  (aliases.resolve r).mapError aliasErrToMcp

/-- `check_send_allowed`: without a list every chat is allowed, and with one those on it. -/
def checkSendAllowed (s : State) (chatId : I64) : Except McpError Unit :=
  if s.allowedSendTargets.all fun list => list.contains chatId then .ok ()
  else .error (.invalidParams s!"chat {chatId.toText} is not in allowed_send_targets")

/-- `parse_parse_mode`: the names are read in either case, and `markdown` means its second
version. -/
def parseParseMode (s : String) : Except String (Option ParseMode) :=
  match s.map Char.toLower with
  | "markdown" | "markdownv2" => .ok (some .markdownV2)
  | "html" => .ok (some .html)
  | other => .error ("unknown parse_mode: " ++ other)

/-- `decode_parse_mode`: no mode is none, and an unknown one is an invalid parameter. -/
def decodeParseMode : Option String → Except McpError (Option ParseMode)
  | some v => (parseParseMode v).mapError .invalidParams
  | none => .ok none

/-- The action of a name, which is spelled as the Bot API spells it. -/
def chatActionFromStr : String → Option ChatAction
  | "typing" => some .typing
  | "upload_photo" => some .uploadPhoto
  | "record_video" => some .recordVideo
  | "upload_video" => some .uploadVideo
  | "record_voice" => some .recordVoice
  | "upload_voice" => some .uploadVoice
  | "upload_document" => some .uploadDocument
  | "find_location" => some .findLocation
  | "record_video_note" => some .recordVideoNote
  | "upload_video_note" => some .uploadVideoNote
  | _ => none

/-! ## Sending -/

/-- The row of a message the server sent, with what the tool knows of it. -/
def outboundRow (sent : SentMessage) (text mediaKind : Option String) (replyTo : Option I64) :
    StoredMessage where
  chatId := sent.chatId
  messageId := sent.messageId
  date := sent.date
  fromId := none
  fromName := none
  replyTo
  text
  mediaKind
  mediaFileId := none
  mediaMeta := none
  direction := .outbound
  raw := .obj [("outbound", .bool true)]

/-- `mirror_outbound`: the chat is dated by the message, and then the row is stored; the first error
ends it. -/
def mirrorOutbound (sent : SentMessage) (text mediaKind : Option String) (replyTo : Option I64) :
    ToolM Unit := do
  write (.touchChatLastSeen sent.chatId sent.date)
  write (.insertMessage (outboundRow sent text mediaKind replyTo))

/-- How the tools that send or edit end, from the client call on. -/
def deliver (call : SendCall) (text mediaKind : Option String) (replyTo : Option I64) :
    ToolM CallToolResult := do
  let sent ← api (.send call)
  mirrorOutbound sent text mediaKind replyTo
  okJson (sendMessageOutput sent)

section
variable (s : State) (args : Option Entries)

/-- `tg_send_message`: the arguments are decoded, the chat is resolved and must be allowed, then the
mode is decoded and the text is sent and mirrored. -/
def tgSendMessage : ToolM CallToolResult := do
  let input ← .lift (parseArgs SendMessageInput.fields args)
  let chatId ← .lift (resolveChat s.aliases input.chat)
  .lift (checkSendAllowed s chatId)
  let parseMode ← .lift (decodeParseMode input.parseMode)
  deliver (.sendMessage chatId input.text parseMode input.replyTo (input.silent.getD false)
    (input.linkPreview.getD true)) (some input.text) none input.replyTo

/-- `tg_send_photo`: the chat must be allowed before the path is looked at, and the path must pass
the guard. -/
def tgSendPhoto : ToolM CallToolResult := do
  let input ← .lift (parseArgs SendPhotoInput.fields args)
  let chatId ← .lift (resolveChat s.aliases input.chat)
  .lift (checkSendAllowed s chatId)
  let path ← .lift (resolveFilePath input.path s.fileRoot)
  let pm ← .lift (decodeParseMode input.parseMode)
  deliver (.sendPhotoPath chatId path input.caption pm) input.caption (some "photo") none

/-- `tg_send_document`: in the same order, under the file name that is given, if one is. -/
def tgSendDocument : ToolM CallToolResult := do
  let input ← .lift (parseArgs SendDocumentInput.fields args)
  let chatId ← .lift (resolveChat s.aliases input.chat)
  .lift (checkSendAllowed s chatId)
  let path ← .lift (resolveFilePath input.path s.fileRoot)
  deliver (.sendDocumentPath chatId path input.caption input.filename) input.caption
    (some "document") none

/-- `tg_edit_message`: the edited message is mirrored like one that was sent, without the message it
was a reply to. -/
def tgEditMessage : ToolM CallToolResult := do
  let input ← .lift (parseArgs EditMessageInput.fields args)
  let chatId ← .lift (resolveChat s.aliases input.chat)
  .lift (checkSendAllowed s chatId)
  let pm ← .lift (decodeParseMode input.parseMode)
  deliver (.editMessageText chatId input.messageId input.text pm) (some input.text) none none

/-- `tg_forward_message`: only the chat it goes to must be allowed, and the row that is mirrored has
no text. -/
def tgForwardMessage : ToolM CallToolResult := do
  let input ← .lift (parseArgs ForwardMessageInput.fields args)
  let fromChat ← .lift (resolveChat s.aliases input.fromChat)
  let toChat ← .lift (resolveChat s.aliases input.toChat)
  .lift (checkSendAllowed s toChat)
  deliver (.forwardMessage fromChat input.messageId toChat) none none none

/-- `tg_delete_message`: the message goes at the Bot API, and its row stays. -/
def tgDeleteMessage : ToolM CallToolResult := do
  let input ← .lift (parseArgs DeleteMessageInput.fields args)
  let chatId ← .lift (resolveChat s.aliases input.chat)
  .lift (checkSendAllowed s chatId)
  api (.deleteMessage chatId input.messageId)
  okJson (.obj [("deleted", .bool true), ("chat_id", .ofI64 chatId),
    ("message_id", .ofI64 input.messageId)])

/-- `tg_send_chat_action`: the name of the action is looked at after the chat. -/
def tgSendChatAction : ToolM CallToolResult := do
  let input ← .lift (parseArgs ChatActionInput.fields args)
  let chatId ← .lift (resolveChat s.aliases input.chat)
  .lift (checkSendAllowed s chatId)
  let action ← .lift ((chatActionFromStr input.action).elim
    (.error (.invalidParams ("unknown action: " ++ input.action))) .ok)
  api (.sendChatAction chatId action)
  okJson (.obj [("ok", .bool true)])

/-! ## Identity and aliases -/

/-- `tg_bot_whoami`: the arguments must decode although there are none. -/
def tgBotWhoami : ToolM CallToolResult := do
  .lift (parseArgs noFields args)
  let me ← api .getMe
  okJson me.toJson

/-- `tg_bot_list_aliases`: the alias table in the order of the names. -/
def tgBotListAliases : ToolM CallToolResult := do
  .lift (parseArgs noFields args)
  okJson (.obj ((s.aliases.map.rows.insertionSort fun a b => a.1 ≤ b.1).map fun a =>
    (a.1, .ofI64 a.2)))

/-! ## History -/

/-- `tg_history_list_chats`: the summaries of all chats. -/
def tgHistoryListChats : ToolM CallToolResult := do
  .lift (parseArgs noFields args)
  let chats ← read listChats
  okJson (.arr (chats.map ChatSummary.toJson))

/-- `tg_history_get_chat`: a chat that is not there is null, not an error. -/
def tgHistoryGetChat : ToolM CallToolResult := do
  let input ← .lift (parseArgs GetChatInput.fields args)
  let chatId ← .lift (resolveChat s.aliases input.chat)
  let c ← read (getChat chatId)
  okJson (.ofOption ChatInfo.toJson c)

/-- `i64::clamp`, which puts a number into a range. -/
def clamp (n lo hi : I64) : I64 := if n < lo then lo else if hi < n then hi else n

/-- `tg_history_messages`: the limit is put into the range from 1 to 500. -/
def tgHistoryMessages : ToolM CallToolResult := do
  let input ← .lift (parseArgs HistoryMessagesInput.fields args)
  let chatId ← .lift (resolveChat s.aliases input.chat)
  let limit := clamp input.limit (i64 1) (i64 500)
  let msgs ← read (messages chatId input.beforeMessageId input.afterMessageId limit)
  okJson (.arr (msgs.map StoredMessage.toJson))

/-- `tg_history_search`: in all chats, or in the one that is given. -/
def tgHistorySearch [Fts5] : ToolM CallToolResult := do
  let input ← .lift (parseArgs HistorySearchInput.fields args)
  let chatId ← .lift (input.chat.elim (.ok none) fun r => (resolveChat s.aliases r).map some)
  let hits ← read (search input.query chatId input.since input.until)
  let hits ← .lift (hits.mapError historyErrToMcp)
  okJson (.arr (hits.map SearchHit.toJson))

/-- `tg_history_get_message`: a message that is not there is an error with its ids. -/
def tgHistoryGetMessage : ToolM CallToolResult := do
  let input ← .lift (parseArgs GetMessageInput.fields args)
  let chatId ← .lift (resolveChat s.aliases input.chat)
  let m ← read (getMessage chatId input.messageId)
  let m ← .lift (m.mapError historyErrToMcp)
  okJson m.toJson

/-- `tg_history_mark_read`: the baseline is put for any chat, known or not. -/
def tgHistoryMarkRead : ToolM CallToolResult := do
  let input ← .lift (parseArgs MarkReadInput.fields args)
  let chatId ← .lift (resolveChat s.aliases input.chat)
  write (.markRead chatId input.upToMessageId)
  okJson (.obj [("chat_id", .ofI64 chatId), ("baseline", .ofI64 input.upToMessageId)])

/-- `tg_history_download`: the guard looks at the destination before the message is looked for. -/
def tgHistoryDownload : ToolM CallToolResult := do
  let input ← .lift (parseArgs DownloadInput.fields args)
  let chatId ← .lift (resolveChat s.aliases input.chat)
  let dest ← .lift (resolveFilePath input.destPath s.fileRoot)
  let m ← read (getMessage chatId input.messageId)
  let m ← .lift (m.mapError historyErrToMcp)
  let fileId ← .lift (m.mediaFileId.elim (.error (.invalidParams
    s!"message {chatId.toText}/{input.messageId.toText} has no media")) .ok)
  let bytes ← api (.downloadFile fileId dest)
  -- the result also spells out `dest`, whose text is not modelled
  okJson (.obj [("bytes", .int bytes)])

end

/-- The dispatcher of `call_tool`, by the name of the tool; an unknown one is an error. -/
def callTool [Fts5] (s : State) (request : CallToolRequest) : ToolM CallToolResult :=
  match request.name with
  | "tg_bot_whoami" => tgBotWhoami request.arguments
  | "tg_bot_list_aliases" => tgBotListAliases s request.arguments
  | "tg_send_message" => tgSendMessage s request.arguments
  | "tg_send_photo" => tgSendPhoto s request.arguments
  | "tg_send_document" => tgSendDocument s request.arguments
  | "tg_edit_message" => tgEditMessage s request.arguments
  | "tg_delete_message" => tgDeleteMessage s request.arguments
  | "tg_forward_message" => tgForwardMessage s request.arguments
  | "tg_send_chat_action" => tgSendChatAction s request.arguments
  | "tg_history_list_chats" => tgHistoryListChats request.arguments
  | "tg_history_get_chat" => tgHistoryGetChat s request.arguments
  | "tg_history_messages" => tgHistoryMessages s request.arguments
  | "tg_history_search" => tgHistorySearch s request.arguments
  | "tg_history_get_message" => tgHistoryGetMessage s request.arguments
  | "tg_history_mark_read" => tgHistoryMarkRead s request.arguments
  | "tg_history_download" => tgHistoryDownload s request.arguments
  | other => .fail (.invalidParams ("unknown tool: " ++ other))

end TelegramMcp.Server
