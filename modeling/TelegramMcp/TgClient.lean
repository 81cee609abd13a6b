import TelegramMcp.Lib.WinPath
import TelegramMcp.Serde.Json

/-!
# The Bot API client

The methods of the outbound client that the tools call, with their arguments and what they return
(`BotCall`), and the client's errors with their texts. How Telegram answers is the environment's:
an `ApiOutcome` says whether it accepted the request and whether the answer came back. The caller
sees only whether it did (`ApiOutcome.seen`). `BotCall.request` is what goes over the wire.
-/

namespace TelegramMcp

open Rust

/-- What the Bot API says of a message it accepted, which is what the tools return and mirror. -/
structure SentMessage where
  chatId : I64
  messageId : I64
  /-- Telegram's timestamp of the message. -/
  date : I64
  deriving DecidableEq

/-- The bot itself, as `getMe` reports it. -/
structure BotIdentity where
  id : I64
  username : Option String
  firstName : String
  deriving DecidableEq

/-- The JSON of the identity, as a tool returns it. -/
def BotIdentity.toJson (b : BotIdentity) : Json :=
  .obj [("id", .ofI64 b.id), ("username", .ofOption .str b.username),
    ("first_name", .str b.firstName)]

/-- The ways in which the Bot API may read the markup of a text. -/
inductive ParseMode
  | markdownV2
  | html
  deriving DecidableEq

/-- The actions the Bot API shows in a chat. -/
inductive ChatAction
  | typing
  | uploadPhoto
  | recordVideo
  | uploadVideo
  | recordVoice
  | uploadVoice
  | uploadDocument
  | findLocation
  | recordVideoNote
  | uploadVideoNote
  deriving DecidableEq

/-- A call of a client method that sends, edits or forwards a message. These are the calls after
which there is a message in a chat that the caller wrote. -/
inductive SendCall
  | sendMessage (chatId : I64) (text : String) (parseMode : Option ParseMode)
    (replyTo : Option I64) (silent linkPreviewEnabled : Bool)
  | sendPhotoPath (chatId : I64) (path : WinPath.Path) (caption : Option String)
    (parseMode : Option ParseMode)
  | sendDocumentPath (chatId : I64) (path : WinPath.Path) (caption filename : Option String)
  | editMessageText (chatId messageId : I64) (text : String) (parseMode : Option ParseMode)
  | forwardMessage (fromChat messageId toChat : I64)

/-- A call of a method of the client, with the arguments a tool gives it, and before the client
turns any of them into types of the Bot API. -/
inductive BotCall
  | send (c : SendCall)
  | getMe
  | deleteMessage (chatId messageId : I64)
  | sendChatAction (chatId : I64) (action : ChatAction)
  | downloadFile (fileId : String) (dest : WinPath.Path)

/-- What the method returns; a download returns the number of bytes. -/
abbrev BotCall.Result : BotCall → Type
  | send _ => SentMessage
  | getMe => BotIdentity
  | deleteMessage _ _ | sendChatAction _ _ => Unit
  | downloadFile _ _ => Nat

/-! ## Requests -/

/-- A request of the Bot API, whose message ids are a `MessageId`, which is an `i32`. -/
inductive BotRequest
  | sendMessage (chatId : I64) (text : String) (parseMode : Option ParseMode)
    (replyTo : Option I32) (disableNotification linkPreviewDisabled : Bool)
  | sendPhoto (chatId : I64) (photo : WinPath.Path) (caption : Option String)
    (parseMode : Option ParseMode)
  | sendDocument (chatId : I64) (document : WinPath.Path) (filename caption : Option String)
  | editMessageText (chatId : I64) (messageId : I32) (text : String)
    (parseMode : Option ParseMode)
  | forwardMessage (chatId fromChatId : I64) (messageId : I32)
  | getMe
  | deleteMessage (chatId : I64) (messageId : I32)
  | sendChatAction (chatId : I64) (action : ChatAction)
  | getFile (fileId : String)

namespace BotRequest

/-- The chat in which a request leaves something, which is the one the send allow-list is asked
about. -/
def writesTo : BotRequest → Option I64
  | sendMessage chatId _ _ _ _ _ | sendPhoto chatId _ _ _ | sendDocument chatId _ _ _
  | editMessageText chatId _ _ _ | forwardMessage chatId _ _ | deleteMessage chatId _
  | sendChatAction chatId _ => some chatId
  | getMe | getFile _ => none

/-- The message a request is about: the one replied to, edited, forwarded or deleted. -/
def messageId : BotRequest → Option I32
  | sendMessage _ _ _ replyTo _ _ => replyTo
  | editMessageText _ messageId _ _ | forwardMessage _ _ messageId
  | deleteMessage _ messageId => some messageId
  | sendPhoto _ _ _ _ | sendDocument _ _ _ _ | getMe | sendChatAction _ _ | getFile _ => none

end BotRequest

/-- The cast `message_id as i32`, which keeps the low 32 bits. -/
def asI32 (n : I64) : I32 := .wrapping n.val

/-- The request a client method makes, a download the first of its two. -/
def BotCall.request : BotCall → BotRequest
  | .send (.sendMessage chatId text parseMode replyTo silent linkPreviewEnabled) =>
    .sendMessage chatId text parseMode (replyTo.map asI32) silent (!linkPreviewEnabled)
  | .send (.sendPhotoPath chatId path caption parseMode) =>
    .sendPhoto chatId path caption parseMode
  | .send (.sendDocumentPath chatId path caption filename) =>
    .sendDocument chatId path filename caption
  | .send (.editMessageText chatId messageId text parseMode) =>
    .editMessageText chatId (asI32 messageId) text parseMode
  | .send (.forwardMessage fromChat messageId toChat) =>
    .forwardMessage toChat fromChat (asI32 messageId)
  | .getMe => .getMe
  | .deleteMessage chatId messageId => .deleteMessage chatId (asI32 messageId)
  | .sendChatAction chatId action => .sendChatAction chatId action
  | .downloadFile fileId _ => .getFile fileId

/-- The errors of the client. The sources are the texts of the libraries underneath. -/
inductive TgClientError
  | http (source : String)
  | api (code : I32) (description : String)
  | rateLimited (retryAfterSecs : Nat)
  | unknownAlias (name : String)
  | invalidChat (chat : String)
  | invalidUrl (source : String)
  | teloxide (source : String)
  | download (what : String)
  deriving DecidableEq

/-- The text of an error, as its `thiserror` attributes format it. -/
def TgClientError.display : TgClientError → String
  | http source => "HTTP error: " ++ source
  | api code description => "Telegram API error " ++ code.toText ++ ": " ++ description
  | rateLimited secs => "rate limited; retry after " ++ toString secs ++ "s"
  | unknownAlias name => "unknown alias: " ++ name
  | invalidChat chat => "invalid chat reference: " ++ chat
  | invalidUrl source => "invalid api base URL: " ++ source
  | teloxide source => "teloxide error: " ++ source
  | download what => "file download error: " ++ what

/-- What became of a call: Telegram performed it and answered, or performed it and the answer was
lost, or did not perform it. -/
inductive ApiOutcome (α : Type)
  | accepted (a : α)
  | acceptedLost (e : TgClientError)
  | refused (e : TgClientError)

namespace ApiOutcome

variable {α : Type}

/-- What the client method returns to the server: a lost answer is an error like a refusal. -/
def seen : ApiOutcome α → Except TgClientError α
  | accepted a => .ok a
  | acceptedLost e => .error e
  | refused e => .error e

/-- Telegram performed the request, whether its answer arrived or not. -/
def Accepted : ApiOutcome α → Prop
  | refused _ => False
  | _ => True

end ApiOutcome

end TelegramMcp
