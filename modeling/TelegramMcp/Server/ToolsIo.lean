import TelegramMcp.TgClient
import TelegramMcp.Aliases

/-!
# Inputs and outputs of the tools

The argument types of the tools with their fields, decoders and defaults.
-/

namespace TelegramMcp.Server

open Rust Decode Fields

/-- `SendMessageInput`, the arguments of `tg_send_message`: a chat and a text, which the Bot API
caps at 4096 characters, and four fields that change how the message is sent. -/
structure SendMessageInput where
  chat : ChatRef
  text : String
  parseMode : Option String
  replyTo : Option I64
  silent : Option Bool
  linkPreview : Option Bool

/-- Its fields as serde reads them: the chat and the text must be there. -/
def SendMessageInput.fields : Fields SendMessageInput :=
  SendMessageInput.mk <$> required "chat" ChatRef.decode <*> required "text" string <*>
    optional "parse_mode" string <*> optional "reply_to" i64 <*> optional "silent" bool <*>
    optional "link_preview" bool

/-- `SendPhotoInput`, the arguments of `tg_send_photo`: a chat, the path of the image on the
server's machine, and a caption with its own parse mode. -/
structure SendPhotoInput where
  chat : ChatRef
  path : String
  caption : Option String
  parseMode : Option String

/-- Its fields as serde reads them: the chat and the path must be there. -/
def SendPhotoInput.fields : Fields SendPhotoInput :=
  SendPhotoInput.mk <$> required "chat" ChatRef.decode <*> required "path" pathBuf <*>
    optional "caption" string <*> optional "parse_mode" string

/-- `SendDocumentInput`, the arguments of `tg_send_document`: a chat, the path of the file on the
server's machine, and a caption. The file name is the one that Telegram shows in place of the
path's. -/
structure SendDocumentInput where
  chat : ChatRef
  path : String
  caption : Option String
  filename : Option String

/-- Its fields as serde reads them: a file name may be given beside the path. -/
def SendDocumentInput.fields : Fields SendDocumentInput :=
  SendDocumentInput.mk <$> required "chat" ChatRef.decode <*> required "path" pathBuf <*>
    optional "caption" string <*> optional "filename" string

/-- `EditMessageInput`, the arguments of `tg_edit_message`: the message, by its chat and its id, and
the text that replaces its own. -/
structure EditMessageInput where
  chat : ChatRef
  messageId : I64
  text : String
  parseMode : Option String

/-- Its fields as serde reads them: only the parse mode may be missing. -/
def EditMessageInput.fields : Fields EditMessageInput :=
  EditMessageInput.mk <$> required "chat" ChatRef.decode <*> required "message_id" i64 <*>
    required "text" string <*> optional "parse_mode" string

/-- `DeleteMessageInput`, the arguments of `tg_delete_message`: the message, by its chat and its id
there. -/
structure DeleteMessageInput where
  chat : ChatRef
  messageId : I64

/-- Its fields as serde reads them: the chat and the id must both be there. -/
def DeleteMessageInput.fields : Fields DeleteMessageInput :=
  DeleteMessageInput.mk <$> required "chat" ChatRef.decode <*> required "message_id" i64

/-- `ForwardMessageInput`, the arguments of `tg_forward_message`: the message, by the chat it is in
and its id there, and the chat that gets the copy. -/
structure ForwardMessageInput where
  fromChat : ChatRef
  messageId : I64
  toChat : ChatRef

/-- Its fields as serde reads them: both chats may be names of aliases. -/
def ForwardMessageInput.fields : Fields ForwardMessageInput :=
  ForwardMessageInput.mk <$> required "from_chat" ChatRef.decode <*> required "message_id" i64 <*>
    required "to_chat" ChatRef.decode

/-- `ChatActionInput`, the arguments of `tg_send_chat_action`: the chat that shows the action, and
the action by the name that the Bot API has for it. -/
structure ChatActionInput where
  chat : ChatRef
  action : String

/-- Its fields as serde reads them: the action is any string at first. -/
def ChatActionInput.fields : Fields ChatActionInput :=
  ChatActionInput.mk <$> required "chat" ChatRef.decode <*> required "action" string

/-- `GetChatInput`, the arguments of `tg_history_get_chat`: the chat to look up, and nothing
else. -/
structure GetChatInput where
  chat : ChatRef

/-- Its one field as serde reads it, which must be there. -/
def GetChatInput.fields : Fields GetChatInput :=
  GetChatInput.mk <$> required "chat" ChatRef.decode

/-- `HistoryMessagesInput`, the arguments of `tg_history_messages`: a chat, two cursors that are
both exclusive, and the number of messages at most. -/
structure HistoryMessagesInput where
  chat : ChatRef
  beforeMessageId : Option I64
  afterMessageId : Option I64
  limit : I64

/-- `default_limit`: the limit of a request for messages that gives none. -/
def defaultLimit : I64 := i64 50

/-- How serde reads them; the limit has a default, so that it may be missing but not null. -/
def HistoryMessagesInput.fields : Fields HistoryMessagesInput :=
  HistoryMessagesInput.mk <$> required "chat" ChatRef.decode <*>
    optional "before_message_id" i64 <*> optional "after_message_id" i64 <*>
    withDefault "limit" i64 defaultLimit

/-- `HistorySearchInput`, the arguments of `tg_history_search`: what is searched for, the chat if it
is one only, and the bounds of the dates in Unix seconds, both inclusive. -/
structure HistorySearchInput where
  query : String
  chat : Option ChatRef
  since : Option I64
  «until» : Option I64

/-- Its fields as serde reads them: only the query must be there. -/
def HistorySearchInput.fields : Fields HistorySearchInput :=
  HistorySearchInput.mk <$> required "query" string <*> optional "chat" ChatRef.decode <*>
    optional "since" i64 <*> optional "until" i64

/-- `GetMessageInput`, the arguments of `tg_history_get_message`: the message, by its chat and its
id there. -/
structure GetMessageInput where
  chat : ChatRef
  messageId : I64

/-- Its fields as serde reads them: the chat and the id must both be there. -/
def GetMessageInput.fields : Fields GetMessageInput :=
  GetMessageInput.mk <$> required "chat" ChatRef.decode <*> required "message_id" i64

/-- `MarkReadInput`, the arguments of `tg_history_mark_read`: the chat, and the id up to which its
messages count as read. -/
structure MarkReadInput where
  chat : ChatRef
  upToMessageId : I64

/-- Its fields as serde reads them: the chat and the id must both be there. -/
def MarkReadInput.fields : Fields MarkReadInput :=
  MarkReadInput.mk <$> required "chat" ChatRef.decode <*> required "up_to_message_id" i64

/-- `DownloadInput`, the arguments of `tg_history_download`: the message with the attachment, by its
chat and its id, and the path that the file is written to. -/
structure DownloadInput where
  chat : ChatRef
  messageId : I64
  destPath : String

/-- Its fields as serde reads them: the destination is a path, which the tool looks at later. -/
def DownloadInput.fields : Fields DownloadInput :=
  DownloadInput.mk <$> required "chat" ChatRef.decode <*> required "message_id" i64 <*>
    required "dest_path" pathBuf

/-- The input of the tools without arguments, which any object decodes to. -/
def noFields : Fields Unit := pure ()

/-- `SendMessageOutput`, the result of the tools that send or edit. -/
def sendMessageOutput (sent : SentMessage) : Json :=
  .obj [("chat_id", .ofI64 sent.chatId), ("message_id", .ofI64 sent.messageId),
    ("date", .ofI64 sent.date)]

end TelegramMcp.Server
