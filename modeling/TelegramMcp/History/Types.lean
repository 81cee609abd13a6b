import TelegramMcp.Serde.Json

/-!
# Value types of the message history

The records the store keeps, their JSON form (`toJson`, the derived `Serialize`) and the errors the
store returns. A direction and a chat kind are columns of text in the database and enumerations
here: `fromSql` reads back what `asSql` writes.
-/

namespace TelegramMcp

open Rust

/-- Whether a message was received from the peer or sent by the local account. -/
inductive Direction
  | inbound
  | outbound
  deriving DecidableEq, Repr

namespace Direction

/-- The text that the column `direction` has for it. -/
def asSql : Direction → String
  | inbound => "in"
  | outbound => "out"

/-- The direction that a column's text stands for; any other text is a corrupted row. -/
def fromSql : String → Option Direction
  | "in" => some inbound
  | "out" => some outbound
  | _ => none

/-- What was written for a direction is read back as it. -/
@[simp] theorem fromSql_asSql (d : Direction) : fromSql d.asSql = some d := by cases d <;> rfl

/-- The lower-case name of the variant, which is the text stored too. -/
def toJson (d : Direction) : Json := .str d.asSql

end Direction

/-- The kinds of chats of the Bot API, as the store keeps them. -/
inductive ChatKind
  | «private»
  | group
  | supergroup
  | channel
  deriving DecidableEq, Repr

namespace ChatKind

/-- The text in the column `kind`. -/
def asSql : ChatKind → String
  | «private» => "private"
  | group => "group"
  | supergroup => "supergroup"
  | channel => "channel"

/-- The kind that a column's text stands for; any other text is a corrupted row. -/
def fromSql : String → Option ChatKind
  | "private" => some «private»
  | "group" => some group
  | "supergroup" => some supergroup
  | "channel" => some channel
  | _ => none

/-- What was written for a kind is read back as it. -/
@[simp] theorem fromSql_asSql (k : ChatKind) : fromSql k.asSql = some k := by cases k <;> rfl

end ChatKind

/-- `ChatInfo`, a row of `chats`: what is known of a chat, and when it was first and last seen. -/
structure ChatInfo where
  chatId : I64
  kind : ChatKind
  title : Option String
  username : Option String
  /-- When this store first saw the chat. -/
  firstSeen : I64
  /-- When this store most recently saw the chat. -/
  lastSeen : I64
  deriving DecidableEq

namespace ChatInfo

/-- The fields of a chat in JSON, which a summary has beside its own. -/
def entries (c : ChatInfo) : List (String × Json) :=
  [("chat_id", .ofI64 c.chatId), ("kind", .str c.kind.asSql),
    ("title", .ofOption .str c.title), ("username", .ofOption .str c.username),
    ("first_seen", .ofI64 c.firstSeen), ("last_seen", .ofI64 c.lastSeen)]

/-- The JSON of a chat, as a tool returns it. -/
def toJson (c : ChatInfo) : Json := .obj c.entries

end ChatInfo

/-- `ChatSummary`: a chat as `list_chats` reports it, with the number of inbound messages above its
read mark, and the id of its last message if it has one. -/
structure ChatSummary where
  info : ChatInfo
  unreadCount : Nat
  lastMessageId : Option I64
  deriving DecidableEq

/-- The fields of the chat are flattened into those of the summary. -/
def ChatSummary.toJson (s : ChatSummary) : Json :=
  .obj (s.info.entries ++ [("unread_count", .int s.unreadCount),
    ("last_message_id", .ofOption .ofI64 s.lastMessageId)])

/-- `StoredMessage`, a row of `messages`. Its key is the chat with the id of the message in it, and
the upstream payload is kept beside the columns that are made of it. -/
structure StoredMessage where
  chatId : I64
  messageId : I64
  date : I64
  fromId : Option I64
  fromName : Option String
  replyTo : Option I64
  text : Option String
  mediaKind : Option String
  mediaFileId : Option String
  mediaMeta : Option Json
  direction : Direction
  /-- The upstream payload. -/
  raw : Json

/-- The primary key of `messages`: ids are unique in a chat only. -/
abbrev StoredMessage.key (m : StoredMessage) : I64 × I64 := (m.chatId, m.messageId)

/-- The JSON of a message, with every column of its row. -/
def StoredMessage.toJson (m : StoredMessage) : Json :=
  .obj [("chat_id", .ofI64 m.chatId), ("message_id", .ofI64 m.messageId), ("date", .ofI64 m.date),
    ("from_id", .ofOption .ofI64 m.fromId), ("from_name", .ofOption .str m.fromName),
    ("reply_to", .ofOption .ofI64 m.replyTo), ("text", .ofOption .str m.text),
    ("media_kind", .ofOption .str m.mediaKind), ("media_file_id", .ofOption .str m.mediaFileId),
    ("media_meta", .ofOption id m.mediaMeta), ("direction", m.direction.toJson), ("raw", m.raw)]

/-- A message of text only, as the examples use it. -/
def StoredMessage.ofText (chatId messageId date : I64) (text : String) (direction : Direction) :
    StoredMessage where
  chatId; messageId; date; direction
  fromId := none
  fromName := none
  replyTo := none
  text := some text
  mediaKind := none
  mediaFileId := none
  mediaMeta := none
  raw := .null

/-- `SearchHit`: a hit of a full-text search, with a snippet of the text around it. -/
structure SearchHit where
  chatId : I64
  messageId : I64
  date : I64
  snippet : String
  deriving DecidableEq

/-- The JSON of a hit. -/
def SearchHit.toJson (h : SearchHit) : Json :=
  .obj [("chat_id", .ofI64 h.chatId), ("message_id", .ofI64 h.messageId), ("date", .ofI64 h.date),
    ("snippet", .str h.snippet)]

/-- The errors of the store. Where they wrap an error of a library, its text stands for it, since
nothing but the text is ever looked at. -/
inductive HistoryError
  | sqlite (source : String)
  | migration («from» «to» : Nat) (source : String)
  | notFound (chatId messageId : I64)
  | corruption (what : String)
  | json (source : String)
  | join (source : String)
  deriving DecidableEq

/-- The text of an error, as its `thiserror` attributes format it. -/
def HistoryError.display : HistoryError → String
  | sqlite source => "sqlite error: " ++ source
  | migration v w source => s!"schema migration from v{v} to v{w} failed: " ++ source
  | notFound chatId messageId => s!"message {chatId.toText}/{messageId.toText} not found"
  | corruption what => "stored data corruption: " ++ what
  | json source => "json error: " ++ source
  | join source => "blocking task join error: " ++ source

end TelegramMcp
