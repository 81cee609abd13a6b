import TelegramMcp.History.Types

/-!
# From an update to a row

`mapUpdate` reads the message out of a Telegram update and gives the chat and the message to
store, or nothing when the update carries no storable message.
-/

namespace TelegramMcp.Updater

open Rust

/-- The first and last name of a chat or a sender, or nothing when both are empty. -/
def fullName (obj : Json) : Option String :=
  let first := ((obj.get "first_name").bind Json.asStr).getD ""
  let last := ((obj.get "last_name").bind Json.asStr).getD ""
  let trimmed := trim (first ++ " " ++ last).toList
  if trimmed = [] then none else some (String.ofList trimmed)

/-- `max_by_key`: of the elements whose key is largest, the last. -/
def maxByKey {α : Type} (key : α → Int) : List α → Option α
  | [] => none
  | x :: xs => some (xs.foldl (fun best y => if key best ≤ key y then y else best) x)

/-- The media keys of a message in the order they are tried, with the kind stored for each. -/
def mediaKeys : List (String × String) :=
  [("photo", "photo"), ("document", "document"), ("voice", "voice"), ("video", "video"),
    ("animation", "animation"), ("audio", "audio"), ("sticker", "sticker")]

/-- The file id and the metadata of a photo: those of the size with the largest file. -/
def photoMedia (v : Json) : Option String × Option Json :=
  match v.asArray with
  | some sizes =>
    match maxByKey (fun p => ((p.get "file_size").bind Json.asI64).elim 0 Subtype.val) sizes with
    | some p => ((p.get "file_id").bind Json.asStr, some p)
    | none => (none, none)
  | none => (none, none)

/-- The kind, the file id and the metadata of a message's media, by the first key present. -/
def extractMedia (msg : Json) : Option String × Option String × Option Json :=
  match mediaKeys.findSome? fun (key, kind) => (msg.get key).map fun v => (key, kind, v) with
  | some (key, kind, v) =>
    let (fileId, mediaMeta) :=
      if key = "photo" then photoMedia v else ((v.get "file_id").bind Json.asStr, some v)
    (some kind, fileId, mediaMeta)
  | none => (none, none, none)

/-- `map_update`: the chat and the message that an update asks to store, if it is of a kind that has
both. -/
def mapUpdate (update : Json) : Option (ChatInfo × StoredMessage) := do
  let msg ← (update.get "message").or ((update.get "edited_message").or
    ((update.get "channel_post").or (update.get "edited_channel_post")))
  let chat ← msg.get "chat"
  let chatId ← (← chat.get "id").asI64
  -- the type texts accepted are those the store writes
  let kind ← ChatKind.fromSql (← (← chat.get "type").asStr)
  let title := ((chat.get "title").bind Json.asStr).or (fullName chat)
  let username := (chat.get "username").bind Json.asStr
  let messageId ← (← msg.get "message_id").asI64
  let date ← (← msg.get "date").asI64
  let sender := msg.get "from"
  let (mediaKind, mediaFileId, mediaMeta) := extractMedia msg
  some
    ({ chatId, kind, title, username, firstSeen := date, lastSeen := date },
      { chatId, messageId, date
        fromId := (sender.bind (·.get "id")).bind Json.asI64
        fromName := sender.bind fullName
        replyTo := ((msg.get "reply_to_message").bind (·.get "message_id")).bind Json.asI64
        text := ((msg.get "text").or (msg.get "caption")).bind Json.asStr
        mediaKind, mediaFileId, mediaMeta
        direction := .inbound
        raw := update })

/-- The update of a text message in a private chat, as the examples use it. -/
def textUpdate (updateId chatId messageId date : Int) (text : String) : Json :=
  .obj [("update_id", .int updateId), ("message", .obj [("message_id", .int messageId),
    ("date", .int date), ("chat", .obj [("id", .int chatId), ("type", .str "private")]),
    ("text", .str text)])]

/-- The update of an edit of such a message, which has the date of the message. -/
def editUpdate (updateId chatId messageId date : Int) (text : String) : Json :=
  .obj [("update_id", .int updateId), ("edited_message", .obj [("message_id", .int messageId),
    ("date", .int date), ("chat", .obj [("id", .int chatId), ("type", .str "private")]),
    ("text", .str text)])]

/-- What the two rows of an update have to do with each other: they are of the same chat, both dates
are the message's, and the message is inbound. -/
structure Mapped (chat : ChatInfo) (msg : StoredMessage) : Prop where
  chatId : msg.chatId = chat.chatId
  firstSeen : chat.firstSeen = msg.date
  lastSeen : chat.lastSeen = msg.date
  direction : msg.direction = .inbound

/-- The chat is dated by the message, and the message is inbound and of that chat. -/
theorem mapUpdate_mapped {update : Json} {chat : ChatInfo} {msg : StoredMessage}
    (h : mapUpdate update = some (chat, msg)) : Mapped chat msg := by
  simp only [mapUpdate, Option.bind_eq_bind, Option.bind_eq_some_iff, Option.some.injEq,
    Prod.mk.injEq] at h
  obtain ⟨_, -, _, -, _, -, _, -, _, -, _, -, _, -, _, -, _, -, _, -, _, -, rfl, rfl⟩ := h
  exact ⟨rfl, rfl, rfl, rfl⟩

end TelegramMcp.Updater
