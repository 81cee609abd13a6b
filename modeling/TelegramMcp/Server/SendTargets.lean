import TelegramMcp.Server.Config
import TelegramMcp.Server.Process

/-!
# The allow-list for sending

Seven tools write to a chat, and each checks the chat against `allowed_send_targets` before it does
anything else outside itself. So in every run of a server with a valid configuration and an
allow-list, whatever is requested, each request of the Bot API that writes to a chat names one of
the list (`send_targets_enforced`).
-/

namespace TelegramMcp.Server

open Rust Txn History Proc

/-- The chat a tool is to write to, if the arguments decode and the chats they name resolve. -/
def writeTarget (s : State) (r : CallToolRequest) : Option I64 :=
  match r.name with
  | "tg_send_message" => (do
    let input ← parseArgs SendMessageInput.fields r.arguments
    resolveChat s.aliases input.chat).toOption
  | "tg_send_photo" => (do
    let input ← parseArgs SendPhotoInput.fields r.arguments
    resolveChat s.aliases input.chat).toOption
  | "tg_send_document" => (do
    let input ← parseArgs SendDocumentInput.fields r.arguments
    resolveChat s.aliases input.chat).toOption
  | "tg_edit_message" => (do
    let input ← parseArgs EditMessageInput.fields r.arguments
    resolveChat s.aliases input.chat).toOption
  | "tg_delete_message" => (do
    let input ← parseArgs DeleteMessageInput.fields r.arguments
    resolveChat s.aliases input.chat).toOption
  | "tg_forward_message" => (do
    let input ← parseArgs ForwardMessageInput.fields r.arguments
    let _ ← resolveChat s.aliases input.fromChat
    resolveChat s.aliases input.toChat).toOption
  | "tg_send_chat_action" => (do
    let input ← parseArgs ChatActionInput.fields r.arguments
    resolveChat s.aliases input.chat).toOption
  | _ => none

/-- A result whose value is there is a success with it. -/
theorem toOption_eq_some {ε α : Type} {x : Except ε α} {a : α} (h : x.toOption = some a) :
    x = .ok a := by
  cases x with
  | ok b => exact congrArg Except.ok (Option.some.inj h)
  | error e => cases h

/-- The tools check the chat right after it resolves, so that a refused one gets no further. -/
theorem refused_of_target {α : Type} {s : State} {x : Except McpError I64} {chatId : I64}
    {e : McpError} {k : I64 → Unit → ToolM α} (h : x = .ok chatId)
    (hrefused : checkSendAllowed s chatId = .error e) :
    (Proc.lift x >>= fun c => Proc.lift (checkSendAllowed s c) >>= k c) = .fail e := by
  rw [h, lift_ok, ok_bind, hrefused]
  rfl

/-- A call refused by the check does nothing but return the error. -/
theorem callTool_refused [Fts5] {s : State} {r : CallToolRequest} {chatId : I64} {e : McpError}
    (h : writeTarget s r = some chatId) (hrefused : checkSendAllowed s chatId = .error e) :
    callTool s r = .fail e := by
  obtain ⟨name, args⟩ := r
  unfold writeTarget at h
  dsimp only at h
  split at h
  case h_8 => cases h
  all_goals replace h := toOption_eq_some h
  case h_6 =>
    exact lift_bind_of_ok (P := (· = .fail e)) h fun _ h =>
      lift_bind_of_ok (P := (· = .fail e)) h fun _ h => refused_of_target h hrefused
  all_goals exact lift_bind_of_ok (P := (· = .fail e)) h fun _ h => refused_of_target h hrefused

/-! ## Runs -/

/-- An action that writes to no chat but one that passes the check. -/
def Vetted (s : State) {β : Type} (a : Action β) : Prop :=
  Calls (fun c => ∀ chatId, c.request.writesTo = some chatId → checkSendAllowed s chatId = .ok ()) a

/-- The tools send to no chat that they have not checked. -/
theorem callTool_vetted [Fts5] (s : State) (r : CallToolRequest) :
    Keeps (.only (Vetted s)) (callTool s r) () :=
  callTool_calls s r fun _ hc => hc.allowed

/-- The request of the Bot API that a step makes, if it makes one. -/
def World.issues (w : World) : Input → Option BotCall
  | .advance task _ _ =>
    match w.tasks[task]? with
    | some (.perform (.api c) _) => some c
    | _ => none
  | _ => none

/-- Whatever the tasks in progress still do is vetted. -/
def AllVetted (s : State) (w : World) : Prop := ∀ t ∈ w.tasks, Keeps (.only (Vetted s)) t ()

/-- In every state of every run, no call in progress has left to send what was not vetted. -/
theorem vetted_of_reached [Fts5] {s : State} {P : World → Input → Prop} {w : World}
    (h : (server s).Reached P w) : AllVetted s w := by
  refine h.invariant ?_ ?_
  · rintro w rfl
    exact fun _ ht => nomatch ht
  · intro w i w' htasks _ hs
    exact (World.stepped hs).keeps trivial (callTool_vetted s) (fun _ _ => trivial)
      (fun _ _ _ => trivial) (fun _ _ _ _ _ _ _ => trivial) htasks

/-- So what a step sends was vetted before. -/
theorem World.issues_vetted {s : State} {w : World} {i : Input} {c : BotCall}
    (htasks : AllVetted s w) (h : w.issues i = some c) : Vetted s (.api c) := by
  cases i with
  | advance task flt bot =>
    rw [issues] at h
    split at h
    · next ht =>
      cases h
      exact (htasks _ (List.mem_of_getElem? ht) () trivial).1
    · cases h
  | request r => cases h
  | record update flt => cases h
  | retain cutoff keep flt => cases h
  | kill => cases h

/-- What a server with these targets does in every run: it writes to them only, and a call to
another chat is refused before it does anything. -/
structure SendsOnlyTo [Fts5] (s : State) (targets : List I64) : Prop where
  issued : ∀ w, (server s).Reached (fun _ _ => True) w → ∀ i c, w.issues i = some c →
    ∀ chatId, c.request.writesTo = some chatId → chatId ∈ targets
  refused : ∀ r chatId, writeTarget s r = some chatId → chatId ∉ targets →
    ∀ tr res, Exec (callTool s r) tr res → tr = [] ∧
      res = .error (.invalidParams s!"chat {chatId.toText} is not in allowed_send_targets")

/-- A server with a valid configuration and an allow-list starts, and in every run of requests it
writes only to the chats of the list; a request for any other chat is an error and changes
nothing. -/
theorem send_targets_enforced [Fts5] (missingParent : String → Option String) (cfg : Config)
    (hvalid : cfg.validate missingParent = .ok ()) (hne : cfg.access.allowedSendTargets ≠ []) :
    ∃ s targets, cfg.serverState = .ok s ∧
      cfg.resolveIdList cfg.access.allowedSendTargets = .ok targets ∧ SendsOnlyTo s targets := by
  obtain ⟨targets, htargets, hstate⟩ := Config.serverState_of_validate hvalid hne
  refine ⟨_, targets, hstate, htargets, ?_, ?_⟩
  · intro w hw i c hi chatId hchat
    have hallowed := World.issues_vetted (vetted_of_reached hw) hi chatId hchat
    rw [checkSendAllowed] at hallowed
    split at hallowed
    · next hmem => simpa using hmem
    · cases hallowed
  · intro r chatId htarget hno tr res hex
    have hrefused : checkSendAllowed ⟨cfg.aliases, some targets, cfg.access.fileRoot⟩ chatId =
        .error (.invalidParams s!"chat {chatId.toText} is not in allowed_send_targets") :=
      if_neg (by simpa using hno)
    rw [callTool_refused htarget hrefused] at hex
    cases hex
    exact ⟨rfl, rfl⟩

/-- A configuration of a server that may send to one alias only. -/
def oneTarget : Config where
  bot := ⟨some "token", none⟩
  storagePath := "history.db"
  pollTimeoutSecs := 30
  aliases := ⟨⟨[("ops", i64 42)], by simp⟩⟩
  access := ⟨[], [.name "ops"], none⟩

/-- A server with one chat on its list sends there only. -/
theorem send_targets_enforced_oneTarget :
    ∃ s targets, oneTarget.serverState = .ok s ∧
      oneTarget.resolveIdList oneTarget.access.allowedSendTargets = .ok targets ∧
      @SendsOnlyTo Fts5.ascii s targets :=
  @send_targets_enforced Fts5.ascii (fun _ => none) oneTarget rfl (by decide)

end TelegramMcp.Server
