import TelegramMcp.Server.Tools

/-!
# What an error of a send tool means

`SendFailed` lists how a tool that sends or edits can fail, with everything it did until then. In
three of its cases Telegram has not performed the request, or its answer was lost; in the other two
the message is out and a write of the history failed, which the tool reports as its own error
(`send_error`).
-/

namespace TelegramMcp.Server

open Rust Txn History Proc

/-- The five tools that send or edit a message, which are the ones that mirror it. -/
def sendTools : List String :=
  ["tg_send_message", "tg_send_photo", "tg_send_document", "tg_edit_message", "tg_forward_message"]

/-- A call of the Bot API that Telegram performed, whether its answer arrived or not. -/
def Accepted : Performed Action → Prop
  | ⟨.api _, r⟩ => r.Accepted
  | _ => False

/-- A call of the Bot API that Telegram performed and whose answer was lost with this error. -/
def Lost (e : TgClientError) : Performed Action → Prop
  | ⟨.api _, .acceptedLost e'⟩ => e = e'
  | _ => False

/-- A write of the store that failed with this error. -/
def WriteFailed (e : HistoryError) : Performed Action → Prop
  | ⟨.write _, .error e'⟩ => e = e'
  | _ => False

/-- The error of a send tool and what it did until then: nothing, a request that failed, or an
accepted request with one of the two writes after it that failed. -/
inductive SendFailed : McpError → List (Performed Action) → Prop
  | rejected (e : McpError) : SendFailed e []
  | refused (c : SendCall) (e : TgClientError) :
    SendFailed (clientErrToMcp e) [⟨.api (.send c), .refused e⟩]
  | lost (c : SendCall) (e : TgClientError) :
    SendFailed (clientErrToMcp e) [⟨.api (.send c), .acceptedLost e⟩]
  | untouched (c : SendCall) (sent : SentMessage) (e : HistoryError) :
    SendFailed (historyErrToMcp e) [⟨.api (.send c), .accepted sent⟩,
      ⟨.write (.touchChatLastSeen sent.chatId sent.date), .error e⟩]
  | unstored (c : SendCall) (sent : SentMessage) (row : StoredMessage) (e : HistoryError) :
    SendFailed (historyErrToMcp e) [⟨.api (.send c), .accepted sent⟩,
      ⟨.write (.touchChatLastSeen sent.chatId sent.date), .ok ()⟩,
      ⟨.write (.insertMessage row), .error e⟩]

/-- The tail of the send tools fails in one of the listed ways. -/
theorem deliver_safe (call : SendCall) (text mediaKind : Option String) (replyTo : Option I64) :
    Safe (.log Action) (deliver call text mediaKind replyTo) (fun _ _ => True) SendFailed [] := by
  refine Safe.log_perform fun outcome => ?_
  cases outcome with
  | acceptedLost e => exact Safe.log_fail (.lost call e)
  | refused e => exact Safe.log_fail (.refused call e)
  | accepted sent =>
    refine Safe.log_perform fun touched => ?_
    cases touched with
    | error e => exact Safe.log_fail (.untouched call sent e)
    | ok _ =>
      refine Safe.log_perform fun stored => ?_
      cases stored with
      | error e => exact Safe.log_fail (.unstored call sent _ e)
      | ok _ => exact fun _ _ => trivial

/-- A check before anything is done: it fails with nothing done. -/
theorem check_safe {α β : Type} {r : Except McpError α} {f : α → ToolM β}
    (hf : ∀ a, Safe (.log Action) (f a) (fun _ _ => True) SendFailed []) :
    Safe (.log Action) (Proc.lift r >>= f) (fun _ _ => True) SendFailed [] := by
  cases r with
  | ok a => exact hf a
  | error e => exact Safe.log_fail (.rejected e)

/-- Every send tool fails in one of the listed ways, by one case for each tool. -/
theorem callTool_safe [Fts5] (s : State) {request : CallToolRequest}
    (h : request.name ∈ sendTools) :
    Safe (.log Action) (callTool s request) (fun _ _ => True) SendFailed [] := by
  obtain ⟨name, args⟩ := request
  simp only [sendTools, List.mem_cons, List.not_mem_nil, or_false] at h
  rcases h with rfl | rfl | rfl | rfl | rfl
  · refine check_safe fun input => check_safe fun chatId => check_safe fun _ =>
      check_safe fun pm => ?_
    exact deliver_safe _ _ _ _
  · refine check_safe fun input => check_safe fun chatId => check_safe fun _ =>
      check_safe fun path => check_safe fun pm => ?_
    exact deliver_safe _ _ _ _
  · refine check_safe fun input => check_safe fun chatId => check_safe fun _ =>
      check_safe fun path => ?_
    exact deliver_safe _ _ _ _
  · refine check_safe fun input => check_safe fun chatId => check_safe fun _ =>
      check_safe fun pm => ?_
    exact deliver_safe _ _ _ _
  · refine check_safe fun input => check_safe fun fromChat => check_safe fun toChat =>
      check_safe fun _ => ?_
    exact deliver_safe _ _ _ _

/-- What the error of a send tool tells: Telegram has not performed the request, or its answer was
lost and the error is the client's, or a write of the history failed and the error is the
store's. -/
def Explained (e : McpError) (tr : List (Performed Action)) : Prop :=
  (∀ a ∈ tr, ¬ Accepted a) ∨ (∃ a ∈ tr, ∃ e', Lost e' a ∧ e = clientErrToMcp e') ∨
    ∃ a ∈ tr, ∃ e', WriteFailed e' a ∧ e = historyErrToMcp e'

/-- A failed send has one of these explanations: nothing was accepted, the answer was lost, or the
message was accepted and a write after it failed. -/
theorem SendFailed.explained {e : McpError} {tr : List (Performed Action)} (h : SendFailed e tr) :
    Explained e tr := by
  cases h with
  | rejected => exact .inl fun a ha => nomatch ha
  | refused c e =>
    left
    intro a ha
    rw [List.mem_singleton.1 ha]
    exact id
  | lost c e => exact .inr (.inl ⟨_, List.mem_cons_self, e, rfl, rfl⟩)
  | untouched c sent e =>
    exact .inr (.inr ⟨_, List.mem_cons_of_mem _ List.mem_cons_self, e, rfl, rfl⟩)
  | unstored c sent row e =>
    have hmem : ∀ x y z : Performed Action, z ∈ [x, y, z] := fun x y z => by simp
    exact .inr (.inr ⟨_, hmem _ _ _, e, rfl, rfl⟩)

/-- Every error of a tool that sends or edits is one of those, whatever the state, the arguments and
the outcomes of its calls: so an error does not say by itself that nothing was sent. -/
theorem send_error [Fts5] (s : State) (request : CallToolRequest) (tr : List (Performed Action))
    (e : McpError) (h : request.name ∈ sendTools) (hex : Exec (callTool s request) tr (.error e)) :
    Explained e tr :=
  ((callTool_safe s h).of_exec hex : SendFailed e tr).explained

/-! ## A text to the chat 42, as the examples send it -/

/-- The call of the example: a text to the chat 42. -/
def textCall : SendCall := .sendMessage (i64 42) "hi" none none false true

/-- The request that asks for it, with the chat as a number. -/
def textRequest : CallToolRequest where
  name := "tg_send_message"
  arguments := some [("chat", .int 42), ("text", .str "hi")]

/-- The tool delivers it, as nothing in the request is refused. -/
theorem callTool_textRequest [Fts5] :
    callTool unrestricted textRequest = deliver textCall (some "hi") none none := rfl

/-- A text that Telegram refuses: the error is the client's, and nothing was accepted. -/
theorem send_error_refused :
    Explained (clientErrToMcp (.rateLimited 5))
      [⟨.api (.send textCall), .refused (.rateLimited 5)⟩] := by
  let := Fts5.ascii
  refine send_error unrestricted textRequest _ _ (by decide) ?_
  rw [callTool_textRequest]
  exact .perform _ _ (ApiOutcome.refused (.rateLimited 5)) (.fail _)

/-- A text that Telegram delivers, whose row the full disk refuses; and one that it delivers without
the answer arriving. -/
theorem send_error_delivered :
    (¬ ∀ (_ : Fts5) (s : State) (request : CallToolRequest) (tr : List (Performed Action))
      (e : McpError), request.name ∈ sendTools → (∀ e', ∀ a ∈ tr, ¬ Lost e' a) →
      Exec (callTool s request) tr (.error e) → ∀ a ∈ tr, ¬ Accepted a) ∧
    ¬ ∀ (_ : Fts5) (s : State) (request : CallToolRequest) (tr : List (Performed Action))
      (e : McpError), request.name ∈ sendTools → (∀ e', ∀ a ∈ tr, ¬ WriteFailed e' a) →
      Exec (callTool s request) tr (.error e) → ∀ a ∈ tr, ¬ Accepted a := by
  let := Fts5.ascii
  refine ⟨?_, ?_⟩
  · intro h
    let sent : SentMessage := ⟨i64 42, i64 7, i64 100⟩
    let full : HistoryError := .sqlite "database or disk is full"
    have hex : Exec (callTool unrestricted textRequest)
        [⟨.api (.send textCall), .accepted sent⟩,
          ⟨.write (.touchChatLastSeen (i64 42) (i64 100)), .error full⟩]
        (.error (historyErrToMcp full)) := by
      rw [callTool_textRequest]
      exact .perform _ _ (ApiOutcome.accepted sent) (.perform _ _ (Except.error full) (.fail _))
    refine h _ _ _ _ _ (by decide) ?_ hex _ List.mem_cons_self trivial
    intro e' a ha
    rcases List.mem_pair.1 ha with rfl | rfl <;> exact id
  · intro h
    let cut : TgClientError := .http "connection reset"
    have hex : Exec (callTool unrestricted textRequest)
        [⟨.api (.send textCall), .acceptedLost cut⟩] (.error (clientErrToMcp cut)) := by
      rw [callTool_textRequest]
      exact .perform _ _ (ApiOutcome.acceptedLost cut) (.fail _)
    refine h _ _ _ _ _ (by decide) ?_ hex _ List.mem_cons_self trivial
    intro e' a ha
    rw [List.mem_singleton.1 ha]
    exact id

end TelegramMcp.Server
