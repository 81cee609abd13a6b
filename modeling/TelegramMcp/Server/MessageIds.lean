import TelegramMcp.Server.Process

/-!
# The message a tool acts on

The tools take a message id as an `i64` and the client casts it to the `i32` of teloxide, which
wraps. So a call acts on the message it was given unless it passes its checks with an id out of the
range of `i32` (`actsOnGiven_iff`).
-/

namespace TelegramMcp.Server

open Rust Txn History Proc

/-- Every request a tool call makes of the Bot API is about the message that its arguments name, as
an integer; without one, about none. -/
def ActsOnGiven [Fts5] (s : State) (r : CallToolRequest) : Prop :=
  ∀ tr res, Exec (callTool s r) tr res → ∀ c b, ⟨.api c, b⟩ ∈ tr →
    c.request.messageId.map Subtype.val = (messageArg r).map Subtype.val

/-- The checks of the four tools that take a message id. -/
def preflight (s : State) (r : CallToolRequest) : Except McpError Unit :=
  match r.name with
  | "tg_send_message" => do
    let input ← parseArgs SendMessageInput.fields r.arguments
    let chatId ← resolveChat s.aliases input.chat
    checkSendAllowed s chatId
    let _ ← decodeParseMode input.parseMode
    return
  | "tg_edit_message" => do
    let input ← parseArgs EditMessageInput.fields r.arguments
    let chatId ← resolveChat s.aliases input.chat
    checkSendAllowed s chatId
    let _ ← decodeParseMode input.parseMode
    return
  | "tg_forward_message" => do
    let input ← parseArgs ForwardMessageInput.fields r.arguments
    let _ ← resolveChat s.aliases input.fromChat
    let toChat ← resolveChat s.aliases input.toChat
    checkSendAllowed s toChat
    return
  | "tg_delete_message" => do
    let input ← parseArgs DeleteMessageInput.fields r.arguments
    let chatId ← resolveChat s.aliases input.chat
    checkSendAllowed s chatId
    return
  | _ => return

section
variable [Fts5] {s : State} {r : CallToolRequest}

/-- A call that fails one of its checks does nothing but return the error. -/
theorem callTool_of_error {e : McpError} (h : preflight s r = .error e) :
    callTool s r = .fail e := by
  obtain ⟨name, args⟩ := r
  unfold preflight at h
  dsimp only at h
  split at h
  · exact lift_bind_of_error h fun _ h => lift_bind_of_error h fun _ h =>
      lift_bind_of_error h fun _ h => lift_bind_of_error h fun _ h => nomatch h
  · exact lift_bind_of_error h fun _ h => lift_bind_of_error h fun _ h =>
      lift_bind_of_error h fun _ h => lift_bind_of_error h fun _ h => nomatch h
  · exact lift_bind_of_error h fun _ h => lift_bind_of_error h fun _ h =>
      lift_bind_of_error h fun _ h => lift_bind_of_error h fun _ h => nomatch h
  · exact lift_bind_of_error h fun _ h => lift_bind_of_error h fun _ h =>
      lift_bind_of_error h fun _ h => nomatch h
  · cases h

/-- A tool that starts with a call of the Bot API. -/
def Requests (t : Task) : Prop := ∃ (c : BotCall) (k : c.Result → Task), t = api c >>= k

/-- A call with a message id that passes the checks makes its request. -/
theorem callTool_of_ok {id : I64} (h : preflight s r = .ok ()) (harg : messageArg r = some id) :
    Requests (callTool s r) := by
  obtain ⟨name, args⟩ := r
  unfold preflight at h
  dsimp only at h
  split at h
  · exact lift_bind_of_ok (P := Requests) h fun _ h => lift_bind_of_ok h fun _ h =>
      lift_bind_of_ok h fun _ h => lift_bind_of_ok h fun _ _ => ⟨_, _, rfl⟩
  · exact lift_bind_of_ok (P := Requests) h fun _ h => lift_bind_of_ok h fun _ h =>
      lift_bind_of_ok h fun _ h => lift_bind_of_ok h fun _ _ => ⟨_, _, rfl⟩
  · exact lift_bind_of_ok (P := Requests) h fun _ h => lift_bind_of_ok h fun _ h =>
      lift_bind_of_ok h fun _ h => lift_bind_of_ok h fun _ _ => ⟨_, _, rfl⟩
  · exact lift_bind_of_ok (P := Requests) h fun _ h => lift_bind_of_ok h fun _ h =>
      lift_bind_of_ok h fun _ _ => ⟨_, _, rfl⟩
  · next hsend hedit hforward hdelete =>
    unfold messageArg at harg
    dsimp only at harg
    split at harg
    · exact (hsend rfl).elim
    · exact (hedit rfl).elim
    · exact (hdelete rfl).elim
    · exact (hforward rfl).elim
    · cases harg

/-- The requests a call makes are those its checks and arguments allow. -/
theorem requested_of_exec {tr : List (Performed Action)} {res : Except McpError CallToolResult}
    (hex : Exec (callTool s r) tr res) {c : BotCall} {b : ApiOutcome c.Result}
    (hmem : ⟨.api c, b⟩ ∈ tr) : Requested s r c := by
  have hkeeps : Keeps (.only (Calls (Requested s r))) (callTool s r) () :=
    callTool_calls s r fun _ hc => hc
  exact Safe.only_of_exec hkeeps hex _ hmem

end

/-- The cast to the `i32` of the Bot API keeps the ids in its range, and no others. -/
theorem asI32_val_eq_iff (n : I64) : (asI32 n).val = n.val ↔ -2 ^ 31 ≤ n.val ∧ n.val < 2 ^ 31 := by
  have h := IntN.wrapping_val_eq_iff (w := 32) (n := n.val) (by decide)
  norm_num at h ⊢
  exact h

/-- A call acts on the message it was given exactly when it fails a check, or its message id, if it
has one, is in the range of `i32`: the client casts the id before the request. -/
theorem actsOnGiven_iff [Fts5] (s : State) (r : CallToolRequest) :
    ActsOnGiven s r ↔ (∃ e, preflight s r = .error e) ∨
      ∀ id, messageArg r = some id → -2 ^ 31 ≤ id.val ∧ id.val < 2 ^ 31 := by
  refine ⟨?_, ?_⟩
  · intro h
    cases hpre : preflight s r with
    | error e => exact .inl ⟨e, rfl⟩
    | ok u =>
      refine .inr fun id harg => ?_
      obtain ⟨c, k, hcall⟩ := callTool_of_ok hpre harg
      have hex : Exec (callTool s r) [⟨.api c, .refused (.http "offline")⟩]
          (.error (clientErrToMcp (.http "offline"))) := by
        rw [hcall]
        exact .perform _ _ _ (.fail _)
      have hmem := List.mem_singleton_self (a := (⟨.api c, .refused (.http "offline")⟩ :
        Performed Action))
      have hgiven := h _ _ hex c _ hmem
      rw [(requested_of_exec hex hmem).messageId, harg, Option.map_some, Option.map_some,
        Option.map_some, Option.some.injEq, asI32_val_eq_iff] at hgiven
      exact hgiven
  · rintro (⟨e, hpre⟩ | hrange) tr res hex c b hmem
    · rw [callTool_of_error hpre] at hex
      cases hex
      cases hmem
    · rw [(requested_of_exec hex hmem).messageId]
      cases harg : messageArg r with
      | none => rw [Option.map_none, Option.map_none, Option.map_none]
      | some id =>
        rw [Option.map_some, Option.map_some, Option.map_some,
          (asI32_val_eq_iff id).2 (hrange id harg)]

/-- A request to delete the message whose id is `2 ^ 32` above 5. -/
def wrappedDelete : CallToolRequest where
  name := "tg_delete_message"
  arguments := some [("chat", .int 42), ("message_id", .int 4294967301)]

/-- The request that reaches the Bot API is to delete the message 5. -/
theorem request_wrappedDelete :
    (BotCall.deleteMessage (i64 42) (i64 4294967301)).request =
      .deleteMessage (i64 42) (.wrapping 5) := by
  have hid : asI32 (i64 4294967301) = .wrapping 5 := by decide
  rw [BotCall.request, hid]

/-- Asked to delete a message whose id is `2 ^ 32` above 5, the server deletes the message 5. -/
theorem actsOnGiven_wrapped :
    ¬ ∀ (_ : Fts5) (s : State) (r : CallToolRequest), ActsOnGiven s r := by
  intro h
  let := Fts5.ascii
  have hcall : callTool unrestricted wrappedDelete =
      api (.deleteMessage (i64 42) (i64 4294967301)) >>= fun _ => okJson (.obj
        [("deleted", .bool true), ("chat_id", .int 42), ("message_id", .int 4294967301)]) := rfl
  have hex : Exec (callTool unrestricted wrappedDelete)
      [⟨.api (.deleteMessage (i64 42) (i64 4294967301)), .accepted ()⟩]
      (.ok ⟨[.obj [("deleted", .bool true), ("chat_id", .int 42),
        ("message_id", .int 4294967301)]]⟩) := by
    rw [hcall]
    exact .perform _ _ (ApiOutcome.accepted ()) (.ok _)
  have harg : messageArg wrappedDelete = some (i64 4294967301) := rfl
  have hgiven := h _ unrestricted wrappedDelete _ _ hex _ _ (List.mem_singleton_self _)
  rw [request_wrappedDelete, harg] at hgiven
  exact absurd hgiven (by decide)

end TelegramMcp.Server
