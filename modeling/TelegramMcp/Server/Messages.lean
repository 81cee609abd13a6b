import TelegramMcp.Server.Process

/-!
# One message for a request

What a request asks for is said by its name and its arguments (`asked`). A tool that sends, edits or
forwards makes this call of the Bot API first, after checks that perform nothing (`head_callTool`),
and makes no other (`callTool_once`). So the calls made in a run, whatever became of them, are among
those the requests asked for, and none is made twice for one request, however the tool calls are
interleaved and whenever the process is killed (`made_subperm_asked`).
-/

namespace TelegramMcp.Server

open Rust Txn History Proc

/-- The message that an action sends, edits or forwards, if it does. -/
def sends : {β : Type} → Action β → Option SendCall
  | _, .api (.send call) => some call
  | _, _ => none

/-- Whether the allow-list for sending, if there is one, has the chat. -/
def State.maySendTo (s : State) (chatId : I64) : Bool :=
  s.allowedSendTargets.all fun list => list.contains chatId

/-- The message a request asks for: five tools send, edit or forward one, and their arguments say
what and, through the aliases, where to. A request whose arguments do not decode, or which names a
chat the server may not send to, asks for none. -/
def asked (s : State) (r : CallToolRequest) : Option SendCall :=
  match r.name with
  | "tg_send_message" => do
    let input ← (parseArgs SendMessageInput.fields r.arguments).toOption
    let chatId ← (resolveChat s.aliases input.chat).toOption
    guard (s.maySendTo chatId)
    let parseMode ← (decodeParseMode input.parseMode).toOption
    some (.sendMessage chatId input.text parseMode input.replyTo (input.silent.getD false)
      (input.linkPreview.getD true))
  | "tg_send_photo" => do
    let input ← (parseArgs SendPhotoInput.fields r.arguments).toOption
    let chatId ← (resolveChat s.aliases input.chat).toOption
    guard (s.maySendTo chatId)
    let path ← (resolveFilePath input.path s.fileRoot).toOption
    let parseMode ← (decodeParseMode input.parseMode).toOption
    some (.sendPhotoPath chatId path input.caption parseMode)
  | "tg_send_document" => do
    let input ← (parseArgs SendDocumentInput.fields r.arguments).toOption
    let chatId ← (resolveChat s.aliases input.chat).toOption
    guard (s.maySendTo chatId)
    let path ← (resolveFilePath input.path s.fileRoot).toOption
    some (.sendDocumentPath chatId path input.caption input.filename)
  | "tg_edit_message" => do
    let input ← (parseArgs EditMessageInput.fields r.arguments).toOption
    let chatId ← (resolveChat s.aliases input.chat).toOption
    guard (s.maySendTo chatId)
    let parseMode ← (decodeParseMode input.parseMode).toOption
    some (.editMessageText chatId input.messageId input.text parseMode)
  | "tg_forward_message" => do
    let input ← (parseArgs ForwardMessageInput.fields r.arguments).toOption
    let fromChat ← (resolveChat s.aliases input.fromChat).toOption
    let toChat ← (resolveChat s.aliases input.toChat).toOption
    guard (s.maySendTo toChat)
    some (.forwardMessage fromChat input.messageId toChat)
  | _ => none

/-- The message a step sends, edits or forwards, whatever becomes of it. -/
def World.makes (w : World) : Input → Option SendCall
  | .advance task _ _ => w.tasks[task]?.bind (·.head sends)
  | _ => none

/-- The messages that the steps of a run sent, edited or forwarded. -/
def made [Fts5] (s : State) : List Input → World → List SendCall
  | [], _ => []
  | i :: is, w => (w.makes i).toList ++ (w.step s i).elim [] (made s is)

/-- The requests that arrived in a run. -/
def requests (is : List Input) : List CallToolRequest :=
  is.filterMap fun | .request r => some r | _ => none

/-! ## The tools -/

/-- The check of the allow-list passes for the chats the server may send to. -/
theorem toOption_checkSendAllowed (s : State) (chatId : I64) :
    (checkSendAllowed s chatId).toOption = guard (s.maySendTo chatId) := by
  rw [checkSendAllowed, ← State.maySendTo]
  cases s.maySendTo chatId with
  | true => rfl
  | false => rfl

/-- The first message that a tool sends is the one its request asks for. -/
theorem head_callTool [Fts5] (s : State) (r : CallToolRequest) :
    (callTool s r).head sends = asked s r := by
  obtain ⟨name, args⟩ := r
  unfold asked
  dsimp only
  split
  · simp only [callTool, tgSendMessage, head_lift_bind, toOption_checkSendAllowed]
    rfl
  · simp only [callTool, tgSendPhoto, head_lift_bind, toOption_checkSendAllowed]
    rfl
  · simp only [callTool, tgSendDocument, head_lift_bind, toOption_checkSendAllowed]
    rfl
  · simp only [callTool, tgEditMessage, head_lift_bind, toOption_checkSendAllowed]
    rfl
  · simp only [callTool, tgForwardMessage, head_lift_bind, toOption_checkSendAllowed]
    rfl
  · next hsend hphoto hdocument hedit hforward =>
    unfold callTool
    dsimp only
    split
    case h_3 => exact absurd rfl hsend
    case h_4 => exact absurd rfl hphoto
    case h_5 => exact absurd rfl hdocument
    case h_6 => exact absurd rfl hedit
    case h_8 => exact absurd rfl hforward
    case h_17 => rfl
    case h_2 =>
      rw [tgBotListAliases, head_lift_bind]
      exact Option.bind_fun_none _
    -- the other tools act on something else first, or on nothing
    all_goals simp only [tgBotWhoami, tgDeleteMessage, tgSendChatAction, tgHistoryListChats,
      tgHistoryGetChat, tgHistoryMessages, tgHistorySearch, tgHistoryGetMessage,
      tgHistoryMarkRead, tgHistoryDownload, head_lift_bind, api, read, write, head_act_bind, sends,
      Option.bind_fun_none]

/-- The call that `deliver` makes first is the only one that sends. -/
theorem deliver_once (call : SendCall) (text mediaKind : Option String) (replyTo : Option I64) :
    (deliver call text mediaKind replyTo).Once sends := by
  refine Once.act nofun fun sent => Safe.seq ?_ fun _ _ => Keeps.done _
  exact Keeps.action (fun _ => rfl) fun _ _ => Keeps.act fun _ => rfl

/-- A tool that acts on something else sends nothing. -/
theorem action_once {δ α : Type} {a : Action δ} {k : δ → Except McpError α}
    {f : α → ToolM CallToolResult} (ha : sends a = none) (hf : ∀ v, (f v).Silent sends) :
    (Proc.act a k >>= f).Once sends :=
  Silent.once (Keeps.action (fun _ => ha) fun v _ => hf v)

/-- Every tool makes such a call first or not at all, and after it only stores what came back. This
is read off the tools one by one. -/
theorem callTool_once [Fts5] (s : State) (r : CallToolRequest) : (callTool s r).Once sends := by
  have done (r : CallToolResult) : (pure r : ToolM CallToolResult).Silent sends := Keeps.done r
  obtain ⟨name, args⟩ := r
  unfold callTool
  dsimp only
  split
  · exact .check fun _ => action_once rfl fun _ => done _
  · exact .check fun _ => Silent.once (done _)
  · exact .check fun _ => .check fun _ => .check fun _ => .check fun _ => deliver_once ..
  · exact .check fun _ => .check fun _ => .check fun _ => .check fun _ => .check fun _ =>
      deliver_once ..
  · exact .check fun _ => .check fun _ => .check fun _ => .check fun _ => deliver_once ..
  · exact .check fun _ => .check fun _ => .check fun _ => .check fun _ => deliver_once ..
  · exact .check fun _ => .check fun _ => .check fun _ => action_once rfl fun _ => done _
  · exact .check fun _ => .check fun _ => .check fun _ => .check fun _ => deliver_once ..
  · exact .check fun _ => .check fun _ => .check fun _ => .check fun _ =>
      action_once rfl fun _ => done _
  · exact .check fun _ => action_once rfl fun _ => done _
  · exact .check fun _ => .check fun _ => action_once rfl fun _ => done _
  · exact .check fun _ => .check fun _ => action_once rfl fun _ => done _
  · exact .check fun _ => .check fun _ => action_once rfl fun _ =>
      Keeps.check fun _ _ _ => done _
  · exact .check fun _ => .check fun _ => action_once rfl fun _ =>
      Keeps.check fun _ _ _ => done _
  · exact .check fun _ => .check fun _ => action_once rfl fun _ => done _
  · exact .check fun _ => .check fun _ => .check fun _ => action_once rfl fun _ =>
      Keeps.check fun _ _ _ => Keeps.check fun _ _ _ =>
        Keeps.action (fun _ => rfl) fun _ _ => done _
  · trivial

/-! ## Runs -/

/-- When an element that yields nothing takes the place of one that yields something, this is gone
from the list of all. -/
theorem filterMap_set_perm {α β : Type*} {f : α → Option β} {l : List α} {k : Nat} {a a' : α}
    (h : l[k]? = some a) (ha' : f a' = none) :
    (l.filterMap f).Perm ((f a).toList ++ (l.set k a').filterMap f) := by
  induction l generalizing k with
  | nil => cases h
  | cons x xs ih =>
    cases k with
    | zero =>
      obtain rfl : x = a := Option.some.inj h
      rw [List.set_cons_zero, List.filterMap_cons_none ha']
      cases hx : f x with
      | none => rw [List.filterMap_cons_none hx]; rfl
      | some y => rw [List.filterMap_cons_some hx]; rfl
    | succ k =>
      rw [List.set_cons_succ]
      cases hx : f x with
      | none =>
        rw [List.filterMap_cons_none hx, List.filterMap_cons_none hx]
        exact ih h
      | some y =>
        rw [List.filterMap_cons_some hx, List.filterMap_cons_some hx]
        exact ((ih h).cons y).trans List.perm_middle.symm

/-- The messages that the tasks in progress are about to send. -/
def World.due (w : World) : List SendCall := w.tasks.filterMap (·.head sends)

section
variable {w w' : World} {i : Input}

/-- After a store call the tasks are about to send what they were, or are gone. -/
theorem due_stored {β : Type} {tasks : Except HistoryError β → List Task}
    (h : ∀ b, ((tasks b).filterMap (·.head sends)).Subperm w.due)
    (r : Outcome HistoryError β × Db) : (w.stored tasks r).due.Subperm w.due := by
  obtain ⟨b | e | _, db⟩ := r
  · exact h _
  · exact h _
  · exact List.nil_subperm

/-- A task that acts on something else is about to send nothing, before and after. -/
theorem due_set {task : Nat} {t t' : Task} (ht : w.tasks[task]? = some t)
    (ht' : t'.head sends = none) :
    w.due.Perm ((t.head sends).toList ++ (w.tasks.set task t').filterMap (·.head sends)) :=
  filterMap_set_perm ht ht'

variable [Fts5] {s : State}

/-- What a step makes was due, and what is due after it was due before or is asked for. So nothing
is made that was not asked for, nor twice for one request. -/
theorem World.Stepped.due (hs : w.Stepped s i w') (hw : ∀ t ∈ w.tasks, t.Once sends) :
    ((w.makes i).toList ++ w'.due).Subperm (w.due ++ (requests [i]).filterMap (asked s)) := by
  have hsame : requests [i] = [] → w.due ++ (requests [i]).filterMap (asked s) = w.due := by
    intro h
    rw [h, List.filterMap_nil, List.append_nil]
  cases hs with
  | request r =>
    have hnew : (requests [.request r]).filterMap (asked s) =
        [callTool s r].filterMap (·.head sends) := by
      change [r].filterMap (asked s) = _
      simp only [List.filterMap_cons, List.filterMap_nil, head_callTool]
    rw [hnew, World.due, World.due, List.filterMap_append]
    exact List.Subperm.refl _
  | write ht flt bot =>
    rw [hsame rfl, World.makes, ht]
    refine due_stored (fun b => ?_) _
    have hnext := (hw _ (List.mem_of_getElem? ht)).next b
    exact (due_set ht hnext.head_eq).symm.subperm
  | read ht flt bot =>
    rw [hsame rfl, World.makes, ht]
    refine due_stored (fun b => ?_) _
    have hnext := (hw _ (List.mem_of_getElem? ht)).next b
    exact (due_set ht hnext.head_eq).symm.subperm
  | @api task c next ht flt bot =>
    rw [hsame rfl, World.makes, ht]
    have hnext := (hw _ (List.mem_of_getElem? ht)).next (bot c)
    exact (due_set ht hnext.head_eq).symm.subperm
  | record hu flt =>
    rw [hsame rfl]
    exact due_stored (fun _ => List.Subperm.refl _) _
  | retain cutoff keep flt =>
    rw [hsame rfl]
    exact due_stored (fun _ => List.Subperm.refl _) _
  | kill =>
    rw [hsame rfl]
    exact List.nil_subperm

/-- Every task makes its send first or not at all, and a step keeps this. -/
theorem World.Stepped.once (hs : w.Stepped s i w') (hw : ∀ t ∈ w.tasks, t.Once sends) :
    ∀ t ∈ w'.tasks, t.Once sends := by
  have hset {task : Nat} {t' : Task} (ht' : t'.Silent sends) :
      ∀ t ∈ w.tasks.set task t', t.Once sends := by
    intro t ht
    rcases List.mem_or_eq_of_mem_set ht with ht | rfl
    · exact hw t ht
    · exact ht'.once
  intro t hmem
  cases hs with
  | request r =>
    rcases List.mem_append.1 hmem with ht | ht
    · exact hw t ht
    · rw [List.mem_singleton.1 ht]
      exact callTool_once s r
  | write ht flt bot =>
    obtain ⟨b, hb⟩ := World.mem_stored hmem
    exact hset ((hw _ (List.mem_of_getElem? ht)).next b) t hb
  | read ht flt bot =>
    obtain ⟨b, hb⟩ := World.mem_stored hmem
    exact hset ((hw _ (List.mem_of_getElem? ht)).next b) t hb
  | api ht flt bot => exact hset ((hw _ (List.mem_of_getElem? ht)).next _) t hmem
  | record hu flt =>
    obtain ⟨_, hb⟩ := World.mem_stored hmem
    exact hw t hb
  | retain cutoff keep flt =>
    obtain ⟨_, hb⟩ := World.mem_stored hmem
    exact hw t hb
  | kill => cases hmem

/-- A step that is refused sends nothing. -/
theorem makes_of_refused (h : w.step s i = none) : w.makes i = none := by
  cases i with
  | advance task flt bot =>
    rw [World.makes]
    rw [World.step] at h
    cases ht : w.tasks[task]? with
    | none => rfl
    | some t =>
      rw [ht, Option.bind_some] at h
      match t with
      | .ok _ | .fail _ => rfl
      | .perform (.write m) next | .perform (.read op _) next | .perform (.api c) next => cases h
  | request | record | retain | kill => rfl

/-- From any state, a run makes what is due there and what its requests ask for, each at most
once. -/
theorem made_subperm (is : List Input) (hw : ∀ t ∈ w.tasks, t.Once sends) :
    (made s is w).Subperm (w.due ++ (requests is).filterMap (asked s)) := by
  induction is generalizing w with
  | nil => exact List.nil_subperm
  | cons i is ih =>
    have hrequests : (requests (i :: is)).filterMap (asked s) =
        (requests [i]).filterMap (asked s) ++ (requests is).filterMap (asked s) := by
      rw [← List.filterMap_append, requests, requests, requests, ← List.filterMap_append]
      rfl
    rw [made]
    cases hs : w.step s i with
    | none =>
      rw [makes_of_refused hs]
      exact List.nil_subperm
    | some w₁ =>
      have hstep := World.stepped hs
      have hrest := ((List.subperm_append_left _).2 (ih (hstep.once hw)) :
        ((w.makes i).toList ++ made s is w₁).Subperm _)
      have hmoved :=
        (List.subperm_append_right ((requests is).filterMap (asked s))).2 (hstep.due hw)
      rw [List.append_assoc, List.append_assoc, ← hrequests] at hmoved
      exact hrest.trans hmoved

end

/-- In every run of the server, the calls of the Bot API that send, edit or forward are among those
its requests ask for, each at most as often as it is asked for: whatever the order of the steps and
the outcomes of the calls, and whenever the process is killed. -/
theorem made_subperm_asked [Fts5] (s : State) (is : List Input) :
    (made s is ⟨.migrated, [], []⟩).Subperm ((requests is).filterMap (asked s)) :=
  made_subperm is fun _ ht => nomatch ht

end TelegramMcp.Server
