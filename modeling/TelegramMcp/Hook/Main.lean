import TelegramMcp.Hook.Invocations
import TelegramMcp.Hook.McpClient
import TelegramMcp.Hook.Question

/-!
# The hook process

`run` dispatches on the event in the standard input, and `main` turns every error into a normal
exit, so that Claude goes on. Only two things stop it: the JSON that the `Stop` hook prints, and the
exit status 2 of the hook of `AskUserQuestion`. `main_justified` says what has happened when it is
stopped: a message was sent to the chat, and unless the wait timed out, a poll after it returned the
replies that it is told.
-/

namespace TelegramMcp.Hook

open Rust Txn History Server Proc Fields

/-! ## The input -/

/-- `StopInput`: the standard input of a `Stop` hook. -/
structure StopInput where
  sessionId : Option String
  transcriptPath : Option String
  stopHookActive : Option Bool
  lastAssistantMessage : Option String

namespace StopInput

/-- The fields of the input, as serde reads them from an object: each may be missing or null. -/
def fields : Fields StopInput :=
  StopInput.mk <$> optional "session_id" Decode.string <*>
    optional "transcript_path" Decode.string <*> optional "stop_hook_active" Decode.bool <*>
    optional "last_assistant_message" Decode.string

/-- An element of an array that is decoded as a struct. -/
def element {α : Type} (items : List Json) (i : Nat) (d : Decoder α) : Except String α :=
  items[i]?.elim
    (.error ("invalid length " ++ toString i ++ ", expected struct StopInput with 4 elements")) d

/-- The fields as serde reads them from an array, by position. -/
def ofArray (items : List Json) : Except String StopInput := do
  let sessionId ← element items 0 (Decode.option Decode.string)
  let transcriptPath ← element items 1 (Decode.option Decode.string)
  let stopHookActive ← element items 2 (Decode.option Decode.bool)
  let lastAssistantMessage ← element items 3 (Decode.option Decode.string)
  if items.length = 4 then .ok ⟨sessionId, transcriptPath, stopHookActive, lastAssistantMessage⟩
  else .error ("invalid length " ++ toString items.length ++ ", expected fewer elements in array")

/-- What `serde_json::from_value` makes of the input: an object, or an array, or else an error. -/
def fromValue : Json → Except String StopInput
  | .obj entries => fields.decode entries
  | .arr items => ofArray items
  | v => .error (Decode.invalidType v "struct StopInput")

end StopInput

/-- `read_stdin_json`: empty or malformed input is an empty object, so that it never fails. -/
def readStdinJson [ReadJson] (buf : String) : Json :=
  let trimmed := trim buf.toList
  if trimmed = [] then .obj []
  else
    match ReadJson.fromStr (String.ofList trimmed) with
    | .ok v => v
    | .error _ => .obj []

/-! ## The process -/

/-- What a hook process is given and what it meets: its command line and standard input, the
variable `CLAUDE_SESSION_ID`, whether there was input within so many milliseconds at its start, the
server it finds for a session, the branches taken, and whether the last notice is sent in time. -/
structure Surroundings where
  argv : List String
  stdin : String
  claudeSessionId : Option String
  userActive : Nat → Bool
  connectToServer : Option String → Except HookError State
  branches : List Branch
  inTime : Bool

/-- What becomes of the process: it waits, lets Claude go on, prints a reason why Claude may not
stop, or blocks the tool with a reason. -/
inductive Status
  | waiting
  | pass
  | block (reason : String)
  | toolBlock (reason : String)
  deriving DecidableEq

/-- What `emit_block` prints: the decision and its reason. -/
def blockOutput (reason : String) : Json :=
  .obj [("decision", .str "block"), ("reason", .str reason)]

namespace Status

/-- The code that a process exits with, once it has ended. -/
def exitCode : Status → Option Nat
  | .waiting => none
  | .pass | .block _ => some 0
  | .toolBlock _ => some 2

/-- The JSON a process prints: only a Stop hook that blocks prints any. -/
def stdout : Status → Option Json
  | .block reason => some (blockOutput reason)
  | .waiting | .pass | .toolBlock _ => none

/-- What `emit_tool_block` writes after the status lines, for Claude to read. -/
def stderr : Status → Option String
  | .toolBlock reason => some reason
  | .waiting | .pass | .block _ => none

end Status

/-- The threshold in milliseconds: `saturating_mul(1000)`, and the conversion to `u32` that is
capped. -/
def localThresholdMs (cli : CliArgs) : Nat := min (cli.localInputThresholdSecs * 1000) (2 ^ 32 - 1)

namespace Surroundings

/-- What an invocation meets when its input names this session. -/
def course (w : Surroundings) (cli : CliArgs) (sessionId : Option String) : Course where
  userActive := w.userActive (localThresholdMs cli)
  connection := w.connectToServer (sessionId.or w.claudeSessionId)
  branches := w.branches
  inTime := w.inTime

variable [Fts5] (w : Surroundings) (cli : CliArgs) (input : Json)

/-- `run_stop`, from its input on, with the state of the process when it ends. -/
def stop : HookM Status := do
  let stopInput ← .lift (context "parsing Stop hook stdin" (StopInput.fromValue input))
  match ← runStop (w.course cli stopInput.sessionId) cli stopInput.lastAssistantMessage with
  | .released => pure .pass
  | .blocked reason _ => pure (.block reason)
  | .waiting => pure .waiting

/-- The questions of an `AskUserQuestion` call, or the error of an input without any. -/
def questionsOf (input : Json) : Except HookError QuestionSet := do
  let toolInput ← (input.get "tool_input").elim
    (.error (.messages ["PreToolUse payload missing tool_input"])) .ok
  (QuestionSet.fromToolInput toolInput).mapError fun e => .messages [e]

/-- What the hook uses of questions: their rendering and their answers. -/
def askedOf (qs : QuestionSet) : Questions :=
  ⟨qs.render, fun reply => (qs.answerFromReply reply).getD ""⟩

/-- `run_ask`, from its input on, with the state of the process when it ends. -/
def ask : HookM Status :=
  if (input.get "tool_name").bind Json.asStr = some "AskUserQuestion" then do
    let qs ← .lift (questionsOf input)
    let sessionId := (input.get "session_id").bind Json.asStr
    match ← runAsk (w.course cli sessionId) cli (askedOf qs) with
    | .released => pure .pass
    | .blocked reason _ => pure (.toolBlock reason)
    | .waiting => pure .waiting
  else pure .pass

/-- Whether the event is that of a tool that is about to be used. -/
def isPreToolUse (input : Json) : Bool :=
  (input.get "hook_event_name").bind Json.asStr = some "PreToolUse"

/-- `run`: the command line first, then stdin, and by the event the one or the other hook. -/
def run [ReadJson] : HookM Status :=
  match CliArgs.parseFrom w.argv with
  | .error .help => pure .pass
  | .error (.error message) => .fail (.messages [message])
  | .ok cli =>
    let input := readStdinJson w.stdin
    if isPreToolUse input then w.ask cli input else w.stop cli input

/-- `main`: an error is written down and lets Claude stop. -/
def main [ReadJson] : HookM Status := do
  match ← w.run.attempt with
  | .ok status => pure status
  | .error _ => pure .pass

end Surroundings

/-! ## What has happened -/

/-- A text was sent to the chat, and got this id. -/
def Sent (tr : List (Performed Action)) (chat : I64) (text : String) (id : I64) : Prop :=
  ∃ sent : SentMessage, sent.messageId = id ∧
    ⟨.api (.send (.sendMessage chat text none none false true)), .accepted sent⟩ ∈ tr

/-- The messages of the chat after this id were read, and these are the page. -/
def Polled (tr : List (Performed Action)) (chat after : I64) (page : List StoredMessage) : Prop :=
  ∃ readOnly, ⟨.read (messages chat none (some after) (i64 50)) readOnly, .ok page⟩ ∈ tr

/-- Replies that came after a text: those on a page read after it. -/
def Replied (tr : List (Performed Action)) (chat : I64) (text : String)
    (replies : List Reply) : Prop :=
  ∃ id page, Sent tr chat text id ∧ Polled tr chat id page ∧
    replies = sortReplies (inboundReplies page) ∧ replies ≠ []

section
variable {s : State} {tr tr' : List (Performed Action)} {chat id : I64}

/-- What was sent in a part of a trace was sent in the whole. -/
theorem Sent.mono {text : String} (h : Sent tr chat text id) (hsub : tr ⊆ tr') :
    Sent tr' chat text id := by
  obtain ⟨sent, hid, hmem⟩ := h
  exact ⟨sent, hid, hsub hmem⟩

/-- What was read in a part of a trace was read in the whole. -/
theorem Polled.mono {page : List StoredMessage} (h : Polled tr chat id page) (hsub : tr ⊆ tr') :
    Polled tr' chat id page := by
  obtain ⟨readOnly, hmem⟩ := h
  exact ⟨readOnly, hsub hmem⟩

/-- A send of the server that succeeds was accepted by the Bot API. -/
theorem deliver_exec {call : SendCall} {text mediaKind : Option String} {replyTo : Option I64}
    {result : CallToolResult} (h : Exec (deliver call text mediaKind replyTo) tr (.ok result)) :
    ∃ sent : SentMessage, result = ⟨[sendMessageOutput sent]⟩ ∧
      ⟨.api (.send call), .accepted sent⟩ ∈ tr := by
  obtain ⟨outcome, tr', rfl, hrest⟩ := Exec.of_act_bind h
  obtain ⟨sent, tr₁, tr₂, -, hseen, hmirror⟩ := Exec.of_bind_ok hrest
  obtain ⟨_, _, _, -, -, hresult⟩ := Exec.of_bind_ok hmirror
  obtain ⟨-, hseen⟩ := Exec.of_lift hseen
  cases hresult
  cases outcome with
  | accepted sent' =>
    cases hseen
    exact ⟨sent, rfl, List.mem_cons_self⟩
  | acceptedLost e => cases hseen
  | refused e => cases hseen

variable [Fts5]

/-- A wakeup that succeeds was sent to the chat of the alias. -/
theorem sendWakeup_exec {arg text : String} {baseline : Baseline}
    (h : Exec (sendWakeup s arg text) tr (.ok baseline)) :
    ∃ chat, s.aliases.get arg = some chat ∧ Sent tr chat text baseline.sentMessageId := by
  obtain ⟨result, tr₁, tr₂, rfl, hcall, hbaseline⟩ := Exec.of_bind_ok h
  have hcall := Exec.of_mapError_ok hcall
  rw [callTool_sendArgs] at hcall
  obtain ⟨chat, tr₃, tr₄, rfl, htarget, hcall⟩ := Exec.of_bind_ok hcall
  obtain ⟨_, tr₅, tr₆, rfl, -, hcall⟩ := Exec.of_bind_ok hcall
  obtain ⟨sent, rfl, hmem⟩ := deliver_exec hcall
  obtain ⟨-, htarget⟩ := Exec.of_lift htarget
  obtain ⟨-, hbaseline⟩ := Exec.of_lift hbaseline
  rw [extractBaseline_sendMessageOutput] at hbaseline
  cases hbaseline
  rw [sendTarget_sendArgs] at htarget
  refine ⟨chat, (resolveChat_name_iff _).1 htarget.symm, sent, rfl, ?_⟩
  exact List.mem_append_left _ (List.mem_append_right _ (List.mem_append_right _ hmem))

/-- A poll that succeeds has read a page of the chat, and returns the replies on it. -/
theorem pollOnce_exec {arg : String} {replies : List Reply}
    (h : Exec (pollOnce s arg id) tr (.ok replies)) :
    ∃ chat page, s.aliases.get arg = some chat ∧ Polled tr chat id page ∧
      replies = sortReplies (inboundReplies page) := by
  obtain ⟨result, tr₁, tr₂, rfl, hcall, hreplies⟩ := Exec.of_bind_ok h
  have hcall := Exec.of_mapError_ok hcall
  rw [callTool_pollArgs] at hcall
  obtain ⟨chat, tr₃, tr₄, rfl, htarget, hcall⟩ := Exec.of_bind_ok hcall
  obtain ⟨response, tr₅, rfl, hread⟩ := Exec.of_act_bind hcall
  obtain ⟨page, tr₆, tr₇, -, hpage, hresult⟩ := Exec.of_bind_ok hread
  obtain ⟨-, htarget⟩ := Exec.of_lift htarget
  obtain ⟨-, hpage⟩ := Exec.of_lift hpage
  obtain ⟨-, hreplies⟩ := Exec.of_lift hreplies
  rw [pollTarget_pollArgs] at htarget
  cases response with
  | error e => cases hpage
  | ok page' =>
    cases hpage
    cases hresult
    rw [parseReplies_page] at hreplies
    cases hreplies
    refine ⟨chat, page, (resolveChat_name_iff _).1 htarget.symm, ?_, rfl⟩
    exact ⟨_, List.mem_append_left _ (List.mem_append_right _ List.mem_cons_self)⟩

/-- How the loop may end: released, by the timeout, or with the replies of a poll. -/
def LoopEnds (s : State) (cli : CliArgs) (baseline : Baseline) (onTimeout : Ending)
    (reason : List Reply → String) (branches : List Branch) (tr : List (Performed Action))
    (ending : Ending) : Prop :=
  ending = .released ∨ ending = .waiting ∨ (Branch.timeout ∈ branches ∧ ending = onTimeout) ∨
    ∃ chat page replies, s.aliases.get cli.chat = some chat ∧
      Polled tr chat baseline.sentMessageId page ∧
        replies = sortReplies (inboundReplies page) ∧ replies ≠ [] ∧
          ending = .blocked (reason replies) replies

section
variable {cli : CliArgs} {baseline : Baseline} {takeover : String} {onTimeout ending : Ending}
  {reason : List Reply → String} {inTime : Bool} {branches branches' : List Branch}

omit [Fts5] in
/-- How the loop ends is told by a part of the branches and of the trace, too. -/
theorem LoopEnds.mono (h : LoopEnds s cli baseline onTimeout reason branches tr ending)
    (hbranches : branches ⊆ branches') (hsub : tr ⊆ tr') :
    LoopEnds s cli baseline onTimeout reason branches' tr' ending := by
  obtain h | h | ⟨htimeout, h⟩ | ⟨chat, page, replies, hchat, hpage, hreplies⟩ := h
  · exact .inl h
  · exact .inr (.inl h)
  · exact .inr (.inr (.inl ⟨hbranches htimeout, h⟩))
  · exact .inr (.inr (.inr ⟨chat, page, replies, hchat, hpage.mono hsub, hreplies⟩))

/-- Every execution of the loop ends in one of the ways it may. By induction on the branches, with
the case of a poll that failed, after which the loop goes on. -/
theorem waitLoop_exec
    (h : Exec (waitLoop s cli baseline takeover onTimeout reason inTime branches) tr
      (.ok ending)) : LoopEnds s cli baseline onTimeout reason branches tr ending := by
  induction branches generalizing tr with
  | nil =>
    cases h
    exact .inr (.inl rfl)
  | cons branch branches ih =>
    have hrest := List.subset_cons_self branch branches
    cases branch with
    | ctrlC =>
      cases h
      exact .inl rfl
    | timeout =>
      cases h
      exact .inr (.inr (.inl ⟨List.mem_cons_self, rfl⟩))
    | localInput userActive =>
      rw [waitLoop] at h
      split at h
      · obtain ⟨_, _, _, rfl, -, h⟩ := Exec.of_bind_ok h
        cases h
        exact .inl rfl
      · exact (ih h).mono hrest (List.Subset.refl _)
    | poll =>
      rw [waitLoop] at h
      obtain ⟨polled, tr₁, tr₂, rfl, hpoll, h⟩ := Exec.of_bind_ok h
      obtain ⟨r, hr, hpoll⟩ := Exec.of_attempt hpoll
      cases hr
      cases polled with
      | error e => exact (ih h).mono hrest (List.subset_append_right _ _)
      | ok replies =>
        cases replies with
        | nil => exact (ih h).mono hrest (List.subset_append_right _ _)
        | cons r replies =>
          obtain ⟨chat, page, hchat, hpage, hreplies⟩ := pollOnce_exec hpoll
          obtain ⟨_, _, _, rfl, -, h⟩ := Exec.of_bind_ok h
          cases h
          refine .inr (.inr (.inr ⟨chat, page, r :: replies, hchat, ?_, hreplies,
            List.cons_ne_nil _ _, rfl⟩))
          exact hpage.mono (List.subset_append_left _ _)

end

/-- How an invocation may end that sends this text first. -/
def InvocationEnds (c : Course) (cli : CliArgs) (text : String) (onTimeout : Ending)
    (reason : List Reply → String) (tr : List (Performed Action)) (ending : Ending) : Prop :=
  ending = .released ∨ ending = .waiting ∨
    ∃ s chat, c.connection = .ok s ∧ s.aliases.get cli.chat = some chat ∧
      ((∃ id, Sent tr chat text id) ∧ Branch.timeout ∈ c.branches ∧ ending = onTimeout ∨
        ∃ replies, Replied tr chat text replies ∧ ending = .blocked (reason replies) replies)

section
variable {c : Course} {cli : CliArgs} {text : String} {onTimeout ending : Ending}
  {reason : List Reply → String}

/-- A text is sent, and later the loop waits and ends in one of its ways. -/
theorem InvocationEnds.of_loop {baseline : Baseline} {tr₁ tr₂ tr₃ : List (Performed Action)}
    (hs : c.connection = .ok s)
    (hsend : Exec (sendWakeup s cli.chat text) tr₁ (.ok baseline))
    (hloop : LoopEnds s cli baseline onTimeout reason c.branches tr₃ ending) :
    InvocationEnds c cli text onTimeout reason (tr₁ ++ tr₂ ++ tr₃) ending := by
  obtain ⟨chat, hchat, hsent⟩ := sendWakeup_exec hsend
  have hsub := List.subset_append_of_subset_left tr₃ (List.subset_append_left tr₁ tr₂)
  have hsent' := hsent.mono hsub
  obtain h | h | ⟨htimeout, h⟩ | ⟨chat', page, replies, hchat', hpage, hreplies, hne, h⟩ := hloop
  · exact .inl h
  · exact .inr (.inl h)
  · exact .inr (.inr ⟨s, chat, hs, hchat, .inl ⟨⟨_, hsent'⟩, htimeout, h⟩⟩)
  · cases hchat.symm.trans hchat'
    have hpage' := hpage.mono (List.subset_append_right (tr₁ ++ tr₂) tr₃)
    exact .inr (.inr ⟨s, chat, hs, hchat, .inr
      ⟨replies, ⟨_, page, hsent', hpage', hreplies, hne⟩, h⟩⟩)

/-- Every execution of a Stop hook ends as its options and its branches say. -/
theorem runStop_exec {lastAssistantMessage : Option String}
    (h : Exec (runStop c cli lastAssistantMessage) tr (.ok ending)) :
    InvocationEnds c cli (cli.message.getD defaultWakeupMessage)
      (.blocked (cli.retryMessage.getD defaultRetryMessage) []) stopReason tr ending := by
  rw [runStop] at h
  split at h
  · cases h
    exact .inl rfl
  · obtain ⟨s, tr₀, tr', rfl, hlift, hrest⟩ := Exec.of_bind_ok h
    obtain ⟨rfl, hconnect⟩ := Exec.of_lift hlift
    obtain ⟨baseline, tr₁, tr'', rfl, hsend, hchunks⟩ := Exec.of_bind_ok hrest
    obtain ⟨_, tr₂, tr₃, rfl, -, hloop⟩ := Exec.of_bind_ok hchunks
    rw [List.nil_append, ← List.append_assoc]
    exact .of_loop hconnect.symm hsend (waitLoop_exec hloop)

/-- Every execution of a hook with questions ends as its options and its branches say. -/
theorem runAsk_exec {questions : Questions} (h : Exec (runAsk c cli questions) tr (.ok ending)) :
    InvocationEnds c cli questions.render .released
      (fun replies => questions.answerFromReply ("\n".intercalate (replies.filterMap (·.text))))
      tr ending := by
  rw [runAsk] at h
  split at h
  · cases h
    exact .inl rfl
  · obtain ⟨s, tr₀, tr', rfl, hlift, hrest⟩ := Exec.of_bind_ok h
    obtain ⟨rfl, hconnect⟩ := Exec.of_lift hlift
    obtain ⟨baseline, tr₁, tr₂, rfl, hsend, hloop⟩ := Exec.of_bind_ok hrest
    rw [List.nil_append, ← List.append_nil tr₁]
    exact .of_loop hconnect.symm hsend (waitLoop_exec hloop)

end

/-! ## What stops Claude -/

omit [Fts5] in
/-- There is an answer to any reply, so that the default is never taken. -/
theorem answerFromReply_getD (qs : QuestionSet) (reply : String) :
    qs.answerFromReply reply = some ((qs.answerFromReply reply).getD "") := by
  by_cases hne : qs.numbersIn reply = []
  · rw [QuestionSet.answerFromReply, QuestionSet.picks_eq, hne]
    rfl
  · rw [QuestionSet.answerFromReply_eq hne]
    rfl

namespace Surroundings

/-- The server that the hook found for its session, and the chat it has for the command line. -/
structure Reaches (w : Surroundings) (sessionId : Option String) (cli : CliArgs) (chat : I64) :
    Prop where
  parsed : CliArgs.parseFrom w.argv = .ok cli
  connected : ∃ s, w.connectToServer (sessionId.or w.claudeSessionId) = .ok s ∧
    s.aliases.get cli.chat = some chat

/-- Why the `Stop` hook gives this reason: it woke the user, and the wait timed out or there were
replies. -/
def StopJustified (w : Surroundings) (input : Json) (tr : List (Performed Action))
    (reason : String) : Prop :=
  ∃ stopInput cli chat, StopInput.fromValue input = .ok stopInput ∧
    w.Reaches stopInput.sessionId cli chat ∧
      ((∃ id, Sent tr chat (cli.message.getD defaultWakeupMessage) id) ∧
          Branch.timeout ∈ w.branches ∧ reason = cli.retryMessage.getD defaultRetryMessage ∨
        ∃ replies, Replied tr chat (cli.message.getD defaultWakeupMessage) replies ∧
          reason = stopReason replies)

/-- Why a tool is blocked: it is `AskUserQuestion`, its questions were sent, and there were
replies, which the reason answers them with. -/
def AskJustified (w : Surroundings) (input : Json) (tr : List (Performed Action))
    (reason : String) : Prop :=
  (input.get "tool_name").bind Json.asStr = some "AskUserQuestion" ∧
    ∃ qs cli chat replies, questionsOf input = .ok qs ∧
      w.Reaches ((input.get "session_id").bind Json.asStr) cli chat ∧
        Replied tr chat qs.render replies ∧
          qs.answerFromReply ("\n".intercalate (replies.filterMap (·.text))) = some reason

variable [ReadJson]

/-- Why the process is in this state: what it sent, what it read, and how it came from there. -/
def Explained (w : Surroundings) (tr : List (Performed Action)) : Status → Prop
  | .waiting | .pass => True
  | .block reason => isPreToolUse (readStdinJson w.stdin) = false ∧
    w.StopJustified (readStdinJson w.stdin) tr reason
  | .toolBlock reason => isPreToolUse (readStdinJson w.stdin) = true ∧
    w.AskJustified (readStdinJson w.stdin) tr reason

variable {w : Surroundings} {cli : CliArgs} {status : Status}

/-- What a Stop hook prints is explained by what it sent and read. -/
theorem stop_explained (hcli : CliArgs.parseFrom w.argv = .ok cli)
    (hevent : isPreToolUse (readStdinJson w.stdin) = false)
    (h : Exec (w.stop cli (readStdinJson w.stdin)) tr (.ok status)) : w.Explained tr status := by
  obtain ⟨stopInput, tr₀, tr', rfl, hlift, hrun⟩ := Exec.of_bind_ok h
  obtain ⟨rfl, hcontext⟩ := Exec.of_lift hlift
  have hinput : StopInput.fromValue (readStdinJson w.stdin) = .ok stopInput := by
    cases hvalue : StopInput.fromValue (readStdinJson w.stdin) with
    | ok v =>
      rw [hvalue] at hcontext
      cases hcontext
      rfl
    | error e =>
      rw [hvalue] at hcontext
      cases hcontext
  obtain ⟨ending, tr₁, tr₂, rfl, hstop, hstatus⟩ := Exec.of_bind_ok hrun
  have hends := runStop_exec hstop
  match ending with
  | .released | .waiting =>
    cases hstatus
    trivial
  | .blocked reason replies =>
    cases hstatus
    rw [List.nil_append, List.append_nil]
    obtain hends | hends | ⟨s, chat, hs, hchat, hblocked⟩ := hends
    · cases hends
    · cases hends
    · refine ⟨hevent, stopInput, cli, chat, hinput, ⟨hcli, s, hs, hchat⟩, ?_⟩
      rcases hblocked with ⟨hsent, htimeout, heq⟩ | ⟨replies, hreplied, heq⟩
      · cases heq
        exact .inl ⟨hsent, htimeout, rfl⟩
      · cases heq
        exact .inr ⟨_, hreplied, rfl⟩

/-- What a hook with questions prints is explained by what it sent and read. -/
theorem ask_explained (hcli : CliArgs.parseFrom w.argv = .ok cli)
    (hevent : isPreToolUse (readStdinJson w.stdin) = true)
    (h : Exec (w.ask cli (readStdinJson w.stdin)) tr (.ok status)) : w.Explained tr status := by
  rw [ask] at h
  split at h
  · next htool =>
    obtain ⟨qs, tr₀, tr', rfl, hlift, hrun⟩ := Exec.of_bind_ok h
    obtain ⟨rfl, hquestions⟩ := Exec.of_lift hlift
    obtain ⟨ending, tr₁, tr₂, rfl, hask, hstatus⟩ := Exec.of_bind_ok hrun
    have hends := runAsk_exec hask
    match ending with
    | .released | .waiting =>
      cases hstatus
      trivial
    | .blocked reason replies =>
      cases hstatus
      rw [List.nil_append, List.append_nil]
      obtain hends | hends | ⟨s, chat, hs, hchat, hblocked⟩ := hends
      · cases hends
      · cases hends
      · rcases hblocked with ⟨-, -, heq⟩ | ⟨replies, hreplied, heq⟩
        · cases heq
        · cases heq
          exact ⟨hevent, htool, qs, cli, chat, _, hquestions.symm, ⟨hcli, s, hs, hchat⟩, hreplied,
            answerFromReply_getD qs _⟩
  · cases h
    trivial

/-- What `run` prints is explained, whichever hook it starts. -/
theorem run_explained (h : Exec w.run tr (.ok status)) : w.Explained tr status := by
  rw [run] at h
  split at h
  · cases h
    trivial
  · cases h
  · next cli hcli =>
    dsimp only at h
    split at h
    · next hevent => exact ask_explained hcli hevent h
    · next hevent => exact stop_explained hcli (Bool.not_eq_true _ ▸ hevent) h

/-- The process ends in a state, and for a reason, also after an error: `main` prints an error and
lets Claude go on, so no error of `run` becomes one of the process. -/
theorem main_explained {r : Except HookError Status} (h : Exec w.main tr r) :
    ∃ status, r = .ok status ∧ w.Explained tr status := by
  rcases Exec.of_bind h with ⟨e, hattempt, -⟩ | ⟨result, tr₁, tr₂, rfl, hattempt, hstatus⟩
  · obtain ⟨_, hr, -⟩ := Exec.of_attempt hattempt
    cases hr
  · obtain ⟨result', hr, hrun⟩ := Exec.of_attempt hattempt
    cases hr
    cases result with
    | ok status =>
      cases hstatus
      rw [List.append_nil]
      exact ⟨status, rfl, run_explained hrun⟩
    | error e =>
      cases hstatus
      exact ⟨.pass, rfl, trivial⟩

/-- What Claude is told, and the sends and reads that justify it. A `Stop` hook tells it on standard
output, as a block with its reason, and a hook for questions by the exit code 2 and standard
error. -/
structure Justified (w : Surroundings) (tr : List (Performed Action)) (status : Status) :
    Prop where
  stdout : ∀ v, status.stdout = some v → isPreToolUse (readStdinJson w.stdin) = false ∧
    ∃ reason, v = blockOutput reason ∧ w.StopJustified (readStdinJson w.stdin) tr reason
  exitCode : ∀ code, status.exitCode = some code → code ≠ 0 → code = 2 ∧
    isPreToolUse (readStdinJson w.stdin) = true ∧
      ∃ reason, status.stderr = some reason ∧ w.AskJustified (readStdinJson w.stdin) tr reason

omit [Fts5] in
/-- An explanation gives the justification: a text that was accepted and, but for a timeout, replies
that were read after it. -/
theorem Explained.justified (h : w.Explained tr status) : w.Justified tr status := by
  cases status with
  | waiting => exact ⟨nofun, nofun⟩
  | pass =>
    refine ⟨nofun, ?_⟩
    rintro code ⟨⟩ hne
    exact absurd rfl hne
  | block reason =>
    refine ⟨?_, ?_⟩
    · rintro v ⟨⟩
      exact ⟨h.1, reason, rfl, h.2⟩
    · rintro code ⟨⟩ hne
      exact absurd rfl hne
  | toolBlock reason =>
    refine ⟨nofun, ?_⟩
    rintro code ⟨⟩ -
    exact ⟨rfl, h.1, reason, rfl, h.2⟩

end Surroundings

end

/-- A hook process never fails. When it prints something or exits with another status than 0, the
text that it was to send was accepted for the chat of its command line, and unless the wait timed
out in a `Stop` hook, a poll after it returned replies, of which the reason is made. So whatever
goes wrong, Claude goes on. -/
theorem main_justified [Fts5] [ReadJson] (w : Surroundings) (tr : List (Performed Action))
    (r : Except HookError Status) (h : Exec w.main tr r) :
    ∃ status, r = .ok status ∧ w.Justified tr status := by
  obtain ⟨status, hr, hexplained⟩ := Surroundings.main_explained h
  exact ⟨status, hr, hexplained.justified⟩

/-- A `Stop` hook whose first poll finds an answer. -/
def answered : Surroundings where
  argv := ["tg-hook", "--chat", "me"]
  stdin := ""
  claudeSessionId := none
  userActive _ := false
  connectToServer _ := .ok withAlias
  branches := [.poll]
  inTime := false

/-- A store with the answer that the hook finds. -/
def answeredStore : Db :=
  ((@Mutation.op Fts5.ascii (.recordInbound (answerChat (i64 101)) firstAnswer)).eval .migrated).2

/-- A Stop hook whose text was answered with yes blocks with this reason, and exits with status
0. -/
theorem main_justified_answered :
    ∃ tr, @Surroundings.Justified threeReplies answered tr (.block "yes") := by
  have hrun : (Proc.run (@serve Fts5.ascii (answering (i64 1)))
      (@Surroundings.main Fts5.ascii answered threeReplies) answeredStore).1.toOption =
        some (.block "yes") := by decide +kernel
  obtain ⟨tr, hex⟩ := exec_run (@serve Fts5.ascii (answering (i64 1))) answeredStore
    (@Surroundings.main Fts5.ascii answered threeReplies)
  obtain ⟨status, hstatus, hjustified⟩ := @main_justified Fts5.ascii threeReplies answered tr _ hex
  rw [hstatus] at hrun
  cases hrun
  exact ⟨tr, hjustified⟩

end TelegramMcp.Hook
