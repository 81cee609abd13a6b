import TelegramMcp.Hook.Calls
import TelegramMcp.LocalPipe.Auth
import TelegramMcp.LocalPipe.Discovery
import TelegramMcp.Lib.System

/-!
# The client of the pipe

`McpClient` opens the pipe of a discovery record, checks which process serves it, authenticates,
initializes and then makes calls, one at a time. It is modelled from one `await` to the next; the
system answers each of them in any way, the server writes any lines, and a call may be given up at
any time.

Whatever happens, nothing is written before the process is checked, what is written is the line of
authentication and then one request after another, and a call returns a response with its own id:
late responses to calls that were given up are skipped (`session_of_reached`). A client of a server
that answers gets every result (`session_completes`).
-/

namespace TelegramMcp

open Rust LocalPipe

namespace Hook

/-! ## The client -/

/-- How `serde_json` reads a text, of which only this is used: that it may or may not give a
value. -/
class ReadJson where
  fromStr : String → Except String Json

/-- An error of the operating system, with its code if it has one. Opening is tried again only for
the code of a busy pipe. -/
structure IoError where
  rawOsError : Option Int
  message : String
  deriving DecidableEq

/-- Win32 `ERROR_PIPE_BUSY`: all instances of the pipe are in use. -/
def errorPipeBusy : Int := 231

/-- How many times a busy pipe is opened before giving up. -/
def pipeOpenRetries : Nat := 10

/-- The line that a client authenticates with, and its newline. -/
def authText (token : String) : String := "AUTH " ++ token ++ "\n"

/-- A JSON-RPC request: its id, its method and its parameters. -/
structure Request where
  id : Nat
  method : String
  params : Json

/-- The request as a JSON value, in the order of the source. -/
def Request.toJson (r : Request) : Json :=
  .obj [("jsonrpc", .str "2.0"), ("id", .int r.id), ("method", .str r.method), ("params", r.params)]

/-- The id that a response has, if it has one that fits. -/
def responseId (v : Json) : Option Nat := (v.get "id").bind Json.asU64

/-- Who made a request, to whom its result goes: `initialize` drops it, and `call_tool` returns
it. -/
inductive Caller
  | initializing
  | callTool
  deriving DecidableEq

/-- What a client waits for, or what it has come to: it may be called, or `connect` has failed. -/
inductive Await
  /-- `ClientOptions::open`, with this many tries after it. -/
  | openPipe (tries : Nat)
  /-- The delay before the next try. -/
  | retryDelay (tries : Nat)
  | serverPid
  | writeAuth
  | writeRequest (caller : Caller) (r : Request)
  | readLine (caller : Caller) (r : Request)
  | writeInitialized
  | idle
  | failed (e : HookError)

/-- The arguments of `connect` and the fields of a client. The rest is the history: how often the
pipe was opened, the process found to serve it, the texts handed to `write_all`, the lines read, the
calls made, and what `call_tool` returned, with the request it made. -/
structure McpClient where
  pipePath : String
  token : String
  expectedServerPid : Nat
  nextId : Nat
  await : Await
  opens : Nat
  servedBy : Option Nat
  written : List String
  lines : List String
  calls : List (String × Json)
  results : List (Request × Except HookError Json)

/-- What a client is answered by the system and by the server, and the calls that it gets or that
are given up. -/
inductive ClientEvent
  | opened (r : Except IoError Unit)
  | delayOver
  | serverPid (pid : Option Nat)
  | written (r : Except String Unit)
  | line (r : Except String String)
  | call (name : String) (arguments : Json)
  | giveUp

namespace McpClient

/-- A message of the hook as a line: the printed value and a newline. -/
def messageLine (v : Json) : String := v.toText ++ "\n"

/-- A text is handed to `write_all`, and the client waits for it. -/
def write (c : McpClient) (text : String) (await : Await) : McpClient :=
  { c with await, written := c.written ++ [text] }

/-- The first part of `request`: the next id is taken, and the line is handed over. -/
def request (c : McpClient) (caller : Caller) (method : String) (params : Json) : McpClient :=
  let r : Request := ⟨c.nextId, method, params⟩
  { c with nextId := c.nextId + 1 }.write (messageLine r.toJson) (.writeRequest caller r)

/-- The parameters of `initialize`: the version of the protocol and the name of the client. -/
def initializeParams : Json :=
  .obj [("protocolVersion", .str "2024-11-05"), ("capabilities", .obj []),
    ("clientInfo", .obj [("name", .str "tg-hook"), ("version", .str "0.0.1")])]

/-- The notification that follows the answer to `initialize`; it has no id. -/
def initialized : Json :=
  .obj [("jsonrpc", .str "2.0"), ("method", .str "notifications/initialized")]

/-- The parameters of `tools/call`: the name of the tool and its arguments. -/
def callToolParams (name : String) (arguments : Json) : Json :=
  .obj [("name", .str name), ("arguments", arguments)]

/-- `call_tool`: a request with the next id, for the tool and its arguments. -/
def callTool (c : McpClient) (name : String) (arguments : Json) : McpClient :=
  { c with calls := c.calls ++ [(name, arguments)] }.request .callTool "tools/call"
    (callToolParams name arguments)

/-- What `call_tool` makes of a response: the result, or the error that the tool or the server
gave. -/
def toolResult (resp : Json) : Except HookError Json :=
  match resp.get "error" with
  | some err => .error (.messages ["MCP tool error: " ++ err.toText])
  | none =>
    match resp.get "result" with
    | some result => .ok result
    | none => .error (.messages ["MCP response missing result: " ++ resp.toText])

/-- `request` returns to its caller, which goes on with the result. -/
def finish (c : McpClient) (r : Request) (response : Except HookError Json) : Caller → McpClient
  | .initializing =>
    match response with
    | .ok _ => c.write (messageLine initialized) .writeInitialized
    | .error e => { c with await := .failed e }
  | .callTool => { c with await := .idle, results := c.results ++ [(r, response.bind toolResult)] }

/-- The loop of `open_with_retry` when an attempt is over: a busy pipe is tried again after a
pause. -/
def opened (c : McpClient) (tries : Nat) (r : Except IoError Unit) : McpClient :=
  let c := { c with opens := c.opens + 1 }
  match r with
  | .ok () => { c with await := .serverPid }
  | .error e =>
    if e.rawOsError = some errorPipeBusy then { c with await := .retryDelay tries }
    else { c with await := .failed (.messages ["opening pipe " ++ c.pipePath, e.message]) }

/-- The pause after a busy pipe is over: another attempt, or the error that says how many there
were. -/
def delayOver (c : McpClient) : Nat → McpClient
  | 0 => { c with await := .failed (.messages
      ["pipe " ++ c.pipePath ++ " stayed busy after " ++ toString pipeOpenRetries ++ " retries"]) }
  | tries + 1 => { c with await := .openPipe tries }

/-- `connect` when it knows who serves the pipe: only the process of the record gets the token. -/
def checkServer (c : McpClient) (pid : Option Nat) : McpClient :=
  let c := { c with servedBy := pid }
  match pid with
  | none => { c with await := .failed (.messages ["querying named-pipe server pid"]) }
  | some serverPid =>
    if serverPid ≠ c.expectedServerPid then
      { c with await := .failed (.messages
        ["pipe server pid " ++ toString serverPid ++ " does not match discovery record pid " ++
          toString c.expectedServerPid ++ " — record may be stale or tampered"]) }
    else c.write (authText c.token) .writeAuth

variable [ReadJson]

/-- What the loop of `request` makes of a line: what it returns, if it does not go on. -/
def response (id : Nat) (line : Except String String) : Option (Except HookError Json) :=
  match line with
  | .error e => some (.error (.messages ["reading response line", e]))
  | .ok line =>
    let trimmed := trim line.toList
    if line.isEmpty then some (.error (.messages ["pipe closed mid-request"]))
    else if trimmed.isEmpty then none
    else
      match ReadJson.fromStr (String.ofList trimmed) with
      | .error e => some (.error (.messages ["parsing JSON-RPC response", e]))
      | .ok v => if responseId v = some id then some (.ok v) else none

/-- A line was read: it is skipped, or it is the response that the request waits for. -/
def gotLine (c : McpClient) (caller : Caller) (r : Request) (line : Except String String) :
    McpClient :=
  let c := { c with lines := c.lines ++ line.toOption.toList }
  match response r.id line with
  | some response => c.finish r response caller
  | none => c

/-- What the awaited operation returns, or a call or its end by the caller; an event that the client
does not await is refused. -/
def step : ClientEvent → McpClient → Option McpClient
  | .opened r, c =>
    match c.await with
    | .openPipe tries => some (c.opened tries r)
    | _ => none
  | .delayOver, c =>
    match c.await with
    | .retryDelay tries => some (c.delayOver tries)
    | _ => none
  | .serverPid pid, c =>
    match c.await with
    | .serverPid => some (c.checkServer pid)
    | _ => none
  | .written r, c =>
    match c.await, r with
    | .writeAuth, .ok () => some (c.request .initializing "initialize" initializeParams)
    | .writeAuth, .error e => some { c with await := .failed (.messages ["writing AUTH line", e]) }
    | .writeRequest caller r, .ok () => some { c with await := .readLine caller r }
    | .writeRequest caller r, .error e =>
      some (c.finish r (.error (.messages ["writing request", e])) caller)
    | .writeInitialized, .ok () => some { c with await := .idle }
    | .writeInitialized, .error e =>
      some { c with await := .failed (.messages ["sending notifications/initialized", e]) }
    | _, _ => none
  | .line l, c =>
    match c.await with
    | .readLine caller r => some (c.gotLine caller r l)
    | _ => none
  | .call name arguments, c =>
    match c.await with
    | .idle => some (c.callTool name arguments)
    | _ => none
  | .giveUp, c =>
    -- the future of a call is dropped
    match c.await with
    | .writeRequest .callTool _ | .readLine .callTool _ => some { c with await := .idle }
    | _ => none

end McpClient

/-- A client at the start of `connect`, as a system. -/
def mcpClient [ReadJson] : System McpClient ClientEvent where
  init c := c.nextId = 1 ∧ c.await = .openPipe (pipeOpenRetries - 1) ∧ c.opens = 0 ∧
    c.servedBy = none ∧ c.written = [] ∧ c.lines = [] ∧ c.calls = [] ∧
      c.results = []
  step := McpClient.step

/-! ## What is written -/

/-- The requests of these calls, with the ids after the one of `initialize`. -/
def toolRequests (calls : List (String × Json)) : List Request :=
  (calls.zipIdx 2).map fun call =>
    ⟨call.2, "tools/call", McpClient.callToolParams call.1.1 call.1.2⟩

/-- The first request, whose id is 1. -/
def initializeRequest : Request := ⟨1, "initialize", McpClient.initializeParams⟩

/-- One more call is one more request, with the next id. -/
theorem toolRequests_append (calls : List (String × Json)) (name : String) (arguments : Json) :
    toolRequests (calls ++ [(name, arguments)]) = toolRequests calls ++
      [⟨calls.length + 2, "tools/call", McpClient.callToolParams name arguments⟩] := by
  simp [toolRequests, List.zipIdx_append, Nat.add_comm]

/-- All that is written for these calls, from the line of the token on. -/
def transcript (token : String) (calls : List (String × Json)) : List String :=
  [authText token, McpClient.messageLine initializeRequest.toJson,
    McpClient.messageLine McpClient.initialized] ++
  (toolRequests calls).map fun r => McpClient.messageLine r.toJson

/-- One more call is one more line at the end of the transcript. -/
theorem transcript_append (token : String) (calls : List (String × Json)) (name : String)
    (arguments : Json) :
    transcript token (calls ++ [(name, arguments)]) = transcript token calls ++
      [McpClient.messageLine (Request.toJson
        ⟨calls.length + 2, "tools/call", McpClient.callToolParams name arguments⟩)] := by
  simp [transcript, toolRequests_append]

/-- While `connect` runs, so many lines of the transcript were handed over, and no call was made
yet. -/
structure Connecting (c : McpClient) (n : Nat) : Prop where
  written : c.written = (transcript c.token []).take n
  calls : c.calls = []
  results : c.results = []

/-- After `connect` every line of the transcript is handed over, and the id of the next request is
the one after the last call's. -/
structure Connected (c : McpClient) : Prop where
  written : c.written = transcript c.token c.calls
  nextId : c.nextId = c.calls.length + 2

/-- What holds of a client that waits for this, or has come to it. -/
def Await.Fits (c : McpClient) : Await → Prop
  | .openPipe tries => Connecting c 0 ∧ c.nextId = 1 ∧ c.opens + tries < pipeOpenRetries
  | .retryDelay tries => Connecting c 0 ∧ c.nextId = 1 ∧ c.opens + tries ≤ pipeOpenRetries
  | .serverPid => Connecting c 0 ∧ c.nextId = 1
  | .writeAuth => Connecting c 1 ∧ c.nextId = 1
  | .writeRequest .initializing r | .readLine .initializing r =>
    Connecting c 2 ∧ c.nextId = 2 ∧ r = initializeRequest
  | .writeInitialized => Connecting c 3 ∧ c.nextId = 2
  | .writeRequest .callTool r | .readLine .callTool r =>
    Connected c ∧ (c.results.map (·.1) ++ [r]).Sublist (toolRequests c.calls)
  | .idle => Connected c
  | .failed _ => ∃ n, Connecting c n

variable {c : McpClient}

/-- The next line of `connect` is handed over, when the pipe is served by the right process. -/
theorem Connecting.write {n : Nat} (h : Connecting c n) (text : String) (await : Await)
    (htext : (transcript c.token [])[n]? = some text) :
    Connecting (c.write text await) (n + 1) := by
  refine ⟨?_, h.calls, h.results⟩
  change c.written ++ [text] = (transcript c.token []).take (n + 1)
  rw [h.written, List.take_add_one, htext]
  rfl

/-- A client that is still connecting has written a part of the handshake. -/
theorem Connecting.wrote {n : Nat} (h : Connecting c n) :
    c.written <+: transcript c.token c.calls := by
  rw [h.written, h.calls]
  exact List.take_prefix _ _

section
variable [ReadJson]

/-- A response to this request, with its result, among the lines that were read. -/
def Answers (r : Request) (line : String) (result : Json) : Prop :=
  ∃ v, ReadJson.fromStr (String.ofList (trim line.toList)) = .ok v ∧ responseId v = some r.id ∧
    v.get "error" = none ∧ v.get "result" = some result

/-- What holds of a client at any time, whatever it waits for and whatever was answered. This is the
part of the invariant that is visible from outside; `Conforms` adds what it waits for. -/
structure Session (c : McpClient) : Prop where
  opens : c.opens ≤ pipeOpenRetries
  /-- Nothing is written before the process is found to be the one of the record. -/
  checked : c.written ≠ [] → c.servedBy = some c.expectedServerPid
  /-- What is written is one line after another. -/
  written : c.written <+: transcript c.token c.calls
  /-- Each call returns once at most, in order. -/
  requests : (c.results.map (·.1)).Sublist (toolRequests c.calls)
  /-- A result is from a line that was read and has the id of the request. -/
  answers : ∀ e ∈ c.results, ∀ result, e.2 = .ok result →
    ∃ line ∈ c.lines, Answers e.1 line result

/-- What holds of a client, by what it waits for. -/
structure Conforms (c : McpClient) : Prop where
  session : Session c
  await : c.await.Fits c

/-! ## One step -/

/-- What a client waits for is not part of the history. -/
theorem Session.await (h : Session c) (await : Await) : Session { c with await } :=
  ⟨h.opens, h.checked, h.written, h.requests, h.answers⟩

/-- Another text may be handed over when the pipe is served by the right process and the text is the
next of the transcript. -/
theorem Session.write (h : Session c) {text : String} {await : Await}
    (hserved : c.servedBy = some c.expectedServerPid)
    (hwritten : c.written ++ [text] <+: transcript c.token c.calls) :
    Session (c.write text await) :=
  ⟨h.opens, fun _ => hserved, hwritten, h.requests, h.answers⟩

/-- After the first line, the process behind the pipe has been checked, since the check stands
between opening the pipe and writing to it. -/
theorem Conforms.served {n : Nat} (h : Conforms c) (hn : Connecting c (n + 1)) :
    c.servedBy = some c.expectedServerPid := by
  refine h.session.checked ?_
  rw [hn.written]
  exact nofun

/-- An attempt to open the pipe keeps the invariant: a pipe that was busy is tried again, unless
this was the last attempt. -/
theorem Conforms.opened (h : Conforms c) {tries : Nat} (hawait : c.await = .openPipe tries)
    (r : Except IoError Unit) : Conforms (c.opened tries r) := by
  have hfits := h.await
  rw [hawait] at hfits
  obtain ⟨hconnecting, hnext, hlt⟩ := hfits
  have hsession (await : Await) : Session { c with opens := c.opens + 1, await } :=
    ⟨by change c.opens + 1 ≤ _; omega, h.session.checked, h.session.written, h.session.requests,
      h.session.answers⟩
  have hstart (await : Await) : Connecting { c with opens := c.opens + 1, await } 0 :=
    ⟨hconnecting.written, hconnecting.calls, hconnecting.results⟩
  unfold McpClient.opened
  dsimp only
  split
  · exact ⟨hsession _, hstart _, hnext⟩
  · split
    · refine ⟨hsession _, hstart _, hnext, ?_⟩
      change c.opens + 1 + tries ≤ _
      omega
    · exact ⟨hsession _, 0, hstart _⟩

/-- The end of a pause keeps the invariant. -/
theorem Conforms.delayOver (h : Conforms c) {tries : Nat} (hawait : c.await = .retryDelay tries) :
    Conforms (c.delayOver tries) := by
  have hfits := h.await
  rw [hawait] at hfits
  obtain ⟨hconnecting, hnext, hle⟩ := hfits
  have hstart (await : Await) : Connecting { c with await } 0 :=
    ⟨hconnecting.written, hconnecting.calls, hconnecting.results⟩
  cases tries with
  | zero => exact ⟨h.session.await _, 0, hstart _⟩
  | succ tries => exact ⟨h.session.await _, hstart _, hnext, hle⟩

/-- So does the answer which process is behind the pipe; with another one the client stops before it
writes. -/
theorem Conforms.checkServer (h : Conforms c) (hawait : c.await = .serverPid) (pid : Option Nat) :
    Conforms (c.checkServer pid) := by
  have hfits := h.await
  rw [hawait] at hfits
  obtain ⟨hconnecting, hnext⟩ := hfits
  have hnothing : c.written = [] := hconnecting.written
  have hsession (await : Await) : Session { c with servedBy := pid, await } :=
    ⟨h.session.opens, fun hne => absurd hnothing hne, h.session.written, h.session.requests,
      h.session.answers⟩
  have hstart (await : Await) : Connecting { c with servedBy := pid, await } 0 :=
    ⟨hconnecting.written, hconnecting.calls, hconnecting.results⟩
  unfold McpClient.checkServer
  dsimp only
  split
  · exact ⟨hsession _, 0, hstart _⟩
  · next serverPid =>
    split
    · exact ⟨hsession _, 0, hstart _⟩
    · next hpid =>
      have hone := (hstart c.await).write (authText c.token) .writeAuth rfl
      have hserved : some serverPid = some c.expectedServerPid := congrArg some (not_not.1 hpid)
      exact ⟨(hsession c.await).write hserved hone.wrote, hone, hnext⟩

/-- The first request keeps it, as it is the second line of the transcript. -/
theorem Conforms.initializing (h : Conforms c) (hawait : c.await = .writeAuth) :
    Conforms (c.request .initializing "initialize" McpClient.initializeParams) := by
  have hfits := h.await
  rw [hawait] at hfits
  obtain ⟨hconnecting, hnext⟩ := hfits
  have hr : (⟨c.nextId, "initialize", McpClient.initializeParams⟩ : Request) =
      initializeRequest := by
    rw [hnext]
    rfl
  have hstart : Connecting { c with nextId := c.nextId + 1 } 1 :=
    ⟨hconnecting.written, hconnecting.calls, hconnecting.results⟩
  have hsession : Session { c with nextId := c.nextId + 1 } :=
    ⟨h.session.opens, h.session.checked, h.session.written, h.session.requests, h.session.answers⟩
  unfold McpClient.request
  dsimp only
  rw [hr]
  have htwo := hstart.write (McpClient.messageLine initializeRequest.toJson)
    (.writeRequest .initializing initializeRequest) rfl
  exact ⟨hsession.write (h.served hconnecting) htwo.wrote, htwo, congrArg (· + 1) hnext, rfl⟩

/-- What comes after the response to it keeps it, too. -/
theorem Conforms.initialized (h : Conforms c) {r : Request} (hconnecting : Connecting c 2)
    (hnext : c.nextId = 2) (response : Except HookError Json) :
    Conforms (c.finish r response .initializing) := by
  cases response with
  | error e => exact ⟨h.session.await _, 2, hconnecting.written, hconnecting.calls,
      hconnecting.results⟩
  | ok v =>
    have hthree := hconnecting.write (McpClient.messageLine McpClient.initialized)
      .writeInitialized rfl
    exact ⟨h.session.write (h.served hconnecting) hthree.wrote, hthree, hnext⟩

/-- A call keeps it: its line is the next of the transcript. -/
theorem Conforms.callTool (h : Conforms c) (hawait : c.await = .idle) (name : String)
    (arguments : Json) : Conforms (c.callTool name arguments) := by
  have hfits := h.await
  rw [hawait] at hfits
  obtain ⟨hwritten, hnext⟩ := hfits
  have hserved : c.servedBy = some c.expectedServerPid := by
    refine h.session.checked ?_
    rw [hwritten]
    exact nofun
  have hlines := transcript_append c.token c.calls name arguments
  have hrequests := toolRequests_append c.calls name arguments
  unfold McpClient.callTool McpClient.request
  dsimp only
  rw [hnext]
  have hall : c.written ++ [McpClient.messageLine (Request.toJson
      ⟨c.calls.length + 2, "tools/call", McpClient.callToolParams name arguments⟩)] =
        transcript c.token (c.calls ++ [(name, arguments)]) := by rw [hlines, hwritten]
  refine ⟨⟨h.session.opens, fun _ => hserved, ?_, ?_, h.session.answers⟩, ⟨hall, ?_⟩, ?_⟩
  · exact (congrArg (· <+: _) hall).mpr List.prefix_rfl
  · change (c.results.map (·.1)).Sublist (toolRequests (c.calls ++ [(name, arguments)]))
    rw [hrequests]
    exact h.session.requests.trans (List.sublist_append_left _ _)
  · change c.calls.length + 2 + 1 = (c.calls ++ [(name, arguments)]).length + 2
    rw [List.length_append, List.length_singleton]
  · change (c.results.map Prod.fst ++ [_]).Sublist (toolRequests (c.calls ++ [(name, arguments)]))
    rw [hrequests]
    exact h.session.requests.append (List.Sublist.refl _)

/-- A call returns, with a result from the last line if with any. -/
theorem Conforms.returned (h : Conforms c) {r : Request} (hconnected : Connected c)
    (hrequests : (c.results.map (·.1) ++ [r]).Sublist (toolRequests c.calls))
    {response : Except HookError Json}
    (hresponse : ∀ v, response = .ok v → responseId v = some r.id ∧
      ∃ line ∈ c.lines, ReadJson.fromStr (String.ofList (trim line.toList)) = .ok v) :
    Conforms (c.finish r response .callTool) := by
  refine ⟨⟨h.session.opens, h.session.checked, h.session.written, ?_, ?_⟩, hconnected.written,
    hconnected.nextId⟩
  · change ((c.results ++ [(r, _)]).map Prod.fst).Sublist _
    rw [List.map_append]
    exact hrequests
  · intro e he result hresult
    rcases List.mem_append.1 he with he | he
    · exact h.session.answers e he result hresult
    · rw [List.mem_singleton.1 he] at hresult ⊢
      cases response with
      | error e => cases hresult
      | ok v =>
        obtain ⟨hid, line, hline, hparse⟩ := hresponse v rfl
        refine ⟨line, hline, v, hparse, hid, ?_⟩
        change McpClient.toolResult v = .ok result at hresult
        unfold McpClient.toolResult at hresult
        split at hresult
        · cases hresult
        · next herror =>
          split at hresult
          · next hsome =>
            cases hresult
            exact ⟨herror, hsome⟩
          · cases hresult

/-- What `request` returns after a line, when it returns a value, is that line. -/
theorem response_eq_ok_iff {id : Nat} {line : Except String String} {v : Json} :
    McpClient.response id line = some (.ok v) ↔ ∃ text, line = .ok text ∧ text ≠ "" ∧
      trim text.toList ≠ [] ∧ ReadJson.fromStr (String.ofList (trim text.toList)) = .ok v ∧
        responseId v = some id := by
  unfold McpClient.response
  cases line with
  | error e => simp
  | ok text =>
    simp only [Except.ok.injEq, exists_eq_left']
    by_cases hempty : text = ""
    · simp [hempty]
    · by_cases hblank : trim text.toList = []
      · simp [hempty, hblank]
      · simp only [String.isEmpty_iff, hempty, List.isEmpty_iff, hblank, if_false]
        cases ReadJson.fromStr (String.ofList (trim text.toList)) with
        | error e => simp
        | ok u =>
          by_cases hid : responseId u = some id
          · simp only [if_pos hid, Option.some.injEq, Except.ok.injEq]
            refine ⟨?_, fun h => h.2.2.1⟩
            rintro rfl
            exact ⟨hempty, hblank, rfl, hid⟩
          · simp only [if_neg hid]
            refine iff_of_false nofun ?_
            rintro ⟨-, -, heq, hv⟩
            cases heq
            exact hid hv

/-- So does a line of the server: it is skipped, or ends the request with a result or an error. -/
theorem Conforms.gotLine (h : Conforms c) {caller : Caller} {r : Request}
    (hawait : c.await = .readLine caller r) (line : Except String String) :
    Conforms (c.gotLine caller r line) := by
  have hfits := h.await
  rw [hawait] at hfits
  have hsession : Session { c with lines := c.lines ++ line.toOption.toList } := by
    refine ⟨h.session.opens, h.session.checked, h.session.written, h.session.requests, ?_⟩
    intro e he result hresult
    obtain ⟨text, htext, hanswers⟩ := h.session.answers e he result hresult
    exact ⟨text, List.mem_append_left _ htext, hanswers⟩
  have hconforms : Conforms { c with lines := c.lines ++ line.toOption.toList } := by
    refine ⟨hsession, ?_⟩
    dsimp only
    rw [hawait]
    cases caller with
    | initializing => exact ⟨⟨hfits.1.written, hfits.1.calls, hfits.1.results⟩, hfits.2⟩
    | callTool => exact ⟨⟨hfits.1.written, hfits.1.nextId⟩, hfits.2⟩
  unfold McpClient.gotLine
  dsimp only
  split
  · next response hsome =>
    cases caller with
    | initializing =>
      exact hconforms.initialized ⟨hfits.1.written, hfits.1.calls, hfits.1.results⟩ hfits.2.1 _
    | callTool =>
      refine hconforms.returned ⟨hfits.1.written, hfits.1.nextId⟩ hfits.2 ?_
      rintro v rfl
      obtain ⟨text, rfl, -, -, hparse, hid⟩ := response_eq_ok_iff.1 hsome
      exact ⟨hid, text, List.mem_append_right _ (List.mem_singleton_self _), hparse⟩
  · exact hconforms

/-- A failure of `connect` keeps it, as nothing more is written. -/
theorem Conforms.failed (h : Conforms c) {n : Nat} (hconnecting : Connecting c n) (e : HookError) :
    Conforms { c with await := .failed e } :=
  ⟨h.session.await _, n, hconnecting.written, hconnecting.calls, hconnecting.results⟩

/-- A text that was written keeps it, and the client waits for the answer. -/
theorem Conforms.wrote (h : Conforms c) {r : Except String Unit} {c' : McpClient}
    (hs : c.step (.written r) = some c') : Conforms c' := by
  have hfits := h.await
  unfold McpClient.step at hs
  dsimp only at hs
  split at hs
  · next hawait =>
    cases hs
    exact h.initializing hawait
  · next e hawait =>
    cases hs
    rw [hawait] at hfits
    exact h.failed hfits.1 _
  · next caller r hawait =>
    cases hs
    rw [hawait] at hfits
    refine ⟨h.session.await _, ?_⟩
    cases caller with
    | initializing => exact ⟨⟨hfits.1.written, hfits.1.calls, hfits.1.results⟩, hfits.2⟩
    | callTool => exact ⟨⟨hfits.1.written, hfits.1.nextId⟩, hfits.2⟩
  · next caller r e hawait =>
    cases hs
    rw [hawait] at hfits
    cases caller with
    | initializing => exact h.failed hfits.1 _
    | callTool => exact h.returned hfits.1 hfits.2 nofun
  · next hawait =>
    cases hs
    rw [hawait] at hfits
    obtain ⟨hconnecting, hnext⟩ := hfits
    refine ⟨h.session.await _, ?_, ?_⟩
    · change c.written = transcript c.token c.calls
      rw [hconnecting.written, hconnecting.calls]
      rfl
    · change c.nextId = c.calls.length + 2
      rw [hnext, hconnecting.calls]
      rfl
  · next e hawait =>
    cases hs
    rw [hawait] at hfits
    exact h.failed hfits.1 _
  · cases hs

/-- A call that is given up keeps it: its answer may still come, and is skipped. -/
theorem Conforms.giveUp (h : Conforms c) {r : Request}
    (hawait : c.await = .writeRequest .callTool r ∨ c.await = .readLine .callTool r) :
    Conforms { c with await := .idle } := by
  have hconnected : Connected c := by
    have hfits := h.await
    rcases hawait with hawait | hawait
    · rw [hawait] at hfits
      exact hfits.1
    · rw [hawait] at hfits
      exact hfits.1
  exact ⟨h.session.await _, hconnected.written, hconnected.nextId⟩

/-- Every event keeps the invariant, by one case for each. In a state that does not wait for the
event there is no step, so that a case has only the states that do. -/
theorem Conforms.step (h : Conforms c) {i : ClientEvent} {c' : McpClient}
    (hs : c.step i = some c') : Conforms c' := by
  cases i with
  | written r => exact h.wrote hs
  | opened r =>
    unfold McpClient.step at hs
    dsimp only at hs
    split at hs
    · next tries hawait =>
      cases hs
      exact h.opened hawait r
    · cases hs
  | delayOver =>
    unfold McpClient.step at hs
    dsimp only at hs
    split at hs
    · next tries hawait =>
      cases hs
      exact h.delayOver hawait
    · cases hs
  | serverPid pid =>
    unfold McpClient.step at hs
    dsimp only at hs
    split at hs
    · next hawait =>
      cases hs
      exact h.checkServer hawait pid
    · cases hs
  | line l =>
    unfold McpClient.step at hs
    dsimp only at hs
    split at hs
    · next caller r hawait =>
      cases hs
      exact h.gotLine hawait l
    · cases hs
  | call name arguments =>
    unfold McpClient.step at hs
    dsimp only at hs
    split at hs
    · next hawait =>
      cases hs
      exact h.callTool hawait name arguments
    · cases hs
  | giveUp =>
    unfold McpClient.step at hs
    dsimp only at hs
    split at hs
    · next r hawait =>
      cases hs
      exact h.giveUp (.inl hawait)
    · next r hawait =>
      cases hs
      exact h.giveUp (.inr hawait)
    · cases hs

/-! ## Any run -/

/-- So the invariant holds in every state of every run, with no condition on what the system and the
server answer, nor on when a call is given up. -/
theorem conforms_of_reached (h : mcpClient.Reached (fun _ _ => True) c) : Conforms c := by
  refine h.invariant ?_ fun c i c' hc _ hs => hc.step hs
  rintro c ⟨hnext, hawait, hopens, hserved, hwritten, hlines, hcalls, hresults⟩
  refine ⟨⟨?_, ?_, ?_, ?_, ?_⟩, ?_⟩
  · rw [hopens]
    exact Nat.zero_le _
  · exact fun hne => absurd hwritten hne
  · rw [hwritten]
    exact List.nil_prefix
  · rw [hresults]
    exact List.nil_sublist _
  · rw [hresults]
    exact nofun
  · rw [hawait]
    refine ⟨⟨hwritten, hcalls, hresults⟩, hnext, ?_⟩
    rw [hopens]
    decide

/-- In every run of a client, whatever the system and the server answer, and whichever calls are
given up: the pipe is opened ten times at most; nothing is written before the process that serves it
is found to be the one of the record; what is written are the lines of the transcript, in order;
each call returns once at most, and with the result of a line that has its own id. -/
theorem session_of_reached (c : McpClient) (h : mcpClient.Reached (fun _ _ => True) c) :
    Session c :=
  (conforms_of_reached h).session

/-! ## A server that answers -/

/-- A line that the loop of `request` passes over: a blank one, or a message with another id. -/
def Skipped (id : Nat) (line : String) : Prop :=
  line ≠ "" ∧ (trim line.toList = [] ∨
    ∃ v, ReadJson.fromStr (String.ofList (trim line.toList)) = .ok v ∧ responseId v ≠ some id)

/-- A line with the response to a request, and no other request's. -/
def Responds (id : Nat) (line : String) (v : Json) : Prop :=
  line ≠ "" ∧ trim line.toList ≠ [] ∧
    ReadJson.fromStr (String.ofList (trim line.toList)) = .ok v ∧ responseId v = some id

/-- What the server writes after a request: lines that are passed over, and one that is not. -/
structure Answer where
  skipped : List String
  line : String
  response : Json

/-- The lines a server writes up to the answer to a request: those in front of it are skipped, and
it responds. -/
structure Answer.To (a : Answer) (id : Nat) : Prop where
  skipped : ∀ line ∈ a.skipped, Skipped id line
  responds : Responds id a.line a.response

/-- The client reads the lines of an answer, one after another. -/
def Answer.events (a : Answer) : List ClientEvent :=
  (a.skipped ++ [a.line]).map fun line => .line (.ok line)

/-- A line that is skipped gives no response to this request. -/
theorem response_of_skipped {id : Nat} {line : String} (h : Skipped id line) :
    McpClient.response id (.ok line) = none := by
  obtain ⟨hne, hblank | ⟨v, hparse, hid⟩⟩ := h
  · simp [McpClient.response, hne, hblank]
  · by_cases hblank : trim line.toList = []
    · simp [McpClient.response, hne, hblank]
    · simp [McpClient.response, hne, hblank, hparse, hid]

/-- The request returns with the response, whatever was passed over before it. -/
theorem exec_answer {caller : Caller} {r : Request} (hawait : c.await = .readLine caller r)
    {a : Answer} (ha : a.To r.id) :
    mcpClient.exec a.events c = some (McpClient.finish
      { c with lines := c.lines ++ (a.skipped ++ [a.line]) } r (.ok a.response) caller) := by
  obtain ⟨skipped, line, v⟩ := a
  obtain ⟨hskipped, hresponds⟩ := ha
  unfold Answer.events
  dsimp only at hskipped hresponds ⊢
  have hread (c : McpClient) (hawait : c.await = .readLine caller r) (l : Except String String) :
      mcpClient.step (.line l) c = some (c.gotLine caller r l) := by
    rw [show mcpClient.step (.line l) c = McpClient.step (.line l) c from rfl, McpClient.step,
      hawait]
  induction skipped generalizing c with
  | nil =>
    have hresponse : McpClient.response r.id (.ok line) = some (.ok v) :=
      response_eq_ok_iff.2 ⟨line, rfl, hresponds⟩
    rw [List.nil_append, List.map_singleton, System.exec, hread c hawait, Option.bind_some,
      McpClient.gotLine, hresponse]
    rfl
  | cons l skipped ih =>
    rw [List.cons_append, List.map_cons, System.exec, hread c hawait, Option.bind_some,
      McpClient.gotLine, response_of_skipped (hskipped l List.mem_cons_self)]
    refine (ih (c := { c with lines := c.lines ++ [l] }) hawait
      (fun l hl => hskipped l (List.mem_cons_of_mem _ hl))).trans ?_
    rw [List.append_assoc]
    rfl

/-- A call, and what the server answers to it: other lines first, in any number, and then the one
with its id. -/
structure Exchange where
  name : String
  arguments : Json
  answer : Answer

/-- What the client goes through in one call: its request is written and the lines of the answer are
read. -/
def Exchange.events (x : Exchange) : List ClientEvent :=
  [.call x.name x.arguments, .written (.ok ())] ++ x.answer.events

/-- What the call returns, when it made the request with this id. -/
def Exchange.result (x : Exchange) (id : Nat) : Request × Except HookError Json :=
  (⟨id, "tools/call", McpClient.callToolParams x.name x.arguments⟩,
    McpClient.toolResult x.answer.response)

/-- A call that is answered returns, and leaves the client ready for the next. -/
theorem exec_exchange (hawait : c.await = .idle) {x : Exchange} (hx : x.answer.To c.nextId) :
    ∃ c', mcpClient.exec x.events c = some c' ∧ c'.await = .idle ∧ c'.nextId = c.nextId + 1 ∧
      c'.token = c.token ∧ c'.calls = c.calls ++ [(x.name, x.arguments)] ∧
      c'.results = c.results ++ [x.result c.nextId] := by
  obtain ⟨c₁, hcall, hawait₁, hnext, htoken, hcalls, hresults⟩ :
      ∃ c₁, mcpClient.exec [.call x.name x.arguments, .written (.ok ())] c = some c₁ ∧
        c₁.await = .readLine .callTool (x.result c.nextId).1 ∧ c₁.nextId = c.nextId + 1 ∧
          c₁.token = c.token ∧ c₁.calls = c.calls ++ [(x.name, x.arguments)] ∧
            c₁.results = c.results := by
    refine ⟨{ c.callTool x.name x.arguments with
      await := .readLine .callTool (x.result c.nextId).1 }, ?_, rfl, rfl, rfl, rfl, rfl⟩
    simp [System.exec, mcpClient, McpClient.step, hawait, McpClient.callTool, McpClient.request,
      McpClient.write, Exchange.result]
  have hanswer := exec_answer hawait₁ hx
  refine ⟨McpClient.finish { c₁ with lines := c₁.lines ++ (x.answer.skipped ++ [x.answer.line]) }
    (x.result c.nextId).1 (.ok x.answer.response) .callTool, ?_, rfl, hnext, htoken, hcalls, ?_⟩
  · rw [Exchange.events, System.exec_append, hcall, Option.bind_some, hanswer]
  · rw [← hresults]
    rfl

/-- Any number of calls return with their responses, by induction on them: each starts where the one
before it ended, in a client that waits for nothing. -/
theorem exec_exchanges {xs : List Exchange} (hawait : c.await = .idle)
    (hxs : ∀ x ∈ xs.zipIdx c.nextId, x.1.answer.To x.2) :
    ∃ c', mcpClient.exec (xs.flatMap Exchange.events) c = some c' ∧ c'.await = .idle ∧
      c'.token = c.token ∧ c'.calls = c.calls ++ xs.map (fun x => (x.name, x.arguments)) ∧
      c'.results = c.results ++ (xs.zipIdx c.nextId).map fun x => x.1.result x.2 := by
  induction xs generalizing c with
  | nil => exact ⟨c, rfl, hawait, rfl, by simp, by simp⟩
  | cons x xs ih =>
    rw [List.zipIdx_cons, List.forall_mem_cons] at hxs
    obtain ⟨c₁, hexec, hidle, hnext, htoken, hcalls, hresults⟩ := exec_exchange hawait hxs.1
    rw [← hnext] at hxs
    obtain ⟨c', hexec', hidle', htoken', hcalls', hresults'⟩ := ih hidle hxs.2
    refine ⟨c', ?_, hidle', htoken'.trans htoken, ?_, ?_⟩
    · rw [List.flatMap_cons, System.exec_append, hexec, Option.bind_some, hexec']
    · rw [hcalls', hcalls, List.append_assoc]
      rfl
    · rw [hresults', hresults, hnext, List.append_assoc]
      rfl

/-- The pipe is busy for so many attempts, each followed by a pause. -/
def busyEvents (e : IoError) (busy : Nat) : List ClientEvent :=
  (List.replicate busy [ClientEvent.opened (.error e), .delayOver]).flatten

/-- While the pipe is busy and attempts are left, each attempt and each pause are one step of the
client. -/
theorem exec_busy {e : IoError} (he : e.rawOsError = some errorPipeBusy) (busy tries : Nat)
    (hawait : c.await = .openPipe (busy + tries)) :
    mcpClient.exec (busyEvents e busy) c =
      some { c with await := .openPipe tries, opens := c.opens + busy } := by
  induction busy generalizing c with
  | zero =>
    rw [Nat.zero_add] at hawait
    rw [← hawait]
    rfl
  | succ busy ih =>
    have hbusy : mcpClient.exec [.opened (.error e), .delayOver] c =
        some { c with opens := c.opens + 1, await := .openPipe (busy + tries) } := by
      rw [Nat.add_right_comm] at hawait
      simp [System.exec, mcpClient, McpClient.step, hawait, McpClient.opened, he,
        McpClient.delayOver]
    rw [busyEvents, List.replicate_succ, List.flatten_cons, System.exec_append, hbusy,
      Option.bind_some]
    refine (ih rfl).trans ?_
    rw [Nat.add_right_comm, Nat.add_assoc]

/-- All that happens during `connect`, up to the notification. -/
def connectEvents (e : IoError) (busy pid : Nat) (a : Answer) : List ClientEvent :=
  busyEvents e busy ++
    [.opened (.ok ()), .serverPid (some pid), .written (.ok ()), .written (.ok ())] ++
    a.events ++ [.written (.ok ())]

/-- A client whose pipe is busy fewer than ten times is connected, and has the next id 2 and no
results. -/
theorem exec_connect (hinit : mcpClient.init c) {e : IoError}
    (he : e.rawOsError = some errorPipeBusy) {busy : Nat} (hbusy : busy < pipeOpenRetries)
    {a : Answer} (ha : a.To 1) :
    ∃ c', mcpClient.exec (connectEvents e busy c.expectedServerPid a) c = some c' ∧
      c'.await = .idle ∧ c'.nextId = 2 ∧ c'.token = c.token ∧ c'.calls = [] ∧ c'.results = [] := by
  obtain ⟨hnext, hawait, hopens, hserved, hwritten, hlines, hcalls, hresults⟩ := hinit
  have htries : pipeOpenRetries - 1 = busy + (pipeOpenRetries - 1 - busy) := by omega
  rw [htries] at hawait
  obtain ⟨c₁, hopened, hawait₁, hnext₁, htoken₁, hcalls₁, hresults₁⟩ :
      ∃ c₁, mcpClient.exec (busyEvents e busy ++ [.opened (.ok ()),
          .serverPid (some c.expectedServerPid), .written (.ok ()), .written (.ok ())]) c =
          some c₁ ∧
        c₁.await = .readLine .initializing initializeRequest ∧ c₁.nextId = 2 ∧
          c₁.token = c.token ∧ c₁.calls = [] ∧ c₁.results = [] := by
    rw [System.exec_append, exec_busy he busy _ hawait, Option.bind_some]
    simp [System.exec, mcpClient, McpClient.step, McpClient.opened, McpClient.checkServer,
      McpClient.write, McpClient.request, hnext, hcalls, hresults, initializeRequest]
  have hanswer := exec_answer hawait₁ ha
  rw [connectEvents, System.exec_append, System.exec_append, hopened, Option.bind_some, hanswer,
    Option.bind_some]
  exact ⟨_, rfl, rfl, hnext₁, htoken₁, hcalls₁, hresults₁⟩

/-- A client of a server that answers gets every result, however often the pipe is busy before its
last try and whatever else the server writes in between. -/
theorem session_completes (c : McpClient) (hinit : mcpClient.init c) (e : IoError)
    (he : e.rawOsError = some errorPipeBusy) (busy : Nat) (hbusy : busy < pipeOpenRetries)
    (a : Answer) (ha : a.To 1) (xs : List Exchange) (hxs : ∀ x ∈ xs.zipIdx 2, x.1.answer.To x.2) :
    ∃ c', mcpClient.exec (connectEvents e busy c.expectedServerPid a ++
        xs.flatMap Exchange.events) c = some c' ∧
      c'.await = .idle ∧
      c'.written = transcript c.token (xs.map fun x => (x.name, x.arguments)) ∧
      c'.results = (xs.zipIdx 2).map fun x => x.1.result x.2 := by
  obtain ⟨c₁, hconnect, hidle, hnext, htoken, hcalls, hresults⟩ := exec_connect hinit he hbusy ha
  rw [← hnext] at hxs
  obtain ⟨c', hexec, hidle', htoken', hcalls', hresults'⟩ := exec_exchanges hidle hxs
  have hrun : mcpClient.exec (connectEvents e busy c.expectedServerPid a ++
      xs.flatMap Exchange.events) c = some c' := by
    rw [System.exec_append, hconnect, Option.bind_some, hexec]
  have hconforms := conforms_of_reached ((System.Reached.init hinit).exec hrun)
  refine ⟨c', hrun, hidle', ?_, ?_⟩
  · have hfits := hconforms.await
    rw [hidle'] at hfits
    rw [hfits.written, htoken', htoken, hcalls', hcalls, List.nil_append]
  · rw [hresults', hresults, List.nil_append, hnext]

end

/-! ## A call that is given up -/

/-- A response to the request with this id, for the examples. -/
def replyTo (id : Nat) : Json :=
  .obj [("jsonrpc", .str "2.0"), ("id", .int id), ("result", .obj [])]

/-- A reader of three responses, for the examples. -/
@[reducible] def threeReplies : ReadJson where
  fromStr text :=
    if text = (replyTo 1).toText then .ok (replyTo 1)
    else if text = (replyTo 2).toText then .ok (replyTo 2)
    else if text = (replyTo 3).toText then .ok (replyTo 3)
    else .error "expected value"

/-- The server answers, and says nothing else. -/
def promptly (id : Nat) : Answer := ⟨[], McpClient.messageLine (replyTo id), replyTo id⟩

/-- The server answers the call before first, which was given up. -/
def belatedly (id : Nat) : Answer := { promptly (id + 1) with skipped := [(promptly id).line] }

/-- An answer without lines in front of it answers its request. -/
theorem promptly_to {id : Nat} (h : id = 1 ∨ id = 2 ∨ id = 3) :
    @Answer.To threeReplies (promptly id) id := by
  rcases h with rfl | rfl | rfl <;>
  exact @Answer.To.mk threeReplies _ _ nofun ⟨by decide, by decide, rfl, rfl⟩

/-- So does one with the late answer to another request in front of it. -/
theorem belatedly_to : @Answer.To threeReplies (belatedly 2) 3 := by
  refine @Answer.To.mk threeReplies _ _ ?_
    (@Answer.To.responds threeReplies (promptly 3) 3 (promptly_to (.inr (.inr rfl))))
  intro line hline
  rw [List.mem_singleton.1 hline]
  exact ⟨by decide, .inr ⟨replyTo 2, rfl, by decide⟩⟩

/-- A client at the start, for the examples. -/
def freshClient : McpClient :=
  ⟨sample.pipe, sample.token, sample.pid, 1, .openPipe 9, 0, none, [], [], [], []⟩

/-- A call for the messages of a chat, with its answer. -/
def poll (answer : Answer) : Exchange := ⟨"tg_history_messages", .obj [], answer⟩

/-- The first call is given up, and its response comes while the second one waits, which skips
it. -/
theorem session_of_reached_late :
    ∃ c : McpClient, c.results = [(poll (belatedly 2)).result 3] ∧ @Session threeReplies c := by
  have hinit : (@mcpClient threeReplies).init freshClient :=
    ⟨rfl, rfl, rfl, rfl, rfl, rfl, rfl, rfl⟩
  obtain ⟨c₁, hconnect, hidle, hnext, -, -, hresults⟩ :=
    @exec_connect _ threeReplies hinit ⟨some errorPipeBusy, "busy"⟩ rfl 1 (by decide) (promptly 1)
      (promptly_to (.inl rfl))
  obtain ⟨c₂, hgiven, hidle₂, hnext₂, hresults₂⟩ :
      ∃ c₂, (@mcpClient threeReplies).exec [.call "tg_history_messages" (.obj []), .giveUp] c₁ =
        some c₂ ∧ c₂.await = .idle ∧ c₂.nextId = 3 ∧ c₂.results = [] := by
    simp [System.exec, mcpClient, McpClient.step, hidle, McpClient.callTool, McpClient.request,
      McpClient.write, hnext, hresults]
  obtain ⟨c₃, hexec, -, -, -, -, hresults₃⟩ := @exec_exchange c₂ threeReplies hidle₂
    (poll (belatedly 2)) (hnext₂ ▸ belatedly_to)
  have h₃ := ((System.Reached.init hinit).exec hconnect).exec hgiven |>.exec hexec
  refine ⟨c₃, ?_, @session_of_reached threeReplies c₃ h₃⟩
  rw [hresults₃, hresults₂, hnext₂, List.nil_append]

/-- It writes a blank line first, and answers the call before again. -/
def noisily (id : Nat) : Answer := { promptly (id + 1) with skipped := ["\n", (promptly id).line] }

/-- So does one with a blank line and another request's answer in front of it. -/
theorem noisily_to : @Answer.To threeReplies (noisily 1) 2 := by
  refine @Answer.To.mk threeReplies _ _ ?_
    (@Answer.To.responds threeReplies (promptly 2) 2 (promptly_to (.inr (.inl rfl))))
  intro line hline
  rcases List.mem_pair.1 hline with rfl | rfl
  · exact ⟨by decide, .inl (by decide)⟩
  · exact ⟨by decide, .inr ⟨replyTo 1, rfl, by decide⟩⟩

/-- Two calls to a server that writes a blank line and responses to earlier requests in between,
over a pipe that is busy once. -/
theorem session_completes_two :
    ∃ c : McpClient, c.results = [(poll (noisily 1)).result 2, (poll (belatedly 2)).result 3] := by
  obtain ⟨c, -, -, -, hresults⟩ := @session_completes threeReplies freshClient
    ⟨rfl, rfl, rfl, rfl, rfl, rfl, rfl, rfl⟩ ⟨some errorPipeBusy, "busy"⟩ rfl 1 (by decide)
    (promptly 1) (promptly_to (.inl rfl)) [poll (noisily 1), poll (belatedly 2)]
    (by
      intro x hx
      rcases List.mem_pair.1 hx with rfl | rfl
      · exact noisily_to
      · exact belatedly_to)
  exact ⟨c, hresults⟩

end Hook

end TelegramMcp
