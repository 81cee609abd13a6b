import TelegramMcp.Lib.Utf8
import TelegramMcp.LocalPipe.Server

/-!
# The first line of a connection

`consumeAuthLine` reads a pipe one byte at a time, up to the first newline or one byte more than
`maxAuthLineBytes`, and compares what it read with the token. `consumeAuthLine_eq_ok_iff` says which
pipes it accepts and where it stops in them. `serving` is the pipe server with the pipes of its
clients: a task runs its handler only on a pipe that presented the token (`auth_grammar`).
-/

namespace TelegramMcp.LocalPipe

open Utf8

/-- `AuthError`: why the first line of a client is not accepted. In each case the client is dropped
before its handler runs. -/
inductive AuthError
  | io (e : String)
  | eof
  | malformed
  | badToken
  | tooLong (max : Nat)

/-- `MAX_AUTH_LINE_BYTES`: a longer line is an error, before its end is looked for. -/
def maxAuthLineBytes : Nat := 1024

/-- What each read of one byte returns, where the end of the stream is no byte, and how many reads
there were. -/
structure Pipe where
  source : Nat → Except String (Option UInt8)
  pos : Nat

namespace Pipe

/-- The next byte of the pipe, or nothing at its end, or an error. What was read is gone. -/
def read (pipe : Pipe) : Except String (Option UInt8) × Pipe :=
  (pipe.source pipe.pos, { pipe with pos := pipe.pos + 1 })

/-- The pipe after so many more reads. -/
def advance (pipe : Pipe) (n : Nat) : Pipe := { pipe with pos := pipe.pos + n }

/-- Reading on does not change what a client wrote. -/
@[simp] theorem advance_source (pipe : Pipe) (n : Nat) : (pipe.advance n).source = pipe.source :=
  rfl

/-- Reading so many bytes moves the position by as many. -/
@[simp] theorem advance_pos (pipe : Pipe) (n : Nat) : (pipe.advance n).pos = pipe.pos + n := rfl

/-- Bytes may be read in two parts. -/
theorem advance_advance (pipe : Pipe) (m n : Nat) :
    (pipe.advance m).advance n = pipe.advance (m + n) :=
  congrArg (Pipe.mk pipe.source) (Nat.add_assoc ..)

/-- A byte is read at the position, which moves on by one. -/
theorem read_eq (pipe : Pipe) : pipe.read = (pipe.source pipe.pos, pipe.advance 1) := rfl

end Pipe

/-- The byte `\n`, which ends the line. -/
def newline : UInt8 := 10

/-- The byte `\r`, of which one before the newline is dropped. -/
def carriageReturn : UInt8 := 13

/-- The loop that reads the line byte by byte, with the bytes of the line so far. -/
def readLine (pipe : Pipe) (line : List UInt8) : Except AuthError (List UInt8) × Pipe :=
  match pipe.read with
  | (.error e, pipe) => (.error (.io e), pipe)
  | (.ok none, pipe) => (.error .eof, pipe)
  | (.ok (some byte), pipe) =>
    if byte = newline then (.ok line, pipe)
    else if maxAuthLineBytes ≤ line.length then (.error (.tooLong maxAuthLineBytes), pipe)
    else readLine pipe (line ++ [byte])
termination_by maxAuthLineBytes - line.length
decreasing_by
  rw [List.length_append, List.length_singleton]
  omega

/-- One `\r` at the end of the line is dropped. -/
def stripCr (line : List UInt8) : List UInt8 :=
  if line.getLast? = some carriageReturn then line.dropLast else line

/-- `constant_time_eq`: every difference of two bytes sets a bit, so that the comparison does not
stop at the first. -/
def constantTimeEq (a b : List UInt8) : Bool :=
  if a.length ≠ b.length then false
  else (List.zipWith (· ^^^ ·) a b).foldl (· ||| ·) 0 == 0

/-- The checks on the line: it is UTF-8, starts with `AUTH ` and ends in the token. -/
def checkLine (line : List UInt8) (expectedToken : String) : Except AuthError Unit :=
  match decode (stripCr line) with
  | none => .error .malformed
  | some text =>
    match Rust.stripPrefix "AUTH " text with
    | none => .error .malformed
    | some token =>
      if constantTimeEq (encode token) (encode expectedToken) then .ok () else .error .badToken

/-- The outcome, and the pipe, which is dropped on an error. -/
def consumeAuthLine (pipe : Pipe) (expectedToken : String) : Except AuthError Unit × Pipe :=
  match readLine pipe [] with
  | (.error e, pipe) => (.error e, pipe)
  | (.ok line, pipe) => (checkLine line expectedToken, pipe)

/-! ## What is accepted -/

/-- The next bytes of the pipe are this line and the first newline after it; what comes behind it is
for whoever reads next. -/
structure Pipe.BeginsWith (pipe : Pipe) (line : List UInt8) : Prop where
  bytes : ∀ k (hk : k < line.length), pipe.source (pipe.pos + k) = .ok (some (line.get ⟨k, hk⟩))
  ended : pipe.source (pipe.pos + line.length) = .ok (some newline)
  first : newline ∉ line

/-- The line a client authenticates with, but for a `\r` at the end. -/
def authLine (token : String) : List UInt8 := encode "AUTH " ++ encode token

/-- The next line of the pipe is short enough and presents the token. -/
def Pipe.Presents (pipe : Pipe) (token : String) (line : List UInt8) : Prop :=
  pipe.BeginsWith line ∧ line.length ≤ maxAuthLineBytes ∧ stripCr line = authLine token

/-- The accumulated difference is 0 when each byte's is. -/
theorem foldl_or_eq_zero_iff (bytes : List UInt8) (diff : UInt8) :
    bytes.foldl (· ||| ·) diff = 0 ↔ diff = 0 ∧ ∀ byte ∈ bytes, byte = 0 := by
  induction bytes generalizing diff with
  | nil => simp
  | cons byte bytes ih =>
    rw [List.foldl_cons, ih, UInt8.or_eq_zero_iff, List.forall_mem_cons, and_assoc]

/-- Two lists of bytes of one length are equal when no byte differs. -/
theorem zipWith_xor_eq_zero_iff {a b : List UInt8} (h : a.length = b.length) :
    (∀ byte ∈ List.zipWith (· ^^^ ·) a b, byte = 0) ↔ a = b := by
  induction a generalizing b with
  | nil => simp [List.length_eq_zero_iff.1 h.symm]
  | cons x a ih =>
    cases b with
    | nil => cases h
    | cons y b =>
      rw [List.zipWith_cons_cons, List.forall_mem_cons, UInt8.xor_eq_zero_iff,
        ih (Nat.succ.inj h), List.cons.injEq]

/-- The comparison is equality, for all bytes of the same length and for others. -/
theorem constantTimeEq_eq_true_iff {a b : List UInt8} : constantTimeEq a b = true ↔ a = b := by
  rw [constantTimeEq]
  split
  · next h => exact iff_of_false Bool.false_ne_true fun heq => h (heq ▸ rfl)
  · next h =>
    rw [beq_iff_eq, foldl_or_eq_zero_iff, zipWith_xor_eq_zero_iff (not_not.1 h)]
    exact and_iff_right rfl

/-- The checks accept exactly one line for each token. -/
theorem checkLine_eq_ok_iff {line : List UInt8} {token : String} :
    checkLine line token = .ok () ↔ stripCr line = authLine token := by
  have hline : stripCr line = authLine token ↔ decode (stripCr line) = some ("AUTH " ++ token) := by
    rw [decode_eq_some_iff, encode_append, authLine]
  rw [hline, checkLine]
  split
  · next h => simp [h]
  · next text h =>
    rw [h, Option.some.injEq, ← Rust.stripPrefix_eq_some_iff]
    split
    · next hnone => simp [hnone]
    · next t hsome =>
      rw [hsome, Option.some.injEq]
      by_cases heq : t = token
      · simp [heq, constantTimeEq_eq_true_iff]
      · simp [heq, constantTimeEq_eq_true_iff, encode_injective.eq_iff]

/-! ## Where reading stops -/

/-- An empty line is a newline. -/
theorem beginsWith_nil_iff {pipe : Pipe} :
    pipe.BeginsWith [] ↔ pipe.source pipe.pos = .ok (some newline) :=
  ⟨fun h => h.ended, fun h => ⟨fun _ hk => absurd hk (Nat.not_lt_zero _), h, List.not_mem_nil⟩⟩

/-- A line that goes on starts with a byte that is read and is no newline. -/
theorem beginsWith_cons_iff {pipe : Pipe} {byte : UInt8} {bytes : List UInt8} :
    pipe.BeginsWith (byte :: bytes) ↔
      pipe.source pipe.pos = .ok (some byte) ∧ byte ≠ newline ∧
        (pipe.advance 1).BeginsWith bytes := by
  have hpos (k : Nat) : pipe.pos + 1 + k = pipe.pos + (k + 1) := by omega
  refine ⟨?_, ?_⟩
  · intro h
    refine ⟨h.bytes 0 (Nat.succ_pos _), fun heq => h.first (heq ▸ List.mem_cons_self), ?_, ?_,
      fun hmem => h.first (List.mem_cons_of_mem _ hmem)⟩
    · intro k hk
      rw [Pipe.advance_source, Pipe.advance_pos, hpos]
      exact h.bytes (k + 1) (Nat.succ_lt_succ hk)
    · rw [Pipe.advance_source, Pipe.advance_pos, hpos]
      exact h.ended
  · rintro ⟨hbyte, hne, hrest⟩
    refine ⟨?_, ?_, ?_⟩
    · intro k hk
      cases k with
      | zero => exact hbyte
      | succ k =>
        rw [← hpos]
        exact hrest.bytes k (Nat.lt_of_succ_lt_succ hk)
    · rw [List.length_cons, ← hpos]
      exact hrest.ended
    · rw [List.mem_cons, not_or]
      exact ⟨Ne.symm hne, hrest.first⟩

/-- The first byte, if the line is empty the newline, is read. -/
theorem Pipe.BeginsWith.read {pipe : Pipe} {bytes : List UInt8} (h : pipe.BeginsWith bytes) :
    ∃ byte, pipe.source pipe.pos = .ok (some byte) := by
  cases bytes with
  | nil => exact ⟨newline, beginsWith_nil_iff.1 h⟩
  | cons byte bytes => exact ⟨byte, (beginsWith_cons_iff.1 h).1⟩

/-- The loop returns the rest of a line that is short enough, and has read it with its newline. -/
theorem readLine_eq_ok_iff {pipe rest : Pipe} {start line : List UInt8}
    (h : start.length ≤ maxAuthLineBytes) :
    readLine pipe start = (.ok line, rest) ↔
      ∃ bytes, line = start ++ bytes ∧ pipe.BeginsWith bytes ∧
        start.length + bytes.length ≤ maxAuthLineBytes ∧
        rest = pipe.advance (bytes.length + 1) := by
  fun_induction readLine pipe start with
  | case1 pipe start e pipe' hread
  | case2 pipe start pipe' hread =>
    rw [Pipe.read_eq, Prod.mk.injEq] at hread
    refine iff_of_false (fun heq => nomatch congrArg Prod.fst heq) ?_
    rintro ⟨bytes, -, hbytes, -, -⟩
    obtain ⟨byte, hbyte⟩ := hbytes.read
    cases hbyte.symm.trans hread.1
  | case3 pipe start pipe' hread =>
    rw [Pipe.read_eq, Prod.mk.injEq] at hread
    obtain ⟨hbyte, rfl⟩ := hread
    refine ⟨?_, ?_⟩
    · intro heq
      cases heq
      exact ⟨[], (List.append_nil _).symm, beginsWith_nil_iff.2 hbyte, h, rfl⟩
    · rintro ⟨bytes, rfl, hbytes, -, rfl⟩
      cases bytes with
      | nil => rw [List.append_nil]; rfl
      | cons byte bytes =>
        obtain ⟨hread, hne, -⟩ := beginsWith_cons_iff.1 hbytes
        cases hread.symm.trans hbyte
        exact absurd rfl hne
  | case4 pipe start byte pipe' hread hne hlong =>
    rw [Pipe.read_eq, Prod.mk.injEq] at hread
    refine iff_of_false (fun heq => nomatch congrArg Prod.fst heq) ?_
    rintro ⟨bytes, -, hbytes, hle, -⟩
    cases bytes with
    | nil =>
      cases (beginsWith_nil_iff.1 hbytes).symm.trans hread.1
      exact hne rfl
    | cons byte bytes =>
      rw [List.length_cons] at hle
      omega
  | case5 pipe start byte pipe' hread hne hlong ih =>
    rw [Pipe.read_eq, Prod.mk.injEq] at hread
    obtain ⟨hbyte, rfl⟩ := hread
    have hlen : (start ++ [byte]).length = start.length + 1 := by
      rw [List.length_append, List.length_singleton]
    rw [ih (by omega), hlen]
    refine ⟨?_, ?_⟩
    · rintro ⟨bytes, rfl, hbytes, hle, rfl⟩
      refine ⟨byte :: bytes, by simp, beginsWith_cons_iff.2 ⟨hbyte, hne, hbytes⟩, ?_, ?_⟩
      · rw [List.length_cons]
        omega
      · rw [Pipe.advance_advance, List.length_cons, Nat.add_comm 1]
    · rintro ⟨bytes, rfl, hbytes, hle, rfl⟩
      cases bytes with
      | nil =>
        cases (beginsWith_nil_iff.1 hbytes).symm.trans hbyte
        exact absurd rfl hne
      | cons byte' bytes =>
        obtain ⟨hbyte', -, hrest⟩ := beginsWith_cons_iff.1 hbytes
        cases hbyte'.symm.trans hbyte
        refine ⟨bytes, by simp, hrest, ?_, ?_⟩
        · rw [List.length_cons] at hle
          omega
        · rw [Pipe.advance_advance, List.length_cons, Nat.add_comm 1]

/-- Whatever the loop returns, it has read at most one byte more than the line may have. -/
theorem readLine_reads (pipe : Pipe) {start : List UInt8} (h : start.length ≤ maxAuthLineBytes) :
    ∃ n ≤ maxAuthLineBytes + 1 - start.length, (readLine pipe start).2 = pipe.advance n := by
  fun_induction readLine pipe start with
  | case1 pipe start e pipe' hread
  | case2 pipe start pipe' hread
  | case3 pipe start pipe' hread
  | case4 pipe start byte pipe' hread =>
    rw [Pipe.read_eq, Prod.mk.injEq] at hread
    exact ⟨1, by omega, hread.2.symm⟩
  | case5 pipe start byte pipe' hread hne hlong ih =>
    rw [Pipe.read_eq, Prod.mk.injEq] at hread
    obtain ⟨hbyte, rfl⟩ := hread
    rw [List.length_append, List.length_singleton] at ih
    obtain ⟨n, hn, hpipe⟩ := ih (by omega)
    exact ⟨1 + n, by omega, hpipe.trans (Pipe.advance_advance pipe 1 n)⟩

/-- What is accepted, and what is left of the pipe then: the next bytes are a line with the token of
the server and a newline, and exactly these were read. -/
theorem consumeAuthLine_eq_ok_iff {pipe rest : Pipe} {token : String} :
    consumeAuthLine pipe token = (.ok (), rest) ↔
      ∃ bytes, pipe.Presents token bytes ∧ rest = pipe.advance (bytes.length + 1) := by
  have hread (line : List UInt8) : readLine pipe [] = (.ok line, rest) ↔
      pipe.BeginsWith line ∧ line.length ≤ maxAuthLineBytes ∧
        rest = pipe.advance (line.length + 1) := by
    rw [readLine_eq_ok_iff (Nat.zero_le _)]
    simp
  have hconsume : consumeAuthLine pipe token = (.ok (), rest) ↔
      ∃ line, readLine pipe [] = (.ok line, rest) ∧ checkLine line token = .ok () := by
    rw [consumeAuthLine]
    rcases hline : readLine pipe [] with ⟨_ | line, pipe'⟩
    · simp
    · simp only [Prod.mk.injEq, Except.ok.injEq]
      refine ⟨fun ⟨hcheck, hpipe⟩ => ⟨line, ⟨rfl, hpipe⟩, hcheck⟩, ?_⟩
      rintro ⟨_, ⟨rfl, hpipe⟩, hcheck⟩
      exact ⟨hcheck, hpipe⟩
  rw [hconsume]
  simp only [hread, checkLine_eq_ok_iff, Pipe.Presents]
  refine exists_congr ?_
  intro line
  tauto

/-- Accepted or not, at most the longest line and its newline are read, so that a client without a
token cannot make the server read on for ever. -/
theorem consumeAuthLine_reads (pipe : Pipe) (token : String) :
    ∃ n ≤ maxAuthLineBytes + 1, (consumeAuthLine pipe token).2 = pipe.advance n := by
  have hstart : ([] : List UInt8).length ≤ maxAuthLineBytes := Nat.zero_le _
  obtain ⟨n, hn, hpipe⟩ := readLine_reads pipe hstart
  refine ⟨n, hn, ?_⟩
  rw [consumeAuthLine]
  split
  · next e pipe' heq => rwa [heq] at hpipe
  · next line pipe' heq => rwa [heq] at hpipe

/-! ## The clients of the server -/

/-- The pipe server with its token and, for each task, the pipe of its client when it connected and
when it was handed over. -/
structure Serving where
  server : PipeServer
  token : String
  clients : List (Pipe × Pipe)

namespace Serving

/-- What a step does to the pipes of the clients. A task authenticates as `consumeAuthLine` does,
and its handler gets the pipe that this returns. -/
def stepClients (s : Serving) (client : Pipe) : PipeEvent → Option (List (Pipe × Pipe))
  | .connect (.ok ()) => some (s.clients ++ [(client, client)])
  | .authenticated k => do
    let (start, pipe) ← s.clients[k]?
    match consumeAuthLine pipe s.token with
    | (.ok (), rest) => some (s.clients.set k (start, rest))
    | (.error _, _) => none
  | .authFailed k => do
    let (_, pipe) ← s.clients[k]?
    match consumeAuthLine pipe s.token with
    | (.ok (), _) => none
    | (.error _, _) => some (s.clients.eraseIdx k)
  | .handled k => some (s.clients.eraseIdx k)
  | _ => some s.clients

/-- A step of the accept loop and of its connections, with what the pipes of the new clients
carry. -/
def step (i : PipeEvent × Pipe) (s : Serving) : Option Serving := do
  let server ← s.server.step i.1
  let clients ← s.stepClients i.2 i.1
  pure { s with server, clients }

end Serving

/-- A server that is about to create its first instance, with the pipe of the client that connects
at each step. -/
def serving : System Serving (PipeEvent × Pipe) where
  init s := pipeServer.init s.server ∧ s.clients = []
  step := Serving.step

/-- A handler has a pipe that presented the token, from behind the newline on. -/
def ConnOk (token : String) (client : Pipe × Pipe) : Conn → Prop
  | .consumeAuthLine => client.2 = client.1
  | .handler => ∃ bytes, client.1.Presents token bytes ∧
    client.2 = client.1.advance (bytes.length + 1)

/-- Each task that runs its handler has checked the first line of its client before, and found the
token in it. -/
structure Authenticated (s : Serving) : Prop where
  length : s.clients.length = s.server.tasks.length
  conn : ∀ (k : Nat) client conn, s.clients[k]? = some client → s.server.tasks[k]? = some conn →
    ConnOk s.token client conn

/-- The tasks after a step of the server: one more for a client, and one less when a task
finishes. -/
def stepTasks (tasks : List Conn) : PipeEvent → List Conn
  | .connect (.ok ()) => tasks ++ [.consumeAuthLine]
  | .authenticated k => tasks.set k .handler
  | .authFailed k | .handled k => tasks.eraseIdx k
  | _ => tasks

/-- A step changes the list of connections as the event says, whatever the accept loop does. -/
theorem step_tasks {s s' : PipeServer} {i : PipeEvent} (h : s.step i = some s') :
    s'.tasks = stepTasks s.tasks i := by
  cases i with
  | build r =>
    cases r with
    | ok u =>
      obtain ⟨-, -, rfl⟩ := PipeServer.build_ok h
      rfl
    | error e =>
      obtain ⟨-, rfl⟩ := PipeServer.build_error h
      split
      · rfl
      · rfl
  | connect r =>
    cases r with
    | ok u =>
      obtain ⟨-, rfl⟩ := PipeServer.connect_ok h
      rfl
    | error e =>
      obtain ⟨-, rfl⟩ := PipeServer.connect_error h
      rfl
  | wake =>
    obtain ⟨-, rfl⟩ := PipeServer.step_wake h
    rfl
  | authenticated k =>
    obtain ⟨-, rfl⟩ := PipeServer.step_authenticated h
    rfl
  | authFailed k | handled k =>
    obtain ⟨-, rfl⟩ := PipeServer.finish_eq h
    rfl
  | drop =>
    obtain rfl := PipeServer.step_drop h
    rfl
  | squat =>
    obtain ⟨-, rfl⟩ := PipeServer.step_squat h
    rfl
  | leave =>
    obtain rfl := PipeServer.step_leave h
    rfl

namespace Authenticated

variable {s : Serving} {server : PipeServer}

/-- A step that changes neither the tasks nor the pipes keeps the invariant. -/
theorem unchanged (h : Authenticated s) (htasks : server.tasks = s.server.tasks) :
    Authenticated { s with server } :=
  ⟨h.length.trans (congrArg List.length htasks.symm), fun k client conn hclient hconn =>
    h.conn k client conn hclient (htasks ▸ hconn)⟩

/-- A new client has authenticated nothing yet, so the invariant says nothing of it. -/
theorem connect (h : Authenticated s) (client : Pipe)
    (htasks : server.tasks = s.server.tasks ++ [.consumeAuthLine]) :
    Authenticated { s with server, clients := s.clients ++ [(client, client)] } := by
  refine ⟨by simp [htasks, h.length], ?_⟩
  intro k c conn hc hconn
  rw [htasks, List.getElem?_append, ← h.length] at hconn
  rw [List.getElem?_append] at hc
  split at hc
  · next hlt =>
    rw [if_pos hlt] at hconn
    exact h.conn k c conn hc hconn
  · next hge =>
    rw [if_neg hge] at hconn
    cases List.mem_singleton.1 (List.mem_of_getElem? hc)
    cases List.mem_singleton.1 (List.mem_of_getElem? hconn)
    rfl

/-- A task that finishes takes its client with it, and the others keep theirs. -/
theorem finish (h : Authenticated s) {k : Nat}
    (htasks : server.tasks = s.server.tasks.eraseIdx k) :
    Authenticated { s with server, clients := s.clients.eraseIdx k } := by
  refine ⟨by simp [htasks, h.length, List.length_eraseIdx], ?_⟩
  intro j c conn hc hconn
  rw [htasks, List.getElem?_eraseIdx] at hconn
  rw [List.getElem?_eraseIdx] at hc
  split at hc
  · next hlt =>
    rw [if_pos hlt] at hconn
    exact h.conn j c conn hc hconn
  · next hge =>
    rw [if_neg hge] at hconn
    exact h.conn (j + 1) c conn hc hconn

/-- What `consumeAuthLine` accepts goes to the handler, with what is left of the pipe. -/
theorem authenticated (h : Authenticated s) {k : Nat} {start pipe rest : Pipe}
    (hclient : s.clients[k]? = some (start, pipe))
    (htask : s.server.tasks[k]? = some .consumeAuthLine)
    (hok : consumeAuthLine pipe s.token = (.ok (), rest))
    (htasks : server.tasks = s.server.tasks.set k .handler) :
    Authenticated { s with server, clients := s.clients.set k (start, rest) } := by
  refine ⟨by simp [htasks, h.length], ?_⟩
  intro j c conn hc hconn
  rw [htasks, List.getElem?_set] at hconn
  rw [List.getElem?_set] at hc
  split at hc
  · next hkj =>
    obtain ⟨hlt, -⟩ := List.getElem?_eq_some_iff.1 hclient
    subst hkj
    rw [if_pos hlt] at hc
    rw [if_pos rfl, if_pos (h.length ▸ hlt)] at hconn
    cases hc
    cases hconn
    obtain rfl : pipe = start := h.conn k _ _ hclient htask
    exact consumeAuthLine_eq_ok_iff.1 hok
  · next hkj =>
    rw [if_neg hkj] at hconn
    exact h.conn j c conn hc hconn

/-- Every step keeps the invariant, by one case for each event of the server. -/
theorem step {s' : Serving} {i : PipeEvent × Pipe} (h : Authenticated s)
    (hs : s.step i = some s') : Authenticated s' := by
  obtain ⟨server, hserver, hs⟩ := Option.bind_eq_some_iff.1 hs
  obtain ⟨clients, hclients, hs⟩ := Option.bind_eq_some_iff.1 hs
  cases hs
  have htasks := step_tasks hserver
  obtain ⟨event, client⟩ := i
  cases event with
  | connect r =>
    cases r with
    | ok u =>
      cases hclients
      exact h.connect client htasks
    | error e =>
      cases hclients
      exact h.unchanged htasks
  | authenticated k =>
    obtain ⟨⟨start, pipe⟩, hclient, hclients⟩ := Option.bind_eq_some_iff.1 hclients
    obtain ⟨htask, -⟩ := PipeServer.step_authenticated hserver
    dsimp only at hclients
    split at hclients
    · next rest hok =>
      cases hclients
      exact h.authenticated hclient htask hok htasks
    · cases hclients
  | authFailed k =>
    obtain ⟨⟨start, pipe⟩, -, hclients⟩ := Option.bind_eq_some_iff.1 hclients
    dsimp only at hclients
    split at hclients
    · cases hclients
    · cases hclients
      exact h.finish htasks
  | handled k =>
    cases hclients
    exact h.finish htasks
  | build r | wake | drop | squat | leave =>
    cases hclients
    exact h.unchanged htasks

end Authenticated

/-- So every connection that has reached the handler was accepted, in every state of every run. -/
theorem authenticated_of_reached {s : Serving} (h : serving.Reached (fun _ _ => True) s) :
    Authenticated s := by
  refine h.invariant ?_ fun s i s' hs _ hstep => hs.step hstep
  rintro s ⟨⟨-, -, -, htasks⟩, hclients⟩
  refine ⟨by rw [htasks, hclients]; rfl, ?_⟩
  intro k client conn hclient
  rw [hclients] at hclient
  cases hclient

/-- `consumeAuthLine` accepts the pipes that present the token, reads one byte more than the longest
line at most, and stops behind the newline. So a handler runs only on a pipe that presented it. -/
theorem auth_grammar :
    (∀ pipe rest token, consumeAuthLine pipe token = (.ok (), rest) ↔
      ∃ bytes, pipe.Presents token bytes ∧ rest = pipe.advance (bytes.length + 1)) ∧
    (∀ pipe token, ∃ n ≤ maxAuthLineBytes + 1, (consumeAuthLine pipe token).2 = pipe.advance n) ∧
    ∀ s, serving.Reached (fun _ _ => True) s → ∀ k : Nat, s.server.tasks[k]? = some .handler →
      ∃ start bytes, start.Presents s.token bytes ∧
        s.clients[k]? = some (start, start.advance (bytes.length + 1)) := by
  refine ⟨fun _ _ _ => consumeAuthLine_eq_ok_iff, consumeAuthLine_reads, ?_⟩
  intro s hs k hk
  have h := authenticated_of_reached hs
  obtain ⟨hlt, -⟩ := List.getElem?_eq_some_iff.1 hk
  have hclient := List.getElem?_eq_getElem (h.length ▸ hlt : k < s.clients.length)
  obtain ⟨bytes, hbytes, hrest⟩ := h.conn k _ _ hclient hk
  refine ⟨_, bytes, hbytes, ?_⟩
  rw [hclient, ← hrest]

end TelegramMcp.LocalPipe
