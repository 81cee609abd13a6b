import TelegramMcp.Lib.System
import Mathlib

/-!
# The pipe server

The accept loop of `run_pipe_server`, the connection tasks it spawns, and the other processes that
want the name of the pipe. The name exists exactly while an instance of it is open. The loop opens
an instance, awaits a client on it and hands it over to a task, so it has none itself until it opens
the next one, and after a failed `connect` it lets its instance go before that. `name_held` says
when the server keeps its name all the same, and `name_lost` that it does not otherwise.
-/

namespace TelegramMcp.LocalPipe

/-- `MAX_BACKOFF_SECS`, the cap of the sleeps. -/
def maxBackoffSecs : Nat := 30

/-- The counter after `backoff_sleep`, which saturates at `u32::MAX`, and the seconds it sleeps. -/
def backoffSleep (consecutiveFailures : Nat) : Nat × Nat :=
  let attempt := min (consecutiveFailures + 1) (2 ^ 32 - 1)
  (attempt, min (1 <<< min attempt 5) maxBackoffSecs)

/-- `PipeError`: the accept loop returns only when the system refuses the first instance of the
pipe, with the error that it gave. -/
inductive PipeError
  | io (source : String)

/-- Where `run_pipe_server` is. The instance of a failed `connect` is in scope while it sleeps. -/
inductive Loop
  | buildServer
  | connect
  | backoffSleep (secs : Nat) (server : Bool)
  | returned (e : PipeError)
  | dropped

/-- The instances that the loop itself has open: none or one. -/
def Loop.servers : Loop → Nat
  | .connect | .backoffSleep _ true => 1
  | .buildServer | .backoffSleep _ false | .returned _ | .dropped => 0

/-- What a spawned task is at. It has its instance open until it finishes. -/
inductive Conn
  | consumeAuthLine
  | handler
  deriving DecidableEq

/-- The variables of the loop, the spawned tasks, and whether another process has an instance of the
name open. -/
structure PipeServer where
  first : Bool
  consecutiveFailures : Nat
  loop : Loop
  tasks : List Conn
  squatted : Bool

/-- What happens at a step: in the loop, in the task at a position, or in another process. -/
inductive PipeEvent
  | build (r : Except String Unit)
  | connect (r : Except String Unit)
  | wake
  | authenticated (k : Nat)
  | authFailed (k : Nat)
  | handled (k : Nat)
  | drop
  | squat
  | leave

namespace PipeServer

/-- The instances of the server: the loop's and one for each connection. -/
def instances (s : PipeServer) : Nat := s.loop.servers + s.tasks.length

/-- The name of the pipe exists when an instance of it is open, of this server or of another one. -/
def nameExists (s : PipeServer) : Prop := 0 < s.instances ∨ s.squatted = true

instance (s : PipeServer) : Decidable s.nameExists := inferInstanceAs (Decidable (_ ∨ _))

/-- A failure is counted and followed by a sleep, for which the server may keep its instance. -/
def backOff (s : PipeServer) (server : Bool) : PipeServer :=
  let (consecutiveFailures, secs) := backoffSleep s.consecutiveFailures
  { s with consecutiveFailures, loop := .backoffSleep secs server }

/-- A task finishes, and its instance closes. -/
def finish (s : PipeServer) (k : Nat) (conn : Conn) : Option PipeServer :=
  if s.tasks[k]? = some conn then some { s with tasks := s.tasks.eraseIdx k } else none

/-- A step keeps the name as long as it is `Covered`. The name can be lost only when the last open
instance is closed, and a covered step leaves one open. -/
def step : PipeEvent → PipeServer → Option PipeServer
  | .build r, s =>
    match s.loop, r with
    | .buildServer, .ok () =>
      -- the first instance claims the name, which fails when it exists
      if s.first = true ∧ s.nameExists then none
      else some { s with first := false, consecutiveFailures := 0, loop := .connect }
    | .buildServer, .error e =>
      some (if s.first then { s with loop := .returned (.io e) } else s.backOff false)
    | _, _ => none
  | .connect r, s =>
    match s.loop, r with
    | .connect, .ok () =>
      some { s with
        consecutiveFailures := 0
        loop := .buildServer
        tasks := s.tasks ++ [.consumeAuthLine] }
    | .connect, .error _ => some (s.backOff true)
    | _, _ => none
  | .wake, s =>
    match s.loop with
    | .backoffSleep _ _ => some { s with loop := .buildServer }
    | _ => none
  | .authenticated k, s =>
    if s.tasks[k]? = some .consumeAuthLine then some { s with tasks := s.tasks.set k .handler }
    else none
  | .authFailed k, s => s.finish k .consumeAuthLine
  | .handled k, s => s.finish k .handler
  | .drop, s =>
    match s.loop with
    | .returned _ | .dropped => none
    | _ => some { s with loop := .dropped }
  | .squat, s => if s.nameExists then none else some { s with squatted := true }
  | .leave, s => some { s with squatted := false }

/-- From the creation of the first instance until the future is dropped. -/
def claimed (s : PipeServer) : Prop := s.first = false ∧ s.loop ≠ .dropped

/-! ## What a step can do -/

variable {s s' : PipeServer} {e : String} {k : Nat}

/-- A new instance is created: the name is claimed if it is the first. -/
theorem build_ok (h : s.step (.build (.ok ())) = some s') :
    s.loop = .buildServer ∧ ¬ (s.first = true ∧ s.nameExists) ∧
      s' = { s with first := false, consecutiveFailures := 0, loop := .connect } := by
  unfold step at h
  dsimp only at h
  cases hloop : s.loop with
  | buildServer =>
    rw [hloop] at h
    obtain ⟨hfree, heq⟩ := Option.ite_none_left_eq_some.1 h
    exact ⟨rfl, hfree, (Option.some.inj heq).symm⟩
  | connect | backoffSleep | returned | dropped =>
    rw [hloop] at h
    cases h

/-- The first instance must be created, or the server returns; a later one is tried again after a
sleep. -/
theorem build_error (h : s.step (.build (.error e)) = some s') :
    s.loop = .buildServer ∧
      s' = if s.first then { s with loop := .returned (.io e) } else s.backOff false := by
  unfold step at h
  dsimp only at h
  cases hloop : s.loop with
  | buildServer =>
    rw [hloop] at h
    exact ⟨rfl, (Option.some.inj h).symm⟩
  | connect | backoffSleep | returned | dropped =>
    rw [hloop] at h
    cases h

/-- A client connects: it gets a task of its own, and the loop goes on with a new instance. -/
theorem connect_ok (h : s.step (.connect (.ok ())) = some s') :
    s.loop = .connect ∧ s' = { s with
      consecutiveFailures := 0
      loop := .buildServer
      tasks := s.tasks ++ [.consumeAuthLine] } := by
  unfold step at h
  dsimp only at h
  cases hloop : s.loop with
  | connect =>
    rw [hloop] at h
    exact ⟨rfl, (Option.some.inj h).symm⟩
  | buildServer | backoffSleep | returned | dropped =>
    rw [hloop] at h
    cases h

/-- A client that is gone before it was connected makes the loop sleep, with its instance open. -/
theorem connect_error (h : s.step (.connect (.error e)) = some s') :
    s.loop = .connect ∧ s' = s.backOff true := by
  unfold step at h
  dsimp only at h
  cases hloop : s.loop with
  | connect =>
    rw [hloop] at h
    exact ⟨rfl, (Option.some.inj h).symm⟩
  | buildServer | backoffSleep | returned | dropped =>
    rw [hloop] at h
    cases h

/-- After a sleep the loop creates an instance. -/
theorem step_wake (h : s.step .wake = some s') :
    (∃ secs server, s.loop = .backoffSleep secs server) ∧ s' = { s with loop := .buildServer } := by
  unfold step at h
  dsimp only at h
  cases hloop : s.loop with
  | backoffSleep secs server =>
    rw [hloop] at h
    exact ⟨⟨secs, server, rfl⟩, (Option.some.inj h).symm⟩
  | buildServer | connect | returned | dropped =>
    rw [hloop] at h
    cases h

/-- When the server is dropped, its loop ends. -/
theorem step_drop (h : s.step .drop = some s') : s' = { s with loop := .dropped } := by
  unfold step at h
  dsimp only at h
  cases hloop : s.loop with
  | buildServer | connect | backoffSleep =>
    rw [hloop] at h
    exact (Option.some.inj h).symm
  | returned | dropped =>
    rw [hloop] at h
    cases h

/-- A connection whose line was accepted goes on to the handler. -/
theorem step_authenticated (h : s.step (.authenticated k) = some s') :
    s.tasks[k]? = some .consumeAuthLine ∧ s' = { s with tasks := s.tasks.set k .handler } := by
  obtain ⟨hk, heq⟩ := Option.ite_none_right_eq_some.1 h
  exact ⟨hk, (Option.some.inj heq).symm⟩

/-- A connection that is through closes its instance. -/
theorem finish_eq {conn : Conn} (h : s.finish k conn = some s') :
    s.tasks[k]? = some conn ∧ s' = { s with tasks := s.tasks.eraseIdx k } := by
  obtain ⟨hk, heq⟩ := Option.ite_none_right_eq_some.1 h
  exact ⟨hk, (Option.some.inj heq).symm⟩

/-- Another process takes the name only where it does not exist. -/
theorem step_squat (h : s.step .squat = some s') :
    ¬ s.nameExists ∧ s' = { s with squatted := true } := by
  obtain ⟨hfree, heq⟩ := Option.ite_none_left_eq_some.1 h
  exact ⟨hfree, (Option.some.inj heq).symm⟩

/-- Another process gives the name up. -/
theorem step_leave (h : s.step .leave = some s') : s' = { s with squatted := false } :=
  (Option.some.inj h).symm

end PipeServer

/-- A server that is about to create its first instance, with no tasks. -/
def pipeServer : System PipeServer PipeEvent where
  init s := s.first = true ∧ s.consecutiveFailures = 0 ∧ s.loop = .buildServer ∧ s.tasks = []
  step := PipeServer.step

/-! ## The name of the pipe -/

/-- The name of the pipe exists, since an instance of it is open, and no other process has taken
it. -/
structure NameHeld (s : PipeServer) : Prop where
  isOpen : 0 < s.instances
  isOurs : s.squatted = false

/-- The last task finishes only while the loop has an instance, and the loop lets go of the instance
of a failed `connect` only while there is a task. -/
def Covered (s : PipeServer) : PipeEvent → Prop
  | .authFailed _ | .handled _ => s.claimed → s.tasks.length = 1 → s.loop.servers = 1
  | .wake => s.loop.servers = 1 → s.tasks ≠ []
  | _ => True

/-- Before the first instance there are no tasks, and from then on the name is held. The server
returns only while the first instance is not made yet. -/
structure Owned (s : PipeServer) : Prop where
  fresh : s.first = true → s.tasks = [] ∧ s.loop.servers = 0
  returned : ∀ e, s.loop = .returned e → s.first = true
  held : s.claimed → NameHeld s

namespace Owned

variable {s s' : PipeServer}

/-- An instance or a task is there only after the first. -/
theorem first_eq_false (h : Owned s) (hopen : s.tasks ≠ [] ∨ s.loop.servers ≠ 0) :
    s.first = false := by
  rcases hfirst : s.first with _ | _
  · rfl
  · obtain ⟨htasks, hservers⟩ := h.fresh hfirst
    exact absurd hservers (hopen.resolve_left fun hne => hne htasks)

/-- The name is held wherever the loop is, but where the future is dropped. -/
theorem held_at (h : Owned s) {l : Loop} (hloop : s.loop = l) (hl : l ≠ .dropped)
    (hfirst : s.first = false) : NameHeld s :=
  h.held ⟨hfirst, hloop ▸ hl⟩

/-- After the first instance, all that is left is to have an instance and the name. -/
theorem of_first (hfirst : s.first = false) (hret : ∀ e, s.loop ≠ .returned e)
    (hheld : s.claimed → NameHeld s) : Owned s :=
  ⟨fun hf => absurd (hf.symm.trans hfirst) nofun, fun e he => absurd he (hret e), hheld⟩

/-- The tasks may change while the loop stays where it is, as long as an instance is left. -/
theorem withTasks (h : Owned s) {tasks : List Conn} (hne : s.tasks ≠ [])
    (hopen : s.claimed → 0 < s.loop.servers + tasks.length) : Owned { s with tasks := tasks } := by
  have hfirst := h.first_eq_false (.inl hne)
  refine of_first hfirst ?_ ?_
  · intro e he
    exact absurd (hfirst.symm.trans (h.returned e he)) nofun
  · intro hc
    exact ⟨hopen hc, (h.held hc).isOurs⟩

/-- The end of a connection keeps the name, unless it closes the only instance. -/
theorem finish (h : Owned s) {k : Nat} {conn : Conn}
    (hcov : s.claimed → s.tasks.length = 1 → s.loop.servers = 1)
    (hs : s.finish k conn = some s') : Owned s' := by
  obtain ⟨hk, rfl⟩ := PipeServer.finish_eq hs
  obtain ⟨hlt, -⟩ := List.getElem?_eq_some_iff.1 hk
  refine h.withTasks (List.ne_nil_of_length_pos (Nat.zero_lt_of_lt hlt)) ?_
  intro hc
  have hone := hcov hc
  rw [List.length_eraseIdx_of_lt hlt]
  omega

/-- So does the creation of an instance, which fails where another process has the name. -/
theorem build (h : Owned s) {r : Except String Unit} (hs : s.step (.build r) = some s') :
    Owned s' := by
  cases r with
  | ok u =>
    obtain ⟨hloop, hfree, rfl⟩ := PipeServer.build_ok hs
    refine of_first rfl (fun e => nofun) fun _ => ⟨Nat.lt_of_lt_of_le Nat.one_pos
      (Nat.le_add_right 1 s.tasks.length), ?_⟩
    rcases hfirst : s.first with _ | _
    · exact (h.held_at hloop nofun hfirst).isOurs
    · exact Bool.eq_false_iff.2 fun hsq => hfree ⟨hfirst, .inr hsq⟩
  | error e =>
    obtain ⟨hloop, rfl⟩ := PipeServer.build_error hs
    rcases hfirst : s.first with _ | _
    · rw [if_neg nofun]
      obtain ⟨hopen, hours⟩ := h.held_at hloop nofun hfirst
      rw [PipeServer.instances, hloop] at hopen
      exact of_first hfirst (fun e => nofun) fun _ => ⟨hopen, hours⟩
    · rw [if_pos rfl]
      exact ⟨fun _ => ⟨(h.fresh hfirst).1, rfl⟩, fun _ _ => rfl, fun hc => absurd hc.1 nofun⟩

/-- While the loop awaits a client, it has an instance, so the name is the server's. -/
theorem connecting (h : Owned s) (hloop : s.loop = .connect) :
    s.first = false ∧ s.squatted = false := by
  have hfirst := h.first_eq_false (.inr (by rw [hloop]; exact nofun))
  exact ⟨hfirst, (h.held_at hloop nofun hfirst).isOurs⟩

/-- So does a client, connected or not. -/
theorem connect (h : Owned s) {r : Except String Unit} (hs : s.step (.connect r) = some s') :
    Owned s' := by
  cases r with
  | ok u =>
    obtain ⟨hloop, rfl⟩ := PipeServer.connect_ok hs
    obtain ⟨hfirst, hours⟩ := h.connecting hloop
    refine of_first hfirst (fun e => nofun) fun _ => ⟨?_, hours⟩
    rw [PipeServer.instances, List.length_append]
    exact Nat.lt_of_lt_of_le Nat.one_pos (by simp only [List.length_singleton]; omega)
  | error e =>
    obtain ⟨hloop, rfl⟩ := PipeServer.connect_error hs
    obtain ⟨hfirst, hours⟩ := h.connecting hloop
    exact of_first hfirst (fun e => nofun) fun _ =>
      ⟨Nat.lt_of_lt_of_le Nat.one_pos (Nat.le_add_right 1 s.tasks.length), hours⟩

/-- So does the end of a sleep, when some connection still has an instance open. -/
theorem wake (h : Owned s) (hcov : s.loop.servers = 1 → s.tasks ≠ [])
    (hs : s.step .wake = some s') : Owned s' := by
  obtain ⟨⟨secs, server, hloop⟩, rfl⟩ := PipeServer.step_wake hs
  refine ⟨fun hf => ⟨(h.fresh hf).1, rfl⟩, fun e => nofun, ?_⟩
  intro hc
  obtain ⟨hopen, hours⟩ := h.held_at hloop nofun hc.1
  refine ⟨?_, hours⟩
  rw [PipeServer.instances, hloop] at hopen
  rw [hloop] at hcov
  cases server with
  | false => exact hopen
  | true =>
    have htasks := List.length_pos_iff.2 (hcov rfl)
    exact Nat.lt_of_lt_of_le htasks (Nat.le_add_left _ _)

/-- A step keeps the name as long as it is `Covered`. -/
theorem step (h : Owned s) {i : PipeEvent} (hcov : Covered s i) (hs : s.step i = some s') :
    Owned s' := by
  cases i with
  | build r => exact h.build hs
  | connect r => exact h.connect hs
  | wake => exact h.wake hcov hs
  | authenticated k =>
    obtain ⟨hk, rfl⟩ := PipeServer.step_authenticated hs
    obtain ⟨hlt, -⟩ := List.getElem?_eq_some_iff.1 hk
    refine h.withTasks (List.ne_nil_of_length_pos (Nat.zero_lt_of_lt hlt)) fun _ => ?_
    rw [List.length_set]
    omega
  | authFailed k => exact h.finish hcov hs
  | handled k => exact h.finish hcov hs
  | drop =>
    obtain rfl := PipeServer.step_drop hs
    exact ⟨fun hf => ⟨(h.fresh hf).1, rfl⟩, fun e => nofun, fun hc => absurd rfl hc.2⟩
  | squat =>
    obtain ⟨hfree, rfl⟩ := PipeServer.step_squat hs
    exact ⟨h.fresh, h.returned, fun hc => absurd (.inl (h.held hc).isOpen) hfree⟩
  | leave =>
    obtain rfl := PipeServer.step_leave hs
    exact ⟨h.fresh, h.returned, fun hc => ⟨(h.held hc).isOpen, rfl⟩⟩

end Owned

/-- So the name is held in every state of every run in which some instance always covers it. -/
theorem owned_of_reached {s : PipeServer} (h : pipeServer.Reached Covered s) : Owned s := by
  refine h.invariant ?_ fun s i s' hs hcov hstep => hs.step hcov hstep
  rintro s ⟨hfirst, -, hloop, htasks⟩
  refine ⟨fun _ => ⟨htasks, by rw [hloop]; rfl⟩, ?_, ?_⟩
  · intro e he
    exact absurd (hloop.symm.trans he) nofun
  · intro hc
    exact absurd (hfirst.symm.trans hc.1) nofun

/-- In every run whose steps are all `Covered`, the name of the pipe is held from the first instance
on, until the future is dropped: there is always an instance of the loop or of a connection, so that
no other process can claim it. -/
theorem name_held (s : PipeServer) (h : pipeServer.Reached Covered s) (hc : s.claimed) :
    NameHeld s :=
  (owned_of_reached h).held hc

/-- The loop has at most one instance of its own. -/
theorem Loop.servers_le_one (l : Loop) : l.servers ≤ 1 := by
  unfold Loop.servers
  split <;> omega

/-- A task that finishes while neither the loop nor another task has an instance. -/
theorem finish_lost {s s' : PipeServer} {k : Nat} {conn : Conn}
    (hcov : ¬ (s.claimed → s.tasks.length = 1 → s.loop.servers = 1))
    (hs : s.finish k conn = some s') : s'.claimed ∧ s'.instances = 0 := by
  obtain ⟨hc, hrest⟩ := Classical.not_imp.1 hcov
  obtain ⟨hone, hservers⟩ := Classical.not_imp.1 hrest
  have hle := s.loop.servers_le_one
  obtain ⟨hk, rfl⟩ := PipeServer.finish_eq hs
  obtain ⟨hlt, -⟩ := List.getElem?_eq_some_iff.1 hk
  refine ⟨hc, ?_⟩
  have hlen := List.length_eraseIdx_of_lt hlt
  change s.loop.servers + (s.tasks.eraseIdx k).length = 0
  omega

/-- A step that is not `Covered` leaves the server without an instance, while it goes on. -/
theorem name_lost {s s' : PipeServer} {i : PipeEvent} (h : pipeServer.Reached Covered s)
    (hi : ¬ Covered s i) (hs : s.step i = some s') : s'.claimed ∧ s'.instances = 0 := by
  cases i with
  | authFailed k => exact finish_lost hi hs
  | handled k => exact finish_lost hi hs
  | wake =>
    obtain ⟨hservers, htasks⟩ := Classical.not_imp.1 hi
    have hfirst := (owned_of_reached h).first_eq_false (.inr (hservers ▸ Nat.one_ne_zero))
    obtain ⟨-, rfl⟩ := PipeServer.step_wake hs
    exact ⟨⟨hfirst, nofun⟩, by rw [PipeServer.instances, not_not.1 htasks]; rfl⟩
  | build r | connect r | authenticated k | drop | squat | leave => exact absurd trivial hi

/-- The server before its first instance, when nobody has the name. -/
def starting : PipeServer := ⟨true, 0, .buildServer, [], false⟩

/-- The second instance is created while the first client is served, who then leaves. -/
theorem name_held_oneClient :
    NameHeld ⟨false, 0, .connect, [], false⟩ := by
  have h0 : pipeServer.Reached Covered starting := .init ⟨rfl, rfl, rfl, rfl⟩
  have h1 := h0.step (PipeEvent.build (.ok ())) trivial rfl
  have h2 := h1.step (PipeEvent.connect (.ok ())) trivial rfl
  have h3 := h2.step (PipeEvent.authenticated 0) trivial rfl
  have h4 := h3.step (PipeEvent.build (.ok ())) trivial rfl
  have h5 := h4.step (PipeEvent.handled 0) (fun _ _ => rfl) rfl
  exact name_held _ h5 ⟨rfl, nofun⟩

/-- The first client is gone before `connect`, which fails, and the only instance closes before the
next one is created. -/
theorem name_lost_connect :
    ¬ ∀ s, pipeServer.Reached (fun _ _ => True) s → s.claimed → NameHeld s := by
  intro h
  have h0 : pipeServer.Reached (fun _ _ => True) starting := .init ⟨rfl, rfl, rfl, rfl⟩
  have hrun : pipeServer.exec [.build (.ok ()), .connect (.error "No process is on the other end"),
      .wake] starting = some ⟨false, 1, .buildServer, [], false⟩ := rfl
  have hheld := h _ (h0.exec hrun) ⟨rfl, nofun⟩
  exact absurd hheld.isOpen (Nat.lt_irrefl 0)

end TelegramMcp.LocalPipe
