import TelegramMcp.LocalPipe.Server

/-!
# The backoff of the accept loop

A `Backoff` is the server beside a record of its sleeps, each with the number of iterations that had
failed by then since a client last connected. What they are for is that they double with it, up to
`maxBackoffSecs`. The loop counts the failures in `consecutive_failures`, but sets it to 0 when it
creates an instance as well as when a client connects, so a failed `connect` counts as the first
failure whatever was before (`connect_backoff`). The sleeps escalate in the runs in which it is the
first, and in no others (`escalates_iff`).
-/

namespace TelegramMcp.LocalPipe

/-- A sleep, and the failed iterations up to it since the last client. -/
structure Sleep where
  failures : Nat
  secs : Nat

/-- A pipe server, with the failures since the last client that was connected and the sleeps so
far. -/
structure Backoff where
  server : PipeServer
  failures : Nat
  sleeps : List Sleep

/-- The failed iterations since the last client, after another event. -/
def failuresAfter (failures : Nat) : PipeEvent → Nat
  | .build (.error _) | .connect (.error _) => failures + 1
  | .connect (.ok ()) => 0
  | _ => failures

/-- The sleep of an iteration that fails. The first instance is not tried again. -/
def sleepAfter (failures : Nat) (server : PipeServer) : PipeEvent → List Sleep
  | .build (.error _) | .connect (.error _) =>
    match server.loop with
    | .backoffSleep secs _ => [⟨failures, secs⟩]
    | _ => []
  | _ => []

namespace Backoff

/-- A step of the server; a sleep is recorded when the step begins one. -/
def step (i : PipeEvent) (s : Backoff) : Option Backoff := do
  let server ← s.server.step i
  let failures := failuresAfter s.failures i
  pure { server, failures, sleeps := s.sleeps ++ sleepAfter failures server i }

/-- After the `n`-th failed iteration the sleep is of `2 ^ n` seconds, but of no more than
`maxBackoffSecs`. -/
def Escalates (s : Backoff) : Prop :=
  ∀ e ∈ s.sleeps, e.secs = min (2 ^ e.failures) maxBackoffSecs

end Backoff

/-- A server that is about to create its first instance, and has not slept yet. -/
def backoff : System Backoff PipeEvent where
  init s := pipeServer.init s.server ∧ s.failures = 0 ∧ s.sleeps = []
  step := Backoff.step

/-- If `connect` fails, no iteration has failed since the last client. -/
def ConnectFailsFirst (s : Backoff) : PipeEvent → Prop
  | .connect (.error _) => s.failures = 0
  | _ => True

/-! ## One sleep -/

/-- The counter as long as it counts all failures. It saturates, long after the sleep does. -/
def counted (failures : Nat) : Nat := min failures (2 ^ 32 - 1)

/-- The shift with its bounded count doubles up to the cap. -/
theorem shiftLeft_min_eq (n : Nat) :
    min (1 <<< min n 5) maxBackoffSecs = min (2 ^ n) maxBackoffSecs := by
  rw [Nat.one_shiftLeft]
  rcases Nat.le_total n 5 with hle | hle
  · rw [Nat.min_eq_left hle]
  · have hpow : 2 ^ 5 ≤ 2 ^ n := Nat.pow_le_pow_right Nat.two_pos hle
    rw [Nat.min_eq_right hle, maxBackoffSecs]
    omega

/-- From a counter that counts all failures, the sleep is the right one. -/
theorem backoffSleep_counted (failures : Nat) :
    backoffSleep (counted failures) =
      (counted (failures + 1), min (2 ^ (failures + 1)) maxBackoffSecs) := by
  have hcount : min (counted failures + 1) (2 ^ 32 - 1) = counted (failures + 1) := by
    rw [counted, counted]
    omega
  have hmin : min (counted (failures + 1)) 5 = min (failures + 1) 5 := by
    rw [counted]
    omega
  rw [backoffSleep, hcount, hmin, shiftLeft_min_eq]

/-! ## A failed connect -/

/-- A server that waits for a client has set its counter to 0 with the instance. -/
def ZeroAtConnect (s : Backoff) : Prop :=
  s.server.loop = .connect → s.server.consecutiveFailures = 0

section
variable {s s' : Backoff} {i : PipeEvent}

/-- A step is one of the server, with the count and the sleeps as they follow from it. -/
theorem Backoff.step_eq (h : s.step i = some s') :
    ∃ server, s.server.step i = some server ∧
      s' = ⟨server, failuresAfter s.failures i,
        s.sleeps ++ sleepAfter (failuresAfter s.failures i) server i⟩ := by
  obtain ⟨server, hserver, heq⟩ := Option.bind_eq_some_iff.1 h
  exact ⟨server, hserver, (Option.some.inj heq).symm⟩

/-- Every step keeps the invariant: only a failure counts, and it makes the server sleep. -/
theorem ZeroAtConnect.step (h : ZeroAtConnect s) (hs : s.step i = some s') : ZeroAtConnect s' := by
  obtain ⟨server, hserver, rfl⟩ := Backoff.step_eq hs
  cases i with
  | build r =>
    cases r with
    | ok u =>
      obtain ⟨-, -, rfl⟩ := PipeServer.build_ok hserver
      exact fun _ => rfl
    | error e =>
      obtain ⟨-, rfl⟩ := PipeServer.build_error hserver
      unfold ZeroAtConnect
      dsimp only
      split
      · exact nofun
      · exact nofun
  | connect r =>
    cases r with
    | ok u =>
      obtain ⟨-, rfl⟩ := PipeServer.connect_ok hserver
      exact nofun
    | error e =>
      obtain ⟨-, rfl⟩ := PipeServer.connect_error hserver
      exact nofun
  | wake =>
    obtain ⟨-, rfl⟩ := PipeServer.step_wake hserver
    exact nofun
  | drop =>
    obtain rfl := PipeServer.step_drop hserver
    exact nofun
  | authenticated k =>
    obtain ⟨-, rfl⟩ := PipeServer.step_authenticated hserver
    exact h
  | authFailed k | handled k =>
    obtain ⟨-, rfl⟩ := PipeServer.finish_eq hserver
    exact h
  | squat =>
    obtain ⟨-, rfl⟩ := PipeServer.step_squat hserver
    exact h
  | leave =>
    obtain rfl := PipeServer.step_leave hserver
    exact h

/-- So a server that waits for a client has had no failure in its own count, in every state of every
run. -/
theorem zeroAtConnect_of_reached {P : Backoff → PipeEvent → Prop} (h : backoff.Reached P s) :
    ZeroAtConnect s := by
  refine h.invariant ?_ fun s i s' h _ hs => h.step hs
  rintro s ⟨⟨-, -, hloop, -⟩, -⟩ hconnect
  cases hloop.symm.trans hconnect

/-- A failed `connect` sleeps two seconds, however many failures there were. -/
theorem connect_backoff {P : Backoff → PipeEvent → Prop} {e : String} (h : backoff.Reached P s)
    (hs : s.step (.connect (.error e)) = some s') :
    s'.sleeps = s.sleeps ++ [⟨s.failures + 1, 2⟩] := by
  obtain ⟨server, hserver, rfl⟩ := Backoff.step_eq hs
  obtain ⟨hloop, rfl⟩ := PipeServer.connect_error hserver
  have hsecs : (backoffSleep s.server.consecutiveFailures).2 = 2 := by
    rw [zeroAtConnect_of_reached h hloop]
    rfl
  rw [← hsecs]
  rfl

/-! ## Where the sleeps escalate -/

/-- The counter counts all failures where the loop has no instance, or backs off. -/
def Counts (s : Backoff) : Prop :=
  match s.server.loop with
  | .buildServer | .backoffSleep _ _ => s.server.consecutiveFailures = counted s.failures
  | .connect | .returned _ | .dropped => True

/-- What a run has come to in which `connect` fails first. -/
structure Escalating (s : Backoff) : Prop where
  zero : ZeroAtConnect s
  counts : Counts s
  sleeps : s.Escalates

namespace Escalating

/-- A failed iteration, under a counter that counts all failures since the last client. -/
theorem backOff (h : s.Escalates) (hcount : s.server.consecutiveFailures = counted s.failures)
    (server : Bool) :
    Escalating ⟨s.server.backOff server, s.failures + 1,
      s.sleeps ++ [⟨s.failures + 1, (backoffSleep s.server.consecutiveFailures).2⟩]⟩ := by
  have hsleep := backoffSleep_counted s.failures
  rw [← hcount] at hsleep
  refine ⟨nofun, congrArg Prod.fst hsleep, ?_⟩
  intro e he
  rcases List.mem_append.1 he with he | he
  · exact h e he
  · rw [List.mem_singleton.1 he]
    exact congrArg Prod.snd hsleep

/-- A step that does not fail, and where the counter counts. -/
theorem quiet (h : s.Escalates) {server : PipeServer} {failures : Nat}
    (hzero : ZeroAtConnect ⟨server, failures, s.sleeps ++ []⟩)
    (hcount : Counts ⟨server, failures, s.sleeps ++ []⟩) :
    Escalating ⟨server, failures, s.sleeps ++ []⟩ :=
  ⟨hzero, hcount, by rwa [Backoff.Escalates, List.append_nil]⟩

/-- One step keeps the invariant, by what it does to the counter. -/
theorem step (h : Escalating s) (hfails : ConnectFailsFirst s i) (hs : s.step i = some s') :
    Escalating s' := by
  have hzero := h.zero.step hs
  have hcounts := h.counts
  obtain ⟨server, hserver, rfl⟩ := Backoff.step_eq hs
  cases i with
  | build r =>
    cases r with
    | ok u =>
      obtain ⟨-, -, rfl⟩ := PipeServer.build_ok hserver
      exact quiet h.sleeps hzero trivial
    | error e =>
      obtain ⟨hloop, rfl⟩ := PipeServer.build_error hserver
      rw [Counts, hloop] at hcounts
      rcases hfirst : s.server.first with _ | _
      · rw [hfirst] at hzero
        exact backOff h.sleeps hcounts false
      · rw [hfirst] at hzero
        exact quiet h.sleeps hzero trivial
  | connect r =>
    cases r with
    | ok u =>
      obtain ⟨-, rfl⟩ := PipeServer.connect_ok hserver
      exact quiet h.sleeps hzero rfl
    | error e =>
      obtain ⟨hloop, rfl⟩ := PipeServer.connect_error hserver
      -- the counter is 0, and there were no failures to count
      refine backOff h.sleeps ?_ true
      rw [h.zero hloop, show s.failures = 0 from hfails]
      rfl
  | wake =>
    obtain ⟨⟨secs, instanceOpen, hloop⟩, rfl⟩ := PipeServer.step_wake hserver
    rw [Counts, hloop] at hcounts
    exact quiet h.sleeps hzero hcounts
  | drop =>
    obtain rfl := PipeServer.step_drop hserver
    exact quiet h.sleeps hzero trivial
  | authenticated k =>
    obtain ⟨-, rfl⟩ := PipeServer.step_authenticated hserver
    exact quiet h.sleeps hzero hcounts
  | authFailed k | handled k =>
    obtain ⟨-, rfl⟩ := PipeServer.finish_eq hserver
    exact quiet h.sleeps hzero hcounts
  | squat =>
    obtain ⟨-, rfl⟩ := PipeServer.step_squat hserver
    exact quiet h.sleeps hzero hcounts
  | leave =>
    obtain rfl := PipeServer.step_leave hserver
    exact quiet h.sleeps hzero hcounts

end Escalating

/-- In a run in which only `connect` fails first, each sleep is as long as the failures say. -/
theorem escalating_of_reached (h : backoff.Reached ConnectFailsFirst s) : Escalating s := by
  refine h.invariant ?_ fun s i s' h hfails hs => h.step hfails hs
  rintro s ⟨⟨-, hcounter, hloop, -⟩, hfailures, hsleeps⟩
  refine ⟨?_, ?_, ?_⟩
  · exact fun hconnect => nomatch hloop.symm.trans hconnect
  · rw [Counts, hloop, hfailures]
    exact hcounter
  · rw [Backoff.Escalates, hsleeps]
    exact List.forall_mem_nil _

/-- A step to sleeps that escalate is from sleeps that do, and is no `connect` that fails after
another failure. -/
theorem connectFailsFirst_of_escalates (h : backoff.Reached (fun _ _ => True) s)
    (hs : s.step i = some s') (hsleeps : s'.Escalates) : s.Escalates ∧ ConnectFailsFirst s i := by
  refine ⟨?_, ?_⟩
  · obtain ⟨server, -, rfl⟩ := Backoff.step_eq hs
    exact fun e he => hsleeps e (List.mem_append_left _ he)
  · cases i with
    | connect r =>
      cases r with
      | ok u => trivial
      | error e =>
        have hsecs : 2 = min (2 ^ (s.failures + 1)) maxBackoffSecs := by
          refine hsleeps ⟨s.failures + 1, 2⟩ ?_
          rw [connect_backoff h hs]
          exact List.mem_append_right _ List.mem_cons_self
        change s.failures = 0
        by_contra hne
        have hpow : 2 ^ 2 ≤ 2 ^ (s.failures + 1) := Nat.pow_le_pow_right Nat.two_pos (by omega)
        rw [maxBackoffSecs] at hsecs
        omega
    | _ => trivial

end

/-- The sleeps of a run escalate exactly when each failed `connect` of it is the first failed
iteration since the last client: any instance that is created resets the counter, also when nobody
was connected. -/
theorem escalates_iff {s : Backoff} (h : backoff.Reached (fun _ _ => True) s) :
    s.Escalates ↔ backoff.Reached ConnectFailsFirst s :=
  ⟨h.restrict fun _ _ _ h hs hsleeps => connectFailsFirst_of_escalates h hs hsleeps,
    fun h => (escalating_of_reached h).sleeps⟩

/-- The server before its first instance, which has not slept. -/
def notSlept : Backoff := ⟨starting, 0, []⟩

/-- A server that has just started has not slept. -/
theorem reached_notSlept (P : Backoff → PipeEvent → Prop) : backoff.Reached P notSlept :=
  .init ⟨⟨rfl, rfl, rfl, rfl⟩, rfl, rfl⟩

/-- A client connects, and then no instance can be created, twice: the second sleep is longer. -/
theorem escalates_twice :
    Backoff.Escalates ⟨⟨false, 2, .backoffSleep 4 false, [.consumeAuthLine], false⟩, 2,
      [⟨1, 2⟩, ⟨2, 4⟩]⟩ := by
  have h0 := reached_notSlept ConnectFailsFirst
  have h1 := h0.step (PipeEvent.build (.ok ())) trivial rfl
  have h2 := h1.step (PipeEvent.connect (.ok ())) trivial rfl
  have h3 := h2.step (PipeEvent.build (.error "All pipe instances are busy")) trivial rfl
  have h4 := h3.step PipeEvent.wake trivial rfl
  have h5 := h4.step (PipeEvent.build (.error "All pipe instances are busy")) trivial rfl
  have hrun : backoff.exec [.build (.ok ()), .connect (.ok ()),
      .build (.error "All pipe instances are busy"), .wake,
      .build (.error "All pipe instances are busy")] notSlept = some _ := rfl
  exact (escalates_iff ((reached_notSlept _).exec hrun)).2 h5

/-- `connect` fails twice in a row, and both sleeps are of two seconds, as the instance in between
resets the counter. -/
theorem not_escalates : ¬ ∀ s, backoff.Reached (fun _ _ => True) s → s.Escalates := by
  intro h
  have hrun : backoff.exec [.build (.ok ()), .connect (.error "No process is on the other end"),
      .wake, .build (.ok ()), .connect (.error "No process is on the other end")] notSlept =
      some ⟨⟨false, 1, .backoffSleep 2 true, [], false⟩, 2, [⟨1, 2⟩, ⟨2, 2⟩]⟩ := rfl
  have hsleeps := h _ ((reached_notSlept _).exec hrun)
  have hsecs := hsleeps ⟨2, 2⟩ (List.mem_cons_of_mem _ List.mem_cons_self)
  exact absurd hsecs (by decide)

end TelegramMcp.LocalPipe
