import TelegramMcp.Updater.Moves

/-!
# The requests of the long-poll loop

`Exchange.result` is `get_updates_raw` from the HTTP exchange on, and `paced` the loop beside a
record of its requests: the offset of each, what came of it, and for how long the loop slept
afterwards. In every run, whatever fails and however often the process dies, the sleeps double from
one second up to thirty while requests fail, and a rate limit is waited out instead
(`waits_due`). When Telegram serves updates from the offset on only, the offsets never decrease, so
nothing that was acknowledged is asked for again (`offsets_increase`).
-/

namespace TelegramMcp.Updater

open Rust Txn History

/-! ## The client -/

/-- The HTTP exchange of a `getUpdates`: the URL does not parse, the exchange fails, or there is a
JSON document. -/
inductive Exchange
  | badUrl (source : String)
  | failed (source : String)
  | answered (resp : Json)

/-- The error in an answer that is not `ok`: a rate limit when it says so, or else its code and its
description. -/
def apiError (resp : Json) : TgClientError :=
  let code := asI32 (((resp.get "error_code").bind Json.asI64).getD (i64 0))
  let desc := ((resp.get "description").bind Json.asStr).getD ""
  if code.val = 429 then
    -- `as u32` keeps the low bits
    .rateLimited (((((resp.get "parameters").bind (·.get "retry_after")).bind Json.asU64).getD 1) %
      2 ^ 32)
  else .api code desc

/-- What `get_updates_raw` makes of the exchange: a URL that is none, a request that failed, an
answer that is not ok, and one without an array of updates are errors of their own. -/
def Exchange.result : Exchange → Except TgClientError (List Json)
  | badUrl source => .error (.invalidUrl source)
  | failed source => .error (.http source)
  | answered resp =>
    if (resp.get "ok").bind Json.asBool ≠ some true then .error (apiError resp)
    else
      ((resp.get "result").bind Json.asArray).elim
        (.error (.api (asI32 (i64 (-1))) "result is not an array")) .ok

/-! ## The record -/

/-- A request: its body, what came of it, the failed requests since the last that succeeded, and the
sleep after it. -/
structure Poll where
  request : GetUpdates
  exchange : Exchange
  failures : Nat
  wait : Nat

/-- The offset from which a request asks for updates. -/
def Poll.offset (p : Poll) : I64 := p.request.offset

/-- How long the loop is to sleep: not at all, for the time of a rate limit, or twice as long after
each failure. -/
def Poll.due (p : Poll) : Nat :=
  match p.exchange.result with
  | .ok _ => 0
  | .error (.rateLimited secs) => secs
  | .error _ => min (2 ^ p.failures) 30

/-- What happens to the loop: a request ends, the store call it is at runs and may fail, or the
process is killed and starts over. -/
inductive Happening
  | exchange (x : Exchange)
  | store (flt : Schedule HistoryError)
  | kill

/-- The input of the loop that this is. -/
def Happening.input : Happening → Input
  | exchange x => .updates x.result
  | store flt => .store flt
  | kill => .kill

/-- The loop with its database, the failures since the last success that count for the backoff, and
its requests so far, each with the sleep after it. -/
structure Paced where
  phase : Phase
  db : Db
  failures : Nat
  polls : List Poll

/-- A failed request counts; one that is rate limited does not. -/
def failuresAfter (failures : Nat) (phase : Phase) : Happening → Nat
  | .exchange x =>
    match x.result with
    | .ok _ => 0
    | .error (.rateLimited _) => failures
    | .error _ => failures + 1
  | .store _ | .kill =>
    match phase with
    | .starting => 0
    | _ => failures

/-- The sleep of the loop after an error: as long as a rate limit says, or else as the backoff has
it. -/
def sleepFor (backoff : Nat) : Except TgClientError (List Json) → Nat
  | .ok _ => 0
  | .error (.rateLimited secs) => secs
  | .error _ => backoff

/-- The request that ends in this step, with the offset it asked from. -/
def Paced.pollNow (cfg : UpdaterConfig) (s : Paced) : Happening → List Poll
  | .exchange x =>
    match s.phase with
    | .polling offset backoff =>
      [⟨cfg.getUpdates offset, x, s.failures, sleepFor backoff x.result⟩]
    | _ => []
  | _ => []

/-- The loop from any database on, with its requests and its sleeps. -/
def paced [Fts5] (cfg : UpdaterConfig) : System Paced Happening where
  init s := s.phase = .starting ∧ s.failures = 0 ∧ s.polls = []
  step h s := (step cfg h.input (s.phase, s.db)).map fun (phase, db) =>
    { phase, db, failures := failuresAfter s.failures phase h, polls := s.polls ++ s.pollNow cfg h }

section
variable [Fts5] {cfg : UpdaterConfig} {s s' : Paced} {h : Happening}

/-- A step of the paced loop is one of the loop, with the count of failures and the request that go
with it. -/
theorem paced_step (hs : (paced cfg).step h s = some s') :
    step cfg h.input (s.phase, s.db) = some (s'.phase, s'.db) ∧
      s'.failures = failuresAfter s.failures s'.phase h ∧
        s'.polls = s.polls ++ s.pollNow cfg h := by
  obtain ⟨⟨phase, db⟩, hstep, rfl⟩ := Option.map_eq_some_iff.1 hs
  exact ⟨hstep, rfl, rfl⟩

/-! ## The sleeps -/

omit [Fts5] in
/-- Doubling up to 30 seconds is doubling up to 30 seconds once more. -/
theorem min_two_pow_succ (n : Nat) : min (min (2 ^ n) 30 * 2) 30 = min (2 ^ (n + 1)) 30 := by
  rw [Nat.pow_succ]
  omega

/-- The backoff is that of the failures that count; there are none but while the loop polls. -/
def Backed (failures : Nat) : Phase → Prop
  | .polling _ backoff => backoff = min (2 ^ failures) 30
  | .starting | .storing _ _ _ => failures = 0
  | .stopped _ => True

/-- Every move keeps the backoff in step with the failures, by the move and what happened: a failure
that counts makes both grow, a success or a restart sets both back, and in between neither
changes. -/
theorem Backed.step {phase phase' : Phase} {db db' : Db} {failures : Nat}
    (hb : Backed failures phase) (hm : Moves cfg h.input phase db phase' db') :
    Backed (failuresAfter failures phase' h) phase' := by
  cases h with
  | kill =>
    cases hm
    rfl
  | store flt =>
    cases hm with
    | die | dieRecording | dieAcknowledging => rfl
    | stop => trivial
    | start | idle | acknowledge | refuse =>
      obtain rfl : failures = 0 := hb
      rfl
    | skip | record => exact hb
  | exchange x =>
    rw [failuresAfter]
    rw [Happening.input] at hm
    generalize x.result = r at hm ⊢
    cases hm with
    | deliver us => rfl
    | fail e offset backoff =>
      obtain rfl : backoff = min (2 ^ failures) 30 := hb
      cases e with
      | rateLimited secs => rfl
      | http | api | unknownAlias | invalidChat | invalidUrl | teloxide | download =>
        exact min_two_pow_succ failures

omit [Fts5] in
/-- The sleep after a request is the one that is due. -/
theorem Backed.due (hb : Backed s.failures s.phase) : ∀ p ∈ s.pollNow cfg h, p.wait = p.due := by
  intro p hp
  cases h with
  | store | kill => cases hp
  | exchange x =>
    rw [Paced.pollNow] at hp
    split at hp
    · next offset backoff hphase =>
      rw [hphase] at hb
      obtain rfl : backoff = min (2 ^ s.failures) 30 := hb
      rw [List.mem_singleton.1 hp, Poll.due]
      dsimp only
      cases x.result with
      | ok us => rfl
      | error e => cases e <;> rfl
    · cases hp

end

/-- The backoff is the one for the failures so far, and so was every sleep until now. -/
structure Punctual (s : Paced) : Prop where
  backed : Backed s.failures s.phase
  due : ∀ p ∈ s.polls, p.wait = p.due

/-- In every run of the loop, from any database, whatever fails and whenever the process dies: it
sleeps as long as it is due, which is the time Telegram asks for when it limits the rate, and else
one second after the first failure since the last success or start, and twice as long after each
one that follows, up to thirty seconds. -/
theorem waits_due [Fts5] (cfg : UpdaterConfig) (s : Paced)
    (h : (paced cfg).Reached (fun _ _ => True) s) : ∀ p ∈ s.polls, p.wait = p.due := by
  have hinv : Punctual s := by
    refine h.invariant ?_ ?_
    · rintro s ⟨hphase, hfailures, hpolls⟩
      refine ⟨?_, ?_⟩
      · rw [hphase]
        exact hfailures
      · rw [hpolls]
        exact fun _ hp => nomatch hp
    · rintro s i s' ⟨hb, hdue⟩ - hs
      obtain ⟨hstep, hfailures, hpolls⟩ := paced_step hs
      refine ⟨?_, ?_⟩
      · rw [hfailures]
        exact hb.step (moves_of_step hstep)
      · intro p hp
        rw [hpolls] at hp
        rcases List.mem_append.1 hp with hp | hp
        · exact hdue p hp
        · exact hb.due p hp
  exact hinv.due

/-- Every request so far asks for the configured kinds of updates, and to be held for the
configured time. -/
def Configured (cfg : UpdaterConfig) (s : Paced) : Prop :=
  ∀ p ∈ s.polls, p.request = cfg.getUpdates p.offset

/-- In every run, `run` asks for what its configuration says, whichever offset it is at. -/
theorem requests_configured [Fts5] (cfg : UpdaterConfig) (s : Paced)
    (h : (paced cfg).Reached (fun _ _ => True) s) : Configured cfg s := by
  refine h.invariant ?_ ?_
  · rintro s ⟨-, -, hpolls⟩ p hp
    rw [hpolls] at hp
    cases hp
  · rintro s i s' hinv - hs p hp
    rw [(paced_step hs).2.2] at hp
    rcases List.mem_append.1 hp with hp | hp
    · exact hinv p hp
    · cases i with
      | store | kill => cases hp
      | exchange x =>
        rw [Paced.pollNow] at hp
        split at hp
        · rw [List.mem_singleton.1 hp]
          rfl
        · cases hp

/-- An answer that there were too many requests, which says when to come back. -/
def tooMany : Exchange :=
  .answered (.obj [("ok", .bool false), ("error_code", .int 429),
    ("parameters", .obj [("retry_after", .int 7)])])

/-- Requests that fail one after another, with a rate limit in between, whose time is waited
besides. -/
theorem waits_due_failing :
    ∃ s : Paced, s.polls.map Poll.wait = [1, 2, 7, 4] ∧ ∀ p ∈ s.polls, p.wait = p.due := by
  let := Fts5.ascii
  let cfg : UpdaterConfig := ⟨30, [], none⟩
  have hrun : ((paced cfg).exec [.store none, .exchange (.failed "timeout"),
      .exchange (.failed "timeout"), .exchange tooMany, .exchange (.failed "timeout")]
        ⟨.starting, .migrated, 0, []⟩).map (fun s => s.polls.map Poll.wait) =
          some [1, 2, 7, 4] := by decide +kernel
  obtain ⟨s, hexec, hwaits⟩ := Option.map_eq_some_iff.1 hrun
  exact ⟨s, hwaits, waits_due cfg s (System.Reached.exec (.init ⟨rfl, rfl, rfl⟩) hexec)⟩

/-! ## The offsets -/

section
variable {cfg : UpdaterConfig} {s s' : Paced} {h : Happening}

/-- Telegram returns updates from the offset on, and their identifiers are below the largest `i64`,
so that the next offset is larger. -/
def ServedFrom (s : Paced) : Happening → Prop
  | .exchange x => ∀ us, x.result = .ok us → ∀ offset ∈ s.phase.offset, ∀ u ∈ us,
    ∀ i ∈ updateId u, offset ≤ i ∧ i.val < 2 ^ 63 - 1
  | _ => True

/-- The identifiers of the batch in the loop's hands are from its offset on. -/
def BatchFrom : Phase → Prop
  | .storing offset rest m => (∀ u ∈ rest, ∀ i ∈ updateId u, offset ≤ i ∧ i.val < 2 ^ 63 - 1) ∧
    ∀ i ∈ m, offset ≤ i ∧ i.val < 2 ^ 63 - 1
  | _ => True

/-- The offset in memory is the one that a start would read, and no request was from a later one. -/
structure Increasing (s : Paced) : Prop where
  sorted : (s.polls.map Poll.offset).Pairwise (· ≤ ·)
  below : ∀ p ∈ s.polls, p.offset ≤ resumeOffset s.db
  current : ∀ offset ∈ s.phase.offset, offset = resumeOffset s.db
  batch : BatchFrom s.phase

/-- The offset to be written is later than the one in memory. -/
theorem lt_next {offset m : I64} (h : offset ≤ m ∧ m.val < 2 ^ 63 - 1) :
    offset ≤ (IntN.wrapping (m.val + 1) : I64) := by
  have hval : (IntN.wrapping (m.val + 1) : I64).val = m.val + 1 := by
    refine (IntN.wrapping_val_eq_iff (by decide)).2 ?_
    have hrange := m.2
    norm_num at hrange ⊢
    omega
  change offset.val ≤ (IntN.wrapping (m.val + 1) : I64).val
  have hle : offset.val ≤ m.val := h.1
  omega

/-- Another update of the batch keeps the largest identifier from the offset on. -/
theorem BatchFrom.turn {offset : I64} {u : Json} {rest : List Json} {m : Option I64}
    (hb : BatchFrom (.storing offset (u :: rest) m)) :
    BatchFrom (.storing offset rest (maxUpdate m u)) := by
  obtain ⟨hrest, hm⟩ := hb
  refine ⟨fun v hv => hrest v (List.mem_cons_of_mem u hv), ?_⟩
  rw [maxUpdate]
  cases hu : updateId u with
  | none => exact hm
  | some i =>
    have hi := hrest u List.mem_cons_self i hu
    rintro _ ⟨⟩
    cases m with
    | none => exact hi
    | some m =>
      rcases le_total m i with hle | hle
      · rw [Option.elim_some, max_eq_right hle]
        exact hi
      · rw [Option.elim_some, max_eq_left hle]
        exact hm m rfl

/-- Recording a message leaves the offset that a restart reads. -/
theorem resumeOffset_recordInbound [Fts5] (chat : ChatInfo) (msg : StoredMessage)
    (flt : Schedule HistoryError) (db : Db) :
    resumeOffset ((recordInbound chat msg).call flt db).2 = resumeOffset db := by
  rcases (Op.atomicAt_transaction _ flt db).snd with heq | heq
  · exact congrArg resumeOffset heq
  · refine (congrArg resumeOffset heq).trans ?_
    rw [resumeOffset_eq, resumeOffset_eq]
    exact congrArg (·.getD (i64 0)) (persistedOffset_recordInbound chat msg db)

/-- The offset written is the one that a restart reads. -/
theorem resumeOffset_kvPut (n : I64) (db : Db) :
    resumeOffset ((kvPut "update_offset" n.toText).eval db).2 = n := by
  rw [resumeOffset_eq, persistedOffset_kvPut, Option.getD_some]

/-- A step does not take back the offset that a start reads, as long as what Telegram serves is not
below the requested one; and the loop asks for no other than the stored one. -/
theorem Moves.forward [Fts5] {i : Input} {phase phase' : Phase} {db db' : Db}
    (hm : Moves cfg i phase db phase' db')
    (hcurrent : ∀ offset ∈ phase.offset, offset = resumeOffset db) (hbatch : BatchFrom phase)
    (hserved : ∀ us, i = .updates (.ok us) → ∀ offset ∈ phase.offset, ∀ u ∈ us,
      ∀ i ∈ updateId u, offset ≤ i ∧ i.val < 2 ^ 63 - 1) :
    resumeOffset db ≤ resumeOffset db' ∧
      (∀ offset ∈ phase'.offset, offset = resumeOffset db') ∧ BatchFrom phase' := by
  cases hm with
  | kill | die | stop => exact ⟨le_refl _, fun _ ho => (nomatch ho), trivial⟩
  | start =>
    refine ⟨le_refl _, ?_, trivial⟩
    rintro _ ⟨⟩
    rfl
  | deliver us offset backoff =>
    exact ⟨le_refl _, hcurrent, hserved us rfl offset rfl, fun _ hi => (nomatch hi)⟩
  | fail => exact ⟨le_refl _, hcurrent, trivial⟩
  | skip => exact ⟨le_refl _, hcurrent, hbatch.turn⟩
  | record =>
    rw [resumeOffset_recordInbound]
    exact ⟨le_refl _, hcurrent, hbatch.turn⟩
  | dieRecording =>
    rw [resumeOffset_recordInbound]
    exact ⟨le_refl _, fun _ ho => (nomatch ho), trivial⟩
  | idle | refuse => exact ⟨le_refl _, hcurrent, trivial⟩
  | acknowledge flt offset m =>
    obtain rfl := hcurrent offset rfl
    rw [resumeOffset_kvPut]
    refine ⟨lt_next (hbatch.2 m rfl), ?_, trivial⟩
    rintro _ ⟨⟩
    rfl
  | dieAcknowledging flt offset m hdb =>
    obtain rfl := hcurrent offset rfl
    refine ⟨?_, fun _ ho => (nomatch ho), trivial⟩
    rcases hdb with rfl | rfl
    · exact le_refl _
    · rw [resumeOffset_kvPut]
      exact lt_next (hbatch.2 m rfl)

/-- Every step keeps the offsets in order: the one of the next request is at least the last one and
the stored one. -/
theorem Increasing.step [Fts5] (hinv : Increasing s) (hserved : ServedFrom s h)
    (hs : (paced cfg).step h s = some s') : Increasing s' := by
  obtain ⟨hstep, -, hpolls⟩ := paced_step hs
  have hserved' : ∀ us, h.input = .updates (.ok us) → ∀ offset ∈ s.phase.offset, ∀ u ∈ us,
      ∀ i ∈ updateId u, offset ≤ i ∧ i.val < 2 ^ 63 - 1 := by
    intro us hus
    cases h with
    | store | kill => cases hus
    | exchange x => exact hserved us (Input.updates.inj hus)
  obtain ⟨hle, hcurrent, hbatch⟩ :=
    (moves_of_step hstep).forward hinv.current hinv.batch hserved'
  -- a request is from the offset in memory
  have hnow : s.pollNow cfg h = [] ∨
      ∃ p : Poll, s.pollNow cfg h = [p] ∧ p.offset = resumeOffset s.db := by
    cases h with
    | store | kill => exact .inl rfl
    | exchange x =>
      rw [Paced.pollNow]
      split
      · next offset backoff hphase =>
        exact .inr ⟨_, rfl, hinv.current offset (by rw [hphase]; rfl)⟩
      · exact .inl rfl
  refine ⟨?_, ?_, hcurrent, hbatch⟩
  · rw [hpolls]
    rcases hnow with hnow | ⟨p, hnow, hp⟩
    · rw [hnow, List.append_nil]
      exact hinv.sorted
    · rw [hnow, List.map_append, List.pairwise_append]
      refine ⟨hinv.sorted, List.pairwise_singleton _ _, ?_⟩
      intro a ha b hb
      obtain ⟨q, hq, rfl⟩ := List.mem_map.1 ha
      rw [List.mem_singleton.1 hb, hp]
      exact hinv.below q hq
  · intro q hq
    rw [hpolls] at hq
    rcases List.mem_append.1 hq with hq | hq
    · exact (hinv.below q hq).trans hle
    · rcases hnow with hnow | ⟨p, hnow, hp⟩
      · rw [hnow] at hq
        cases hq
      · rw [hnow] at hq
        rw [List.mem_singleton.1 hq, hp]
        exact hle

end

/-- In every run of the loop in which Telegram returns updates from the offset on only, the offsets
of the requests never decrease: not when a request or a store call fails, nor when the process dies
and starts over. -/
theorem offsets_increase [Fts5] (cfg : UpdaterConfig) (s : Paced)
    (h : (paced cfg).Reached ServedFrom s) : (s.polls.map Poll.offset).Pairwise (· ≤ ·) := by
  have hinv : Increasing s := by
    refine h.invariant ?_ ?_
    · rintro s ⟨hphase, -, hpolls⟩
      refine ⟨?_, ?_, ?_, ?_⟩
      · rw [hpolls]
        exact .nil
      · rw [hpolls]
        exact fun _ hp => nomatch hp
      · rw [hphase]
        exact fun _ ho => nomatch ho
      · rw [hphase]
        trivial
    · rintro s i s' hinv hserved hs
      exact hinv.step hserved hs
  exact hinv.sorted

/-- A message is stored and acknowledged between two requests, the second of which asks from behind
it. -/
theorem offsets_increase_acknowledged :
    ∃ s : Paced, s.polls.map Poll.offset = [i64 0, i64 11] ∧
      (s.polls.map Poll.offset).Pairwise (· ≤ ·) := by
  let := Fts5.ascii
  let cfg : UpdaterConfig := ⟨30, [], none⟩
  let u := textUpdate 10 42 1 100 "hi"
  let x : Exchange := .answered (.obj [("ok", .bool true), ("result", .arr [u])])
  have h0 : (paced cfg).Reached ServedFrom ⟨.starting, .migrated, 0, []⟩ := .init ⟨rfl, rfl, rfl⟩
  have h1 : (paced cfg).Reached ServedFrom ⟨.polling (i64 0) 1, .migrated, 0, []⟩ :=
    .step (Happening.store none) h0 trivial rfl
  have hserved : ServedFrom ⟨.polling (i64 0) 1, .migrated, 0, []⟩ (.exchange x) := by
    rintro _ ⟨⟩ _ ⟨⟩ v hv i hi
    rw [List.mem_singleton.1 hv] at hi
    cases hi
    decide
  have h2 := h1.step (Happening.exchange x) hserved rfl
  have h3 := h2.step (Happening.store none) trivial rfl
  have h4 := h3.step (Happening.store none) trivial rfl
  have h5 := h4.step (Happening.exchange (.failed "timeout")) nofun rfl
  exact ⟨_, rfl, offsets_increase cfg _ h5⟩

end TelegramMcp.Updater
