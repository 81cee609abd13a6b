import TelegramMcp.Lib.System
import TelegramMcp.TgClient
import TelegramMcp.History.Effects
import TelegramMcp.Updater.Mapping

/-!
# The long-poll loop

`step` is one step of `Updater::run`: the read of the stored offset, a `getUpdates`, one turn of
the loop over a batch, or the write of the new offset. The environment gives the result of
`getUpdates` and the faults of the store calls, and may kill the process, which then starts over
with the database as it is.

The loop goes on when `record_inbound` fails and still acknowledges the batch, so an update whose
record failed is lost. When no record fails, an acknowledged update is a stored one: that is
`offset_sound`, an invariant of the run.
-/

namespace TelegramMcp.Updater

open Rust Txn History

/-- `UpdaterConfig`: the long-poll timeout, the kinds of updates to ask for, and the chats to store,
where none given are all. -/
structure UpdaterConfig where
  pollTimeoutSecs : Nat
  allowedUpdateKinds : List String
  allowedChats : Option (List I64)

/-- The body of a `getUpdates` request, as the client sends it. -/
structure GetUpdates where
  offset : I64
  timeout : Nat
  allowedUpdates : Option (List String)

/-- The request of the loop: no kinds are sent when none are configured. -/
def UpdaterConfig.getUpdates (cfg : UpdaterConfig) (offset : I64) : GetUpdates where
  offset
  timeout := cfg.pollTimeoutSecs
  allowedUpdates := if cfg.allowedUpdateKinds = [] then none else some cfg.allowedUpdateKinds

/-- The `update_id` of an update, when it has one that fits. -/
def updateId (u : Json) : Option I64 := (u.get "update_id").bind Json.asI64

/-- The rows to store for an update, unless it has none or its chat is not allowed. -/
def UpdaterConfig.storable (cfg : UpdaterConfig) (u : Json) : Option (ChatInfo × StoredMessage) :=
  (mapUpdate u).filter fun w => cfg.allowedChats.all fun allowed => allowed.contains w.1.chatId

/-- Where the loop is. In `storing`, `rest` is what is left of the batch and `maxUpdateId` the
largest identifier seen in it; a batch resets the backoff to one second. -/
inductive Phase
  | starting
  | polling (offset : I64) (backoff : Nat)
  | storing (offset : I64) (rest : List Json) (maxUpdateId : Option I64)
  | stopped (e : HistoryError)

/-- What the environment does: it runs the next store call under a schedule of faults, answers
`getUpdates`, or kills the process. -/
inductive Input
  | store (flt : Schedule HistoryError)
  | updates (r : Except TgClientError (List Json))
  | kill

/-- The offset to poll from at start: the stored one, or 0. -/
def startOffset (stored : Option String) : I64 := (stored.bind IntN.parse).getD (i64 0)

/-- The backoff after a failed `getUpdates`; a rate limit does not change it. -/
def nextBackoff : TgClientError → Nat → Nat
  | .rateLimited _, backoff => backoff
  | _, backoff => min (backoff * 2) 30

/-- The largest identifier seen so far, after another update. -/
def maxUpdate (m : Option I64) (u : Json) : Option I64 :=
  (updateId u).elim m fun i => some (m.elim i (max · i))

/-- After the read of the stored offset: the loop polls from there, or from 0, or stops with the
error. -/
def started : Outcome HistoryError (Option String) × Db → Phase × Db
  | (.ok stored, db) => (.polling (startOffset stored) 1, db)
  | (.err e, db) => (.stopped e, db)
  | (.crashed, db) => (.starting, db)

/-- After a `record_inbound`: an error is logged and the loop goes on. -/
def recorded (offset : I64) (rest : List Json) (m : Option I64) :
    Outcome HistoryError Unit × Db → Phase × Db
  | (.crashed, db) => (.starting, db)
  | (_, db) => (.storing offset rest m, db)

/-- After the write of the offset: the loop polls from it when it was written, else from the old
one. -/
def acknowledged (offset next : I64) : Outcome HistoryError Unit × Db → Phase × Db
  | (.ok _, db) => (.polling next 1, db)
  | (.err _, db) => (.polling offset 1, db)
  | (.crashed, db) => (.starting, db)

/-- One step of the loop: what `getUpdates` or a store call returns, or the end of the process. -/
def step [Fts5] (cfg : UpdaterConfig) : Input → Phase × Db → Option (Phase × Db)
  | .kill, (_, db) => some (.starting, db)
  | .store flt, (.starting, db) => some (started ((kvGet "update_offset").call flt db))
  | .updates (.ok us), (.polling offset _, db) => some (.storing offset us none, db)
  | .updates (.error e), (.polling offset backoff, db) =>
    some (.polling offset (nextBackoff e backoff), db)
  | .store flt, (.storing offset (u :: rest) m, db) =>
    match cfg.storable u with
    | none => some (.storing offset rest (maxUpdate m u), db)
    | some (chat, msg) =>
      some (recorded offset rest (maxUpdate m u) ((recordInbound chat msg).call flt db))
  | .store _, (.storing offset [] none, db) => some (.polling offset 1, db)
  | .store flt, (.storing offset [] (some m), db) =>
    let next := IntN.wrapping (m.val + 1)
    some (acknowledged offset next ((kvPut "update_offset" next.toText).call flt db))
  | _, _ => none

/-! ## The stored offset -/

/-- The offset in the database, if there is one that parses. -/
def persistedOffset (db : Db) : Option I64 := ((kvGet "update_offset").eval db).1.bind IntN.parse

/-- The offset the loop polls from after a start on this database. -/
def resumeOffset (db : Db) : I64 := startOffset ((kvGet "update_offset").eval db).1

/-- Without an offset in the store, polling starts at 0. -/
theorem resumeOffset_eq (db : Db) : resumeOffset db = (persistedOffset db).getD (i64 0) := rfl

/-- Recording a message does not touch the stored offset, whatever becomes of it. -/
@[simp] theorem persistedOffset_recordInbound [Fts5] (chat : ChatInfo) (msg : StoredMessage)
    (db : Db) :
    persistedOffset ((recordInbound chat msg).eval db).2 = persistedOffset db := by
  rw [recordInbound_eval]
  rfl

/-- The offset written is the offset read, as its decimal text is parsed again. -/
@[simp] theorem persistedOffset_kvPut (n : I64) (db : Db) :
    persistedOffset ((kvPut "update_offset" n.toText).eval db).2 = some n := by
  rw [persistedOffset, kvGet_kvPut, if_pos rfl, Option.bind_some, IntN.parse_toText]

/-- A read leaves the database as it is, whatever its outcome. -/
theorem kvGet_call {key : String} {flt : Schedule HistoryError} {db db' : Db}
    {out : Outcome HistoryError (Option String)} (h : (kvGet key).call flt db = (out, db')) :
    db' = db := by
  rw [← Op.call_query_snd (fun db : Db => (db.kv.find key).map Prod.snd) flt db]
  exact (congrArg Prod.snd h).symm

/-- A write of the offset that returns an error wrote nothing. -/
theorem kvPut_err {key value : String} {flt : Schedule HistoryError} {db db' : Db}
    {e : HistoryError} (h : (kvPut key value).call flt db = (.err e, db')) : db' = db :=
  (Op.atomicAt_statement _ flt db).err h

/-! ## Deliveries and records -/

/-- The loop and its database, with what Telegram has delivered and what has been recorded. The last
two only grow, and no branch of the loop looks at them. -/
structure Run where
  phase : Phase
  db : Db
  delivered : List Json := []
  recorded : List Json := []

/-- The updates that this step delivers to the loop. -/
def deliveredNow : Input → Phase → List Json
  | .updates (.ok us), .polling _ _ => us
  | _, _ => []

/-- The update whose `record_inbound` returns `Ok` in this step, if there is one. -/
def recordedNow [Fts5] (cfg : UpdaterConfig) : Input → Phase → Db → List Json
  | .store flt, .storing _ (u :: _) _, db =>
    match cfg.storable u with
    | some (chat, msg) =>
      match ((recordInbound chat msg).call flt db).1 with
      | .ok _ => [u]
      | _ => []
    | none => []
  | _, _, _ => []

/-- The loop as a system, which starts on any database. -/
def loop [Fts5] (cfg : UpdaterConfig) : System Run Input where
  init s := s.phase = .starting ∧ s.delivered = [] ∧ s.recorded = []
  step i s := (step cfg i (s.phase, s.db)).map fun (phase, db) =>
    { phase, db
      delivered := s.delivered ++ deliveredNow i s.phase
      recorded := s.recorded ++ recordedNow cfg i s.phase s.db }

/-- Telegram returns only updates from the requested offset on. -/
def Served (s : Run) (i : Input) : Prop :=
  match i, s.phase with
  | .updates (.ok us), .polling offset _ => ∀ u ∈ us, ∀ i ∈ updateId u, offset ≤ i
  | _, _ => True

/-- The process is not killed in this step, and does not crash in its store call. -/
def Input.Alive : Input → Prop
  | .kill => False
  | .store flt => ∀ n, flt ≠ some (n, .crash)
  | .updates _ => True

/-- The `record_inbound` of this step, if there is one, returns `Ok`. -/
def RecordOk [Fts5] (cfg : UpdaterConfig) (i : Input) (phase : Phase) (db : Db) : Prop :=
  match i, phase with
  | .store flt, .storing _ (u :: _) _ =>
    ∀ w ∈ cfg.storable u, ((recordInbound w.1 w.2).call flt db).1 = .ok ()
  | _, _ => True

/-- Every delivered update below the stored offset that is to be stored has been recorded. -/
def OffsetSound (cfg : UpdaterConfig) (s : Run) : Prop :=
  ∀ n, persistedOffset s.db = some n → ∀ u ∈ s.delivered, ∀ i, updateId u = some i → i < n →
    (cfg.storable u).isSome → u ∈ s.recorded

/-- What is left of the batch that the loop is storing. -/
def Phase.pending : Phase → List Json
  | .storing _ rest _ => rest
  | _ => []

/-- The offset that the loop holds in memory. -/
def Phase.offset : Phase → Option I64
  | .polling offset _ => some offset
  | .storing offset _ _ => some offset
  | _ => none

/-- The invariant of a run in which every record succeeds: what is delivered and to be stored is
recorded or pending, and nothing pending is below the offset in memory, which is the stored one if
there is one. -/
structure Sound (cfg : UpdaterConfig) (s : Run) : Prop where
  kept : ∀ u ∈ s.delivered, (cfg.storable u).isSome → u ∈ s.recorded ∨ u ∈ s.phase.pending
  stored : ∀ offset ∈ s.phase.offset, ∀ n ∈ persistedOffset s.db, n = offset
  ahead : ∀ offset ∈ s.phase.offset, ∀ u ∈ s.phase.pending, ∀ i ∈ updateId u, offset ≤ i

/-- The invariant gives the guarantee: what is below the stored offset is not pending, since the
loop writes an offset only when the batch below it is through. -/
theorem Sound.offsetSound {cfg : UpdaterConfig} {s : Run} (h : Sound cfg s) :
    OffsetSound cfg s := by
  intro n hn u hu i hi hlt hst
  rcases h.kept u hu hst with hr | hp
  · exact hr
  · cases hph : s.phase with
    | storing offset rest m =>
      have hoff : offset ∈ s.phase.offset := by rw [hph]; rfl
      have hle := h.ahead offset hoff u hp i hi
      rw [h.stored offset hoff n hn] at hlt
      exact absurd hle (not_le_of_gt hlt)
    | starting | polling | stopped => rw [hph] at hp; cases hp

section
variable [Fts5] {cfg : UpdaterConfig} {s s' : Run}

/-- A turn of the loop over a batch, when its record succeeds. -/
theorem Sound.turn {offset : I64} {u : Json} {rest : List Json} {m : Option I64}
    {flt : Schedule HistoryError} (h : Sound cfg s)
    (hphase : s.phase = .storing offset (u :: rest) m)
    (hok : RecordOk cfg (.store flt) s.phase s.db) (hs : (loop cfg).step (.store flt) s = some s') :
    Sound cfg s' := by
  obtain ⟨phase, db, dl, rc⟩ := s
  subst hphase
  have hahead : ∀ v ∈ rest, ∀ i ∈ updateId v, offset ≤ i := fun v hv =>
    h.ahead offset rfl v (List.mem_cons_of_mem u hv)
  cases hst : cfg.storable u with
  | none =>
    simp only [loop, step, hst, Option.map_some, deliveredNow, recordedNow, List.append_nil,
      Option.some.injEq] at hs
    subst hs
    refine ⟨fun v hv hvs => ?_, h.stored, fun o ho => ?_⟩
    · rcases h.kept v hv hvs with hr | hp
      · exact .inl hr
      · rcases List.mem_cons.1 hp with rfl | hp
        · rw [hst] at hvs; cases hvs
        · exact .inr hp
    · cases ho; exact hahead
  | some w =>
    obtain ⟨chat, msg⟩ := w
    have hout := hok (chat, msg) hst
    cases hcall : (recordInbound chat msg).call flt db with
    | mk out db' =>
      rw [hcall] at hout
      cases hout
      simp only [loop, step, hst, hcall, recorded, Option.map_some, deliveredNow, recordedNow,
        List.append_nil, Option.some.injEq] at hs
      subst hs
      have heval : ((recordInbound chat msg).eval db).2 = db' := by rw [Op.call_ok hcall]
      refine ⟨fun v hv hvs => ?_, fun o ho n hn => ?_, fun o ho => ?_⟩
      · rcases h.kept v hv hvs with hr | hp
        · exact .inl (List.mem_append_left _ hr)
        · rcases List.mem_cons.1 hp with rfl | hp
          · exact .inl (List.mem_append_right _ (List.mem_singleton.2 rfl))
          · exact .inr hp
      · rw [← heval, persistedOffset_recordInbound] at hn
        exact h.stored o ho n hn
      · cases ho; exact hahead

/-- The write of the offset at the end of a batch, past every update of it, all of which are
recorded. -/
theorem Sound.acknowledge {offset m : I64} {flt : Schedule HistoryError} (h : Sound cfg s)
    (hphase : s.phase = .storing offset [] (some m)) (hlive : (Input.store flt).Alive)
    (hs : (loop cfg).step (.store flt) s = some s') : Sound cfg s' := by
  obtain ⟨phase, db, dl, rc⟩ := s
  subst hphase
  cases hcall : (kvPut "update_offset" (IntN.wrapping (m.val + 1) : I64).toText).call flt db with
  | mk out db' =>
    simp only [loop, step, hcall, Option.map_some, deliveredNow, recordedNow, List.append_nil,
      Option.some.injEq] at hs
    subst hs
    have hkept : ∀ u ∈ dl, (cfg.storable u).isSome → u ∈ rc ∨ u ∈ ([] : List Json) := h.kept
    cases out with
    | ok a =>
      have hn : persistedOffset db' = some (IntN.wrapping (m.val + 1)) := by
        rw [← persistedOffset_kvPut _ db, Op.call_ok hcall]
      refine ⟨hkept, fun o ho n hn' => ?_, fun _ _ _ hu => nomatch hu⟩
      cases ho
      change n ∈ persistedOffset db' at hn'
      rw [hn] at hn'
      exact (Option.some.inj hn').symm
    | err e =>
      obtain rfl := kvPut_err hcall
      exact ⟨hkept, h.stored, fun _ _ _ hu => nomatch hu⟩
    | crashed =>
      exact absurd (congrArg Prod.fst hcall) (Op.call_ne_crashed _ hlive db)

/-- Every step in which Telegram keeps its part, the process lives and the record succeeds keeps
the invariant. -/
theorem Sound.step {i : Input} (h : Sound cfg s) (hserved : Served s i) (hlive : i.Alive)
    (hok : RecordOk cfg i s.phase s.db) (hs : (loop cfg).step i s = some s') : Sound cfg s' := by
  cases i with
  | kill => exact hlive.elim
  | updates r =>
    obtain ⟨phase, db, dl, rc⟩ := s
    cases phase with
    | polling offset backoff =>
      cases r with
      | ok us =>
        cases hs
        refine ⟨fun u hu hst => ?_, h.stored, fun o ho u hu i hi => ?_⟩
        · rcases List.mem_append.1 hu with hu | hu
          · rcases h.kept u hu hst with hr | hp
            · exact .inl (List.mem_append_left _ hr)
            · cases hp
          · exact .inr hu
        · cases ho
          exact hserved u hu i hi
      | error e =>
        cases hs
        refine ⟨?_, h.stored, fun _ _ _ hu => nomatch hu⟩
        simpa only [deliveredNow, recordedNow, Phase.pending, List.append_nil] using h.kept
    | starting | storing | stopped => cases r <;> cases hs
  | store flt =>
    cases hphase : s.phase with
    | starting =>
      obtain ⟨phase, db, dl, rc⟩ := s
      subst hphase
      cases hcall : (kvGet "update_offset").call flt db with
      | mk out db' =>
        obtain rfl := kvGet_call hcall
        simp only [loop, Updater.step, hcall, Option.map_some, deliveredNow, recordedNow,
          List.append_nil, Option.some.injEq] at hs
        subst hs
        cases out with
        | ok v =>
          refine ⟨h.kept, fun o ho n hn => ?_, fun _ _ _ hu => nomatch hu⟩
          have hv : ((kvGet "update_offset").eval db').1 = v := by rw [Op.call_ok hcall]
          cases ho
          change persistedOffset db' = some n at hn
          rw [← hv, ← resumeOffset, resumeOffset_eq, hn, Option.getD_some]
        | err e => exact ⟨h.kept, fun _ ho => (nomatch ho), fun _ ho => (nomatch ho)⟩
        | crashed => exact ⟨h.kept, fun _ ho => (nomatch ho), fun _ ho => (nomatch ho)⟩
    | polling | stopped =>
      rw [loop] at hs
      simp [Updater.step, hphase] at hs
    | storing offset rest m =>
      cases rest with
      | cons u rest => exact h.turn hphase hok hs
      | nil =>
        cases m with
        | some m => exact h.acknowledge hphase hlive hs
        | none =>
          obtain ⟨phase, db, dl, rc⟩ := s
          subst hphase
          cases hs
          refine ⟨?_, h.stored, fun _ _ _ hu => nomatch hu⟩
          simpa only [deliveredNow, recordedNow, Phase.pending, List.append_nil] using h.kept

end

/-- In every run of one process whose `record_inbound` calls all return `Ok`, nothing is
acknowledged without being stored: every delivered update below the stored offset was recorded,
unless it is one that is not to be stored. -/
theorem offset_sound [Fts5] (cfg : UpdaterConfig) (s : Run)
    (h : (loop cfg).Reached (fun s i => Served s i ∧ i.Alive ∧ RecordOk cfg i s.phase s.db) s) :
    OffsetSound cfg s := by
  refine Sound.offsetSound (h.invariant ?_ ?_)
  · rintro s ⟨hp, hd, -⟩
    refine ⟨?_, ?_, ?_⟩
    · rw [hd]; exact fun _ hu => nomatch hu
    · rw [hp]; exact fun _ ho => nomatch ho
    · rw [hp]; exact fun _ ho => nomatch ho
  · rintro s i s' hinv ⟨hserved, hlive, hok⟩ hs
    exact hinv.step hserved hlive hok hs

/-- A run on an empty store that records one message and acknowledges it, after which the message is
there. -/
theorem offset_sound_recorded :
    ∃ s : Run, persistedOffset s.db = some (i64 11) ∧ s.delivered.length = 1 ∧
      OffsetSound ⟨30, [], none⟩ s := by
  let := Fts5.ascii
  let cfg : UpdaterConfig := ⟨30, [], none⟩
  let P : Run → Input → Prop := fun s i => Served s i ∧ i.Alive ∧ RecordOk cfg i s.phase s.db
  let u := textUpdate 10 42 1 100 "hi"
  have h0 : (loop cfg).Reached P ⟨.starting, .migrated, [], []⟩ := .init ⟨rfl, rfl, rfl⟩
  have h1 : (loop cfg).Reached P ⟨.polling (i64 0) 1, .migrated, [], []⟩ :=
    .step (Input.store none) h0 ⟨trivial, nofun, trivial⟩ rfl
  have h2 : (loop cfg).Reached P ⟨.storing (i64 0) [u] none, .migrated, [u], []⟩ :=
    .step (Input.updates (.ok [u])) h1
      ⟨List.forall_mem_singleton.2 (by rintro _ ⟨⟩; decide), trivial, trivial⟩ rfl
  have h3 := h2.step (Input.store none) ⟨trivial, nofun, fun w _ => rfl⟩ rfl
  have h4 := h3.step (Input.store none) ⟨trivial, nofun, trivial⟩ rfl
  exact ⟨_, persistedOffset_kvPut (i64 11) _, rfl, offset_sound cfg _ h4⟩

/-- A run that polls a message, fails to record it on a full disk and acknowledges it all the same:
the failure is only logged, and the offset is written past the message. -/
theorem offset_unsound :
    ¬ ∀ (_ : Fts5) (cfg : UpdaterConfig) (s : Run),
      (loop cfg).Reached (fun s i => Served s i ∧ i.Alive) s → OffsetSound cfg s := by
  intro h
  let := Fts5.ascii
  let cfg : UpdaterConfig := ⟨30, [], none⟩
  let P : Run → Input → Prop := fun s i => Served s i ∧ i.Alive
  let u := textUpdate 10 42 1 100 "hi"
  have h0 : (loop cfg).Reached P ⟨.starting, .migrated, [], []⟩ := .init ⟨rfl, rfl, rfl⟩
  have h1 : (loop cfg).Reached P ⟨.polling (i64 0) 1, .migrated, [], []⟩ :=
    .step (Input.store none) h0 ⟨trivial, nofun⟩ rfl
  have h2 : (loop cfg).Reached P ⟨.storing (i64 0) [u] none, .migrated, [u], []⟩ :=
    .step (Input.updates (.ok [u])) h1
      ⟨List.forall_mem_singleton.2 (by rintro _ ⟨⟩; decide), trivial⟩ rfl
  have h3 : (loop cfg).Reached P ⟨.storing (i64 0) [] (some (i64 10)), .migrated, [u], []⟩ :=
    .step (Input.store (some (0, .error (.sqlite "database or disk is full")))) h2
      ⟨trivial, by rintro n ⟨⟩⟩ rfl
  have h4 := h3.step (Input.store none) ⟨trivial, nofun⟩ rfl
  have hlost := h _ cfg _ h4 (i64 11) (persistedOffset_kvPut (i64 11) _) u
    (List.mem_singleton.2 rfl) (i64 10) rfl (by decide) rfl
  exact nomatch hlost

end TelegramMcp.Updater
