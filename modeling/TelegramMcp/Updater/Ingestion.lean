import TelegramMcp.Lib.Replay
import TelegramMcp.Updater.Polling

/-!
# Ingestion across restarts

The loop together with Telegram's queue. Updates arrive with increasing identifiers; `getUpdates`
answers with some of the first pending ones from the offset on, and drops those below it. It may
fail, the write of the offset may fail, and the process may die and start over at any step.

Redelivered updates are recorded again, in another order than they arrived. The order in which they
are processed follows the arrivals, and what is acknowledged is settled (`Ingested`), so right after
a successful write of the offset the tables are those of a single pass over the updates below it
(`ingestion_exactly_once`).
-/

namespace TelegramMcp.Updater

open Rust Txn History Keyed Replay

/-- An update with the identifier that Telegram gave it, which is the one in its JSON, positive and
not the largest `i64`. -/
structure Update where
  json : Json
  id : I64
  updateId_json : updateId json = some id
  pos : i64 0 < id
  lt : id < i64 (2 ^ 63 - 1)

/-- The loop, its database and Telegram's queue: `arrived` are all updates so far, `pending` those
Telegram has not dropped, `delivered` those it has returned at least once. -/
structure World where
  arrived : List Update
  pending : List Update
  delivered : List Update
  phase : Phase
  db : Db

/-- The pending updates from an offset on, which is what a request with this offset is served. -/
def World.due (w : World) (offset : I64) : List Update := w.pending.filter (offset ≤ ·.id)

/-- What happens: an update arrives; `getUpdates` returns the first `n` updates due, or fails after
or before the request reached Telegram; the next store call runs under a schedule; the process is
killed. -/
inductive Event
  | arrive (u : Update)
  | poll (n : Nat)
  | pollFails (e : TgClientError) (reached : Bool)
  | store (flt : Schedule HistoryError)
  | kill

section
variable [Fts5] (cfg : UpdaterConfig)

/-- The step of the loop, on an input that leaves Telegram alone. -/
def World.loopStep (i : Input) (w : World) : Option World :=
  (step cfg i (w.phase, w.db)).map fun (phase, db) => { w with phase, db }

/-- An update arrives at Telegram, a batch of the pending ones is delivered from the requested
offset on, a request fails after Telegram has seen its offset or before, or the loop makes its next
store call or is killed. -/
def World.step : Event → World → Option World
  | .arrive u, w =>
    if ∀ v ∈ w.arrived, v.id < u.id then
      some { w with arrived := w.arrived ++ [u], pending := w.pending ++ [u] }
    else none
  | .poll n, w => do
    let offset ← w.phase.offset
    let batch := (w.due offset).take n
    { w with pending := w.due offset, delivered := w.delivered ++ batch }.loopStep cfg
      (.updates (.ok (batch.map Update.json)))
  | .pollFails e reached, w => do
    let offset ← w.phase.offset
    { w with pending := if reached then w.due offset else w.pending }.loopStep cfg
      (.updates (.error e))
  | .store flt, w => w.loopStep cfg (.store flt)
  | .kill, w => w.loopStep cfg .kill

/-- Ingestion from an empty store: Telegram's queue on the one side, and the loop with its store on
the other. -/
def ingestion : System World Event where
  init w := w = ⟨[], [], [], .starting, .migrated⟩
  step := World.step cfg

/-- The `record_inbound` of this event, if there is one, returns `Ok`. -/
def Recorded (w : World) : Event → Prop
  | .store flt => RecordOk cfg (.store flt) w.phase w.db
  | _ => True

/-- The database after the updates are recorded once each, in this order. -/
def replayed (us : List Update) : Db :=
  (us.filterMap fun u => cfg.storable u.json).foldl
    (fun db r => ((recordInbound r.1 r.2).eval db).2) .migrated

/-- The event writes `n` as the offset, successfully: what is below it is not delivered again. -/
def Acknowledges (w : World) (e : Event) (n : I64) (w' : World) : Prop :=
  ∃ flt offset m, e = .store flt ∧ w.phase = .storing offset [] (some m) ∧
    n = IntN.wrapping (m.val + 1) ∧ World.step cfg e w = some w' ∧
    (kvPut "update_offset" n.toText).call flt w.db = (.ok (), w'.db)

end

/-- The same chats and the same messages. The row numbers may differ, since a message that is stored
again keeps its row and one stored in another order gets another. -/
structure SameContent (d e : Db) : Prop where
  chats : ∀ k, d.chats.find k = e.chats.find k
  messages : ∀ k, d.messages.row k = e.messages.row k

/-- All chats, and the chats of all messages, are on the list of the configuration, if it has one.
This is what the filter of the loop preserves. -/
structure OnlyAllowed (cfg : UpdaterConfig) (db : Db) : Prop where
  chats : ∀ allowed ∈ cfg.allowedChats, ∀ r ∈ db.chats.rows, r.chatId ∈ allowed
  messages : ∀ allowed ∈ cfg.allowedChats, ∀ r ∈ db.messages.rows, r.2.chatId ∈ allowed

/-! ## A single pass -/

section
variable [Fts5] (cfg : UpdaterConfig)

/-- One more update: its rows are recorded, if it has any. -/
theorem replayed_concat (us : List Update) (u : Update) :
    replayed cfg (us ++ [u]) =
      (cfg.storable u.json).elim (replayed cfg us) fun r =>
        ((recordInbound r.1 r.2).eval (replayed cfg us)).2 := by
  rw [replayed, List.filterMap_append]
  cases h : cfg.storable u.json <;> simp [replayed, h]

/-- The chats of a single pass over the updates are those of a run of upserts. -/
theorem replayed_chats (us : List Update) :
    (replayed cfg us).chats =
      (us.filterMap fun u => (cfg.storable u.json).map Prod.fst).foldl
        (fun t c => t.upsert chatConflict c) .empty := by
  induction us using List.reverseRecOn with
  | nil => rfl
  | append_singleton us u ih =>
    rw [replayed_concat, List.filterMap_append, List.foldl_append, ← ih]
    cases h : cfg.storable u.json <;> simp [h]

/-- The messages of a single pass over the updates are those of a run of upserts. -/
theorem replayed_messages (us : List Update) :
    (replayed cfg us).messages =
      (us.filterMap fun u => (cfg.storable u.json).map Prod.snd).foldl
        (fun t m => t.upsert messageConflict m) .empty := by
  induction us using List.reverseRecOn with
  | nil => rfl
  | append_singleton us u ih =>
    rw [replayed_concat, List.filterMap_append, List.foldl_append, ← ih]
    cases h : cfg.storable u.json <;> simp [h]

/-- A log that follows the updates `C` and has settled them leaves the tables of a pass over `C`. -/
theorem sameContent_of_follows {C log : List Update} (h : Follows Update.id C log)
    (hC : Ascending Update.id C) (hset : ∀ u ∈ C, Settled Update.id log u) :
    SameContent (replayed cfg log) (replayed cfg C) where
  chats k := by
    rw [replayed_chats, replayed_chats, find_foldl_upsert chatConflict_absorbing,
      find_foldl_upsert chatConflict_absorbing]
    exact h.written_filterMap hC hset chatConflict _ k
  messages k := by
    rw [replayed_messages, replayed_messages, row_foldl_upsert messageConflict_absorbing,
      row_foldl_upsert messageConflict_absorbing]
    exact h.written_filterMap hC hset messageConflict _ k

end

/-! ## The invariant -/

/-- A batch in the middle: `done` is processed, `todo` is not. Together they are the first updates
due from the offset on. -/
structure Batch (arrived delivered log : List Update) (offset : I64) (rest : List Json)
    (m : Option I64) (done todo : List Update) : Prop where
  rest : rest = todo.map Update.json
  due : (done ++ todo) <+: arrived.filter (offset ≤ ·.id)
  settled : ∀ u ∈ done, Settled Update.id log u
  largest : m = done.getLast?.map Update.id
  delivered : ∀ u ∈ todo, u ∈ delivered

/-- The updates processed so far, in the order of `log`: they follow the arrivals, the tables are
those of a pass over them, and what is below the stored offset is settled. Telegram still has
everything from the stored offset on. -/
structure Ingested [Fts5] (cfg : UpdaterConfig) (w : World) (log : List Update) : Prop where
  ascending : Ascending Update.id w.arrived
  follows : Follows Update.id w.arrived log
  delivered : ∀ u ∈ log, u ∈ w.delivered
  chats : w.db.chats = (replayed cfg log).chats
  messages : w.db.messages = (replayed cfg log).messages
  settled : ∀ u ∈ w.arrived, u.id < resumeOffset w.db → Settled Update.id log u
  low : ∀ i, i64 0 < i → (∀ u ∈ w.arrived, u.id < i) → resumeOffset w.db ≤ i
  queue : w.due (resumeOffset w.db) = w.arrived.filter (resumeOffset w.db ≤ ·.id)
  offset : ∀ o ∈ w.phase.offset, o = resumeOffset w.db
  batch : ∀ offset rest m, w.phase = .storing offset rest m →
    ∃ done todo, Batch w.arrived w.delivered log offset rest m done todo

/-- The loop has no batch in its hands, so that everything delivered is settled. -/
def Phase.Idle (ph : Phase) : Prop := ∀ offset rest m, ph ≠ .storing offset rest m

/-- A loop that polls has no batch in its hands. -/
theorem idle_polling (offset : I64) (backoff : Nat) : (Phase.polling offset backoff).Idle :=
  fun _ _ _ => nofun

/-- Neither has one that starts. -/
theorem idle_starting : Phase.starting.Idle := fun _ _ _ => nofun

/-- Neither has one that has stopped. -/
theorem idle_stopped (e : HistoryError) : (Phase.stopped e).Idle := fun _ _ _ => nofun

section
variable [Fts5] {cfg : UpdaterConfig} {w w' : World} {log : List Update}

/-- A step of the loop changes its phase and the store only. -/
theorem loopStep_eq_some {i : Input} (h : w.loopStep cfg i = some w') :
    ∃ ph db, step cfg i (w.phase, w.db) = some (ph, db) ∧ w' = { w with phase := ph, db } := by
  obtain ⟨⟨ph, db⟩, hs, rfl⟩ := Option.map_eq_some_iff.1 h
  exact ⟨ph, db, hs, rfl⟩

/-- At the start nothing has arrived and nothing is stored. -/
theorem ingested_init : Ingested cfg ⟨[], [], [], .starting, .migrated⟩ [] where
  ascending := .nil
  follows := follows_nil []
  delivered _ hu := nomatch hu
  chats := rfl
  messages := rfl
  settled _ hu := nomatch hu
  low _ hi _ := le_of_lt hi
  queue := rfl
  offset _ ho := nomatch ho
  batch _ _ _ h := nomatch h

/-- An update that arrives is above all the others and has not been delivered. -/
theorem Ingested.arrive (h : Ingested cfg w log) {u : Update} (hu : ∀ v ∈ w.arrived, v.id < u.id) :
    Ingested cfg { w with arrived := w.arrived ++ [u], pending := w.pending ++ [u] } log where
  ascending := h.ascending.concat hu
  follows := h.follows.emit hu
  delivered := h.delivered
  chats := h.chats
  messages := h.messages
  settled v hv hlt := by
    rcases List.mem_append.1 hv with hv | hv
    · exact h.settled v hv hlt
    · rw [List.mem_singleton.1 hv] at hlt
      exact absurd (h.low u.id u.pos hu) (not_le_of_gt hlt)
  low i hi hall := h.low i hi fun v hv => hall v (List.mem_append_left _ hv)
  queue := by
    have hq := h.queue
    simp only [World.due, List.filter_append] at hq ⊢
    rw [hq]
  offset := h.offset
  batch offset rest m hph := by
    obtain ⟨done, todo, hb⟩ := h.batch offset rest m hph
    refine ⟨done, todo, { hb with due := hb.due.trans ?_ }⟩
    rw [List.filter_append]
    exact List.prefix_append _ _

/-- Telegram drops what is below the requested offset, all of which is settled: it was recorded or
filtered out before an offset above it was written. -/
theorem Ingested.drop (h : Ingested cfg w log) :
    Ingested cfg { w with pending := w.due (resumeOffset w.db) } log :=
  { h with
    queue := by
      have hq := h.queue
      simp only [World.due, List.filter_filter, Bool.and_self] at hq ⊢
      exact hq }

/-- The loop may go to any phase in which it has no batch. -/
theorem Ingested.idle (h : Ingested cfg w log) {ph : Phase} (hidle : ph.Idle)
    (ho : ∀ o ∈ ph.offset, o = resumeOffset w.db) : Ingested cfg { w with phase := ph } log :=
  { h with
    offset := ho
    batch := fun offset rest m hph => absurd hph (hidle offset rest m) }

/-- Telegram returns the first updates due, which are a batch in ascending order. -/
theorem Ingested.deliver (h : Ingested cfg w log) (n : Nat) :
    Ingested cfg { w with
      delivered := w.delivered ++ (w.due (resumeOffset w.db)).take n
      phase := .storing (resumeOffset w.db)
        (((w.due (resumeOffset w.db)).take n).map Update.json) none } log :=
  { h with
    delivered := fun u hu => List.mem_append_left _ (h.delivered u hu)
    offset := fun o ho => (Option.some.inj ho).symm
    batch := by
      rintro offset rest m hph
      cases hph
      refine ⟨[], (w.due (resumeOffset w.db)).take n, ⟨rfl, ?_, fun u hu => (nomatch hu), rfl,
        fun u hu => List.mem_append_right _ hu⟩⟩
      rw [List.nil_append, h.queue]
      exact List.take_prefix _ _ }

/-- The updates of a batch are due arrivals in ascending order. -/
theorem Ingested.batch_ascending (h : Ingested cfg w log) {offset : I64} {us : List Update}
    (hdue : us <+: w.arrived.filter (offset ≤ ·.id)) : Ascending Update.id us :=
  (h.ascending.filter _).sublist hdue.sublist

/-- What precedes an update of a batch in Telegram's order is settled or earlier in the batch. -/
theorem Ingested.settled_or_mem (h : Ingested cfg w log) {offset : I64}
    (ho : offset = resumeOffset w.db) {us : List Update}
    (hdue : us <+: w.arrived.filter (offset ≤ ·.id)) {a c : Update} (ha : a ∈ us)
    (hc : c ∈ w.arrived) (hlt : c.id < a.id) : Settled Update.id log c ∨ c ∈ us := by
  by_cases hoc : offset ≤ c.id
  · have hcf : c ∈ w.arrived.filter (offset ≤ ·.id) :=
      List.mem_filter.2 ⟨hc, decide_eq_true hoc⟩
    exact .inr (Ascending.mem_initial (h.ascending.filter _) hdue ha hcf hlt)
  · exact .inl (h.settled c hc (ho ▸ not_le.1 hoc))

/-- The next update of the batch is processed: its rows are recorded if it has any, and the log
goes on with it. -/
theorem Ingested.turn (h : Ingested cfg w log) {offset : I64} {m : Option I64} {a : Update}
    {done todo : List Update} (ho : offset = resumeOffset w.db)
    (hb : Batch w.arrived w.delivered log offset ((a :: todo).map Update.json) m done (a :: todo))
    {db' : Db} (hdb : db' = (cfg.storable a.json).elim w.db fun r =>
      ((recordInbound r.1 r.2).eval w.db).2) :
    Ingested cfg { w with
      phase := .storing offset (todo.map Update.json) (maxUpdate m a.json), db := db' }
      (log ++ [a]) := by
  have hmem : a ∈ done ++ a :: todo := List.mem_append_right _ List.mem_cons_self
  obtain ⟨haa, hoa⟩ := List.mem_filter.1 (hb.due.subset hmem)
  have hasc := List.pairwise_append.1 (h.batch_ascending hb.due)
  have hdone : ∀ u ∈ done, u.id < a.id := fun u hu => hasc.2.2 u hu a List.mem_cons_self
  have hresume : resumeOffset db' = resumeOffset w.db := by
    subst hdb
    cases cfg.storable a.json with
    | none => rfl
    | some r =>
      rw [Option.elim_some, resumeOffset_eq, resumeOffset_eq, persistedOffset_recordInbound]
  have hsettled : ∀ u ∈ done ++ [a], Settled Update.id (log ++ [a]) u := fun u hu => by
    rcases List.mem_append.1 hu with hu | hu
    · exact (hb.settled u hu).concat (hdone u hu)
    · rw [List.mem_singleton.1 hu]
      exact settled_concat_self log a
  refine
    { ascending := h.ascending
      follows := h.follows.concat haa fun c hc hlt => ?_
      delivered := fun u hu => ?_
      chats := ?_
      messages := ?_
      settled := fun u hu hlt => ?_
      low := ?_
      queue := ?_
      offset := fun o hoo => ?_
      batch := fun _ _ _ hph => ?_ }
  · rcases h.settled_or_mem ho hb.due hmem hc hlt with hs | hin
    · exact hs.mem
    · rcases List.mem_append.1 hin with hin | hin
      · exact (hb.settled c hin).mem
      · rcases List.mem_cons.1 hin with rfl | hin
        · exact absurd hlt (lt_irrefl _)
        · exact absurd ((List.pairwise_cons.1 hasc.2.1).1 c hin) hlt.le.not_gt
  · rcases List.mem_append.1 hu with hu | hu
    · exact h.delivered u hu
    · rw [List.mem_singleton.1 hu]
      exact hb.delivered a List.mem_cons_self
  · subst hdb
    rw [replayed_concat]
    cases cfg.storable a.json with
    | none => exact h.chats
    | some r => simp [h.chats]
  · subst hdb
    rw [replayed_concat]
    cases cfg.storable a.json with
    | none => exact h.messages
    | some r => simp [h.messages]
  · rw [hresume] at hlt
    exact (h.settled u hu hlt).concat (lt_of_lt_of_le hlt (ho ▸ of_decide_eq_true hoa))
  · rw [hresume]; exact h.low
  · rw [hresume]; exact h.queue
  · rw [hresume, ← ho]; exact (Option.some.inj hoo).symm
  · cases hph
    refine ⟨done ++ [a], todo, ⟨rfl, ?_, hsettled, ?_, fun u hu =>
      hb.delivered u (List.mem_cons_of_mem a hu)⟩⟩
    · rw [List.append_assoc, List.singleton_append]
      exact hb.due
    · -- the batch ascends, so the largest identifier seen is the last one
      rw [List.getLast?_concat, hb.largest, maxUpdate, a.updateId_json]
      cases hl : done.getLast? with
      | none => rfl
      | some u =>
        have hlt := hdone u (List.mem_of_getLast? hl)
        simp [max_eq_right hlt.le]

/-- The batch is processed and the offset after it is written. -/
theorem Ingested.acknowledge (h : Ingested cfg w log) {offset m n : I64}
    (hph : w.phase = .storing offset [] (some m)) (hn : n = IntN.wrapping (m.val + 1)) {ph : Phase}
    (hidle : ph.Idle) (hoff : ∀ o ∈ ph.offset, o = n) :
    Ingested cfg { w with
      phase := ph, db := ((kvPut "update_offset" n.toText).eval w.db).2 } log := by
  have ho : offset = resumeOffset w.db := h.offset offset (by rw [hph]; rfl)
  obtain ⟨done, todo, hb⟩ := h.batch offset [] (some m) hph
  obtain rfl : todo = [] := List.map_eq_nil_iff.1 hb.rest.symm
  have hdue := hb.due
  rw [List.append_nil] at hdue
  obtain ⟨last, hl, rfl⟩ := Option.map_eq_some_iff.1 hb.largest.symm
  have hlast : last ∈ done := List.mem_of_getLast? hl
  obtain ⟨hla, hlo⟩ := List.mem_filter.1 (hdue.subset hlast)
  -- the offset written is the identifier after the last one of the batch
  have hnval : n.val = last.id.val + 1 := by
    have hpos : (0 : Int) < last.id.val := last.pos
    have hlt : last.id.val < 2 ^ 63 - 1 := last.lt
    rw [hn, IntN.wrapping_of_mem ⟨by omega, by omega⟩ (by decide)]
  have hresume : resumeOffset ((kvPut "update_offset" n.toText).eval w.db).2 = n := by
    rw [resumeOffset_eq, persistedOffset_kvPut, Option.getD_some]
  have hon : resumeOffset w.db ≤ n := by
    rw [← ho]
    have hle : offset.val ≤ last.id.val := of_decide_eq_true hlo
    exact show offset.val ≤ n.val by omega
  refine
    { ascending := h.ascending
      follows := h.follows
      delivered := h.delivered
      chats := h.chats
      messages := h.messages
      settled := fun u hu hlt => ?_
      low := fun i hi hall => ?_
      queue := ?_
      offset := fun o hoo => ?_
      batch := fun _ _ _ hph => absurd hph (hidle _ _ _) }
  · rw [hresume] at hlt
    have hle : u.id.val ≤ last.id.val := by
      have : u.id.val < n.val := hlt
      omega
    rcases lt_or_eq_of_le (show u.id ≤ last.id from hle) with hlt | heq
    · rcases h.settled_or_mem ho hdue hlast hu hlt with hs | hin
      · exact hs
      · exact hb.settled u hin
    · rw [h.ascending.inj hu hla heq]
      exact hb.settled last hlast
  · rw [hresume]
    have hlt : last.id.val < i.val := hall last hla
    exact show n.val ≤ i.val by omega
  · have hq := congrArg (List.filter (n ≤ ·.id)) h.queue
    have hsub : ∀ us : List Update, (us.filter (resumeOffset w.db ≤ ·.id)).filter (n ≤ ·.id) =
        us.filter (n ≤ ·.id) := fun us => by
      rw [List.filter_filter]
      refine List.filter_congr fun u _ => ?_
      by_cases hnu : n ≤ u.id
      · simp [hnu, hon.trans hnu]
      · simp [hnu]
    rw [World.due, hsub, hsub] at hq
    rw [hresume]
    exact hq
  · rw [hresume]
    exact hoff o hoo

/-- A store call of the loop, when every `record_inbound` succeeds, keeps the invariant whether it
is torn by a kill or not. -/
theorem Ingested.store (h : Ingested cfg w log) {flt : Schedule HistoryError}
    (hok : RecordOk cfg (.store flt) w.phase w.db)
    (hs : w.loopStep cfg (.store flt) = some w') : ∃ log', Ingested cfg w' log' := by
  obtain ⟨ph', db', hstep, rfl⟩ := loopStep_eq_some hs
  cases hph : w.phase with
  | polling offset backoff => rw [hph] at hstep; cases hstep
  | stopped e => rw [hph] at hstep; cases hstep
  | starting =>
    rw [hph] at hstep
    cases hcall : (kvGet "update_offset").call flt w.db with
    | mk out d =>
      obtain rfl := kvGet_call hcall
      simp only [step, hcall, Option.some.injEq] at hstep
      cases out with
      | ok v =>
        cases hstep
        have hv : ((kvGet "update_offset").eval w.db).1 = v := by rw [Op.call_ok hcall]
        exact ⟨log, h.idle (idle_polling _ _) fun o ho => by cases ho; rw [resumeOffset, hv]⟩
      | err e => cases hstep; exact ⟨log, h.idle (idle_stopped e) fun _ ho => by cases ho⟩
      | crashed => cases hstep; exact ⟨log, h.idle idle_starting fun _ ho => by cases ho⟩
  | storing offset rest m =>
    have ho : offset = resumeOffset w.db := h.offset offset (by rw [hph]; rfl)
    rw [hph] at hstep hok
    obtain ⟨done, todo, hb⟩ := h.batch offset rest m hph
    obtain rfl := hb.rest
    cases todo with
    | cons a todo =>
      refine ⟨log ++ [a], ?_⟩
      cases hst : cfg.storable a.json with
      | none =>
        simp only [List.map_cons, step, hst, Option.some.injEq] at hstep
        cases hstep
        exact h.turn ho hb (by rw [hst]; rfl)
      | some r =>
        have hout := hok r hst
        cases hcall : (recordInbound r.1 r.2).call flt w.db with
        | mk out d =>
          rw [hcall] at hout
          cases hout
          simp only [List.map_cons, step, hst, hcall, recorded, Option.some.injEq] at hstep
          cases hstep
          exact h.turn ho hb (by rw [hst, Option.elim_some, Op.call_ok hcall])
    | nil =>
      cases m with
      | none =>
        cases hstep
        exact ⟨log, h.idle (idle_polling _ _) fun o hoo => by cases hoo; exact ho⟩
      | some m =>
        refine ⟨log, ?_⟩
        cases hcall : (kvPut "update_offset" (IntN.wrapping (m.val + 1) : I64).toText).call flt
            w.db with
        | mk out d =>
          simp only [List.map_nil, step, hcall, Option.some.injEq] at hstep
          have hold : Ingested cfg { w with phase := .starting } log :=
            h.idle idle_starting fun _ ho => by cases ho
          cases out with
          | ok _ =>
            cases hstep
            have := h.acknowledge hph rfl (idle_polling (IntN.wrapping (m.val + 1)) 1)
              fun o hoo => by cases hoo; rfl
            rwa [Op.call_ok hcall] at this
          | err e =>
            cases hstep
            obtain rfl := kvPut_err hcall
            exact h.idle (idle_polling _ _) fun o hoo => by cases hoo; exact ho
          | crashed =>
            cases hstep
            rcases (Op.atomicAt_statement _ flt w.db).crashed hcall with rfl | rfl
            · exact hold
            · exact h.acknowledge hph rfl idle_starting fun _ ho => by cases ho

/-- Every event in which `record_inbound`, if it is called, succeeds keeps the invariant. The events
are the arrival of an update, a request that delivers some, a store call of the loop, and a kill. -/
theorem Ingested.step (h : Ingested cfg w log) {e : Event} (hok : Recorded cfg w e)
    (hs : World.step cfg e w = some w') : ∃ log', Ingested cfg w' log' := by
  cases e with
  | arrive u =>
    simp only [World.step] at hs
    split at hs
    · next hu => cases hs; exact ⟨log, h.arrive hu⟩
    · cases hs
  | poll n =>
    obtain ⟨offset, ho, hs⟩ := Option.bind_eq_some_iff.1 hs
    obtain rfl := h.offset offset ho
    obtain ⟨ph', db', hstep, rfl⟩ := loopStep_eq_some hs
    cases hph : w.phase with
    | polling offset backoff =>
      obtain rfl := h.offset offset (by rw [hph]; rfl)
      rw [hph] at hstep
      cases hstep
      have hd := h.drop.deliver n
      have hdue : (World.mk w.arrived (w.due (resumeOffset w.db)) w.delivered w.phase
          w.db).due (resumeOffset w.db) = w.due (resumeOffset w.db) := by
        simp only [World.due, List.filter_filter, Bool.and_self]
      simp only [hdue] at hd
      exact ⟨log, hd⟩
    | starting | stopped | storing => rw [hph] at hstep; cases hstep
  | pollFails e reached =>
    obtain ⟨offset, ho, hs⟩ := Option.bind_eq_some_iff.1 hs
    obtain rfl := h.offset offset ho
    obtain ⟨ph', db', hstep, rfl⟩ := loopStep_eq_some hs
    cases hph : w.phase with
    | polling offset backoff =>
      obtain rfl := h.offset offset (by rw [hph]; rfl)
      rw [hph] at hstep
      cases hstep
      cases reached with
      | true => exact ⟨log, h.drop.idle (idle_polling _ _) fun o hoo => by cases hoo; rfl⟩
      | false => exact ⟨log, h.idle (idle_polling _ _) fun o hoo => by cases hoo; rfl⟩
    | starting | stopped | storing => rw [hph] at hstep; cases hstep
  | store flt => exact h.store hok hs
  | kill =>
    cases hs
    exact ⟨log, h.idle idle_starting fun _ ho => nomatch ho⟩

end

/-! ## The guarantees -/

/-- The rows to store for an update are of an allowed chat, if there is an allow-list. -/
theorem storable_allowed {cfg : UpdaterConfig} {u : Json} {r : ChatInfo × StoredMessage}
    (h : cfg.storable u = some r) {allowed : List I64} (ha : allowed ∈ cfg.allowedChats) :
    r.1.chatId ∈ allowed ∧ r.2.chatId ∈ allowed := by
  obtain ⟨hm, hf⟩ := Option.filter_eq_some_iff.1 h
  have hin : r.1.chatId ∈ allowed := by
    rw [Option.mem_def.1 ha] at hf
    exact List.contains_iff_mem.1 hf
  exact ⟨hin, (mapUpdate_mapped hm).chatId ▸ hin⟩

section
variable [Fts5] (cfg : UpdaterConfig)

/-- A pass over the updates stores rows of allowed chats only, as the filter comes before the
store. -/
theorem replayed_onlyAllowed (us : List Update) : OnlyAllowed cfg (replayed cfg us) := by
  induction us using List.reverseRecOn with
  | nil => exact ⟨fun _ _ _ hr => (nomatch hr), fun _ _ _ hr => (nomatch hr)⟩
  | append_singleton us u ih =>
    rw [replayed_concat]
    cases h : cfg.storable u.json with
    | none => exact ih
    | some w =>
      rw [Option.elim_some, recordInbound_eval]
      refine ⟨fun allowed ha r hr => ?_, fun allowed ha r hr => ?_⟩
      · rcases Table.mem_upsert.1 hr with rfl | ⟨hr, -⟩
        · exact (Table.key_merged chatConflict _ w.1).symm ▸ (storable_allowed h ha).1
        · exact ih.chats allowed ha r hr
      · rcases RowidTable.mem_upsert.1 hr with rfl | ⟨hr, -⟩
        · have hk := RowidTable.key_merged messageConflict (replayed cfg us).messages w.2
          exact (congrArg (·.1 ∈ allowed) hk).mpr (storable_allowed h ha).2
        · exact ih.messages allowed ha r hr

/-- In a run from an empty store in which `record_inbound` always succeeds, whatever else fails or
dies: right after the offset `n` is written, when `n` is above all updates delivered so far, the
tables are those of a single pass over the allowed updates below `n`; and at no time is there a row
of a chat that is not allowed. -/
theorem ingestion_exactly_once (w : World) (h : (ingestion cfg).Reached (Recorded cfg) w) :
    (∀ e n w', Acknowledges cfg w e n w' → (∀ u ∈ w'.delivered, u.id < n) →
      SameContent w'.db (replayed cfg (w'.arrived.filter (·.id < n)))) ∧
    OnlyAllowed cfg w.db := by
  have hinv : ∀ w, (ingestion cfg).Reached (Recorded cfg) w → ∃ log, Ingested cfg w log := by
    intro w hw
    refine @System.Reached.invariant _ _ _ _ (fun w => ∃ log, Ingested cfg w log) ?_ ?_ w hw
    · rintro s rfl
      exact ⟨[], ingested_init⟩
    · rintro s e s' ⟨log, hi⟩ hok hs
      exact hi.step hok hs
  obtain ⟨log, hi⟩ := hinv w h
  refine ⟨?_, ?_⟩
  · rintro e n w' ⟨flt, offset, m, rfl, hph, hn, hs, hcall⟩ hall
    obtain ⟨ph', db', hstep, rfl⟩ := loopStep_eq_some hs
    rw [hph] at hstep
    simp only [step, ← hn, hcall, acknowledged, Option.some.injEq, Prod.mk.injEq] at hstep
    obtain ⟨rfl, -⟩ := hstep
    have hw' := hi.acknowledge hph hn (idle_polling n 1) fun o ho => by cases ho; rfl
    rw [Op.call_ok hcall] at hw'
    dsimp only at hw'
    have hbelow : ∀ u ∈ log, decide (u.id < n) = true := fun u hu =>
      decide_eq_true (hall u (hw'.delivered u hu))
    have hresume : resumeOffset db' = n := (hw'.offset n rfl).symm
    have hsame := sameContent_of_follows cfg (hw'.follows.filter hbelow)
      (hw'.ascending.filter _) fun u hu => by
        obtain ⟨hu, hlt⟩ := List.mem_filter.1 hu
        exact hw'.settled u hu (lt_of_lt_of_eq (of_decide_eq_true hlt) hresume.symm)
    exact ⟨hw'.chats ▸ hsame.chats, hw'.messages ▸ hsame.messages⟩
  · have hall := replayed_onlyAllowed cfg log
    exact ⟨hi.chats ▸ hall.chats, hi.messages ▸ hall.messages⟩

end

/-- A message that is delivered and recorded before the process dies, redelivered and recorded
again, and acknowledged. -/
theorem ingestion_exactly_once_redelivered :
    let := Fts5.ascii
    let cfg : UpdaterConfig := ⟨30, [], some [i64 42]⟩
    ∃ w e n w', Acknowledges cfg w e n w' ∧ w'.delivered.length = 2 ∧
      SameContent w'.db (replayed cfg (w'.arrived.filter (·.id < n))) ∧ OnlyAllowed cfg w.db := by
  intro inst cfg
  let u : Update := ⟨textUpdate 10 42 1 100 "hi", i64 10, rfl, by decide, by decide⟩
  have h0 : (ingestion cfg).Reached (Recorded cfg) ⟨[], [], [], .starting, .migrated⟩ := .init rfl
  have h1 : (ingestion cfg).Reached (Recorded cfg) ⟨[u], [u], [], .starting, .migrated⟩ :=
    .step (Event.arrive u) h0 trivial rfl
  have h2 := h1.step (Event.store none) trivial rfl
  have h3 := h2.step (Event.poll 1) trivial rfl
  have h4 : (ingestion cfg).Reached (Recorded cfg)
      ⟨[u], [u], [u], .storing (i64 0) [] (some (i64 10)), replayed cfg [u]⟩ :=
    .step (Event.store none) h3 (fun _ _ => recordInbound_call_none _ _ _) rfl
  have h5 := h4.step Event.kill trivial rfl
  have h6 := h5.step (Event.store none) trivial rfl
  have h7 := h6.step (Event.poll 1) trivial rfl
  let w : World :=
    ⟨[u], [u], [u, u], .storing (i64 0) [] (some (i64 10)), replayed cfg [u, u]⟩
  have h8 : (ingestion cfg).Reached (Recorded cfg) w :=
    .step (Event.store none) h7 (fun _ _ => recordInbound_call_none _ _ _) rfl
  let w' : World := ⟨[u], [u], [u, u], .polling (i64 11) 1,
    ((kvPut "update_offset" (i64 11).toText).eval (replayed cfg [u, u])).2⟩
  have hack : Acknowledges cfg w (Event.store none) (i64 11) w' :=
    ⟨none, i64 0, i64 10, rfl, rfl, by decide, rfl, rfl⟩
  obtain ⟨hsame, hallowed⟩ := ingestion_exactly_once cfg _ h8
  have hlt : i64 10 < i64 11 := by decide
  exact ⟨w, _, _, w', hack, rfl, hsame _ _ w' hack (by simp [w', u, hlt]), hallowed⟩

end TelegramMcp.Updater
