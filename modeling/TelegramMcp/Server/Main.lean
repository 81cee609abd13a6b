import TelegramMcp.Server.Config
import TelegramMcp.Server.Process
import TelegramMcp.Server.Retention
import TelegramMcp.Updater.Ingestion
import TelegramMcp.Updater.Moves

/-!
# The whole server

`start` is what `main` sets up from its configuration, and `running` is what it then runs: the tool
calls, the retention task if a limit is set, and the updater if it is enabled, beside each other on
one store. A process that dies starts over with the same configuration.

Of the updater the tools see the rows it records and nothing else: but for the stored offset, which
no tool reads, every run of the whole is a run of `server` (`running_refines`), whose retention
passes have the limits that are set and whose updates are those the updater may record. The rows it
records are of the chats it may read, so from an empty store these are the only chats the server
lists and the only ones that inbound messages are of (`allowed_chats_enforced`).
-/

namespace TelegramMcp.Server

open Rust Txn History Keyed Proc

/-! ## Start -/

/-- The kinds of updates that are asked for without a configuration. -/
def defaultAllowedKinds : List String :=
  ["message", "edited_message", "channel_post", "edited_channel_post"]

/-- The configuration file, with the defaults that serde fills in. `Config` is the part of it that
`validate` checks. -/
structure Document extends Config where
  /-- `[bot] api_base_url`. -/
  apiBaseUrl : Option String
  /-- `[updater] enabled`. -/
  updaterEnabled : Bool := true
  allowedUpdateKinds : List String := defaultAllowedKinds
  retention : RetentionConfig := ⟨none, none⟩

/-- What the start depends on: which parent directory of a path is missing, the environment, which
texts are URLs, and whether the HTTP client and the history open. -/
structure Host where
  missingParent : String → Option String
  var : String → Option String
  isUrl : String → Bool
  builds : Bool
  opens : String → Bool

/-- `Config::resolved_token`: the variable of the environment comes before the token in the file. -/
def resolvedToken (host : Host) (bot : BotConfig) : Except String String :=
  match bot.tokenEnv with
  | some envKey => (host.var envKey).elim (.error ("env var " ++ envKey ++ " not set")) .ok
  | none => bot.token.elim (.error "must set either [bot] token_env or [bot] token") .ok

/-- What the tasks of the server are given; there is a task only where it is configured. -/
structure Setup where
  token : String
  state : State
  retention : Option RetentionConfig
  updater : Option Updater.UpdaterConfig

/-- A part of the start that succeeds or not, with the message when it does not. -/
def ensure (b : Bool) (message : String) : Except String Unit :=
  if b then .ok () else .error message

/-- The chats the updater stores; an empty list is no restriction. -/
def allowedChats (cfg : Config) : Except String (Option (List I64)) :=
  if cfg.access.allowedChats.isEmpty then .ok none
  else (cfg.resolveIdList cfg.access.allowedChats).map some

/-- What the updater is given, if it is enabled: the poll timeout, the kinds it asks for and the
chats it may store. -/
def updaterConfig (doc : Document) : Except String (Option Updater.UpdaterConfig) :=
  if doc.updaterEnabled then
    (allowedChats doc.toConfig).map fun allowed =>
      some ⟨doc.pollTimeoutSecs, doc.allowedUpdateKinds, allowed⟩
  else .ok none

/-- The retention task, which is started only when a limit is set. -/
def retentionTask (cfg : RetentionConfig) : Option RetentionConfig :=
  if cfg.maxAgeDays.isSome || cfg.maxMessagesPerChat.isSome then some cfg else none

/-- `main`, from the decoded configuration to the tasks: the first part that fails ends it with its
message. -/
def start (host : Host) (doc : Document) : Except String Setup := do
  doc.validate host.missingParent
  let token ← resolvedToken host doc.bot
  ensure (doc.apiBaseUrl.all host.isUrl) "invalid bot.api_base_url"
  ensure host.builds "constructing TgClient"
  ensure (host.opens doc.storagePath) ("opening history at " ++ doc.storagePath)
  let state ← doc.serverState
  let updater ← updaterConfig doc
  return ⟨token, state, retentionTask doc.retention, updater⟩

/-! ## The running server -/

/-- The tools and the store, and where the updater is, if there is one. Retention needs no place
here: each of its passes is one step. -/
structure Running where
  phase : Option Updater.Phase
  world : World

/-- What happens: a request arrives, a tool call performs its next action, the retention task wakes
up at some time, `getUpdates` returns, the updater makes its next store call, or the process is
killed. -/
inductive Event
  | request (r : CallToolRequest)
  | advance (task : Nat) (flt : Schedule HistoryError) (bot : (c : BotCall) → ApiOutcome c.Result)
  | tick (sinceEpoch : Option Nat) (flt : Schedule HistoryError)
  | updates (r : Except TgClientError (List Json))
  | store (flt : Schedule HistoryError)
  | kill

/-- The process died in this call of the store. -/
def died {β : Type} : Outcome HistoryError β → Bool
  | .crashed => true
  | _ => false

section
variable [Fts5] (p : Setup)

/-- Whether the process dies in a step of the tools or of the retention task. -/
def World.dies (w : World) : Input → Bool
  | .advance task flt _ =>
    match w.tasks[task]? with
    | some (.perform (.write m) _) => died (m.op.call flt w.db).1
    | some (.perform (.read op _) _) => died (op.call flt w.db).1
    | _ => false
  | .retain cutoff keep flt => died ((enforceRetention cutoff keep).call flt w.db).1
  | .record _ _ | .request _ => false
  | .kill => true

/-- Where the updater is when the process starts, if it is enabled. -/
def Setup.firstPhase (p : Setup) : Option Updater.Phase := p.updater.map fun _ => .starting

/-- A step of the tools or of the retention task; if the process dies, the updater starts over. -/
def Running.serve (w : Running) (i : Input) : Option Running :=
  (World.step p.state i w.world).map fun world =>
    ⟨if w.world.dies i then p.firstPhase else w.phase, world⟩

/-- After a step of the updater; if the process died, the tool calls are gone. -/
def Running.moved (w : Running) : Updater.Phase × Db → Running
  | (.starting, db) => ⟨some .starting, { w.world with db, tasks := [] }⟩
  | (phase, db) => ⟨some phase, { w.world with db }⟩

/-- A step of the updater, if there is one, on the store it shares with the tools. -/
def Running.update (w : Running) (i : Updater.Input) : Option Running :=
  p.updater.bind fun cfg => w.phase.bind fun phase =>
    (Updater.step cfg i (phase, w.world.db)).map w.moved

/-- A step of one of the three tasks, on the one store they share, or the end of the process. -/
def Running.step : Event → Running → Option Running
  | .request r, w => w.serve p (.request r)
  | .advance task flt bot, w => w.serve p (.advance task flt bot)
  | .tick sinceEpoch flt, w => p.retention.bind fun cfg =>
    w.serve p (.retain (cfg.maxAgeDays.map (ageCutoff (sinceEpoch.getD 0))) cfg.maxMessagesPerChat
      flt)
  | .updates r, w => w.update p (.updates r)
  | .store flt, w => w.update p (.store flt)
  | .kill, w => w.serve p .kill

/-- The server with its tasks, from an empty store on. -/
def running : System Running Event where
  init w := w = ⟨p.firstPhase, ⟨.migrated, [], []⟩⟩
  step := Running.step p

end

/-! ## The stored offset -/

/-- The contents without the offset of the updater, which is one row of `kv`. -/
def forgetOffset (db : Db) : Db := { db with kv := db.kv.restrict (· ≠ "update_offset") }

/-- A store that was just migrated has no offset. -/
theorem forgetOffset_migrated : forgetOffset .migrated = .migrated := by
  rw [forgetOffset]
  exact Db.ext rfl rfl rfl (Table.ext rfl)

/-- An operation of the store that neither reads nor changes the offset. -/
abbrev Blind {β : Type} (op : Op Db β) : Prop := op.body.Commutes forgetOffset

section
variable [Fts5]

/-- The script that stores a message neither reads nor writes a value. -/
theorem commutes_insertMessageSync (m : StoredMessage) :
    (insertMessageSync m).Commutes forgetOffset := by
  refine .bind (.query fun _ => rfl) fun existing => ?_
  cases existing with
  | none =>
    refine .bind (.modify fun _ => rfl) fun _ => .modify fun db => ?_
    dsimp only [forgetOffset]
    split <;> rfl
  | some old =>
    refine .bind (.modify fun _ => rfl) fun _ => .bind (.modify fun _ => rfl) fun _ => ?_
    refine .modify fun db => ?_
    dsimp only [forgetOffset]
    split <;> rfl

/-- The record of an update does not depend on the offset, which is put by a call of its own. -/
theorem blind_recordInbound (chat : ChatInfo) (msg : StoredMessage) :
    Blind (recordInbound chat msg) :=
  .bind (.modify fun _ => rfl) fun _ => commutes_insertMessageSync msg

/-- The mirroring of a message does not depend on it. -/
theorem blind_insertMessage (m : StoredMessage) : Blind (insertMessage m) :=
  commutes_insertMessageSync m

omit [Fts5] in
/-- A touch does not depend on it. -/
theorem blind_touchChatLastSeen (chatId date : I64) : Blind (touchChatLastSeen chatId date) :=
  .modify fun _ => rfl

omit [Fts5] in
/-- The baselines have keys of their own, so that marking a chat read does not touch the offset. -/
theorem blind_markRead (chatId upTo : I64) : Blind (markRead chatId upTo) := by
  refine .modify fun db => ?_
  have hkey : ("last_unread_baseline:" ++ chatId.toText : String) ≠ "update_offset" := by
    intro h
    have hstrip := stripPrefix_eq_some_iff.2 h.symm
    rw [show stripPrefix "last_unread_baseline:" "update_offset" = none by decide] at hstrip
    cases hstrip
  dsimp only [forgetOffset]
  rw [Table.restrict_upsert (by simpa using hkey)]

/-- A retention pass has no part that reads or writes a value, whatever is configured. -/
theorem blind_enforceRetention (cutoff keep : Option I64) :
    Blind (enforceRetention cutoff keep) := by
  have hdelete (p : List StoredMessage → StoredMessage → Bool) :
      (Script.statement (deleteWhere p)).Commutes forgetOffset :=
    ⟨fun _ => rfl, fun _ => trivial⟩
  have hrebuild (agedOut overflowed : Nat) : (do
      if agedOut + overflowed > 0 then rebuildFts
      pure (agedOut, overflowed) : Script Db (Nat × Nat)).Commutes forgetOffset := by
    split
    · exact .bind (.modify fun _ => rfl) fun _ => trivial
    · trivial
  unfold Blind enforceRetention
  have hnone : (pure 0 : Script Db Nat).Commutes forgetOffset := trivial
  cases cutoff with
  | none =>
    refine .bind hnone fun agedOut => ?_
    cases keep with
    | none => exact .bind hnone fun overflowed => hrebuild agedOut overflowed
    | some keep => exact .bind (hdelete _) fun overflowed => hrebuild agedOut overflowed
  | some cutoff =>
    refine .bind (hdelete _) fun agedOut => ?_
    cases keep with
    | none => exact .bind hnone fun overflowed => hrebuild agedOut overflowed
    | some keep => exact .bind (hdelete _) fun overflowed => hrebuild agedOut overflowed

omit [Fts5] in
/-- The list reads the baselines only, and the offset is none of them. -/
theorem blind_listChats : Blind listChats := by
  refine .query fun db => ?_
  have hbaselines : baselines (forgetOffset db) = baselines db := by
    change (db.kv.rows.filter _).filterMap _ = db.kv.rows.filterMap _
    rw [List.filterMap_filter]
    refine List.filterMap_congr fun row _ => ?_
    split
    · rfl
    · next h =>
      have hkey : row.1 = "update_offset" := by simpa using h
      rw [hkey]
      rfl
  simp only [listChatsRows, baseline, hbaselines]
  rfl

omit [Fts5] in
/-- A chat is read from its own table, whatever the offset is. -/
theorem blind_getChat (chatId : I64) : Blind (getChat chatId) := .query fun _ => rfl

omit [Fts5] in
/-- A page of messages is read from the messages, whatever the offset is. -/
theorem blind_messages (chatId : I64) (before after : Option I64) (limit : I64) :
    Blind (messages chatId before after limit) := .query fun _ => rfl

omit [Fts5] in
/-- One message is read from them, too. -/
theorem blind_getMessage (chatId messageId : I64) : Blind (getMessage chatId messageId) :=
  .query fun _ => rfl

/-- A search reads the index and the messages, whatever the offset is. -/
theorem blind_search (query : String) (chatId since «until» : Option I64) :
    Blind (search query chatId since «until») := by
  refine .query fun db => ?_
  have hrows (phrase : String) : searchRows phrase chatId since «until» (forgetOffset db) =
      searchRows phrase chatId since «until» db := rfl
  simp only [hrows]

end

/-! ## The tools do not see it -/

/-- An action of a tool that neither reads nor changes the offset. -/
def Unseeing : {β : Type} → Action β → Prop
  | _, .write m => ∀ [Fts5], Blind m.op
  | _, .read op _ => Blind op
  | _, .api _ => True

section
variable [Fts5] {s : State}

omit [Fts5] in
/-- What delivers a message writes a touch and a row, and neither depends on the offset. -/
theorem deliver_unseeing (call : SendCall) (text mediaKind : Option String)
    (replyTo : Option I64) (g : Unit) :
    Keeps (.only Unseeing) (deliver call text mediaKind replyTo) g := by
  refine Keeps.action (fun _ => trivial) fun sent _ => Safe.seq ?_ fun _ _ => Keeps.done _
  exact Keeps.action (fun _ _ => blind_touchChatLastSeen _ _) fun _ _ =>
    Keeps.act fun _ _ => blind_insertMessage _

/-- No tool reads or changes the offset, by one case for each tool. -/
theorem callTool_unseeing (s : State) (r : CallToolRequest) :
    Keeps (.only Unseeing) (callTool s r) () := by
  obtain ⟨name, args⟩ := r
  unfold callTool
  dsimp only
  split
  · exact .check fun _ _ _ => .action (fun _ => trivial) fun _ _ => .done _
  · exact .check fun _ _ _ => .done _
  · exact .check fun _ _ _ => .check fun _ _ _ => .check fun _ _ _ => .check fun _ _ =>
      deliver_unseeing _ _ _ _
  · exact .check fun _ _ _ => .check fun _ _ _ => .check fun _ _ _ => .check fun _ _ _ =>
      .check fun _ _ => deliver_unseeing _ _ _ _
  · exact .check fun _ _ _ => .check fun _ _ _ => .check fun _ _ _ => .check fun _ _ =>
      deliver_unseeing _ _ _ _
  · exact .check fun _ _ _ => .check fun _ _ _ => .check fun _ _ _ => .check fun _ _ =>
      deliver_unseeing _ _ _ _
  · exact .check fun _ _ _ => .check fun _ _ _ => .check fun _ _ _ =>
      .action (fun _ => trivial) fun _ _ => .done _
  · exact .check fun _ _ _ => .check fun _ _ _ => .check fun _ _ _ => .check fun _ _ =>
      deliver_unseeing _ _ _ _
  · exact .check fun _ _ _ => .check fun _ _ _ => .check fun _ _ _ => .check fun _ _ _ =>
      .action (fun _ => trivial) fun _ _ => .done _
  · exact .check fun _ _ _ => .action (fun _ => blind_listChats) fun _ _ => .done _
  · exact .check fun _ _ _ => .check fun _ _ _ =>
      .action (fun _ => blind_getChat _) fun _ _ => .done _
  · exact .check fun _ _ _ => .check fun _ _ _ =>
      .action (fun _ => blind_messages _ _ _ _) fun _ _ => .done _
  · exact .check fun _ _ _ => .check fun _ _ _ =>
      .action (fun _ => blind_search _ _ _ _) fun _ _ => .check fun _ _ _ => .done _
  · exact .check fun _ _ _ => .check fun _ _ _ =>
      .action (fun _ => blind_getMessage _ _) fun _ _ => .check fun _ _ _ => .done _
  · exact .check fun _ _ _ => .check fun _ _ _ =>
      .action (fun _ _ => blind_markRead _ _) fun _ _ => .done _
  · exact .check fun _ _ _ => .check fun _ _ _ => .check fun _ _ _ =>
      .action (fun _ => blind_getMessage _ _) fun _ _ => .check fun _ _ _ => .check fun _ _ _ =>
        .action (fun _ => trivial) fun _ _ => .done _
  · exact Safe.fail fun _ _ => trivial

/-! ## The refinement -/

/-- The world of the tools as it is without the offset. -/
def World.forget (w : World) : World := { w with db := forgetOffset w.db }

omit [Fts5] in
/-- The store of the world without the offset is the store without it. -/
@[simp] theorem World.forget_db (w : World) : w.forget.db = forgetOffset w.db := rfl

omit [Fts5] in
/-- A call on the store does the same to the rest of the world without the offset. -/
theorem stored_forget {β : Type} (w : World) (tasks : Except HistoryError β → List Task)
    (r : Outcome HistoryError β × Db) :
    w.forget.stored tasks (r.1, forgetOffset r.2) = (w.stored tasks r).forget := by
  obtain ⟨_ | _ | _, db⟩ := r <;> rfl

/-- The tools and the retention task do the same without the offset. -/
theorem step_forget {w w' : World} {i : Input} (htasks : ∀ t ∈ w.tasks, Keeps (.only Unseeing) t ())
    (h : World.step s i w = some w') : World.step s i w.forget = some w'.forget := by
  cases i with
  | request r | kill =>
    cases h
    rfl
  | advance task flt bot =>
    obtain ⟨t, ht, hadvance⟩ := Option.bind_eq_some_iff.1 h
    have hallowed := htasks t (List.mem_of_getElem? ht)
    have hbind :
        World.step s (.advance task flt bot) w.forget = w.forget.advance task flt bot t := by
      rw [World.step, show w.forget.tasks[task]? = some t from ht, Option.bind_some]
    rw [hbind]
    match t with
    | .ok _ | .fail _ => cases hadvance
    | .perform (.write m) next =>
      cases hadvance
      have hblind : Blind m.op := (hallowed () trivial).1
      rw [World.advance, World.forget_db, Op.call_commutes hblind, stored_forget]
      rfl
    | .perform (.read op _) next =>
      cases hadvance
      have hblind : Blind op := (hallowed () trivial).1
      rw [World.advance, World.forget_db, Op.call_commutes hblind, stored_forget]
      rfl
    | .perform (.api c) next =>
      cases hadvance
      rfl
  | record update flt =>
    obtain ⟨⟨chat, msg⟩, hu, rfl⟩ := Option.map_eq_some_iff.1 h
    rw [World.step, hu, Option.map_some]
    dsimp only
    rw [World.forget_db, Op.call_commutes (blind_recordInbound chat msg), stored_forget]
    rfl
  | retain cutoff keep flt =>
    cases h
    rw [World.step, World.forget_db, Op.call_commutes (blind_enforceRetention cutoff keep),
      stored_forget]
    rfl

/-- What the process makes of the tools: a retention pass has the configured limits and some cutoff
computed from them, and an update that is recorded is one the updater may store. -/
def Setup.Makes (p : Setup) : Input → Prop
  | .retain cutoff keep _ => ∃ cfg ∈ p.retention, keep = cfg.maxMessagesPerChat ∧
    ∃ sinceEpoch, cutoff = cfg.maxAgeDays.map (ageCutoff sinceEpoch)
  | .record update _ => ∃ cfg ∈ p.updater, (cfg.storable update).isSome
  | .request _ | .advance _ _ _ | .kill => True

/-- The tool calls in progress do not depend on the offset. -/
def Running.AllUnseeing (w : Running) : Prop := ∀ t ∈ w.world.tasks, Keeps (.only Unseeing) t ()

section
variable {p : Setup} {w w' : Running}

/-- A step of the tools or of the retention task is one of `server`: the same input, on the store
without its offset, which no tool in progress will look at. -/
theorem serve_follows {i : Input} (htasks : w.AllUnseeing) (hi : p.Makes i)
    (h : w.serve p i = some w') :
    ∃ js, (∀ j ∈ js, p.Makes j) ∧
      (server p.state).exec js w.world.forget = some w'.world.forget := by
  obtain ⟨world, hworld, rfl⟩ := Option.map_eq_some_iff.1 h
  refine ⟨[i], List.forall_mem_singleton.2 hi, ?_⟩
  rw [System.exec, show (server p.state).step i _ = _ from step_forget htasks hworld]
  rfl

/-- A step of the tools starts no call that depends on the offset. -/
theorem serve_unseeing {i : Input} (htasks : w.AllUnseeing) (h : w.serve p i = some w') :
    w'.AllUnseeing := by
  obtain ⟨world, hworld, rfl⟩ := Option.map_eq_some_iff.1 h
  exact (World.stepped hworld).keeps trivial (callTool_unseeing p.state) (fun _ _ => trivial)
    (fun _ _ _ => trivial) (fun _ _ _ _ _ _ _ => trivial) htasks

omit [Fts5] in
/-- A new offset is put under its own key, so that without the offset nothing has changed. -/
theorem forgetOffset_kvPut (value : String) (db : Db) :
    forgetOffset ((kvPut "update_offset" value).eval db).2 = forgetOffset db := by
  refine Db.ext rfl rfl rfl ?_
  exact Table.restrict_upsert_of_not (q := fun k => decide (k ≠ "update_offset")) (by simp) db.kv

/-- A step of the updater changes nothing but the offset, or records an update. -/
theorem updater_cases {cfg : Updater.UpdaterConfig} {i : Updater.Input}
    {phase phase' : Updater.Phase} {db db' : Db}
    (h : Updater.step cfg i (phase, db) = some (phase', db')) :
    forgetOffset db' = forgetOffset db ∨
      ∃ u ∈ phase.pending, ∃ chat msg, ∃ flt : Schedule HistoryError,
        cfg.storable u = some (chat, msg) ∧ ((recordInbound chat msg).call flt db).2 = db' ∧
          (phase' = .starting ↔ ((recordInbound chat msg).call flt db).1 = .crashed) := by
  cases Updater.moves_of_step h with
  | kill | start | stop | die | deliver | fail | skip | idle | refuse => exact .inl rfl
  | @record u chat msg flt _ hst hlives =>
    exact .inr ⟨u, List.mem_cons_self, chat, msg, flt, hst, rfl, nofun, fun hdies =>
      absurd hdies hlives⟩
  | @dieRecording u chat msg flt _ hst hdies =>
    exact .inr ⟨u, List.mem_cons_self, chat, msg, flt, hst, rfl, fun _ => hdies, fun _ => rfl⟩
  | acknowledge => exact .inl (forgetOffset_kvPut _ _)
  | dieAcknowledging _ _ _ hdb =>
    rcases hdb with rfl | rfl
    · exact .inl rfl
    · exact .inl (forgetOffset_kvPut _ _)

omit [Fts5] in
/-- The world after a step of the updater: the tool calls are gone when the process died in it. -/
theorem moved_world (w : Running) (phase : Updater.Phase) (db : Db) :
    phase = .starting ∧ (w.moved (phase, db)).world = { w.world with db, tasks := [] } ∨
      phase ≠ .starting ∧ (w.moved (phase, db)).world = { w.world with db } := by
  cases phase with
  | starting => exact .inl ⟨rfl, rfl⟩
  | polling | storing | stopped => exact .inr ⟨nofun, rfl⟩

omit [Fts5] in
/-- The record of an update leaves the world that the tools see, whether the process died in it or
not. -/
theorem stored_eq_moved (w : Running) {phase : Updater.Phase} {r : Outcome HistoryError Unit × Db}
    (h : phase = .starting ↔ r.1 = .crashed) :
    w.world.stored (fun _ => w.world.tasks) r = (w.moved (phase, r.2)).world := by
  obtain ⟨out, db⟩ := r
  rcases moved_world w phase db with ⟨hphase, hworld⟩ | ⟨hphase, hworld⟩
  · obtain rfl : out = .crashed := h.1 hphase
    exact hworld.symm
  · cases out with
    | ok a | err e => exact hworld.symm
    | crashed => exact absurd (h.2 rfl) hphase

/-- A step of the updater is the record of an update, the death of the process, or nothing. -/
theorem update_follows {i : Updater.Input} (h : w.update p i = some w') :
    ∃ js, (∀ j ∈ js, p.Makes j) ∧
      (server p.state).exec js w.world.forget = some w'.world.forget := by
  obtain ⟨cfg, hcfg, h⟩ := Option.bind_eq_some_iff.1 h
  obtain ⟨phase, -, h⟩ := Option.bind_eq_some_iff.1 h
  obtain ⟨⟨phase', db'⟩, hstep, rfl⟩ := Option.map_eq_some_iff.1 h
  rcases updater_cases hstep with hsame | ⟨u, -, chat, msg, flt, hst, rfl, hdies⟩
  · rcases moved_world w phase' db' with ⟨-, hworld⟩ | ⟨-, hworld⟩
    · refine ⟨[.kill], List.forall_mem_singleton.2 trivial, ?_⟩
      rw [hworld, World.forget, World.forget, hsame]
      rfl
    · refine ⟨[], List.forall_mem_nil _, ?_⟩
      rw [hworld, World.forget, World.forget, hsame]
      rfl
  · have hmap : Updater.mapUpdate u = some (chat, msg) := (Option.filter_eq_some_iff.1 hst).1
    have hmakes : p.Makes (.record u flt) := ⟨cfg, hcfg, Option.isSome_of_eq_some hst⟩
    refine ⟨[.record u flt], List.forall_mem_singleton.2 hmakes, ?_⟩
    rw [← stored_eq_moved w hdies, ← stored_forget,
      ← Op.call_commutes (blind_recordInbound chat msg)]
    change (World.step p.state (.record u flt) w.world.forget).bind _ = _
    rw [World.step, hmap]
    rfl

/-- A step of the updater starts no tool call; at most it ends them all. -/
theorem update_tasks {i : Updater.Input} (hs : w.update p i = some w') :
    w'.world.tasks ⊆ w.world.tasks := by
  obtain ⟨cfg, -, hs⟩ := Option.bind_eq_some_iff.1 hs
  obtain ⟨phase, -, hs⟩ := Option.bind_eq_some_iff.1 hs
  obtain ⟨⟨phase', db'⟩, -, rfl⟩ := Option.map_eq_some_iff.1 hs
  rcases moved_world w phase' db' with ⟨-, hworld⟩ | ⟨-, hworld⟩
  · rw [hworld]
    exact List.nil_subset _
  · rw [hworld]
    exact List.Subset.refl _

/-- A step of the whole is one of `serve` or one of `update`. Those of `serve` are what this setup
makes, and none of them records an update, which is left to the updater. -/
theorem running_cases {e : Event} (h : (running p).step e w = some w') :
    (∃ i, w.serve p i = some w' ∧ p.Makes i ∧ ∀ u flt, i ≠ .record u flt) ∨
      ∃ i, w.update p i = some w' := by
  cases e with
  | request r => exact .inl ⟨.request r, h, trivial, fun _ _ hi => nomatch hi⟩
  | advance task flt bot =>
    exact .inl ⟨.advance task flt bot, h, trivial, fun _ _ hi => nomatch hi⟩
  | tick sinceEpoch flt =>
    obtain ⟨cfg, hcfg, h⟩ := Option.bind_eq_some_iff.1 h
    exact .inl ⟨_, h, ⟨cfg, hcfg, rfl, _, rfl⟩, fun _ _ hi => nomatch hi⟩
  | updates r => exact .inr ⟨.updates r, h⟩
  | store flt => exact .inr ⟨.store flt, h⟩
  | kill => exact .inl ⟨.kill, h, trivial, fun _ _ hi => nomatch hi⟩

/-- So no call in progress looks at the stored offset, in any state of any run, which is why a run
may forget it. -/
theorem unseeing_of_reached {P : Running → Event → Prop} (h : (running p).Reached P w) :
    w.AllUnseeing := by
  refine h.invariant ?_ ?_
  · rintro w rfl
    exact fun _ ht => nomatch ht
  · intro w e w' htasks _ hs
    rcases running_cases hs with ⟨i, hs, -, -⟩ | ⟨i, hs⟩
    · exact serve_unseeing htasks hs
    · exact fun t ht => htasks t (update_tasks hs ht)

end

end

/-- In every state that the whole server reaches, the tool calls, the messages sent and the store
without the offset of the updater are as in a state that `server` reaches, and that by no retention
pass other than one with the configured limits and by the record of no update other than one that
the updater may store. -/
theorem running_refines [Fts5] (p : Setup) (w : Running)
    (h : (running p).Reached (fun _ _ => True) w) :
    (server p.state).Reached (fun _ i => p.Makes i) w.world.forget := by
  refine System.Reached.follow (f := fun w : Running => w.world.forget) ?_ ?_ h
  · rintro w rfl
    exact congrArg (World.mk · [] []) forgetOffset_migrated
  · intro w e w' hw _ hs
    rcases running_cases hs with ⟨i, hs, hi, -⟩ | ⟨i, hs⟩
    · exact serve_follows (unseeing_of_reached hw) hi hs
    · exact update_follows hs

/-- A server with one alias, whose updater stores this chat only. -/
def oneChatSetup : Setup :=
  ⟨"token", ⟨⟨⟨[("ops", i64 42)], List.nodup_singleton _⟩⟩, none, none⟩, none,
    some ⟨30, defaultAllowedKinds, some [i64 42]⟩⟩

/-- Updates of two chats are delivered, and the one of the chat that may be read is stored and
acknowledged. -/
def twoChats : List Event :=
  [.store none, .updates (.ok [Updater.textUpdate 10 42 1 100 "hi",
    Updater.textUpdate 11 43 1 100 "psst"]), .store none, .store none, .store none]

/-- A server that has gone through them has the one chat and the offset behind both updates. -/
theorem exec_twoChats : ∃ w : Running,
    (@running Fts5.ascii oneChatSetup).Reached (fun _ _ => True) w ∧
    w.world.db.chats.rows.map ChatInfo.chatId = [i64 42] ∧
      Updater.persistedOffset w.world.db = some (i64 12) := by
  let := Fts5.ascii
  let init : Running := ⟨some .starting, ⟨.migrated, [], []⟩⟩
  have hrun : ((running oneChatSetup).exec twoChats init).map (fun w =>
      (w.world.db.chats.rows.map ChatInfo.chatId, Updater.persistedOffset w.world.db)) =
        some ([i64 42], some (i64 12)) := by decide +kernel
  obtain ⟨w, hexec, hw⟩ := Option.map_eq_some_iff.1 hrun
  obtain ⟨hchats, hoffset⟩ := Prod.mk.inj hw
  exact ⟨w, System.Reached.exec (.init rfl) hexec, hchats, hoffset⟩

/-- The run of the example, seen from the tools: the update of the other chat shows nowhere, and
neither does the offset. -/
theorem running_refines_twoChats : ∃ w : World, w.db.chats.rows.map ChatInfo.chatId = [i64 42] ∧
    (@server Fts5.ascii oneChatSetup.state).Reached (fun _ i => oneChatSetup.Makes i) w := by
  obtain ⟨w, hw, hchats, -⟩ := exec_twoChats
  exact ⟨w.world.forget, hchats, @running_refines Fts5.ascii oneChatSetup w hw⟩

/-! ## The chats it may read -/

/-- Every message that is stored as inbound has this property. -/
def AllInbound (P : StoredMessage → Prop) (db : Db) : Prop :=
  ∀ r ∈ db.messages.rows, r.2.direction = .inbound → P r.2

/-- The chats of the store, and those that its inbound messages are of, are among these. Outbound
messages may be of any chat that the tools may send to. -/
structure ReadsOnly (allowed : List I64) (db : Db) : Prop where
  chats : ∀ c ∈ db.chats.rows, c.chatId ∈ allowed
  inbound : AllInbound (fun m => m.chatId ∈ allowed) db

/-- A write of the tools, which stores no message as inbound. -/
def NothingInbound : Mutation → Prop
  | .touchChatLastSeen _ _ | .markRead _ _ => True
  | .insertMessage m => m.direction = .outbound
  | _ => False

/-- An action of a tool that stores no message as inbound. -/
def StoresNoInbound : {β : Type} → Action β → Prop
  | _, .write m => NothingInbound m
  | _, .read _ _ | _, .api _ => True

/-- The tools store messages as outbound only, as they mirror what the server sent. -/
theorem callTool_storesNoInbound [Fts5] (s : State) (r : CallToolRequest) :
    Keeps (.only StoresNoInbound) (callTool s r) () := by
  refine callTool_keeps s r (fun _ _ _ => trivial) (fun _ _ _ => trivial) (fun _ _ _ _ => trivial)
    ?_ ()
  intro call text mediaKind replyTo g _ _
  refine Keeps.action (fun _ => trivial) fun sent _ => Safe.seq ?_ fun _ _ => Keeps.done _
  exact Keeps.action (fun _ => trivial) fun _ _ => Keeps.act fun _ => rfl

/-- An atomic call leaves the contents as they were, or as it evaluates. -/
theorem holds_call {H : Db → Prop} {β : Type} {op : Op Db β} {flt : Schedule HistoryError}
    {db : Db} (h : H db) (hatomic : op.AtomicAt flt db) (heval : H (op.eval db).2) :
    H (op.call flt db).2 := by
  rcases hatomic.snd with heq | heq
  · rw [heq]
    exact h
  · rw [heq]
    exact heval

section
variable [Fts5] {P Q : StoredMessage → Prop} {db db' : Db}

omit [Fts5] in
/-- A property of all inbound messages may be weakened. -/
theorem AllInbound.imp (h : AllInbound P db) (hPQ : ∀ m, P m → Q m) : AllInbound Q db :=
  fun r hr hin => hPQ r.2 (h r hr hin)

omit [Fts5] in
/-- What all inbound messages have does not depend on the offset. -/
theorem AllInbound.of_forget (h : AllInbound P db) (heq : forgetOffset db' = forgetOffset db) :
    AllInbound P db' := by
  have hmessages : (forgetOffset db').messages = (forgetOffset db).messages :=
    congrArg Db.messages heq
  change db'.messages = db.messages at hmessages
  rw [AllInbound, hmessages]
  exact h

/-- A message that is not inbound, or has the property, is stored. -/
theorem AllInbound.inserted (h : AllInbound P db) {m : StoredMessage}
    (hm : m.direction = .inbound → P m) : AllInbound P (inserted m db) := by
  intro r hr hin
  have hrow := RowidTable.row_eq_some_iff.2 ⟨⟨r.1, hr⟩, rfl⟩
  rw [row_inserted] at hrow
  split at hrow
  · cases hrow
    exact hm hin
  · obtain ⟨⟨n, hn⟩, -⟩ := RowidTable.row_eq_some_iff.1 hrow
    exact h (n, r.2) hn hin

/-- A record keeps the property when the message recorded has it. -/
theorem AllInbound.recordInbound (h : AllInbound P db) {chat : ChatInfo} {msg : StoredMessage}
    (hmsg : P msg) (flt : Schedule HistoryError) :
    AllInbound P ((recordInbound chat msg).call flt db).2 := by
  refine holds_call h (Op.atomicAt_transaction _ _ _) ?_
  have hlisted : AllInbound P { db with chats := db.chats.upsert chatConflict chat } := h
  rw [recordInbound_eval]
  exact hlisted.inserted fun _ => hmsg

/-- The writes of the tools keep it, as they store nothing inbound. -/
theorem AllInbound.write (h : AllInbound P db) {m : Mutation} (hm : NothingInbound m)
    (flt : Schedule HistoryError) : AllInbound P (m.op.call flt db).2 := by
  cases m with
  | touchChatLastSeen | markRead => exact holds_call h (Op.atomicAt_statement _ _ _) h
  | insertMessage row =>
    refine holds_call h (Op.atomicAt_transaction _ _ _) ?_
    change AllInbound P ((insertMessage row).eval db).2
    rw [insertMessage_eval]
    refine h.inserted fun hin => ?_
    rw [show row.direction = .outbound from hm] at hin
    cases hin
  | upsertChat | recordInbound | kvPut | trimOlderThan | trimPerChatTo | enforceRetention =>
    exact hm.elim

/-- A retention pass keeps it, as it takes messages away only. -/
theorem AllInbound.retain (h : AllInbound P db) (cutoff keep : Option I64)
    (flt : Schedule HistoryError) :
    AllInbound P ((enforceRetention cutoff keep).call flt db).2 := by
  refine holds_call h (Op.atomicAt_transaction _ _ _) ?_
  intro r hr hin
  have hrow := RowidTable.row_eq_some_iff.2 ⟨⟨r.1, hr⟩, rfl⟩
  obtain ⟨⟨n, hn⟩, -⟩ := RowidTable.row_eq_some_iff.1 (enforceRetention_row cutoff keep db hrow)
  exact h (n, r.2) hn hin

variable {allowed : List I64}

omit [Fts5] in
/-- Which chats the store has does not depend on the offset. -/
theorem ReadsOnly.of_forget (h : ReadsOnly allowed db)
    (heq : forgetOffset db' = forgetOffset db) : ReadsOnly allowed db' := by
  have hchats : (forgetOffset db').chats = (forgetOffset db).chats := congrArg Db.chats heq
  change db'.chats = db.chats at hchats
  exact ⟨hchats ▸ h.chats, h.inbound.of_forget heq⟩

/-- A record keeps to the chats when its chat is one of them. -/
theorem ReadsOnly.recordInbound (h : ReadsOnly allowed db) {chat : ChatInfo} {msg : StoredMessage}
    (hchat : chat.chatId ∈ allowed) (hmsg : msg.chatId ∈ allowed) (flt : Schedule HistoryError) :
    ReadsOnly allowed ((recordInbound chat msg).call flt db).2 := by
  refine ⟨?_, h.inbound.recordInbound hmsg flt⟩
  refine holds_call (H := fun db => ∀ c ∈ db.chats.rows, c.chatId ∈ allowed) h.chats
    (Op.atomicAt_transaction _ _ _) ?_
  rw [recordInbound_eval]
  intro c hc
  rcases Table.mem_upsert.1 hc with rfl | ⟨hc, -⟩
  · exact (Table.key_merged chatConflict db.chats chat).symm ▸ hchat
  · exact h.chats c hc

/-- The writes of the tools add no chat: a touch of an unknown one does nothing. -/
theorem ReadsOnly.write (h : ReadsOnly allowed db) {m : Mutation} (hm : NothingInbound m)
    (flt : Schedule HistoryError) : ReadsOnly allowed (m.op.call flt db).2 := by
  refine ⟨?_, h.inbound.write hm flt⟩
  cases m with
  | touchChatLastSeen chatId date =>
    refine holds_call (H := fun db => ∀ c ∈ db.chats.rows, c.chatId ∈ allowed) h.chats
      (Op.atomicAt_statement _ _ _) ?_
    intro c hc
    obtain ⟨c', hc', rfl⟩ := List.mem_map.1 hc
    split <;> exact h.chats c' hc'
  | insertMessage row =>
    refine holds_call (H := fun db => ∀ c ∈ db.chats.rows, c.chatId ∈ allowed) h.chats
      (Op.atomicAt_transaction _ _ _) ?_
    change ∀ c ∈ ((insertMessage row).eval db).2.chats.rows, c.chatId ∈ allowed
    rw [insertMessage_eval]
    exact h.chats
  | markRead chatId upTo =>
    exact holds_call (H := fun db => ∀ c ∈ db.chats.rows, c.chatId ∈ allowed) h.chats
      (Op.atomicAt_statement _ _ _) h.chats
  | upsertChat | recordInbound | kvPut | trimOlderThan | trimPerChatTo | enforceRetention =>
    exact hm.elim

/-- A retention pass adds no chat and no message. -/
theorem ReadsOnly.retain (h : ReadsOnly allowed db) (cutoff keep : Option I64)
    (flt : Schedule HistoryError) :
    ReadsOnly allowed ((enforceRetention cutoff keep).call flt db).2 := by
  refine ⟨?_, h.inbound.retain cutoff keep flt⟩
  refine holds_call (H := fun db => ∀ c ∈ db.chats.rows, c.chatId ∈ allowed) h.chats
    (Op.atomicAt_transaction _ _ _) ?_
  rw [enforceRetention_chats]
  exact h.chats

section
variable {p : Setup} {w w' : Running}

/-- What the writes of the tools and the retention task keep, their steps keep. -/
theorem serve_holds {H : Db → Prop} {i : Input}
    (hwrite : ∀ m, NothingInbound m → ∀ (flt : Schedule HistoryError) db, H db →
      H (m.op.call flt db).2)
    (hretain : ∀ cutoff keep, ∀ (flt : Schedule HistoryError) db, H db →
      H ((enforceRetention cutoff keep).call flt db).2)
    (htasks : ∀ t ∈ w.world.tasks, Keeps (.only StoresNoInbound) t ())
    (hi : ∀ u flt, i ≠ .record u flt) (hs : w.serve p i = some w') (h : H w.world.db) :
    H w'.world.db := by
  obtain ⟨world, hworld, rfl⟩ := Option.map_eq_some_iff.1 hs
  cases World.stepped hworld with
  | request | api | kill => exact h
  | read ht flt bot =>
    rename_i readOnly next
    rw [World.stored_db, readOnly]
    exact h
  | write ht flt bot =>
    rw [World.stored_db]
    exact hwrite _ (htasks _ (List.mem_of_getElem? ht) () trivial).1 flt _ h
  | record hu flt => exact absurd rfl (hi _ flt)
  | retain cutoff keep flt =>
    rw [World.stored_db]
    exact hretain cutoff keep flt _ h

/-- What the records of pending updates keep, and what does not depend on the offset, a step of the
updater keeps. -/
theorem update_holds {H : Db → Prop} {i : Updater.Input}
    (hforget : ∀ db', forgetOffset db' = forgetOffset w.world.db → H w.world.db → H db')
    (hrecord : ∀ cfg ∈ p.updater, ∀ phase ∈ w.phase, ∀ u ∈ phase.pending, ∀ chat msg,
      cfg.storable u = some (chat, msg) → ∀ flt : Schedule HistoryError, H w.world.db →
        H ((recordInbound chat msg).call flt w.world.db).2)
    (hs : w.update p i = some w') (h : H w.world.db) : H w'.world.db := by
  obtain ⟨cfg, hcfg, hs⟩ := Option.bind_eq_some_iff.1 hs
  obtain ⟨phase, hphase, hs⟩ := Option.bind_eq_some_iff.1 hs
  obtain ⟨⟨phase', db'⟩, hstep, rfl⟩ := Option.map_eq_some_iff.1 hs
  have hstore : H db' := by
    rcases updater_cases hstep with hsame | ⟨u, hu, chat, msg, flt, hst, rfl, -⟩
    · exact hforget db' hsame h
    · exact hrecord cfg hcfg phase hphase u hu chat msg hst flt h
  rcases moved_world w phase' db' with ⟨-, hworld⟩ | ⟨-, hworld⟩
  · rw [hworld]
    exact hstore
  · rw [hworld]
    exact hstore

/-- A step of the tools starts no call that would store a message as inbound. -/
theorem serve_storesNoInbound {i : Input}
    (htasks : ∀ t ∈ w.world.tasks, Keeps (.only StoresNoInbound) t ())
    (hs : w.serve p i = some w') : ∀ t ∈ w'.world.tasks, Keeps (.only StoresNoInbound) t () := by
  obtain ⟨world, hworld, rfl⟩ := Option.map_eq_some_iff.1 hs
  exact (World.stepped hworld).keeps trivial (callTool_storesNoInbound p.state) (fun _ _ => trivial)
    (fun _ _ _ => trivial) (fun _ _ _ _ _ _ _ => trivial) htasks

/-- The store of a whole server whose updater may read these chats, and its tool calls, none of
which will ever store an inbound message. -/
structure Restricted (allowed : List I64) (w : Running) : Prop where
  store : ReadsOnly allowed w.world.db
  tasks : ∀ t ∈ w.world.tasks, Keeps (.only StoresNoInbound) t ()

/-- A step of the tools or of the retention task keeps to the chats, because what the tools store is
not inbound, and a pass of the retention task only removes rows. -/
theorem Restricted.serve {i : Input} (h : Restricted allowed w) (hi : ∀ u flt, i ≠ .record u flt)
    (hs : w.serve p i = some w') : Restricted allowed w' := by
  refine ⟨?_, serve_storesNoInbound h.tasks hs⟩
  exact serve_holds (fun m hm flt db hdb => ReadsOnly.write hdb hm flt)
    (fun cutoff keep flt db hdb => ReadsOnly.retain hdb cutoff keep flt) h.tasks hi hs h.store

/-- So does a step of the updater, which records only updates of these chats: its filter has the
list that the start resolved. -/
theorem Restricted.update {i : Updater.Input} (h : Restricted allowed w)
    (hallowed : ∀ cfg ∈ p.updater, cfg.allowedChats = some allowed)
    (hs : w.update p i = some w') : Restricted allowed w' := by
  refine ⟨?_, fun t ht => h.tasks t (update_tasks hs ht)⟩
  refine update_holds (fun db' hsame hdb => ReadsOnly.of_forget hdb hsame) ?_ hs h.store
  intro cfg hcfg phase _ u _ chat msg hst flt hdb
  obtain ⟨hchat, hmsg⟩ := Updater.storable_allowed hst (hallowed cfg hcfg)
  exact hdb.recordInbound hchat hmsg flt

/-- So the store keeps to them in every state of every run from an empty store, over restarts, which
set up the updater with the same list. -/
theorem restricted_of_reached {P : Running → Event → Prop}
    (hallowed : ∀ cfg ∈ p.updater, cfg.allowedChats = some allowed)
    (h : (running p).Reached P w) : Restricted allowed w := by
  refine h.invariant ?_ ?_
  · rintro w rfl
    exact ⟨⟨fun _ hc => (nomatch hc), fun _ hr _ => (nomatch hr)⟩, fun _ ht => (nomatch ht)⟩
  · intro w e w' hw _ hs
    rcases running_cases hs with ⟨i, hs, -, hi⟩ | ⟨i, hs⟩
    · exact hw.serve hi hs
    · exact hw.update hallowed hs

end

end

/-! ## What a start gives -/

/-- Two parts succeed when the first does and then the second. -/
theorem bind_eq_ok_iff {ε α β : Type} {x : Except ε α} {f : α → Except ε β} {b : β} :
    (x >>= f) = .ok b ↔ ∃ a, x = .ok a ∧ f a = .ok b := by
  cases x with
  | ok a =>
    refine ⟨fun h => ⟨a, rfl, h⟩, ?_⟩
    rintro ⟨_, ⟨⟩, h⟩
    exact h
  | error e => exact iff_of_false nofun (by rintro ⟨_, ⟨⟩, -⟩)

/-- A check of the start succeeds exactly when its condition holds. -/
theorem ensure_eq_ok_iff {b : Bool} {what : String} {u : Unit} :
    ensure b what = .ok u ↔ b = true := by
  cases b
  · exact iff_of_false nofun nofun
  · exact iff_of_true rfl rfl

section
variable {host : Host} {doc : Document}

/-- The start went through all its parts, with what each of them gave. The setup is determined by
the document and the host. -/
structure Started (host : Host) (doc : Document) (p : Setup) : Prop where
  valid : doc.validate host.missingParent = .ok ()
  token : resolvedToken host doc.bot = .ok p.token
  url : doc.apiBaseUrl.all host.isUrl = true
  client : host.builds = true
  history : host.opens doc.storagePath = true
  state : doc.serverState = .ok p.state
  updater : updaterConfig doc = .ok p.updater
  retention : retentionTask doc.retention = p.retention

/-- `main` gets to its tasks exactly when all parts of the start succeed. -/
theorem start_eq_ok_iff {p : Setup} : start host doc = .ok p ↔ Started host doc p := by
  simp only [start, bind_eq_ok_iff, ensure_eq_ok_iff]
  refine ⟨?_, ?_⟩
  · rintro ⟨⟨⟩, hvalid, token, htoken, ⟨⟩, hurl, ⟨⟩, hclient, ⟨⟩, hhistory, state, hstate, updater,
      hupdater, ⟨⟩⟩
    exact ⟨hvalid, htoken, hurl, hclient, hhistory, hstate, hupdater, rfl⟩
  · intro h
    refine ⟨(), h.valid, _, h.token, (), h.url, (), h.client, (), h.history, _, h.state, _,
      h.updater, ?_⟩
    rw [h.retention]
    rfl

/-- In a configuration that passed its checks, the chats of the updater resolve, so that the updater
gets a list and not an error. -/
theorem updaterConfig_of_validate (h : doc.validate host.missingParent = .ok ())
    (hne : doc.access.allowedChats ≠ []) :
    ∃ allowed updater, doc.resolveIdList doc.access.allowedChats = .ok allowed ∧
      updaterConfig doc = .ok updater ∧ ∀ cfg ∈ updater, cfg.allowedChats = some allowed := by
  obtain ⟨allowed, hallowed⟩ := Config.resolveIdList_ok fun e he =>
    Config.resolveEntry_of_validate h (List.mem_append_left _ he)
  have hlist : allowedChats doc.toConfig = .ok (some allowed) := by
    rw [allowedChats, if_neg (by simpa using hne), hallowed]
    rfl
  refine ⟨allowed, ?_⟩
  rw [updaterConfig, hlist]
  cases doc.updaterEnabled with
  | false => exact ⟨none, hallowed, rfl, fun _ hcfg => nomatch hcfg⟩
  | true =>
    refine ⟨_, hallowed, rfl, ?_⟩
    rintro _ ⟨⟩
    rfl

end

/-- A server that started with a list of chats it may read: whatever is requested and whatever
Telegram delivers, however the tool calls, the updater and the retention task are interleaved and
whenever the process dies, the chats in its store are of the list, and so are those of all inbound
messages. -/
theorem allowed_chats_enforced [Fts5] (host : Host) (doc : Document) (p : Setup)
    (hstart : start host doc = .ok p) (hne : doc.access.allowedChats ≠ []) :
    ∃ allowed, doc.resolveIdList doc.access.allowedChats = .ok allowed ∧
      ∀ w, (running p).Reached (fun _ _ => True) w → ReadsOnly allowed w.world.db := by
  have hstarted := start_eq_ok_iff.1 hstart
  obtain ⟨allowed, updater, hallowed, hupdater, hlist⟩ :=
    updaterConfig_of_validate hstarted.valid hne
  obtain rfl : updater = p.updater := Except.ok.inj (hupdater.symm.trans hstarted.updater)
  exact ⟨allowed, hallowed, fun w hw => (restricted_of_reached hlist hw).store⟩

/-- A configuration with one chat to read, by its alias. -/
def oneChat : Document where
  bot := ⟨some "token", none⟩
  storagePath := "history.db"
  pollTimeoutSecs := 30
  aliases := ⟨⟨[("ops", i64 42)], List.nodup_singleton _⟩⟩
  access := ⟨[.name "ops"], [], none⟩
  apiBaseUrl := none

/-- A machine on which everything opens and no variable is set. -/
def goodHost : Host := ⟨fun _ => none, fun _ => none, fun _ => true, true, fun _ => true⟩

/-- Updates of two chats arrive, and the one that may not be read is not stored. -/
theorem allowed_chats_enforced_twoChats : ∃ w : Running,
    w.world.db.chats.rows.map ChatInfo.chatId = [i64 42] ∧ ReadsOnly [i64 42] w.world.db := by
  obtain ⟨w, hw, hchats, -⟩ := exec_twoChats
  obtain ⟨allowed, hallowed, hall⟩ :=
    @allowed_chats_enforced Fts5.ascii goodHost oneChat oneChatSetup rfl (by decide)
  obtain rfl : [i64 42] = allowed := Except.ok.inj hallowed
  exact ⟨w, hchats, hall w hw⟩

end TelegramMcp.Server
