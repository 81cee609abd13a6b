import TelegramMcp.Hook.Conduct
import TelegramMcp.Server.Main

/-!
# From Telegram to Claude

`desk` is a server with the hook processes that find it: each step is one of the server, the start
of a hook, or the next action of one, which the server performs for it. The updates that Telegram
delivered are kept beside it.

What a hook tells Claude is not made up on the way. In every run, whatever is interleaved and
whichever call of the store fails, the replies that a hook passes on are messages of updates that
Telegram delivered, of the chat it was to ask and after the text it sent there
(`relayed_delivered`).
-/

namespace TelegramMcp.Hook

open Rust Txn History Server Proc

/-! ## Contracts of the tools -/

section
variable [Fts5] {γ : Type} {C : Contract Action γ} {cli : CliArgs}
  (htools : ∀ s r g, Server.Keeps C (Server.callTool s r) g)
include htools

/-- A tool call of a hook keeps to a contract that allows every read of the server. -/
theorem callTool_keeps (s : State) (name : String) (arguments : Entries) (g : γ) :
    Keeps C (callTool s name arguments) g :=
  Safe.mapError (htools s _ g)

/-- The loop of `select!` keeps to it, whatever branches it takes. -/
theorem loop_keeps (s : State) (baseline : Baseline) (takeover : String) (onTimeout : Ending)
    (reason : List Reply → String) (inTime : Bool) (branches : List Branch) (g : γ) :
    Keeps C (waitLoop s cli baseline takeover onTimeout reason inTime branches) g :=
  waitLoop_keeps (fun _ => callTool_keeps htools s _ _)
    (fun _ g => Safe.seq (callTool_keeps htools s _ _ g) fun _ _ => Safe.lift_true _) _ _ _ _ _ _ g

/-- A Stop hook keeps to it from its start to its end. -/
theorem runStop_keeps (c : Course) (lastAssistantMessage : Option String) (g : γ) :
    Keeps C (runStop c cli lastAssistantMessage) g := by
  unfold runStop
  split
  · exact Safe.pure_true
  · refine Safe.seq (Safe.lift_true _) fun s _ => Safe.seq
      (sendWakeup_keeps (fun _ => callTool_keeps htools s _ _) _ _) fun _ _ => Safe.seq ?_ ?_
    · exact sendResponseChunks_keeps (fun _ => callTool_keeps htools s _ _) _ _
    · exact fun _ _ => loop_keeps htools _ _ _ _ _ _ _ _

/-- A hook with questions keeps to it from its start to its end. -/
theorem runAsk_keeps (c : Course) (questions : Questions) (g : γ) :
    Keeps C (runAsk c cli questions) g := by
  unfold runAsk
  split
  · exact Safe.pure_true
  · refine Safe.seq (Safe.lift_true _) fun s _ => Safe.seq
      (sendWakeup_keeps (fun _ => callTool_keeps htools s _ _) _ _) fun _ _ => ?_
    exact loop_keeps htools _ _ _ _ _ _ _ _

/-- A contract that all tools keep is kept by the hook, which acts through them only. -/
theorem main_keeps [ReadJson] (w : Surroundings) (g : γ) : Keeps C w.main g := by
  have hrun : Keeps C w.run g := by
    unfold Surroundings.run
    split
    · exact Safe.pure_true
    · exact Safe.fail fun _ _ => trivial
    · next cli _ =>
      dsimp only
      split
      · unfold Surroundings.ask
        split
        · refine Safe.seq (Safe.lift_true _) fun qs _ => ?_
          refine Safe.seq (runAsk_keeps htools _ _ _) fun ending _ => ?_
          cases ending <;> exact Safe.pure_true
        · exact Safe.pure_true
      · refine Safe.seq (Safe.lift_true _) fun input _ => ?_
        refine Safe.seq (runStop_keeps htools _ _ _) fun ending _ => ?_
        cases ending <;> exact Safe.pure_true
  refine attempt_keeps hrun fun r g => ?_
  cases r <;> exact Safe.pure_true

end

/-! ## The desk -/

/-- A hook process: what it was started with, what it has done, and what is left of it. -/
structure HookProcess where
  surroundings : Surroundings
  trace : List (Performed Action)
  rest : HookM Status

/-- The state in which a hook has ended, once it has. -/
def HookProcess.status (k : HookProcess) : Option Status :=
  match k.rest with
  | .ok status => some status
  | _ => none

/-- A server, the hooks that were started beside it, and the updates that Telegram delivered. All of
them take steps in any order, on one store. -/
structure Desk where
  server : Running
  hooks : List HookProcess
  delivered : List Json

/-- What happens: a step of the server, the start of a hook, or the next action of one. -/
inductive DeskEvent
  | server (e : Event)
  | start (w : Surroundings)
  | act (hook : Nat) (flt : Schedule HistoryError) (bot : (c : BotCall) → ApiOutcome c.Result)

/-- Where a hook finds a server, it is this one. -/
def Surroundings.findOnly (w : Surroundings) (s : State) : Surroundings :=
  { w with connectToServer := fun sessionId => (w.connectToServer sessionId).map fun _ => s }

section
variable [Fts5] (p : Setup)

/-- The hook at its start, with nothing read. -/
def HookProcess.start [ReadJson] (w : Surroundings) : HookProcess := ⟨w, [], w.main⟩

/-- The server after a call of the store that it made for a hook. -/
def called {β : Type} (w : Running) (r : Outcome HistoryError β × Db) : Running :=
  ⟨if died r.1 then p.firstPhase else w.phase, w.world.stored (fun _ => w.world.tasks) r⟩

/-- The server performs an action for a hook, which gets its response. -/
def perform (w : Running) (flt : Schedule HistoryError)
    (bot : (c : BotCall) → ApiOutcome c.Result) : {β : Type} → Action β → β × Running
  | _, .write m => let r := m.op.call flt w.world.db; (response r.1, called p w r)
  | _, .read op _ => let r := op.call flt w.world.db; (response r.1, called p w r)
  | _, .api c =>
    (bot c, ⟨w.phase, { w.world with sent := w.world.sent ++ (sentBy c (bot c)).toList }⟩)

/-- The next action of a hook, on the store of the server. -/
def Desk.act (d : Desk) (hook : Nat) (k : HookProcess) (flt : Schedule HistoryError)
    (bot : (c : BotCall) → ApiOutcome c.Result) : Option Desk :=
  match k.rest with
  | .perform a next =>
    let (b, server) := perform p d.server flt bot a
    some { d with
      server, hooks := d.hooks.set hook { k with trace := k.trace ++ [⟨a, b⟩], rest := next b } }
  | _ => none

/-- What Telegram delivers in a step of the server. -/
def deliveredBy (w : Running) : Event → List Json
  | .updates r => w.phase.elim [] (Updater.deliveredNow (.updates r))
  | _ => []

/-- A step of the server, the start of a hook, or the next action of one. A hook acts on the store
of the server, by its tools. -/
def Desk.step [ReadJson] : DeskEvent → Desk → Option Desk
  | .server e, d => (Running.step p e d.server).map fun server =>
    { d with server, delivered := d.delivered ++ deliveredBy d.server e }
  | .start w, d => some { d with hooks := d.hooks ++ [.start (w.findOnly p.state)] }
  | .act hook flt bot, d => d.hooks[hook]?.bind fun k => d.act p hook k flt bot

/-- The desk from an empty store on: the server, the hooks beside it, and what was delivered. -/
def desk [ReadJson] : System Desk DeskEvent where
  init d := d = ⟨⟨p.firstPhase, ⟨.migrated, [], []⟩⟩, [], []⟩
  step := Desk.step p

end

/-! ## What a hook has read -/

/-- The message is what the updater makes of an update that was delivered. -/
def Delivered (p : Setup) (delivered : List Json) (m : StoredMessage) : Prop :=
  ∃ cfg ∈ p.updater, ∃ u ∈ delivered, ∃ chat, cfg.storable u = some (chat, m)

/-- What was delivered stays delivered when more is. -/
theorem Delivered.mono {p : Setup} {us vs : List Json} {m : StoredMessage}
    (h : Delivered p us m) (hsub : us ⊆ vs) : Delivered p vs m := by
  obtain ⟨cfg, hcfg, u, hu, hst⟩ := h
  exact ⟨cfg, hcfg, u, hsub hu, hst⟩

/-- What the store has as inbound was delivered, also when more is delivered later. -/
theorem inbound_mono {p : Setup} {us vs : List Json} {db : Db}
    (h : AllInbound (Delivered p us) db) (hsub : us ⊆ vs) : AllInbound (Delivered p vs) db :=
  h.imp fun _ hm => hm.mono hsub

/-- A read that succeeds returns what it evaluates to on such contents. -/
def ReadFrom (H : Db → Prop) : {β : Type} → Action β → β → Prop
  | _, .read op _, r => ∀ v, r = .ok v → ∃ db, H db ∧ v = (op.eval db).1
  | _, .write _, _ | _, .api _, _ => True

/-- What was read from a store of one kind was read from one of a weaker kind. -/
theorem ReadFrom.imp {H H' : Db → Prop} (hHH' : ∀ db, H db → H' db) {β : Type} {a : Action β}
    {b : β} (h : ReadFrom H a b) : ReadFrom H' a b := by
  cases a with
  | write | api => trivial
  | read op readOnly =>
    intro v hv
    obtain ⟨db, hdb, heq⟩ := h v hv
    exact ⟨db, hHH' db hdb, heq⟩

/-- A hook that found this server, stands where `main` does after its trace, and has read messages
only that were delivered. -/
structure HookProcess.Sound [Fts5] [ReadJson] (p : Setup) (delivered : List Json)
    (k : HookProcess) : Prop where
  found : ∀ sessionId s, k.surroundings.connectToServer sessionId = .ok s → s = p.state
  execs : ∀ tr r, Exec k.rest tr r → Exec k.surroundings.main (k.trace ++ tr) r
  keeps : Keeps (.only StoresNoInbound) k.rest ()
  reads : ∀ x ∈ k.trace, ReadFrom (AllInbound (Delivered p delivered)) x.act x.response

/-- What is stored as inbound was delivered, and so was what the updater is to store. This is the
invariant from which every reply that a hook prints gets its origin. -/
structure Desk.Sound [Fts5] [ReadJson] (p : Setup) (d : Desk) : Prop where
  store : AllInbound (Delivered p d.delivered) d.server.world.db
  pending : ∀ phase ∈ d.server.phase, phase.pending ⊆ d.delivered
  tasks : ∀ t ∈ d.server.world.tasks, Server.Keeps (.only StoresNoInbound) t ()
  hooks : ∀ k ∈ d.hooks, k.Sound p d.delivered

section
variable [Fts5] {p : Setup} {w w' : Running}

omit [Fts5] in
/-- An updater that starts has no updates pending. -/
theorem pending_firstPhase {us : List Json} : ∀ phase ∈ p.firstPhase, phase.pending ⊆ us := by
  intro phase hphase
  obtain ⟨cfg, -, rfl⟩ := Option.map_eq_some_iff.1 hphase
  exact List.nil_subset us

/-- Where the updater is after a step of the tools: where it was, or at its start. -/
theorem serve_phase {i : Server.Input} (hs : w.serve p i = some w') :
    w'.phase = w.phase ∨ w'.phase = p.firstPhase := by
  obtain ⟨world, -, rfl⟩ := Option.map_eq_some_iff.1 hs
  dsimp only
  split
  · exact .inr rfl
  · exact .inl rfl

/-- The updater has only to store what it had to, and what is delivered now. -/
theorem update_pending {i : Updater.Input} (hs : w.update p i = some w') :
    ∃ phase, w.phase = some phase ∧ ∀ phase' ∈ w'.phase,
      phase'.pending ⊆ phase.pending ++ Updater.deliveredNow i phase := by
  obtain ⟨cfg, -, hs⟩ := Option.bind_eq_some_iff.1 hs
  obtain ⟨phase, hphase, hs⟩ := Option.bind_eq_some_iff.1 hs
  obtain ⟨⟨phase', db'⟩, hstep, rfl⟩ := Option.map_eq_some_iff.1 hs
  refine ⟨phase, hphase, ?_⟩
  have hmoved : (w.moved (phase', db')).phase = some phase' := by cases phase' <;> rfl
  rw [hmoved]
  rintro _ ⟨⟩
  exact (Updater.moves_of_step hstep).pending

variable [ReadJson] {us vs : List Json} {k : HookProcess} {d d' : Desk}

/-- What a hook has read stays delivered when more is. -/
theorem HookProcess.Sound.mono (h : k.Sound p us) (hsub : us ⊆ vs) : k.Sound p vs :=
  ⟨h.found, h.execs, h.keeps, fun x hx => (h.reads x hx).imp fun _ hdb =>
    inbound_mono hdb hsub⟩

/-- A hook that starts and finds this server only has read nothing yet. -/
theorem HookProcess.sound_start (w : Surroundings) :
    (HookProcess.start (w.findOnly p.state)).Sound p us := by
  refine ⟨?_, fun tr r h => h, ?_, fun _ hx => nomatch hx⟩
  · intro sessionId s hs
    change (w.connectToServer sessionId).map _ = _ at hs
    cases hfound : w.connectToServer sessionId with
    | ok s' =>
      rw [hfound] at hs
      exact (Except.ok.inj hs).symm
    | error e =>
      rw [hfound] at hs
      cases hs
  · exact main_keeps (fun s r _ => callTool_storesNoInbound s r) _ ()

/-- After its next action, what a hook has read was delivered, if this holds of what that action
tells it. Everything else it knows was read before. -/
theorem HookProcess.Sound.next {β : Type} {a : Action β} {next : β → HookM Status} {b : β}
    (h : k.Sound p us) (hrest : k.rest = .perform a next)
    (hread : ReadFrom (AllInbound (Delivered p us)) a b) :
    HookProcess.Sound p us { k with trace := k.trace ++ [⟨a, b⟩], rest := next b } := by
  have hkeeps := h.keeps
  rw [hrest] at hkeeps
  refine ⟨h.found, ?_, hkeeps.next b () trivial, ?_⟩
  · intro tr r hex
    have hexec := h.execs (⟨a, b⟩ :: tr) r (by rw [hrest]; exact .perform a next b hex)
    rwa [List.append_assoc]
  · intro x hx
    rcases List.mem_append.1 hx with hx | hx
    · exact h.reads x hx
    · rw [List.mem_singleton.1 hx]
      exact hread

/-- A server after a call that it made for a hook. -/
theorem Desk.Sound.called {β : Type} {r : Outcome HistoryError β × Db} (h : d.Sound p)
    (hdb : AllInbound (Delivered p d.delivered) r.2) {hooks : List HookProcess}
    (hhooks : ∀ k ∈ hooks, k.Sound p d.delivered) :
    Desk.Sound p { d with server := called p d.server r, hooks } := by
  refine ⟨?_, ?_, ?_, hhooks⟩
  · change AllInbound _ (World.stored _ _ r).db
    rw [World.stored_db]
    exact hdb
  · change ∀ phase ∈ (if died r.1 then p.firstPhase else d.server.phase), _
    split
    · exact pending_firstPhase
    · exact h.pending
  · intro t ht
    obtain ⟨_, ht⟩ := World.mem_stored ht
    exact h.tasks t ht

/-- An action of a hook keeps the invariant: what it reads is what the store has, and the store has
only what was delivered. -/
theorem Desk.Sound.act {hook : Nat} {flt : Schedule HistoryError}
    {bot : (c : BotCall) → ApiOutcome c.Result} (h : d.Sound p) (hk : d.hooks[hook]? = some k)
    (hs : d.act p hook k flt bot = some d') : d'.Sound p := by
  have hsound := h.hooks k (List.mem_of_getElem? hk)
  rw [Desk.act] at hs
  split at hs
  · next β a next hrest =>
    cases hs
    have hset : ∀ b, ReadFrom (AllInbound (Delivered p d.delivered)) a b →
        ∀ k' ∈ d.hooks.set hook { k with trace := k.trace ++ [⟨a, b⟩], rest := next b },
          k'.Sound p d.delivered := by
      intro b hread k' hk'
      rcases List.mem_or_eq_of_mem_set hk' with hk' | rfl
      · exact h.hooks k' hk'
      · exact hsound.next hrest hread
    cases a with
    | write m =>
      have hkeeps := hsound.keeps
      rw [hrest] at hkeeps
      exact h.called (h.store.write (hkeeps () trivial).1 flt) (hset _ trivial)
    | read op readOnly =>
      refine h.called ?_ (hset _ ?_)
      · rw [readOnly]
        exact h.store
      · exact fun v hv => ⟨_, h.store, response_ok hv⟩
    | api c => exact ⟨h.store, h.pending, h.tasks, hset _ trivial⟩
  · cases hs

/-- A step of the tools or of the retention task keeps the invariant. -/
theorem Desk.Sound.serve {i : Server.Input} (h : d.Sound p) (hs : d.server.serve p i = some w')
    (hi : ∀ u flt, i ≠ .record u flt) : Desk.Sound p { d with server := w' } := by
  refine ⟨?_, ?_, serve_storesNoInbound h.tasks hs, h.hooks⟩
  · exact serve_holds (fun m hm flt db hdb => AllInbound.write hdb hm flt)
      (fun cutoff keep flt db hdb => AllInbound.retain hdb cutoff keep flt) h.tasks hi hs h.store
  · intro phase hphase
    rcases serve_phase hs with heq | heq
    · exact h.pending phase (heq ▸ hphase)
    · exact pending_firstPhase phase (heq ▸ hphase)

/-- A step of the updater keeps it: what it stores was delivered. -/
theorem Desk.Sound.update {i : Updater.Input} (h : d.Sound p) (hs : d.server.update p i = some w') :
    Desk.Sound p { d with
      server := w'
      delivered := d.delivered ++ d.server.phase.elim [] (Updater.deliveredNow i) } := by
  have hsub := List.subset_append_left d.delivered
    (d.server.phase.elim [] (Updater.deliveredNow i))
  refine ⟨?_, ?_, fun t ht => h.tasks t (update_tasks hs ht), fun k hk => (h.hooks k hk).mono hsub⟩
  · refine inbound_mono ?_ hsub
    refine update_holds (fun db' hsame hdb => AllInbound.of_forget hdb hsame) ?_ hs h.store
    intro cfg hcfg phase hphase u hu chat msg hst flt hdb
    exact hdb.recordInbound ⟨cfg, hcfg, u, h.pending phase hphase hu, chat, hst⟩ flt
  · obtain ⟨phase, hphase, hpending⟩ := update_pending hs
    intro phase' hphase'
    refine List.Subset.trans (hpending phase' hphase') ?_
    rw [hphase]
    exact List.append_subset.2 ⟨List.subset_append_of_subset_left _ (h.pending phase hphase),
      List.subset_append_right _ _⟩

/-- Every step keeps the invariant, of the server and of the hooks. What a hook reads is in the
store, and what is in the store as inbound was delivered; a delivered update stays one. -/
theorem Desk.Sound.step {e : DeskEvent} (h : d.Sound p) (hs : Desk.step p e d = some d') :
    d'.Sound p := by
  cases e with
  | start w =>
    cases hs
    refine ⟨h.store, h.pending, h.tasks, fun k hk => ?_⟩
    rcases List.mem_append.1 hk with hk | hk
    · exact h.hooks k hk
    · rw [List.mem_singleton.1 hk]
      exact HookProcess.sound_start w
  | act hook flt bot =>
    obtain ⟨k, hk, hact⟩ := Option.bind_eq_some_iff.1 hs
    exact h.act hk hact
  | server e =>
    obtain ⟨w', hw', rfl⟩ := Option.map_eq_some_iff.1 hs
    have hnone : ∀ us, Desk.Sound p { d with server := w' } → us = [] →
        Desk.Sound p { d with server := w', delivered := d.delivered ++ us } := by
      rintro _ hd rfl
      rwa [List.append_nil]
    cases e with
    | request | advance | kill => exact hnone _ (h.serve hw' fun _ _ hi => nomatch hi) rfl
    | tick sinceEpoch flt =>
      obtain ⟨cfg, -, hserve⟩ := Option.bind_eq_some_iff.1 hw'
      exact hnone _ (h.serve hserve fun _ _ hi => nomatch hi) rfl
    | updates r => exact h.update hw'
    | store flt =>
      have hupdated := h.update hw'
      have hnow : d.server.phase.elim [] (Updater.deliveredNow (.store flt)) = [] := by
        cases d.server.phase <;> rfl
      rw [hnow] at hupdated
      exact hupdated

/-- So the invariant holds in every state of every run, however many hooks there are and in whatever
order all of them go on. -/
theorem Desk.sound_of_reached {P : Desk → DeskEvent → Prop} (h : (desk p).Reached P d) :
    d.Sound p := by
  refine h.invariant ?_ ?_
  · rintro d rfl
    exact ⟨fun _ hr => (nomatch hr), pending_firstPhase, fun _ ht => (nomatch ht),
      fun _ hk => (nomatch hk)⟩
  · exact fun d e d' hd _ hs => hd.step hs

end

/-! ## What Claude is told -/

/-- The replies are messages that Telegram delivered, of the chat and after the text that was sent
there, in ascending order. -/
def FromChat (p : Setup) (delivered : List Json) (tr : List (Performed Action)) (chat : I64)
    (text : String) (replies : List Reply) : Prop :=
  ∃ id, Sent tr chat text id ∧ replies ≠ [] ∧
    replies.Pairwise (fun r r' => r.messageId < r'.messageId) ∧
      ∀ r ∈ replies, ∃ m, Delivered p delivered m ∧ m.chatId = chat ∧ id < m.messageId ∧
        r = .ofMessage m

/-- What a hook that ends like this has told Claude: that the wait timed out, or what it makes of
replies from the chat. -/
def HookProcess.Relayed [ReadJson] (p : Setup) (delivered : List Json) (k : HookProcess) :
    Status → Prop
  | .waiting | .pass => True
  | .block reason => ∃ cli chat, CliArgs.parseFrom k.surroundings.argv = .ok cli ∧
    p.state.aliases.get cli.chat = some chat ∧
      (reason = cli.retryMessage.getD defaultRetryMessage ∧
          Branch.timeout ∈ k.surroundings.branches ∨
        ∃ replies, FromChat p delivered k.trace chat (cli.message.getD defaultWakeupMessage)
          replies ∧ reason = stopReason replies)
  | .toolBlock reason => ∃ cli chat qs replies,
    CliArgs.parseFrom k.surroundings.argv = .ok cli ∧ p.state.aliases.get cli.chat = some chat ∧
      Surroundings.questionsOf (readStdinJson k.surroundings.stdin) = .ok qs ∧
        FromChat p delivered k.trace chat qs.render replies ∧
          qs.answerFromReply ("\n".intercalate (replies.filterMap (·.text))) = some reason

section
variable [Fts5] [ReadJson] {p : Setup} {us : List Json} {k : HookProcess}

omit [Fts5] [ReadJson] in
/-- A hook that has told Claude something is through. -/
theorem HookProcess.rest_of_status (k : HookProcess) {status : Status} (h : status ∈ k.status) :
    k.rest = .ok status := by
  rw [HookProcess.status] at h
  split at h
  · next hrest =>
    cases h
    exact hrest
  · cases h

/-- The replies that a hook has read are from its chat. -/
theorem HookProcess.Sound.fromChat {chat : I64} {text : String} {replies : List Reply}
    (h : k.Sound p us) (hreplied : Replied k.trace chat text replies) :
    FromChat p us k.trace chat text replies := by
  obtain ⟨id, page, hsent, ⟨readOnly, hpage⟩, rfl, hne⟩ := hreplied
  obtain ⟨db, hdb, rfl⟩ := h.reads _ hpage page rfl
  refine ⟨id, hsent, hne, sortReplies_ascending, fun r hr => ?_⟩
  obtain ⟨rowid, m, hrow, ⟨hchat, hin, hafter⟩, -, rfl⟩ := (mem_sortReplies_iff (by decide)).1 hr
  exact ⟨m, hdb (rowid, m) hrow hin, hchat, hafter, rfl⟩

/-- A hook finds a chat in the aliases of this server only. -/
theorem HookProcess.Sound.chat {sessionId : Option String} {cli : CliArgs} {chat : I64}
    (h : k.Sound p us) (hreaches : k.surroundings.Reaches sessionId cli chat) :
    p.state.aliases.get cli.chat = some chat := by
  obtain ⟨s, hs, hchat⟩ := hreaches.connected
  rwa [h.found _ s hs] at hchat

end

/-- In every run of a server and its hooks: when a hook has told Claude something, this is that the
wait timed out, or it is made of messages that Telegram delivered, of the chat that the hook was to
ask and after the text that it sent there. -/
theorem relayed_delivered [Fts5] [ReadJson] (p : Setup) (d : Desk)
    (h : (desk p).Reached (fun _ _ => True) d) :
    ∀ k ∈ d.hooks, ∀ status ∈ k.status, k.Relayed p d.delivered status := by
  intro k hk status hstatus
  have hsound := (Desk.sound_of_reached h).hooks k hk
  have hexec := hsound.execs [] (.ok status) (k.rest_of_status hstatus ▸ .ok status)
  rw [List.append_nil] at hexec
  obtain ⟨_, ⟨⟩, hexplained⟩ := Surroundings.main_explained hexec
  match status with
  | .waiting | .pass => trivial
  | .block reason =>
    obtain ⟨-, stopInput, cli, chat, -, hreaches, hwhy⟩ := hexplained
    refine ⟨cli, chat, hreaches.parsed, hsound.chat hreaches, ?_⟩
    rcases hwhy with ⟨-, htimeout, heq⟩ | ⟨replies, hreplied, heq⟩
    · exact .inl ⟨heq, htimeout⟩
    · exact .inr ⟨replies, hsound.fromChat hreplied, heq⟩
  | .toolBlock reason =>
    obtain ⟨-, -, qs, cli, chat, replies, hqs, hreaches, hreplied, heq⟩ := hexplained
    exact ⟨cli, chat, qs, replies, hreaches.parsed, hsound.chat hreaches, hqs,
      hsound.fromChat hreplied, heq⟩

/-- A hook asks the chat of the alias, an answer is delivered and stored, and the hook finds it. -/
def oneAnswer : List DeskEvent :=
  [.server (.store none), .start { answered with argv := ["tg-hook", "--chat", "ops"] },
    .act 0 none (answering (i64 5)), .act 0 none (answering (i64 5)),
    .act 0 none (answering (i64 5)),
    .server (.updates (.ok [Updater.textUpdate 10 42 6 100 "yes"])), .server (.store none),
    .act 0 none (answering (i64 5))]

/-- A message is delivered and stored, and a hook that polls blocks with its text: it is one that
Telegram delivered. -/
theorem relayed_delivered_yes : ∃ d : Desk, ∃ k ∈ d.hooks, k.status = some (.block "yes") ∧
    @HookProcess.Relayed threeReplies oneChatSetup d.delivered k (.block "yes") := by
  let init : Desk := ⟨⟨some .starting, ⟨.migrated, [], []⟩⟩, [], []⟩
  have hrun : ((@desk Fts5.ascii oneChatSetup threeReplies).exec oneAnswer init).map
      (fun d => d.hooks.map HookProcess.status) = some [some (.block "yes")] := by decide +kernel
  obtain ⟨d, hexec, hhooks⟩ := Option.map_eq_some_iff.1 hrun
  obtain ⟨k, hk, hstatus⟩ := List.map_eq_singleton_iff.1 hhooks
  have hmem : k ∈ d.hooks := hk ▸ List.mem_singleton_self k
  exact ⟨d, k, hmem, hstatus, @relayed_delivered Fts5.ascii threeReplies oneChatSetup d
    (System.Reached.exec (.init rfl) hexec) k hmem _ hstatus⟩

end TelegramMcp.Hook
