import TelegramMcp.Lib.System
import TelegramMcp.History.Types

/-!
# Opening the database

`History::open` sets two pragmas, reads the schema version, and below version 1 creates the schema
in a transaction. The version is read before the transaction, so of several processes that open the
same new file at once one may find the schema there when it comes to create it. `Race` is that run:
any number of processes, interleaved statement by statement, each of which may crash.
`open_migrates_once` says what holds as long as every process that read version 0 starts its
transaction on a file without the schema, and `late_open_fails` what happens to one that does not.
-/

namespace TelegramMcp.History.Migration

open Rust

/-- What `SCHEMA_V1` creates, in the order of its statements. -/
inductive SchemaObject
  | chats
  | messages
  | idxMessagesChatDate
  | messagesFts
  | kv
  deriving DecidableEq

namespace SchemaObject

/-- What `sqlite_master` says the object is. -/
def kind : SchemaObject → String
  | idxMessagesChatDate => "index"
  | _ => "table"

/-- The name the object has in `sqlite_master`, and in the error when it is created a second
time. -/
def name : SchemaObject → String
  | chats => "chats"
  | messages => "messages"
  | idxMessagesChatDate => "idx_messages_chat_date"
  | messagesFts => "messages_fts"
  | kv => "kv"

end SchemaObject

/-- The statements of `SCHEMA_V1`, by what they create; none says `IF NOT EXISTS`. -/
def schemaV1 : List SchemaObject := [.chats, .messages, .idxMessagesChatDate, .messagesFts, .kv]

/-- `CURRENT_VERSION` of schema.rs, which the migration leads to. -/
def currentVersion : Nat := 1

/-- The contents of the database file, as far as a migration looks at them: which objects
`sqlite_master` lists, and the value of `schema_version` in `kv`. -/
structure File where
  master : List SchemaObject
  schemaVersion : Option String
  deriving DecidableEq

namespace File

/-- The file before anything is stored in it: no object, and no version. -/
def empty : File := ⟨[], none⟩

/-- The file with the schema of version 1, each object once. -/
def v1 : File := ⟨schemaV1, some "1"⟩

/-- `CREATE`, which is an error when the object exists, whoever created it. -/
def create (o : SchemaObject) (f : File) : Except String File :=
  if f.master.contains o then .error (o.kind ++ " " ++ o.name ++ " already exists")
  else .ok { f with master := f.master ++ [o] }

/-- The version in `kv`; what is not there or does not parse as a `u32` is version 0. -/
def version (f : File) : Nat := ((f.schemaVersion.bind parseU64).filter (· < 2 ^ 32)).getD 0

end File

/-- What a call of `History::open` does next. A transaction has its own view of the file, from its
first statement on. -/
inductive Phase
  | journalMode
  | foreignKeys
  | countKv
  | selectVersion
  | begin
  | create (tx : Option File) (rest : List SchemaObject)
  | putVersion (tx : File)
  | commit (tx : File)
  | done (r : Except HistoryError Nat)
  | crashed

/-- Any number of processes that open one file: the file, the process that holds the write lock, if
there is one, and what each process does next. -/
structure Race (π : Type) where
  file : File
  lock : Option π
  phase : π → Phase

/-- A process executes its next statement, as far as the lock lets it, or crashes at any point of
its opening. -/
inductive Event (π : Type)
  | run (p : π)
  | crash (p : π)

section
variable {π : Type} [DecidableEq π]

namespace Race

/-- A process goes on to another phase, and the file and the others stay as they are. -/
def goto (w : Race π) (p : π) (next : Phase) : Race π :=
  { w with phase := Function.update w.phase p next }

/-- Release the lock, if the process holds it; what its transaction wrote is gone. -/
def release (w : Race π) (p : π) : Race π :=
  { w with lock := if w.lock = some p then none else w.lock }

/-- After the version is read: below the current version a process migrates, and else it is
through. -/
def afterVersion (current : Nat) : Phase :=
  if currentVersion ≤ current then .done (.ok current) else .begin

/-- The view of a transaction. Its first statement takes the lock, for which it waits. -/
def view (w : Race π) (p : π) (tx : Option File) : Option (File × Race π) :=
  match tx with
  | some tx => some (tx, w)
  | none => if w.lock = none then some (w.file, { w with lock := some p }) else none

/-- The next statement of a process, on the file as it then is. A process inside its transaction
holds the write lock, so that the others cannot take a step that writes; a crash rolls back what was
not committed. -/
def step : Event π → Race π → Option (Race π)
  | .crash p, w => some ((w.release p).goto p .crashed)
  | .run p, w =>
    match w.phase p with
    | .journalMode => some (w.goto p .foreignKeys)
    | .foreignKeys => some (w.goto p .countKv)
    | .countKv =>
      some (w.goto p (if w.file.master.contains .kv then .selectVersion else afterVersion 0))
    | .selectVersion => some (w.goto p (afterVersion w.file.version))
    | .begin => some (w.goto p (.create none schemaV1))
    | .create tx [] => (w.view p tx).map fun (tx, w) => w.goto p (.putVersion tx)
    | .create tx (o :: rest) =>
      (w.view p tx).map fun (tx, w) =>
        match tx.create o with
        | .ok tx => w.goto p (.create (some tx) rest)
        | .error source => (w.release p).goto p (.done (.error (.migration 0 1 source)))
    | .putVersion tx => some (w.goto p (.commit { tx with schemaVersion := some "1" }))
    | .commit tx =>
      some ({ w with file := tx, lock := none }.goto p (.done (.ok currentVersion)))
    | .done _ | .crashed => none

end Race

/-- Any number of processes, which open the same empty file. -/
def openings (π : Type) [DecidableEq π] : System (Race π) (Event π) where
  init w := w = ⟨.empty, none, fun _ => .journalMode⟩
  step := Race.step

/-! ## The phases of a run -/

/-- The error of a process that finds the schema where it is to create it. -/
def lateError : HistoryError := .migration 0 1 "table chats already exists"

/-- What a process knows of the file in each phase, and whether it holds the lock. Where `late`, it
may have failed. -/
def Phase.Fits (late : Prop) (file : File) (holds : Prop) : Phase → Prop
  | .journalMode | .foreignKeys | .countKv | .begin | .crashed => ¬ holds
  | .selectVersion => file = .v1 ∧ ¬ holds
  | .create none rest => rest = schemaV1 ∧ ¬ holds
  | .create (some tx) rest => (tx.master ++ rest = schemaV1 ∧ tx.schemaVersion = none) ∧ holds
  | .putVersion tx => tx = ⟨schemaV1, none⟩ ∧ holds
  | .commit tx => tx = .v1 ∧ holds
  | .done r => ((r = .ok 1 ∨ late ∧ r = .error lateError) ∧ file = .v1) ∧ ¬ holds

/-- What holds throughout: the file is new or has the schema, nobody writes to it once it has, and
every process is where it should be. -/
structure Orderly (late : Prop) (w : Race π) : Prop where
  file : w.file = .empty ∨ w.file = .v1
  locked : w.lock ≠ none → w.file = .empty
  phases : ∀ p, (w.phase p).Fits late w.file (w.lock = some p)

/-- A process that starts its transaction does so on a file without the schema. -/
def OnTime (w : Race π) : Event π → Prop
  | .run p => ∀ rest, w.phase p = .create none rest → w.file.master = []
  | .crash _ => True

/-- A phase that fits a new file without the lock fits it with the schema too. -/
theorem Phase.Fits.migrated {late : Prop} {file : File} {holds holds' : Prop} {ph : Phase}
    (h : ph.Fits late file holds) (hno : ¬ holds) (hno' : ¬ holds') : ph.Fits late .v1 holds' := by
  cases ph with
  | journalMode | foreignKeys | countKv | begin | crashed => exact hno'
  | selectVersion => exact ⟨rfl, hno'⟩
  | create tx rest =>
    cases tx with
    | none => exact ⟨h.1, hno'⟩
    | some tx => exact absurd h.2 hno
  | putVersion tx => exact absurd h.2 hno
  | commit tx => exact absurd h.2 hno
  | done r => exact ⟨⟨h.1.1, rfl⟩, hno'⟩

/-- Of the others, only whether they hold the lock matters to whether a phase fits. -/
theorem Phase.Fits.congr {late : Prop} {file : File} {holds holds' : Prop} {ph : Phase}
    (h : ph.Fits late file holds) (hiff : holds ↔ holds') : ph.Fits late file holds' := by
  rwa [← propext hiff]

namespace Orderly

variable {late : Prop} {w : Race π} {p : π}

/-- A process that moves on without the lock, to a phase that fits, keeps the invariant. -/
theorem goto (h : Orderly late w) {next : Phase} (hnext : next.Fits late w.file (w.lock = some p)) :
    Orderly late (w.goto p next) :=
  ⟨h.file, h.locked, (Function.forall_update_iff w.phase
    fun q ph => ph.Fits late w.file (w.lock = some q)).2 ⟨hnext, fun q _ => h.phases q⟩⟩

/-- A process gives up the lock, or does not have it. -/
theorem release (h : Orderly late w) {next : Phase} (hnext : next.Fits late w.file False) :
    Orderly late ((w.release p).goto p next) := by
  have hfree : ¬ (w.release p).lock = some p := by
    rw [Race.release]
    dsimp only
    split
    · exact nofun
    · next hne => exact hne
  refine ⟨h.file, fun hlock => h.locked fun hnone => hlock ?_, ?_⟩
  · change (if w.lock = some p then none else w.lock) = none
    rw [hnone, if_neg nofun]
  · refine (Function.forall_update_iff w.phase
      fun q ph => ph.Fits late w.file ((w.release p).lock = some q)).2 ⟨?_, ?_⟩
    · exact hnext.congr (iff_of_false id hfree)
    · intro q hq
      refine (h.phases q).congr ?_
      change w.lock = some q ↔ (if w.lock = some p then none else w.lock) = some q
      split
      · next hp =>
        rw [hp]
        exact iff_of_false (fun heq => hq (Option.some.inj heq).symm) nofun
      · rfl

/-- A process that takes the lock, which was free, keeps it. -/
theorem lock (h : Orderly late w) (hfree : w.lock = none) (hfile : w.file = .empty) {next : Phase}
    (hnext : next.Fits late w.file True) :
    Orderly late (({ w with lock := some p } : Race π).goto p next) := by
  refine ⟨h.file, fun _ => hfile, ?_⟩
  refine (Function.forall_update_iff w.phase
    fun q ph => ph.Fits late w.file (some p = some q)).2 ⟨hnext.congr (iff_of_true trivial rfl), ?_⟩
  intro q hq
  refine (h.phases q).congr (iff_of_false ?_ fun heq => hq (Option.some.inj heq).symm)
  rw [hfree]
  exact nofun

/-- The process with the lock commits, and the file is migrated from then on. -/
theorem commit (h : Orderly late w) (hlock : w.lock = some p) {next : Phase}
    (hnext : next.Fits late .v1 False) :
    Orderly late (({ w with file := .v1, lock := none } : Race π).goto p next) := by
  refine ⟨.inr rfl, fun hno => absurd rfl hno, ?_⟩
  refine (Function.forall_update_iff w.phase
    fun q ph => ph.Fits late .v1 ((none : Option π) = some q)).2 ⟨?_, ?_⟩
  · exact hnext.congr (iff_of_false id nofun)
  · intro q hq
    have hother : ¬ w.lock = some q := by
      rw [hlock]
      exact fun heq => hq (Option.some.inj heq).symm
    exact (h.phases q).migrated hother nofun

end Orderly

/-- In the order of the schema no object is created twice. -/
theorem create_next {tx : File} {o : SchemaObject} {rest : List SchemaObject}
    (h : tx.master ++ o :: rest = schemaV1) :
    tx.create o = .ok { tx with master := tx.master ++ [o] } := by
  have hnodup : (tx.master ++ o :: rest).Nodup := by
    rw [h]
    decide
  have hnot : o ∉ tx.master := fun hmem =>
    (List.nodup_append.1 hnodup).2.2 o hmem o List.mem_cons_self rfl
  rw [File.create, if_neg (by simpa using hnot)]

/-- The migrated file says that it has version 1. -/
theorem version_v1 : File.v1.version = 1 := rfl

/-- The first `CREATE` of a process that comes late finds the object, and the process fails. -/
theorem step_late {w w' : Race π} {p : π} {rest : List SchemaObject}
    (hph : w.phase p = .create none rest) (hrest : rest = schemaV1) (hfile : w.file = .v1)
    (hs : w.step (.run p) = some w') : w' = w.goto p (.done (.error lateError)) := by
  have hfree : w.lock = none := by
    by_contra hlock
    rw [Race.step, hph, hrest, schemaV1] at hs
    simp only [Race.view, if_neg hlock] at hs
    cases hs
  have hcreate : File.v1.create .chats = .error "table chats already exists" := rfl
  rw [Race.step, hph, hrest, schemaV1] at hs
  simp only [Race.view, if_pos hfree, hfile, Option.map_some, hcreate, Option.some.injEq] at hs
  rw [← hs]
  simp [Race.release, Race.goto, hfree, hfile, lateError]

/-- The first `CREATE` of a process on the new file takes the lock and creates the object. -/
theorem Orderly.first {late : Prop} {w w' : Race π} {p : π} {rest : List SchemaObject}
    (h : Orderly late w) (hph : w.phase p = .create none rest) (hrest : rest = schemaV1)
    (hfile : w.file = .empty) (hs : w.step (.run p) = some w') : Orderly late w' := by
  have hcreate : File.empty.create .chats = .ok ⟨[.chats], none⟩ := rfl
  rw [Race.step, hph, hrest, schemaV1] at hs
  by_cases hfree : w.lock = none
  · simp only [Race.view, if_pos hfree, hfile, Option.map_some, hcreate, Option.some.injEq] at hs
    rw [← hs, ← hfile]
    exact h.lock hfree hfile ⟨⟨rfl, rfl⟩, trivial⟩
  · simp only [Race.view, if_neg hfree] at hs
    cases hs

/-- Every step keeps the run orderly, and a step on time makes nobody fail. The cases are the phases
of the process that goes on; only the one that begins its transaction needs to be on time. -/
theorem Orderly.step {late : Prop} {w w' : Race π} (h : Orderly late w) {i : Event π}
    (hi : late ∨ OnTime w i) (hs : w.step i = some w') : Orderly late w' := by
  cases i with
  | crash p =>
    cases hs
    exact h.release id
  | run p =>
    have hp := h.phases p
    have hstep := hs
    rw [Race.step] at hs
    cases hph : w.phase p with
    | journalMode | foreignKeys =>
      rw [hph] at hp hs
      cases hs
      exact h.goto hp
    | countKv =>
      rw [hph] at hp hs
      cases hs
      rcases h.file with hfile | hfile
      · rw [hfile]
        exact h.goto hp
      · rw [hfile]
        exact h.goto ⟨hfile, hp⟩
    | selectVersion =>
      rw [hph] at hp hs
      cases hs
      rw [hp.1, version_v1]
      exact h.goto ⟨⟨.inl rfl, hp.1⟩, hp.2⟩
    | begin =>
      rw [hph] at hp hs
      cases hs
      exact h.goto ⟨rfl, hp⟩
    | create tx rest =>
      rw [hph] at hp
      cases tx with
      | none =>
        obtain ⟨hrest, hno⟩ := hp
        rcases h.file with hfile | hfile
        · exact h.first hph hrest hfile hstep
        · rw [step_late hph hrest hfile hstep]
          refine h.goto ⟨⟨?_, hfile⟩, hno⟩
          rcases hi with hlate | hon
          · exact .inr ⟨hlate, rfl⟩
          · have hmaster := hon rest hph
            rw [hfile] at hmaster
            cases hmaster
      | some tx =>
        obtain ⟨⟨hmaster, hversion⟩, hlock⟩ := hp
        rw [hph] at hs
        cases rest with
        | nil =>
          cases hs
          rw [List.append_nil] at hmaster
          exact h.goto ⟨by rw [← hmaster, ← hversion], hlock⟩
        | cons o rest =>
          simp only [Race.view, Option.map_some, create_next hmaster, Option.some.injEq] at hs
          rw [← hs]
          refine h.goto ⟨⟨?_, hversion⟩, hlock⟩
          rw [List.append_assoc]
          exact hmaster
    | putVersion tx =>
      rw [hph] at hp hs
      cases hs
      exact h.goto ⟨by rw [hp.1]; rfl, hp.2⟩
    | commit tx =>
      rw [hph] at hp hs
      cases hs
      rw [hp.1]
      exact h.commit hp.2 ⟨⟨.inl rfl, rfl⟩, id⟩
    | done r =>
      rw [hph] at hs
      cases hs
    | crashed =>
      rw [hph] at hs
      cases hs

/-! ## Runs -/

/-- What the processes that opened the file find: success with version 1, and one schema. -/
structure MigratedOnce (w : Race π) : Prop where
  /-- No call that returns fails. -/
  result : ∀ p r, w.phase p = .done r → r = .ok currentVersion
  /-- The schema is created as a whole, and once. -/
  file : w.file = .empty ∨ w.file = .v1
  /-- Once a call has returned, it is there. -/
  opened : ∀ p r, w.phase p = .done r → w.file = .v1

/-- The invariant holds in every state of every run, whose steps are each on time or in a run that
may have late ones. -/
theorem orderly_of_reached {late : Prop} {P : Race π → Event π → Prop} {w : Race π}
    (hP : ∀ w i, P w i → late ∨ OnTime w i) (h : (openings π).Reached P w) : Orderly late w := by
  refine h.invariant ?_ ?_
  · rintro w rfl
    exact ⟨.inl rfl, fun hlock => absurd rfl hlock, fun _ => nofun⟩
  · intro w i w' hw hi hs
    exact hw.step (hP w i hi) hs

/-- In every run in which no process that read version 0 starts its transaction after another one
has committed the schema, every call that returns succeeds, and finds the schema created once. -/
theorem open_migrates_once (w : Race π) (h : (openings π).Reached OnTime w) : MigratedOnce w := by
  have hw : Orderly False w := orderly_of_reached (fun _ _ hi => .inr hi) h
  have hdone : ∀ p r, w.phase p = .done r → r = .ok 1 ∧ w.file = .v1 := by
    intro p r hph
    have hp := hw.phases p
    rw [hph] at hp
    exact ⟨hp.1.1.resolve_right fun hlate => hlate.1, hp.1.2⟩
  exact ⟨fun p r hph => (hdone p r hph).1, hw.file, fun p r hph => (hdone p r hph).2⟩

/-- A process that comes late fails, in any run: so the others are all the runs in which nobody
does. -/
theorem late_open_fails {w w' : Race π} {i : Event π}
    (h : (openings π).Reached (fun _ _ => True) w) (hi : ¬ OnTime w i)
    (hs : w.step i = some w') :
    ∃ p, i = .run p ∧ w'.phase p = .done (.error lateError) ∧ w'.file = .v1 := by
  have hw : Orderly True w := orderly_of_reached (fun _ _ _ => .inl trivial) h
  cases i with
  | crash p => exact absurd trivial hi
  | run p =>
    obtain ⟨rest, hrest⟩ := not_forall.1 hi
    obtain ⟨hph, hmaster⟩ := Classical.not_imp.1 hrest
    have hfile : w.file = .v1 := by
      refine hw.file.resolve_left fun hempty => hmaster ?_
      rw [hempty]
      rfl
    have hp := hw.phases p
    rw [hph] at hp
    rw [step_late hph hp.1 hfile hs]
    exact ⟨p, rfl, Function.update_self .., hfile⟩

end

/-- Two processes open the file at once. The second one sets its pragmas while the first one holds
the lock, and reads the version when the schema is there: both calls succeed. -/
theorem open_migrates_once_two : ∃ w : Race Bool, w.phase true = .done (.ok 1) ∧
    w.phase false = .done (.ok 1) ∧ MigratedOnce w := by
  have h0 : (openings Bool).Reached OnTime ⟨.empty, none, fun _ => .journalMode⟩ := .init rfl
  have h1 := h0.step (.run true) (fun _ h => by cases h) rfl
  have h2 := h1.step (.run true) (fun _ h => by cases h) rfl
  have h3 := h2.step (.run false) (fun _ h => by cases h) rfl
  -- the first process reads version 0, begins, and takes the lock
  have h4 := h3.step (.run true) (fun _ h => by cases h) rfl
  have h5 := h4.step (.run true) (fun _ h => by cases h) rfl
  have h6 := h5.step (Event.run true) (fun _ _ => rfl) rfl
  have h7 := h6.step (.run true) (fun _ h => by cases h) rfl
  have h8 := h7.step (.run false) (fun _ h => by cases h) rfl
  have h9 := h8.step (.run true) (fun _ h => by cases h) rfl
  have h10 := h9.step (.run true) (fun _ h => by cases h) rfl
  have h11 := h10.step (.run true) (fun _ h => by cases h) rfl
  have h12 := h11.step (.run true) (fun _ h => by cases h) rfl
  have h13 := h12.step (.run true) (fun _ h => by cases h) rfl
  have h14 := h13.step (.run true) (fun _ h => by cases h) rfl
  -- the second one finds the schema
  have h15 := h14.step (.run false) (fun _ h => by cases h) rfl
  have h16 := h15.step (.run false) (fun _ h => by cases h) rfl
  exact ⟨_, rfl, rfl, open_migrates_once _ h16⟩

/-- Both processes read version 0, then one creates the schema and commits, then the other starts
its transaction. -/
def lateRun : List (Event Bool) :=
  List.replicate 3 (.run false) ++ List.replicate 3 (.run true) ++
    List.replicate 9 (.run false) ++ List.replicate 2 (.run true)

/-- So the last call fails, on a file that is as it should be. -/
theorem open_fails :
    ¬ ∀ w : Race Bool, (openings Bool).Reached (fun _ _ => True) w → MigratedOnce w := by
  intro h
  have h0 : (openings Bool).Reached (fun _ _ => True) ⟨.empty, none, fun _ => .journalMode⟩ :=
    .init rfl
  have hrun : ((openings Bool).exec lateRun ⟨.empty, none, fun _ => .journalMode⟩).map
      (fun w => w.phase true) = some (.done (.error lateError)) := rfl
  obtain ⟨w, hw, hphase⟩ := Option.map_eq_some_iff.1 hrun
  have hresult := (h w (h0.exec hw)).result true _ hphase
  cases hresult

end TelegramMcp.History.Migration
