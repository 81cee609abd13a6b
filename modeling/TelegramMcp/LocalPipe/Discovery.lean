import TelegramMcp.Lib.System
import TelegramMcp.Serde.Json
import Mathlib.Logic.Function.Basic
import Mathlib.Data.List.TakeDrop

/-!
# Discovery files

A server announces itself in a file of its own, which `discovery::write` creates (or truncates) and
then fills, and which hooks look for with `load_all`. A hook removes a file that it cannot parse, or
whose process it finds dead. `World` is one server with any number of hooks, interleaved step by
step; the files of other servers are whatever a hook reads there.

A hook that opened the file before `write` returned may have read half a record, and remove the file
later. `stays_discoverable` says that such a removal is all that can go wrong, and
`lost_of_early_removal` that after it the server is never found again.
-/

namespace TelegramMcp.LocalPipe

/-- `DiscoveryRecord`, the contents of a discovery file: how a hook reaches the server and whose it
is. -/
structure DiscoveryRecord where
  pid : Nat
  ppid : Nat
  pipe : String
  token : String
  sessionId : Option String
  startedAt : String
  deriving DecidableEq

/-- How `serde_json` reads a record, of which only this is used: that it may or may not read one. -/
class SerdeJson where
  fromSlice : List UInt8 → Option DiscoveryRecord

/-- `serde_json::to_string_pretty` of a record, as the bytes of its file. -/
def toStringPretty (r : DiscoveryRecord) : List UInt8 :=
  -- the opening brace
  0x7b :: ("\n  \"pid\": " ++ toString r.pid ++
    ",\n  \"ppid\": " ++ toString r.ppid ++
    ",\n  \"pipe\": " ++ Json.quote r.pipe ++
    ",\n  \"token\": " ++ Json.quote r.token ++
    ",\n  \"session_id\": " ++ (r.sessionId.map Json.quote).getD "null" ++
    ",\n  \"started_at\": " ++ Json.quote r.startedAt ++ "\n\x7d").toUTF8.toList

/-- The name of the file of a process, in the discovery directory. -/
def discoveryFileFor (pid : Nat) : String := toString pid ++ ".json"

/-! ## The server and the hooks -/

/-- A file with the name of the server: one it finds there, or the one it creates. -/
inductive FileId
  | found
  | created
  deriving DecidableEq

/-- The server: its process starts, it writes its file, it serves with a guard on the file, and the
guard is dropped or the process dies. -/
inductive Server
  | notStarted
  | starting
  | writing (file : FileId) (rest : List UInt8)
  | serving
  | gone
  deriving DecidableEq

namespace Server

/-- The server process is alive, whether its record is written or not. -/
def running : Server → Bool
  | .starting | .writing _ _ | .serving => true
  | .notStarted | .gone => false

/-- The server has created its file and not yet removed it. -/
def announced : Server → Bool
  | .writing _ _ | .serving => true
  | .notStarted | .starting | .gone => false

end Server

/-- The loop of `load_all`. It is `fresh` if the directory was listed after `write` had returned. -/
structure Scan where
  fresh : Bool
  rest : List String
  out : List DiscoveryRecord

/-- What a call of `load_all` does next. A file is `fresh` if it was opened after `write` had
returned. -/
inductive LoadAll
  | start
  | entries (s : Scan)
  | reading (file : FileId) (bytes : List UInt8) (fresh : Bool) (s : Scan)
  | checking (name : String) (fresh : Bool) (rec : DiscoveryRecord) (s : Scan)
  | removing (name : String) (fresh : Bool) (s : Scan)
  | done (fresh : Bool) (r : Except String (List DiscoveryRecord))

/-- The server, the file of its name in the directory, the contents of all files there ever were,
and the calls of `load_all`. A file that is removed stays readable for those who opened it. -/
structure World (π : Type) where
  server : Server
  entry : Option FileId
  contents : FileId → List UInt8
  hooks : π → LoadAll

/-- What the server does: it is started, creates its file, writes a part of the record, closes the
file or fails to write it, and in the end removes it or dies without that. -/
inductive ServerEvent
  | spawn
  | create
  | write (n : Nat)
  | close
  | writeFailed
  | drop
  | die

/-- What a hook meets at each step of `load_all`: the names in the directory, the parts of a file,
whether a process is alive, and how a removal went. -/
inductive HookEvent
  | list (names : List String)
  | listFailed (e : String)
  | next
  | nextOther (bytes : Option (List UInt8))
  | read (n : Nat)
  | readFailed
  | alive (b : Bool)
  | remove
  | removeFailed

/-- A step of the server, or of one of the hooks: whichever of them the system lets go on next. -/
inductive Event (π : Type)
  | server (e : ServerEvent)
  | hook (p : π) (e : HookEvent)

section
variable [SerdeJson] {π : Type} [DecidableEq π]

namespace World

/-- `discovery::write` and the guard. A `File::create` truncates the file it finds. -/
def serverStep (r : DiscoveryRecord) (w : World π) : ServerEvent → Option (World π)
  | .spawn => if w.server = .notStarted then some { w with server := .starting } else none
  | .create =>
    if w.server = .starting then
      let file := w.entry.getD .created
      some { w with
        server := .writing file (toStringPretty r)
        entry := some file
        contents := Function.update w.contents file [] }
    else none
  | .write n =>
    match w.server with
    | .writing file rest =>
      if n = 0 ∨ rest = [] then none
      else some { w with
        server := .writing file (rest.drop n)
        contents := Function.update w.contents file (w.contents file ++ rest.take n) }
    | _ => none
  | .close =>
    match w.server with
    | .writing _ [] => some { w with server := .serving }
    | _ => none
  | .writeFailed =>
    match w.server with
    | .starting | .writing _ _ => some { w with server := .gone }
    | _ => none
  | .drop =>
    if w.server = .serving then some { w with server := .gone, entry := none } else none
  | .die => if w.server.running then some { w with server := .gone } else none

/-- After a file is read: its record is looked at, or the file is removed as one that does not
parse. -/
def parsed (name : String) (fresh : Bool) (bytes : List UInt8) (s : Scan) : LoadAll :=
  match SerdeJson.fromSlice bytes with
  | some rec => .checking name fresh rec s
  | none => .removing name fresh s

/-- The next step of `load_all`, with the file it leaves under the server's name. -/
def hookStep (r : DiscoveryRecord) (w : World π) : HookEvent → LoadAll →
    Option (LoadAll × Option FileId)
  | .list names, .start =>
    -- a file that is there is listed
    if w.entry ≠ none ∧ discoveryFileFor r.pid ∉ names then none
    else some (.entries ⟨w.server = .serving, names, []⟩, w.entry)
  | .listFailed e, .start => some (.done (w.server = .serving) (.error e), w.entry)
  | .next, .entries ⟨fresh, [], out⟩ => some (.done fresh (.ok out), w.entry)
  | .next, .entries ⟨fresh, name :: rest, out⟩ =>
    if name = discoveryFileFor r.pid then
      match w.entry with
      | some file => some (.reading file [] (w.server = .serving) ⟨fresh, rest, out⟩, w.entry)
      | none => some (.entries ⟨fresh, rest, out⟩, w.entry)
    else none
  | .nextOther bytes, .entries ⟨fresh, name :: rest, out⟩ =>
    if name = discoveryFileFor r.pid then none
    else match bytes with
      | some bytes => some (parsed name false bytes ⟨fresh, rest, out⟩, w.entry)
      | none => some (.entries ⟨fresh, rest, out⟩, w.entry)
  | .read n, .reading file bytes fresh s =>
    if n = 0 then none
    else match ((w.contents file).drop bytes.length).take n with
      | [] => some (parsed (discoveryFileFor r.pid) fresh bytes s, w.entry)
      | chunk => some (.reading file (bytes ++ chunk) fresh s, w.entry)
  | .readFailed, .entries ⟨fresh, _ :: rest, out⟩ => some (.entries ⟨fresh, rest, out⟩, w.entry)
  | .readFailed, .reading _ _ _ s => some (.entries s, w.entry)
  | .alive true, .checking _ _ rec s =>
    some (.entries { s with out := s.out ++ [rec] }, w.entry)
  | .alive false, .checking name fresh rec s =>
    -- a process that runs is found
    if rec.pid = r.pid ∧ w.server.running then none else some (.removing name fresh s, w.entry)
  | .remove, .removing name _ s =>
    some (.entries s, if name = discoveryFileFor r.pid then none else w.entry)
  | .removeFailed, .removing _ _ s => some (.entries s, w.entry)
  | _, _ => none

/-- A step of the one or the other; they meet in the file of the server only. -/
def step (r : DiscoveryRecord) : Event π → World π → Option (World π)
  | .server e, w => w.serverStep r e
  | .hook p e, w => (w.hookStep r e (w.hooks p)).map fun (next, entry) =>
    { w with entry := entry, hooks := Function.update w.hooks p next }

end World

/-- The server that will write this record, and hooks. A file with its name may be there from an
earlier process with the same id. -/
def discovery (r : DiscoveryRecord) (π : Type) [DecidableEq π] : System (World π) (Event π) where
  init w := w.server = .notStarted ∧ w.entry ≠ some .created ∧ ∀ p, w.hooks p = .start
  step := World.step r

end

/-! ## What a fresh reader finds -/

section
variable {π : Type}

/-- What holds as long as the server serves, of a reader whose flag was set while it did. -/
def World.Since (w : World π) (flag : Bool) (Q : Prop) : Prop :=
  w.server ≠ .gone → flag = true → w.server = .serving ∧ Q

/-- What `load_all` has of the server's record in each phase: it is in the list, or will be. -/
def LoadAll.Fits (r : DiscoveryRecord) (w : World π) : LoadAll → Prop
  | .start => True
  | .entries s => w.Since s.fresh (discoveryFileFor r.pid ∈ s.rest ∨ r ∈ s.out)
  | .reading file bytes fresh s =>
    w.Since fresh (w.entry = some file ∧ bytes = (toStringPretty r).take bytes.length) ∧
      w.Since s.fresh (fresh = true ∨ discoveryFileFor r.pid ∈ s.rest ∨ r ∈ s.out)
  | .checking name fresh rec s =>
    (name = discoveryFileFor r.pid → w.Since fresh (rec = r)) ∧
      w.Since s.fresh ((name = discoveryFileFor r.pid ∧ fresh = true) ∨
        discoveryFileFor r.pid ∈ s.rest ∨ r ∈ s.out)
  | .removing name fresh s =>
    (name = discoveryFileFor r.pid → w.Since fresh False) ∧
      w.Since s.fresh (discoveryFileFor r.pid ∈ s.rest ∨ r ∈ s.out)
  | .done fresh res => w.Since fresh (∃ out, res = .ok out ∧ r ∈ out)

/-- The file of the server holds what the server has written of its record so far. -/
def Server.Wrote (r : DiscoveryRecord) (w : World π) : Server → Prop
  | .writing file rest => w.entry = some file ∧ w.contents file ++ rest = toStringPretty r
  | .serving => ∃ file, w.entry = some file ∧ w.contents file = toStringPretty r
  | .notStarted | .starting | .gone => True

/-- What holds in a run in which no early reader removes the file: the server's file is as far as
the server has written it, and what every hook has seen of it fits. -/
structure Announced (r : DiscoveryRecord) (w : World π) : Prop where
  file : w.server.Wrote r w
  hooks : ∀ p, (w.hooks p).Fits r w

/-- The directory and the file can be read; and a hook that opened the file before `write` returned
does not remove it once it is created. -/
def Undisturbed (r : DiscoveryRecord) (w : World π) : Event π → Prop
  | .hook _ (.listFailed _) | .hook _ .readFailed => False
  | .hook p .remove => ∀ fresh s, w.hooks p = .removing (discoveryFileFor r.pid) fresh s →
      w.server.announced = true → fresh = true
  | _ => True

variable {r : DiscoveryRecord} {w w' : World π}

namespace World.Since

variable {flag : Bool} {Q Q' : Prop}

/-- What is known stays known, and more may follow from it. -/
theorem mono (h : w.Since flag Q) (hserver : w'.server = w.server)
    (hQ : w.server = .serving → Q → Q') : w'.Since flag Q' := by
  intro hlive hflag
  rw [hserver] at hlive ⊢
  obtain ⟨hserving, hq⟩ := h hlive hflag
  exact ⟨hserving, hQ hserving hq⟩

/-- What holds since the server serves may be weakened. -/
theorem imp (h : w.Since flag Q) (hQ : w.server = .serving → Q → Q') : w.Since flag Q' :=
  h.mono rfl hQ

/-- When the server has not served, no flag is set; when it stops, nothing is promised. -/
theorem change (h : w.Since flag Q) (hlive : w.server ≠ .gone)
    (hgone : w.server = .serving → w'.server = .gone) : w'.Since flag Q' := by
  intro hlive' hflag
  exact absurd (hgone (h hlive hflag).1) hlive'

end World.Since

namespace LoadAll.Fits

variable {ph : LoadAll}

/-- The hooks do not notice a step of the server before it serves. -/
theorem change (h : ph.Fits r w) (hlive : w.server ≠ .gone)
    (hgone : w.server = .serving → w'.server = .gone) : ph.Fits r w' := by
  cases ph with
  | start => trivial
  | entries s => exact World.Since.change h hlive hgone
  | reading file bytes fresh s => exact ⟨h.1.change hlive hgone, h.2.change hlive hgone⟩
  | checking name fresh rec s =>
    exact ⟨fun hname => (h.1 hname).change hlive hgone, h.2.change hlive hgone⟩
  | removing name fresh s =>
    exact ⟨fun hname => (h.1 hname).change hlive hgone, h.2.change hlive hgone⟩
  | done fresh res => exact World.Since.change h hlive hgone

/-- Nor a step of another hook that leaves the file of a serving server there. -/
theorem frame (h : ph.Fits r w) (hserver : w'.server = w.server)
    (hentry : w.server = .serving → w'.entry = w.entry) : ph.Fits r w' := by
  cases ph with
  | start => trivial
  | entries s => exact World.Since.mono h hserver fun _ hq => hq
  | reading file bytes fresh s =>
    refine ⟨h.1.mono hserver ?_, h.2.mono hserver fun _ hq => hq⟩
    intro hserving hq
    rw [hentry hserving]
    exact hq
  | checking name fresh rec s =>
    exact ⟨fun hname => (h.1 hname).mono hserver fun _ hq => hq, h.2.mono hserver fun _ hq => hq⟩
  | removing name fresh s =>
    exact ⟨fun hname => (h.1 hname).mono hserver fun _ hq => hq, h.2.mono hserver fun _ hq => hq⟩
  | done fresh res => exact World.Since.mono h hserver fun _ hq => hq

end LoadAll.Fits

/-- The read of a file goes on from where it is. -/
theorem take_append_chunk {α : Type} {bytes text : List α} (h : bytes = text.take bytes.length)
    (n : Nat) : bytes ++ (text.drop bytes.length).take n =
      text.take (bytes ++ (text.drop bytes.length).take n).length := by
  have hsplit : text = bytes ++ text.drop bytes.length := by
    conv_lhs => rw [← List.take_append_drop bytes.length text, ← h]
  have hchunk := (List.take_prefix n (text.drop bytes.length))
  have hprefix : bytes ++ (text.drop bytes.length).take n <+: text := by
    conv_rhs => rw [hsplit]
    exact (List.prefix_append_right_inj bytes).2 hchunk
  exact List.prefix_iff_eq_take.1 hprefix

/-- The file ends where nothing more can be read from it. -/
theorem eq_of_chunk_nil {α : Type} {bytes text : List α} (h : bytes = text.take bytes.length)
    {n : Nat} (hn : n ≠ 0) (hchunk : (text.drop bytes.length).take n = []) : bytes = text := by
  have hdrop : text.drop bytes.length = [] :=
    (List.take_eq_nil_iff.1 hchunk).resolve_left hn
  rw [h]
  exact List.take_of_length_le (List.drop_eq_nil_iff.1 hdrop)

/-- A reader of a serving server reads the file that `write` filled. -/
theorem Announced.reads (h : Announced r w) {file : FileId} {bytes : List UInt8} {fresh : Bool}
    (hreader : w.Since fresh (w.entry = some file ∧ bytes = (toStringPretty r).take bytes.length)) :
    w.Since fresh (w.entry = some file ∧ bytes = (toStringPretty r).take bytes.length ∧
      w.contents file = toStringPretty r) := by
  refine hreader.imp fun hserving hq => ⟨hq.1, hq.2, ?_⟩
  have hfile := h.file
  rw [hserving] at hfile
  obtain ⟨file', hentry, hcontents⟩ := hfile
  cases hentry.symm.trans hq.1
  exact hcontents

/-- What one step of a hook does: its new phase fits the record, and the file of a server that
serves stays where it is. -/
structure Moves (r : DiscoveryRecord) (w : World π) (next : LoadAll)
    (entry : Option FileId) : Prop where
  fits : next.Fits r w
  entry : w.server.announced = true → entry = w.entry

/-- A hook that lists the directory has the file among its entries. -/
theorem fits_list {names : List String} (h : Announced r w)
    (hlisted : ¬ (w.entry ≠ none ∧ discoveryFileFor r.pid ∉ names)) :
    (LoadAll.entries ⟨w.server = .serving, names, []⟩).Fits r w := by
  intro _ hflag
  have hserving := of_decide_eq_true hflag
  refine ⟨hserving, .inl (not_not.1 fun hnot => hlisted ⟨?_, hnot⟩)⟩
  have hfile := h.file
  rw [hserving] at hfile
  obtain ⟨file, hentry, -⟩ := hfile
  rw [hentry]
  exact nofun

/-- A step of the server before it serves, or the one that ends it. -/
theorem Announced.change (h : Announced r w) {now : Server} (hserver : w.server = now)
    (hlive : now ≠ .gone) (hgone : now = .serving → w'.server = .gone) (hhooks : w'.hooks = w.hooks)
    (hfile : w'.server.Wrote r w') : Announced r w' := by
  subst hserver
  refine ⟨hfile, fun p => ?_⟩
  rw [hhooks]
  exact (h.hooks p).change hlive hgone

/-- The file grows while it is written, and is complete when `write` returns. -/
theorem Announced.serverStep (h : Announced r w) {e : ServerEvent}
    (hs : w.serverStep r e = some w') : Announced r w' := by
  have hfile := h.file
  cases e with
  | spawn =>
    unfold World.serverStep at hs
    dsimp only at hs
    split at hs
    · next hserver =>
      cases hs
      exact h.change hserver nofun nofun rfl trivial
    · cases hs
  | create =>
    unfold World.serverStep at hs
    dsimp only at hs
    split at hs
    · next hserver =>
      cases hs
      refine h.change hserver nofun nofun rfl ⟨rfl, ?_⟩
      dsimp only
      rw [Function.update_self]
      rfl
    · cases hs
  | write n =>
    unfold World.serverStep at hs
    dsimp only at hs
    split at hs
    · next file rest hserver =>
      split at hs
      · cases hs
      · cases hs
        rw [hserver] at hfile
        refine h.change hserver nofun nofun rfl ⟨hfile.1, ?_⟩
        dsimp only
        rw [Function.update_self, List.append_assoc, List.take_append_drop]
        exact hfile.2
    · cases hs
  | close =>
    unfold World.serverStep at hs
    dsimp only at hs
    split at hs
    · next file hserver =>
      cases hs
      rw [hserver] at hfile
      refine h.change hserver nofun nofun rfl ⟨file, hfile.1, ?_⟩
      rw [← hfile.2, List.append_nil]
    · cases hs
  | writeFailed =>
    unfold World.serverStep at hs
    dsimp only at hs
    split at hs
    · next hserver =>
      cases hs
      exact h.change hserver nofun (fun _ => rfl) rfl trivial
    · next hserver =>
      cases hs
      exact h.change hserver nofun (fun _ => rfl) rfl trivial
    · cases hs
  | drop =>
    unfold World.serverStep at hs
    dsimp only at hs
    split at hs
    · next hserver =>
      cases hs
      exact h.change hserver nofun (fun _ => rfl) rfl trivial
    · cases hs
  | die =>
    unfold World.serverStep at hs
    dsimp only at hs
    split at hs
    · next hrunning =>
      cases hs
      refine h.change rfl ?_ (fun _ => rfl) rfl trivial
      intro hgone
      rw [hgone] at hrunning
      cases hrunning
    · cases hs

section
variable {name : String} {fresh : Bool} {rest : List String} {out : List DiscoveryRecord} {s : Scan}
  {file : FileId} {bytes : List UInt8} {rec : DiscoveryRecord}

/-- A file that is not that of a serving server can be removed: a fresh scan does not wait
for it. -/
theorem fits_removing (hno : name = discoveryFileFor r.pid → w.Since fresh False)
    (hscan : w.Since s.fresh ((name = discoveryFileFor r.pid ∧ fresh = true) ∨
      discoveryFileFor r.pid ∈ s.rest ∨ r ∈ s.out)) : (LoadAll.removing name fresh s).Fits r w := by
  refine ⟨hno, ?_⟩
  intro hlive hflag
  obtain ⟨hserving, hq⟩ := hscan hlive hflag
  refine ⟨hserving, hq.resolve_left fun hfresh => ?_⟩
  exact (hno hfresh.1 hlive hfresh.2).2

/-- A hook opens the file of the server, and has read nothing of it. -/
theorem fits_open (hp : (LoadAll.entries ⟨fresh, name :: rest, out⟩).Fits r w)
    (hentry : w.entry = some file) :
    (LoadAll.reading file [] (w.server = .serving) ⟨fresh, rest, out⟩).Fits r w := by
  refine ⟨?_, ?_⟩
  · intro _ hflag
    exact ⟨of_decide_eq_true hflag, hentry, rfl⟩
  · exact World.Since.imp hp fun hserving _ => .inl (decide_eq_true hserving)

/-- The file is missing from a listing only when the server did not serve at the time. -/
theorem Announced.fits_missing (h : Announced r w)
    (hp : (LoadAll.entries ⟨fresh, name :: rest, out⟩).Fits r w) (hentry : w.entry = none) :
    (LoadAll.entries ⟨fresh, rest, out⟩).Fits r w := by
  refine World.Since.imp hp fun hserving _ => ?_
  have hfile := h.file
  rw [hserving] at hfile
  obtain ⟨file, hsome, -⟩ := hfile
  cases hentry.symm.trans hsome

/-- A file of another name leaves that of the server for later. -/
theorem since_other (hp : (LoadAll.entries ⟨fresh, name :: rest, out⟩).Fits r w)
    (hname : name ≠ discoveryFileFor r.pid) :
    w.Since fresh (discoveryFileFor r.pid ∈ rest ∨ r ∈ out) :=
  World.Since.imp hp fun _ hq => hq.imp_left fun hmem =>
    (List.mem_cons.1 hmem).resolve_left fun heq => hname heq.symm

/-- More of the file is read, and fits what was written. -/
theorem Announced.fits_chunk (h : Announced r w)
    (hp : (LoadAll.reading file bytes fresh s).Fits r w) (n : Nat) :
    (LoadAll.reading file (bytes ++ ((w.contents file).drop bytes.length).take n) fresh s).Fits
      r w := by
  refine ⟨(h.reads hp.1).imp fun _ hq => ⟨hq.1, ?_⟩, hp.2⟩
  rw [hq.2.2]
  exact take_append_chunk hq.2.1 n

/-- The record of a process that is alive is listed. -/
theorem fits_alive (hp : (LoadAll.checking name fresh rec s).Fits r w) :
    (LoadAll.entries { s with out := s.out ++ [rec] }).Fits r w := by
  intro hlive hflag
  obtain ⟨hserving, hq⟩ := hp.2 hlive hflag
  refine ⟨hserving, ?_⟩
  rcases hq with ⟨hname, hfresh⟩ | hrest | hout
  · rw [((hp.1 hname) hlive hfresh).2]
    exact .inr (List.mem_append_right _ List.mem_cons_self)
  · exact .inl hrest
  · exact .inr (List.mem_append_left _ hout)

/-- A process that is not alive is not that of the server. -/
theorem fits_dead (hp : (LoadAll.checking name fresh rec s).Fits r w)
    (hdead : ¬ (rec.pid = r.pid ∧ w.server.running = true)) :
    (LoadAll.removing name fresh s).Fits r w := by
  refine fits_removing ?_ hp.2
  intro hname
  refine (hp.1 hname).imp fun hserving heq => hdead ⟨by rw [heq], ?_⟩
  rw [hserving]
  rfl

/-- A file that is removed from an announced server was opened early. -/
theorem entry_removed (hp : (LoadAll.removing name fresh s).Fits r w)
    (hearly : name = discoveryFileFor r.pid → fresh = true) (hann : w.server.announced = true) :
    (if name = discoveryFileFor r.pid then none else w.entry) = w.entry := by
  refine if_neg fun hname => ?_
  refine (hp.1 hname ?_ (hearly hname)).2
  intro hgone
  rw [hgone] at hann
  cases hann

variable [SerdeJson]

/-- A file that was read from a serving server is parsed; any other may be removed. -/
theorem fits_parsed (hparse : SerdeJson.fromSlice (toStringPretty r) = some r)
    (hbytes : name = discoveryFileFor r.pid → w.Since fresh (bytes = toStringPretty r))
    (hscan : w.Since s.fresh ((name = discoveryFileFor r.pid ∧ fresh = true) ∨
      discoveryFileFor r.pid ∈ s.rest ∨ r ∈ s.out)) :
    (World.parsed name fresh bytes s).Fits r w := by
  unfold World.parsed
  split
  · next rec hrec =>
    refine ⟨fun hname => (hbytes hname).imp fun _ heq => ?_, hscan⟩
    rw [heq, hparse] at hrec
    exact (Option.some.inj hrec).symm
  · next hnone =>
    refine fits_removing ?_ hscan
    intro hname
    refine (hbytes hname).imp fun _ heq => ?_
    rw [heq, hparse] at hnone
    cases hnone

/-- The end of the file is reached, so what was read is the record. -/
theorem Announced.fits_end (h : Announced r w)
    (hparse : SerdeJson.fromSlice (toStringPretty r) = some r)
    (hp : (LoadAll.reading file bytes fresh s).Fits r w) {n : Nat} (hn : n ≠ 0)
    (hchunk : ((w.contents file).drop bytes.length).take n = []) :
    (World.parsed (discoveryFileFor r.pid) fresh bytes s).Fits r w := by
  refine fits_parsed hparse (fun _ => (h.reads hp.1).imp fun _ hq => ?_) ?_
  · rw [hq.2.2] at hchunk
    exact eq_of_chunk_nil hq.2.1 hn hchunk
  · exact hp.2.imp fun _ hq => hq.imp_left fun hfresh => ⟨rfl, hfresh⟩

end

variable [SerdeJson]

/-- Every step of `load_all` keeps what it knows, and removes the file only if it opened it
early. -/
theorem Announced.hookStep (h : Announced r w)
    (hparse : SerdeJson.fromSlice (toStringPretty r) = some r) {p : π} {e : HookEvent}
    (hu : Undisturbed r w (.hook p e)) {next : LoadAll} {entry : Option FileId}
    (hs : w.hookStep r e (w.hooks p) = some (next, entry)) :
    Moves r w next entry := by
  have hp := h.hooks p
  have hearly : ∀ fresh s, e = .remove →
      w.hooks p = .removing (discoveryFileFor r.pid) fresh s → w.server.announced = true →
        fresh = true := by
    rintro fresh s rfl
    exact hu fresh s
  have hlists : ∀ err, e ≠ .listFailed err := by
    rintro err rfl
    exact hu
  have hreads : e ≠ .readFailed := by
    rintro rfl
    exact hu
  generalize w.hooks p = ph at hs hp hearly
  unfold World.hookStep at hs
  split at hs
  -- list
  · next names =>
    split at hs
    · cases hs
    · next hlisted =>
      cases hs
      exact ⟨fits_list h hlisted, fun _ => rfl⟩
  · next err => exact absurd rfl (hlists err)
  -- next, at the end and at the file of the server
  · next fresh out =>
    cases hs
    refine ⟨World.Since.imp hp fun _ hq => ?_, fun _ => rfl⟩
    exact ⟨out, rfl, hq.resolve_left List.not_mem_nil⟩
  · next fresh name rest out =>
    split at hs
    · split at hs
      · next file hentry =>
        cases hs
        exact ⟨fits_open hp hentry, fun _ => rfl⟩
      · next hentry =>
        cases hs
        exact ⟨h.fits_missing hp hentry, fun _ => rfl⟩
    · cases hs
  -- another file
  · next bytes fresh name rest out =>
    split at hs
    · cases hs
    · next hname =>
      have hrest := since_other hp hname
      split at hs
      · cases hs
        refine ⟨fits_parsed hparse (fun heq => absurd heq hname) ?_, fun _ => rfl⟩
        exact hrest.imp fun _ hq => .inr hq
      · cases hs
        exact ⟨hrest, fun _ => rfl⟩
  -- read
  · next n file bytes fresh s =>
    split at hs
    · cases hs
    · next hn =>
      split at hs
      · next hchunk =>
        cases hs
        exact ⟨h.fits_end hparse hp hn hchunk, fun _ => rfl⟩
      · cases hs
        exact ⟨h.fits_chunk hp n, fun _ => rfl⟩
  · exact absurd rfl hreads
  · exact absurd rfl hreads
  -- alive
  · next name fresh rec s =>
    cases hs
    exact ⟨fits_alive hp, fun _ => rfl⟩
  · next name fresh rec s =>
    split at hs
    · cases hs
    · next hdead =>
      cases hs
      exact ⟨fits_dead hp hdead, fun _ => rfl⟩
  -- remove
  · next name fresh s =>
    cases hs
    refine ⟨hp.2, fun hann => entry_removed hp (fun hname => ?_) hann⟩
    exact hearly fresh s rfl (by rw [hname]) hann
  · next name fresh s =>
    cases hs
    exact ⟨hp.2, fun _ => rfl⟩
  · cases hs

/-- A hook never makes the file: it leaves it as it is, or removes it. -/
theorem hookStep_entry {e : HookEvent} {ph next : LoadAll} {entry : Option FileId}
    (hentry : w.entry = none) (hs : w.hookStep r e ph = some (next, entry)) : entry = none := by
  unfold World.hookStep at hs
  split at hs <;> grind

variable [DecidableEq π]

/-- Every step keeps the invariant, as long as the file is not disturbed. A step of the server
changes the file and no hook; a step of a hook changes its phase, and the file only by removing
it. -/
theorem Announced.step (h : Announced r w)
    (hparse : SerdeJson.fromSlice (toStringPretty r) = some r) {i : Event π}
    (hu : Undisturbed r w i) (hs : w.step r i = some w') : Announced r w' := by
  cases i with
  | server e => exact h.serverStep hs
  | hook p e =>
    obtain ⟨⟨next, entry⟩, hnext, rfl⟩ := Option.map_eq_some_iff.1 hs
    obtain ⟨hfits, hentry⟩ := h.hookStep hparse hu hnext
    have hserving : w.server = .serving → entry = w.entry := by
      intro hserver
      exact hentry (by rw [hserver]; rfl)
    refine ⟨?_, ?_⟩
    · have hfile := h.file
      dsimp only
      cases hserver : w.server with
      | notStarted | starting | gone => trivial
      | writing file rest =>
        rw [hserver] at hfile hentry
        exact ⟨(hentry rfl).trans hfile.1, hfile.2⟩
      | serving =>
        rw [hserver] at hfile
        obtain ⟨file, hsome, hcontents⟩ := hfile
        exact ⟨file, (hserving hserver).trans hsome, hcontents⟩
    · refine (Function.forall_update_iff w.hooks fun _ ph => ph.Fits r
        { w with entry := entry, hooks := Function.update w.hooks p next }).2 ⟨?_, ?_⟩
      · exact hfits.frame rfl hserving
      · intro q _
        exact (h.hooks q).frame rfl hserving

/-! ## Runs -/

/-- The file of the server is there in full, and every call of `load_all` that began after `write`
had returned finds the record in it. -/
structure Discoverable (r : DiscoveryRecord) (w : World π) : Prop where
  file : ∃ file, w.entry = some file ∧ w.contents file = toStringPretty r
  found : ∀ p res, w.hooks p = .done true res → ∃ out, res = .ok out ∧ r ∈ out

/-- In every run in which the directory and the file can be read, and no hook that opened the file
before it was written in full removes it, a server that serves is discoverable: its file is there
with its record, and every hook that looks from then on finds it. -/
theorem stays_discoverable (r : DiscoveryRecord)
    (hparse : SerdeJson.fromSlice (toStringPretty r) = some r)
    (w : World π) (h : (discovery r π).Reached (Undisturbed r) w) (hserving : w.server = .serving) :
    Discoverable r w := by
  have hann : Announced r w := by
    refine h.invariant ?_ fun w i w' hw hu hs => hw.step hparse hu hs
    rintro w ⟨hserver, -, hhooks⟩
    refine ⟨by rw [hserver]; trivial, ?_⟩
    intro p
    rw [hhooks p]
    trivial
  refine ⟨?_, ?_⟩
  · have hfile := hann.file
    rw [hserving] at hfile
    exact hfile
  · intro p res hph
    have hfits := hann.hooks p
    rw [hph] at hfits
    exact (hfits (by rw [hserving]; exact nofun) rfl).2

/-- The server is alive and its file is gone. -/
def Lost (w : World π) : Prop := w.server.announced = true ∧ w.entry = none

/-- Nobody makes the file again, neither a hook nor the server: the server has written it already
and does so once only, and a hook only ever removes files. -/
theorem Lost.step {i : Event π} (h : Lost w ∨ w.server = .gone) (hs : w.step r i = some w') :
    Lost w' ∨ w'.server = .gone := by
  cases i with
  | hook p e =>
    obtain ⟨⟨next, entry⟩, hnext, rfl⟩ := Option.map_eq_some_iff.1 hs
    exact h.imp_left fun hlost => ⟨hlost.1, hookStep_entry hlost.2 hnext⟩
  | server e =>
    have hserver : w.serverStep r e = some w' := hs
    unfold World.serverStep at hserver
    cases e <;> grind [Lost, Server.announced, Server.running]

/-- After a removal the record stays lost, as long as the server lives. By induction on the
events. -/
theorem Lost.exec {is : List (Event π)} (h : Lost w ∨ w.server = .gone)
    (hs : (discovery r π).exec is w = some w') : Lost w' ∨ w'.server = .gone := by
  have hstep (w : World π) (i : Event π) (w' : World π) (h : Lost w ∨ w.server = .gone)
      (hs : (discovery r π).step i w = some w') : Lost w' ∨ w'.server = .gone := Lost.step h hs
  exact System.exec_invariant hstep h hs

/-- So a removal that is not `Undisturbed` makes the server invisible for as long as it lives,
whatever happens. -/
theorem lost_of_early_removal {p : π} (hi : ¬ Undisturbed r w (.hook p .remove))
    (hs : w.step r (.hook p .remove) = some w') {is : List (Event π)} {w'' : World π}
    (hrun : (discovery r π).exec is w' = some w'') : Lost w'' ∨ w''.server = .gone := by
  obtain ⟨fresh, hi⟩ := not_forall.1 hi
  obtain ⟨s, hi⟩ := not_forall.1 hi
  obtain ⟨hph, hi⟩ := Classical.not_imp.1 hi
  obtain ⟨hann, -⟩ := Classical.not_imp.1 hi
  obtain ⟨⟨next, entry⟩, hnext, rfl⟩ := Option.map_eq_some_iff.1 hs
  rw [hph] at hnext
  unfold World.hookStep at hnext
  dsimp only at hnext
  rw [if_pos rfl] at hnext
  cases hnext
  refine Lost.exec (.inl ?_) hrun
  exact ⟨hann, rfl⟩

end

/-- The record of a server, for the examples. -/
def sample : DiscoveryRecord where
  pid := 4321
  ppid := 1234
  pipe := "\\\\.\\pipe\\telegrammcp-4321"
  token := "0123456789abcdef0123456789abcdef"
  sessionId := none
  startedAt := "2026-05-13T12:00:00Z"

/-- A reader that reads the record from its text, and from nothing else. -/
@[reducible] def sampleJson : SerdeJson where
  fromSlice bytes := if bytes = toStringPretty sample then some sample else none

/-- The system before the process of the server starts, without a file of its name. -/
def quiet : World Bool := ⟨.notStarted, none, fun _ => [], fun _ => .start⟩

/-- The system when the file is created, and nothing written yet. -/
def halfway (hooks : Bool → LoadAll) : World Bool :=
  ⟨.writing .created (toStringPretty sample), some .created, fun _ => [], hooks⟩

/-- The system when the whole record is written. -/
def announced (hooks : Bool → LoadAll) : World Bool :=
  ⟨.serving, some .created, Function.update (fun _ => []) .created (toStringPretty sample), hooks⟩

section
variable [SerdeJson] {P : World Bool → Event Bool → Prop}

/-- The state in which half of the record is written is reached. -/
theorem halfway_reached (hP : ∀ w e, P w (.server e)) :
    (discovery sample Bool).Reached P (halfway fun _ => .start) := by
  have h0 : (discovery sample Bool).Reached P quiet := .init ⟨rfl, nofun, fun _ => rfl⟩
  have h1 := h0.step (.server .spawn) (hP _ _) rfl
  refine h1.step (.server .create) (hP _ _) (congrArg some ?_)
  simp only [halfway, quiet, Option.getD_none, Function.update_eq_self]

/-- From there, the rest is written and the server serves. -/
theorem announced_reached (hP : ∀ w e, P w (.server e)) {hooks : Bool → LoadAll}
    (h : (discovery sample Bool).Reached P (halfway hooks)) :
    (discovery sample Bool).Reached P (announced hooks) := by
  have hwrite : (discovery sample Bool).step (.server (.write (toStringPretty sample).length))
      (halfway hooks) = some ⟨.writing .created [], some .created,
        Function.update (fun _ => []) .created (toStringPretty sample), hooks⟩ := by
    simp [discovery, World.step, World.serverStep, halfway, toStringPretty]
  have h1 := h.step _ (hP _ _) hwrite
  exact h1.step (.server .close) (hP _ _) rfl

end

/-! Runs in which one hook finds the file empty. It removes the file in one of them; in the other it
cannot, and a second hook opens the file when the server serves. -/

section

/-- The phases of the two hooks. -/
def pair (first second : LoadAll) : Bool → LoadAll
  | true => first
  | false => second

/-- The first hook goes on, and the second stays where it is. -/
theorem update_first (first second next : LoadAll) :
    Function.update (pair first second) true next = pair next second := by
  funext p
  cases p with
  | true => rfl
  | false => rfl

/-- The second hook goes on, and the first stays where it is. -/
theorem update_second (first second next : LoadAll) :
    Function.update (pair first second) false next = pair first next := by
  funext p
  cases p with
  | true => rfl
  | false => rfl

variable [SerdeJson] {P : World Bool → Event Bool → Prop} (w : World Bool)
  {first second : LoadAll} (e : HookEvent) (next : LoadAll)

/-- The first hook takes a step that leaves the file as it is. -/
theorem reached_first (h : (discovery sample Bool).Reached P { w with hooks := pair first second })
    (hP : P { w with hooks := pair first second } (.hook true e))
    (hs : w.hookStep sample e first = some (next, w.entry)) :
    (discovery sample Bool).Reached P { w with hooks := pair next second } := by
  rw [← update_first first second next]
  exact h.step _ hP (congrArg (Option.map _) hs)

/-- The second hook takes one. -/
theorem reached_second (h : (discovery sample Bool).Reached P { w with hooks := pair first second })
    (hP : P { w with hooks := pair first second } (.hook false e))
    (hs : w.hookStep sample e second = some (next, w.entry)) :
    (discovery sample Bool).Reached P { w with hooks := pair first next } := by
  rw [← update_second first second next]
  exact h.step _ hP (congrArg (Option.map _) hs)

/-- The first hook opens the file when it is empty, and is about to remove it. -/
theorem removing_reached (hP : ∀ w i, Undisturbed sample w i → P w i)
    (hempty : SerdeJson.fromSlice [] = none) :
    (discovery sample Bool).Reached P
      (halfway (pair (.removing (discoveryFileFor sample.pid) false ⟨false, [], []⟩) .start)) := by
  let name := discoveryFileFor sample.pid
  have hpair : (fun _ => .start : Bool → LoadAll) = pair .start .start := by
    funext p
    cases p with
    | true => rfl
    | false => rfl
  have h0 := halfway_reached (P := P) fun _ _ => hP _ _ trivial
  rw [hpair] at h0
  have h1 := reached_first (halfway quiet.hooks) (.list [name]) (.entries ⟨false, [name], []⟩) h0
    (hP _ _ trivial) (by simp [World.hookStep, halfway, name])
  have h2 := reached_first (halfway quiet.hooks) .next (.reading .created [] false ⟨false, [], []⟩)
    h1 (hP _ _ trivial) (by simp [World.hookStep, halfway, name])
  exact reached_first (halfway quiet.hooks) (.read 1) _ h2 (hP _ _ trivial)
    (by simp [World.hookStep, World.parsed, halfway, hempty])

/-- It removes the file, while the server goes on to serve. -/
theorem early_removal (hempty : SerdeJson.fromSlice [] = none) :
    (discovery sample Bool).Reached (fun _ _ => True)
      { announced (pair (.entries ⟨false, [], []⟩) .start) with entry := none } := by
  have hremoving := announced_reached (fun _ _ => trivial)
    (removing_reached (P := fun _ _ => True) (fun _ _ _ => trivial) hempty)
  refine hremoving.step (.hook true .remove) trivial ?_
  simp only [discovery, World.step, World.hookStep, announced, pair]
  simp [update_first]

end

/-- The first hook was about to remove the file that it found empty, and could not; the second one
opened the file when the server served, and has found the record. -/
def found : Bool → LoadAll :=
  pair (.entries ⟨false, [], []⟩) (.done true (.ok [sample]))

/-- The run in which two hooks look, and one of them has found the record, is undisturbed. -/
theorem found_reached : (@discovery sampleJson sample Bool _).Reached
    (@Undisturbed Bool sample) (announced found) := by
  let _ : SerdeJson := sampleJson
  let name := discoveryFileFor sample.pid
  have h0 := announced_reached (fun _ _ => trivial) (removing_reached (fun _ _ hu => hu)
    (if_neg nofun))
  -- the second one lists the directory now that the server serves
  have h1 := reached_second (announced found) (.list [name])
    (.entries ⟨true, [name], []⟩) h0 trivial (by simp [World.hookStep, announced, name])
  have h2 := reached_first (announced found) .removeFailed
    (.entries ⟨false, [], []⟩) h1 trivial (by simp [World.hookStep, announced])
  have h3 := reached_second (announced found) .next
    (.reading .created [] true ⟨true, [], []⟩) h2 trivial
    (by simp [World.hookStep, announced, name])
  have h4 := reached_second (announced found) (.read (toStringPretty sample).length)
    (.reading .created (toStringPretty sample) true ⟨true, [], []⟩) h3 trivial
    (by simp [World.hookStep, announced, toStringPretty])
  have hsample : SerdeJson.fromSlice (toStringPretty sample) = some sample := if_pos rfl
  have h5 := reached_second (announced found) (.read 1)
    (.checking name true sample ⟨true, [], []⟩) h4 trivial
    (by simp [World.hookStep, World.parsed, announced, name, hsample])
  have h6 := reached_second (announced found) (.alive true)
    (.entries ⟨true, [], [sample]⟩) h5 trivial rfl
  exact reached_second (announced found) .next _ h6 trivial rfl

/-- Two hooks look while the server serves, one of them after it has begun: what the second one
found is the record, and the file is still there. -/
theorem stays_discoverable_sample : Discoverable sample (announced found) :=
  @stays_discoverable Bool sampleJson _ sample (if_pos rfl) _ found_reached rfl

/-- A hook reads the file when it has just been created, does not parse it, and removes it: the
server serves without a record. -/
theorem not_discoverable :
    ¬ ∀ w : World Bool, (@discovery sampleJson sample Bool _).Reached (fun _ _ => True) w →
      w.server = .serving → Discoverable sample w := by
  intro h
  obtain ⟨file, hentry, -⟩ := (h _ (@early_removal sampleJson (if_neg nofun)) rfl).file
  cases hentry

end TelegramMcp.LocalPipe
