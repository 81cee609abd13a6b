import TelegramMcp.Lib.Words
import TelegramMcp.Server.Main

/-!
# The start of the server

The command line names a configuration file, the last one if there are several, and `main` starts
from it. `main_starts_iff` says on which command lines, configurations and machines it does: when
the file decodes, the values are in range, every name in the access lists is an alias, there is a
token, and what is outside opens. After these checks nothing else can go wrong: the access lists
resolve.
-/

namespace TelegramMcp.Server

open Rust Keyed

/-! ## The command line -/

/-- Why the server does not start: an error, or the help text was asked for. -/
inductive StartStop
  | error (message : String)
  | help

/-- The loop of `parse_cli` over the words, with the path found so far. -/
def parseArgsFrom (cfg : Option String) : List String → Except StartStop (Option String)
  | [] => .ok cfg
  | ["--config"] => .error (.error "--config requires a path argument")
  | "--config" :: v :: rest => parseArgsFrom (some v) rest
  | "--help" :: _ => .error .help
  | "-h" :: _ => .error .help
  | other :: _ => .error (.error ("unknown argument: " ++ other))

/-- `parse_cli`: the first word is the program's own name, and the last path counts. -/
def parseCli (argv : List String) : Except StartStop (Option String) :=
  parseArgsFrom none (argv.drop 1)

/-- `main` up to the tasks, when the configuration files are these. -/
def main (host : Host) (load : String → Except String Document) (argv : List String) :
    Except StartStop Setup := do
  let path ← parseCli argv
  let path ← path.elim (.error (.error "--config <path> is required")) .ok
  ((load path).bind (start host)).mapError .error

/-- The paths that a command line of `--config` pairs has. -/
def configs : Reader String String where
  write path := ["--config", path]
  read
    | "--config" :: path :: rest => some (path, rest)
    | _ => none
  read_write _ _ := rfl
  eq_of_read h := by
    split at h
    · cases h
      rfl
    · cases h
  write_ne_nil _ := List.cons_ne_nil _ _

/-- Only a command line of paths is parsed, and the last of them counts. -/
theorem parseCli_ok_iff {argv : List String} {cfg : Option String} :
    parseCli argv = .ok cfg ↔
      ∃ paths, argv.drop 1 = configs.words paths ∧ cfg = paths.getLast? := by
  have hwords (paths rest : List String) :
      parseArgsFrom none (configs.words paths ++ rest) = parseArgsFrom paths.getLast? rest := by
    have hlast := Reader.foldl_last (fun s : Option String => s) some
      (fun (s : Option String) (path : String) => show some path = _ from rfl) none paths
    rw [List.filterMap_some, Option.or_none] at hlast
    rw [← hlast]
    exact Reader.eq_foldl parseArgsFrom (fun _ _ _ => rfl) none paths rest
  refine ⟨?_, ?_⟩
  · intro h
    obtain ⟨paths, rest, hsplits⟩ := configs.exists_splits (argv.drop 1)
    rw [parseCli, hsplits.eq, hwords] at h
    unfold parseArgsFrom at h
    split at h
    · cases h
      exact ⟨paths, hsplits.eq.trans (List.append_nil _), rfl⟩
    · cases h
    · exact absurd hsplits.stuck nofun
    · cases h
    · cases h
    · cases h
  · rintro ⟨paths, hargs, rfl⟩
    rw [parseCli, hargs, ← List.append_nil (configs.words paths), hwords]
    rfl

/-! ## When it starts -/

/-- A configuration that the server can start from on this machine. Each field is one of the checks
between the command line and the tasks, and there are no others. -/
structure Ready (host : Host) (doc : Document) : Prop where
  polls : 1 ≤ doc.pollTimeoutSecs ∧ doc.pollTimeoutSecs ≤ 50
  parent : host.missingParent doc.storagePath = none
  aliases : ∀ name, .name name ∈ doc.access.allowedChats ++ doc.access.allowedSendTargets →
    (doc.aliases.get name).isSome
  token : doc.bot.tokenEnv.elim doc.bot.token.isSome (fun key => (host.var key).isSome) = true
  url : doc.apiBaseUrl.all host.isUrl = true
  client : host.builds = true
  history : host.opens doc.storagePath = true

section
variable {host : Host} {doc : Document}

/-- No name in the access lists is unknown exactly when each is an alias. -/
theorem unknownAlias_eq_none_iff (cfg : Config) : cfg.unknownAlias = none ↔
    ∀ name, .name name ∈ cfg.access.allowedChats ++ cfg.access.allowedSendTargets →
      (cfg.aliases.get name).isSome := by
  rw [Config.unknownAlias, List.findSome?_eq_none_iff]
  refine ⟨fun h name hname => ?_, fun h e he => ?_⟩
  · by_contra hnone
    have hfound := h _ hname
    dsimp only at hfound
    rw [if_neg hnone] at hfound
    cases hfound
  · cases e with
    | id n => rfl
    | name name => exact if_pos (h name he)

/-- The checks of the configuration succeed exactly when what each checks holds. -/
theorem validate_ok_iff : doc.validate host.missingParent = .ok () ↔
    (1 ≤ doc.pollTimeoutSecs ∧ doc.pollTimeoutSecs ≤ 50) ∧
      host.missingParent doc.storagePath = none ∧ doc.unknownAlias = none ∧
        (doc.bot.token.isSome ∨ doc.bot.tokenEnv.isSome) := by
  unfold Config.validate
  split
  · next hpolls =>
    refine iff_of_false nofun ?_
    rintro ⟨⟨hmin, hmax⟩, -⟩
    simp only [Bool.or_eq_true, decide_eq_true_eq] at hpolls
    omega
  · next hpolls =>
    simp only [Bool.or_eq_true, decide_eq_true_eq, not_or] at hpolls
    have hrange : 1 ≤ doc.pollTimeoutSecs ∧ doc.pollTimeoutSecs ≤ 50 := by omega
    rw [and_iff_right hrange]
    cases host.missingParent doc.storagePath with
    | some parent => exact iff_of_false nofun (fun h => nomatch h.1)
    | none =>
      rw [and_iff_right rfl]
      cases doc.unknownAlias with
      | some name => exact iff_of_false nofun (fun h => nomatch h.1)
      | none =>
        rw [and_iff_right rfl]
        cases doc.bot.token <;> cases doc.bot.tokenEnv <;> simp

/-- There is a token where one is configured and the environment has it. -/
theorem resolvedToken_ok_iff {bot : BotConfig} : (∃ token, resolvedToken host bot = .ok token) ↔
    bot.tokenEnv.elim bot.token.isSome (fun key => (host.var key).isSome) = true := by
  rw [resolvedToken]
  cases bot.tokenEnv with
  | some key =>
    dsimp only [Option.elim_some]
    cases host.var key with
    | some token => exact iff_of_true ⟨token, rfl⟩ rfl
    | none => exact iff_of_false (fun ⟨_, h⟩ => nomatch h) nofun
  | none =>
    dsimp only [Option.elim_none]
    cases bot.token with
    | some token => exact iff_of_true ⟨token, rfl⟩ rfl
    | none => exact iff_of_false (fun ⟨_, h⟩ => nomatch h) nofun

/-- A valid configuration gives a state and a configuration of the updater. -/
theorem resolved_of_validate (h : doc.validate host.missingParent = .ok ()) :
    (∃ state, doc.serverState = .ok state) ∧ ∃ updater, updaterConfig doc = .ok updater := by
  refine ⟨?_, ?_⟩
  · by_cases hne : doc.access.allowedSendTargets = []
    · refine ⟨⟨doc.aliases, none, doc.access.fileRoot⟩, ?_⟩
      rw [Config.serverState, hne]
      rfl
    · obtain ⟨targets, -, hstate⟩ := Config.serverState_of_validate h hne
      exact ⟨_, hstate⟩
  · by_cases hne : doc.access.allowedChats = []
    · rw [updaterConfig, allowedChats, hne]
      split
      · exact ⟨_, rfl⟩
      · exact ⟨_, rfl⟩
    · obtain ⟨_, updater, -, hupdater, -⟩ := updaterConfig_of_validate h hne
      exact ⟨updater, hupdater⟩

/-- The server starts from a configuration exactly when it is ready: each check of the start is a
field, and after the checks nothing can fail. -/
theorem start_ok_iff_ready : (∃ p, start host doc = .ok p) ↔ Ready host doc := by
  refine ⟨?_, fun h => ?_⟩
  · rintro ⟨p, hp⟩
    have hstarted := start_eq_ok_iff.1 hp
    obtain ⟨hpolls, hparent, haliases, -⟩ := validate_ok_iff.1 hstarted.valid
    exact ⟨hpolls, hparent, (unknownAlias_eq_none_iff _).1 haliases,
      resolvedToken_ok_iff.1 ⟨_, hstarted.token⟩, hstarted.url, hstarted.client, hstarted.history⟩
  · obtain ⟨token, htoken⟩ := resolvedToken_ok_iff.2 h.token
    have hconfigured : doc.bot.token.isSome ∨ doc.bot.tokenEnv.isSome := by
      have hready := h.token
      cases henv : doc.bot.tokenEnv with
      | some key => exact .inr rfl
      | none =>
        rw [henv] at hready
        exact .inl hready
    have hvalid := validate_ok_iff.2
      ⟨h.polls, h.parent, (unknownAlias_eq_none_iff _).2 h.aliases, hconfigured⟩
    obtain ⟨⟨state, hstate⟩, updater, hupdater⟩ := resolved_of_validate hvalid
    exact ⟨⟨token, state, retentionTask doc.retention, updater⟩, start_eq_ok_iff.2
      ⟨hvalid, htoken, h.url, h.client, h.history, hstate, hupdater, rfl⟩⟩

end

/-- The process gets to its tasks exactly when the command line is a list of paths, the file of the
last one decodes, and the server can start from what is in it on this machine: past the checks of
the configuration nothing else can fail. -/
theorem main_starts_iff (host : Host) (load : String → Except String Document)
    (argv : List String) : (∃ p, main host load argv = .ok p) ↔
      ∃ paths path doc, argv.drop 1 = configs.words paths ∧ paths.getLast? = some path ∧
        load path = .ok doc ∧ Ready host doc := by
  refine ⟨?_, ?_⟩
  · rintro ⟨p, hp⟩
    obtain ⟨cfg, hcli, hp⟩ := bind_eq_ok_iff.1 hp
    obtain ⟨path, hpath, hp⟩ := bind_eq_ok_iff.1 hp
    obtain ⟨paths, hargs, rfl⟩ := parseCli_ok_iff.1 hcli
    cases hlast : paths.getLast? with
    | none =>
      rw [hlast] at hpath
      cases hpath
    | some path' =>
      rw [hlast] at hpath
      obtain rfl : path' = path := Except.ok.inj hpath
      cases hdoc : load path' with
      | error e =>
        rw [hdoc] at hp
        cases hp
      | ok doc =>
        refine ⟨paths, path', doc, hargs, hlast, hdoc, start_ok_iff_ready.1 ?_⟩
        rw [hdoc] at hp
        cases hstart : start host doc with
        | ok p' => exact ⟨p', rfl⟩
        | error e =>
          change (start host doc).mapError _ = _ at hp
          rw [hstart] at hp
          cases hp
  · rintro ⟨paths, path, doc, hargs, hlast, hdoc, hready⟩
    obtain ⟨p, hp⟩ := start_ok_iff_ready.2 hready
    refine ⟨p, bind_eq_ok_iff.2 ⟨_, parseCli_ok_iff.2 ⟨paths, hargs, rfl⟩, ?_⟩⟩
    rw [hlast]
    change ((load path).bind (start host)).mapError _ = _
    rw [hdoc]
    change (start host doc).mapError _ = _
    rw [hp]
    rfl

end TelegramMcp.Server
