import TelegramMcp.Server.Tools

/-!
# The configuration

`Config.validate` checks what the decoded file says, and `Config.serverState` is the state the
server starts with. In a valid configuration the names of the access lists are aliases, so they all
resolve (`resolveEntry_of_validate`), and the server starts with the allow-list it was given
(`serverState_of_validate`).
-/

namespace TelegramMcp.Server

open Rust Keyed

/-- `AliasOrId`: a chat in an access list, by its id or by the name of an alias. -/
inductive AliasOrId
  | id (n : I64)
  | name (s : String)
  deriving DecidableEq

/-- The section `[bot]`: the token itself, or the variable of the environment that has it. -/
structure BotConfig where
  token : Option String
  tokenEnv : Option String

/-- The section `[access]`: the chats that may be read and those that may be sent to, by their ids
or aliases, and the root of the file tools. -/
structure AccessConfig where
  /-- Chats the server may read; empty is unrestricted. -/
  allowedChats : List AliasOrId
  /-- Chats the server may send to; empty is unrestricted. -/
  allowedSendTargets : List AliasOrId
  fileRoot : Option String

/-- The sections of the configuration the server reads at its start. -/
structure Config where
  bot : BotConfig
  /-- `[storage] path`. -/
  storagePath : String
  /-- `[updater] poll_timeout_secs`, a `u64`. -/
  pollTimeoutSecs : Nat
  aliases : Aliases
  access : AccessConfig

namespace Config

/-- The first name in the access lists that is no alias. -/
def unknownAlias (cfg : Config) : Option String :=
  (cfg.access.allowedChats ++ cfg.access.allowedSendTargets).findSome? fun
    | .name n => if (cfg.aliases.get n).isSome then none else some n
    | .id _ => none

/-- The checks of a configuration. `missingParent` says of a path which parent directory it names
that does not exist, if it names one. -/
def validate (missingParent : String → Option String) (cfg : Config) : Except String Unit :=
  if cfg.pollTimeoutSecs < 1 || cfg.pollTimeoutSecs > 50 then
    .error "[updater] poll_timeout_secs must be in [1, 50]"
  else
    match missingParent cfg.storagePath with
    | some parent => .error ("storage.path parent does not exist: " ++ parent)
    | none =>
      match cfg.unknownAlias with
      | some n => .error ("access list references unknown alias: " ++ n)
      | none =>
        if cfg.bot.token.isNone && cfg.bot.tokenEnv.isNone then
          .error "[bot] requires either token or token_env"
        else .ok ()

/-- The id of an entry of an access list, or the error that its name is no alias. -/
def resolveEntry (cfg : Config) : AliasOrId → Except String I64
  | .id n => .ok n
  | .name n => (cfg.aliases.get n).elim (.error ("unknown alias in access list: " ++ n)) .ok

/-- `resolve_id_list`: the entries in their order, or the error of the first that is no alias. -/
def resolveIdList (cfg : Config) (list : List AliasOrId) : Except String (List I64) :=
  list.mapM cfg.resolveEntry

/-- The state the server starts with, its client and store aside. -/
def serverState (cfg : Config) : Except String State := do
  let allowedSendTargets ←
    if cfg.access.allowedSendTargets.isEmpty then .ok none
    else (cfg.resolveIdList cfg.access.allowedSendTargets).map some
  return ⟨cfg.aliases, allowedSendTargets, cfg.access.fileRoot⟩

variable {missingParent : String → Option String} {cfg : Config}

/-- In a valid configuration every entry of the access lists has an id. -/
theorem resolveEntry_of_validate (h : cfg.validate missingParent = .ok ()) {e : AliasOrId}
    (he : e ∈ cfg.access.allowedChats ++ cfg.access.allowedSendTargets) :
    ∃ n, cfg.resolveEntry e = .ok n := by
  have hnone : cfg.unknownAlias = none := by
    unfold validate at h
    split at h
    · cases h
    · split at h
      · cases h
      · split at h
        · cases h
        · next hnone => exact hnone
  cases e with
  | id n => exact ⟨n, rfl⟩
  | name n =>
    have hknown := List.findSome?_eq_none_iff.1 hnone _ he
    dsimp only at hknown
    split at hknown
    · next hsome =>
      obtain ⟨m, hm⟩ := Option.isSome_iff_exists.1 hsome
      exact ⟨m, by rw [resolveEntry, hm]; rfl⟩
    · cases hknown

/-- A list resolves when each of its entries does. -/
theorem resolveIdList_ok {list : List AliasOrId}
    (h : ∀ e ∈ list, ∃ n, cfg.resolveEntry e = .ok n) :
    ∃ ids, cfg.resolveIdList list = .ok ids := by
  induction list with
  | nil => exact ⟨[], rfl⟩
  | cons e list ih =>
    obtain ⟨n, hn⟩ := h e List.mem_cons_self
    obtain ⟨ids, hids⟩ := ih fun e' he' => h e' (List.mem_cons_of_mem e he')
    refine ⟨n :: ids, ?_⟩
    rw [resolveIdList] at hids ⊢
    rw [List.mapM_cons, hn, hids]
    rfl

/-- A server with a valid configuration and an allow-list starts, and starts with the list. -/
theorem serverState_of_validate (h : cfg.validate missingParent = .ok ())
    (hne : cfg.access.allowedSendTargets ≠ []) :
    ∃ targets, cfg.resolveIdList cfg.access.allowedSendTargets = .ok targets ∧
      cfg.serverState = .ok ⟨cfg.aliases, some targets, cfg.access.fileRoot⟩ := by
  obtain ⟨targets, htargets⟩ := resolveIdList_ok fun e he =>
    resolveEntry_of_validate h (List.mem_append_right _ he)
  refine ⟨targets, htargets, ?_⟩
  rw [serverState, if_neg (by simpa using hne), htargets]
  rfl

end Config

end TelegramMcp.Server
