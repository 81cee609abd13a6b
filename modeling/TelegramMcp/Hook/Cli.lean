import TelegramMcp.Lib.Rust

/-!
# The command line of the hook

`CliArgs.parseFrom` reads `--flag value` pairs in any order; a later one of the same flag wins. An
unknown flag, a flag without its value and a number that does not parse are errors.
-/

namespace TelegramMcp.Hook

open Rust

/-- `CliArgs`: the command line of a hook, with the defaults filled in where an option is missing.
The periods are in seconds; the timeout and the poll period are not 0. -/
structure CliArgs where
  /-- Alias or numeric chat id. -/
  chat : String
  message : Option String
  retryMessage : Option String
  timeoutSecs : Nat
  pollSecs : Nat
  releaseOnLocalInput : Bool
  localInputThresholdSecs : Nat
  deriving DecidableEq

/-- Why there are no arguments: an error, or the help text was asked for. -/
inductive CliStop
  | error (message : String)
  | help
  deriving DecidableEq

namespace CliArgs

/-- The arguments read so far, with the defaults at the start. Each option that is read replaces
what an earlier one of its kind has set. -/
structure Partial where
  chat : Option String := none
  message : Option String := none
  retryMessage : Option String := none
  timeoutSecs : Nat := 3600
  pollSecs : Nat := 5
  releaseOnLocalInput : Bool := false
  localInputThresholdSecs : Nat := 2

/-- The flags that are followed by a value. -/
def valueFlags : List String :=
  ["--chat", "--message", "--retry-message", "--timeout-secs", "--poll-secs",
    "--local-input-threshold-secs"]

/-- A number of seconds, or the error that names the option it was given to. -/
def parseSecs (flag v : String) : Except CliStop Nat :=
  (parseU64 v).elim (.error (.error ("bad " ++ flag))) .ok

/-- A flag and its value; a later one takes the place of an earlier one. -/
def Partial.set (o : Partial) (flag v : String) : Except CliStop Partial :=
  match flag with
  | "--chat" => .ok { o with chat := some v }
  | "--message" => .ok { o with message := some v }
  | "--retry-message" => .ok { o with retryMessage := some v }
  | "--timeout-secs" => (parseSecs flag v).map fun n => { o with timeoutSecs := n }
  | "--poll-secs" => (parseSecs flag v).map fun n => { o with pollSecs := n }
  | "--local-input-threshold-secs" =>
    (parseSecs flag v).map fun n => { o with localInputThresholdSecs := n }
  | other => .error (.error ("unknown argument: " ++ other))

/-- The loop of `CliArgs::parse_from` over the words: an option that needs a value takes the next
word, whatever that looks like, and the first word that is no option ends it. -/
def parseFlags (o : Partial) : List String → Except CliStop Partial
  | [] => .ok o
  | "--release-on-local-input" :: rest => parseFlags { o with releaseOnLocalInput := true } rest
  | "--help" :: _ => .error .help
  | "-h" :: _ => .error .help
  | [flag] =>
    if flag ∈ valueFlags then .error (.error (flag ++ " needs a value"))
    else .error (.error ("unknown argument: " ++ flag))
  | flag :: v :: rest => do
    let o ← o.set flag v
    parseFlags o rest

/-- The checks after the last argument, and the defaults of what was not given. -/
def Partial.finish (o : Partial) : Except CliStop CliArgs :=
  match o.chat with
  | none => .error (.error "--chat is required")
  | some chat =>
    if o.pollSecs = 0 then .error (.error "--poll-secs must be at least 1")
    else if o.timeoutSecs = 0 then .error (.error "--timeout-secs must be at least 1")
    else .ok
      { chat
        message := o.message
        retryMessage := o.retryMessage
        timeoutSecs := o.timeoutSecs
        pollSecs := o.pollSecs
        releaseOnLocalInput := o.releaseOnLocalInput
        localInputThresholdSecs := o.localInputThresholdSecs }

/-- `CliArgs::parse_from`: the first word is the program's own name, and the others are parsed. -/
def parseFrom (argv : List String) : Except CliStop CliArgs := do
  let o ← parseFlags {} (argv.drop 1)
  o.finish

/-- The value of `--chat` is taken as it is, whatever it spells. -/
theorem parseFrom_chat (exe chat : String) :
    parseFrom [exe, "--chat", chat] = .ok ⟨chat, none, none, 3600, 5, false, 2⟩ := rfl

end CliArgs

end TelegramMcp.Hook
