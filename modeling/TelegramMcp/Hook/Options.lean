import TelegramMcp.Lib.Words
import TelegramMcp.Hook.Cli

/-!
# The grammar of the command line

The options of the hook stand in any order and any number, and of several of a kind the last counts.
`Reads` says what becomes of a list of arguments: where all of it is options, what they mean, and
else what is wrong with the first word that is none. `parseFrom` is this relation, on every list
(`parseFrom_iff_reads`).
-/

namespace TelegramMcp.Hook

open Rust CliArgs

/-! ## Options -/

/-- A number of seconds with the word that spells it. Several words may spell one number, so the
word is kept and the number follows from it. -/
structure Secs where
  text : String
  secs : Nat
  parsed : parseU64 text = some secs
  deriving DecidableEq

/-- The number that a word spells out, with the word. -/
def Secs.read (text : String) : Option Secs :=
  match h : parseU64 text with
  | some secs => some ⟨text, secs, h⟩
  | none => none

/-- An option that is well formed, by its kind and its value. A command line is a list of the words
of these, in any order and number. -/
inductive Opt
  | chat (value : String)
  | message (text : String)
  | retryMessage (text : String)
  | timeoutSecs (n : Secs)
  | pollSecs (n : Secs)
  | releaseOnLocalInput
  | localInputThresholdSecs (n : Secs)
  deriving DecidableEq

namespace Opt

/-- The words of an option: a switch alone, or a flag and its value. -/
def write : Opt → List String
  | chat value => ["--chat", value]
  | message text => ["--message", text]
  | retryMessage text => ["--retry-message", text]
  | timeoutSecs n => ["--timeout-secs", n.text]
  | pollSecs n => ["--poll-secs", n.text]
  | releaseOnLocalInput => ["--release-on-local-input"]
  | localInputThresholdSecs n => ["--local-input-threshold-secs", n.text]

/-- The option of a flag and a value, if the flag is known and the value is well formed. -/
def ofFlag (flag v : String) : Option Opt :=
  match flag with
  | "--chat" => some (chat v)
  | "--message" => some (message v)
  | "--retry-message" => some (retryMessage v)
  | "--timeout-secs" => (Secs.read v).map timeoutSecs
  | "--poll-secs" => (Secs.read v).map pollSecs
  | "--local-input-threshold-secs" => (Secs.read v).map localInputThresholdSecs
  | _ => none

/-- The option at the start of the words, and the words behind it. A switch is one word, any other
option two. -/
def read : List String → Option (Opt × List String)
  | "--release-on-local-input" :: rest => some (releaseOnLocalInput, rest)
  | flag :: v :: rest => (ofFlag flag v).map fun o => (o, rest)
  | _ => none

/-- The arguments after one more option. -/
def apply (o : Partial) : Opt → Partial
  | chat value => { o with chat := some value }
  | message text => { o with message := some text }
  | retryMessage text => { o with retryMessage := some text }
  | timeoutSecs n => { o with timeoutSecs := n.secs }
  | pollSecs n => { o with pollSecs := n.secs }
  | releaseOnLocalInput => { o with releaseOnLocalInput := true }
  | localInputThresholdSecs n => { o with localInputThresholdSecs := n.secs }

end Opt

/-- A number is read back from the word that spells it. -/
theorem Secs.read_text (n : Secs) : Secs.read n.text = some n := by
  obtain ⟨text, secs, parsed⟩ := n
  rw [Secs.read]
  split
  · next secs' h =>
    obtain rfl : secs' = secs := Option.some.inj (h.symm.trans parsed)
    rfl
  · next h => exact absurd (h.symm.trans parsed) nofun

/-- A number that was read is spelled by the word it was read from. -/
theorem Secs.text_of_read {text : String} {n : Secs} (h : Secs.read text = some n) :
    n.text = text := by
  rw [Secs.read] at h
  split at h
  · cases h
    rfl
  · cases h

/-- No number is read from a word exactly when it does not parse. -/
theorem Secs.read_eq_none_iff {text : String} :
    Secs.read text = none ↔ parseU64 text = none := by
  rw [Secs.read]
  split
  · next h => exact iff_of_false nofun (by rw [h]; nofun)
  · next h => exact iff_of_true rfl h

namespace Opt

/-- An option is read back from the words it is written as, and the words behind it are left. -/
theorem read_write (o : Opt) (rest : List String) : read (o.write ++ rest) = some (o, rest) := by
  cases o with
  | chat | message | retryMessage | releaseOnLocalInput => rfl
  | timeoutSecs n | pollSecs n | localInputThresholdSecs n =>
    simp [write, read, ofFlag, Secs.read_text]

/-- The option of a flag and its value is written as these two words. -/
theorem write_of_ofFlag {flag v : String} {o : Opt} (h : ofFlag flag v = some o) :
    o.write = [flag, v] := by
  unfold ofFlag at h
  split at h
  · cases h
    rfl
  · cases h
    rfl
  · cases h
    rfl
  · obtain ⟨n, hn, rfl⟩ := Option.map_eq_some_iff.1 h
    rw [write, Secs.text_of_read hn]
  · obtain ⟨n, hn, rfl⟩ := Option.map_eq_some_iff.1 h
    rw [write, Secs.text_of_read hn]
  · obtain ⟨n, hn, rfl⟩ := Option.map_eq_some_iff.1 h
    rw [write, Secs.text_of_read hn]
  · cases h

/-- What was read is written at the start of the words. -/
theorem eq_of_read {l rest : List String} {o : Opt} (h : read l = some (o, rest)) :
    l = o.write ++ rest := by
  unfold read at h
  split at h
  · cases h
    rfl
  · next flag v rest' _ =>
    obtain ⟨o', ho, heq⟩ := Option.map_eq_some_iff.1 h
    cases heq
    rw [write_of_ofFlag ho]
    rfl
  · cases h

/-- Options in a list of arguments, as they are written and read. -/
def reader : Reader String Opt where
  write := write
  read := read
  read_write := read_write
  eq_of_read := eq_of_read
  write_ne_nil o := by cases o <;> exact List.cons_ne_nil _ _

end Opt

/-! ## What options mean -/

namespace Opt

/-- The value of `--chat`, if the option is that. -/
def chat? : Opt → Option String
  | chat value => some value
  | _ => none

/-- The value of `--message`, if the option is that. -/
def message? : Opt → Option String
  | message text => some text
  | _ => none

/-- The value of `--retry-message`, if the option is that. -/
def retryMessage? : Opt → Option String
  | retryMessage text => some text
  | _ => none

/-- The value of `--timeout-secs`, if the option is that. -/
def timeoutSecs? : Opt → Option Nat
  | timeoutSecs n => some n.secs
  | _ => none

/-- The value of `--poll-secs`, if the option is that. -/
def pollSecs? : Opt → Option Nat
  | pollSecs n => some n.secs
  | _ => none

/-- The switch is on, if the option is that. -/
def releaseOnLocalInput? : Opt → Option Bool
  | releaseOnLocalInput => some true
  | _ => none

/-- The value of `--local-input-threshold-secs`, if the option is that. -/
def localInputThresholdSecs? : Opt → Option Nat
  | localInputThresholdSecs n => some n.secs
  | _ => none

/-- What the last option of a kind says, if there is one. -/
def last {β : Type} (val : Opt → Option β) (opts : List Opt) : Option β :=
  (opts.filterMap val).getLast?

end Opt

open Opt in
/-- The arguments that options mean, each with its default. -/
def meaning (opts : List Opt) : Partial where
  chat := last chat? opts
  message := last message? opts
  retryMessage := last retryMessage? opts
  timeoutSecs := (last timeoutSecs? opts).getD 3600
  pollSecs := (last pollSecs? opts).getD 5
  releaseOnLocalInput := (last releaseOnLocalInput? opts).getD false
  localInputThresholdSecs := (last localInputThresholdSecs? opts).getD 2

/-- The arguments after some options are those that the options mean. -/
theorem foldl_apply (opts : List Opt) : opts.foldl Opt.apply {} = meaning opts := by
  have hchat : (opts.foldl Opt.apply {}).chat = _ :=
    Reader.foldl_last Partial.chat Opt.chat? (fun s o => by cases o <;> rfl) {} opts
  have hmessage : (opts.foldl Opt.apply {}).message = _ :=
    Reader.foldl_last Partial.message Opt.message? (fun s o => by cases o <;> rfl) {} opts
  have hretry : (opts.foldl Opt.apply {}).retryMessage = _ :=
    Reader.foldl_last Partial.retryMessage Opt.retryMessage? (fun s o => by cases o <;> rfl) {} opts
  have htimeout : (opts.foldl Opt.apply {}).timeoutSecs = _ :=
    Reader.foldl_getD_last Partial.timeoutSecs Opt.timeoutSecs? (fun s o => by cases o <;> rfl) {}
      opts
  have hpoll : (opts.foldl Opt.apply {}).pollSecs = _ :=
    Reader.foldl_getD_last Partial.pollSecs Opt.pollSecs? (fun s o => by cases o <;> rfl) {} opts
  have hrelease : (opts.foldl Opt.apply {}).releaseOnLocalInput = _ :=
    Reader.foldl_getD_last Partial.releaseOnLocalInput Opt.releaseOnLocalInput?
      (fun s o => by cases o <;> rfl) {} opts
  have hthreshold : (opts.foldl Opt.apply {}).localInputThresholdSecs = _ :=
    Reader.foldl_getD_last Partial.localInputThresholdSecs Opt.localInputThresholdSecs?
      (fun s o => by cases o <;> rfl) {} opts
  generalize opts.foldl Opt.apply {} = o at *
  obtain ⟨chat, message, retryMessage, timeoutSecs, pollSecs, releaseOnLocalInput, threshold⟩ := o
  rw [Option.or_none] at hchat hmessage hretry
  rw [meaning, ← show _ = Opt.last Opt.chat? opts from hchat,
    ← show _ = Opt.last Opt.message? opts from hmessage,
    ← show _ = Opt.last Opt.retryMessage? opts from hretry]
  exact congr (congr (congr (congrArg _ htimeout) hpoll) hrelease) hthreshold

/-! ## The grammar -/

/-- The flags whose value is a number of seconds. -/
def secsFlags : List String := ["--timeout-secs", "--poll-secs", "--local-input-threshold-secs"]

/-- The flags without a value. -/
def plainFlags : List String := ["--release-on-local-input", "--help", "-h"]

/-- What becomes of the arguments: they are options only, which lack something or not, or options
and a first word that is no option. -/
inductive Reads : List String → Except CliStop CliArgs → Prop
  | accepted (opts : List Opt) {chat : String} (hchat : (meaning opts).chat = some chat)
    (hpoll : (meaning opts).pollSecs ≠ 0) (htimeout : (meaning opts).timeoutSecs ≠ 0) :
    Reads (Opt.reader.words opts) (.ok
      { chat
        message := (meaning opts).message
        retryMessage := (meaning opts).retryMessage
        timeoutSecs := (meaning opts).timeoutSecs
        pollSecs := (meaning opts).pollSecs
        releaseOnLocalInput := (meaning opts).releaseOnLocalInput
        localInputThresholdSecs := (meaning opts).localInputThresholdSecs })
  | noChat (opts : List Opt) (hchat : (meaning opts).chat = none) :
    Reads (Opt.reader.words opts) (.error (.error "--chat is required"))
  | noPoll (opts : List Opt) (hchat : (meaning opts).chat ≠ none)
    (hpoll : (meaning opts).pollSecs = 0) :
    Reads (Opt.reader.words opts) (.error (.error "--poll-secs must be at least 1"))
  | noTimeout (opts : List Opt) (hchat : (meaning opts).chat ≠ none)
    (hpoll : (meaning opts).pollSecs ≠ 0) (htimeout : (meaning opts).timeoutSecs = 0) :
    Reads (Opt.reader.words opts) (.error (.error "--timeout-secs must be at least 1"))
  | help (opts : List Opt) {flag : String} (h : flag = "--help" ∨ flag = "-h")
    (rest : List String) : Reads (Opt.reader.words opts ++ flag :: rest) (.error .help)
  | noValue (opts : List Opt) {flag : String} (h : flag ∈ valueFlags) :
    Reads (Opt.reader.words opts ++ [flag]) (.error (.error (flag ++ " needs a value")))
  | badNumber (opts : List Opt) {flag v : String} (h : flag ∈ secsFlags) (hv : parseU64 v = none)
    (rest : List String) :
    Reads (Opt.reader.words opts ++ flag :: v :: rest) (.error (.error ("bad " ++ flag)))
  | unknown (opts : List Opt) {flag : String} (hv : flag ∉ valueFlags) (hp : flag ∉ plainFlags)
    (rest : List String) : Reads (Opt.reader.words opts ++ flag :: rest)
      (.error (.error ("unknown argument: " ++ flag)))

/-- The loop takes the words of one option after another. -/
theorem parseFlags_write (o : Partial) (opt : Opt) (rest : List String) :
    parseFlags o (opt.write ++ rest) = parseFlags (opt.apply o) rest := by
  have hsecs (flag : String) (n : Secs) : parseSecs flag n.text = .ok n.secs := by
    rw [parseSecs, n.parsed]
    rfl
  cases opt with
  | chat | message | retryMessage | releaseOnLocalInput => rfl
  | timeoutSecs n | pollSecs n | localInputThresholdSecs n =>
    change ((parseSecs _ n.text).map _ >>= fun o => parseFlags o rest) = _
    rw [hsecs]
    rfl

/-- The loop goes through the options and then on from what they mean. -/
theorem parseFlags_words (opts : List Opt) (rest : List String) :
    parseFlags {} (Opt.reader.words opts ++ rest) = parseFlags (meaning opts) rest := by
  rw [← foldl_apply]
  exact Reader.eq_foldl parseFlags parseFlags_write {} opts rest

/-- A word that is no option stops the loop with an error that names it. -/
theorem parseFlags_unknown (o : Partial) {flag : String} (hv : flag ∉ valueFlags)
    (hp : flag ∉ plainFlags) (rest : List String) :
    parseFlags o (flag :: rest) = .error (.error ("unknown argument: " ++ flag)) := by
  simp only [plainFlags, List.mem_cons, List.not_mem_nil, or_false, not_or] at hp
  obtain ⟨hrelease, hhelp, hh⟩ := hp
  cases rest with
  | nil =>
    rw [parseFlags, if_neg hv] <;> assumption
  | cons v rest =>
    have hset : o.set flag v = .error (.error ("unknown argument: " ++ flag)) := by
      simp only [valueFlags, List.mem_cons, List.not_mem_nil, or_false, not_or] at hv
      simp [Partial.set, hv]
    rw [parseFlags, hset] <;> first | assumption | rfl

/-- A flag at the end that needs a value stops it, too. -/
theorem parseFlags_noValue (o : Partial) {flag : String} (h : flag ∈ valueFlags) :
    parseFlags o [flag] = .error (.error (flag ++ " needs a value")) := by
  simp only [valueFlags, List.mem_cons, List.not_mem_nil, or_false] at h
  rcases h with rfl | rfl | rfl | rfl | rfl | rfl <;> rfl

/-- So does a number that does not parse. -/
theorem parseFlags_badNumber (o : Partial) {flag v : String} (h : flag ∈ secsFlags)
    (hv : parseU64 v = none) (rest : List String) :
    parseFlags o (flag :: v :: rest) = .error (.error ("bad " ++ flag)) := by
  have hsecs : parseSecs flag v = .error (.error ("bad " ++ flag)) := by
    rw [parseSecs, hv]
    rfl
  simp only [secsFlags, List.mem_cons, List.not_mem_nil, or_false] at h
  rcases h with rfl | rfl | rfl
  all_goals
    change ((parseSecs _ v).map _ >>= fun o => parseFlags o rest) = _
    rw [hsecs]
    rfl

/-- What is read is what the parser makes of the arguments. -/
theorem Reads.parse_eq {args : List String} {r : Except CliStop CliArgs} (h : Reads args r) :
    (parseFlags {} args >>= Partial.finish) = r := by
  have hwords (opts : List Opt) (rest : List String) :
      (parseFlags {} (Opt.reader.words opts ++ rest) >>= Partial.finish) =
        parseFlags (meaning opts) rest >>= Partial.finish :=
    congrArg (· >>= Partial.finish) (parseFlags_words opts rest)
  have hall (opts : List Opt) :
      (parseFlags {} (Opt.reader.words opts) >>= Partial.finish) = (meaning opts).finish := by
    rw [← List.append_nil (Opt.reader.words opts), hwords]
    rfl
  cases h with
  | accepted opts hchat hpoll htimeout =>
    rw [hall, Partial.finish, hchat]
    dsimp only
    rw [if_neg hpoll, if_neg htimeout]
  | noChat opts hchat => rw [hall, Partial.finish, hchat]
  | noPoll opts hchat hpoll =>
    obtain ⟨chat, hchat⟩ := Option.ne_none_iff_exists'.1 hchat
    rw [hall, Partial.finish, hchat]
    dsimp only
    rw [if_pos hpoll]
  | noTimeout opts hchat hpoll htimeout =>
    obtain ⟨chat, hchat⟩ := Option.ne_none_iff_exists'.1 hchat
    rw [hall, Partial.finish, hchat]
    dsimp only
    rw [if_neg hpoll, if_pos htimeout]
  | help opts h rest =>
    rw [hwords]
    rcases h with rfl | rfl <;> rfl
  | noValue opts h =>
    rw [hwords, parseFlags_noValue _ h]
    rfl
  | badNumber opts h hv rest =>
    rw [hwords, parseFlags_badNumber _ h hv]
    rfl
  | unknown opts hv hp rest =>
    rw [hwords, parseFlags_unknown _ hv hp]
    rfl

/-- A list of options only is accepted, or lacks something. -/
theorem exists_reads_words (opts : List Opt) : ∃ r, Reads (Opt.reader.words opts) r := by
  by_cases hchat : (meaning opts).chat = none
  · exact ⟨_, .noChat opts hchat⟩
  · by_cases hpoll : (meaning opts).pollSecs = 0
    · exact ⟨_, .noPoll opts hchat hpoll⟩
    · by_cases htimeout : (meaning opts).timeoutSecs = 0
      · exact ⟨_, .noTimeout opts hchat hpoll htimeout⟩
      · obtain ⟨chat, hchat⟩ := Option.ne_none_iff_exists'.1 hchat
        exact ⟨_, .accepted opts hchat hpoll htimeout⟩

/-- Where no option starts, the first word is a flag that says so. -/
theorem exists_reads_append (opts : List Opt) (flag : String) (rest : List String)
    (hstuck : Opt.read (flag :: rest) = none) :
    ∃ r, Reads (Opt.reader.words opts ++ flag :: rest) r := by
  by_cases hhelp : flag = "--help" ∨ flag = "-h"
  · exact ⟨_, .help opts hhelp rest⟩
  · have hrelease : flag ≠ "--release-on-local-input" := by
      rintro rfl
      cases hstuck
    by_cases hv : flag ∈ valueFlags
    · cases rest with
      | nil => exact ⟨_, .noValue opts hv⟩
      | cons v rest =>
        have hnone : Opt.ofFlag flag v = none := by
          rw [Opt.read] at hstuck
          · exact Option.map_eq_none_iff.1 hstuck
          · exact hrelease
        simp only [valueFlags, List.mem_cons, List.not_mem_nil, or_false] at hv
        rcases hv with rfl | rfl | rfl | rfl | rfl | rfl
        · cases hnone
        · cases hnone
        · cases hnone
        all_goals
          have hbad := Secs.read_eq_none_iff.1 (Option.map_eq_none_iff.1 hnone)
          exact ⟨_, .badNumber opts (by decide) hbad rest⟩
    · refine ⟨_, .unknown opts hv ?_ rest⟩
      simpa [plainFlags, hrelease] using hhelp

/-- `parseFrom` returns, on every list of words, exactly what the grammar of the command line says:
the arguments that the options mean, an error, or the help text. -/
theorem parseFrom_iff_reads (argv : List String) (r : Except CliStop CliArgs) :
    parseFrom argv = r ↔ Reads (argv.drop 1) r := by
  refine ⟨?_, fun h => h.parse_eq⟩
  rintro rfl
  obtain ⟨opts, rest, hsplits⟩ := Opt.reader.exists_splits (argv.drop 1)
  have hreads : ∃ r, Reads (argv.drop 1) r := by
    rw [hsplits.eq]
    cases rest with
    | nil =>
      rw [List.append_nil]
      exact exists_reads_words opts
    | cons flag rest => exact exists_reads_append opts flag rest hsplits.stuck
  obtain ⟨r, hr⟩ := hreads
  rwa [show parseFrom argv = r from hr.parse_eq]

end TelegramMcp.Hook
