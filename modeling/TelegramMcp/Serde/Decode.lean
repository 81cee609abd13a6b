import TelegramMcp.Serde.Json

/-!
# Decoding tool arguments

The derived `Deserialize` of the argument types. `Fields` are the fields of a struct with their
decoders. The fields of an object are decoded in the order they come; a field that is missing is an
error unless it has a default, and fields that are not named are ignored.
-/

namespace TelegramMcp

open Rust

/-- A decoder returns the value or the message of the error. -/
abbrev Decoder (α : Type) := Json → Except String α

/-- The entries of an object, in the order of the text. -/
abbrev Entries := List (String × Json)

namespace Decode

/-- How an error of serde names the value it found. -/
def unexpected : Json → String
  | .null => "null"
  | .bool b => "boolean `" ++ toString b ++ "`"
  | .int n => "integer `" ++ toString n ++ "`"
  | .float n => "floating point `" ++ n.text ++ "`"
  | .str s => "string \"" ++ s ++ "\""
  | .arr _ => "sequence"
  | .obj _ => "map"

/-- `de::Error::invalid_type`: the text of an error that says what there was and what was
expected. -/
def invalidType (v : Json) (expected : String) : String :=
  "invalid type: " ++ unexpected v ++ ", expected " ++ expected

/-- An `i64`: an integer in its range, and no float. -/
def i64 : Decoder I64
  | .int n =>
    match IntN.ofInt? n with
    | some n => .ok n
    | none => .error ("invalid value: " ++ unexpected (.int n) ++ ", expected i64")
  | v => .error (invalidType v "i64")

/-- A `String`: a JSON string, and nothing that could be printed as one. -/
def string : Decoder String
  | .str s => .ok s
  | v => .error (invalidType v "a string")

/-- A `bool`: a JSON boolean. -/
def bool : Decoder Bool
  | .bool b => .ok b
  | v => .error (invalidType v "a boolean")

/-- A `PathBuf`, as the text that it is given by. -/
def pathBuf : Decoder String
  | .str s => .ok s
  | v => .error (invalidType v "path string")

/-- An `Option`: null is none, and anything else must decode. -/
def option {α : Type} (d : Decoder α) : Decoder (Option α)
  | .null => .ok none
  | v => (d v).map some

/-- An `i64` is decoded from its own JSON. -/
@[simp] theorem i64_ofI64 (n : I64) : i64 (.ofI64 n) = .ok n := by
  simp [i64, Json.ofI64]

/-- A present integer decodes as some integer. -/
@[simp] theorem option_i64_ofI64 (n : I64) : option i64 (.ofI64 n) = .ok (some n) := by
  rw [show option i64 (.ofI64 n) = (i64 (.ofI64 n)).map some from rfl, i64_ofI64]
  rfl

end Decode

/-- The fields of a struct: the decoders a present field must pass, and the value read from the
entries when all of them do. -/
structure Fields (α : Type) where
  checks : List (String × (Json → Except String Unit))
  read : Entries → Except String α

namespace Fields

variable {α β : Type}

instance : Applicative Fields where
  pure a := ⟨[], fun _ => .ok a⟩
  seq f x :=
    { checks := f.checks ++ (x ()).checks
      read := fun entries => do
        let g ← f.read entries
        let a ← (x ()).read entries
        pure (g a) }

/-- A field that may be missing but not null, with its default. -/
def withDefault (name : String) (d : Decoder α) (default : α) : Fields α where
  checks := [(name, fun v => (d v).map fun _ => ())]
  read entries := (entries.lookup name).elim (.ok default) d

/-- A field that must be there. -/
def required (name : String) (d : Decoder α) : Fields α where
  checks := [(name, fun v => (d v).map fun _ => ())]
  read entries := (entries.lookup name).elim (.error ("missing field `" ++ name ++ "`")) d

/-- A field that may be missing or null. -/
def optional (name : String) (d : Decoder α) : Fields (Option α) :=
  withDefault name (Decode.option d) none

/-- The struct that an object decodes to, once every field there is decodes. -/
def decode (f : Fields α) (entries : Entries) : Except String α := do
  entries.forM fun (name, v) => (f.checks.lookup name).elim (.ok ()) fun check => check v
  f.read entries

section
variable {f : Fields (α → β)} {x : Fields α} {entries : Entries} {g : α → β} {a : α}

/-- A field that is read may be mapped, as `<$>` does it. -/
theorem read_map_ok (h : x.read entries = .ok a) : (g <$> x).read entries = .ok (g a) := by
  change (do let b ← x.read entries; pure (g b)) = _
  rw [h]
  rfl

/-- Fields that are read may be combined, as `<*>` does it. -/
theorem read_seq_ok (hf : f.read entries = .ok g) (hx : x.read entries = .ok a) :
    (f <*> x).read entries = .ok (g a) := by
  change (do let g ← f.read entries; let b ← x.read entries; pure (g b)) = _
  rw [hf, hx]
  rfl

/-- Checks that all pass are passed together. -/
theorem forM_ok {γ ε : Type} {l : List γ} {check : γ → Except ε Unit}
    (h : ∀ c ∈ l, check c = .ok ()) : l.forM check = .ok () := by
  induction l with
  | nil => rfl
  | cons c l ih =>
    change (do check c; l.forM check) = _
    rw [h c List.mem_cons_self]
    exact ih fun d hd => h d (List.mem_cons_of_mem _ hd)

/-- An object decodes when each of its entries passes its check and the struct can be read. -/
theorem decode_ok
    (hchecks : ∀ e ∈ entries, ∀ check, x.checks.lookup e.1 = some check → check e.2 = .ok ())
    (hread : x.read entries = .ok a) : x.decode entries = .ok a := by
  rw [decode, forM_ok]
  · exact hread
  · rintro ⟨name, v⟩ he
    change (x.checks.lookup name).elim (.ok ()) (fun check => check v) = _
    cases hcheck : x.checks.lookup name with
    | none => rfl
    | some check => exact hchecks _ he check hcheck

end

end Fields

end TelegramMcp
