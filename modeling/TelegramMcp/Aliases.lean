import TelegramMcp.Lib.Keyed
import TelegramMcp.Serde.Decode

/-!
# Chat references

A `ChatRef` is a numeric chat id or a name. It is decoded untagged: an integer is an id, a string is
a name, whatever it spells. `Aliases.resolve` gives an id to a reference, looking names up in the
configured table.
-/

namespace TelegramMcp

open Rust Keyed

/-- A caller's reference to a chat: a number, or the name of an alias. A name that spells a number
is a name. -/
inductive ChatRef
  | id (n : I64)
  | name (s : String)
  deriving DecidableEq

/-- The untagged enum of the source: the first variant that decodes, so that a number is an id and a
string an alias. -/
def ChatRef.decode : Decoder ChatRef := fun v =>
  match Decode.i64 v with
  | .ok n => .ok (.id n)
  | .error _ =>
    match Decode.string v with
    | .ok s => .ok (.name s)
    | .error _ => .error "data did not match any variant of untagged enum ChatRef"

/-- `Aliases`: the table of names from the configuration. It is a map in the source, so no name
stands twice, and the chat of a name is found by the name alone. -/
structure Aliases where
  map : Table String (String × I64) Prod.fst

/-- The error of a name that is not in the table. -/
structure UnknownAlias where
  name : String
  deriving DecidableEq

def UnknownAlias.display (e : UnknownAlias) : String := "unknown chat alias: " ++ e.name

namespace Aliases

/-- The id of an alias name, if the table has it. -/
def get (a : Aliases) (name : String) : Option I64 := (a.map.find name).map Prod.snd

def resolve (a : Aliases) : ChatRef → Except UnknownAlias I64
  | .id n => .ok n
  | .name s =>
    match a.get s with
    | some n => .ok n
    | none => .error ⟨s⟩

end Aliases

end TelegramMcp
