import TelegramMcp.Lib.Rust

/-!
# JSON values

`Json` is `serde_json::Value`: numbers are integers or keep the text of a float, an object is its
entries by key. `get`, `asI64`, `asU64`, `asBool`, `asStr` and `asArray` are the accessors of the
same names. `toText` is the compact printer, whose text is on one line whatever the value is
(`oneLine_toText`): strings are escaped, and a float is a numeral. Parsing is not modelled; where
the programs print a value and parse the text back, the reader is a parameter or the value itself is
passed on.
-/

namespace TelegramMcp

open Rust

/-- A character of a printed float: `ryu` writes digits, signs, a point and an exponent. -/
def isFloatChar (c : Char) : Bool :=
  c.isDigit || c = '-' || c = '+' || c = '.' || c = 'e' || c = 'E'

/-- The text of a float: what `ryu` prints, of which this project uses only that its characters are
those of a number. -/
structure FloatText where
  text : String
  numeral : text.toList.all isFloatChar
  deriving Repr

/-- `serde_json::Value`, with the entries of an object in their order and the text of a float for
it. -/
inductive Json
  | null
  | bool (b : Bool)
  | int (n : Int)
  | float (n : FloatText)
  | str (s : String)
  | arr (items : List Json)
  | obj (entries : List (String × Json))
  deriving Inhabited, Repr

namespace Json

/-- `Value::get`: the value of an object under a key. -/
def get (v : Json) (key : String) : Option Json :=
  match v with
  | .obj entries => entries.lookup key
  | _ => none

/-- `Value::as_i64`: an integer that fits in 64 bits, signed. -/
def asI64 : Json → Option I64
  | .int n => IntN.ofInt? n
  | _ => none

/-- `Value::as_u64`: an integer that fits in 64 bits, unsigned. -/
def asU64 : Json → Option Nat
  | .int n => if 0 ≤ n ∧ n < 2 ^ 64 then some n.toNat else none
  | _ => none

/-- `Value::as_bool`: a boolean, if the value is one. -/
def asBool : Json → Option Bool
  | .bool b => some b
  | _ => none

/-- `Value::as_str`: a string, if the value is one. -/
def asStr : Json → Option String
  | .str s => some s
  | _ => none

/-- `Value::as_array`: the items of an array, if the value is one. -/
def asArray : Json → Option (List Json)
  | .arr items => some items
  | _ => none

/-- A value of type `i64` as JSON, which is an integer. -/
def ofI64 (n : I64) : Json := .int n.val

/-- The JSON of an `i64` has it as its integer. -/
@[simp] theorem asI64_ofI64 (n : I64) : (ofI64 n).asI64 = some n := IntN.ofInt?_val n

/-- An optional value as JSON: `null` when there is none. -/
def ofOption {α : Type} (f : α → Json) : Option α → Json
  | some a => f a
  | none => .null

/-! ## Text -/

/-- A character in a JSON string, as `serde_json` writes it: the two that end or escape are escaped,
and so are the control characters, some of them by a letter. -/
def escape : Char → String
  | '"' => "\\\""
  | '\\' => "\\\\"
  | '\n' => "\\n"
  | '\r' => "\\r"
  | '\t' => "\\t"
  | '\x08' => "\\b"
  | '\x0c' => "\\f"
  | c =>
    if c.toNat < 0x20 then
      "\\u00" ++ String.ofList [(c.toNat / 16).digitChar, (c.toNat % 16).digitChar]
    else c.toString

/-- A JSON string: the escaped text between quotes. -/
def quote (s : String) : String := "\"" ++ String.join (s.toList.map escape) ++ "\""

mutual

/-- A value as `serde_json::to_string` prints it, without blanks between its parts. -/
def toText : Json → String
  | .null => "null"
  | .bool true => "true"
  | .bool false => "false"
  | .int n => toString n
  | .float n => n.text
  | .str s => quote s
  | .arr items => "[" ++ itemsText items ++ "]"
  | .obj entries => "\x7b" ++ entriesText entries ++ "\x7d"

/-- The items of an array as they are printed, with commas between them. -/
def itemsText : List Json → String
  | [] => ""
  | [v] => v.toText
  | v :: rest => v.toText ++ "," ++ itemsText rest

/-- The entries of an object as they are printed, with commas between them. -/
def entriesText : List (String × Json) → String
  | [] => ""
  | [(key, v)] => quote key ++ ":" ++ v.toText
  | (key, v) :: rest => quote key ++ ":" ++ v.toText ++ "," ++ entriesText rest

end

end Json

/-- A text without a newline, which is what a pipe reads as one line. -/
def OneLine (text : String) : Prop := '\n' ∉ text.toList

instance (text : String) : Decidable (OneLine text) := inferInstanceAs (Decidable (¬ _))

/-- A text in two parts is on one line when both parts are. -/
@[simp] theorem oneLine_append {a b : String} : OneLine (a ++ b) ↔ OneLine a ∧ OneLine b := by
  rw [OneLine, String.toList_append, List.mem_append, not_or]
  rfl

/-- Texts on one line make one on one line. -/
theorem oneLine_join {texts : List String} (h : ∀ text ∈ texts, OneLine text) :
    OneLine (String.join texts) := by
  induction texts with
  | nil => exact List.not_mem_nil
  | cons text texts ih =>
    rw [String.join_cons, oneLine_append]
    exact ⟨h text List.mem_cons_self, ih fun t ht => h t (List.mem_cons_of_mem _ ht)⟩

/-- A newline is written with a letter, and no other character becomes one. -/
theorem oneLine_escape (c : Char) : OneLine (Json.escape c) := by
  have hhex : ∀ n < 16, n.digitChar ≠ '\n' := by decide
  unfold Json.escape
  split
  case h_8 _ _ hne _ _ _ _ =>
    split
    · next hlt =>
      refine oneLine_append.2 ⟨by decide, ?_⟩
      rw [OneLine, String.toList_ofList, List.mem_pair, not_or]
      exact ⟨(hhex _ (by omega)).symm, (hhex _ (by omega)).symm⟩
    · intro hmem
      have heq : c.toString.toList = [c] := String.toList_singleton c
      rw [heq, List.mem_singleton] at hmem
      exact hne hmem.symm
  all_goals decide

/-- A JSON string is on one line, as every control character in it is escaped. -/
theorem oneLine_quote (s : String) : OneLine (Json.quote s) := by
  rw [Json.quote, oneLine_append, oneLine_append]
  refine ⟨⟨by decide, oneLine_join ?_⟩, by decide⟩
  intro text htext
  obtain ⟨c, -, rfl⟩ := List.mem_map.1 htext
  exact oneLine_escape c

/-- A natural number is written in digits, so on one line. -/
theorem oneLine_repr (n : Nat) : OneLine n.repr := by
  intro hmem
  have hdigit : ('\n').isDigit := by
    refine Nat.isDigit_of_mem_toDigits (b := 10) (n := n) (by decide) (by decide) ?_
    rw [← Nat.toList_repr]
    exact hmem
  exact absurd hdigit (by decide)

/-- An integer is a natural number, perhaps behind a sign. -/
theorem oneLine_int (n : Int) : OneLine (toString n) := by
  cases n with
  | ofNat n => exact oneLine_repr n
  | negSucc n => exact oneLine_append.2 ⟨by decide, oneLine_repr (n + 1)⟩

/-- A float has no newline among its characters. -/
theorem oneLine_float (n : FloatText) : OneLine n.text := fun hmem =>
  absurd (List.all_eq_true.1 n.numeral _ hmem) (by decide)

/-- The items of an array are on one line together, when each of them is. -/
theorem oneLine_itemsText {items : List Json} (h : ∀ v ∈ items, OneLine v.toText) :
    OneLine (Json.itemsText items) := by
  induction items with
  | nil => exact List.not_mem_nil
  | cons v items ih =>
    rw [List.forall_mem_cons] at h
    cases items with
    | nil => exact h.1
    | cons v' items =>
      rw [Json.itemsText, oneLine_append, oneLine_append]
      · exact ⟨⟨h.1, by decide⟩, ih h.2⟩
      · exact List.cons_ne_nil _ _

/-- So are the entries of an object, when their values are. -/
theorem oneLine_entriesText {entries : List (String × Json)}
    (h : ∀ e ∈ entries, OneLine e.2.toText) : OneLine (Json.entriesText entries) := by
  induction entries with
  | nil => exact List.not_mem_nil
  | cons e entries ih =>
    obtain ⟨key, v⟩ := e
    rw [List.forall_mem_cons] at h
    have hentry : OneLine (Json.quote key ++ ":" ++ v.toText) := by
      rw [oneLine_append, oneLine_append]
      exact ⟨⟨oneLine_quote key, by decide⟩, h.1⟩
    cases entries with
    | nil => exact hentry
    | cons e' entries =>
      rw [Json.entriesText, oneLine_append, oneLine_append]
      · exact ⟨⟨hentry, by decide⟩, ih h.2⟩
      · exact List.cons_ne_nil _ _

/-- Every value is printed on one line: by induction on the value, as its items and entries are
smaller. -/
theorem oneLine_toText (v : Json) : OneLine v.toText := by
  cases v with
  | null => decide
  | bool b =>
    cases b with
    | true => decide
    | false => decide
  | int n => exact oneLine_int n
  | float n => exact oneLine_float n
  | str s => exact oneLine_quote s
  | arr items =>
    rw [Json.toText, oneLine_append, oneLine_append]
    exact ⟨⟨by decide, oneLine_itemsText fun v hv => oneLine_toText v⟩, by decide⟩
  | obj entries =>
    rw [Json.toText, oneLine_append, oneLine_append]
    exact ⟨⟨by decide, oneLine_entriesText fun e he => oneLine_toText e.2⟩, by decide⟩
termination_by sizeOf v
decreasing_by
  · have hlt := List.sizeOf_lt_of_mem hv
    simp only [Json.arr.sizeOf_spec]
    omega
  · have hlt := List.sizeOf_lt_of_mem he
    obtain ⟨key, v⟩ := e
    simp only [Json.obj.sizeOf_spec, Prod.mk.sizeOf_spec] at hlt ⊢
    omega

end TelegramMcp
