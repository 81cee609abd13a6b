import Mathlib

/-!
# Fixed-width integers and text of the Rust standard library

`IntN w` is the type of `w`-bit signed integers, as the integers in range, in their order.
`IntN.wrapping` is a cast or an operation that wraps around. `toText` and `parse` are the decimal
`Display` and `FromStr`, which are inverse to each other on every value (`IntN.parse_toText`).
`trim` removes what `char::is_whitespace` accepts from both ends.
-/

namespace Rust

/-- The `w`-bit signed integers, as the integers in their range. -/
abbrev IntN (w : Nat) :=
  {n : Int // -((2 ^ (w - 1) : Nat) : Int) ≤ n ∧ n < ((2 ^ (w - 1) : Nat) : Int)}

/-- The type `i64` of Rust. -/
abbrev I64 := IntN 64
/-- The type `i32` of Rust. -/
abbrev I32 := IntN 32

namespace IntN

variable {w : Nat}

instance : LE (IntN w) := ⟨fun a b => a.val ≤ b.val⟩

instance : LT (IntN w) := ⟨fun a b => a.val < b.val⟩

instance : DecidableLE (IntN w) := fun a b => Int.decLe a.val b.val

instance : DecidableLT (IntN w) := fun a b => Int.decLt a.val b.val

instance : Min (IntN w) := ⟨fun a b => if a ≤ b then a else b⟩

instance : Max (IntN w) := ⟨fun a b => if a ≤ b then b else a⟩

instance : Ord (IntN w) := ⟨fun a b => compareOfLessAndEq a b⟩

instance : LinearOrder (IntN w) where
  le_refl a := Int.le_refl a.val
  le_trans _ _ _ := Int.le_trans
  lt_iff_le_not_ge _ _ := Int.lt_iff_le_and_not_ge
  le_antisymm _ _ hab hba := Subtype.ext (Int.le_antisymm hab hba)
  le_total a b := Int.le_total a.val b.val
  toDecidableLE := inferInstance
  toDecidableEq := inferInstance
  toDecidableLT := inferInstance

/-- The integer `n` as a value of the type, if it is in range. -/
def ofInt? (n : Int) : Option (IntN w) :=
  if h : -((2 ^ (w - 1) : Nat) : Int) ≤ n ∧ n < ((2 ^ (w - 1) : Nat) : Int) then some ⟨n, h⟩
  else none

/-- The value of a machine integer is in its range. -/
@[simp] theorem ofInt?_val (n : IntN w) : ofInt? n.val = some n := dif_pos n.2

/-- The value in range that `n` is congruent to modulo `2 ^ w`. -/
def wrapping (n : Int) : IntN w :=
  ⟨Int.bmod n (2 ^ w), by
    cases w with
    | zero => simp [Int.bmod_one]
    | succ w =>
      have h2 : 2 ^ (w + 1) = 2 * 2 ^ w := Nat.pow_succ'
      have hlo := Int.le_bmod (x := n) (m := 2 ^ (w + 1)) (Nat.two_pow_pos _)
      have hhi := Int.bmod_lt (x := n) (m := 2 ^ (w + 1)) (Nat.two_pow_pos _)
      rw [h2] at hlo hhi ⊢
      simp only [Nat.add_sub_cancel]
      push_cast at hlo hhi ⊢
      omega⟩

/-- A number in range is not changed by wrapping. -/
theorem wrapping_of_mem {n : Int}
    (h : -((2 ^ (w - 1) : Nat) : Int) ≤ n ∧ n < ((2 ^ (w - 1) : Nat) : Int)) (hw : 0 < w) :
    (wrapping n : IntN w) = ⟨n, h⟩ := by
  refine Subtype.ext ?_
  obtain ⟨k, rfl⟩ : ∃ k, w = k + 1 := ⟨w - 1, by omega⟩
  have h2 : 2 ^ (k + 1) = 2 * 2 ^ k := Nat.pow_succ'
  rw [Nat.add_sub_cancel] at h
  exact Int.bmod_eq_of_le_mul_two (by omega) (by omega)

/-- A cast or operation wraps exactly when its result is out of range. -/
theorem wrapping_val_eq_iff {n : Int} (hw : 0 < w) :
    (wrapping n : IntN w).val = n ↔
      -((2 ^ (w - 1) : Nat) : Int) ≤ n ∧ n < ((2 ^ (w - 1) : Nat) : Int) := by
  refine ⟨?_, ?_⟩
  · intro h
    rw [← h]
    exact (wrapping n).2
  · intro h
    rw [wrapping_of_mem h hw]

/-- `wrapping_sub`: the difference modulo `2 ^ w`. -/
def wrappingSub (a b : IntN w) : IntN w := wrapping (a.val - b.val)

/-- `wrapping_mul`: the product modulo `2 ^ w`. -/
def wrappingMul (a b : IntN w) : IntN w := wrapping (a.val * b.val)

/-- A difference of wrapped numbers is the wrapped difference. -/
@[simp] theorem wrappingSub_wrapping (m n : Int) :
    wrappingSub (wrapping m) (wrapping n) = (wrapping (m - n) : IntN w) :=
  Subtype.ext (Int.bmod_sub_bmod.trans Int.sub_bmod_bmod)

/-- A product of wrapped numbers is the wrapped product. -/
@[simp] theorem wrappingMul_wrapping (m n : Int) :
    wrappingMul (wrapping m) (wrapping n) = (wrapping (m * n) : IntN w) :=
  Subtype.ext (Int.bmod_mul_bmod.trans Int.mul_bmod_bmod)

/-- Wrapping before an addition changes nothing when the sum is wrapped anyway. -/
@[simp] theorem wrapping_val_add (m n : Int) :
    (wrapping ((wrapping m : IntN w).val + n) : IntN w) = wrapping (m + n) :=
  Subtype.ext Int.bmod_add_bmod

/-- The decimal text of a value, as `to_string` gives it. -/
def toText (n : IntN w) : String := toString n.val

end IntN

/-- A literal of type `I64`, whose range `decide` checks. -/
abbrev i64 (n : Int) : I64 := .wrapping n

/-- The value of a non-empty string of decimal digits. -/
def digits (cs : List Char) : Option Nat :=
  if cs ≠ [] ∧ cs.all Char.isDigit then some (Nat.ofDigitChars 10 cs 0) else none

/-- The integer that an optional sign and decimal digits denote. -/
def parseInt (s : String) : Option Int :=
  match s.toList with
  | '-' :: cs => (digits cs).map fun n => -(n : Int)
  | '+' :: cs => (digits cs).map Int.ofNat
  | cs => (digits cs).map Int.ofNat

/-- The decimal text of a value, read back; anything out of range is an error. -/
def IntN.parse {w : Nat} (s : String) : Option (IntN w) := (parseInt s).bind IntN.ofInt?

/-- `str::parse::<u64>`: an optional plus sign and decimal digits, in range. -/
def parseU64 (s : String) : Option Nat :=
  (match s.toList with
    | '+' :: cs => digits cs
    | cs => digits cs).filter (· < 2 ^ 64)

/-- The text of a natural number is a string of digits that denotes it. -/
theorem digits_toDigits (n : Nat) : digits (Nat.toDigits 10 n) = some n := by
  rw [digits, if_pos, Nat.ofDigitChars_ten_toDigits]
  exact ⟨Nat.toDigits_ne_nil, List.all_eq_true.2 fun _ hc =>
    Nat.isDigit_of_mem_toDigits (by decide) (by decide) hc⟩

/-- The decimal text of an integer denotes it. -/
theorem parseInt_toString (n : Int) : parseInt (toString n) = some n := by
  cases n with
  | ofNat m =>
    change parseInt m.repr = _
    have hd : ∀ c ∈ Nat.toDigits 10 m, c.isDigit := fun _ hc =>
      Nat.isDigit_of_mem_toDigits (by decide) (by decide) hc
    unfold parseInt
    rw [Nat.toList_repr]
    split
    · next h => exact absurd (hd '-' (by simp [h])) (by decide)
    · next h => exact absurd (hd '+' (by simp [h])) (by decide)
    · rw [digits_toDigits]; rfl
  | negSucc m =>
    change parseInt ("-" ++ (m + 1).repr) = _
    have hl : ("-" ++ (m + 1).repr).toList = '-' :: Nat.toDigits 10 (m + 1) := by simp
    rw [parseInt, hl]
    simp [digits_toDigits, Int.negSucc_eq]

/-- The text of a value parses back to it, as it is in range. -/
@[simp] theorem IntN.parse_toText {w : Nat} (n : IntN w) : IntN.parse n.toText = some n := by
  rw [parse, toText, parseInt_toString, Option.bind_some, ofInt?_val]

/-- `str::strip_prefix`: the rest of a text that starts with the prefix. -/
def stripPrefix (text s : String) : Option String :=
  if text.toList <+: s.toList then some (String.ofList (s.toList.drop text.length)) else none

/-- A text is stripped exactly when it starts with the prefix, and what is left is the rest. -/
theorem stripPrefix_eq_some_iff {text s t : String} :
    stripPrefix text s = some t ↔ s = text ++ t := by
  rw [stripPrefix]
  split
  · next h =>
    obtain ⟨rest, hrest⟩ := h
    have hdrop : s.toList.drop text.length = rest := by
      rw [← hrest, ← String.length_toList, List.drop_left]
    have hs : s = text ++ String.ofList rest := by
      rw [← String.toList_inj, String.toList_append, String.toList_ofList, hrest]
    rw [hdrop, Option.some.injEq, hs]
    refine ⟨fun h => h ▸ rfl, fun h => ?_⟩
    rw [← String.toList_inj, String.toList_append, String.toList_append] at h
    exact String.toList_inj.1 (List.append_cancel_left h)
  · next h =>
    refine iff_of_false nofun ?_
    rintro rfl
    exact h ⟨t.toList, (String.toList_append ..).symm⟩

/-- Different values have different texts. -/
theorem IntN.toText_injective {w : Nat} : Function.Injective (IntN.toText (w := w)) := by
  intro m n h
  have hparse := congrArg (IntN.parse (w := w)) h
  rwa [parse_toText, parse_toText, Option.some.injEq] at hparse

/-! ## Whitespace -/

/-- `char::is_whitespace`: the code points with the property `White_Space`. -/
def isWhitespace (c : Char) : Bool :=
  (9 ≤ c.toNat && c.toNat ≤ 13) || c.toNat == 0x20 || c.toNat == 0x85 || c.toNat == 0xA0 ||
    c.toNat == 0x1680 || (0x2000 ≤ c.toNat && c.toNat ≤ 0x200A) || c.toNat == 0x2028 ||
    c.toNat == 0x2029 || c.toNat == 0x202F || c.toNat == 0x205F || c.toNat == 0x3000

/-- `str::trim_end`, on the characters of a text. -/
def trimEnd (cs : List Char) : List Char := (cs.reverse.dropWhile isWhitespace).reverse

/-- `str::trim_start`, on the characters of a text. -/
def trimStart (cs : List Char) : List Char := cs.dropWhile isWhitespace

/-- `str::trim`, on the characters of a text. -/
def trim (cs : List Char) : List Char := trimEnd (cs.dropWhile isWhitespace)

/-- What `trim_start` takes off is whitespace at the start. -/
theorem trimStart_append (cs : List Char) :
    ∃ gap, (∀ c ∈ gap, isWhitespace c) ∧ gap ++ trimStart cs = cs :=
  ⟨cs.takeWhile isWhitespace, fun _ hc => List.mem_takeWhile_imp hc,
    List.takeWhile_append_dropWhile⟩

/-- What `trim_end` takes off is whitespace at the end. -/
theorem trimEnd_append (cs : List Char) :
    ∃ gap, (∀ c ∈ gap, isWhitespace c) ∧ trimEnd cs ++ gap = cs :=
  ⟨cs.rtakeWhile isWhitespace, fun _ hc => List.mem_rtakeWhile_imp hc,
    List.rdropWhile_append_rtakeWhile⟩

/-- What is left by `trim_start` starts with no whitespace. -/
theorem trimStart_head? {cs : List Char} {c : Char} (h : (trimStart cs).head? = some c) :
    isWhitespace c = false := by
  have hhead := List.head?_dropWhile_not isWhitespace cs
  rw [trimStart] at h
  rw [h] at hhead
  exact hhead

/-- A text that does not start with whitespace is not trimmed away. -/
theorem trimEnd_ne_nil {cs : List Char} {c : Char} (h : cs.head? = some c)
    (hc : isWhitespace c = false) : trimEnd cs ≠ [] := by
  intro hnil
  have hall := List.rdropWhile_eq_nil_iff.1 hnil c (List.mem_of_mem_head? h)
  rw [hc] at hall
  cases hall

end Rust
