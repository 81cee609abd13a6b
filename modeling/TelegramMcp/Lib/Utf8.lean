import TelegramMcp.Lib.Rust

/-!
# Byte offsets into a text

A text is the list of its characters and an offset is a number of bytes of its UTF-8 encoding. Only
the offsets between two characters cut the text (`splitAt?_eq_some_iff`). `floorBoundary` is the
last of them up to a bound (`floorBoundary_greatest`), and `rfind` finds one (`rfind_eq_some`). In
the bytes of a text, those of ASCII characters stand for these only (`mem_encode_iff`).
-/

namespace Utf8

open String Rust

/-- The number of UTF-16 code units of a text. -/
def utf16Len (cs : List Char) : Nat := (cs.map fun c => if c.toNat ≤ 0xFFFF then 1 else 2).sum

/-- The characters before and after a byte offset; inside a character there are none. -/
def splitAt? : List Char → Nat → Option (List Char × List Char)
  | cs, 0 => some ([], cs)
  | [], _ + 1 => none
  | c :: cs, i + 1 =>
    if c.utf8Size ≤ i + 1 then
      (splitAt? cs (i + 1 - c.utf8Size)).map fun (before, after) => (c :: before, after)
    else none

/-- `str::is_char_boundary`: the offset is between two characters, or at an end. -/
def isCharBoundary (cs : List Char) (i : Nat) : Bool := (splitAt? cs i).isSome

/-- The last character boundary at or before an offset, found by stepping back. -/
def floorBoundary (cs : List Char) : Nat → Nat
  | 0 => 0
  | i + 1 => if isCharBoundary cs (i + 1) then i + 1 else floorBoundary cs i

/-- `str::rfind` of a character: the byte offset of its last occurrence. -/
def rfind (p : Char) : List Char → Option Nat
  | [] => none
  | c :: cs =>
    match rfind p cs with
    | some i => some (c.utf8Size + i)
    | none => if c = p then some 0 else none

/-- A character repeated takes its bytes as often. -/
theorem utf8Len_replicate (n : Nat) (c : Char) :
    utf8Len (List.replicate n c) = n * c.utf8Size := by
  induction n with
  | zero => rw [List.replicate_zero, utf8Len_nil, Nat.zero_mul]
  | succ n ih => rw [List.replicate_succ, utf8Len_cons, ih, Nat.succ_mul]

/-- A character has as many bytes as UTF-16 code units, or more. -/
theorem utf16Len_le_utf8Len (cs : List Char) : utf16Len cs ≤ utf8Len cs := by
  induction cs with
  | nil => exact Nat.le_refl 0
  | cons c cs ih =>
    have hc : (if c.toNat ≤ 0xFFFF then 1 else 2) ≤ c.utf8Size := by
      split
      · exact c.utf8Size_pos
      · next hbig =>
        by_contra hlt
        have hone : c.utf8Size = 1 := by have := c.utf8Size_pos; omega
        have hsmall := UInt32.le_iff_toNat_le.1 (Char.utf8Size_eq_one_iff.1 hone)
        have h127 : (127 : UInt32).toNat = 127 := rfl
        have hval : c.val.toNat = c.toNat := rfl
        omega
    simp only [utf16Len, List.map_cons, List.sum_cons, utf8Len_cons] at ih ⊢
    omega

/-- The offset after a part of the text splits it there. -/
theorem splitAt?_append (a b : List Char) : splitAt? (a ++ b) (utf8Len a) = some (a, b) := by
  induction a with
  | nil => cases b <;> rfl
  | cons c a ih =>
    obtain ⟨k, hk⟩ : ∃ k, utf8Len (c :: a) = k + 1 :=
      ⟨utf8Len (c :: a) - 1, by have := c.utf8Size_pos; rw [utf8Len_cons]; omega⟩
    have hle : c.utf8Size ≤ k + 1 := by rw [← hk, utf8Len_cons]; omega
    have hrest : k + 1 - c.utf8Size = utf8Len a := by rw [← hk, utf8Len_cons]; omega
    rw [hk, List.cons_append, splitAt?, if_pos hle, hrest, ih]
    rfl

/-- Splitting at an offset loses nothing, and the offset is the length of the first part. -/
theorem splitAt?_eq_some_iff {cs a b : List Char} {i : Nat} :
    splitAt? cs i = some (a, b) ↔ a ++ b = cs ∧ utf8Len a = i := by
  refine ⟨?_, ?_⟩
  · intro h
    induction cs, i using splitAt?.induct generalizing a b with
    | case1 cs =>
      rw [splitAt?] at h
      cases h
      exact ⟨rfl, rfl⟩
    | case2 i => cases h
    | case3 c cs i hle ih =>
      rw [splitAt?, if_pos hle, Option.map_eq_some_iff] at h
      obtain ⟨⟨a', b'⟩, hrest, heq⟩ := h
      cases heq
      obtain ⟨rfl, hlen⟩ := ih hrest
      exact ⟨rfl, by rw [utf8Len_cons]; omega⟩
    | case4 c cs i hle =>
      rw [splitAt?, if_neg hle] at h
      cases h
  · rintro ⟨rfl, rfl⟩
    exact splitAt?_append a b

/-- An offset is a boundary when it is between two parts of the text. -/
theorem isCharBoundary_iff {cs : List Char} {i : Nat} :
    isCharBoundary cs i ↔ ∃ a b, a ++ b = cs ∧ utf8Len a = i := by
  rw [isCharBoundary, Option.isSome_iff_exists]
  refine ⟨?_, ?_⟩
  · rintro ⟨⟨a, b⟩, h⟩
    exact ⟨a, b, splitAt?_eq_some_iff.1 h⟩
  · rintro ⟨a, b, h⟩
    exact ⟨(a, b), splitAt?_eq_some_iff.2 h⟩

/-- The start of a text is a boundary. -/
theorem isCharBoundary_zero (cs : List Char) : isCharBoundary cs 0 :=
  isCharBoundary_iff.2 ⟨[], cs, rfl, rfl⟩

/-- Stepping back ends at a boundary, at the latest at the start. -/
theorem isCharBoundary_floorBoundary (cs : List Char) (i : Nat) :
    isCharBoundary cs (floorBoundary cs i) := by
  induction i with
  | zero => exact isCharBoundary_zero cs
  | succ i ih =>
    rw [floorBoundary]
    split
    · next h => exact h
    · exact ih

/-- The boundary found is not beyond the offset. -/
theorem floorBoundary_le (cs : List Char) (i : Nat) : floorBoundary cs i ≤ i := by
  induction i with
  | zero => exact Nat.le_refl 0
  | succ i ih =>
    rw [floorBoundary]
    split
    · exact Nat.le_refl _
    · omega

/-- The boundary found is the last one at or before the offset. -/
theorem floorBoundary_greatest {cs : List Char} {i j : Nat} (hj : isCharBoundary cs j)
    (hle : j ≤ i) : j ≤ floorBoundary cs i := by
  induction i with
  | zero => exact hle
  | succ i ih =>
    rw [floorBoundary]
    split
    · exact hle
    · next hnot =>
      have hne : j ≠ i + 1 := fun heq => hnot (heq ▸ hj)
      exact ih (by omega)

/-- What is found is an occurrence of the character, at a boundary. -/
theorem rfind_eq_some {p : Char} {cs : List Char} {i : Nat} (h : rfind p cs = some i) :
    ∃ a b, a ++ p :: b = cs ∧ utf8Len a = i := by
  induction cs generalizing i with
  | nil => cases h
  | cons c cs ih =>
    rw [rfind] at h
    split at h
    · next j hj =>
      cases h
      obtain ⟨a, b, rfl, rfl⟩ := ih hj
      exact ⟨c :: a, b, rfl, by rw [utf8Len_cons]; omega⟩
    · split at h
      · next hc =>
        cases h
        exact ⟨[], cs, by rw [hc]; rfl, rfl⟩
      · cases h

/-! ## Bytes -/

/-- The bytes of a text: `str::as_bytes`. -/
def encode (s : String) : List UInt8 := s.toByteArray.data.toList

/-- The text with these bytes, if there is one: `str::from_utf8`. -/
def decode (bytes : List UInt8) : Option String := String.fromUTF8? ⟨bytes.toArray⟩

/-- Different texts have different bytes. -/
theorem encode_injective : Function.Injective encode := by
  intro s t h
  rw [encode, encode, Array.toList_inj] at h
  exact String.toByteArray_inj.1 (ByteArray.ext h)

/-- The bytes of two texts in a row are those of the one and of the other. -/
@[simp] theorem encode_append (s t : String) : encode (s ++ t) = encode s ++ encode t := by
  rw [encode, encode, encode, String.toByteArray_append, ByteArray.data_append, Array.toList_append]

/-- The bytes of a text are decoded to it. -/
theorem decode_encode (s : String) : decode (encode s) = some s := by
  rw [decode, encode, Array.toArray_toList, String.fromUTF8?, dif_pos s.isValidUTF8]
  rfl

/-- Bytes decode to a text exactly when they are its encoding. -/
theorem decode_eq_some_iff {bytes : List UInt8} {s : String} :
    decode bytes = some s ↔ bytes = encode s := by
  refine ⟨?_, ?_⟩
  · intro h
    rw [decode, String.fromUTF8?] at h
    split at h
    · cases h
      rfl
    · cases h
  · rintro rfl
    exact decode_encode s

/-- The bytes of a text are those of its characters, one after another. -/
theorem encode_eq_flatMap (s : String) : encode s = s.toList.flatMap String.utf8EncodeChar := by
  rw [encode, ← String.utf8Encode_toList, List.utf8Encode, List.data_toByteArray,
    List.toList_toArray]

/-- An ASCII character is one byte, which is its code. -/
theorem utf8EncodeChar_ascii {c : Char} (h : c.toNat < 128) :
    String.utf8EncodeChar c = [UInt8.ofNat c.toNat] :=
  if_pos (Nat.le_of_lt_succ h)

/-- A character that is not ASCII has no byte of one. -/
theorem le_of_mem_utf8EncodeChar {c : Char} (h : 128 ≤ c.toNat) :
    ∀ b ∈ String.utf8EncodeChar c, 128 ≤ b.toNat := by
  have hlt : ¬ c.val.toNat ≤ 127 := Nat.not_le.2 h
  unfold String.utf8EncodeChar
  dsimp only
  rw [if_neg hlt]
  split
  · simp only [List.forall_mem_cons, UInt8.toNat_ofNat']
    refine ⟨by omega, by omega, nofun⟩
  · split
    · simp only [List.forall_mem_cons, UInt8.toNat_ofNat']
      refine ⟨by omega, by omega, by omega, nofun⟩
    · simp only [List.forall_mem_cons, UInt8.toNat_ofNat']
      refine ⟨by omega, by omega, by omega, by omega, nofun⟩

/-- An ASCII byte in the bytes of a text stands for its character only. -/
theorem mem_encode_iff {s : String} {c : Char} (h : c.toNat < 128) :
    UInt8.ofNat c.toNat ∈ encode s ↔ c ∈ s.toList := by
  rw [encode_eq_flatMap, List.mem_flatMap]
  refine ⟨?_, fun hc => ⟨c, hc, by rw [utf8EncodeChar_ascii h]; exact List.mem_singleton_self _⟩⟩
  rintro ⟨d, hd, hmem⟩
  by_cases hascii : d.toNat < 128
  · rw [utf8EncodeChar_ascii hascii, List.mem_singleton] at hmem
    have heq := congrArg UInt8.toNat hmem
    rw [UInt8.toNat_ofNat', UInt8.toNat_ofNat', Nat.mod_eq_of_lt (by omega),
      Nat.mod_eq_of_lt (by omega)] at heq
    rwa [Char.toNat_inj.1 heq]
  · have hle := le_of_mem_utf8EncodeChar (Nat.le_of_not_lt hascii) _ hmem
    rw [UInt8.toNat_ofNat', Nat.mod_eq_of_lt (by omega)] at hle
    omega

/-- The last byte is an ASCII one exactly when the last character is this character. -/
theorem getLast?_encode_iff {s : String} {c : Char} (h : c.toNat < 128) :
    (encode s).getLast? = some (UInt8.ofNat c.toNat) ↔ s.toList.getLast? = some c := by
  rw [encode_eq_flatMap]
  rcases List.eq_nil_or_concat s.toList with hnil | ⟨cs, d, hcs⟩
  · rw [hnil]
    exact iff_of_false nofun nofun
  · have hne : String.utf8EncodeChar d ≠ [] := String.utf8EncodeChar_ne_nil
    rw [hcs, List.concat_eq_append, List.flatMap_append, List.flatMap_singleton,
      List.getLast?_append_of_ne_nil _ hne, List.getLast?_concat, Option.some.injEq]
    by_cases hascii : d.toNat < 128
    · rw [utf8EncodeChar_ascii hascii, List.getLast?_singleton, Option.some.injEq]
      refine ⟨fun heq => ?_, fun heq => heq ▸ rfl⟩
      have hnat := congrArg UInt8.toNat heq
      rw [UInt8.toNat_ofNat', UInt8.toNat_ofNat', Nat.mod_eq_of_lt (by omega),
        Nat.mod_eq_of_lt (by omega)] at hnat
      exact Char.toNat_inj.1 hnat
    · refine iff_of_false ?_ (fun heq => hascii (heq ▸ h))
      intro hlast
      have hle := le_of_mem_utf8EncodeChar (Nat.le_of_not_lt hascii) _ (List.mem_of_getLast? hlast)
      rw [UInt8.toNat_ofNat', Nat.mod_eq_of_lt (by omega)] at hle
      omega

end Utf8
