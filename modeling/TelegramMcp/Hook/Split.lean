import TelegramMcp.Lib.Utf8

/-!
# Splitting the last response into messages

`splitMessage` cuts a text into chunks of at most `maxLen` bytes, at the last newline that fits
where there is one. With room for a character in every chunk it terminates, and the chunks are the
text but for whitespace where they meet (`splitMessage_chunks`).
-/

namespace TelegramMcp.Hook

open String Rust Utf8

/-- `TELEGRAM_MAX_MESSAGE_BYTES`: the Bot API limit on a message, taken as bytes. -/
def telegramMaxMessageBytes : Nat := 4096

/-- Where the loop cuts: at the last newline before the boundary, unless it comes first. -/
def cutOffset (maxLen : Nat) (remaining : List Char) : Option Nat := do
  let boundary := floorBoundary remaining maxLen
  let (slice, _) ← splitAt? remaining boundary
  let cut := (rfind '\n' slice).getD boundary
  return if cut = 0 then boundary else cut

/-- The loop, for so many iterations. It has no result if it is not through by then, or if it cuts
inside a character. -/
def splitLoop (maxLen fuel : Nat) (remaining : List Char) : Option (List (List Char)) :=
  if maxLen < utf8Len remaining then
    match fuel with
    | 0 => none
    | fuel + 1 => do
      let cut ← cutOffset maxLen remaining
      let (chunk, rest) ← splitAt? remaining cut
      let chunks ← splitLoop maxLen fuel (trimStart rest)
      return trimEnd chunk :: chunks
  else some (if remaining = [] then [] else [remaining])

/-- `split_message`: a text that is short enough is one chunk, even when it is empty. -/
def splitMessage (fuel : Nat) (text : String) (maxLen : Nat) : Option (List String) :=
  if text.utf8ByteSize ≤ maxLen then some [text]
  else (splitLoop maxLen fuel text.toList).map (List.map String.ofList)

/-! ## One cut -/

section
variable {maxLen : Nat} {remaining : List Char}

/-- A chunk of four bytes has room for a character, so a cut is never empty. -/
theorem cutOffset_spec (h4 : 4 ≤ maxLen) (hlong : maxLen < utf8Len remaining) :
    ∃ chunk rest, chunk ≠ [] ∧ chunk ++ rest = remaining ∧ utf8Len chunk ≤ maxLen ∧
      cutOffset maxLen remaining = some (utf8Len chunk) := by
  obtain ⟨slice, rest, hslice, hlen⟩ :=
    isCharBoundary_iff.1 (isCharBoundary_floorBoundary remaining maxLen)
  have hle : utf8Len slice ≤ maxLen := hlen ▸ floorBoundary_le remaining maxLen
  have hne : slice ≠ [] := by
    cases remaining with
    | nil => exact absurd hlong (Nat.not_lt_zero _)
    | cons c cs =>
      have hbound : isCharBoundary (c :: cs) c.utf8Size :=
        isCharBoundary_iff.2 ⟨[c], cs, rfl, by simp⟩
      have hfirst := floorBoundary_greatest hbound (c.utf8Size_le_four.trans h4)
      have hpos := c.utf8Size_pos
      rintro rfl
      rw [← hlen, utf8Len_nil] at hfirst
      omega
  have hcut : cutOffset maxLen remaining =
      some (if (rfind '\n' slice).getD (utf8Len slice) = 0 then utf8Len slice
        else (rfind '\n' slice).getD (utf8Len slice)) := by
    have hsplit := splitAt?_eq_some_iff.2 ⟨hslice, hlen⟩
    rw [cutOffset, hsplit, ← hlen]
    rfl
  rw [hcut]
  cases hfind : rfind '\n' slice with
  | none => exact ⟨slice, rest, hne, hslice, hle, by simp⟩
  | some i =>
    rw [Option.getD_some]
    split
    · exact ⟨slice, rest, hne, hslice, hle, rfl⟩
    · next hzero =>
      obtain ⟨a, b, rfl, rfl⟩ := rfind_eq_some hfind
      refine ⟨a, '\n' :: b ++ rest, ?_, ?_, ?_, rfl⟩
      · rintro rfl
        exact hzero rfl
      · rw [← hslice, List.append_assoc]
      · rw [utf8Len_append] at hle
        omega

/-- One iteration: the chunk and what is left of the text. -/
theorem splitLoop_step (h4 : 4 ≤ maxLen) (hlong : maxLen < utf8Len remaining) :
    ∃ chunk rest, chunk ≠ [] ∧ chunk ++ rest = remaining ∧ utf8Len chunk ≤ maxLen ∧
      ∀ fuel, splitLoop maxLen (fuel + 1) remaining =
        (splitLoop maxLen fuel (trimStart rest)).map (trimEnd chunk :: ·) := by
  obtain ⟨chunk, rest, hne, hsplit, hle, hcut⟩ := cutOffset_spec h4 hlong
  refine ⟨chunk, rest, hne, hsplit, hle, ?_⟩
  intro fuel
  have hat := splitAt?_eq_some_iff.2 ⟨hsplit, rfl⟩
  rw [splitLoop, if_pos hlong]
  simp only [hcut, hat, Option.bind_eq_bind, Option.bind_some]
  cases splitLoop maxLen fuel (trimStart rest) <;> rfl

/-- What is left of a text is the last chunk when it is short enough, unless it is empty. -/
theorem splitLoop_short (hshort : utf8Len remaining ≤ maxLen) (fuel : Nat) :
    splitLoop maxLen fuel remaining = some (if remaining = [] then [] else [remaining]) := by
  rw [splitLoop.eq_def, if_neg (Nat.not_lt.2 hshort)]

end

/-! ## The chunks -/

/-- The text is the chunks with nothing but whitespace after each. -/
inductive Rejoins : List Char → List (List Char) → Prop
  | nil : Rejoins [] []
  | cons {rest : List Char} {chunks : List (List Char)} (chunk gap : List Char)
      (hgap : ∀ c ∈ gap, isWhitespace c) (hrest : Rejoins rest chunks) :
      Rejoins (chunk ++ gap ++ rest) (chunk :: chunks)

/-- A text that is one chunk rejoins from it. -/
theorem Rejoins.single (text : List Char) : Rejoins text [text] := by
  have h := Rejoins.cons text [] (fun _ hc => nomatch hc) .nil
  simpa using h

/-- Without a chunk there is no text. -/
theorem Rejoins.of_nil {text : List Char} (h : Rejoins text []) : text = [] := by
  cases h
  rfl

/-- With one chunk, the text is the chunk and the whitespace after it. -/
theorem Rejoins.of_singleton {text chunk : List Char} (h : Rejoins text [chunk]) :
    ∃ gap, (∀ c ∈ gap, isWhitespace c) ∧ text = chunk ++ gap := by
  cases h with
  | cons _ gap hgap hrest => exact ⟨gap, hgap, by rw [hrest.of_nil, List.append_nil]⟩

/-- A chunk trimmed at its end, with the rest trimmed at its start. -/
theorem Rejoins.trimmed {chunk rest : List Char} {chunks : List (List Char)}
    (h : Rejoins (trimStart rest) chunks) : Rejoins (chunk ++ rest) (trimEnd chunk :: chunks) := by
  obtain ⟨left, hleft, hchunk⟩ := trimEnd_append chunk
  obtain ⟨right, hright, hrest⟩ := trimStart_append rest
  have hgap : ∀ c ∈ left ++ right, isWhitespace c := by
    intro c hc
    rcases List.mem_append.1 hc with hc | hc
    · exact hleft c hc
    · exact hright c hc
  have hcons := Rejoins.cons (trimEnd chunk) (left ++ right) hgap h
  rwa [← List.append_assoc, hchunk, List.append_assoc, hrest] at hcons

/-- Trimming a chunk makes it no longer. -/
theorem utf8Len_trimEnd_le (cs : List Char) : utf8Len (trimEnd cs) ≤ utf8Len cs := by
  obtain ⟨gap, -, hgap⟩ := trimEnd_append cs
  have hlen := congrArg utf8Len hgap
  rw [utf8Len_append] at hlen
  omega

/-- The loop is through after at most one iteration a character. By induction on the iterations:
each takes a character at least off the text, and leaves one that starts with no whitespace. -/
theorem splitLoop_spec {maxLen : Nat} (h4 : 4 ≤ maxLen) (fuel : Nat) (remaining : List Char)
    (hfuel : remaining.length ≤ fuel) :
    ∃ chunks, splitLoop maxLen fuel remaining = some chunks ∧ Rejoins remaining chunks ∧
      (∀ chunk ∈ chunks, utf8Len chunk ≤ maxLen) ∧
      ((∀ c, remaining.head? = some c → isWhitespace c = false) → [] ∉ chunks) := by
  induction fuel generalizing remaining with
  | zero =>
    obtain rfl : remaining = [] := List.eq_nil_of_length_eq_zero (by omega)
    exact ⟨[], splitLoop_short (Nat.zero_le _) 0, .nil, by simp, by simp⟩
  | succ fuel ih =>
    by_cases hlong : maxLen < utf8Len remaining
    · obtain ⟨chunk, rest, hne, rfl, hle, hstep⟩ := splitLoop_step h4 hlong
      have hpos : 0 < chunk.length := List.length_pos_of_ne_nil hne
      have hdrop : (trimStart rest).length ≤ rest.length :=
        (List.dropWhile_suffix isWhitespace).length_le
      rw [List.length_append] at hfuel
      obtain ⟨chunks, hrun, hjoin, hbytes, hfull⟩ := ih (trimStart rest) (by omega)
      refine ⟨trimEnd chunk :: chunks, by rw [hstep, hrun]; rfl, hjoin.trimmed, ?_, ?_⟩
      · intro piece hpiece
        rcases List.mem_cons.1 hpiece with rfl | hpiece
        · exact (utf8Len_trimEnd_le chunk).trans hle
        · exact hbytes piece hpiece
      · intro hstart hmem
        rcases List.mem_cons.1 hmem with hnil | hmem
        · obtain ⟨c, cs, rfl⟩ := List.exists_cons_of_ne_nil hne
          exact trimEnd_ne_nil rfl (hstart c rfl) hnil.symm
        · exact hfull (fun c hc => trimStart_head? hc) hmem
    · rw [splitLoop_short (Nat.not_lt.1 hlong)]
      refine ⟨_, rfl, ?_, ?_, ?_⟩
      · split
        · next hnil => exact hnil ▸ .nil
        · exact .single remaining
      · intro chunk hchunk
        split at hchunk
        · cases hchunk
        · rw [List.mem_singleton.1 hchunk]
          exact Nat.not_lt.1 hlong
      · intro _ hmem
        split at hmem
        · cases hmem
        · next hne => exact hne (List.mem_singleton.1 hmem).symm

/-- More iterations change nothing once the loop is through. -/
theorem splitLoop_mono {maxLen fuel fuel' : Nat} {remaining : List Char}
    {chunks : List (List Char)} (h : splitLoop maxLen fuel remaining = some chunks)
    (hle : fuel ≤ fuel') : splitLoop maxLen fuel' remaining = some chunks := by
  induction fuel generalizing fuel' remaining chunks with
  | zero =>
    rw [splitLoop] at h
    split at h
    · cases h
    · next hshort => rwa [splitLoop_short (Nat.not_lt.1 hshort)]
  | succ fuel ih =>
    obtain ⟨fuel', rfl⟩ : ∃ k, fuel' = k + 1 := ⟨fuel' - 1, by omega⟩
    rw [splitLoop] at h
    rw [splitLoop]
    split at h
    · next hlong =>
      rw [if_pos hlong]
      simp only [Option.bind_eq_bind, Option.bind_eq_some_iff] at h ⊢
      obtain ⟨cut, hcut, ⟨chunk, rest⟩, hat, rest', hrest, hret⟩ := h
      exact ⟨cut, hcut, (chunk, rest), hat, rest', ih hrest (by omega), hret⟩
    · next hshort => rwa [if_neg hshort]

/-! ## The messages -/

/-- The chunks of a text are fit to be sent, and lose nothing but whitespace. -/
structure Splits (text : String) (maxLen : Nat) (chunks : List String) : Prop where
  rejoins : Rejoins text.toList (chunks.map String.toList)
  bytes : ∀ chunk ∈ chunks, chunk.utf8ByteSize ≤ maxLen
  units : ∀ chunk ∈ chunks, utf16Len chunk.toList ≤ maxLen
  nonempty : ∀ first last, text.toList.head? = some first → text.toList.getLast? = some last →
    isWhitespace first = false → isWhitespace last = false → "" ∉ chunks

/-- The bytes of a text are those of its characters. -/
theorem utf8ByteSize_eq (s : String) : s.utf8ByteSize = utf8Len s.toList := by
  rw [← utf8ByteSize_ofList, String.ofList_toList]

/-- With room for a character, a text is split after at most one iteration a character, into chunks
that are short enough in bytes and in UTF-16 units, made of whole characters, not empty where the
text starts and ends visibly, and the text again but for whitespace where they meet. -/
theorem splitMessage_chunks (text : String) (maxLen : Nat) (h : 4 ≤ maxLen) :
    ∃ chunks, (∀ fuel, text.length ≤ fuel → splitMessage fuel text maxLen = some chunks) ∧
      Splits text maxLen chunks := by
  by_cases hshort : text.utf8ByteSize ≤ maxLen
  · refine ⟨[text], fun fuel _ => if_pos hshort, .single text.toList, ?_, ?_, ?_⟩
    · intro chunk hchunk
      rwa [List.mem_singleton.1 hchunk]
    · intro chunk hchunk
      rw [List.mem_singleton.1 hchunk]
      rw [utf8ByteSize_eq] at hshort
      exact (utf16Len_le_utf8Len _).trans hshort
    · intro first last hfirst _ _ _ hmem
      rw [← List.mem_singleton.1 hmem] at hfirst
      cases hfirst
  · obtain ⟨chunks, hrun, hjoin, hbytes, hfull⟩ :=
      splitLoop_spec h text.toList.length text.toList (Nat.le_refl _)
    have hmap : (chunks.map String.ofList).map String.toList = chunks := by
      rw [List.map_map]
      exact (List.map_congr_left fun c _ => String.toList_ofList).trans (List.map_id chunks)
    refine ⟨chunks.map String.ofList, ?_, ⟨by rwa [hmap], ?_, ?_, ?_⟩⟩
    · intro fuel hfuel
      rw [splitMessage, if_neg hshort, splitLoop_mono hrun (String.length_toList ▸ hfuel)]
      rfl
    · intro chunk hchunk
      obtain ⟨cs, hcs, rfl⟩ := List.mem_map.1 hchunk
      rw [utf8ByteSize_ofList]
      exact hbytes cs hcs
    · intro chunk hchunk
      obtain ⟨cs, hcs, rfl⟩ := List.mem_map.1 hchunk
      rw [String.toList_ofList]
      exact (utf16Len_le_utf8Len cs).trans (hbytes cs hcs)
    · intro first _ hfirst _ hnonws _ hmem
      obtain ⟨cs, hcs, heq⟩ := List.mem_map.1 hmem
      obtain rfl : cs = [] := by
        rw [← String.toList_ofList (l := cs), heq]
        rfl
      refine hfull (fun c hc => ?_) hcs
      rw [hfirst] at hc
      cases hc
      exact hnonws

/-- A text that is too long for one message, and ends in no whitespace, is split into several. -/
theorem Splits.two_le_length {text : String} {maxLen : Nat} {chunks : List String} {last : Char}
    (h : Splits text maxLen chunks) (hlong : maxLen < text.utf8ByteSize)
    (hlast : text.toList.getLast? = some last) (hvisible : isWhitespace last = false) :
    2 ≤ chunks.length := by
  have hjoin := h.rejoins
  rcases chunks with _ | ⟨chunk, _ | ⟨second, chunks⟩⟩
  · rw [hjoin.of_nil] at hlast
    cases hlast
  · obtain ⟨gap, hgap, htext⟩ := hjoin.of_singleton
    have hnil : gap = [] := by
      by_contra hne
      have hmem : last ∈ gap := by
        rw [htext, List.getLast?_append_of_ne_nil _ hne] at hlast
        exact List.mem_of_getLast? hlast
      rw [hgap last hmem] at hvisible
      cases hvisible
    have hbytes := h.bytes chunk List.mem_cons_self
    rw [hnil, List.append_nil] at htext
    rw [utf8ByteSize_eq, ← htext, ← utf8ByteSize_eq] at hbytes
    omega
  · simp

/-- A response of two lines, of so many characters each, all of two bytes. -/
def linesOf (n m : Nat) : String :=
  String.ofList (List.replicate n 'é' ++ '\n' :: List.replicate m 'é')

/-- Each character takes two bytes, and the newline one. -/
theorem utf8ByteSize_linesOf (n m : Nat) :
    (linesOf n m).utf8ByteSize = n * 2 + (m * 2 + 1) := by
  rw [linesOf, utf8ByteSize_ofList, utf8Len_append, utf8Len_cons, utf8Len_replicate,
    utf8Len_replicate]
  rfl

/-- It ends in no whitespace, when its second line has a character. -/
theorem getLast?_linesOf (n m : Nat) : (linesOf n (m + 1)).toList.getLast? = some 'é' := by
  rw [linesOf, String.toList_ofList, List.replicate_succ', List.getLast?_append_cons,
    ← List.cons_append, List.getLast?_append_cons, List.getLast?_singleton]

/-- A response of two lines with 6001 bytes, which takes several messages. -/
theorem splitMessage_chunks_limit :
    telegramMaxMessageBytes < (linesOf 2000 1000).utf8ByteSize ∧
      ∃ chunks, (∀ fuel, (linesOf 2000 1000).length ≤ fuel →
          splitMessage fuel (linesOf 2000 1000) telegramMaxMessageBytes = some chunks) ∧
        Splits (linesOf 2000 1000) telegramMaxMessageBytes chunks ∧ 2 ≤ chunks.length := by
  have hlong : telegramMaxMessageBytes < (linesOf 2000 1000).utf8ByteSize := by
    rw [utf8ByteSize_linesOf]
    decide
  obtain ⟨chunks, hrun, hsplits⟩ :=
    splitMessage_chunks (linesOf 2000 1000) telegramMaxMessageBytes (by decide)
  exact ⟨hlong, chunks, hrun, hsplits,
    hsplits.two_le_length hlong (getLast?_linesOf 2000 999) (by decide)⟩

end TelegramMcp.Hook
