import TelegramMcp.History.Effects

/-!
# Full-text search

`search` wraps the query as an FTS5 phrase, evaluates it on the index, joins the matching row
numbers with `messages` and returns at most 100 hits, newest first. `stringBody` is FTS5's rule for
a quoted string. `matchPhrase` reads the phrase FTS5 sees, which ends at the first NUL; wrapping
is undone by it, unless the query has a NUL (`matchPhrase_ftsPhraseEscape`). `Lexes` is the tokens
of any expression. On a database whose index is in step, the hits are stored messages that contain
the phrase (`mem_searchRows_iff`).
-/

namespace TelegramMcp.History

open Rust Txn Keyed

/-- The text with each of its quotes doubled. -/
def escaped (cs : List Char) : List Char := cs.flatMap fun c => if c = '"' then ['"', '"'] else [c]

/-- `fts_phrase_escape`: the query between quotes, with its own quotes doubled, as one FTS5
phrase. -/
def ftsPhraseEscape (s : String) : String := String.ofList ('"' :: escaped s.toList ++ ['"'])

/-- The content of an FTS5 string after its opening quote, and what follows the closing one. -/
def stringBody : List Char → Option (List Char × List Char)
  | '"' :: '"' :: cs => (stringBody cs).map fun r => ('"' :: r.1, r.2)
  | '"' :: cs => some ([], cs)
  | c :: cs => (stringBody cs).map fun r => (c :: r.1, r.2)
  | [] => none

/-- The phrase of a `MATCH` expression that is one quoted string. FTS5 reads the expression up to
the first NUL. Expressions of another form are not sent. -/
def matchPhrase (expr : String) : Except String String :=
  match expr.toList.takeWhile (· ≠ '\x00') with
  | '"' :: cs =>
    match stringBody cs with
    | some (content, []) => .ok (String.ofList content)
    | some (_, _) => .error "fts5: syntax error"
    | none => .error "unterminated string"
  | _ => .error "fts5: syntax error"

/-- A quoted string is read back from its escaped form. -/
theorem stringBody_escaped (cs : List Char) : stringBody (escaped cs ++ ['"']) = some (cs, []) := by
  induction cs with
  | nil => rfl
  | cons c cs ih =>
    by_cases hc : c = '"'
    · subst hc
      have hl : escaped ('"' :: cs) ++ ['"'] = '"' :: '"' :: (escaped cs ++ ['"']) := rfl
      rw [hl, stringBody, ih]
      rfl
    · have hl : escaped (c :: cs) ++ ['"'] = c :: (escaped cs ++ ['"']) := by
        simp [escaped, hc]
      rw [hl, stringBody, ih]
      · rfl
      · exact fun _ h _ => hc h
      · exact hc

/-- An escaped text never closes the string it is in, so that only the last quote does. -/
theorem stringBody_escaped_open (cs : List Char) : stringBody (escaped cs) = none := by
  induction cs with
  | nil => rfl
  | cons c cs ih =>
    by_cases hc : c = '"'
    · subst hc
      have hl : escaped ('"' :: cs) = '"' :: '"' :: escaped cs := rfl
      rw [hl, stringBody, ih]
      rfl
    · have hl : escaped (c :: cs) = c :: escaped cs := by simp [escaped, hc]
      rw [hl, stringBody, ih]
      · rfl
      · exact fun _ h _ => hc h
      · exact hc

/-- What FTS5 sees of an escaped text: a NUL ends it before the closing quote. -/
theorem takeWhile_escaped (cs : List Char) :
    (escaped cs ++ ['"']).takeWhile (· ≠ '\x00') =
      escaped (cs.takeWhile (· ≠ '\x00')) ++ if '\x00' ∈ cs then [] else ['"'] := by
  induction cs with
  | nil => rfl
  | cons c cs ih =>
    by_cases h0 : c = '\x00'
    · subst h0
      rfl
    · have hmem : '\x00' ∈ c :: cs ↔ '\x00' ∈ cs := by simp [Ne.symm h0]
      simp only [hmem]
      by_cases hc : c = '"'
      · subst hc
        have hl : escaped ('"' :: cs) ++ ['"'] = '"' :: '"' :: (escaped cs ++ ['"']) := rfl
        simp only [hl, List.takeWhile_cons_of_pos, h0, ne_eq, not_false_eq_true, decide_true, ih]
        rfl
      · have hl : ∀ ds, escaped (c :: ds) = c :: escaped ds := fun ds => by simp [escaped, hc]
        simp only [hl, List.cons_append, List.takeWhile_cons_of_pos, h0, ne_eq, not_false_eq_true,
          decide_true, ih]

/-- Up to the first NUL, where SQLite stops to read it, the expression is a quote and the escaped
text. -/
theorem takeWhile_ftsPhraseEscape (s : String) :
    (ftsPhraseEscape s).toList.takeWhile (· ≠ '\x00') =
      '"' :: (escaped s.toList ++ ['"']).takeWhile (· ≠ '\x00') := by
  rw [ftsPhraseEscape, String.toList_ofList]
  rfl

/-- After its opening quote, an escaped text with a NUL is cut off inside the string. Any other is
the content of the string, and nothing follows. -/
theorem stringBody_takeWhile (s : String) :
    stringBody ((escaped s.toList ++ ['"']).takeWhile (· ≠ '\x00')) =
      if '\x00' ∈ s.toList then none else some (s.toList, []) := by
  rw [takeWhile_escaped]
  by_cases h0 : '\x00' ∈ s.toList
  · simp only [if_pos h0, List.append_nil, stringBody_escaped_open]
  · have hself : s.toList.takeWhile (· ≠ '\x00') = s.toList :=
      List.takeWhile_eq_self_iff.2 fun c hc => decide_eq_true (ne_of_mem_of_not_mem hc h0)
    simp only [if_neg h0, hself, stringBody_escaped]

/-- FTS5 reads the query itself, or an unterminated string when it has a NUL. -/
theorem matchPhrase_ftsPhraseEscape (s : String) :
    matchPhrase (ftsPhraseEscape s) =
      if '\x00' ∈ s.toList then .error "unterminated string" else .ok s := by
  simp only [matchPhrase, takeWhile_ftsPhraseEscape, stringBody_takeWhile]
  by_cases h0 : '\x00' ∈ s.toList
  · simp only [if_pos h0]
  · simp only [if_neg h0, String.ofList_toList]

/-! ## The tokens of an expression -/

/-- A token of the query syntax: a quoted string, by its content with the doubled quotes undone, or
anything else, by its text. -/
inductive Token
  | string (content : String)
  | other (lexeme : String)

/-- Why a lexer rejects a text: a string that is not closed, or anything else that the rest of the
grammar rejects. -/
inductive LexError
  | unterminatedString
  | other (message : String)

/-- How FTS5 reads what does not start with a quote: operators, column filters, barewords, and
blanks that are no token. It returns what is left. -/
abbrev OtherRule := Char → List Char → Except String (List Token × List Char)

/-- The tokens of an expression. A quote starts a string; for what does not start with a quote any
rule may hold, since the lexer of FTS5 is known by its documentation alone. -/
inductive Lexes (other : OtherRule) : List Char → Except LexError (List Token) → Prop
  | done : Lexes other [] (.ok [])
  | string {cs content rest : List Char} {r : Except LexError (List Token)}
    (hbody : stringBody cs = some (content, rest)) (hrest : Lexes other rest r) :
    Lexes other ('"' :: cs) (r.map fun tokens => .string (String.ofList content) :: tokens)
  | unterminated {cs : List Char} (hbody : stringBody cs = none) :
    Lexes other ('"' :: cs) (.error .unterminatedString)
  | other {c : Char} {cs rest : List Char} {read : List Token}
    {r : Except LexError (List Token)} (hc : c ≠ '"') (hread : other c cs = .ok (read, rest))
    (hrest : Lexes other rest r) : Lexes other (c :: cs) (r.map fun tokens => read ++ tokens)
  | otherError {c : Char} {cs : List Char} {e : String} (hc : c ≠ '"')
    (hread : other c cs = .error e) : Lexes other (c :: cs) (.error (.other e))

section
variable {other : OtherRule} {r : Except LexError (List Token)}

/-- At the end of the text there are no more tokens. -/
theorem lexes_nil_iff : Lexes other [] r ↔ r = .ok [] := by
  refine ⟨?_, ?_⟩
  · intro h
    cases h
    rfl
  · rintro rfl
    exact .done

/-- A string up to the end of the expression is its only token. -/
theorem lexes_string_iff {cs content : List Char} (hbody : stringBody cs = some (content, [])) :
    Lexes other ('"' :: cs) r ↔ r = .ok [.string (String.ofList content)] := by
  refine ⟨?_, ?_⟩
  · intro h
    cases h with
    | string hbody' hrest =>
      cases hbody.symm.trans hbody'
      rw [lexes_nil_iff.1 hrest]
      rfl
    | unterminated hbody' => cases hbody.symm.trans hbody'
    | other hc | otherError hc => exact absurd rfl hc
  · rintro rfl
    exact .string hbody .done

/-- A quote whose string has no end is an error, whatever the other tokens are. -/
theorem lexes_unterminated_iff {cs : List Char} (hbody : stringBody cs = none) :
    Lexes other ('"' :: cs) r ↔ r = .error .unterminatedString := by
  refine ⟨?_, ?_⟩
  · intro h
    cases h with
    | string hbody' => cases hbody.symm.trans hbody'
    | unterminated => rfl
    | other hc | otherError hc => exact absurd rfl hc
  · rintro rfl
    exact .unterminated hbody

/-- When an expression is a phrase, the string is its only token. -/
theorem lexes_of_matchPhrase {expr phrase : String} (h : matchPhrase expr = .ok phrase) :
    Lexes other (expr.toList.takeWhile (· ≠ '\x00')) (.ok [.string phrase]) := by
  rw [matchPhrase] at h
  split at h
  · next cs hcs =>
    rw [hcs]
    split at h
    · next content hbody =>
      cases h
      exact (lexes_string_iff hbody).2 rfl
    · cases h
    · cases h
  · cases h

end

/-- Whatever the rules for other tokens are, an escaped query lexes as one string that is the query,
or as an unterminated string when it has a NUL, at which SQLite stops to read. -/
theorem lexes_ftsPhraseEscape_iff (other : OtherRule) (s : String)
    (r : Except LexError (List Token)) :
    Lexes other ((ftsPhraseEscape s).toList.takeWhile (· ≠ '\x00')) r ↔
      r = if '\x00' ∈ s.toList then .error .unterminatedString else .ok [.string s] := by
  have hbody := stringBody_takeWhile s
  rw [takeWhile_ftsPhraseEscape]
  by_cases h0 : '\x00' ∈ s.toList
  · rw [if_pos h0] at hbody ⊢
    exact lexes_unterminated_iff hbody
  · rw [if_neg h0] at hbody ⊢
    rw [lexes_string_iff hbody, String.ofList_toList]

section
variable [Fts5]

/-- The optional conditions on the chat and on the date, with both bounds inclusive. -/
def inScope (chatId since «until» : Option I64) (m : StoredMessage) : Bool :=
  chatId.all (m.chatId = ·) && since.all (· ≤ m.date) && «until».all (m.date ≤ ·)

/-- A row of the result, with the snippet that FTS5 makes for the expression. -/
def searchHit (expr : String) (m : StoredMessage) : SearchHit where
  chatId := m.chatId
  messageId := m.messageId
  date := m.date
  snippet := Fts5.snippet expr m.text

/-- The stored messages whose rows the index finds for the phrase, newest first. -/
def searchRows (phrase : String) (chatId since «until» : Option I64) (db : Db) :
    List StoredMessage :=
  ((db.messages.rows.filter fun r =>
      FullText.Matches db.fts r.1 (Fts5.tokenize phrase) && inScope chatId since «until» r.2).map
    Prod.snd).insertionSort fun a b => b.date ≤ a.date

/-- `History::search`: the query is quoted as one phrase, and at most 100 hits are returned, newest
first. -/
def search (query : String) (chatId since «until» : Option I64) :
    Op Db (Except HistoryError (List SearchHit)) :=
  .bare (.query fun db =>
    let expr := ftsPhraseEscape query
    match matchPhrase expr with
    | .ok phrase =>
      .ok (((searchRows phrase chatId since «until» db).take 100).map (searchHit expr))
    | .error e => .error (.sqlite e))

/-- The result of a search: the hits of the phrase that the quoted query is, or the error of a
quoted query that is no phrase. -/
theorem search_eval (query : String) (chatId since «until» : Option I64) (db : Db) :
    ((search query chatId since «until»).eval db).1 =
      match matchPhrase (ftsPhraseEscape query) with
      | .ok phrase => .ok (((searchRows phrase chatId since «until» db).take 100).map
          (searchHit (ftsPhraseEscape query)))
      | .error e => .error (.sqlite e) := by
  rw [search, Op.bare, Op.eval, Script.eval_query]

/-- The text of the message contains the tokens of the phrase, in order and side by side. -/
def Contains (phrase : String) (m : StoredMessage) : Prop :=
  Fts5.tokenize phrase ≠ [] ∧ Fts5.tokenize phrase <:+: tokens m.text

/-- When the index is in step, the rows found are the stored messages in scope that contain the
phrase. -/
theorem mem_searchRows_iff {db : Db} (h : Indexed db) {phrase : String}
    {chatId since «until» : Option I64} {m : StoredMessage} :
    m ∈ searchRows phrase chatId since «until» db ↔
      (∃ rowid, (rowid, m) ∈ db.messages.rows) ∧ inScope chatId since «until» m ∧
        Contains phrase m := by
  have hnd : (db.docs.map Prod.fst).Nodup := by
    rw [Db.docs, List.map_map]
    exact db.messages.rowids
  have hmatch : ∀ r ∈ db.messages.rows,
      FullText.Matches db.fts r.1 (Fts5.tokenize phrase) ↔ Contains phrase r.2 := fun r hr => by
    rw [show db.fts = _ from h]
    exact FullText.matches_ofDocs_iff hnd (d := (r.1, tokens r.2.text))
      (List.mem_map.2 ⟨r, hr, rfl⟩)
  simp only [searchRows, List.mem_insertionSort, List.mem_map, List.mem_filter, Prod.exists,
    exists_eq_right, Bool.and_eq_true, decide_eq_true_eq]
  refine ⟨?_, ?_⟩
  · rintro ⟨rowid, hr, hm, hs⟩
    exact ⟨⟨rowid, hr⟩, hs, (hmatch _ hr).1 hm⟩
  · rintro ⟨⟨rowid, hr⟩, hs, hc⟩
    exact ⟨rowid, hr, (hmatch _ hr).2 hc, hs⟩

end

end TelegramMcp.History
