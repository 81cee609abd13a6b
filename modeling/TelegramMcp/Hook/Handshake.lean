import TelegramMcp.Hook.McpClient

/-!
# The two ends of a pipe

What a client writes, read by the server: `consumeAuthLine` accepts it exactly when the server has
the token of the client, and stops where the first request begins. From there on each message of the
client is one line (`handshake`). A token is `Sendable` when it fits on the line; those that a
server generates are.
-/

namespace TelegramMcp.Hook

open Rust Utf8 LocalPipe

/-! ## The line of authentication -/

/-- The pipe has these bytes next, whatever comes after them. -/
def Carries (pipe : Pipe) (bytes : List UInt8) : Prop :=
  ∀ k (hk : k < bytes.length), pipe.source (pipe.pos + k) = .ok (some (bytes.get ⟨k, hk⟩))

/-- The token fits on the line as the server reads it: there is no newline in it, it does not end in
a carriage return, and with `AUTH ` before it the line is no longer than what the server takes. -/
structure Sendable (token : String) : Prop where
  newline : '\n' ∉ token.toList
  carriageReturn : token.toList.getLast? ≠ some '\r'
  length : (authLine token).length ≤ maxAuthLineBytes

/-- What a pipe carries can be read in two parts, one after the other. -/
theorem Carries.append {pipe : Pipe} {a b : List UInt8} (h : Carries pipe (a ++ b)) :
    Carries pipe a ∧ Carries (pipe.advance a.length) b := by
  refine ⟨?_, ?_⟩
  · intro k hk
    rw [h k (by rw [List.length_append]; omega)]
    simp [List.getElem_append_left hk]
  · intro k hk
    rw [Pipe.advance_source, Pipe.advance_pos, Nat.add_assoc, h (a.length + k)
      (by rw [List.length_append]; omega)]
    simp

/-- A pipe begins with one line at most. -/
theorem beginsWith_unique {pipe : Pipe} {a b : List UInt8} (ha : pipe.BeginsWith a)
    (hb : pipe.BeginsWith b) : a = b := by
  induction a generalizing pipe b with
  | nil =>
    cases b with
    | nil => rfl
    | cons byte b =>
      obtain ⟨hbyte, hne, -⟩ := beginsWith_cons_iff.1 hb
      cases hbyte.symm.trans (beginsWith_nil_iff.1 ha)
      exact absurd rfl hne
  | cons byte a ih =>
    obtain ⟨hbyte, hne, hrest⟩ := beginsWith_cons_iff.1 ha
    cases b with
    | nil =>
      cases hbyte.symm.trans (beginsWith_nil_iff.1 hb)
      exact absurd rfl hne
    | cons byte' b =>
      obtain ⟨hbyte', -, hrest'⟩ := beginsWith_cons_iff.1 hb
      cases hbyte.symm.trans hbyte'
      rw [ih hrest hrest']

/-- A newline is one byte, which is the one that ends a line. -/
theorem encode_newline : encode "\n" = [newline] := by
  rw [encode_eq_flatMap]
  rfl

/-- The first line as the client writes it, in bytes, is the line and a newline. -/
theorem encode_authText (token : String) :
    encode (authText token) = authLine token ++ [newline] := by
  rw [authText, encode_append, encode_append, encode_newline, authLine]

/-- The line as the server knows it, without its newline, in bytes. -/
theorem authLine_eq (token : String) : authLine token = encode ("AUTH " ++ token) :=
  (encode_append "AUTH " token).symm

/-- The line has a newline inside it only if the token has one. -/
theorem newline_mem_authLine_iff {token : String} :
    newline ∈ authLine token ↔ '\n' ∈ token.toList := by
  have hword : '\n' ∉ "AUTH ".toList := by decide
  have hchar := mem_encode_iff (s := "AUTH " ++ token) (c := '\n') (by decide)
  rw [String.toList_append, List.mem_append, or_iff_right hword] at hchar
  rw [authLine_eq]
  exact hchar

/-- A pipe that carries the text of a client begins with its line. -/
theorem beginsWith_authLine {pipe : Pipe} {token : String} (h : '\n' ∉ token.toList)
    (hpipe : Carries pipe (encode (authText token))) : pipe.BeginsWith (authLine token) := by
  rw [encode_authText] at hpipe
  refine ⟨hpipe.append.1, ?_, fun hmem => h (newline_mem_authLine_iff.1 hmem)⟩
  exact hpipe.append.2 0 (Nat.succ_pos _)

/-- The server takes nothing off a line whose token does not end in a carriage return. -/
theorem stripCr_authLine {token : String} (h : token.toList.getLast? ≠ some '\r') :
    stripCr (authLine token) = authLine token := by
  have hlast := getLast?_encode_iff (s := "AUTH " ++ token) (c := '\r') (by decide)
  refine if_neg fun heq => h ?_
  rw [authLine_eq] at heq
  have hor := hlast.1 heq
  rw [String.toList_append, List.getLast?_append] at hor
  cases htoken : token.toList.getLast? with
  | none =>
    rw [htoken] at hor
    exact absurd hor (by decide)
  | some c =>
    rw [htoken] at hor
    exact hor

/-- A server accepts what a client writes when it has the same token, and has then read the line. -/
theorem consumeAuthLine_authText_iff {pipe rest : Pipe} {token : String} (h : Sendable token)
    (hpipe : Carries pipe (encode (authText token))) {expected : String} :
    consumeAuthLine pipe expected = (.ok (), rest) ↔
      expected = token ∧ rest = pipe.advance (encode (authText token)).length := by
  have hbegins := beginsWith_authLine h.newline hpipe
  have hlength : (encode (authText token)).length = (authLine token).length + 1 := by
    rw [encode_authText, List.length_append, List.length_singleton]
  rw [consumeAuthLine_eq_ok_iff, hlength]
  refine ⟨?_, ?_⟩
  · rintro ⟨bytes, ⟨hbytes, -, hstrip⟩, rfl⟩
    rw [beginsWith_unique hbytes hbegins, stripCr_authLine h.carriageReturn] at hstrip
    rw [beginsWith_unique hbytes hbegins]
    exact ⟨(encode_injective (List.append_cancel_left hstrip)).symm, rfl⟩
  · rintro ⟨rfl, rfl⟩
    exact ⟨authLine expected, ⟨hbegins, h.length, stripCr_authLine h.carriageReturn⟩, rfl⟩

/-- The form of what a server generates by `Uuid::new_v4().simple()`: 32 hexadecimal digits in lower
case. -/
def IsSimpleUuid (token : String) : Prop :=
  token.length = 32 ∧ token.toList.all fun c => c.isDigit || (97 ≤ c.toNat && c.toNat ≤ 102)

instance (token : String) : Decidable (IsSimpleUuid token) := inferInstanceAs (Decidable (_ ∧ _))

/-- A token of 32 hexadecimal digits, which is what a server makes, is sendable. -/
theorem Sendable.of_simple {token : String} (h : IsSimpleUuid token) : Sendable token := by
  obtain ⟨hlength, hhex⟩ := h
  have hascii : ∀ c ∈ token.toList, 48 ≤ c.toNat ∧ c.toNat < 128 := by
    intro c hc
    have hchar := List.all_eq_true.1 hhex c hc
    rw [Bool.or_eq_true, Bool.and_eq_true, decide_eq_true_eq, decide_eq_true_eq] at hchar
    rcases hchar with hdigit | ⟨hlo, hhi⟩
    · obtain ⟨hlo, hhi⟩ := Char.isDigit_iff_toNat.1 hdigit
      exact ⟨hlo, lt_of_le_of_lt hhi (by decide)⟩
    · omega
  refine ⟨?_, ?_, ?_⟩
  · intro hmem
    exact absurd (hascii _ hmem).1 (by decide)
  · intro hlast
    exact absurd (hascii _ (List.mem_of_getLast? hlast)).1 (by decide)
  · have hbytes : (encode token).length = 32 := by
      rw [encode_eq_flatMap, List.length_flatMap, List.map_congr_left fun c hc => by
        rw [utf8EncodeChar_ascii (hascii c hc).2, List.length_singleton]]
      rw [List.map_const', List.sum_replicate, String.length_toList, hlength]
      rfl
    rw [authLine, List.length_append, hbytes]
    decide

/-! ## The messages after it -/

/-- What a message is: the text of a JSON value, which is on one line, and a newline. -/
def IsMessage (text : String) : Prop :=
  ∃ message : Json, OneLine message.toText ∧ text = message.toText ++ "\n"

/-- A message of the hook is one line with one value, whatever the value is. -/
theorem isMessage_messageLine (message : Json) : IsMessage (McpClient.messageLine message) :=
  ⟨message, oneLine_toText message, rfl⟩

/-- The lines of a transcript after the first are each one message. -/
theorem isMessage_transcript (token : String) (calls : List (String × Json)) :
    ∀ text ∈ (transcript token calls).tail, IsMessage text := by
  intro text htext
  rw [transcript, List.cons_append, List.tail_cons] at htext
  simp only [List.cons_append, List.nil_append, List.mem_cons] at htext
  rcases htext with rfl | rfl | htext
  · exact isMessage_messageLine _
  · exact isMessage_messageLine _
  · obtain ⟨r, -, rfl⟩ := List.mem_map.1 htext
    exact isMessage_messageLine _

/-- What a client with a sendable token has written, at any time and whatever became of its calls,
as a server reads it: a server accepts it exactly when it has the same token. It has then read the
first line, and what follows are the messages, each on a line of its own, whatever the calls have as
their arguments. -/
theorem handshake [ReadJson] (c : McpClient) (h : mcpClient.Reached (fun _ _ => True) c)
    (htoken : Sendable c.token) (hwritten : c.written ≠ []) (pipe : Pipe)
    (hpipe : Carries pipe (c.written.flatMap encode)) :
    (∀ token rest, consumeAuthLine pipe token = (.ok (), rest) ↔
      token = c.token ∧ rest = pipe.advance (encode (authText c.token)).length) ∧
    Carries (pipe.advance (encode (authText c.token)).length) (c.written.tail.flatMap encode) ∧
    ∀ text ∈ c.written.tail, IsMessage text := by
  have hlines := (conforms_of_reached h).session.written
  obtain ⟨first, messages, hcons⟩ := List.exists_cons_of_ne_nil hwritten
  rw [hcons] at hlines hpipe ⊢
  obtain ⟨rfl, hmessages⟩ := List.cons_prefix_cons.1 hlines
  rw [List.flatMap_cons] at hpipe
  refine ⟨fun _ _ => consumeAuthLine_authText_iff htoken hpipe.append.1, hpipe.append.2, ?_⟩
  intro text htext
  exact isMessage_transcript c.token c.calls text (hmessages.subset htext)

/-- A pipe with these bytes, and its end after them. -/
def pipeOf (bytes : List UInt8) : Pipe := ⟨fun n => .ok bytes[n]?, 0⟩

/-- A pipe that was made of bytes carries them. -/
theorem carries_pipeOf (bytes : List UInt8) : Carries (pipeOf bytes) bytes := by
  intro k hk
  simp [pipeOf, hk]

/-- The token of the example is of the form that a server generates. -/
theorem isSimpleUuid_sample : IsSimpleUuid sample.token := by decide

/-- A call with a text of two lines, which is answered at once. -/
def twoLines : Exchange :=
  ⟨"tg_send_message", .obj [("chat", .str "me"), ("text", .str "first\nsecond")], promptly 2⟩

/-- A client that has made this call, and the server of the record it read: the server accepts the
first line, and all of the call is one of the messages after it. -/
theorem handshake_twoLines : ∃ c : McpClient,
    c.calls = [(twoLines.name, twoLines.arguments)] ∧
    consumeAuthLine (pipeOf (c.written.flatMap encode)) sample.token =
      (.ok (), (pipeOf (c.written.flatMap encode)).advance
        (encode (authText sample.token)).length) ∧
    c.written.tail.length = 3 ∧ ∀ text ∈ c.written.tail, IsMessage text := by
  have hinit : (@mcpClient threeReplies).init freshClient :=
    ⟨rfl, rfl, rfl, rfl, rfl, rfl, rfl, rfl⟩
  obtain ⟨c₁, hconnect, hidle₁, hnext, htoken₁, hcalls₁, -⟩ :=
    @exec_connect _ threeReplies hinit ⟨some errorPipeBusy, "busy"⟩ rfl 1 (by decide) (promptly 1)
      (promptly_to (.inl rfl))
  obtain ⟨c, hexec, hidle, -, htoken, hcalls, -⟩ := @exec_exchange c₁ threeReplies hidle₁ twoLines
    (hnext ▸ promptly_to (.inr (.inl rfl)))
  have hreached := ((System.Reached.init hinit).exec hconnect).exec hexec
  have hcalled : c.calls = [(twoLines.name, twoLines.arguments)] := by
    rw [hcalls, hcalls₁]
    rfl
  have hsample : c.token = sample.token := htoken.trans htoken₁
  have hlines : c.written = transcript sample.token [(twoLines.name, twoLines.arguments)] := by
    have hfits := @Conforms.await threeReplies c (@conforms_of_reached c threeReplies hreached)
    rw [hidle] at hfits
    rw [hfits.written, hsample, hcalled]
  have hwritten : c.written ≠ [] := by
    rw [hlines]
    exact List.cons_ne_nil _ _
  have hsendable : Sendable c.token := by
    rw [hsample]
    exact Sendable.of_simple isSimpleUuid_sample
  obtain ⟨haccepts, -, hmessages⟩ :=
    @handshake threeReplies c hreached hsendable hwritten _ (carries_pipeOf _)
  refine ⟨c, hcalled, (haccepts sample.token _).2 ⟨hsample.symm, ?_⟩, ?_, hmessages⟩
  · rw [hsample]
  · rw [hlines]
    rfl

end TelegramMcp.Hook
