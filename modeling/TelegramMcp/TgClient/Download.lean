import TelegramMcp.Lib.Proc
import TelegramMcp.Lib.Whatwg
import TelegramMcp.TgClient

/-!
# Downloading a file

A download asks `getFile` for the file's path on the server and then fetches it chunk by chunk into
the destination. `Url::join` is a parameter. Which URL is fetched depends on the path the server
gives, of which the client checks only the text: it stays below the bot's directory exactly when its
segments, as the URL parser reads them, return there (`download_confined_iff`). The destination is
created before the first chunk, so a download that fails later leaves a part of the file
(`download_complete_or_partial`).
-/

namespace TelegramMcp

open Rust Proc Whatwg

/-- What of the client a download uses: its API base and its token. -/
structure TgClient where
  apiBase : Url
  token : String

namespace TgClient

/-- The body of a response as it will arrive: its chunks, and the error it may break off with. -/
structure Body where
  chunks : List (List UInt8)
  ending : Except String Unit

/-- A call of the file system. The last two are about the file that was created. -/
inductive FileCall
  | createDirAll (path : WinPath.Path)
  | create (path : WinPath.Path)
  | writeAll (chunk : List UInt8)
  | flush

/-- What a download does outside itself: its two requests, whose errors are those of the transport,
and the calls of the file system. -/
inductive Io : Type → Type 1
  | post (url : Url) (body : Json) : Io (Except String Json)
  | get (url : Url) : Io (Except String Body)
  | file (call : FileCall) : Io (Except String Unit)

/-- The URL an action fetches, if it is a request for a file. -/
def Io.fetched {β : Type} : Io β → Option Url
  | get url => some url
  | _ => none

/-- The answer of `getFile`, when the action is the request for it. -/
def answer : Performed Io → Option Json
  | ⟨.post _ _, .ok resp⟩ => some resp
  | _ => none

/-- A part of a download: actions on the network and on the disk, and an error of the client. -/
abbrev DownloadM (α : Type) := Proc Io TgClientError α

/-- A request, whose errors are those of HTTP. -/
def request {β : Type} (a : Io (Except String β)) : DownloadM β :=
  .act a fun r => r.mapError .http

/-- A call on the destination, whose errors are those of a download. -/
def disk (call : FileCall) : DownloadM Unit := .act (.file call) fun r => r.mapError .download

/-- What the client refuses to fetch, by the text of the path. -/
def rejected (filePath : String) : Bool :=
  filePath.toList.head? = some '/' || filePath.toList.head? = some '\\' ||
    (filePath.toList.splitOnP fun c => c = '/' || c = '\\').any fun seg => seg = ['.', '.']

/-- The path in an answer of `getFile`, or the error of an answer without one or of a path with a
literal `..`. -/
def filePathOf (resp : Json) : Except TgClientError String :=
  if (resp.get "ok").bind Json.asBool ≠ some true then
    .error (.api (asI32 (((resp.get "error_code").bind Json.asI64).getD (i64 0)))
      (((resp.get "description").bind Json.asStr).getD ""))
  else
    match ((resp.get "result").bind fun result => result.get "file_path").bind Json.asStr with
    | none => .error (.download "missing file_path")
    | some filePath =>
      if rejected filePath then
        .error (.download ("getFile returned an unsafe file_path: " ++ filePath))
      else .ok filePath

/-- The loop over the chunks, with the number of bytes so far, a `u64`. -/
def copy : List (List UInt8) → Except String Unit → Nat → DownloadM Nat
  | [], ending, total => do
    lift (ending.mapError .http)
    return total
  | chunk :: chunks, ending, total => do
    disk (.writeAll chunk)
    copy chunks ending ((total + chunk.length) % 2 ^ 64)

/-- Missing parent directories of the destination are created first. -/
def createParent (dest : WinPath.Path) : DownloadM Unit :=
  match dest.parent with
  | some parent => disk (.createDirAll parent)
  | none => return ()

/-- The body goes into the destination: the file is created, which empties it, then filled chunk by
chunk and flushed. -/
def store (body : Body) (dest : WinPath.Path) : DownloadM Nat := do
  createParent dest
  disk (.create dest)
  let total ← copy body.chunks body.ending 0
  disk .flush
  return total

section
variable (join : Url → String → Except String Url) (c : TgClient)

/-- A URL below the API base, or the error that the base or the reference is no URL. -/
def joined (ref : String) : Except TgClientError Url :=
  (join c.apiBase ref).mapError .invalidUrl

/-- The reference of the `getFile` method: the token is spelled into its path. -/
def getFileRef : String := "/bot" ++ c.token ++ "/GetFile"

/-- The reference of a file: the path the Bot API gave, behind the token. -/
def fileRef (filePath : String) : String := "/file/bot" ++ c.token ++ "/" ++ filePath

/-- The second half of a download: the path is joined to the base, and the body is fetched and
stored. -/
def fetch (filePath : String) (dest : WinPath.Path) : DownloadM Nat := do
  let url ← lift (c.joined join (c.fileRef filePath))
  let body ← request (.get url)
  store body dest

/-- `download_file`: the path of the file is asked for, checked, joined and fetched into the
destination. -/
def downloadFile (fileId : String) (dest : WinPath.Path) : DownloadM Nat := do
  let url ← lift (c.joined join c.getFileRef)
  let resp ← request (.post url (.obj [("file_id", .str fileId)]))
  let filePath ← lift (filePathOf resp)
  c.fetch join filePath dest

/-! ## What is fetched -/

/-- Some download fetches the URL, after `getFile` answered with the path. -/
def Fetches (filePath : String) (url : Url) : Prop :=
  ∃ fileId dest tr r, Exec (c.downloadFile join fileId dest) tr r ∧
    (∃ x ∈ tr, ∃ resp, answer x = some resp ∧ filePathOf resp = .ok filePath) ∧
    ∃ x ∈ tr, x.act.fetched = some url

/-- The directory of the bot's files below the API base, as segments. -/
def fileDir : List Segment := [['f', 'i', 'l', 'e'], ['b', 'o', 't'] ++ c.token.toList]

/-- The URL is below the bot's directory, at the origin of the server. -/
def Confined (url : Url) : Prop :=
  url.origin = c.apiBase.origin ∧ ("/file/bot" ++ c.token ++ "/").toList <+: url.path.toList

/-- As the URL parser reads the path, its dot segments do not climb out of the bot's directory, or
the names left lead back through the directories climbed out of. -/
def StaysBelow (filePath : String) : Prop :=
  (relative (segments (cleanedEnd filePath.toList))).Returns c.fileDir

instance (filePath : String) : Decidable (c.StaysBelow filePath) :=
  inferInstanceAs (Decidable (Relative.Returns _ _))

end

section
variable {join : Url → String → Except String Url} {c : TgClient} {filePath : String}

/-- Once the body has come, the file system is all that is used. -/
theorem store_only {ok : {β : Type} → Io β → Prop}
    (hok : ∀ call, ok (.file call)) (body : Body) (dest : WinPath.Path) :
    Safe (.only ok) (store body dest) (fun _ _ => True) (fun _ _ => True) () := by
  have hdisk (call : FileCall) :
      Safe (.only ok) (disk call) (fun _ _ => True) (fun _ _ => True) () :=
    Safe.act_true fun _ => hok call
  have hcopy (chunks : List (List UInt8)) (ending : Except String Unit) (total : Nat) :
      Safe (.only ok) (copy chunks ending total) (fun _ _ => True) (fun _ _ => True) () := by
    induction chunks generalizing total with
    | nil => exact Safe.seq (Safe.lift_true _) fun _ _ => Safe.pure_true
    | cons chunk chunks ih => exact Safe.seq (hdisk _) fun _ _ => ih _
  have hparent : Safe (.only ok) (createParent dest) (fun _ _ => True) (fun _ _ => True) () := by
    rw [createParent]
    split
    · exact hdisk _
    · exact Safe.pure_true
  refine Safe.seq hparent fun _ _ => Safe.seq (hdisk _) fun _ _ => ?_
  exact Safe.seq (hcopy _ _ _) fun _ _ => Safe.seq (hdisk _) fun _ _ => Safe.pure_true

/-- What the second half of a download may do: fetch the URL of the path, and ask no `getFile`. -/
def FetchesOnly (join : Url → String → Except String Url) (c : TgClient) (filePath : String)
    {β : Type} (a : Io β) : Prop :=
  (∀ b, answer ⟨a, b⟩ = none) ∧
    ∀ url, a.fetched = some url → c.joined join (c.fileRef filePath) = .ok url

/-- A download requests the URL of its file, and no other one. -/
theorem fetch_only (dest : WinPath.Path) :
    Safe (.only (FetchesOnly join c filePath)) (c.fetch join filePath dest) (fun _ _ => True)
      (fun _ _ => True) () := by
  refine Safe.bind (Q := fun url _ => c.joined join (c.fileRef filePath) = .ok url)
    (Safe.lift (fun _ _ hurl _ => hurl) fun _ _ _ _ => trivial) ?_
  intro url _ hurl
  refine Safe.seq (Safe.act_true ?_) fun body _ => store_only ?_ body dest
  · refine fun _ => ⟨fun _ => rfl, ?_⟩
    rintro _ ⟨⟩
    exact hurl
  · exact fun _ => ⟨fun _ => rfl, fun _ h => by cases h⟩

/-- The answer of `getFile` with this path. -/
def found (filePath : String) : Json :=
  .obj [("ok", .bool true), ("result", .obj [("file_path", .str filePath)])]

/-- From an answer with a path, this path is read. -/
theorem filePathOf_found (h : rejected filePath = false) :
    filePathOf (found filePath) = .ok filePath := by
  have hnot : ¬ rejected filePath = true := Bool.eq_false_iff.1 h
  change (if rejected filePath = true then _ else _) = _
  exact if_neg hnot

/-- A path that was read passed the check for literal dots. -/
theorem not_rejected_of_filePathOf {resp : Json} (h : filePathOf resp = .ok filePath) :
    rejected filePath = false := by
  rw [filePathOf] at h
  split at h
  · cases h
  · split at h
    · cases h
    · split at h
      · cases h
      · next hrejected =>
        cases h
        exact Bool.eq_false_iff.2 hrejected

/-- The URL fetched is the one the reference to the path is joined to, if the path is accepted. -/
theorem fetches_iff {url : Url} : c.Fetches join filePath url ↔
    rejected filePath = false ∧ (∃ u, c.joined join c.getFileRef = .ok u) ∧
      c.joined join (c.fileRef filePath) = .ok url := by
  refine ⟨?_, ?_⟩
  · rintro ⟨fileId, dest, tr, r, hex, ⟨x, hx, resp, hresp, hpath⟩, y, hy, hurl⟩
    rcases Exec.of_lift_bind hex with rfl | ⟨u, hu, hex⟩
    · cases hx
    obtain ⟨b, tr, rfl, hrest⟩ := Exec.of_act_bind hex
    rcases List.mem_cons.1 hy with rfl | hlater
    · cases hurl
    rcases Exec.of_lift_bind hrest with rfl | ⟨resp', hb, hex⟩
    · cases hlater
    rcases Exec.of_lift_bind hex with rfl | ⟨filePath', hpath', hex⟩
    · cases hlater
    have honly := Safe.only_of_exec (fetch_only dest) hex
    rcases List.mem_cons.1 hx with rfl | hearlier
    · cases b with
      | error e => cases hb
      | ok resp'' =>
        cases hb
        cases hresp
        cases hpath.symm.trans hpath'
        exact ⟨not_rejected_of_filePathOf hpath, ⟨u, hu⟩, (honly y hlater).2 url hurl⟩
    · cases ((honly x hearlier).1 _).symm.trans hresp
  · rintro ⟨hrejected, ⟨u, hu⟩, hurl⟩
    refine ⟨"", ⟨none, false, []⟩, [⟨.post u (.obj [("file_id", .str "")]), .ok (found filePath)⟩,
      ⟨.get url, .error ""⟩], .error (.http ""), ?_, ⟨_, List.mem_cons_self, found filePath, rfl,
        filePathOf_found hrejected⟩, ⟨_, List.mem_cons_of_mem _ List.mem_cons_self, rfl⟩⟩
    rw [downloadFile, hu, lift_ok, ok_bind]
    refine .perform _ _ _ ?_
    change Exec (lift (filePathOf (found filePath)) >>= fun p => c.fetch join p _) _ _
    rw [filePathOf_found hrejected, lift_ok, ok_bind, fetch, hurl, lift_ok, ok_bind]
    exact .perform _ _ _ (.fail _)

/-! ## Staying below the directory -/

/-- A bot's token as Telegram gives it: digits, a colon and a secret of letters, digits, `-` and
`_`. -/
def WellFormedToken (token : String) : Prop :=
  ∃ id secret : List Char, token.toList = id ++ ':' :: secret ∧ id ≠ [] ∧ secret ≠ [] ∧
    (∀ ch ∈ id, ch.isDigit = true) ∧ ∀ ch ∈ secret, ch.isAlphanum || ch = '-' || ch = '_'

/-- A well-formed token has plain characters only. -/
theorem plain_of_wellFormed {token : String} (h : WellFormedToken token) :
    ∀ ch ∈ token.toList, isPlain ch = true := by
  obtain ⟨id, secret, heq, -, -, hid, hsecret⟩ := h
  intro ch hch
  rw [heq] at hch
  rcases List.mem_append.1 hch with hch | hch
  · simp [isPlain, Char.isAlphanum, hid ch hch]
  · rcases List.mem_cons.1 hch with rfl | hch
    · rfl
    · rw [isPlain, hsecret ch hch]
      rfl

/-- So has the segment of a path in which it stands. -/
theorem plain_bot {token : String} (h : WellFormedToken token) :
    ['b', 'o', 't'] ++ token.toList ≠ [] ∧
      ∀ ch ∈ ['b', 'o', 't'] ++ token.toList, isPlain ch = true := by
  have hbot : ∀ ch ∈ ['b', 'o', 't'], isPlain ch = true := List.all_eq_true.1 rfl
  refine ⟨List.append_ne_nil_of_left_ne_nil (by decide) _, ?_⟩
  intro ch hch
  exact (List.mem_append.1 hch).elim (hbot ch) (plain_of_wellFormed h ch)

/-- So have the segments of the directory of the token's files, of which none is empty. -/
theorem plain_fileDir (h : WellFormedToken c.token) :
    ∀ n ∈ c.fileDir, n ≠ [] ∧ ∀ ch ∈ n, isPlain ch = true :=
  List.forall_mem_cons.2 ⟨⟨List.cons_ne_nil _ _, List.all_eq_true.1 rfl⟩,
    List.forall_mem_singleton.2 (plain_bot h)⟩

/-- For an accepted path, whatever is fetched is below the bot's directory, exactly when the path
stays there as the URL parser reads it: the check before it looks for literal dots only. -/
theorem download_confined_iff {set : Char → Bool} (hjoin : Joins set join)
    (hbase : c.apiBase.IsHttp) (htoken : WellFormedToken c.token)
    (haccepted : rejected filePath = false) :
    (∀ url, c.Fetches join filePath url → c.Confined url) ↔ c.StaysBelow filePath := by
  have hfileText : (c.fileRef filePath).toList =
      c.fileDir.flatMap (fun n => '/' :: n) ++ '/' :: filePath.toList := by
    simp [fileRef, fileDir]
  have hgetFileText : c.getFileRef.toList =
      [['b', 'o', 't'] ++ c.token.toList].flatMap (fun n => '/' :: n) ++
        '/' :: "GetFile".toList := by
    simp [getFileRef]
  have hdirText : ("/file/bot" ++ c.token ++ "/").toList =
      c.fileDir.flatMap (fun n => '/' :: n) ++ ['/'] := by
    simp [fileDir]
  have hne : c.fileDir ≠ [] := List.cons_ne_nil _ _
  obtain ⟨url, hurl, horigin, hbelow⟩ := hjoin.below_iff hbase hne (plain_fileDir htoken) hfileText
  obtain ⟨u, hu, -, -⟩ := hjoin.below_iff hbase (List.cons_ne_nil _ _)
    (List.forall_mem_singleton.2 (plain_bot htoken)) hgetFileText
  have hfetches (url' : Url) : c.Fetches join filePath url' ↔ url' = url := by
    rw [fetches_iff, joined, joined, hurl, hu]
    refine ⟨?_, ?_⟩
    · rintro ⟨-, -, heq⟩
      exact (Except.ok.inj heq).symm
    · rintro rfl
      exact ⟨haccepted, ⟨u, rfl⟩, rfl⟩
  simp only [hfetches, forall_eq, Confined, hdirText, hbelow, StaysBelow]
  exact and_iff_right horigin

/-- The client of the bot's own server, with a token. -/
def telegram : TgClient := ⟨⟨⟨"https", "api.telegram.org", none⟩, "/"⟩, "12345:fake"⟩

/-- The token of the example is well formed. -/
theorem wellFormedToken_telegram : WellFormedToken telegram.token :=
  ⟨['1', '2', '3', '4', '5'], ['f', 'a', 'k', 'e'], rfl, by decide, by decide,
    List.all_eq_true.1 rfl, List.all_eq_true.1 rfl⟩

/-- An ordinary path, as the Bot API gives it, stays below the directory of the token's files. -/
theorem download_confined_document :
    rejected "documents/file_123.bin" = false ∧
      ∀ url, telegram.Fetches joinPath "documents/file_123.bin" url → telegram.Confined url := by
  have haccepted : rejected "documents/file_123.bin" = false := by decide
  exact ⟨haccepted, (download_confined_iff joins_joinPath (.inr rfl) wellFormedToken_telegram
    haccepted).2 (returns_of_ups _ (segments_ne_nil _) (by decide))⟩

/-- With its dots percent-encoded, a path that climbs out of the directory is accepted and
fetched. -/
theorem not_download_confined :
    Joins pathSet joinPath ∧ telegram.apiBase.IsHttp ∧ WellFormedToken telegram.token ∧
      rejected "%2e%2e/%2e%2e/x" = false ∧
      ∃ url, telegram.Fetches joinPath "%2e%2e/%2e%2e/x" url ∧ ¬ telegram.Confined url := by
  refine ⟨joins_joinPath, .inr rfl, wellFormedToken_telegram, by decide,
    ⟨telegram.apiBase.origin, "/x"⟩, ?_, ?_⟩
  · refine fetches_iff.2 ⟨by decide, ⟨⟨telegram.apiBase.origin, "/bot12345:fake/GetFile"⟩, ?_⟩, ?_⟩
    · rfl
    · rfl
  · rintro ⟨-, hstarts⟩
    revert hstarts
    decide

end

/-! ## What is left at the destination -/

/-- The content of a file, which has less than `2 ^ 63` bytes. -/
abbrev Content := {bytes : List UInt8 // bytes.length < 2 ^ 63}

/-- The destination during a download: its content, the bytes it has taken since it was created,
which are written in the background, and the body of the response. -/
structure Dest where
  content : Option Content
  taken : Option (List UInt8)
  served : Option Body

namespace Dest

/-- More of the bytes that were taken get written, in the order in which they were taken. -/
def Writes (d d' : Dest) : Prop :=
  d' = d ∨ ∃ taken old new, d = ⟨some old, some taken, d.served⟩ ∧
    d' = ⟨some new, some taken, d.served⟩ ∧ old.val <+: new.val ∧ new.val <+: taken

/-- What a call does. One that fails creates nothing, and may have taken a part of its chunk; after
a flush all that was taken is written. -/
def after (d : Dest) : FileCall → Except String Unit → Dest → Prop
  | .createDirAll _, _, d' => d' = d
  | .create _, .error _, d' => d' = d
  | .create _, .ok _, d' => d' = ⟨some ⟨[], by simp⟩, some [], d.served⟩
  | .writeAll chunk, r, d' => ∃ taken part old new, d = ⟨some old, some taken, d.served⟩ ∧
    d' = ⟨some new, some (taken ++ part), d.served⟩ ∧ old.val <+: new.val ∧
    new.val <+: taken ++ part ∧ part <+: chunk ∧ (r = .ok () → part = chunk)
  | .flush, r, d' => d.Writes d' ∧ (r = .ok () → d'.content.map Subtype.val = d'.taken)

/-- The file is being filled with the body, and has taken this much of it. -/
def Filling (body : Body) (taken : List UInt8) (d : Dest) : Prop :=
  ∃ written, d = ⟨some written, some taken, some body⟩ ∧ written.val <+: taken

/-- The destination was not created, and is what it was before the download. -/
def Unchanged (content : Option Content) (d : Dest) : Prop := d.content = content ∧ d.taken = none

/-- The destination was created, and has a first part of the body. -/
def Partial (d : Dest) : Prop :=
  d.taken.isSome ∧ ∃ body written, d.served = some body ∧ d.content = some written ∧
    written.val <+: body.chunks.flatten

/-- The destination has the whole body, and this is its length. -/
def Complete (n : Nat) (d : Dest) : Prop :=
  ∃ body written, d.served = some body ∧ body.ending = .ok () ∧ d.content = some written ∧
    written.val = body.chunks.flatten ∧ n = written.val.length

/-- The destination may be written to in two parts. -/
theorem Writes.trans {d d' d'' : Dest} (h : d.Writes d') (h' : d'.Writes d'') : d.Writes d'' := by
  rcases h with rfl | ⟨taken, old, new, hd, hd', hold, hnew⟩
  · exact h'
  rcases h' with rfl | ⟨taken', old', new', hd'', rfl, hold', hnew'⟩
  · exact .inr ⟨taken, old, new, hd, hd', hold, hnew⟩
  obtain ⟨hc, ht, hs⟩ := Dest.mk.inj (hd'.symm.trans hd'')
  cases hc
  cases ht
  exact .inr ⟨taken, old, new', hd, by rw [← hs], hold.trans hold', hnew'⟩

end Dest

/-- The path at which an action creates a file. -/
def Io.creates {β : Type} : Io β → Option WinPath.Path
  | .file (.create path) => some path
  | _ => none

/-- The world of a download: the responses may be any, and only the destination may be created. -/
def world (dest : WinPath.Path) : Contract Io Dest where
  le := Dest.Writes
  refl _ := .inl rfl
  trans := Dest.Writes.trans
  allowed a _ := ∀ path ∈ a.creates, path = dest
  after a d b d' :=
    match a, b with
    | .post _ _, _ => d' = d
    | .get _, .error _ => d' = d
    | .get _, .ok body => d' = { d with served := some body }
    | .file call, r => d.after call r d'

section
variable {body : Body} {taken chunk : List UInt8} {d d' : Dest} {r : Except String Unit}

namespace Dest

/-- Whatever is written besides keeps what was filled in. -/
theorem Filling.writes (h : Filling body taken d) (hw : d.Writes d') : Filling body taken d' := by
  obtain ⟨written, rfl, hle⟩ := h
  rcases hw with rfl | ⟨taken, old, new, hd, rfl, -, hnew⟩
  · exact ⟨written, rfl, hle⟩
  · cases hd
    exact ⟨new, rfl, hnew⟩

/-- A chunk is taken, or a part of it if the call fails. -/
theorem Filling.writeAll (h : Filling body taken d) (ha : d.after (.writeAll chunk) r d') :
    ∃ part, part <+: chunk ∧ (r = .ok () → part = chunk) ∧ Filling body (taken ++ part) d' := by
  obtain ⟨written, rfl, -⟩ := h
  obtain ⟨taken, part, old, new, hd, rfl, -, hnew, hpart, hok⟩ := ha
  cases hd
  exact ⟨part, hpart, hok, new, rfl, hnew⟩

/-- What was taken from the body so far is a part of it. -/
theorem Filling.isPartial (h : Filling body taken d) (hle : taken <+: body.chunks.flatten) :
    d.Partial := by
  obtain ⟨written, rfl, hwritten⟩ := h
  exact ⟨rfl, body, written, rfl, rfl, hwritten.trans hle⟩

/-- Once all was taken and flushed, the destination has the whole body. -/
theorem Filling.complete (h : Filling body body.chunks.flatten d)
    (hall : d.content.map Subtype.val = d.taken) (hending : body.ending = .ok ())
    (hw : d.Writes d') : d'.Complete (body.chunks.flatten.length % 2 ^ 64) := by
  have hdone {written : Content} (heq : written.val = body.chunks.flatten) :
      Complete (body.chunks.flatten.length % 2 ^ 64)
        ⟨some written, some body.chunks.flatten, some body⟩ := by
    refine ⟨body, written, rfl, hending, rfl, heq, ?_⟩
    have hlt := written.2
    rw [← heq]
    omega
  obtain ⟨written, rfl, -⟩ := h
  have heq : written.val = body.chunks.flatten := Option.some.inj hall
  rcases hw with rfl | ⟨taken, old, new, hd, rfl, hold, hnew⟩
  · exact hdone heq
  · cases hd
    refine hdone (hnew.eq_of_length_le ?_)
    rw [← heq]
    exact hold.length_le

/-- A destination that is left alone is unchanged, however often it is left alone. -/
theorem Unchanged.writes {content : Option Content} (h : Unchanged content d) (hw : d.Writes d') :
    Unchanged content d' ∧ d'.served = d.served := by
  rcases hw with rfl | ⟨taken, old, new, hd, -, -, -⟩
  · exact ⟨h, rfl⟩
  · cases (congrArg Dest.taken hd).symm.trans h.2

end Dest

open Dest

/-- A call that succeeded with its error renamed succeeded. -/
theorem eq_ok_of_mapError {f : String → TgClientError} {v : Unit} (h : r.mapError f = .ok v) :
    r = .ok () := by
  cases r with
  | ok => rfl
  | error e => cases h

/-- The loop, by induction on the chunks left: with those taken they are the body. -/
theorem copy_safe (dest : WinPath.Path) {chunks : List (List UInt8)} {total : Nat}
    (hbody : taken ++ chunks.flatten = body.chunks.flatten)
    (htotal : total = taken.length % 2 ^ 64) (hd : Filling body taken d) :
    Safe (world dest) (copy chunks body.ending total)
      (fun n d => Filling body body.chunks.flatten d ∧ body.ending = .ok () ∧
        n = body.chunks.flatten.length % 2 ^ 64)
      (fun _ d => d.Partial) d := by
  induction chunks generalizing taken total d with
  | nil =>
    rw [List.flatten_nil, List.append_nil] at hbody
    subst hbody
    refine Safe.bind (Q := fun _ d => Filling body body.chunks.flatten d ∧ body.ending = .ok ())
      (Safe.lift ?_ ?_) ?_
    · intro _ d' hok hle
      exact ⟨hd.writes hle, eq_ok_of_mapError hok⟩
    · exact fun _ d' _ hle => (hd.writes hle).isPartial (List.prefix_refl _)
    · rintro _ d' ⟨hd', hending⟩
      exact Safe.pure fun d'' hle => ⟨hd'.writes hle, hending, htotal⟩
  | cons chunk chunks ih =>
    rw [List.flatten_cons, ← List.append_assoc] at hbody
    refine Safe.bind (Q := fun _ d => Filling body (taken ++ chunk) d) (Safe.act ?_ ?_ ?_) ?_
    · exact fun _ _ _ h => by cases h
    · intro d₁ r d₂ v d₃ hle ha hok hle'
      obtain ⟨part, -, hpart, hd₂⟩ := (hd.writes hle).writeAll ha
      rw [← hpart (eq_ok_of_mapError hok)]
      exact hd₂.writes hle'
    · intro d₁ r d₂ v d₃ hle ha _ hle'
      obtain ⟨part, hpart, -, hd₂⟩ := (hd.writes hle).writeAll ha
      refine (hd₂.writes hle').isPartial ?_
      rw [← hbody, List.append_assoc]
      exact (List.prefix_append_right_inj taken).2 (hpart.trans (List.prefix_append _ _))
    · intro _ d' hd'
      refine ih hbody ?_ hd'
      rw [htotal, List.length_append, Nat.mod_add_mod]

/-- The body goes into the file just created: it is complete when this succeeds, and a part of the
body when it fails. -/
theorem fill_safe (dest : WinPath.Path) (hd : Filling body [] d) :
    Safe (world dest) (copy body.chunks body.ending 0 >>= fun total => do
      disk .flush
      return total) (fun n d => d.Complete n) (fun _ d => d.Partial) d := by
  refine Safe.bind (copy_safe dest (List.nil_append _) rfl hd) ?_
  rintro total d₀ ⟨hd₀, hending, rfl⟩
  refine Safe.bind
    (Q := fun _ d => ∀ d', d.Writes d' → d'.Complete (body.chunks.flatten.length % 2 ^ 64))
    (Safe.act ?_ ?_ ?_) fun _ d' hd' => Safe.pure hd'
  · exact fun _ _ _ h => by cases h
  · rintro d₁ r d₂ v d₃ hle ⟨hle', hall⟩ hok hle'' d₄ hle₄
    exact ((hd₀.writes hle).writes hle').complete (hall (eq_ok_of_mapError hok)) hending
      (hle''.trans hle₄)
  · rintro d₁ r d₂ v d₃ hle ⟨hle', -⟩ - hle''
    exact (((hd₀.writes hle).writes hle').writes hle'').isPartial (List.prefix_refl _)

/-- The body goes into a destination that was not created before: as it was, or filled. -/
theorem store_safe (dest : WinPath.Path) {content : Option Content} (hserved : d.served = some body)
    (hd : d.Unchanged content) :
    Safe (world dest) (store body dest) (fun n d => d.Complete n)
      (fun _ d => d.Unchanged content ∨ d.Partial) d := by
  have hkept {d₀ d₁ : Dest} (h : d₀.Unchanged content ∧ d₀.served = some body)
      (hle : d₀.Writes d₁) : d₁.Unchanged content ∧ d₁.served = some body := by
    obtain ⟨hunchanged, heq⟩ := h.1.writes hle
    exact ⟨hunchanged, heq.trans h.2⟩
  refine Safe.bind (Q := fun _ d => d.Unchanged content ∧ d.served = some body) ?_ ?_
  · rw [createParent]
    split
    · refine (Safe.act_same ?_ ?_ hkept ⟨hd, hserved⟩).imp (fun _ _ h => h) fun _ _ h => .inl h.1
      · exact fun _ _ h => by cases h
      · exact fun _ _ _ ha => ha
    · exact Safe.pure fun _ hle => hkept ⟨hd, hserved⟩ hle
  rintro _ d₀ hd₀
  refine Safe.bind (Q := fun _ d => Filling body [] d) (Safe.act ?_ ?_ ?_) ?_
  · intro d₁ _ path hpath
    exact (Option.some.inj hpath).symm
  · intro d₁ r d₂ v d₃ hle ha hok hle'
    have hr := eq_ok_of_mapError hok
    subst hr
    cases ha
    rw [(hkept hd₀ hle).2] at hle'
    exact Filling.writes ⟨_, rfl, List.prefix_refl _⟩ hle'
  · intro d₁ r d₂ e d₃ hle ha hfail hle'
    cases r with
    | ok => cases hfail
    | error e =>
      cases ha
      exact .inl (hkept (hkept hd₀ hle) hle').1
  · intro _ d₁ hd₁
    exact (fill_safe dest hd₁).imp (fun _ _ h => h) fun _ _ h => .inr h

variable (join : Url → String → Except String Url) (c : TgClient)

/-- A download that returns a length has written the whole body, of that length. One that fails has
not created the destination and left it as it was, or created it and left a first part of the body
there. -/
theorem download_complete_or_partial (fileId : String) (dest : WinPath.Path)
    (content : Option Content) :
    Safe (world dest) (c.downloadFile join fileId dest) (fun n d => d.Complete n)
      (fun _ d => d.Unchanged content ∨ d.Partial) ⟨content, none, none⟩ := by
  have hkept {d d' : Dest} (h : d.Unchanged content) (hle : d.Writes d') : d'.Unchanged content :=
    (h.writes hle).1
  have hlift {α : Type} {x : Except TgClientError α} {d : Dest} (hd : d.Unchanged content) :
      Safe (world dest) (lift x) (fun _ d => d.Unchanged content)
        (fun _ d => d.Unchanged content ∨ d.Partial) d :=
    Safe.lift (fun _ _ _ hle => hkept hd hle) fun _ _ _ hle => .inl (hkept hd hle)
  refine Safe.bind (hlift ⟨rfl, rfl⟩) fun url d₀ hd₀ => ?_
  refine Safe.bind ((Safe.act_same ?_ ?_ hkept hd₀).imp (fun _ _ h => h) fun _ _ => .inl)
    fun resp d₁ hd₁ => ?_
  · exact fun _ _ h => by cases h
  · exact fun _ _ _ ha => ha
  refine Safe.bind (hlift hd₁) fun filePath d₂ hd₂ => ?_
  refine Safe.bind (hlift hd₂) fun dlUrl d₃ hd₃ => ?_
  refine Safe.bind (Q := fun body d => d.served = some body ∧ d.Unchanged content)
    (Safe.act ?_ ?_ ?_) fun body d₄ hd₄ => store_safe dest hd₄.1 hd₄.2
  · exact fun _ _ _ h => by cases h
  · intro d₁ r d₂ v d₃' hle ha hok hle'
    cases r with
    | error e => cases hok
    | ok body =>
      cases hok
      cases ha
      obtain ⟨hcontent, htaken⟩ := hkept hd₃ hle
      have h := Unchanged.writes (d := ⟨d₁.content, d₁.taken, some v⟩) ⟨hcontent, htaken⟩ hle'
      exact ⟨h.2, h.1⟩
  · intro d₁ r d₂ v d₃' hle ha hfail hle'
    cases r with
    | ok body => cases hfail
    | error e =>
      cases ha
      exact .inl (hkept (hkept hd₃ hle) hle')

end

/-- A body that breaks off before its first chunk. -/
def broken : Body := ⟨[], .error "connection reset"⟩

/-- When the body breaks off, the file that was at the destination is lost, as it was emptied
before. -/
theorem not_download_unchanged :
    ¬ ∀ content, Safe (world (.parse "C:\\out.bin"))
      (telegram.downloadFile joinPath "file" (.parse "C:\\out.bin")) (fun n d => d.Complete n)
      (fun _ d => d.content = content) ⟨content, none, none⟩ := by
  intro h
  have hget : telegram.joined joinPath telegram.getFileRef =
      .ok ⟨telegram.apiBase.origin, "/bot12345:fake/GetFile"⟩ := rfl
  have hfile : telegram.joined joinPath (telegram.fileRef "documents/file_123.bin") =
      .ok ⟨telegram.apiBase.origin, "/file/bot12345:fake/documents/file_123.bin"⟩ := rfl
  have hparent : (WinPath.Path.parse "C:\\out.bin").parent = some (.parse "C:\\") := by decide
  obtain ⟨old, hold⟩ : ∃ old : Content, old.val = [1] := ⟨⟨[1], by decide⟩, rfl⟩
  have h₀ := h (some old)
  rw [downloadFile, hget, lift_ok, ok_bind] at h₀
  have h₁ : Safe _ (lift (filePathOf (found "documents/file_123.bin")) >>= fun filePath =>
      telegram.fetch joinPath filePath _) _ _ _ :=
    h₀.next (.ok (found "documents/file_123.bin")) ⟨some old, none, none⟩ rfl
  rw [filePathOf_found (by decide), lift_ok, ok_bind, fetch, hfile, lift_ok, ok_bind] at h₁
  have h₂ : Safe _ (store broken _) _ _ _ := h₁.next (.ok broken) ⟨some old, none, some broken⟩ rfl
  rw [store, createParent, hparent] at h₂
  have h₃ := h₂.next (.ok ()) ⟨some old, none, some broken⟩ rfl
  have h₄ := h₃.next (.ok ()) ⟨some ⟨[], by decide⟩, some [], some broken⟩ rfl
  rw [← Option.some.inj (h₄ _ (.inl rfl))] at hold
  cases hold

end TgClient

end TelegramMcp
