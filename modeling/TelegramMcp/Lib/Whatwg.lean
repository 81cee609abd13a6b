import Mathlib

/-!
# Path references by the URL standard

A reference that starts with one slash replaces the path of an http(s) base and keeps its origin.
The standard strips control characters and spaces from its ends and tabs and newlines from all of
it (`cleaned`), reads it up to the first `?` or `#`, separates it at `/` and `\` (`segments`) and
resolves the dot segments, in which `%2e` is a dot (`resolve`). A parser is a parameter here, and
`Joins` says that it does this.

Segments that are resolved below a directory climb out of some of its names and leave others
(`relative`); with both the result is known (`resolve_eq`), and with it whether the path starts
with the directory (`pathname_startsWith_iff`).
-/

namespace Whatwg

/-- A part of a path between two separators. -/
abbrev Segment := List Char

/-- Where a URL goes: what a request is sent to, before any path. -/
structure Origin where
  scheme : String
  host : String
  port : Option Nat
  deriving DecidableEq

/-- A URL, by its origin and the text of its path. -/
structure Url where
  origin : Origin
  path : String
  deriving DecidableEq

/-- A URL with a scheme in which a backslash separates, too. -/
def Url.IsHttp (u : Url) : Prop := u.origin.scheme = "http" ∨ u.origin.scheme = "https"

/-! ## Reading a reference -/

/-- The characters taken off both ends of a text before it is parsed. -/
def isC0ControlOrSpace (c : Char) : Bool := c.toNat ≤ 0x20

/-- The characters that are taken out of a text wherever they are. -/
def isTabOrNewline (c : Char) : Bool := c = '\t' || c = '\n' || c = '\r'

/-- A reverse solidus separates the path of an http(s) URL too. -/
def isSeparator (c : Char) : Bool := c = '/' || c = '\\'

/-- The characters at which a query or a fragment begins. -/
def endsPath (c : Char) : Bool := c = '?' || c = '#'

/-- What is read of a text to its end, without what is taken off there or taken out. -/
def cleanedEnd (cs : List Char) : List Char :=
  (cs.rdropWhile isC0ControlOrSpace).filter fun c => !isTabOrNewline c

/-- What is read of a reference after both ends were cleaned. -/
def cleaned (cs : List Char) : List Char := cleanedEnd (cs.dropWhile isC0ControlOrSpace)

/-- The segments of a path, which ends at a query or a fragment. -/
def segments (cs : List Char) : List Segment :=
  (cs.takeWhile fun c => !endsPath c).splitOnP isSeparator

/-! ## Dot segments -/

/-- A segment that stands for nothing, spelled out or percent-encoded. -/
def isSingleDot (seg : Segment) : Bool :=
  ["." , "%2e"].contains (String.ofList (seg.map Char.toLower))

/-- A segment that goes up, each dot of it spelled out or percent-encoded, in either case. -/
def isDoubleDot (seg : Segment) : Bool :=
  ["..", ".%2e", "%2e.", "%2e%2e"].contains (String.ofList (seg.map Char.toLower))

/-- The path after one more segment: a dot segment takes the last one away, or nothing. -/
def step (path : List Segment) (seg : Segment) : List Segment :=
  if isDoubleDot seg then path.dropLast else if isSingleDot seg then path else path ++ [seg]

/-- A path that ends in a dot segment ends in a separator. -/
def trailing (segs : List Segment) : List Segment :=
  if segs.getLast?.any fun seg => isDoubleDot seg || isSingleDot seg then [[]] else []

/-- The path after these segments, with a separator at its end where they end in a dot segment. -/
def resolve (path segs : List Segment) : List Segment := segs.foldl step path ++ trailing segs

/-! ## The text of a path -/

/-- A digit of a percent-encoded byte, in upper case. -/
def hexDigit (n : Nat) : Char := if n < 10 then Char.ofNat (0x30 + n) else Char.ofNat (0x37 + n)

/-- The UTF-8 percent-encoding of a character, if it is in the percent-encode set. -/
def encodeChar (set : Char → Bool) (c : Char) : List Char :=
  if set c then
    (String.utf8EncodeChar c).flatMap fun b =>
      ['%', hexDigit (b.toNat / 16), hexDigit (b.toNat % 16)]
  else [c]

/-- A segment with the characters of the set percent-encoded. -/
def encode (set : Char → Bool) (seg : Segment) : List Char := seg.flatMap (encodeChar set)

/-- The text of a path: each segment behind a separator. -/
def pathname (set : Char → Bool) (path : List Segment) : List Char :=
  path.flatMap fun seg => '/' :: encode set seg

/-- The characters that stand for themselves in every path. -/
def isPlain (c : Char) : Bool := c.isAlphanum || c = '-' || c = '_' || c = ':'

/-- The parser joins references as the standard says, with a path percent-encode set that leaves the
plain characters alone. -/
structure Joins (set : Char → Bool) (join : Url → String → Except String Url) : Prop where
  plain : ∀ c, isPlain c = true → set c = false
  join_eq : ∀ base ref rest, base.IsHttp → cleaned ref.toList = '/' :: rest →
    (∀ c ∈ rest.head?, isSeparator c = false) →
    join base ref = .ok ⟨base.origin, String.ofList (pathname set (resolve [] (segments rest)))⟩

/-- The standard's path percent-encode set. -/
def pathSet (c : Char) : Bool :=
  c.toNat ≤ 0x20 || 0x7E < c.toNat ||
    [0x22, 0x23, 0x3C, 0x3E, 0x3F, 0x5E, 0x60, 0x7B, 0x7D].contains c.toNat

/-- A parser that knows references of this kind only, for the examples. -/
def joinPath (base : Url) (ref : String) : Except String Url :=
  let cs := cleaned ref.toList
  if cs.head? = some '/' ∧ cs.tail.head?.all (fun c => !isSeparator c) then
    .ok ⟨base.origin, String.ofList (pathname pathSet (resolve [] (segments cs.tail)))⟩
  else .error "not a path"

/-- The codes of the plain characters. -/
theorem toNat_of_isPlain {c : Char} (h : isPlain c = true) :
    c.toNat = 0x2D ∨ 0x30 ≤ c.toNat ∧ c.toNat ≤ 0x3A ∨ 0x41 ≤ c.toNat ∧ c.toNat ≤ 0x5A ∨
      c.toNat = 0x5F ∨ 0x61 ≤ c.toNat ∧ c.toNat ≤ 0x7A := by
  have hle (n : UInt32) : n ≤ c.val ↔ n.toNat ≤ c.toNat := UInt32.le_iff_toNat_le
  have hge (n : UInt32) : c.val ≤ n ↔ c.toNat ≤ n.toNat := UInt32.le_iff_toNat_le
  simp only [isPlain, Char.isAlphanum, Char.isAlpha, Char.isUpper, Char.isLower, Char.isDigit,
    Bool.or_eq_true, Bool.and_eq_true, decide_eq_true_eq, ge_iff_le, hle, hge] at h
  rcases h with ((((h | h) | h) | rfl) | rfl) | rfl
  · exact .inr (.inr (.inl h))
  · exact .inr (.inr (.inr (.inr h)))
  · exact .inr (.inl ⟨h.1, h.2.trans (by decide)⟩)
  · exact .inl rfl
  · exact .inr (.inr (.inr (.inl rfl)))
  · exact .inr (.inl (by decide))

/-- No plain character is in the standard's set. -/
theorem pathSet_of_isPlain {c : Char} (h : isPlain c = true) : pathSet c = false := by
  have hcode := toNat_of_isPlain h
  simp only [pathSet, List.contains_cons, List.contains_nil, Bool.or_eq_false_iff,
    decide_eq_false_iff_not, beq_eq_false_iff_ne, and_true]
  omega

/-- The parser above joins references as the standard says. -/
theorem joins_joinPath : Joins pathSet joinPath := by
  refine ⟨fun _ => pathSet_of_isPlain, ?_⟩
  intro base ref rest _ hclean hhead
  have hall : rest.head?.all (fun c => !isSeparator c) = true := by
    cases rest with
    | nil => rfl
    | cons c rest => simpa using hhead c rfl
  simp only [joinPath, hclean]
  exact if_pos ⟨rfl, hall⟩

/-! ## Resolving below a directory -/

/-- Segments, as how many names of the directory they climb out of and the names they leave. -/
structure Relative where
  ups : Nat
  names : List Segment

/-- One more segment behind the others: it goes up to the directory's own names only when no name is
left to go up from. -/
def Relative.step (r : Relative) (seg : Segment) : Relative :=
  if isDoubleDot seg then
    if r.names = [] then ⟨r.ups + 1, []⟩ else ⟨r.ups, r.names.dropLast⟩
  else if isSingleDot seg then r else ⟨r.ups, r.names ++ [seg]⟩

/-- The segments of a path, seen from the directory they start in. -/
def relative (segs : List Segment) : Relative :=
  let r := segs.foldl Relative.step ⟨0, []⟩
  ⟨r.ups, r.names ++ trailing segs⟩

section
variable {segs : List Segment} {seg : Segment} (dir : List Segment)

/-- Resolving one more segment in the directory is the same as adding it to what was seen from
there. -/
theorem step_relative (r : Relative) :
    step (dir.rdrop r.ups ++ r.names) seg = dir.rdrop (r.step seg).ups ++ (r.step seg).names := by
  rw [step, Relative.step]
  split
  · split
    · next hnil =>
      rw [hnil, List.append_nil, List.append_nil, ← List.rdrop_add]
      exact List.dropLast_eq_take
    · next hne => exact List.dropLast_append_of_ne_nil hne
  · split
    · rfl
    · exact List.append_assoc _ _ _

/-- Resolving any number of segments in the directory is the same as adding them to what was seen
from there. -/
theorem foldl_step_relative (segs : List Segment) (r : Relative) :
    segs.foldl step (dir.rdrop r.ups ++ r.names) =
      dir.rdrop (segs.foldl Relative.step r).ups ++ (segs.foldl Relative.step r).names := by
  induction segs generalizing r with
  | nil => rfl
  | cons seg segs ih => rw [List.foldl_cons, List.foldl_cons, step_relative, ih]

/-- Where segments lead from a directory: so many names up, and then the names they leave. -/
theorem resolve_eq : resolve dir segs = dir.rdrop (relative segs).ups ++ (relative segs).names := by
  have h := foldl_step_relative dir segs ⟨0, []⟩
  rw [List.rdrop_zero, List.append_nil] at h
  rw [resolve, h, List.append_assoc]
  rfl

/-- Some name is left of a path, if only the empty one. -/
theorem relative_names_ne_nil (h : segs ≠ []) : (relative segs).names ≠ [] := by
  obtain ⟨segs, seg, rfl⟩ := (List.eq_nil_or_concat' segs).resolve_left h
  rw [relative, trailing, List.getLast?_concat, Option.any_some, List.foldl_concat]
  dsimp only
  split
  · exact List.append_ne_nil_of_right_ne_nil _ (List.cons_ne_nil _ _)
  · next hdots =>
    rw [Bool.or_eq_true, not_or] at hdots
    rw [Relative.step, if_neg hdots.1, if_neg hdots.2, List.append_nil]
    exact List.append_ne_nil_of_right_ne_nil _ (List.cons_ne_nil _ _)

/-- The names left begin with those climbed out of, and go on. -/
def Relative.Returns (r : Relative) (dir : List Segment) : Prop :=
  dir.rtake r.ups <+: r.names ∧ (dir.rtake r.ups).length < r.names.length

instance (r : Relative) (dir : List Segment) : Decidable (r.Returns dir) :=
  inferInstanceAs (Decidable (_ ∧ _))

/-- Segments that never climb out of the directory stay below it. -/
theorem returns_of_ups (h : segs ≠ []) (hups : (relative segs).ups = 0) :
    (relative segs).Returns dir := by
  rw [Relative.Returns, hups, List.rtake_zero]
  exact ⟨List.nil_prefix, List.length_pos_of_ne_nil (relative_names_ne_nil h)⟩

/-- The names that are climbed out of are the last ones of the directory. -/
theorem rdrop_append_rtake (n : Nat) : dir.rdrop n ++ dir.rtake n = dir :=
  List.take_append_drop _ dir

/-- Segments lead to a path below the directory exactly when they return to it. -/
theorem resolve_below_iff :
    dir <+: resolve dir segs ∧ dir.length < (resolve dir segs).length ↔
      (relative segs).Returns dir := by
  rw [resolve_eq, Relative.Returns]
  generalize relative segs = r
  have hdir := rdrop_append_rtake dir r.ups
  have hstarts : dir <+: dir.rdrop r.ups ++ r.names ↔ dir.rtake r.ups <+: r.names := by
    nth_rewrite 1 [← hdir]
    exact List.prefix_append_right_inj _
  have hlength : dir.length = (dir.rdrop r.ups).length + (dir.rtake r.ups).length := by
    rw [← List.length_append, hdir]
  rw [hstarts, List.length_append, hlength, Nat.add_lt_add_iff_left]

end

/-! ## Paths below a directory -/

section
variable {set : Char → Bool} {names path : List Segment} {seg name : Segment} {c : Char}

/-- No digit is a separator. -/
theorem hexDigit_ne_slash : ∀ n < 16, hexDigit n ≠ '/' := by decide

/-- Encoding a character puts no separator in. -/
theorem slash_notMem_encodeChar (h : c ≠ '/') : '/' ∉ encodeChar set c := by
  rw [encodeChar]
  split
  · intro hmem
    obtain ⟨b, -, hb⟩ := List.mem_flatMap.1 hmem
    have hlt : b.toNat < 256 := b.toNat_lt
    have hhigh := hexDigit_ne_slash (b.toNat / 16) (by omega)
    have hlow := hexDigit_ne_slash (b.toNat % 16) (by omega)
    simp [hhigh.symm, hlow.symm] at hb
  · simpa using h.symm

/-- Encoding a segment puts none in either, so that the text of a path can be split again. -/
theorem slash_notMem_encode (h : '/' ∉ seg) : '/' ∉ encode set seg := by
  intro hmem
  obtain ⟨c, hc, hslash⟩ := List.mem_flatMap.1 hmem
  exact slash_notMem_encodeChar (ne_of_mem_of_not_mem hc h) hslash

/-- A plain name is the encoding of itself only. -/
theorem encode_eq_iff (hset : ∀ c, isPlain c = true → set c = false)
    (hname : ∀ c ∈ name, isPlain c = true) : encode set seg = name ↔ seg = name := by
  induction seg generalizing name with
  | nil => rfl
  | cons c seg ih =>
    rw [encode, List.flatMap_cons, encodeChar]
    split
    · next hc =>
      refine iff_of_false ?_ ?_
      · rintro rfl
        obtain ⟨b, hb⟩ := List.exists_mem_of_ne_nil _ (String.utf8EncodeChar_ne_nil (c := c))
        have hpercent := hname '%' (List.mem_append_left _ (List.mem_flatMap.2
          ⟨b, hb, List.mem_cons_self⟩))
        exact absurd hpercent (by decide)
      · rintro rfl
        rw [hset c (hname c List.mem_cons_self)] at hc
        cases hc
    · cases name with
      | nil => simp
      | cons d name =>
        rw [List.singleton_append, List.cons.injEq, List.cons.injEq]
        exact and_congr_right fun _ => ih (List.forall_mem_cons.1 hname).2

/-- Of two texts, each a name and what follows the separator after it. -/
theorem append_isPrefix_iff {n e x y : List Char} (hn : '/' ∉ n) (he : '/' ∉ e)
    (hx : x.head? = some '/') (hy : ∀ c ∈ y.head?, c = '/') :
    n ++ x <+: e ++ y ↔ n = e ∧ x <+: y := by
  induction n generalizing e with
  | nil =>
    cases e with
    | nil => simp
    | cons d e =>
      obtain ⟨x, rfl⟩ := List.head?_eq_some_iff.1 hx
      refine iff_of_false ?_ fun h => by cases h.1
      rw [List.nil_append, List.cons_append, List.cons_prefix_cons]
      rintro ⟨rfl, -⟩
      exact he List.mem_cons_self
  | cons c n ih =>
    cases e with
    | nil =>
      refine iff_of_false ?_ fun h => by cases h.1
      cases y with
      | nil => simp
      | cons d y =>
        obtain rfl := hy d rfl
        rw [List.cons_append, List.nil_append, List.cons_prefix_cons]
        rintro ⟨rfl, -⟩
        exact hn List.mem_cons_self
    | cons d e =>
      rw [List.cons_append, List.cons_append, List.cons_prefix_cons, List.cons.injEq, and_assoc]
      exact and_congr_right fun _ =>
        ih (fun h => hn (List.mem_cons_of_mem _ h)) (fun h => he (List.mem_cons_of_mem _ h))

/-- A text of a path starts with a directory exactly when the path is below it. -/
theorem pathname_startsWith_iff (hset : ∀ c, isPlain c = true → set c = false)
    (hnames : ∀ n ∈ names, ∀ c ∈ n, isPlain c = true) (hpath : ∀ s ∈ path, '/' ∉ s) :
    names.flatMap (fun n => '/' :: n) ++ ['/'] <+: pathname set path ↔
      names <+: path ∧ names.length < path.length := by
  induction names generalizing path with
  | nil =>
    cases path with
    | nil => simp [pathname]
    | cons s path => simp [pathname]
  | cons n names ih =>
    cases path with
    | nil => simp [pathname]
    | cons s path =>
      obtain ⟨hn, hnames⟩ := List.forall_mem_cons.1 hnames
      obtain ⟨hs, hpath⟩ := List.forall_mem_cons.1 hpath
      have hslash : '/' ∉ n := fun hmem => absurd (hn '/' hmem) (by decide)
      have hfirst : (names.flatMap (fun n => '/' :: n) ++ ['/']).head? = some '/' := by
        cases names <;> rfl
      have hnext : ∀ c ∈ (pathname set path).head?, c = '/' := by
        intro c hc
        cases path with
        | nil => cases hc
        | cons s path => exact (Option.some.inj hc).symm
      rw [List.flatMap_cons, pathname, List.flatMap_cons, List.cons_append, List.cons_append,
        List.cons_append, List.cons_prefix_cons, List.append_assoc, ← pathname,
        append_isPrefix_iff hslash (slash_notMem_encode hs) hfirst hnext, ih hnames hpath,
        List.cons_prefix_cons, List.length_cons, List.length_cons, Nat.add_lt_add_iff_right,
        eq_comm (b := encode set s), encode_eq_iff hset hn, eq_comm (a := s), and_assoc]
      exact and_iff_right rfl

end

/-! ## References below a directory -/

section
variable {a b : List Char} {dir path segs : List Segment} {seg : Segment}

/-- What is kept at the end of the second part keeps the first part. -/
theorem rdropWhile_append {p : Char → Bool} (h : ∀ c ∈ a, p c = false) :
    (a ++ b).rdropWhile p = a ++ b.rdropWhile p := by
  induction b using List.reverseRecOn with
  | nil =>
    rw [List.append_nil, List.rdropWhile_nil, List.append_nil, List.rdropWhile_eq_self_iff]
    intro hne
    rw [h _ (List.getLast_mem hne)]
    exact Bool.false_ne_true
  | append_singleton b c ih =>
    rw [← List.append_assoc, List.rdropWhile_concat, List.rdropWhile_concat, ih]
    split
    · rfl
    · rw [List.append_assoc]

/-- Nothing of a text without control characters and spaces is left out. -/
theorem cleaned_append (ha : a ≠ []) (h : ∀ c ∈ a, isC0ControlOrSpace c = false) :
    cleaned (a ++ b) = a ++ cleanedEnd b := by
  have hfilter : a.filter (fun c => !isTabOrNewline c) = a := by
    rw [List.filter_eq_self]
    intro c hc
    have hcontrol := h c hc
    cases hnl : isTabOrNewline c with
    | false => rfl
    | true =>
      simp only [isTabOrNewline, Bool.or_eq_true, decide_eq_true_eq] at hnl
      obtain (rfl | rfl) | rfl := hnl
      · exact absurd hcontrol (by decide)
      · exact absurd hcontrol (by decide)
      · exact absurd hcontrol (by decide)
  have hdrop : (a ++ b).dropWhile isC0ControlOrSpace = a ++ b := by
    cases a with
    | nil => exact absurd rfl ha
    | cons c a => exact List.dropWhile_cons_of_neg (by simp [h c List.mem_cons_self])
  rw [cleaned, hdrop, cleanedEnd, rdropWhile_append h, List.filter_append, hfilter, cleanedEnd]

/-- A segment in front of a path stays a segment of its own. -/
theorem segments_append (h : ∀ c ∈ a, isSeparator c = false ∧ endsPath c = false) :
    segments (a ++ '/' :: b) = a :: segments b := by
  have hsep : ∀ c ∈ a, isSeparator c = false := fun c hc => (h c hc).1
  have htake : (a ++ '/' :: b).takeWhile (fun c => !endsPath c) =
      a ++ '/' :: b.takeWhile fun c => !endsPath c := by
    rw [List.takeWhile_append_of_pos, List.takeWhile_cons_of_pos (by decide)]
    intro c hc
    rw [(h c hc).2]
    rfl
  rw [segments, htake, List.splitOnP_append_cons_of_forall_mem hsep _ (by decide), segments]

/-- What a text is split at is in none of the parts. -/
theorem not_of_mem_splitOnP {p : Char → Bool} {cs : List Char} {c : Char}
    (h : seg ∈ cs.splitOnP p) (hc : c ∈ seg) : p c = false := by
  induction cs generalizing seg with
  | nil =>
    rw [List.splitOnP_nil, List.mem_singleton] at h
    subst h
    cases hc
  | cons d cs ih =>
    rw [List.splitOnP_cons_eq_if_modifyHead] at h
    split at h
    · rcases List.mem_cons.1 h with rfl | h
      · cases hc
      · exact ih h hc
    · next hd =>
      obtain ⟨first, rest, hsplit⟩ := List.exists_cons_of_ne_nil (List.splitOnP_ne_nil p cs)
      rw [hsplit, List.modifyHead_cons] at h
      rw [hsplit] at ih
      rcases List.mem_cons.1 h with rfl | h
      · rcases List.mem_cons.1 hc with rfl | hc
        · exact Bool.eq_false_iff.2 hd
        · exact ih List.mem_cons_self hc
      · exact ih (List.mem_cons_of_mem _ h) hc

/-- A path has a segment, which may be empty. -/
theorem segments_ne_nil (cs : List Char) : segments cs ≠ [] := List.splitOnP_ne_nil _ _

/-- No segment has a separator in it. -/
theorem slash_notMem_segments {cs : List Char} (h : seg ∈ segments cs) : '/' ∉ seg :=
  fun hslash => absurd (not_of_mem_splitOnP h hslash) (by decide)

/-- A step adds no segment but its own. -/
theorem mem_step {s : Segment} (h : seg ∈ step path s) : seg ∈ path ∨ seg = s := by
  rw [step] at h
  split at h
  · exact .inl (List.mem_of_mem_dropLast h)
  · split at h
    · exact .inl h
    · simpa using h

/-- So the steps add those of the path only. -/
theorem mem_foldl_step (h : seg ∈ segs.foldl step path) : seg ∈ path ∨ seg ∈ segs := by
  induction segs generalizing path with
  | nil => exact .inl h
  | cons s segs ih =>
    rcases ih h with h | h
    · refine (mem_step h).imp_right ?_
      rintro rfl
      exact List.mem_cons_self
    · exact .inr (List.mem_cons_of_mem _ h)

/-- The separator at the end adds an empty segment. -/
theorem eq_nil_of_mem_trailing (h : seg ∈ trailing segs) : seg = [] := by
  rw [trailing] at h
  split at h
  · exact List.mem_singleton.1 h
  · cases h

/-- A segment of the resolved path is one of the base, or one of the reference, or empty. -/
theorem mem_resolve (h : seg ∈ resolve path segs) : seg ∈ path ∨ seg ∈ segs ∨ seg = [] := by
  rcases List.mem_append.1 h with h | h
  · exact (mem_foldl_step h).imp_right .inl
  · exact .inr (.inr (eq_nil_of_mem_trailing h))

/-- A plain character does not become another one by being written in lower case. -/
theorem toLower_of_plain {c d : Char} (h : isPlain c = true) (hd : isPlain d = false)
    (hlow : d.toNat < 0x61) : c.toLower ≠ d := by
  intro heq
  rw [Char.toLower] at heq
  split at heq
  · next hupper =>
    have hval : (c.val + 32).toNat = d.toNat := congrArg (fun c : Char => c.val.toNat) heq
    have hge : 0x41 ≤ c.val.toNat := UInt32.le_iff_toNat_le.1 hupper.1
    have hle : c.val.toNat ≤ 0x5A := UInt32.le_iff_toNat_le.1 hupper.2
    rw [UInt32.toNat_add] at hval
    have h32 : (32 : UInt32).toNat = 32 := rfl
    omega
  · rw [heq, hd] at h
    cases h

/-- A plain name is no dot segment, as it has neither a dot nor a percent sign. -/
theorem not_dots_of_plain (hne : seg ≠ []) (h : ∀ c ∈ seg, isPlain c = true) :
    isDoubleDot seg = false ∧ isSingleDot seg = false := by
  obtain ⟨c, seg, rfl⟩ := List.exists_cons_of_ne_nil hne
  have hdot : c.toLower ≠ '.' := toLower_of_plain (h c List.mem_cons_self) rfl (by decide)
  have hpercent : c.toLower ≠ '%' := toLower_of_plain (h c List.mem_cons_self) rfl (by decide)
  have hfirst {s : String} (hs : s.toList.head? = some '.' ∨ s.toList.head? = some '%') :
      String.ofList ((c :: seg).map Char.toLower) ≠ s := by
    rintro rfl
    rw [String.toList_ofList, List.map_cons, List.head?_cons, Option.some.injEq,
      Option.some.injEq] at hs
    exact hs.elim hdot hpercent
  have hdouble : ∀ s ∈ ["..", ".%2e", "%2e.", "%2e%2e"],
      s.toList.head? = some '.' ∨ s.toList.head? = some '%' := by decide
  have hsingle : ∀ s ∈ [".", "%2e"],
      s.toList.head? = some '.' ∨ s.toList.head? = some '%' := by decide
  refine ⟨?_, ?_⟩
  · rw [isDoubleDot, List.contains_eq_mem, decide_eq_false_iff_not]
    exact fun hmem => hfirst (hdouble _ hmem) rfl
  · rw [isSingleDot, List.contains_eq_mem, decide_eq_false_iff_not]
    exact fun hmem => hfirst (hsingle _ hmem) rfl

/-- Plain names before other segments are the directory these are resolved in. -/
theorem resolve_append (hdir : ∀ n ∈ dir, n ≠ [] ∧ ∀ c ∈ n, isPlain c = true) (h : segs ≠ []) :
    resolve path (dir ++ segs) = resolve (path ++ dir) segs := by
  have htrailing : trailing (dir ++ segs) = trailing segs := by
    rw [trailing, trailing, List.getLast?_append_of_ne_nil _ h]
  have hfold : dir.foldl step path = path ++ dir := by
    clear htrailing
    induction dir generalizing path with
    | nil => exact (List.append_nil path).symm
    | cons n dir ih =>
      obtain ⟨⟨hne, hn⟩, hdir⟩ := List.forall_mem_cons.1 hdir
      obtain ⟨hdouble, hsingle⟩ := not_dots_of_plain hne hn
      have hstep : step path n = path ++ [n] := by
        rw [step, hdouble, hsingle]
        rfl
      rw [List.foldl_cons, hstep, ih hdir, ← List.append_cons]
  rw [resolve, List.foldl_append, hfold, htrailing, resolve]

/-- A plain character is read as itself, and not taken out. -/
theorem reads_plain {c : Char} (h : isPlain c = true) :
    isC0ControlOrSpace c = false ∧ isSeparator c = false ∧ endsPath c = false := by
  have hcode := toNat_of_isPlain h
  have hne {d : Char} (hd : isPlain d = false) : decide (c = d) = false := by
    rw [decide_eq_false_iff_not]
    rintro rfl
    rw [hd] at h
    cases h
  refine ⟨?_, ?_, ?_⟩
  · rw [isC0ControlOrSpace, decide_eq_false_iff_not]
    omega
  · rw [isSeparator, hne rfl, hne rfl]
    rfl
  · rw [endsPath, hne rfl, hne rfl]
    rfl

/-- The segments of a text that starts with plain names begin with these. -/
theorem segments_names {n : Segment} (hn : ∀ c ∈ n, isPlain c = true)
    (hdir : ∀ m ∈ dir, ∀ c ∈ m, isPlain c = true) :
    segments (n ++ (dir.flatMap (fun m => '/' :: m) ++ '/' :: b)) = n :: (dir ++ segments b) := by
  have hread : ∀ c ∈ n, isSeparator c = false ∧ endsPath c = false :=
    fun c hc => (reads_plain (hn c hc)).2
  induction dir generalizing n with
  | nil => exact segments_append hread
  | cons m dir ih =>
    obtain ⟨hm, hdir⟩ := List.forall_mem_cons.1 hdir
    rw [List.flatMap_cons, List.cons_append, List.cons_append, segments_append hread,
      List.append_assoc, ih hm hdir fun c hc => (reads_plain (hm c hc)).2, List.cons_append]

variable {set : Char → Bool} {join : Url → String → Except String Url} {base : Url} {ref : String}

/-- A reference that starts with a directory is joined at the same origin, and its path starts with
the directory exactly when the segments after it return there. -/
theorem Joins.below_iff (hjoin : Joins set join) (hbase : base.IsHttp) (hne : dir ≠ [])
    (hdir : ∀ n ∈ dir, n ≠ [] ∧ ∀ c ∈ n, isPlain c = true)
    (href : ref.toList = dir.flatMap (fun n => '/' :: n) ++ '/' :: b) :
    ∃ url, join base ref = .ok url ∧ url.origin = base.origin ∧
      (dir.flatMap (fun n => '/' :: n) ++ ['/'] <+: url.path.toList ↔
        (relative (segments (cleanedEnd b))).Returns dir) := by
  have hplain : ∀ n ∈ dir, ∀ c ∈ n, isPlain c = true := fun n hn => (hdir n hn).2
  have hslash : ∀ s ∈ resolve dir (segments (cleanedEnd b)), '/' ∉ s := by
    intro s hs
    rcases mem_resolve hs with hs | hs | rfl
    · exact fun hmem => absurd (hplain s hs '/' hmem) (by decide)
    · exact slash_notMem_segments hs
    · exact List.not_mem_nil
  have hclean : cleaned ref.toList = dir.flatMap (fun n => '/' :: n) ++ '/' :: cleanedEnd b := by
    rw [href, List.append_cons, cleaned_append (by simp), ← List.append_cons]
    intro c hc
    rcases List.mem_append.1 hc with hc | hc
    · obtain ⟨n, hn, hc⟩ := List.mem_flatMap.1 hc
      rcases List.mem_cons.1 hc with rfl | hc
      · rfl
      · exact (reads_plain (hplain n hn c hc)).1
    · rw [List.mem_singleton.1 hc]
      rfl
  obtain ⟨n, names, rfl⟩ := List.exists_cons_of_ne_nil hne
  obtain ⟨⟨hn, hnplain⟩, -⟩ := List.forall_mem_cons.1 hdir
  rw [List.flatMap_cons, List.cons_append, List.cons_append, List.append_assoc] at hclean
  have hhead : ∀ c ∈ (n ++ (names.flatMap (fun n => '/' :: n) ++ '/' :: cleanedEnd b)).head?,
      isSeparator c = false := by
    intro c hc
    rw [List.head?_append_of_ne_nil _ hn] at hc
    exact (reads_plain (hnplain c (List.mem_of_mem_head? hc))).2.1
  refine ⟨_, hjoin.join_eq base ref _ hbase hclean hhead, rfl, ?_⟩
  rw [String.toList_ofList, segments_names hnplain (List.forall_mem_cons.1 hplain).2,
    ← List.cons_append, resolve_append hdir (segments_ne_nil _), List.nil_append,
    pathname_startsWith_iff hjoin.plain hplain hslash, resolve_below_iff]

end

end Whatwg
