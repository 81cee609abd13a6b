import Mathlib.Data.List.Basic
import Mathlib.Data.List.DropRight

/-!
# Windows paths

`Path.parse` reads a string as `std::path` does on Windows: an optional prefix (a drive, a share, a
device, or the verbatim form of one), an optional separator that makes it rooted, and the names
between the separators. `Path.components` is the sequence of components, with `.` and repeated
separators normalised away. `Path.push` is `PathBuf::push`, on texts: a path with a prefix replaces
the base, a rooted path replaces everything but the base's prefix, and anything else is written
behind the base, after a separator when it needs one; a verbatim base is written anew from its
components. What the new text begins with is read again from the start, so `Path.join` is the parse
of that text, and a base may gain or change its prefix by it.

`Spells` is the grammar of prefixes, and `parsePrefix_eq_some_iff` says that `parsePrefix` reads it.
-/

namespace WinPath

/-- `Prefix`: what a path may start with, in the six forms of the source. -/
inductive Prefix
  | verbatim (name : String)
  | verbatimUNC (server share : String)
  | verbatimDisk (drive : Char)
  | deviceNS (name : String)
  | unc (server share : String)
  | disk (drive : Char)
  deriving DecidableEq, Repr

namespace Prefix

/-- The number of characters of a path that its prefix takes. -/
def len : Prefix → Nat
  | verbatim name => 4 + name.length
  | verbatimUNC server share => 8 + server.length + if share = "" then 0 else 1 + share.length
  | verbatimDisk _ => 6
  | deviceNS name => 4 + name.length
  | unc server share => 2 + server.length + if share = "" then 0 else 1 + share.length
  | disk _ => 2

/-- The prefixes behind which only the backslash separates and nothing is normalised. -/
def isVerbatim : Prefix → Bool
  | verbatim _ | verbatimUNC _ _ | verbatimDisk _ => true
  | _ => false

/-- A drive such as `C:`, which is the one prefix a path can have without being absolute. -/
def isDrive : Prefix → Bool
  | disk _ => true
  | _ => false

/-- Every prefix but a drive makes the path rooted, whether a separator follows or not. -/
def hasImplicitRoot (p : Prefix) : Bool := !p.isDrive

end Prefix

/-- `Component`: what a path is made of, in its order. -/
inductive Component
  | ofPrefix (p : Prefix)
  | rootDir
  | curDir
  | parentDir
  | normal (name : String)
  deriving DecidableEq, Repr

/-- A component that stays below what precedes it: a name, or a `.`. -/
def Component.isInner : Component → Bool
  | curDir | normal _ => true
  | _ => false

/-! ## Parsing -/

/-- The only separator of verbatim paths. -/
def isVerbatimSep (c : Char) : Bool := c = '\\'

/-- The two separators of all other paths. -/
def isSep (c : Char) : Bool := c = '\\' || c = '/'

/-- The separators of a path: a verbatim one has `\` only. -/
def sepOf (verbatim : Bool) : Char → Bool := if verbatim then isVerbatimSep else isSep

/-- `parse_next_component`: the characters up to a separator, and those after it. -/
def parseNextComponent (verbatim : Bool) (cs : List Char) : List Char × List Char :=
  (cs.takeWhile fun c => !sepOf verbatim c, (cs.dropWhile fun c => !sepOf verbatim c).drop 1)

/-- `parse_drive`: a letter and a colon at the start of the text; the letter is taken in upper
case. -/
def parseDrive : List Char → Option Char
  | d :: ':' :: _ => if d.isAlpha then some d.toUpper else none
  | _ => none

/-- `parse_drive_exact`: a drive with a separator or nothing after it. -/
def parseDriveExact (cs : List Char) : Option Char :=
  if cs[2]?.all isSep then parseDrive cs else none

/-- A character as the start of a path is compared: `/` counts as `\`. -/
def norm (c : Char) : Char := if c = '/' then '\\' else c

/-- Whether the path starts with the text, in whose place it may have `/` for `\`. Only the first
eight characters are looked at. -/
def startsWith (text : List Char) (cs : List Char) : Bool :=
  text.isPrefixOf ((cs.take 8).map norm)

/-- The mark `\\?\`, which makes a path verbatim. -/
def verbatimMark : List Char := ['\\', '\\', '?', '\\']

/-- The mark `\\.\`, which names a device. -/
def deviceMark : List Char := ['\\', '\\', '.', '\\']

/-- `parse_prefix`: two backslashes, or slashes for them, start a verbatim, a device or a UNC
prefix; else there is a drive or nothing. A UNC prefix must have both its names. -/
def parsePrefix (cs : List Char) : Option Prefix :=
  if startsWith ['\\', '\\'] cs then
    -- a verbatim prefix is not recognised with the other separator
    if startsWith verbatimMark cs && !(cs.take 4).contains '/' then
      if startsWith (verbatimMark ++ ['U', 'N', 'C', '\\']) cs then
        let (server, rest) := parseNextComponent true (cs.drop 8)
        let (share, _) := parseNextComponent true rest
        some (.verbatimUNC (String.ofList server) (String.ofList share))
      else
        match parseDriveExact (cs.drop 4) with
        | some d => some (.verbatimDisk d)
        | none => some (.verbatim (String.ofList (parseNextComponent true (cs.drop 4)).1))
    else if startsWith deviceMark cs then
      some (.deviceNS (String.ofList (parseNextComponent false (cs.drop 4)).1))
    else
      let (server, rest) := parseNextComponent false (cs.drop 2)
      let (share, _) := parseNextComponent false rest
      if server ≠ [] ∧ share ≠ [] then some (.unc (String.ofList server) (String.ofList share))
      else none
  else (parseDrive cs).map .disk

/-! ## The grammar of prefixes -/

/-- Both separators are compared as the backslash, and nothing else is. -/
theorem norm_eq_backslash_iff {c : Char} : norm c = '\\' ↔ isSep c := by
  unfold norm isSep
  split
  · next h => simp [h]
  · next h => simp [h]

/-- Any other character is compared as itself. -/
theorem norm_eq_iff {c x : Char} (hx : ¬ isSep x) : norm c = x ↔ c = x := by
  have hback : '\\' ≠ x := fun h => hx (h ▸ rfl)
  have hslash : '/' ≠ x := fun h => hx (h ▸ rfl)
  unfold norm
  split
  · next h => exact iff_of_false hback (h ▸ hslash)
  · exact Iff.rfl

/-- What starts with a text of at most eight characters has it in front. -/
theorem startsWith_iff {text cs : List Char} (hlen : text.length ≤ 8) :
    startsWith text cs ↔ ∃ xs rest, cs = xs ++ rest ∧ xs.map norm = text := by
  rw [startsWith, List.isPrefixOf_iff_prefix]
  refine ⟨?_, ?_⟩
  · intro h
    refine ⟨cs.take text.length, cs.drop text.length, (List.take_append_drop ..).symm, ?_⟩
    have htake := List.prefix_iff_eq_take.1 h
    rw [← List.map_take, List.take_take, Nat.min_eq_left hlen] at htake
    exact htake.symm
  · rintro ⟨xs, rest, rfl, rfl⟩
    rw [List.length_map] at hlen
    rw [List.take_append, List.take_of_length_le hlen, List.map_append]
    exact List.prefix_append _ _

/-- The next component has no separator in it, and one behind it unless the path ends there. -/
theorem parseNextComponent_split (verbatim : Bool) (cs : List Char) :
    (∀ c ∈ (parseNextComponent verbatim cs).1, sepOf verbatim c = false) ∧
      (cs = (parseNextComponent verbatim cs).1 ∧ (parseNextComponent verbatim cs).2 = [] ∨
        ∃ s, sepOf verbatim s ∧
          cs = (parseNextComponent verbatim cs).1 ++ s :: (parseNextComponent verbatim cs).2) := by
  refine ⟨fun c hc => by simpa using List.mem_takeWhile_imp hc, ?_⟩
  have hsplit := List.takeWhile_append_dropWhile (p := fun c => !sepOf verbatim c) (l := cs)
  cases hdrop : cs.dropWhile fun c => !sepOf verbatim c with
  | nil =>
    rw [hdrop, List.append_nil] at hsplit
    refine .inl ⟨hsplit.symm, ?_⟩
    rw [parseNextComponent, hdrop, List.drop_nil]
  | cons s rest =>
    refine .inr ⟨s, ?_, ?_⟩
    · have hhead := List.head?_dropWhile_not (fun c => !sepOf verbatim c) cs
      rw [hdrop] at hhead
      simpa using hhead
    · rw [parseNextComponent, hdrop]
      rw [hdrop] at hsplit
      exact hsplit.symm

/-- A name without a separator is the next component, when nothing or a separator follows it. -/
theorem parseNextComponent_append {verbatim : Bool} {name rest : List Char}
    (hname : ∀ c ∈ name, sepOf verbatim c = false) (hrest : rest.head?.all (sepOf verbatim)) :
    parseNextComponent verbatim (name ++ rest) = (name, rest.drop 1) := by
  have hnot : ∀ c ∈ name, (!sepOf verbatim c) = true := fun c hc => by rw [hname c hc]; rfl
  rw [parseNextComponent, List.takeWhile_append_of_pos hnot, List.dropWhile_append_of_pos hnot]
  cases rest with
  | nil => rw [List.takeWhile_nil, List.append_nil]; rfl
  | cons s rest =>
    have hs : sepOf verbatim s = true := by simpa using hrest
    rw [List.takeWhile_cons_of_neg (by simp [hs]), List.dropWhile_cons_of_neg (by simp [hs]),
      List.append_nil]

/-- A share or a name behind a separator; nothing for none. -/
def behind (share : List Char) : List Char := if share = [] then [] else '\\' :: share

/-- The texts of a prefix. What its names may be depends on the forms that are tried before. -/
inductive Spells : List Char → Prefix → Prop
  | verbatimUNC {sep : Char} {server share : List Char} (hsep : isSep sep)
    (hserver : ∀ c ∈ server, sepOf true c = false) (hshare : ∀ c ∈ share, sepOf true c = false) :
    Spells (verbatimMark ++ (['U', 'N', 'C', sep] ++ (server ++ behind share)))
      (.verbatimUNC (String.ofList server) (String.ofList share))
  | verbatimDisk {d : Char} (hd : d.isAlpha) :
    Spells (verbatimMark ++ [d, ':']) (.verbatimDisk d.toUpper)
  | verbatim {name : List Char} (hname : ∀ c ∈ name, sepOf true c = false)
    (hunc : ∀ rest, name ≠ ['U', 'N', 'C', '/'] ++ rest) (hdrive : parseDriveExact name = none) :
    Spells (verbatimMark ++ name) (.verbatim (String.ofList name))
  | deviceNS {xs name : List Char} (hxs : xs.map norm = deviceMark)
    (hname : ∀ c ∈ name, sepOf false c = false) :
    Spells (xs ++ name) (.deviceNS (String.ofList name))
  | unc {a b sep : Char} {server share : List Char} (ha : isSep a) (hb : isSep b) (hsep : isSep sep)
    (hserver : server ≠ [] ∧ ∀ c ∈ server, sepOf false c = false)
    (hshare : share ≠ [] ∧ ∀ c ∈ share, sepOf false c = false)
    (hdevice : server ≠ ['.']) (hverbatim : server = ['?'] → '/' ∈ [a, b, sep]) :
    Spells ([a, b] ++ (server ++ sep :: share))
      (.unc (String.ofList server) (String.ofList share))
  | disk {d : Char} (hd : d.isAlpha) : Spells [d, ':'] (.disk d.toUpper)

/-- What may follow the text of a prefix, so that it is read as this prefix. -/
def Follows : Prefix → List Char → Prop
  | .disk _, _ => True
  | .verbatimDisk _, rest | .deviceNS _, rest | .unc _ _, rest => rest.head?.all isSep
  | .verbatim name, rest => rest.head?.all (sepOf true) ∧ (name = "UNC" → rest = [])
  | .verbatimUNC _ share, rest =>
    rest.head?.all (sepOf true) ∧ (share = "" → (rest.drop 1).head?.all (sepOf true))

/-- The text of a prefix is as long as the prefix says. -/
theorem Spells.length_eq {raw : List Char} {pre : Prefix} (h : Spells raw pre) :
    raw.length = pre.len := by
  cases h with
  | @verbatimUNC sep server share =>
    rw [Prefix.len, behind]
    by_cases hshare : share = []
    · subst hshare
      simp [verbatimMark]
      omega
    · have hne : String.ofList share ≠ "" := fun heq => hshare (by simpa using heq)
      simp [verbatimMark, hshare]
      omega
  | verbatimDisk | disk => rfl
  | verbatim => simp [Prefix.len, verbatimMark]; omega
  | deviceNS hxs =>
    have hlen := congrArg List.length hxs
    rw [List.length_map] at hlen
    rw [Prefix.len, List.length_append, hlen, String.length_ofList]
    rfl
  | @unc a b sep server share _ _ _ _ hshare =>
    have hne : String.ofList share ≠ "" := fun heq => hshare.1 (by simpa using heq)
    simp [Prefix.len, hshare.1]
    omega

/-- The mark of the verbatim prefixes has no slashes to be normalised. -/
theorem map_norm_verbatimMark : verbatimMark.map norm = verbatimMark := by decide

/-- What starts as a verbatim path does, in its first four characters, and has no `/` there. -/
theorem eq_verbatimMark {xs : List Char} (hxs : xs.map norm = verbatimMark) (hslash : '/' ∉ xs) :
    xs = verbatimMark := by
  rw [← hxs, List.map_congr_left (g := id), List.map_id]
  intro c hc
  exact if_neg (ne_of_mem_of_not_mem hc hslash)

/-- A path that starts with the verbatim mark, and with no `/` in its place. -/
theorem startsWith_verbatimMark_iff {cs : List Char} :
    (startsWith verbatimMark cs && !(cs.take 4).contains '/') = true ↔
      ∃ rest, cs = verbatimMark ++ rest := by
  rw [Bool.and_eq_true, startsWith_iff (by decide)]
  refine ⟨?_, ?_⟩
  · rintro ⟨⟨xs, rest, rfl, hxs⟩, hslash⟩
    have hlen : xs.length = 4 := by simpa [verbatimMark] using congrArg List.length hxs
    refine ⟨rest, congrArg (· ++ rest) (eq_verbatimMark hxs ?_)⟩
    rw [← hlen, List.take_left] at hslash
    simpa using hslash
  · rintro ⟨rest, rfl⟩
    exact ⟨⟨verbatimMark, rest, rfl, map_norm_verbatimMark⟩, by simp [verbatimMark]⟩

/-- A verbatim path that goes on with `UNC` and a separator, of either kind. -/
theorem startsWith_unc_iff {cs : List Char} :
    startsWith (verbatimMark ++ ['U', 'N', 'C', '\\']) (verbatimMark ++ cs) = true ↔
      ∃ sep rest, isSep sep ∧ cs = ['U', 'N', 'C', sep] ++ rest := by
  rw [startsWith_iff (by decide)]
  refine ⟨?_, ?_⟩
  · rintro ⟨xs, rest, hcs, hxs⟩
    obtain ⟨ys, zs, rfl, hys, hzs⟩ := List.map_eq_append_iff.1 hxs
    have hlen : ys.length = verbatimMark.length := by
      rw [← hys, List.length_map]
    rw [List.append_assoc] at hcs
    obtain ⟨-, hcs⟩ := List.append_inj hcs hlen.symm
    obtain ⟨u, _, rfl, hu, hzs⟩ := List.map_eq_cons_iff.1 hzs
    obtain ⟨n, _, rfl, hn, hzs⟩ := List.map_eq_cons_iff.1 hzs
    obtain ⟨c, _, rfl, hc, hzs⟩ := List.map_eq_cons_iff.1 hzs
    obtain ⟨sep, _, rfl, hsep, hzs⟩ := List.map_eq_cons_iff.1 hzs
    obtain rfl := List.map_eq_nil_iff.1 hzs
    refine ⟨sep, rest, norm_eq_backslash_iff.1 hsep, ?_⟩
    rw [hcs, (norm_eq_iff (by decide)).1 hu, (norm_eq_iff (by decide)).1 hn,
      (norm_eq_iff (by decide)).1 hc]
  · rintro ⟨sep, rest, hsep, rfl⟩
    refine ⟨verbatimMark ++ ['U', 'N', 'C', sep], rest, by simp, ?_⟩
    rw [List.map_append, map_norm_verbatimMark]
    simp only [List.map_cons, List.map_nil, norm_eq_backslash_iff.2 hsep]
    rfl

/-- A drive is a letter before a colon, in either case. -/
theorem parseDrive_cons_cons (d c : Char) (rest : List Char) :
    parseDrive (d :: c :: rest) = if c = ':' ∧ d.isAlpha then some d.toUpper else none := by
  by_cases hc : c = ':'
  · subst hc
    simp [parseDrive]
  · rw [if_neg fun h => hc h.1]
    unfold parseDrive
    split
    · next heq => exact absurd (List.cons.inj (List.cons.inj heq).2).1 hc
    · rfl

/-- A separator is no letter of a drive. -/
theorem isAlpha_of_isSep {c : Char} (h : isSep c) : c.isAlpha = false := by
  rcases (by simpa [isSep] using h : c = '\\' ∨ c = '/') with rfl | rfl <;> rfl

/-- A drive is looked for in what precedes a separator only. -/
theorem parseDriveExact_append {name rest : List Char} (hrest : rest.head?.all (sepOf true)) :
    parseDriveExact (name ++ rest) = parseDriveExact name := by
  have hfirst : ∀ tail, parseDriveExact ('\\' :: tail) = none := by
    intro tail
    cases tail with
    | nil => rfl
    | cons c tail =>
      simp [parseDriveExact, parseDrive_cons_cons, isAlpha_of_isSep (c := '\\') rfl]
  cases rest with
  | nil => rw [List.append_nil]
  | cons s tail =>
    obtain rfl : s = '\\' := by simpa [sepOf, isVerbatimSep] using hrest
    rcases name with _ | ⟨d, _ | ⟨c, _ | ⟨e, name⟩⟩⟩
    · exact hfirst tail
    · simp [parseDriveExact, parseDrive]
    · simp [parseDriveExact, parseDrive_cons_cons, isSep]
    · simp [parseDriveExact, parseDrive_cons_cons]

/-- A separator of a verbatim path is one of any path. -/
theorem isSep_of_sepOf {verbatim : Bool} {c : Char} (h : sepOf verbatim c) : isSep c := by
  cases verbatim with
  | false => exact h
  | true => simp [isSep, show c = '\\' by simpa [sepOf, isVerbatimSep] using h]

/-- A path that starts with two separators has them as its first characters. -/
theorem startsWith_seps_iff {cs : List Char} :
    startsWith ['\\', '\\'] cs = true ↔ ∃ a b rest, isSep a ∧ isSep b ∧ cs = a :: b :: rest := by
  rw [startsWith_iff (by decide)]
  refine ⟨?_, ?_⟩
  · rintro ⟨xs, rest, rfl, hxs⟩
    obtain ⟨a, _, rfl, ha, hxs⟩ := List.map_eq_cons_iff.1 hxs
    obtain ⟨b, _, rfl, hb, hxs⟩ := List.map_eq_cons_iff.1 hxs
    obtain rfl := List.map_eq_nil_iff.1 hxs
    exact ⟨a, b, rest, norm_eq_backslash_iff.1 ha, norm_eq_backslash_iff.1 hb, rfl⟩
  · rintro ⟨a, b, rest, ha, hb, rfl⟩
    refine ⟨[a, b], rest, rfl, ?_⟩
    rw [List.map_cons, List.map_cons, norm_eq_backslash_iff.2 ha, norm_eq_backslash_iff.2 hb]
    rfl

/-- A verbatim path starts with two separators. -/
theorem startsWith_seps_verbatimMark (cs : List Char) :
    startsWith ['\\', '\\'] (verbatimMark ++ cs) = true :=
  startsWith_seps_iff.2 ⟨_, _, _, rfl, rfl, rfl⟩

/-- A device path has a separator, a `.` and a separator after its first one. -/
theorem startsWith_deviceMark_iff {cs : List Char} :
    startsWith deviceMark cs = true ↔
      ∃ a b c rest, isSep a ∧ isSep b ∧ isSep c ∧ cs = a :: b :: '.' :: c :: rest := by
  rw [startsWith_iff (by decide)]
  refine ⟨?_, ?_⟩
  · rintro ⟨xs, rest, rfl, hxs⟩
    obtain ⟨a, _, rfl, ha, hxs⟩ := List.map_eq_cons_iff.1 hxs
    obtain ⟨b, _, rfl, hb, hxs⟩ := List.map_eq_cons_iff.1 hxs
    obtain ⟨dot, _, rfl, hdot, hxs⟩ := List.map_eq_cons_iff.1 hxs
    obtain ⟨c, _, rfl, hc, hxs⟩ := List.map_eq_cons_iff.1 hxs
    obtain rfl := List.map_eq_nil_iff.1 hxs
    obtain rfl := (norm_eq_iff (by decide)).1 hdot
    exact ⟨a, b, c, rest, norm_eq_backslash_iff.1 ha, norm_eq_backslash_iff.1 hb,
      norm_eq_backslash_iff.1 hc, rfl⟩
  · rintro ⟨a, b, c, rest, ha, hb, hc, rfl⟩
    refine ⟨[a, b, '.', c], rest, rfl, ?_⟩
    simp only [List.map_cons, List.map_nil, norm_eq_backslash_iff.2 ha,
      norm_eq_backslash_iff.2 hb, norm_eq_backslash_iff.2 hc]
    rfl

/-! Each form of a prefix, with what makes `parsePrefix` take it. -/

section
variable {cs : List Char}

/-- Behind the verbatim mark and `UNC`, a server and a share are read. -/
theorem parsePrefix_verbatimUNC {sep : Char} (hsep : isSep sep) :
    parsePrefix (verbatimMark ++ (['U', 'N', 'C', sep] ++ cs)) =
      some (.verbatimUNC (String.ofList (parseNextComponent true cs).1)
        (String.ofList (parseNextComponent true (parseNextComponent true cs).2).1)) := by
  unfold parsePrefix
  rw [if_pos (startsWith_seps_verbatimMark _),
    if_pos (startsWith_verbatimMark_iff.2 ⟨_, rfl⟩),
    if_pos (startsWith_unc_iff.2 ⟨sep, cs, hsep, rfl⟩)]
  rfl

/-- Behind the verbatim mark alone there is a drive that is the whole name, or else any name. -/
theorem parsePrefix_verbatim (hunc : ∀ sep rest, isSep sep → cs ≠ ['U', 'N', 'C', sep] ++ rest) :
    parsePrefix (verbatimMark ++ cs) =
      some ((parseDriveExact cs).elim (.verbatim (String.ofList (parseNextComponent true cs).1))
        .verbatimDisk) := by
  unfold parsePrefix
  rw [if_pos (startsWith_seps_verbatimMark _),
    if_pos (startsWith_verbatimMark_iff.2 ⟨_, rfl⟩), if_neg]
  · rw [show List.drop 4 (verbatimMark ++ cs) = cs from rfl]
    cases parseDriveExact cs <;> rfl
  · intro h
    obtain ⟨sep, rest, hsep, heq⟩ := startsWith_unc_iff.1 h
    exact hunc sep rest hsep heq

/-- Behind the mark of the device namespace there is a name, with separators of either kind in the
mark. -/
theorem parsePrefix_deviceNS {a b c : Char} (ha : isSep a) (hb : isSep b) (hc : isSep c) :
    parsePrefix (a :: b :: '.' :: c :: cs) =
      some (.deviceNS (String.ofList (parseNextComponent false cs).1)) := by
  unfold parsePrefix
  rw [if_pos (startsWith_seps_iff.2 ⟨a, b, _, ha, hb, rfl⟩), if_neg,
    if_pos (startsWith_deviceMark_iff.2 ⟨a, b, c, cs, ha, hb, hc, rfl⟩)]
  · rfl
  · intro h
    obtain ⟨rest, heq⟩ := startsWith_verbatimMark_iff.1 h
    simp [verbatimMark] at heq

/-- Behind two separators that start neither mark, there is a server and a share, or no prefix when
one of them is missing. -/
theorem parsePrefix_unc {a b : Char} (ha : isSep a) (hb : isSep b)
    (hverbatim : ∀ rest, a :: b :: cs ≠ verbatimMark ++ rest)
    (hdevice : ∀ c rest, isSep c → cs ≠ '.' :: c :: rest) :
    parsePrefix (a :: b :: cs) =
      if (parseNextComponent false cs).1 ≠ [] ∧
          (parseNextComponent false (parseNextComponent false cs).2).1 ≠ [] then
        some (.unc (String.ofList (parseNextComponent false cs).1)
          (String.ofList (parseNextComponent false (parseNextComponent false cs).2).1))
      else none := by
  unfold parsePrefix
  rw [if_pos (startsWith_seps_iff.2 ⟨a, b, _, ha, hb, rfl⟩), if_neg, if_neg]
  · rfl
  · intro h
    obtain ⟨a', b', c, rest, -, -, hc, heq⟩ := startsWith_deviceMark_iff.1 h
    exact hdevice c rest hc (List.cons.inj (List.cons.inj heq).2).2
  · intro h
    obtain ⟨rest, heq⟩ := startsWith_verbatimMark_iff.1 h
    exact hverbatim rest heq

/-- A text that does not start with two separators has a drive or no prefix. -/
theorem parsePrefix_drive (hseps : ∀ a b rest, isSep a → isSep b → cs ≠ a :: b :: rest) :
    parsePrefix cs = (parseDrive cs).map .disk := by
  unfold parsePrefix
  rw [if_neg]
  intro h
  obtain ⟨a, b, rest, ha, hb, heq⟩ := startsWith_seps_iff.1 h
  exact hseps a b rest ha hb heq

end

/-- A drive is a letter before a colon, whatever follows. -/
theorem parseDrive_eq_some_iff {cs : List Char} {drive : Char} :
    parseDrive cs = some drive ↔
      ∃ d rest, cs = d :: ':' :: rest ∧ d.isAlpha ∧ drive = d.toUpper := by
  refine ⟨?_, ?_⟩
  · intro h
    rcases cs with _ | ⟨d, _ | ⟨c, rest⟩⟩
    · cases h
    · simp [parseDrive] at h
    · rw [parseDrive_cons_cons] at h
      obtain ⟨⟨rfl, hd⟩, heq⟩ := Option.ite_none_right_eq_some.1 h
      exact ⟨d, rest, rfl, hd, (Option.some.inj heq).symm⟩
  · rintro ⟨d, rest, rfl, hd, rfl⟩
    rw [parseDrive_cons_cons, if_pos ⟨rfl, hd⟩]

/-- An exact drive has nothing or a separator behind the colon. -/
theorem parseDriveExact_eq_some_iff {cs : List Char} {drive : Char} :
    parseDriveExact cs = some drive ↔
      ∃ d rest, cs = d :: ':' :: rest ∧ d.isAlpha ∧ drive = d.toUpper ∧
        rest.head?.all isSep := by
  rw [parseDriveExact, Option.ite_none_right_eq_some, parseDrive_eq_some_iff]
  refine ⟨?_, ?_⟩
  · rintro ⟨hsep, d, rest, rfl, hd, rfl⟩
    refine ⟨d, rest, rfl, hd, rfl, ?_⟩
    rwa [List.getElem?_cons_succ, List.getElem?_cons_succ, ← List.head?_eq_getElem?] at hsep
  · rintro ⟨d, rest, rfl, hd, rfl, hsep⟩
    refine ⟨?_, d, rest, rfl, hd, rfl⟩
    rwa [List.getElem?_cons_succ, List.getElem?_cons_succ, ← List.head?_eq_getElem?]

/-- The text before the next separator, and what is left from the separator on. -/
theorem parseNextComponent_rest (verbatim : Bool) (cs : List Char) :
    ∃ rest, cs = (parseNextComponent verbatim cs).1 ++ rest ∧ rest.head?.all (sepOf verbatim) ∧
      (parseNextComponent verbatim cs).2 = rest.drop 1 := by
  obtain ⟨-, ⟨heq, hnil⟩ | ⟨s, hs, heq⟩⟩ := parseNextComponent_split verbatim cs
  · exact ⟨[], by rwa [List.append_nil], rfl, hnil⟩
  · exact ⟨_, heq, by simpa using hs, rfl⟩

/-- A text is the text of this prefix, and what may follow such a text. -/
def Begins (cs : List Char) (pre : Prefix) : Prop :=
  ∃ raw rest, cs = raw ++ rest ∧ Spells raw pre ∧ Follows pre rest

section
variable {cs : List Char}

/-- A text with a verbatim UNC prefix spells it, and goes on in a way that may follow it. -/
theorem begins_verbatimUNC {sep : Char} (hsep : isSep sep) :
    Begins (verbatimMark ++ (['U', 'N', 'C', sep] ++ cs))
      (.verbatimUNC (String.ofList (parseNextComponent true cs).1)
        (String.ofList (parseNextComponent true (parseNextComponent true cs).2).1)) := by
  have hserver := (parseNextComponent_split true cs).1
  obtain ⟨rest, hcs, hrest, htail⟩ := parseNextComponent_rest true cs
  have hshare := (parseNextComponent_split true (parseNextComponent true cs).2).1
  obtain ⟨end', hmore, hend, -⟩ := parseNextComponent_rest true (parseNextComponent true cs).2
  generalize (parseNextComponent true cs).1 = server at *
  generalize (parseNextComponent true cs).2 = more at *
  generalize (parseNextComponent true more).1 = share at *
  have hspells := Spells.verbatimUNC hsep hserver hshare
  subst hcs
  by_cases hempty : share = []
  · subst hempty
    refine ⟨_, rest, by simp [behind], hspells, hrest, fun _ => ?_⟩
    rw [← htail, hmore]
    exact hend
  · have hne : String.ofList share ≠ "" := fun heq => hempty (by simpa using heq)
    cases rest with
    | nil =>
      rw [List.drop_nil] at htail
      subst htail
      exact absurd (List.append_eq_nil_iff.1 hmore.symm).1 hempty
    | cons s tail =>
      obtain rfl : s = '\\' := by simpa [sepOf, isVerbatimSep] using hrest
      obtain rfl : more = tail := htail
      exact ⟨_, end', by simp [behind, hempty, ← hmore], hspells, hend, fun heq => absurd heq hne⟩

/-- So does a text with another verbatim prefix, be it a drive or a name. -/
theorem begins_verbatim (hunc : ∀ sep rest, isSep sep → cs ≠ ['U', 'N', 'C', sep] ++ rest) :
    Begins (verbatimMark ++ cs)
      ((parseDriveExact cs).elim (.verbatim (String.ofList (parseNextComponent true cs).1))
        .verbatimDisk) := by
  cases hdrive : parseDriveExact cs with
  | some drive =>
    obtain ⟨d, rest, rfl, hd, rfl, hrest⟩ := parseDriveExact_eq_some_iff.1 hdrive
    exact ⟨verbatimMark ++ [d, ':'], rest, rfl, .verbatimDisk hd, hrest⟩
  | none =>
    have hname := (parseNextComponent_split true cs).1
    obtain ⟨rest, hcs, hrest, -⟩ := parseNextComponent_rest true cs
    rw [Option.elim_none]
    generalize (parseNextComponent true cs).1 = name at *
    subst hcs
    rw [parseDriveExact_append hrest] at hdrive
    refine ⟨verbatimMark ++ name, rest, (List.append_assoc ..).symm, .verbatim hname ?_ hdrive,
      hrest, fun hnamed => ?_⟩
    · rintro tail rfl
      exact hunc '/' (tail ++ rest) rfl (List.append_assoc ..)
    · obtain rfl : name = ['U', 'N', 'C'] := by simpa using congrArg String.toList hnamed
      cases rest with
      | nil => rfl
      | cons s rest => exact absurd rfl (hunc s rest (isSep_of_sepOf (by simpa using hrest)))

/-- So does a text in the device namespace, with a name or without one. -/
theorem begins_deviceNS {a b c : Char} (ha : isSep a) (hb : isSep b) (hc : isSep c) :
    Begins (a :: b :: '.' :: c :: cs)
      (.deviceNS (String.ofList (parseNextComponent false cs).1)) := by
  obtain ⟨rest, hcs, hrest, -⟩ := parseNextComponent_rest false cs
  have hxs : [a, b, '.', c].map norm = deviceMark := by
    simp only [List.map_cons, List.map_nil, norm_eq_backslash_iff.2 ha,
      norm_eq_backslash_iff.2 hb, norm_eq_backslash_iff.2 hc]
    rfl
  refine ⟨_, rest, ?_, .deviceNS hxs (parseNextComponent_split false cs).1, hrest⟩
  rw [List.append_assoc, ← hcs]
  rfl

/-- So does a text with a server and a share behind two separators. -/
theorem begins_unc {a b : Char} (ha : isSep a) (hb : isSep b)
    (hverbatim : ∀ rest, a :: b :: cs ≠ verbatimMark ++ rest)
    (hdevice : ∀ c rest, isSep c → cs ≠ '.' :: c :: rest)
    (hserver : (parseNextComponent false cs).1 ≠ [])
    (hshare : (parseNextComponent false (parseNextComponent false cs).2).1 ≠ []) :
    Begins (a :: b :: cs)
      (.unc (String.ofList (parseNextComponent false cs).1)
        (String.ofList (parseNextComponent false (parseNextComponent false cs).2).1)) := by
  have hnoserver := (parseNextComponent_split false cs).1
  obtain ⟨rest, hcs, hrest, htail⟩ := parseNextComponent_rest false cs
  have hnoshare := (parseNextComponent_split false (parseNextComponent false cs).2).1
  obtain ⟨end', hmore, hend, -⟩ := parseNextComponent_rest false (parseNextComponent false cs).2
  generalize (parseNextComponent false cs).1 = server at *
  generalize (parseNextComponent false cs).2 = more at *
  generalize (parseNextComponent false more).1 = share at *
  subst hcs
  cases rest with
  | nil =>
    rw [List.drop_nil] at htail
    subst htail
    exact absurd (List.append_eq_nil_iff.1 hmore.symm).1 hshare
  | cons s tail =>
    have hs : isSep s := hrest
    obtain rfl : more = tail := htail
    refine ⟨_, end', ?_, .unc ha hb hs ⟨hserver, hnoserver⟩ ⟨hshare, hnoshare⟩ ?_ ?_, hend⟩
    · rw [List.append_assoc, List.append_assoc]
      change _ = [a, b] ++ (server ++ s :: (share ++ end'))
      rw [← hmore]
      rfl
    · rintro rfl
      exact hdevice s more hs rfl
    · rintro rfl
      by_contra hslash
      simp only [List.mem_cons, List.not_mem_nil, or_false, not_or] at hslash
      have hback {x : Char} (hx : isSep x) (hne : ¬ '/' = x) : x = '\\' := by
        simpa [isSep, Ne.symm hne] using hx
      refine hverbatim more ?_
      rw [hback ha hslash.1, hback hb hslash.2.1, hback hs hslash.2.2]
      rfl

end

/-- What is read as a prefix is the text of one, and what follows may follow it. -/
theorem begins_of_parsePrefix {cs : List Char} {pre : Prefix} (h : parsePrefix cs = some pre) :
    Begins cs pre := by
  by_cases hseps : ∃ a b rest, isSep a ∧ isSep b ∧ cs = a :: b :: rest
  · obtain ⟨a, b, cs, ha, hb, rfl⟩ := hseps
    by_cases hverbatim : ∃ rest, a :: b :: cs = verbatimMark ++ rest
    · obtain ⟨cs, heq⟩ := hverbatim
      rw [heq] at h ⊢
      by_cases hunc : ∃ sep rest, isSep sep ∧ cs = ['U', 'N', 'C', sep] ++ rest
      · obtain ⟨sep, cs, hsep, rfl⟩ := hunc
        rw [parsePrefix_verbatimUNC hsep] at h
        cases h
        exact begins_verbatimUNC hsep
      · have hunc' : ∀ sep rest, isSep sep → cs ≠ ['U', 'N', 'C', sep] ++ rest :=
          fun sep rest hsep heq => hunc ⟨sep, rest, hsep, heq⟩
        rw [parsePrefix_verbatim hunc'] at h
        exact Option.some.inj h ▸ begins_verbatim hunc'
    · have hverbatim' : ∀ rest, a :: b :: cs ≠ verbatimMark ++ rest :=
        fun rest heq => hverbatim ⟨rest, heq⟩
      by_cases hdevice : ∃ c rest, isSep c ∧ cs = '.' :: c :: rest
      · obtain ⟨c, cs, hc, rfl⟩ := hdevice
        rw [parsePrefix_deviceNS ha hb hc] at h
        cases h
        exact begins_deviceNS ha hb hc
      · have hdevice' : ∀ c rest, isSep c → cs ≠ '.' :: c :: rest :=
          fun c rest hc heq => hdevice ⟨c, rest, hc, heq⟩
        rw [parsePrefix_unc ha hb hverbatim' hdevice'] at h
        obtain ⟨⟨hserver, hshare⟩, heq⟩ := Option.ite_none_right_eq_some.1 h
        cases heq
        exact begins_unc ha hb hverbatim' hdevice' hserver hshare
  · rw [parsePrefix_drive fun a b rest ha hb heq => hseps ⟨a, b, rest, ha, hb, heq⟩] at h
    obtain ⟨drive, hdrive, rfl⟩ := Option.map_eq_some_iff.1 h
    obtain ⟨d, rest, rfl, hd, rfl⟩ := parseDrive_eq_some_iff.1 hdrive
    exact ⟨[d, ':'], rest, rfl, .disk hd, trivial⟩

/-- The text of a prefix, and what may follow it, is read as this prefix. -/
theorem Spells.parsePrefix_append {raw rest : List Char} {pre : Prefix} (h : Spells raw pre)
    (hfollows : Follows pre rest) : parsePrefix (raw ++ rest) = some pre := by
  cases h with
  | @verbatimUNC sep server share hsep hserver hshare =>
    obtain ⟨hrest, hempty⟩ := hfollows
    rw [List.append_assoc, List.append_assoc, parsePrefix_verbatimUNC hsep, List.append_assoc]
    by_cases hshare' : share = []
    · subst hshare'
      have hnext : parseNextComponent true (rest.drop 1) = ([], (rest.drop 1).drop 1) :=
        @parseNextComponent_append true [] _ nofun (hempty rfl)
      rw [behind, if_pos rfl, List.nil_append, parseNextComponent_append hserver hrest, hnext]
    · have hsep' : ('\\' :: (share ++ rest)).head?.all (sepOf true) := rfl
      rw [behind, if_neg hshare', List.cons_append, parseNextComponent_append hserver hsep',
        List.drop_succ_cons, List.drop_zero, parseNextComponent_append hshare hrest]
  | @verbatimDisk d hd =>
    have hunc : ∀ sep tail, isSep sep →
        d :: ':' :: rest ≠ ['U', 'N', 'C', sep] ++ tail := by
      rintro sep tail - heq
      cases heq
    have hdrive : parseDriveExact (d :: ':' :: rest) = some d.toUpper :=
      parseDriveExact_eq_some_iff.2 ⟨d, rest, rfl, hd, rfl, hfollows⟩
    rw [List.append_assoc]
    change parsePrefix (verbatimMark ++ d :: ':' :: rest) = _
    rw [parsePrefix_verbatim hunc, hdrive]
    rfl
  | @verbatim name hname hunc hdrive =>
    obtain ⟨hrest, hnamed⟩ := hfollows
    have hunc' : ∀ sep tail, isSep sep → name ++ rest ≠ ['U', 'N', 'C', sep] ++ tail := by
      intro sep tail hsep heq
      rcases name with _ | ⟨u, _ | ⟨n, _ | ⟨c, _ | ⟨s, name⟩⟩⟩⟩
      · obtain rfl : rest = _ := heq
        cases hrest
      · obtain ⟨-, rfl⟩ := List.cons.inj heq
        cases hrest
      · obtain ⟨-, rfl⟩ := List.cons.inj (List.cons.inj heq).2
        cases hrest
      · simp only [List.cons_append, List.nil_append, List.cons.injEq] at heq
        obtain ⟨rfl, rfl, rfl, rfl⟩ := heq
        cases hnamed rfl
      · simp only [List.cons_append, List.nil_append, List.cons.injEq] at heq
        obtain ⟨rfl, rfl, rfl, rfl, -⟩ := heq
        have hslash : s = '/' := by
          have hs := hname s (by simp)
          simp only [sepOf, if_true, isVerbatimSep, decide_eq_false_iff_not] at hs
          simpa [isSep, hs] using hsep
        subst hslash
        exact hunc name rfl
    rw [List.append_assoc, parsePrefix_verbatim hunc', parseDriveExact_append hrest, hdrive,
      parseNextComponent_append hname hrest]
    rfl
  | @deviceNS xs name hxs hname =>
    obtain ⟨a, _, rfl, ha, hxs⟩ := List.map_eq_cons_iff.1 hxs
    obtain ⟨b, _, rfl, hb, hxs⟩ := List.map_eq_cons_iff.1 hxs
    obtain ⟨dot, _, rfl, hdot, hxs⟩ := List.map_eq_cons_iff.1 hxs
    obtain ⟨c, _, rfl, hc, hxs⟩ := List.map_eq_cons_iff.1 hxs
    obtain rfl := List.map_eq_nil_iff.1 hxs
    obtain rfl := (norm_eq_iff (by decide)).1 hdot
    rw [List.append_assoc]
    change parsePrefix (a :: b :: '.' :: c :: (name ++ rest)) = _
    rw [parsePrefix_deviceNS (norm_eq_backslash_iff.1 ha) (norm_eq_backslash_iff.1 hb)
      (norm_eq_backslash_iff.1 hc), parseNextComponent_append hname hfollows]
  | @unc a b sep server share ha hb hsep hserver hshare hdevice hverbatim =>
    have hserver' : parseNextComponent false (server ++ sep :: (share ++ rest)) =
        (server, share ++ rest) := parseNextComponent_append hserver.2 hsep
    rw [List.append_assoc, List.append_assoc]
    change parsePrefix (a :: b :: (server ++ sep :: (share ++ rest))) = _
    rw [parsePrefix_unc ha hb, hserver', parseNextComponent_append hshare.2 hfollows,
      if_pos ⟨hserver.1, hshare.1⟩]
    · intro tail heq
      obtain ⟨c, server, rfl⟩ := List.exists_cons_of_ne_nil hserver.1
      simp only [verbatimMark, List.cons_append, List.nil_append, List.cons.injEq] at heq
      obtain ⟨rfl, rfl, rfl, heq⟩ := heq
      cases server with
      | nil =>
        obtain rfl := (List.cons.inj heq).1
        exact absurd (hverbatim rfl) (by decide)
      | cons s server =>
        obtain rfl := (List.cons.inj heq).1
        exact absurd (hserver.2 '\\' (by simp)) (by decide)
    · intro c tail hc heq
      obtain ⟨dot, server, rfl⟩ := List.exists_cons_of_ne_nil hserver.1
      simp only [List.cons_append, List.cons.injEq] at heq
      obtain ⟨rfl, heq⟩ := heq
      cases server with
      | nil => exact hdevice rfl
      | cons s server =>
        obtain rfl := (List.cons.inj heq).1
        have hs := hserver.2 s (by simp)
        rw [show sepOf false s = true from hc] at hs
        cases hs
  | @disk d hd =>
    change parsePrefix (d :: ':' :: rest) = _
    rw [parsePrefix_drive, parseDrive_eq_some_iff.2 ⟨d, rest, rfl, hd, rfl⟩]
    · rfl
    · rintro a b tail - hb heq
      obtain rfl := (List.cons.inj (List.cons.inj heq).2).1
      cases hb

/-- `parsePrefix` reads the grammar of prefixes: it finds a prefix exactly where the text spells it
and goes on as it may. -/
theorem parsePrefix_eq_some_iff {cs : List Char} {pre : Prefix} :
    parsePrefix cs = some pre ↔ Begins cs pre := by
  refine ⟨begins_of_parsePrefix, ?_⟩
  rintro ⟨raw, rest, rfl, hraw, hrest⟩
  exact hraw.parsePrefix_append hrest

/-- A path: its prefix, whether a separator follows it, and the names between the separators after
that. -/
structure Path where
  pfx : Option Prefix
  physicalRoot : Bool
  body : List String
  deriving DecidableEq, Repr

namespace Path

/-- The path is read as verbatim paths are, with one separator and no normalisation. -/
def isVerbatim (p : Path) : Bool := p.pfx.any Prefix.isVerbatim

/-- The names between the separators of a text. -/
def names (verbatim : Bool) (cs : List Char) : List String :=
  if cs = [] then []
  else (cs.splitOnP (sepOf verbatim)).map String.ofList

/-- The names of a path without its prefix: what follows a separator at its start. -/
def afterRoot (rest : List Char) : List Char := if rest.head?.any isSep then rest.drop 1 else rest

/-- What the text of a path says: a prefix is looked for at its start, then a separator, and the
rest is cut at the separators that count under that prefix. -/
def ofChars (cs : List Char) : Path :=
  let pfx := parsePrefix cs
  let rest := cs.drop (pfx.elim 0 Prefix.len)
  { pfx
    physicalRoot := rest.head?.any isSep
    body := names (pfx.any Prefix.isVerbatim) (afterRoot rest) }

/-- A path from a string, as `Path::new` and `Path::components` read it. -/
def parse (s : String) : Path := ofChars s.toList

/-- `has_root`: a separator in front of the names, or a prefix that implies one. -/
def hasRoot (p : Path) : Bool := p.physicalRoot || p.pfx.any Prefix.hasImplicitRoot

/-- `is_absolute`: the path has a prefix and a root. -/
def isAbsolute (p : Path) : Bool := p.hasRoot && p.pfx.isSome

/-! ## Components -/

/-- The component of a name; a `.` is one in a verbatim path only. -/
def component (verbatim : Bool) : String → Option Component
  | "" => none
  | "." => if verbatim then some .curDir else none
  | ".." => some .parentDir
  | name => some (.normal name)

/-- The component between the prefix and the names, if there is one. -/
def start (p : Path) : List Component :=
  if p.physicalRoot then [.rootDir]
  else match p.pfx with
    | some pre => if pre.hasImplicitRoot && !pre.isVerbatim then [.rootDir] else []
    | none => if p.body.head? = some "." then [.curDir] else []

/-- The components of the names, where a `.` counts in verbatim paths only. -/
def bodyComponents (p : Path) : List Component := p.body.filterMap (component p.isVerbatim)

/-- `Path::components`: the prefix, the root and the names. -/
def components (p : Path) : List Component :=
  p.pfx.toList.map .ofPrefix ++ p.start ++ p.bodyComponents

/-- `Path::parent`: the path without its last component. A `.` in front of the others stays. -/
def parent (p : Path) : Option Path :=
  let silent := fun name => (component p.isVerbatim name).isNone
  let above := (p.body.rdropWhile silent).dropLast.rdropWhile silent
  if p.bodyComponents ≠ [] then
    some { p with body := if above = [] ∧ p.start = [.curDir] then ["."] else above }
  else if p.start = [.curDir] then some { p with body := [] }
  else none

/-! ## Joining -/

/-- The text of a component. A prefix is written as the path that it was read from has it. -/
def toChars (pfx : List Char) : Component → List Char
  | .ofPrefix _ => pfx
  | .rootDir => ['\\']
  | .curDir => ['.']
  | .parentDir => ['.', '.']
  | .normal name => name.toList

/-- Whether a separator goes between the component and a next one that is not a root. -/
def needsSep : Component → Bool
  | .rootDir => false
  | .ofPrefix p => !p.isDrive && decide (0 < p.len)
  | _ => true

/-- A verbatim path with one more component: `.` is left out, and `..` takes back a name. -/
def pushComponent (buf : List Component) : Component → List Component
  | .rootDir => buf.take 1 ++ [.rootDir]
  | .curDir => buf
  | .parentDir =>
    match buf.getLast? with
    | some (.normal _) => buf.dropLast
    | _ => buf
  | c => buf ++ [c]

/-- Components written out, where `needSep` says whether a separator goes before the first. -/
def written (pfx : List Char) (needSep : Bool) : List Component → List Char
  | [] => []
  | c :: cs =>
    (if needSep && c ≠ .rootDir then ['\\'] else []) ++ toChars pfx c ++
      written pfx (needsSep c) cs

/-- The characters of a text that are its prefix. -/
def prefixText (cs : List Char) : List Char := cs.take ((ofChars cs).pfx.elim 0 Prefix.len)

/-- Whether a relative path is put behind a separator of its own: the base does not end in one, and
is more than a drive. -/
def endsOpen (base : List Char) : Bool :=
  base.getLast?.any (!isSep ·) &&
    !(prefixText base = base && (ofChars base).pfx.any Prefix.isDrive)

/-- `PathBuf::push`, on the texts of the two paths: the path replaces the base, or all but its
prefix, or is written behind it. -/
def push (base path : List Char) : List Char :=
  let p := ofChars path
  if p.pfx.isSome then path
  else if (ofChars base).isVerbatim && path ≠ [] then
    written (prefixText base) false (p.components.foldl pushComponent (ofChars base).components)
  else if p.hasRoot then prefixText base ++ path
  else base ++ (if endsOpen base then ['\\'] else []) ++ path

/-- `Path::join`: the path is pushed onto the base, and the joined text is read again from its
start. -/
def join (base path : String) : Path := ofChars (push base.toList path.toList)

end Path

end WinPath
