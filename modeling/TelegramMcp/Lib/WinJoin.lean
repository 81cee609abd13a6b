import TelegramMcp.Lib.WinPath

/-!
# Joining Windows paths

When `Path.push` leaves the prefix of the base as it was, the components of the joined path are
those of the base and of the path; but the text is read again from its start, and the prefix of a
base can gain a name by what is written behind it, as `\\server` does. `Inside base p` says that `p`
is lexically below `base`. When a path without `..` is joined, `inside_join_relative_iff`,
`inside_join_rooted_iff` and `inside_join_prefixed_iff` say when the result is inside the base, for
each of the three cases of `push`.
-/

namespace WinPath

/-- Whether the server of a verbatim share is followed by no share. -/
def Prefix.lacksShare : Prefix → Bool
  | .verbatimUNC _ share => share = ""
  | _ => false

namespace Path

/-! ## Components of a text -/

/-- The components of the names between the separators of a text. -/
def innerComponents (verbatim : Bool) (cs : List Char) : List Component :=
  (cs.splitOnP (sepOf verbatim)).filterMap fun name => component verbatim (String.ofList name)

/-- The components of a text are those before and those after a separator in it. -/
theorem innerComponents_append {verbatim : Bool} {sep : Char} (hsep : sepOf verbatim sep)
    (xs ys : List Char) : innerComponents verbatim (xs ++ sep :: ys) =
      innerComponents verbatim xs ++ innerComponents verbatim ys := by
  rw [innerComponents, List.splitOnP_append_cons xs ys hsep, List.filterMap_append]
  rfl

/-- A separator in front of a text adds no component. -/
theorem innerComponents_cons {verbatim : Bool} {sep : Char} (hsep : sepOf verbatim sep)
    (ys : List Char) : innerComponents verbatim (sep :: ys) = innerComponents verbatim ys :=
  innerComponents_append hsep [] ys

/-- A text without separators is one name, if it is a component at all. -/
theorem innerComponents_name {verbatim : Bool} {name : List Char} {c : Component}
    (hname : ∀ x ∈ name, sepOf verbatim x = false)
    (hc : component verbatim (String.ofList name) = some c) :
    innerComponents verbatim name = [c] := by
  rw [innerComponents, List.splitOnP_eq_singleton hname]
  exact List.filterMap_cons_some hc

/-- The names of a text are read as its components, whatever is read of an empty text. -/
theorem filterMap_names (verbatim : Bool) (cs : List Char) :
    (names verbatim cs).filterMap (component verbatim) = innerComponents verbatim cs := by
  rw [names, innerComponents]
  split
  · next h => rw [h]; rfl
  · rw [List.filterMap_map]; rfl

/-- Where either separator counts, the root is not a name anyway. -/
theorem innerComponents_afterRoot (rest : List Char) :
    innerComponents false (afterRoot rest) = innerComponents false rest := by
  rw [afterRoot]
  split
  · next h =>
    cases rest with
    | nil => rfl
    | cons c rest =>
      have hsep : sepOf false c := by
        change isSep c = true
        simpa using h
      exact (innerComponents_cons hsep rest).symm
  · rfl

/-- What is put behind a separator, or behind nothing, adds its own components. -/
theorem innerComponents_append_of_closed {xs : List Char} (hxs : xs.getLast?.all isSep)
    (ys : List Char) :
    innerComponents false (xs ++ ys) = innerComponents false xs ++ innerComponents false ys := by
  rcases List.eq_nil_or_concat xs with rfl | ⟨xs, sep, rfl⟩
  · rfl
  · have hsep : sepOf false sep := by
      change isSep sep = true
      simpa using hxs
    have hlast := innerComponents_append hsep xs []
    have hall := innerComponents_append hsep xs ys
    rw [List.concat_eq_append, hlast, List.append_assoc, List.singleton_append, hall]
    exact congrArg (· ++ _) (List.append_nil _).symm

/-- A text that does not end in anything but a separator ends in one, or is empty. -/
theorem getLast_all_of_any_eq_false {xs : List Char}
    (h : xs.getLast?.any (!isSep ·) = false) : xs.getLast?.all isSep := by
  cases hlast : xs.getLast? with
  | none => rfl
  | some c => simpa [hlast] using h

/-- What is put behind a text that is left open has a separator before it. -/
theorem innerComponents_glue {opens : Bool} {xs : List Char}
    (h : opens = false → xs.getLast?.all isSep) (ys : List Char) :
    innerComponents false (xs ++ ((if opens then ['\\'] else []) ++ ys)) =
      innerComponents false xs ++ innerComponents false ys := by
  cases opens with
  | true => exact innerComponents_append rfl xs ys
  | false => exact innerComponents_append_of_closed (h rfl) ys

/-! ## Reading a text again -/

/-- What a text says when its prefix and what spells it are known. -/
theorem ofChars_append {raw rest : List Char} {pfx : Option Prefix}
    (hpfx : parsePrefix (raw ++ rest) = pfx) (hlen : raw.length = pfx.elim 0 Prefix.len) :
    ofChars (raw ++ rest) =
      ⟨pfx, rest.head?.any isSep, names (pfx.any Prefix.isVerbatim) (afterRoot rest)⟩ := by
  rw [ofChars, hpfx, ← hlen, List.drop_left]

/-- A text that no prefix starts is its root and its names. -/
theorem ofChars_of_none {cs : List Char} (h : parsePrefix cs = none) :
    ofChars cs = ⟨none, cs.head?.any isSep, names false (afterRoot cs)⟩ :=
  @ofChars_append [] cs none h rfl

/-- The text of the prefix is what spells it. -/
theorem prefixText_append {raw rest : List Char} {pfx : Option Prefix}
    (hpfx : parsePrefix (raw ++ rest) = pfx) (hlen : raw.length = pfx.elim 0 Prefix.len) :
    prefixText (raw ++ rest) = raw := by
  rw [prefixText, ofChars_append hpfx hlen]
  dsimp only
  rw [← hlen, List.take_left]

/-- When something else follows the text of a prefix, the prefix is the same only if it may. -/
theorem follows_of_parsePrefix {raw rest : List Char} {pre : Prefix} (hraw : Spells raw pre)
    (h : parsePrefix (raw ++ rest) = some pre) : Follows pre rest := by
  obtain ⟨raw', rest', heq, hraw', hrest'⟩ := parsePrefix_eq_some_iff.1 h
  obtain ⟨-, rfl⟩ := List.append_inj heq (hraw.length_eq.trans hraw'.length_eq.symm)
  exact hrest'

/-! ## Components of names -/

/-- The component of a name is `..`, `.` or the name itself, which is none of these. -/
theorem component_eq_some {verbatim : Bool} {name : String} {c : Component}
    (h : component verbatim name = some c) :
    c = .parentDir ∧ name = ".." ∨ c = .curDir ∧ name = "." ∧ verbatim = true ∨
      c = .normal name ∧ name ≠ "" ∧ name ≠ "." ∧ name ≠ ".." := by
  unfold component at h
  split at h
  · cases h
  · split at h
    · next hv => cases h; exact .inr (.inl ⟨rfl, rfl, hv⟩)
    · cases h
  · cases h; exact .inl ⟨rfl, rfl⟩
  · next h1 h2 h3 => cases h; exact .inr (.inr ⟨rfl, h1, h2, h3⟩)

/-- A name other than the empty one and the two of dots is its own component. -/
theorem component_name {name : String} (h1 : name ≠ "") (h2 : name ≠ ".") (h3 : name ≠ "..")
    (verbatim : Bool) : component verbatim name = some (.normal name) := by
  unfold component
  split
  · exact absurd rfl h1
  · exact absurd rfl h2
  · exact absurd rfl h3
  · rfl

/-- No piece of a text that is cut at its separators has one. -/
theorem noSep_of_mem_splitOnP {p : Char → Bool} {cs name : List Char}
    (h : name ∈ cs.splitOnP p) : ∀ x ∈ name, p x = false := by
  induction cs generalizing name with
  | nil =>
    rw [List.splitOnP_nil, List.mem_singleton] at h
    subst h
    nofun
  | cons c cs ih =>
    rw [List.splitOnP_cons_eq_if_modifyHead] at h
    split at h
    · rcases List.mem_cons.1 h with rfl | h
      · nofun
      · exact ih h
    · next hc =>
      obtain ⟨first, more, heq⟩ := List.exists_cons_of_ne_nil (List.splitOnP_ne_nil p cs)
      rw [heq, List.modifyHead_cons] at h
      rcases List.mem_cons.1 h with rfl | h
      · intro x hx
        rcases List.mem_cons.1 hx with rfl | hx
        · exact Bool.not_eq_true _ ▸ hc
        · exact ih (heq ▸ List.mem_cons_self) x hx
      · exact ih (heq ▸ List.mem_cons_of_mem _ h)

/-- A component of a text is that of one of its names, which has no separator. -/
theorem exists_name {verbatim : Bool} {cs : List Char} {c : Component}
    (h : c ∈ innerComponents verbatim cs) : ∃ name : List Char,
      component verbatim (String.ofList name) = some c ∧ ∀ x ∈ name, sepOf verbatim x = false := by
  obtain ⟨name, hname, hc⟩ := List.mem_filterMap.1 h
  exact ⟨name, hc, noSep_of_mem_splitOnP hname⟩

/-- Without `..`, the components of a text are names. -/
theorem exists_normal {cs : List Char} (hno : .parentDir ∉ innerComponents false cs)
    {c : Component} (hc : c ∈ innerComponents false cs) : ∃ name, c = .normal name := by
  obtain ⟨name, hname, -⟩ := exists_name hc
  rcases component_eq_some hname with ⟨rfl, -⟩ | ⟨-, -, h⟩ | ⟨rfl, -⟩
  · exact absurd hc hno
  · cases h
  · exact ⟨_, rfl⟩

/-! ## Verbatim paths, written anew -/

/-- A component that a verbatim path reads back from the text that `written` makes of it: there is
no separator in this text, and it is a name of this component. -/
structure Plain (c : Component) : Prop where
  noSep : ∀ x ∈ toChars [] c, sepOf true x = false
  reads : component true (String.ofList (toChars [] c)) = some c

/-- A dot is no separator. -/
theorem noSep_of_mem_dots {n : Nat} {x : Char} (h : x ∈ List.replicate n '.') :
    sepOf true x = false := by
  rw [List.eq_of_mem_replicate h]
  rfl

/-- A name is read back when there is no `\` in it. -/
theorem Plain.normal {name : List Char} (hsep : ∀ x ∈ name, sepOf true x = false)
    (hname : component true (String.ofList name) = some (.normal (String.ofList name))) :
    Plain (.normal (String.ofList name)) := by
  have htext : toChars [] (.normal (String.ofList name)) = name := String.toList_ofList
  exact ⟨htext.symm ▸ hsep, htext.symm ▸ hname⟩

/-- The components of a verbatim text without `..` are read back from their own text. -/
theorem plain_of_mem {cs : List Char} {c : Component} (h : c ∈ innerComponents true cs) :
    Plain c := by
  obtain ⟨name, hname, hsep⟩ := exists_name h
  rcases component_eq_some hname with ⟨rfl, -⟩ | ⟨rfl, -⟩ | ⟨rfl, -⟩
  · exact ⟨fun _ hx => noSep_of_mem_dots (n := 2) hx, rfl⟩
  · exact ⟨fun _ hx => noSep_of_mem_dots (n := 1) hx, rfl⟩
  · exact .normal hsep hname

/-- So are the names of any text, since none has a separator of either kind. -/
theorem plain_of_mem_false {cs : List Char} (hno : .parentDir ∉ innerComponents false cs)
    {c : Component} (h : c ∈ innerComponents false cs) : Plain c := by
  obtain ⟨name, hname, hsep⟩ := exists_name h
  rcases component_eq_some hname with ⟨rfl, -⟩ | ⟨-, -, hv⟩ | ⟨rfl, h1, h2, h3⟩
  · exact absurd h hno
  · cases hv
  · refine .normal (fun x hx => ?_) (component_name h1 h2 h3 true)
    cases hback : sepOf true x with
    | false => rfl
    | true => exact (isSep_of_sepOf hback).symm.trans (hsep x hx)

/-- What is read back is neither a root nor a prefix. -/
theorem Plain.isName {c : Component} (h : Plain c) :
    c ≠ .rootDir ∧ ∀ pre, c ≠ .ofPrefix pre := by
  refine ⟨?_, ?_⟩
  · rintro rfl
    cases h.noSep '\\' List.mem_cons_self
  · rintro pre rfl
    cases h.reads

/-- The text of components, each behind a separator. -/
def tailText (cs : List Component) : List Char := cs.flatMap fun c => '\\' :: toChars [] c

/-- Names are written with a separator before each of them. -/
theorem written_true {cs : List Component} (hcs : ∀ c ∈ cs, Plain c) (raw : List Char) :
    written raw true cs = tailText cs := by
  induction cs with
  | nil => rfl
  | cons c cs ih =>
    obtain ⟨hc, hcs⟩ := List.forall_mem_cons.1 hcs
    obtain ⟨hroot, hpre⟩ := hc.isName
    have hneeds : needsSep c = true ∧ toChars raw c = toChars [] c := by
      cases c with
      | rootDir => exact absurd rfl hroot
      | ofPrefix pre => exact absurd rfl (hpre pre)
      | curDir | parentDir | normal => exact ⟨rfl, rfl⟩
    rw [written, hneeds.1, hneeds.2, ih hcs]
    simp [tailText, hroot]

/-- Behind a root, the first name has no separator before it. -/
theorem written_rootDir {cs : List Component} (hcs : ∀ c ∈ cs, Plain c) (raw : List Char) :
    written raw true (.rootDir :: cs) = '\\' :: (tailText cs).drop 1 := by
  cases cs with
  | nil => rfl
  | cons c cs =>
    have hall := written_true hcs raw
    rw [written] at hall ⊢
    rw [written]
    rw [← hall]
    simp [needsSep, toChars, (hcs c List.mem_cons_self).isName.1]

/-- What is written is read back, name by name. -/
theorem innerComponents_tailText {cs : List Component} (hcs : ∀ c ∈ cs, Plain c) :
    innerComponents true ((tailText cs).drop 1) = cs := by
  induction cs with
  | nil => rfl
  | cons c cs ih =>
    obtain ⟨hc, hcs⟩ := List.forall_mem_cons.1 hcs
    have hfirst := innerComponents_name hc.noSep hc.reads
    cases cs with
    | nil => simpa [tailText] using hfirst
    | cons d ds =>
      have hsplit : (tailText (c :: d :: ds)).drop 1 =
          toChars [] c ++ '\\' :: (tailText (d :: ds)).drop 1 := by
        simp [tailText]
      rw [hsplit, innerComponents_append rfl, hfirst, ih hcs]
      rfl

/-- Names that are pushed to a verbatim path are put behind it. -/
theorem foldl_pushComponent {cs : List Component} (hcs : ∀ c ∈ cs, ∃ name, c = .normal name)
    (buf : List Component) : cs.foldl pushComponent buf = buf ++ cs := by
  induction cs generalizing buf with
  | nil => exact (List.append_nil buf).symm
  | cons c cs ih =>
    obtain ⟨⟨name, hc⟩, hcs⟩ := List.forall_mem_cons.1 hcs
    have hpush : pushComponent buf c = buf ++ [c] := by rw [hc]; rfl
    rw [List.foldl_cons, ih hcs, hpush, List.append_assoc]
    rfl

/-- A verbatim prefix is written before its components, which are behind a separator. -/
theorem written_ofPrefix {pre : Prefix} (hpre : pre.isVerbatim) (raw : List Char)
    (cs : List Component) :
    written raw false (.ofPrefix pre :: cs) = raw ++ written raw true cs := by
  have hneeds : needsSep (.ofPrefix pre) = true := by
    have hlen : 0 < pre.len := by
      cases pre with
      | deviceNS | unc | disk => cases hpre
      | verbatim | verbatimUNC | verbatimDisk => rw [Prefix.len]; omega
    have hdrive : pre.isDrive = false := by
      cases pre with
      | disk => cases hpre
      | _ => rfl
    simp [needsSep, hlen, hdrive]
  rw [written, hneeds]
  rfl

/-! ## Confinement -/

/-- The path is lexically inside the base: the base's components, then only `.` and names. -/
def Inside (base path : Path) : Prop :=
  ∃ tail, path.components = base.components ++ tail ∧ ∀ c ∈ tail, c.isInner

/-- The components of names are never a prefix or a root. -/
theorem component_ne_rootDir {verbatim : Bool} {name : String} {c : Component}
    (h : component verbatim name = some c) : c = .parentDir ∨ c.isInner := by
  rcases component_eq_some h with ⟨rfl, -⟩ | ⟨rfl, -⟩ | ⟨rfl, -⟩
  · exact .inl rfl
  · exact .inr rfl
  · exact .inr rfl

/-- Without `..`, the names of a path only lead further in. -/
theorem isInner_of_mem_body {path : Path} (hno : .parentDir ∉ path.components) {c : Component}
    (hc : c ∈ path.bodyComponents) : c.isInner := by
  obtain ⟨name, -, hname⟩ := List.mem_filterMap.1 hc
  rcases component_ne_rootDir hname with rfl | hin
  · exact absurd (List.mem_append_right _ hc) hno
  · exact hin

/-- Neither a prefix nor a root stands among the names of a path. -/
theorem body_ne {base : Path} {c : Component} (hc : c ∈ base.bodyComponents) :
    c ≠ .rootDir ∧ ∀ p, c ≠ .ofPrefix p := by
  obtain ⟨name, -, hname⟩ := List.mem_filterMap.1 hc
  rcases component_ne_rootDir hname with rfl | hin
  · exact ⟨nofun, nofun⟩
  · cases c <;> simp_all [Component.isInner]

/-- Between the prefix and the names stands at most a root or a `.`. -/
theorem start_cases (p : Path) :
    p.start = [] ∨ p.start = [.rootDir] ∨ p.start = [.curDir] ∧ p.pfx = none := by
  unfold start
  split
  · exact .inr (.inl rfl)
  · split <;> split <;> simp_all

/-- A prefix among the components of a path is the path's own. -/
theorem ofPrefix_mem_components {p : Path} {pre : Prefix} :
    .ofPrefix pre ∈ p.components ↔ p.pfx = some pre := by
  have hstart : .ofPrefix pre ∉ p.start := by
    rcases start_cases p with h | h | ⟨h, -⟩ <;> simp [h]
  have hbody : .ofPrefix pre ∉ p.bodyComponents := fun h => (body_ne h).2 pre rfl
  simp [components, hstart, hbody]

/-- What is inside a base has the prefix of the base. -/
theorem Inside.pfx_eq {base path : Path} (h : Inside base path) : path.pfx = base.pfx := by
  obtain ⟨tail, ht, hinner⟩ := h
  have hiff : ∀ pre, path.pfx = some pre ↔ base.pfx = some pre := by
    intro pre
    have htail : .ofPrefix pre ∉ tail := by
      intro hmem
      cases hinner _ hmem
    rw [← ofPrefix_mem_components, ← ofPrefix_mem_components, ht, List.mem_append,
      or_iff_left htail]
  exact Option.ext hiff

/-- Of two paths with one prefix, one is inside the other when this is so without the prefix. -/
theorem inside_iff_of_pfx {base path : Path} (h : path.pfx = base.pfx) :
    Inside base path ↔ ∃ tail, path.start ++ path.bodyComponents =
      base.start ++ base.bodyComponents ++ tail ∧ ∀ c ∈ tail, c.isInner := by
  unfold Inside
  refine exists_congr fun tail => and_congr_left fun _ => ?_
  rw [components, components, h]
  simp only [List.append_assoc, List.append_cancel_left_eq]

/-- With the base's start and names, and more names behind them, a path is inside. -/
theorem inside_of_append {base path : Path} (tail : List Component)
    (hpfx : path.pfx = base.pfx) (hstart : path.start = base.start)
    (hbody : path.bodyComponents = base.bodyComponents ++ tail)
    (hinner : ∀ c ∈ tail, c.isInner) : Inside base path := by
  refine (inside_iff_of_pfx hpfx).2 ⟨tail, ?_, hinner⟩
  rw [hstart, hbody, List.append_assoc]

/-- With a root that the base has not, a path is not inside when the base has no names, or names
come first. -/
theorem not_inside_of_rootDir {base path : Path} (hpfx : path.pfx = base.pfx)
    (hpath : path.start = [.rootDir]) (hbase : base.start ≠ [.rootDir]) : ¬ Inside base path := by
  rw [inside_iff_of_pfx hpfx, hpath]
  rintro ⟨tail, ht, hinner⟩
  rcases start_cases base with hs | hs | ⟨hs, -⟩
  · rw [hs] at ht
    cases hb : base.bodyComponents with
    | nil =>
      rw [hb] at ht
      cases hinner .rootDir (by
        rw [show tail = _ from ht.symm]
        exact List.mem_cons_self)
    | cons c cs =>
      rw [hb] at ht
      obtain ⟨rfl, -⟩ := List.cons.inj ht
      have hmem : Component.rootDir ∈ base.bodyComponents := hb ▸ List.mem_cons_self
      exact (body_ne hmem).1 rfl
  · exact hbase hs
  · rw [hs] at ht
    cases ht

/-- With the prefix of the base, and rooted, a path is inside when the base is rooted and its names
come first. -/
theorem inside_rooted_iff {base path : Path} (hpfx : path.pfx = base.pfx)
    (hstart : path.start = [.rootDir]) (hinner : ∀ c ∈ path.bodyComponents, c.isInner) :
    Inside base path ↔
      base.start = [.rootDir] ∧ base.bodyComponents <+: path.bodyComponents := by
  by_cases hbase : base.start = [.rootDir]
  · rw [inside_iff_of_pfx hpfx, hstart, hbase, and_iff_right rfl]
    refine ⟨?_, ?_⟩
    · rintro ⟨tail, ht, -⟩
      exact ⟨tail, (List.cons.inj ht).2.symm⟩
    · rintro ⟨tail, ht⟩
      exact ⟨tail, by rw [← ht]; rfl, fun c hc => hinner c (ht ▸ List.mem_append_right _ hc)⟩
  · exact iff_of_false (not_inside_of_rootDir hpfx hstart hbase) fun h => hbase h.1

/-! ## Bases that are left open -/

/-- Whether a relative path makes a prefix of two separators at the start of the base, and of what
is between them and its end: a share, a device or a verbatim name is spelled out only by the path
behind it. Behind nothing but the separators it has to spell out a server and its share, or to begin
with one of the two marks. -/
def completes : List Char → List Char → Bool
  | a :: b :: server, path =>
    isSep a && isSep b &&
      if server = [] then
        (parseNextComponent false path).2.head?.any (!isSep ·) || startsWith ['.', '\\'] path ||
          (['?', '\\'].isPrefixOf path && a = '\\' && b = '\\')
      else if server.all (!isSep ·) then
        path ≠ [] || server = ['.'] || (server = ['?'] && a = '\\' && b = '\\')
      else path ≠ [] && server.dropLast ≠ [] && server.dropLast.all (!isSep ·)
  | _, _ => false

/-- Whether a relative path gives the base another prefix, or a root. -/
def alters (base path : List Char) : Bool :=
  let b := ofChars base
  match b.pfx with
  | none => completes base path
  | some (.disk _) | some (.unc _ _) => false
  | some (.deviceNS name) => name = "" && !b.physicalRoot && path ≠ []
  | some pre =>
    if path = [] then !b.physicalRoot && base.getLast?.any (!isSep ·)
    else if b.physicalRoot then
      pre.lacksShare && (b.bodyComponents ≠ [] || (ofChars path).bodyComponents ≠ [])
    else (ofChars path).bodyComponents ≠ []

section
variable {raw rest path : List Char} {pre : Prefix}

/-! What a text with a prefix says. -/

/-- A text that spells a prefix, with a rest that may follow it, has this prefix. -/
theorem pfx_of_spells (hraw : Spells raw pre) (hrest : Follows pre rest) :
    (ofChars (raw ++ rest)).pfx = some pre :=
  hraw.parsePrefix_append hrest

/-- It has a root of its own when the rest starts with a separator. -/
theorem physicalRoot_of_spells (hraw : Spells raw pre) (hrest : Follows pre rest) :
    (ofChars (raw ++ rest)).physicalRoot = rest.head?.any isSep := by
  rw [ofChars_append (hraw.parsePrefix_append hrest) hraw.length_eq]

/-- It starts with a root when it has one, or when its prefix implies one and is not verbatim. -/
theorem start_of_spells (hraw : Spells raw pre) (hrest : Follows pre rest) :
    (ofChars (raw ++ rest)).start =
      if rest.head?.any isSep || (pre.hasImplicitRoot && !pre.isVerbatim) then [.rootDir]
      else [] := by
  rw [ofChars_append (hraw.parsePrefix_append hrest) hraw.length_eq, start]
  cases rest.head?.any isSep <;> rfl

/-- Its other components are those of the rest, read as its prefix wants. -/
theorem bodyComponents_of_spells (hraw : Spells raw pre) (hrest : Follows pre rest) :
    (ofChars (raw ++ rest)).bodyComponents = innerComponents pre.isVerbatim (afterRoot rest) := by
  rw [ofChars_append (hraw.parsePrefix_append hrest) hraw.length_eq]
  exact filterMap_names _ _

/-- Where either separator counts, the names are those of all that follows the prefix. -/
theorem bodyComponents_of_prefix_false (hraw : Spells raw pre) (hrest : Follows pre rest)
    (hpre : pre.isVerbatim = false) :
    (ofChars (raw ++ rest)).bodyComponents = innerComponents false rest := by
  rw [bodyComponents_of_spells hraw hrest, hpre, innerComponents_afterRoot]

/-- A text is read as verbatim when its prefix is. -/
theorem isVerbatim_of_spells (hraw : Spells raw pre) (hrest : Follows pre rest) :
    (ofChars (raw ++ rest)).isVerbatim = pre.isVerbatim := by
  rw [isVerbatim, pfx_of_spells hraw hrest, Option.any_some]

/-- The text of its prefix is what spells it. -/
theorem prefixText_of_spells (hraw : Spells raw pre) (hrest : Follows pre rest) :
    prefixText (raw ++ rest) = raw :=
  prefixText_append (hraw.parsePrefix_append hrest) hraw.length_eq

/-- The names of a text without a prefix are those of the whole text. -/
theorem bodyComponents_of_none {cs : List Char} (h : parsePrefix cs = none) :
    (ofChars cs).bodyComponents = innerComponents false cs := by
  rw [ofChars_of_none h, ← innerComponents_afterRoot cs]
  exact filterMap_names _ _

/-- Without a prefix and `..`, the names of a text stay below what precedes it. -/
theorem isInner_of_mem_innerComponents {cs : List Char} (h : parsePrefix cs = none)
    (hno : .parentDir ∉ (ofChars cs).components) : ∀ c ∈ innerComponents false cs, c.isInner := by
  rw [← bodyComponents_of_none h]
  exact fun c hc => isInner_of_mem_body hno hc

/-- A text without a prefix has a root when it starts with a separator. -/
theorem physicalRoot_of_none {cs : List Char} (h : parsePrefix cs = none) :
    (ofChars cs).physicalRoot = cs.head?.any isSep := by
  rw [ofChars_of_none h]

/-- The prefix of a device or a share ends in a name, unless the device has none. -/
theorem getLast_any_of_spells (hraw : Spells raw pre) (hverbatim : pre.isVerbatim = false)
    (hdrive : pre.isDrive = false) :
    raw.getLast?.any (!isSep ·) = decide (pre ≠ .deviceNS "") := by
  cases hraw with
  | verbatimUNC | verbatimDisk | verbatim => cases hverbatim
  | disk => cases hdrive
  | @deviceNS xs name hxs hname =>
    rcases List.eq_nil_or_concat name with rfl | ⟨name, c, rfl⟩
    · obtain ⟨a, _, rfl, -, hxs⟩ := List.map_eq_cons_iff.1 hxs
      obtain ⟨b, _, rfl, -, hxs⟩ := List.map_eq_cons_iff.1 hxs
      obtain ⟨dot, _, rfl, -, hxs⟩ := List.map_eq_cons_iff.1 hxs
      obtain ⟨c, _, rfl, hc, hxs⟩ := List.map_eq_cons_iff.1 hxs
      obtain rfl := List.map_eq_nil_iff.1 hxs
      simp [norm_eq_backslash_iff.1 hc]
    · have hc : isSep c = false := hname c (by simp)
      have hne : String.ofList (name ++ [c]) ≠ "" := fun heq => by simp at heq
      rw [List.concat_eq_append, ← List.append_assoc, List.getLast?_concat]
      simp [hc]
  | @unc a b sep server share _ _ _ _ hshare =>
    obtain ⟨share, c, rfl⟩ := (List.eq_nil_or_concat share).resolve_left hshare.1
    have hc : isSep c = false := hshare.2 c (by simp)
    rw [List.concat_eq_append]
    have hlast : [a, b] ++ (server ++ sep :: (share ++ [c])) =
        ([a, b] ++ (server ++ sep :: share)) ++ [c] := by simp
    rw [hlast, List.getLast?_concat]
    simp [hc]

/-! ### Devices, shares and drives -/

/-- Where either separator counts, a prefix other than a drive is followed by one. -/
theorem follows_iff (hverbatim : pre.isVerbatim = false) :
    Follows pre rest ↔ pre.isDrive ∨ rest.head?.all isSep := by
  cases pre with
  | verbatim | verbatimUNC | verbatimDisk => cases hverbatim
  | disk => exact iff_of_true trivial (.inl rfl)
  | deviceNS | unc => exact (or_iff_right nofun).symm

/-- Such a base is left open when its last name is, or its prefix when it has no name. -/
theorem endsOpen_of_spells (hraw : Spells raw pre) (hrest : Follows pre rest)
    (hverbatim : pre.isVerbatim = false) :
    endsOpen (raw ++ rest) =
      if rest = [] then !pre.isDrive && pre ≠ .deviceNS "" else rest.getLast?.any (!isSep ·) := by
  have hpfx : (ofChars (raw ++ rest)).pfx = some pre := pfx_of_spells hraw hrest
  rw [endsOpen, prefixText_of_spells hraw hrest, hpfx, Option.any_some]
  split
  · next hnil =>
    subst hnil
    rw [List.append_nil]
    cases hdrive : pre.isDrive with
    | true => simp
    | false => simp [getLast_any_of_spells hraw hverbatim hdrive]
  · next hne => simp [List.getLast?_append_of_ne_nil raw hne, hne]

/-- Such a base gets another prefix only if it is a device without a name. -/
theorem alters_of_spells (hraw : Spells raw pre) (hrest : Follows pre rest)
    (hverbatim : pre.isVerbatim = false) :
    alters (raw ++ rest) path =
      (decide (pre = .deviceNS "") && !rest.head?.any isSep && path ≠ []) := by
  have hpfx : (ofChars (raw ++ rest)).pfx = some pre := pfx_of_spells hraw hrest
  rw [alters, hpfx, physicalRoot_of_spells hraw hrest]
  cases pre with
  | verbatim | verbatimUNC | verbatimDisk => cases hverbatim
  | disk | unc => rfl
  | deviceNS name => simp

/-- Where either separator counts, the prefix of a base that a relative path is put behind stays,
unless it is a device without a name. -/
theorem follows_relative_iff (hraw : Spells raw pre) (hrest : Follows pre rest)
    (hverbatim : pre.isVerbatim = false) (hpath : path.head?.any isSep = false) :
    Follows pre (rest ++ ((if endsOpen (raw ++ rest) then ['\\'] else []) ++ path)) ↔
      alters (raw ++ rest) path = false := by
  rw [follows_iff hverbatim, alters_of_spells hraw hrest hverbatim,
    endsOpen_of_spells hraw hrest hverbatim]
  cases rest with
  | nil =>
    by_cases hdrive : pre.isDrive
    · refine iff_of_true (.inl hdrive) ?_
      have hne : pre ≠ .deviceNS "" := by
        rintro rfl
        cases hdrive
      simp [hne]
    · by_cases hdevice : pre = .deviceNS ""
      · subst hdevice
        cases path with
        | nil => simp
        | cons c path => simpa [Prefix.isDrive] using hpath
      · simp [hdrive, hdevice, isSep]
  | cons c rest =>
    have hhead := (follows_iff hverbatim).1 hrest
    refine iff_of_true (hhead.imp_right fun h => by simpa using h) ?_
    by_cases hdevice : pre = .deviceNS ""
    · subst hdevice
      have hc : isSep c = true := by simpa [Prefix.isDrive] using hhead
      simp [hc]
    · simp [hdevice]

/-- A relative path is put behind the names of the base. -/
theorem inside_of_follows (hraw : Spells raw pre) (hrest : Follows pre rest)
    (hverbatim : pre.isVerbatim = false) (hpath : path.head?.any isSep = false)
    (hno : ∀ c ∈ innerComponents false path, c.isInner)
    (hfollows : Follows pre
      (rest ++ ((if endsOpen (raw ++ rest) then ['\\'] else []) ++ path))) :
    Inside (ofChars (raw ++ rest))
      (ofChars (raw ++ rest ++ ((if endsOpen (raw ++ rest) then ['\\'] else []) ++ path))) := by
  have hopen := endsOpen_of_spells hraw hrest hverbatim
  rw [List.append_assoc]
  refine inside_of_append (innerComponents false path) ?_ ?_ ?_ hno
  · rw [pfx_of_spells hraw hfollows, pfx_of_spells hraw hrest]
  · rw [start_of_spells hraw hfollows, start_of_spells hraw hrest]
    cases rest with
    | cons c rest => rfl
    | nil =>
      cases hdrive : pre.isDrive with
      | true =>
        have hclosed : endsOpen (raw ++ []) = false := by
          rw [hopen, if_pos rfl, hdrive]
          rfl
        simp only [hclosed, Bool.false_eq_true, if_false, List.nil_append, hpath]
        rfl
      | false => simp [Prefix.hasImplicitRoot, hdrive, hverbatim]
  · rw [bodyComponents_of_prefix_false hraw hfollows hverbatim,
      bodyComponents_of_prefix_false hraw hrest hverbatim]
    refine innerComponents_glue (fun hopens => ?_) path
    cases rest with
    | nil => rfl
    | cons c rest =>
      rw [hopens, if_neg (List.cons_ne_nil c rest)] at hopen
      exact getLast_all_of_any_eq_false hopen.symm

end

/-! ### Bases without a prefix -/

section
variable {base path : List Char}

/-- The first name between the separators is what precedes the first of them. -/
theorem head?_splitOnP (p : Char → Bool) (cs : List Char) :
    (cs.splitOnP p).head? = some (cs.takeWhile (!p ·)) := by
  induction cs with
  | nil => rfl
  | cons c cs ih =>
    rw [List.splitOnP_cons_eq_if_modifyHead]
    split
    · next hc => rw [List.takeWhile_cons_of_neg (by simp [hc])]; rfl
    · next hc =>
      obtain ⟨first, more, heq⟩ := List.exists_cons_of_ne_nil (List.splitOnP_ne_nil p cs)
      rw [heq] at ih ⊢
      rw [List.takeWhile_cons_of_pos (by simpa using hc), List.modifyHead_cons, List.head?_cons,
        ← Option.some.inj ih]

/-- A path without a prefix starts with a root, or with a `.` that is its first name. -/
theorem start_of_none {cs : List Char} (h : parsePrefix cs = none) :
    (ofChars cs).start =
      if cs.head?.any isSep then [.rootDir]
      else if cs.takeWhile (!isSep ·) = ['.'] then [.curDir] else [] := by
  rw [ofChars_of_none h, start]
  dsimp only
  split
  · rfl
  · next hroot =>
    have hfirst : (names false (afterRoot cs)).head? = some "." ↔
        cs.takeWhile (!isSep ·) = ['.'] := by
      rw [afterRoot, if_neg hroot, names]
      split
      · next hnil => subst hnil; exact iff_of_false nofun nofun
      · rw [List.head?_map, head?_splitOnP]
        simp only [Option.map_some, Option.some.injEq]
        change String.ofList (cs.takeWhile (!isSep ·)) = "." ↔ _
        exact ⟨fun heq => by simpa using congrArg String.toList heq, fun heq => by rw [heq]⟩
    simp only [hfirst]

/-- A base without a prefix is put behind a separator when it does not end in one. -/
theorem endsOpen_of_none (hbase : parsePrefix base = none) :
    endsOpen base = base.getLast?.any (!isSep ·) := by
  have hpfx : (ofChars base).pfx = none := hbase
  rw [endsOpen, hpfx]
  simp

/-- The first name of a base stays its first name when more is written behind it. -/
theorem takeWhile_glue (hne : base ≠ []) (path : List Char) :
    (base ++ ((if base.getLast?.any (!isSep ·) then ['\\'] else []) ++ path)).takeWhile
      (!isSep ·) = base.takeWhile (!isSep ·) := by
  rw [List.takeWhile_append]
  split
  · next hall =>
    have hself := (List.takeWhile_prefix (!isSep ·)).eq_of_length hall
    obtain ⟨base, last, rfl⟩ := (List.eq_nil_or_concat base).resolve_left hne
    have hlast : (!isSep last) = true :=
      List.takeWhile_eq_self_iff.1 hself last (by rw [List.concat_eq_append]; simp)
    rw [List.concat_eq_append, List.getLast?_concat] at *
    simp only [hself, Option.any_some, hlast, if_true, List.cons_append, List.nil_append]
    rw [List.takeWhile_cons_of_neg (by decide), List.append_nil]
  · rfl

/-- As long as the joined text has no prefix either, it is inside the base. -/
theorem inside_of_none (hbase : parsePrefix base = none) (hpath : (ofChars path).pfx = none)
    (hroot : (ofChars path).physicalRoot = false) (hno : .parentDir ∉ (ofChars path).components)
    (hjoin : parsePrefix (base ++ ((if endsOpen base then ['\\'] else []) ++ path)) = none) :
    Inside (ofChars base)
      (ofChars (base ++ ((if endsOpen base then ['\\'] else []) ++ path))) := by
  have hinner := isInner_of_mem_innerComponents hpath hno
  rw [endsOpen_of_none hbase] at hjoin ⊢
  by_cases hne : base = []
  · subst hne
    refine ⟨(ofChars path).components, rfl, ?_⟩
    have hcomp : (ofChars path).components =
        (ofChars path).start ++ innerComponents false path := by
      rw [components, hpath, bodyComponents_of_none hpath]
      rfl
    intro c hc
    rw [hcomp, List.mem_append] at hc
    rcases hc with hc | hc
    · rw [start_of_none hpath, ← physicalRoot_of_none hpath, hroot] at hc
      simp only [Bool.false_eq_true, if_false] at hc
      split at hc
      · obtain rfl := List.mem_singleton.1 hc
        rfl
      · cases hc
    · exact hinner c hc
  · refine inside_of_append _ (hjoin.trans hbase.symm) ?_ ?_ hinner
    · rw [start_of_none hjoin, start_of_none hbase, takeWhile_glue hne]
      rw [List.head?_append_of_ne_nil _ hne]
    · rw [bodyComponents_of_none hjoin, bodyComponents_of_none hbase]
      exact innerComponents_glue getLast_all_of_any_eq_false path

/-- Two texts of which the first names are cut off at a separator have the same first names. -/
theorem eq_of_append_cons {name more rest : List Char} {s x c : Char}
    (hname : ∀ y ∈ name, isSep y = false) (hs : isSep s) (hx : isSep x = false) (hc : isSep c)
    (h : name ++ s :: more = x :: c :: rest) : name = [x] ∧ s = c := by
  rcases name with _ | ⟨y, _ | ⟨z, name⟩⟩
  · obtain ⟨rfl, -⟩ := List.cons.inj h
    cases hs.symm.trans hx
  · obtain ⟨rfl, htail⟩ := List.cons.inj h
    exact ⟨rfl, (List.cons.inj htail).1⟩
  · obtain ⟨rfl, -⟩ := List.cons.inj (List.cons.inj h).2
    cases hc.symm.trans (hname z (by simp))

/-- What starts with the verbatim mark has it behind its first two characters. -/
theorem eq_backslash_of_verbatimMark {a b : Char} {cs rest : List Char}
    (h : a :: b :: cs = verbatimMark ++ rest) : a = '\\' ∧ b = '\\' ∧ cs = '?' :: '\\' :: rest := by
  simpa [verbatimMark] using h

/-- The verbatim mark always starts a prefix, whatever follows it. -/
theorem isSome_parsePrefix_verbatimMark (cs : List Char) :
    (parsePrefix (verbatimMark ++ cs)).isSome := by
  by_cases hunc : ∃ sep rest, isSep sep ∧ cs = ['U', 'N', 'C', sep] ++ rest
  · obtain ⟨sep, rest, hsep, rfl⟩ := hunc
    rw [parsePrefix_verbatimUNC hsep]
    rfl
  · rw [parsePrefix_verbatim fun sep rest hsep heq => hunc ⟨sep, rest, hsep, heq⟩]
    rfl

/-- A path starts with a name unless it is empty or starts with a separator. -/
theorem parseNextComponent_ne_nil_iff :
    (parseNextComponent false path).1 ≠ [] ↔ path.head?.any (!isSep ·) := by
  cases path with
  | nil => exact iff_of_false (not_not.2 rfl) nofun
  | cons c path =>
    change (List.takeWhile (!isSep ·) (c :: path)) ≠ [] ↔ (!isSep c) = true
    cases hc : isSep c with
    | true => rw [List.takeWhile_cons_of_neg (by simp [hc])]; exact iff_of_false (· rfl) nofun
    | false =>
      rw [List.takeWhile_cons_of_pos (by simp [hc])]
      exact iff_of_true (List.cons_ne_nil _ _) rfl

/-- A path that is not rooted starts with a name, unless it is empty. -/
theorem head?_any_iff (hroot : path.head?.any isSep = false) :
    path.head?.any (!isSep ·) ↔ path ≠ [] := by
  cases path with
  | nil => exact iff_of_false nofun (not_not.2 rfl)
  | cons c path =>
    have hc : isSep c = false := by simpa using hroot
    exact iff_of_true (by simp [hc]) (List.cons_ne_nil c path)

section
variable {a b : Char} {server : List Char}

/-- Behind two separators alone, a path must spell out a server and its share, or begin with one of
the marks of a device and of a verbatim name. -/
theorem isSome_parsePrefix_seps (ha : isSep a) (hb : isSep b)
    (hroot : path.head?.any isSep = false) :
    (parsePrefix (a :: b :: path)).isSome ↔
      (parseNextComponent false path).2.head?.any (!isSep ·) ∨ startsWith ['.', '\\'] path ∨
        ['?', '\\'].isPrefixOf path ∧ a = '\\' ∧ b = '\\' := by
  by_cases hdevice : startsWith ['.', '\\'] path = true
  · refine iff_of_true ?_ (.inr (.inl hdevice))
    obtain ⟨xs, rest, rfl, hxs⟩ := (startsWith_iff (by decide)).1 hdevice
    obtain ⟨dot, _, rfl, hdot, hxs⟩ := List.map_eq_cons_iff.1 hxs
    obtain ⟨c, _, rfl, hc, hxs⟩ := List.map_eq_cons_iff.1 hxs
    obtain rfl := List.map_eq_nil_iff.1 hxs
    obtain rfl := (norm_eq_iff (by decide)).1 hdot
    change (parsePrefix (a :: b :: '.' :: c :: rest)).isSome
    rw [parsePrefix_deviceNS ha hb (norm_eq_backslash_iff.1 hc)]
    rfl
  · by_cases hmark : ['?', '\\'].isPrefixOf path ∧ a = '\\' ∧ b = '\\'
    · refine iff_of_true ?_ (.inr (.inr hmark))
      obtain ⟨hpre, rfl, rfl⟩ := hmark
      obtain ⟨rest, rfl⟩ := List.isPrefixOf_iff_prefix.1 hpre
      exact isSome_parsePrefix_verbatimMark rest
    · rw [parsePrefix_unc ha hb, Option.isSome_ite, parseNextComponent_ne_nil_iff,
        parseNextComponent_ne_nil_iff, head?_any_iff hroot]
      · refine ⟨fun h => .inl h.2, fun h => ⟨?_, h.resolve_right (not_or.2 ⟨hdevice, hmark⟩)⟩⟩
        rintro rfl
        exact absurd (h.resolve_right (not_or.2 ⟨hdevice, hmark⟩)) nofun
      · intro rest heq
        obtain ⟨rfl, rfl, rfl⟩ := eq_backslash_of_verbatimMark heq
        exact hmark ⟨rfl, rfl, rfl⟩
      · rintro c rest hc rfl
        refine hdevice ((startsWith_iff (by decide)).2 ⟨['.', c], rest, rfl, ?_⟩)
        rw [List.map_cons, List.map_cons, norm_eq_backslash_iff.2 hc]
        rfl

/-- Behind two separators and a name, a path is the share of the server with this name. -/
theorem isSome_parsePrefix_server (ha : isSep a) (hb : isSep b)
    (hserver : server ≠ [] ∧ ∀ c ∈ server, isSep c = false)
    (hroot : path.head?.any isSep = false) :
    (parsePrefix (a :: b :: (server ++ '\\' :: path))).isSome ↔
      path ≠ [] ∨ server = ['.'] ∨ server = ['?'] ∧ a = '\\' ∧ b = '\\' := by
  by_cases hdevice : server = ['.']
  · subst hdevice
    refine iff_of_true ?_ (.inr (.inl rfl))
    change (parsePrefix (a :: b :: '.' :: '\\' :: path)).isSome
    rw [parsePrefix_deviceNS ha hb rfl]
    rfl
  · by_cases hmark : server = ['?'] ∧ a = '\\' ∧ b = '\\'
    · refine iff_of_true ?_ (.inr (.inr hmark))
      obtain ⟨rfl, rfl, rfl⟩ := hmark
      exact isSome_parsePrefix_verbatimMark path
    · rw [parsePrefix_unc ha hb, parseNextComponent_append hserver.2 rfl, List.drop_succ_cons,
        List.drop_zero, Option.isSome_ite, parseNextComponent_ne_nil_iff, head?_any_iff hroot,
        and_iff_right hserver.1]
      · simp [hdevice, hmark]
      · intro rest heq
        obtain ⟨rfl, rfl, htail⟩ := eq_backslash_of_verbatimMark heq
        exact hmark ⟨(eq_of_append_cons hserver.2 rfl rfl rfl htail).1, rfl, rfl⟩
      · intro c rest hc heq
        exact hdevice (eq_of_append_cons hserver.2 rfl rfl hc heq).1

/-- Behind a server and its separator a path is the share; behind more it adds none. -/
theorem isSome_parsePrefix_share (ha : isSep a) (hb : isSep b) {s : Char} (hs : isSep s)
    (hserver : ∀ c ∈ server, isSep c = false) {more : List Char}
    (hbase : parsePrefix (a :: b :: (server ++ s :: more)) = none)
    (hroot : path.head?.any isSep = false) (glue : List Char)
    (hglue : more = [] → glue = []) :
    (parsePrefix (a :: b :: (server ++ s :: (more ++ (glue ++ path))))).isSome ↔
      path ≠ [] ∧ server ≠ [] ∧ more = [] := by
  have hverbatim : ∀ tail rest, a :: b :: (server ++ s :: tail) ≠ verbatimMark ++ rest := by
    intro tail rest heq
    obtain ⟨rfl, rfl, htail⟩ := eq_backslash_of_verbatimMark heq
    obtain ⟨rfl, rfl⟩ := eq_of_append_cons hserver hs rfl rfl htail
    have hsome : (parsePrefix ('\\' :: '\\' :: (['?'] ++ '\\' :: more))).isSome :=
      isSome_parsePrefix_verbatimMark more
    rw [hbase] at hsome
    cases hsome
  have hdevice : ∀ tail c rest, isSep c → server ++ s :: tail ≠ '.' :: c :: rest := by
    intro tail c rest hc heq
    obtain ⟨rfl, rfl⟩ := eq_of_append_cons hserver hs rfl hc heq
    have hsome : parsePrefix (a :: b :: (['.'] ++ s :: more)) = _ := parsePrefix_deviceNS ha hb hs
    rw [hbase] at hsome
    cases hsome
  have hshare : ∀ tail, (parsePrefix (a :: b :: (server ++ s :: tail))).isSome ↔
      server ≠ [] ∧ (parseNextComponent false tail).1 ≠ [] := by
    intro tail
    have hnext : parseNextComponent false (server ++ s :: tail) = (server, tail) :=
      parseNextComponent_append hserver hs
    rw [parsePrefix_unc ha hb (hverbatim tail) (hdevice tail), hnext, Option.isSome_ite]
  have hnot := (hshare more).not.1 (by rw [hbase]; nofun)
  rw [hshare]
  cases more with
  | nil =>
    rw [hglue rfl, List.nil_append, List.nil_append, parseNextComponent_ne_nil_iff,
      head?_any_iff hroot]
    simp [and_comm]
  | cons s' more =>
    refine iff_of_false (fun h => hnot ⟨h.1, ?_⟩) nofun
    have hhead := h.2
    rw [List.cons_append, parseNextComponent] at hhead
    rw [parseNextComponent]
    cases hs' : sepOf false s' with
    | true => simp [hs'] at hhead
    | false => simp [hs']

end

/-- Where there is no prefix yet, a relative path completes one in these cases alone. -/
theorem isSome_parsePrefix_glue_seps {a b : Char} (ha : isSep a) (hb : isSep b)
    {server : List Char} (hbase : parsePrefix (a :: b :: server) = none)
    (hroot : path.head?.any isSep = false) :
    (parsePrefix (a :: b :: server ++
      ((if (a :: b :: server).getLast?.any (!isSep ·) then ['\\'] else []) ++ path))).isSome =
      completes (a :: b :: server) path := by
  rw [completes, ha, hb]
  by_cases hnil : server = []
  · subst hnil
    have hclosed : [a, b].getLast?.any (!isSep ·) = false := by simp [hb]
    rw [hclosed]
    refine Bool.eq_iff_iff.2 ((isSome_parsePrefix_seps ha hb hroot).trans ?_)
    simp [or_assoc, and_assoc]
  by_cases hall : server.all (!isSep ·) = true
  · have hserver : ∀ c ∈ server, isSep c = false := by simpa using hall
    have hopen : (a :: b :: server).getLast?.any (!isSep ·) = true := by
      obtain ⟨first, last, rfl⟩ := (List.eq_nil_or_concat server).resolve_left hnil
      have hlast : isSep last = false := hserver last (by simp)
      rw [List.concat_eq_append, ← List.cons_append, ← List.cons_append, List.getLast?_concat]
      simp [hlast]
    rw [hopen, if_pos rfl, if_neg hnil, if_pos hall]
    refine Bool.eq_iff_iff.2 ((isSome_parsePrefix_server ha hb ⟨hnil, hserver⟩ hroot).trans ?_)
    simp [and_assoc, or_assoc]
  · rw [if_neg hnil, if_neg hall]
    obtain ⟨hname, ⟨heq, -⟩ | ⟨s, hs, heq⟩⟩ := parseNextComponent_split false server
    · rw [heq] at hall
      have hname' : ∀ c ∈ (parseNextComponent false server).1, isSep c = false := hname
      exact absurd (by simpa using hname') hall
    · generalize (parseNextComponent false server).1 = name at *
      generalize (parseNextComponent false server).2 = more at *
      subst heq
      have hglue : more = [] → (if (a :: b :: (name ++ s :: more)).getLast?.any (!isSep ·) then
          ['\\'] else []) = [] := by
        rintro rfl
        have hs' : isSep s = true := hs
        rw [← List.cons_append, ← List.cons_append, List.getLast?_concat]
        simp [hs']
      have hiff := isSome_parsePrefix_share ha hb hs hname hbase hroot _ hglue
      refine Bool.eq_iff_iff.2 (Iff.trans (iff_of_eq ?_) (hiff.trans ?_))
      · simp only [List.cons_append, List.append_assoc]
      · cases more with
        | nil =>
          have hname' : ∀ c ∈ name, isSep c = false := hname
          simpa using fun _ _ => hname'
        | cons s' more =>
          have hs' : isSep s = true := hs
          have hdrop : (name ++ s :: s' :: more).dropLast = name ++ s :: (s' :: more).dropLast := by
            rw [List.dropLast_append_of_ne_nil (List.cons_ne_nil s _), List.dropLast_cons_cons]
          rw [hdrop]
          simp [hs']

/-- What a relative path is put behind gets a prefix exactly when the path completes one. -/
theorem isSome_parsePrefix_glue (hbase : parsePrefix base = none)
    (hpath : parsePrefix path = none) (hroot : path.head?.any isSep = false) :
    (parsePrefix (base ++ ((if endsOpen base then ['\\'] else []) ++ path))).isSome =
      completes base path := by
  rw [endsOpen_of_none hbase]
  rcases base with _ | ⟨a, _ | ⟨b, server⟩⟩
  · change (parsePrefix path).isSome = false
    rw [hpath]
    rfl
  · change _ = false
    cases ha : isSep a with
    | false =>
      have hnot : ∀ x y rest, isSep x → isSep y → a :: '\\' :: path ≠ x :: y :: rest := by
        rintro x y rest hx - heq
        obtain ⟨rfl, -⟩ := List.cons.inj heq
        cases ha.symm.trans hx
      simp only [List.getLast?_singleton, Option.any_some, ha, Bool.not_false, if_true]
      change (parsePrefix (a :: '\\' :: path)).isSome = false
      rw [parsePrefix_drive hnot, parseDrive_cons_cons]
      rfl
    | true =>
      have hnot : ∀ x y rest, isSep x → isSep y → a :: path ≠ x :: y :: rest := by
        rintro x y rest - hy heq
        obtain ⟨-, rfl⟩ := List.cons.inj heq
        cases hroot.symm.trans hy
      simp only [List.getLast?_singleton, Option.any_some, ha, Bool.not_true, Bool.false_eq_true,
        if_false]
      change (parsePrefix (a :: path)).isSome = false
      rw [parsePrefix_drive hnot]
      cases path with
      | nil => rfl
      | cons c path =>
        rw [parseDrive_cons_cons, isAlpha_of_isSep ha]
        simp
  · by_cases hseps : isSep a ∧ isSep b
    · exact isSome_parsePrefix_glue_seps hseps.1 hseps.2 hbase hroot
    · have hcompletes : completes (a :: b :: server) path = false := by
        rw [completes, Bool.and_eq_false_imp]
        exact fun h => absurd (by simpa using h) hseps
      have hnot : ∀ tail x y rest, isSep x → isSep y → a :: b :: tail ≠ x :: y :: rest := by
        rintro tail x y rest hx hy heq
        obtain ⟨rfl, rfl, -⟩ : a = x ∧ b = y ∧ tail = rest := by simpa using heq
        exact hseps ⟨hx, hy⟩
      rw [parsePrefix_drive (hnot server), Option.map_eq_none_iff, parseDrive_cons_cons] at hbase
      rw [hcompletes, List.cons_append, List.cons_append, parsePrefix_drive (hnot _),
        parseDrive_cons_cons, hbase]
      rfl

end

/-! ### Verbatim bases -/

section
variable {raw rest rest' path : List Char} {pre : Prefix} {names : List Component}

/-- What follows a verbatim prefix is nothing, or starts with a separator. -/
theorem head?_any_of_follows (hverbatim : pre.isVerbatim) (hrest : Follows pre rest) :
    rest.head?.any isSep = decide (rest ≠ []) := by
  cases rest with
  | nil => rfl
  | cons c rest =>
    have hc : isSep c = true := by
      cases pre with
      | deviceNS | unc | disk => cases hverbatim
      | verbatimDisk => exact hrest
      | verbatim | verbatimUNC => exact isSep_of_sepOf hrest.1
    simp [hc]

/-- A verbatim base is rooted when anything follows its prefix. -/
theorem start_of_verbatim (hraw : Spells raw pre) (hrest : Follows pre rest)
    (hverbatim : pre.isVerbatim) :
    (ofChars (raw ++ rest)).start = if rest ≠ [] then [.rootDir] else [] := by
  rw [start_of_spells hraw hrest, head?_any_of_follows hverbatim hrest, hverbatim]
  simp

/-- A text with another prefix than the base is not inside it. -/
theorem not_inside_of_not_follows (hraw : Spells raw pre) (hrest : Follows pre rest)
    (hnot : ¬ Follows pre rest') :
    ¬ Inside (ofChars (raw ++ rest)) (ofChars (raw ++ rest')) := by
  intro hin
  have hpfx : parsePrefix (raw ++ rest') = some pre :=
    hin.pfx_eq.trans (pfx_of_spells hraw hrest)
  exact hnot (follows_of_parsePrefix hraw hpfx)

/-- A bare verbatim prefix has nothing inside with a separator behind it. -/
theorem not_inside_of_gains (hraw : Spells raw pre) (hrest : Follows pre [])
    (hverbatim : pre.isVerbatim) (hne : rest' ≠ []) :
    ¬ Inside (ofChars raw) (ofChars (raw ++ rest')) := by
  have hnil : raw ++ [] = raw := List.append_nil raw
  by_cases hfollows : Follows pre rest'
  · refine not_inside_of_rootDir ?_ ?_ ?_
    · rw [pfx_of_spells hraw hfollows, ← hnil, pfx_of_spells hraw hrest]
    · rw [start_of_verbatim hraw hfollows hverbatim, if_pos hne]
    · rw [← hnil, start_of_verbatim hraw hrest hverbatim, if_neg (not_not.2 rfl)]
      exact (List.cons_ne_nil _ _).symm
  · have hnot := not_inside_of_not_follows hraw hrest hfollows
    rwa [hnil] at hnot

/-- The text of a plain component is not empty. -/
theorem Plain.exists_cons {c : Component} (hc : Plain c) :
    ∃ x xs, toChars [] c = x :: xs ∧ sepOf true x = false := by
  cases h : toChars [] c with
  | nil =>
    have hreads := hc.reads
    rw [h] at hreads
    cases hreads
  | cons x xs => exact ⟨x, xs, rfl, hc.noSep x (h ▸ List.mem_cons_self)⟩

/-- Names behind a root keep the prefix, unless they are read as the share that it lacks. -/
theorem follows_names_iff (hverbatim : pre.isVerbatim) (hrest : Follows pre rest)
    (hne : rest ≠ []) (hnames : ∀ c ∈ names, Plain c) :
    Follows pre ('\\' :: (tailText names).drop 1) ↔ ¬ (pre.lacksShare ∧ names ≠ []) := by
  cases pre with
  | deviceNS | unc | disk => cases hverbatim
  | verbatimDisk => exact iff_of_true rfl nofun
  | verbatim name => exact iff_of_true ⟨rfl, fun h => absurd (hrest.2 h) hne⟩ nofun
  | verbatimUNC server share =>
    refine (and_iff_right rfl).trans ?_
    rw [List.drop_succ_cons, List.drop_zero, not_and, Prefix.lacksShare, decide_eq_true_iff]
    refine imp_congr_right fun _ => ?_
    cases names with
    | nil => exact iff_of_true rfl (not_not.2 rfl)
    | cons c names =>
      refine iff_of_false ?_ (not_not.2 (List.cons_ne_nil c names))
      obtain ⟨x, xs, htext, hx⟩ := (hnames c List.mem_cons_self).exists_cons
      simp [tailText, htext, hx]

/-- The names that are written behind a root are read back. -/
theorem bodyComponents_names (hraw : Spells raw pre) (hverbatim : pre.isVerbatim)
    (hnames : ∀ c ∈ names, Plain c) (hfollows : Follows pre ('\\' :: (tailText names).drop 1)) :
    (ofChars (raw ++ '\\' :: (tailText names).drop 1)).bodyComponents = names := by
  rw [bodyComponents_of_spells hraw hfollows, hverbatim]
  exact innerComponents_tailText hnames

/-- The components of a verbatim base: its prefix, its root and its names. -/
theorem components_of_spells (hraw : Spells raw pre) (hrest : Follows pre rest) :
    (ofChars (raw ++ rest)).components = .ofPrefix pre ::
      ((ofChars (raw ++ rest)).start ++ (ofChars (raw ++ rest)).bodyComponents) := by
  rw [components, pfx_of_spells hraw hrest]
  rfl

/-- The names of a path without a prefix and without `..`. -/
theorem exists_normal_of_mem_body (hpath : (ofChars path).pfx = none)
    (hno : .parentDir ∉ (ofChars path).components) :
    ∀ c ∈ (ofChars path).bodyComponents, ∃ name, c = .normal name := by
  have hbody := bodyComponents_of_none hpath
  intro c hc
  rw [hbody] at hc
  refine exists_normal (fun hdots => hno ?_) hc
  exact List.mem_append_right _ (hbody ▸ hdots)

/-- A path without prefix and without `..` has only components that mean the same in a verbatim
path. -/
theorem plain_of_mem_body (hpath : (ofChars path).pfx = none)
    (hno : .parentDir ∉ (ofChars path).components) :
    ∀ c ∈ (ofChars path).bodyComponents, Plain c := by
  have hbody := bodyComponents_of_none hpath
  intro c hc
  rw [hbody] at hc
  refine plain_of_mem_false (fun hdots => hno ?_) hc
  exact List.mem_append_right _ (hbody ▸ hdots)

/-- A relative path is pushed to a verbatim one name by name. -/
theorem foldl_push_relative (hpath : (ofChars path).pfx = none)
    (hroot : (ofChars path).physicalRoot = false) (hno : .parentDir ∉ (ofChars path).components)
    (buf : List Component) :
    (ofChars path).components.foldl pushComponent buf = buf ++ (ofChars path).bodyComponents := by
  have hstart : (ofChars path).start.foldl pushComponent buf = buf := by
    rw [start, hroot, hpath]
    simp only [Bool.false_eq_true, if_false]
    split
    · rfl
    · rfl
  rw [components, hpath, Option.toList_none, List.map_nil, List.nil_append, List.foldl_append,
    hstart, foldl_pushComponent (exists_normal_of_mem_body hpath hno)]

/-- A rooted path takes the place of all but the prefix. -/
theorem foldl_push_rooted (hpath : (ofChars path).pfx = none)
    (hroot : (ofChars path).physicalRoot = true) (hno : .parentDir ∉ (ofChars path).components)
    (buf : List Component) :
    (ofChars path).components.foldl pushComponent (.ofPrefix pre :: buf) =
      .ofPrefix pre :: .rootDir :: (ofChars path).bodyComponents := by
  have hstart : (ofChars path).start = [.rootDir] := by rw [start, hroot]; rfl
  rw [components, hpath, hstart, Option.toList_none, List.map_nil, List.nil_append,
    List.foldl_append, foldl_pushComponent (exists_normal_of_mem_body hpath hno)]
  rfl

/-- What is pushed to a verbatim path: the path's text is empty, or the names are put behind. -/
theorem push_of_verbatim (hraw : Spells raw pre) (hrest : Follows pre rest)
    (hverbatim : pre.isVerbatim) (hpath : (ofChars path).pfx = none) (hne : path ≠ []) :
    push (raw ++ rest) path = written raw false ((ofChars path).components.foldl pushComponent
      (ofChars (raw ++ rest)).components) := by
  have hv : (ofChars (raw ++ rest)).isVerbatim = true :=
    (isVerbatim_of_spells hraw hrest).trans hverbatim
  rw [push, hpath, hv, prefixText_of_spells hraw hrest]
  simp [hne]

/-- Of the names of a rooted path, those of the base have to come first, and they must not be read
as the share that the base lacks. -/
theorem inside_verbatim_rooted_iff (hraw : Spells raw pre) (hrest : Follows pre rest)
    (hverbatim : pre.isVerbatim) (hpath : (ofChars path).pfx = none)
    (hroot : (ofChars path).physicalRoot = true) (hno : .parentDir ∉ (ofChars path).components) :
    Inside (ofChars (raw ++ rest)) (ofChars (push (raw ++ rest) path)) ↔
      (ofChars (raw ++ rest)).start = [.rootDir] ∧
        (ofChars (raw ++ rest)).bodyComponents <+: (ofChars path).bodyComponents ∧
          ¬ (pre.lacksShare ∧ (ofChars path).bodyComponents ≠ []) := by
  have hplain := plain_of_mem_body hpath hno
  have hpne : path ≠ [] := by
    rintro rfl
    cases hroot
  rw [push_of_verbatim hraw hrest hverbatim hpath hpne, components_of_spells hraw hrest,
    foldl_push_rooted hpath hroot hno, written_ofPrefix hverbatim, written_rootDir hplain]
  have hstart := start_of_verbatim hraw hrest hverbatim
  by_cases hne : rest = []
  · subst hne
    have hnot := not_inside_of_gains hraw hrest hverbatim
      (List.cons_ne_nil '\\' ((tailText (ofChars path).bodyComponents).drop 1))
    rw [List.append_nil] at hstart ⊢
    refine iff_of_false hnot fun h => ?_
    rw [hstart] at h
    cases h.1
  · have hfollows := follows_names_iff hverbatim hrest hne hplain
    by_cases hlacks : pre.lacksShare ∧ (ofChars path).bodyComponents ≠ []
    · refine iff_of_false ?_ fun h => h.2.2 hlacks
      exact not_inside_of_not_follows hraw hrest fun h => hfollows.1 h hlacks
    · have hf := hfollows.2 hlacks
      have hbody := bodyComponents_names hraw hverbatim hplain hf
      rw [inside_rooted_iff, hbody, and_iff_left hlacks]
      · rw [pfx_of_spells hraw hf, pfx_of_spells hraw hrest]
      · rw [start_of_verbatim hraw hf hverbatim, if_pos (List.cons_ne_nil _ _)]
      · rw [hbody]
        exact fun c hc => isInner_of_mem_body hno hc

/-- What a relative path does to a verbatim base, in the terms of `alters`. -/
theorem alters_of_verbatim (hraw : Spells raw pre) (hrest : Follows pre rest)
    (hverbatim : pre.isVerbatim) :
    alters (raw ++ rest) path =
      if path = [] then decide (rest = []) && (raw ++ rest).getLast?.any (!isSep ·)
      else if rest = [] then (ofChars path).bodyComponents ≠ []
      else pre.lacksShare && ((ofChars (raw ++ rest)).bodyComponents ≠ [] ||
        (ofChars path).bodyComponents ≠ []) := by
  have hpfx : (ofChars (raw ++ rest)).pfx = some pre := pfx_of_spells hraw hrest
  have hroot : (ofChars (raw ++ rest)).physicalRoot = decide (rest ≠ []) := by
    rw [physicalRoot_of_spells hraw hrest, head?_any_of_follows hverbatim hrest]
  rw [alters, hpfx, hroot]
  cases pre with
  | deviceNS | unc | disk => cases hverbatim
  | verbatim | verbatimUNC | verbatimDisk =>
    by_cases hpath : path = []
    · simp [hpath]
    · by_cases hnil : rest = []
      · simp [hpath, hnil]
      · simp [hpath, hnil]

/-- A separator at the end changes no prefix that something follows. -/
theorem follows_concat (hverbatim : pre.isVerbatim) (hrest : Follows pre rest) (hne : rest ≠ []) :
    Follows pre (rest ++ ['\\']) := by
  obtain ⟨c, tail, rfl⟩ := List.exists_cons_of_ne_nil hne
  cases pre with
  | deviceNS | unc | disk => cases hverbatim
  | verbatimDisk => exact hrest
  | verbatim => exact ⟨hrest.1, fun h => absurd (hrest.2 h) hne⟩
  | verbatimUNC server share =>
    refine ⟨hrest.1, fun h => ?_⟩
    have htail := hrest.2 h
    cases tail with
    | nil => rfl
    | cons d tail => exact htail

/-- Nothing but a separator is put behind a verbatim base for the empty path. -/
theorem inside_verbatim_nil_iff (hraw : Spells raw pre) (hrest : Follows pre rest)
    (hverbatim : pre.isVerbatim) :
    Inside (ofChars (raw ++ rest)) (ofChars (push (raw ++ rest) [])) ↔
      ¬ (rest = [] ∧ (raw ++ rest).getLast?.any (!isSep ·)) := by
  have hopen : endsOpen (raw ++ rest) = (raw ++ rest).getLast?.any (!isSep ·) := by
    have hdrive : pre.isDrive = false := by
      cases pre with
      | disk => cases hverbatim
      | _ => rfl
    rw [endsOpen, pfx_of_spells hraw hrest, Option.any_some, hdrive]
    simp
  have hpush : push (raw ++ rest) [] =
      raw ++ rest ++ ((if endsOpen (raw ++ rest) then ['\\'] else []) ++ []) := by
    rw [push, ← List.append_assoc]
    simp [show (ofChars []).pfx = none from rfl, show (ofChars []).hasRoot = false from rfl]
  rw [hpush, hopen, List.append_nil]
  cases hlast : (raw ++ rest).getLast?.any (!isSep ·) with
  | false =>
    refine iff_of_true ?_ nofun
    simp only [Bool.false_eq_true, if_false, List.append_nil]
    exact ⟨[], (List.append_nil _).symm, nofun⟩
  | true =>
    rw [if_pos rfl]
    by_cases hne : rest = []
    · subst hne
      rw [List.append_nil]
      exact iff_of_false (not_inside_of_gains hraw hrest hverbatim (List.cons_ne_nil _ _))
        (not_not.2 ⟨rfl, rfl⟩)
    · refine iff_of_true ?_ fun h => hne h.1
      have hf : Follows pre (rest ++ ['\\']) := follows_concat hverbatim hrest hne
      obtain ⟨c, tail, rfl⟩ := List.exists_cons_of_ne_nil hne
      have hc : isSep c = true := by
        simpa using head?_any_of_follows hverbatim hrest
      rw [List.append_assoc]
      refine inside_of_append [] ?_ ?_ ?_ nofun
      · rw [pfx_of_spells hraw hf, pfx_of_spells hraw hrest]
      · rw [start_of_verbatim hraw hf hverbatim, start_of_verbatim hraw hrest hverbatim]
        rfl
      · rw [bodyComponents_of_spells hraw hf, bodyComponents_of_spells hraw hrest, hverbatim]
        simp only [afterRoot, List.cons_append, List.head?_cons, Option.any_some, hc, if_true,
          List.drop_succ_cons, List.drop_zero]
        exact innerComponents_append rfl tail []

/-- A relative path is inside a verbatim base, unless it alters the base. -/
theorem inside_verbatim_relative_iff (hraw : Spells raw pre) (hrest : Follows pre rest)
    (hverbatim : pre.isVerbatim) (hpath : (ofChars path).pfx = none)
    (hroot : (ofChars path).physicalRoot = false) (hno : .parentDir ∉ (ofChars path).components) :
    Inside (ofChars (raw ++ rest)) (ofChars (push (raw ++ rest) path)) ↔
      alters (raw ++ rest) path = false := by
  rw [alters_of_verbatim hraw hrest hverbatim]
  by_cases hpne : path = []
  · subst hpne
    rw [if_pos rfl, inside_verbatim_nil_iff hraw hrest hverbatim]
    simp
  have hstart := start_of_verbatim hraw hrest hverbatim
  have hplain := plain_of_mem_body hpath hno
  rw [if_neg hpne, push_of_verbatim hraw hrest hverbatim hpath hpne,
    foldl_push_relative hpath hroot hno, components_of_spells hraw hrest, List.cons_append,
    List.append_assoc, written_ofPrefix hverbatim, hstart]
  by_cases hne : rest = []
  · subst hne
    have hbody : (ofChars (raw ++ [])).bodyComponents = [] := by
      rw [bodyComponents_of_spells hraw hrest, hverbatim]
      rfl
    rw [hbody, if_neg (not_not.2 rfl), if_pos rfl, List.nil_append, List.nil_append,
      written_true hplain]
    cases hnames : (ofChars path).bodyComponents with
    | nil =>
      refine iff_of_true ?_ (by simp)
      exact ⟨[], (List.append_nil _).symm, nofun⟩
    | cons c names =>
      refine iff_of_false ?_ (by simp)
      rw [List.append_nil]
      exact not_inside_of_gains hraw hrest hverbatim (List.cons_ne_nil _ _)
  · have hall : ∀ c ∈ (ofChars (raw ++ rest)).bodyComponents ++ (ofChars path).bodyComponents,
        Plain c := by
      intro c hc
      rcases List.mem_append.1 hc with hc | hc
      · rw [bodyComponents_of_spells hraw hrest, hverbatim] at hc
        exact plain_of_mem hc
      · exact hplain c hc
    rw [if_pos hne, if_neg hne, List.singleton_append, written_rootDir hall]
    have hfollows := follows_names_iff hverbatim hrest hne hall
    have hiff : (pre.lacksShare && ((ofChars (raw ++ rest)).bodyComponents ≠ [] ||
        (ofChars path).bodyComponents ≠ [])) = false ↔ ¬ (pre.lacksShare ∧
          (ofChars (raw ++ rest)).bodyComponents ++ (ofChars path).bodyComponents ≠ []) := by
      simp
    rw [hiff, ← hfollows]
    refine ⟨fun h => by_contra fun hnot => not_inside_of_not_follows hraw hrest hnot h, ?_⟩
    intro hf
    refine inside_of_append (ofChars path).bodyComponents ?_ ?_ ?_ ?_
    · rw [pfx_of_spells hraw hf, pfx_of_spells hraw hrest]
    · rw [start_of_verbatim hraw hf hverbatim, hstart, if_pos hne, if_pos (List.cons_ne_nil _ _)]
    · exact bodyComponents_names hraw hverbatim hall hf
    · exact fun c hc => isInner_of_mem_body hno hc

end

/-! ## The three cases of `push` -/

section
variable {base path : List Char}

/-- Where the base is not verbatim, a relative path is put behind it as it is. -/
theorem push_relative (hbase : (ofChars base).isVerbatim = false)
    (hpath : (ofChars path).pfx = none) (hroot : (ofChars path).physicalRoot = false) :
    push base path = base ++ ((if endsOpen base then ['\\'] else []) ++ path) := by
  rw [push, hpath, hbase, hasRoot, hroot, hpath, ← List.append_assoc]
  rfl

/-- Where the base is not verbatim, a rooted path is put behind its prefix. -/
theorem push_rooted (hbase : (ofChars base).isVerbatim = false)
    (hpath : (ofChars path).pfx = none) (hroot : (ofChars path).physicalRoot = true) :
    push base path = prefixText base ++ path := by
  rw [push, hpath, hbase, hasRoot, hroot]
  rfl

/-- A relative path without `..` is joined inside the base, unless it alters the base. -/
theorem inside_join_relative_iff (hpath : (ofChars path).pfx = none)
    (hroot : (ofChars path).physicalRoot = false) (hno : .parentDir ∉ (ofChars path).components) :
    Inside (ofChars base) (ofChars (push base path)) ↔ alters base path = false := by
  have hhead : path.head?.any isSep = false := by rw [← physicalRoot_of_none hpath, hroot]
  cases hbase : parsePrefix base with
  | none =>
    have hpfx : (ofChars base).pfx = none := hbase
    have hv : (ofChars base).isVerbatim = false := by rw [isVerbatim, hpfx]; rfl
    have halters : alters base path = completes base path := by rw [alters, hpfx]
    have hsome := isSome_parsePrefix_glue hbase hpath hhead
    rw [push_relative hv hpath hroot, halters, ← hsome]
    cases hjoin : parsePrefix (base ++ ((if endsOpen base then ['\\'] else []) ++ path)) with
    | none => exact iff_of_true (inside_of_none hbase hpath hroot hno hjoin) rfl
    | some pre =>
      refine iff_of_false (fun hin => ?_) nofun
      cases hjoin.symm.trans (hin.pfx_eq.trans hbase)
  | some pre =>
    obtain ⟨raw, rest, rfl, hraw, hrest⟩ := parsePrefix_eq_some_iff.1 hbase
    cases hverbatim : pre.isVerbatim with
    | true => exact inside_verbatim_relative_iff hraw hrest hverbatim hpath hroot hno
    | false =>
      have hv : (ofChars (raw ++ rest)).isVerbatim = false :=
        (isVerbatim_of_spells hraw hrest).trans hverbatim
      have hinner := isInner_of_mem_innerComponents hpath hno
      rw [push_relative hv hpath hroot, ← follows_relative_iff hraw hrest hverbatim hhead]
      refine ⟨fun hin => by_contra fun hnot => ?_,
        inside_of_follows hraw hrest hverbatim hhead hinner⟩
      rw [List.append_assoc] at hin
      exact not_inside_of_not_follows hraw hrest hnot hin

/-- A rooted path without a prefix is joined inside the base only if it spells out the base's
names itself, and none of them is read as a share that the base lacks. -/
theorem inside_join_rooted_iff (hpath : (ofChars path).pfx = none)
    (hroot : (ofChars path).physicalRoot = true) (hno : .parentDir ∉ (ofChars path).components) :
    Inside (ofChars base) (ofChars (push base path)) ↔
      (ofChars base).start = [.rootDir] ∧
        (ofChars base).bodyComponents <+: (ofChars path).bodyComponents ∧
          ¬ ((ofChars base).pfx.any Prefix.lacksShare ∧ (ofChars path).bodyComponents ≠ []) := by
  have hinner : ∀ c ∈ (ofChars path).bodyComponents, c.isInner :=
    fun c hc => isInner_of_mem_body hno hc
  have hstart : (ofChars path).start = [.rootDir] := by rw [start, hroot]; rfl
  cases hbase : parsePrefix base with
  | none =>
    have hpfx : (ofChars base).pfx = none := hbase
    have hv : (ofChars base).isVerbatim = false := by rw [isVerbatim, hpfx]; rfl
    have hpush : push base path = path := by
      rw [push_rooted hv hpath hroot, prefixText, hpfx]
      rfl
    rw [hpush, inside_rooted_iff (hpath.trans hpfx.symm) hstart hinner, hpfx]
    simp
  | some pre =>
    obtain ⟨raw, rest, rfl, hraw, hrest⟩ := parsePrefix_eq_some_iff.1 hbase
    rw [pfx_of_spells hraw hrest, Option.any_some]
    cases hverbatim : pre.isVerbatim with
    | true => exact inside_verbatim_rooted_iff hraw hrest hverbatim hpath hroot hno
    | false =>
      have hv : (ofChars (raw ++ rest)).isVerbatim = false :=
        (isVerbatim_of_spells hraw hrest).trans hverbatim
      have hhead : path.head?.any isSep = true := by rw [← physicalRoot_of_none hpath, hroot]
      have hf : Follows pre path := by
        refine (follows_iff hverbatim).2 (.inr ?_)
        cases path with
        | nil => rfl
        | cons c path => simpa using hhead
      have hbody : (ofChars (raw ++ path)).bodyComponents = (ofChars path).bodyComponents := by
        rw [bodyComponents_of_prefix_false hraw hf hverbatim, bodyComponents_of_none hpath]
      have hlacks : pre.lacksShare = false := by
        cases pre with
        | verbatimUNC => cases hverbatim
        | _ => rfl
      rw [push_rooted hv hpath hroot, prefixText_of_spells hraw hrest, inside_rooted_iff, hbody,
        hlacks]
      · simp
      · rw [pfx_of_spells hraw hf, pfx_of_spells hraw hrest]
      · rw [start_of_spells hraw hf, hhead]
        rfl
      · rwa [hbody]

/-- A path with a prefix that is not absolute is inside the base only if it spells out the base
itself. -/
theorem inside_join_prefixed_iff (hpath : (ofChars path).pfx.isSome)
    (habs : (ofChars path).isAbsolute = false) (hno : .parentDir ∉ (ofChars path).components) :
    Inside (ofChars base) (ofChars (push base path)) ↔
      (ofChars base).components ≠ [] ∧
        (ofChars base).components <+: (ofChars path).components := by
  have hpush : push base path = path := by rw [push, if_pos hpath]
  rw [hpush]
  obtain ⟨pre, hpre⟩ := Option.isSome_iff_exists.1 hpath
  have hstart : (ofChars path).start = [] := by
    simp only [isAbsolute, hasRoot, hpre, Option.any_some, Option.isSome_some, Bool.and_true,
      Bool.or_eq_false_iff] at habs
    simp [start, habs.1, hpre, habs.2]
  have hcomp : (ofChars path).components = .ofPrefix pre :: (ofChars path).bodyComponents := by
    rw [components, hstart, hpre]
    rfl
  refine ⟨?_, ?_⟩
  · rintro ⟨tail, ht, htail⟩
    refine ⟨?_, ⟨tail, ht.symm⟩⟩
    intro hnil
    rw [hnil, List.nil_append, hcomp] at ht
    have := htail (.ofPrefix pre) (by rw [← ht]; exact List.mem_cons_self)
    cases this
  · rintro ⟨hne, tail, ht⟩
    refine ⟨tail, ht.symm, fun c hc => ?_⟩
    obtain ⟨c₀, cs, hbase⟩ := List.exists_cons_of_ne_nil hne
    rw [hbase, hcomp, List.cons_append] at ht
    exact isInner_of_mem_body hno ((List.cons.inj ht).2 ▸ List.mem_append_right _ hc)

end

end Path

end WinPath
