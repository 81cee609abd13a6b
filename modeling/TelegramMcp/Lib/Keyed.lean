import Mathlib

/-!
# Tables with a primary key

A `Table` is a list of rows whose keys are distinct; the proof is a field, so a table with two rows
of one key cannot be built. `Table.find` reads the row of a key. `Table.upsert` inserts a row, and
on a key conflict combines the stored row with the new one by a `Merge`. `RowidTable` is a table
whose rows also have distinct row numbers, as a database gives them to rows without an integer
key: a new row takes the number after the largest one, and a merged row keeps its number.

A run of upserts leaves in each key the merge of the first row written to it with the last
(`find_foldl_upsert`), when merging forgets what is between (`Merge.Absorbing`).
-/

namespace Keyed

variable {κ ρ : Type} {key : ρ → κ}

/-- Rows with distinct keys, in the order in which they were inserted. -/
structure Table (κ ρ : Type) (key : ρ → κ) where
  rows : List ρ
  nodup : (rows.map key).Nodup

/-- How an upsert combines a stored row with a new row of the same key. -/
structure Merge (key : ρ → κ) where
  merge : ρ → ρ → ρ
  key_merge : ∀ old new, key old = key new → key (merge old new) = key new

/-- Merging forgets what was merged in between, and merging a row into itself changes nothing. -/
structure Merge.Absorbing (m : Merge key) : Prop where
  absorb : ∀ a b c, m.merge (m.merge a b) c = m.merge a c
  idem : ∀ a, m.merge a a = a

/-- A row of a list with distinct keys, taken to the front. -/
theorem perm_cons_filter_ne [DecidableEq κ] {l : List ρ} {r : ρ} (hl : (l.map key).Nodup)
    (hr : r ∈ l) : l.Perm (r :: l.filter fun x => key x ≠ key r) := by
  induction l with
  | nil => cases hr
  | cons x xs ih =>
    rw [List.map_cons, List.nodup_cons] at hl
    rcases List.mem_cons.1 hr with rfl | hr
    · have hxs : xs.filter (fun x => key x ≠ key r) = xs := by
        refine List.filter_eq_self.2 fun y hy => decide_eq_true fun hk => hl.1 ?_
        exact hk ▸ List.mem_map_of_mem hy
      rw [List.filter_cons_of_neg (by simp), hxs]
    · have hx : key x ≠ key r := fun hk => hl.1 (hk ▸ List.mem_map_of_mem hr)
      rw [List.filter_cons_of_pos (by simpa using hx)]
      exact ((ih hl.2 hr).cons x).trans (.swap r x _)

namespace Table

/-- Two tables with the same rows are the same. -/
@[ext] theorem ext {t u : Table κ ρ key} (h : t.rows = u.rows) : t = u := by
  cases t; cases u; cases h; rfl

/-- The table without rows. -/
def empty : Table κ ρ key := ⟨[], .nil⟩

/-- The rows of the table that satisfy `p`. -/
def filter (p : ρ → Bool) (t : Table κ ρ key) : Table κ ρ key :=
  ⟨t.rows.filter p, t.nodup.sublist (List.filter_sublist.map key)⟩

/-- The rows are changed, each keeping its key. -/
def map (f : ρ → ρ) (hf : ∀ r, key (f r) = key r) (t : Table κ ρ key) : Table κ ρ key :=
  ⟨t.rows.map f, by
    rw [List.map_map, show key ∘ f = key from funext hf]
    exact t.nodup⟩

variable [DecidableEq κ]

/-- The row under the key `k`, if there is one. -/
def find (t : Table κ ρ key) (k : κ) : Option ρ := t.rows.find? fun r => key r = k

/-- A row is found under its key, and only what is stored is found. -/
theorem find_eq_some_iff {t : Table κ ρ key} {k : κ} {r : ρ} :
    t.find k = some r ↔ r ∈ t.rows ∧ key r = k := by
  refine ⟨fun h => ⟨List.mem_of_find?_eq_some h, by simpa using List.find?_some h⟩, ?_⟩
  rintro ⟨hr, rfl⟩
  cases h : t.find (key r) with
  | none =>
    have := List.find?_eq_none.1 h r hr
    simp at this
  | some r' =>
    have hk : key r' = key r := by simpa using List.find?_some h
    rw [List.inj_on_of_nodup_map t.nodup (List.mem_of_find?_eq_some h) hr hk]

/-- No row is found under a key exactly when no row has it. -/
theorem find_eq_none_iff {t : Table κ ρ key} {k : κ} :
    t.find k = none ↔ ∀ r ∈ t.rows, key r ≠ k := by
  simp [find]

/-- An empty table has no row under any key. -/
@[simp] theorem find_empty (k : κ) : (empty : Table κ ρ key).find k = none := rfl

/-- A changed row is found under its old key. -/
theorem find_map (t : Table κ ρ key) (f : ρ → ρ) (hf : ∀ r, key (f r) = key r) (k : κ) :
    (t.map f hf).find k = (t.find k).map f := by
  ext r
  simp only [Option.map_eq_some_iff, find_eq_some_iff, map, List.mem_map]
  refine ⟨?_, ?_⟩
  · rintro ⟨⟨x, hx, rfl⟩, hk⟩
    exact ⟨x, ⟨hx, (hf x).symm.trans hk⟩, rfl⟩
  · rintro ⟨x, ⟨hx, hk⟩, rfl⟩
    exact ⟨⟨x, hx, rfl⟩, (hf x).trans hk⟩

/-- The row an upsert leaves under the key of the row it is given. -/
def merged (m : Merge key) (t : Table κ ρ key) (new : ρ) : ρ :=
  (t.find (key new)).elim new fun old => m.merge old new

/-- The row an upsert leaves has the key of the row it was given. -/
theorem key_merged (m : Merge key) (t : Table κ ρ key) (new : ρ) :
    key (t.merged m new) = key new := by
  unfold merged
  cases h : t.find (key new) with
  | none => rfl
  | some old => exact m.key_merge old new (find_eq_some_iff.1 h).2

/-- Insert a row, or merge it into the stored row of its key. -/
def upsert (m : Merge key) (new : ρ) (t : Table κ ρ key) : Table κ ρ key :=
  if h : (t.find (key new)).isNone then
    ⟨t.rows ++ [new], by
      have hnew := find_eq_none_iff.1 (Option.isNone_iff_eq_none.1 h)
      rw [List.map_append, List.nodup_append]
      refine ⟨t.nodup, by simp, fun a ha b hb hab => ?_⟩
      obtain ⟨r, hr, rfl⟩ := List.mem_map.1 ha
      exact hnew r hr (hab.trans (by simpa using hb))⟩
  else
    t.map (fun old => if key old = key new then m.merge old new else old) fun old => by
      split
      · next hk => rw [m.key_merge old new hk, hk]
      · rfl

/-- What an upsert stores: the merged row, and every row of another key. -/
theorem perm_upsert (m : Merge key) (new : ρ) (t : Table κ ρ key) :
    (t.upsert m new).rows.Perm (t.merged m new :: t.rows.filter fun r => key r ≠ key new) := by
  unfold upsert
  split
  · next h =>
    have hnone := Option.isNone_iff_eq_none.1 h
    have hall : t.rows.filter (fun r => key r ≠ key new) = t.rows :=
      List.filter_eq_self.2 fun r hr => decide_eq_true (find_eq_none_iff.1 hnone r hr)
    have hm : t.merged m new = new := by rw [merged, hnone]; rfl
    rw [hall, hm]
    exact List.perm_append_singleton new t.rows
  · next h =>
    obtain ⟨old, hold⟩ := Option.ne_none_iff_exists'.1 (by simpa using h)
    have hm : t.merged m new = m.merge old new := by rw [merged, hold]; rfl
    obtain ⟨hmem, hk⟩ := find_eq_some_iff.1 hold
    have hp := (perm_cons_filter_ne t.nodup hmem).map
      (fun r => if key r = key new then m.merge r new else r)
    rw [hk] at hp
    refine hp.trans ?_
    rw [List.map_cons, if_pos hk, hm, List.map_congr_left (g := id), List.map_id]
    intro r hr
    exact if_neg (by simpa using (List.mem_filter.1 hr).2)

/-- An upsert appends a row with a new key, and merges it into the row that has its key. -/
theorem rows_upsert (m : Merge key) (new : ρ) (t : Table κ ρ key) :
    (t.upsert m new).rows = if (t.find (key new)).isNone then t.rows ++ [new]
      else t.rows.map fun old => if key old = key new then m.merge old new else old := by
  unfold upsert
  split <;> rfl

/-- The rows after an upsert: the merged one, and those with other keys. -/
theorem mem_upsert {m : Merge key} {new r : ρ} {t : Table κ ρ key} :
    r ∈ (t.upsert m new).rows ↔ r = t.merged m new ∨ (r ∈ t.rows ∧ key r ≠ key new) := by
  rw [(perm_upsert m new t).mem_iff, List.mem_cons, List.mem_filter, decide_eq_true_iff]

/-- The rows under those of the keys that satisfy `q`. -/
def restrict (q : κ → Bool) (t : Table κ ρ key) : Table κ ρ key := t.filter fun r => q (key r)

/-- A row that is kept is found as before. -/
theorem find_restrict {q : κ → Bool} {k : κ} (hk : q k = true) (t : Table κ ρ key) :
    (t.restrict q).find k = t.find k := by
  ext r
  rw [find_eq_some_iff, find_eq_some_iff, restrict, filter, List.mem_filter]
  refine ⟨?_, ?_⟩
  · rintro ⟨⟨hr, -⟩, hkey⟩
    exact ⟨hr, hkey⟩
  · rintro ⟨hr, rfl⟩
    exact ⟨⟨hr, hk⟩, rfl⟩

/-- An upsert under a key that is kept may be done before the restriction or after it. -/
theorem restrict_upsert {q : κ → Bool} {m : Merge key} {new : ρ} (hk : q (key new) = true)
    (t : Table κ ρ key) : (t.restrict q).upsert m new = (t.upsert m new).restrict q := by
  apply ext
  rw [rows_upsert, find_restrict hk]
  change _ = (t.upsert m new).rows.filter _
  rw [rows_upsert]
  split
  · rw [List.filter_append, List.filter_cons_of_pos (p := fun r => q (key r)) hk, List.filter_nil]
    rfl
  · rw [List.filter_map]
    refine congrArg (List.map _) (List.filter_congr fun r _ => ?_)
    rw [Function.comp_apply]
    split
    · next hr => rw [m.key_merge r new hr, hr]
    · rfl

/-- An upsert under a key that is not kept is not seen after the restriction. -/
theorem restrict_upsert_of_not {q : κ → Bool} {m : Merge key} {new : ρ} (hk : q (key new) = false)
    (t : Table κ ρ key) : (t.upsert m new).restrict q = t.restrict q := by
  apply ext
  change (t.upsert m new).rows.filter _ = t.rows.filter _
  rw [rows_upsert]
  split
  · rw [List.filter_append, List.filter_cons_of_neg (by simp [hk]), List.filter_nil,
      List.append_nil]
  · rw [List.filter_map]
    have hsame : ∀ r ∈ t.rows.filter fun r => q (key r),
        (if key r = key new then m.merge r new else r) = r := by
      intro r hr
      refine if_neg fun heq => ?_
      have hq := (List.mem_filter.1 hr).2
      rw [heq, hk] at hq
      cases hq
    rw [List.filter_congr (q := fun r => q (key r)), List.map_congr_left (g := id) hsame,
      List.map_id]
    intro r _
    rw [Function.comp_apply]
    split
    · next hr => rw [m.key_merge r new hr, hr]
    · rfl

/-- Reading after an upsert: the merged row under its key, the old row elsewhere. -/
theorem find_upsert (m : Merge key) (new : ρ) (t : Table κ ρ key) (k : κ) :
    (t.upsert m new).find k = if k = key new then some (t.merged m new) else t.find k := by
  split
  · next hk => exact find_eq_some_iff.2 ⟨mem_upsert.2 (.inl rfl), hk ▸ key_merged m t new⟩
  · next hk =>
    ext r
    rw [find_eq_some_iff, find_eq_some_iff, mem_upsert]
    refine ⟨?_, ?_⟩
    · rintro ⟨rfl | ⟨hr, -⟩, hrk⟩
      · exact absurd (hrk.symm.trans (key_merged m t new)) hk
      · exact ⟨hr, hrk⟩
    · rintro ⟨hr, rfl⟩
      exact ⟨.inr ⟨hr, hk⟩, rfl⟩

end Table

/-! ## Row numbers -/

/-- A table whose rows have distinct row numbers, the first component of each. -/
structure RowidTable (κ ρ : Type) (key : ρ → κ) extends Table κ (Nat × ρ) (key ·.2) where
  rowids : (rows.map Prod.fst).Nodup

namespace RowidTable

/-- Two tables with the same rows under the same rowids are the same. -/
theorem ext {t u : RowidTable κ ρ key} (h : t.rows = u.rows) : t = u := by
  obtain ⟨⟨rows, hn⟩, hr⟩ := t
  obtain ⟨⟨rows', hn'⟩, hr'⟩ := u
  cases h
  rfl

/-- The table without rows. -/
def empty : RowidTable κ ρ key := ⟨.empty, .nil⟩

/-- The rows of the table that satisfy `p`, with their rowids. -/
def filter (p : Nat × ρ → Bool) (t : RowidTable κ ρ key) : RowidTable κ ρ key :=
  ⟨t.toTable.filter p, t.rowids.sublist (List.filter_sublist.map Prod.fst)⟩

/-- The rowid of the next new row: the one after the largest in use. -/
def nextRowid (t : RowidTable κ ρ key) : Nat := t.rows.foldr (fun r n => max r.1 n) 0 + 1

/-- A new row's number is larger than every one in use. -/
theorem lt_nextRowid {t : RowidTable κ ρ key} {r : Nat × ρ} (hr : r ∈ t.rows) :
    r.1 < t.nextRowid := by
  have hle : ∀ l : List (Nat × ρ), r ∈ l → r.1 ≤ l.foldr (fun r n => max r.1 n) 0 := by
    intro l hl
    induction l with
    | nil => cases hl
    | cons x xs ih =>
      rcases List.mem_cons.1 hl with rfl | hl
      · exact Nat.le_max_left _ _
      · exact Nat.le_trans (ih hl) (Nat.le_max_right _ _)
  exact Nat.lt_succ_of_le (hle _ hr)

/-- A merge of rows, keeping the number of the stored row. -/
def numbered (m : Merge key) : Merge (fun r : Nat × ρ => key r.2) where
  merge old new := (old.1, m.merge old.2 new.2)
  key_merge old new h := m.key_merge old.2 new.2 h

variable [DecidableEq κ]

/-- Insert a row under the next number, or merge it into the stored row of its key. -/
def upsert (m : Merge key) (new : ρ) (t : RowidTable κ ρ key) : RowidTable κ ρ key :=
  ⟨t.toTable.upsert (numbered m) (t.nextRowid, new), by
    unfold Table.upsert
    split
    · rw [List.map_append, List.nodup_append]
      refine ⟨t.rowids, by simp, fun a ha b hb hab => ?_⟩
      obtain ⟨r, hr, rfl⟩ := List.mem_map.1 ha
      exact Nat.ne_of_lt (lt_nextRowid hr) (hab.trans (by simpa using hb))
    · have hmap : (t.rows.map fun old => if key old.2 = key new then
          (numbered m).merge old (t.nextRowid, new) else old).map Prod.fst =
            t.rows.map Prod.fst := by
        rw [List.map_map]
        refine List.map_congr_left fun r _ => ?_
        simp only [Function.comp_apply]
        split <;> rfl
      exact hmap ▸ t.rowids⟩

/-- The numbered row an upsert leaves under the key of the row it is given. -/
def merged (m : Merge key) (t : RowidTable κ ρ key) (new : ρ) : Nat × ρ :=
  t.toTable.merged (numbered m) (t.nextRowid, new)

/-- What an upsert stores: the merged row, and every row of another key. -/
theorem perm_upsert (m : Merge key) (new : ρ) (t : RowidTable κ ρ key) :
    (t.upsert m new).rows.Perm (t.merged m new :: t.rows.filter fun r => key r.2 ≠ key new) :=
  Table.perm_upsert (numbered m) (t.nextRowid, new) t.toTable

/-- The rows after an upsert: the merged one under its rowid, and those with other keys. -/
theorem mem_upsert {m : Merge key} {new : ρ} {t : RowidTable κ ρ key} {r : Nat × ρ} :
    r ∈ (t.upsert m new).rows ↔ r = t.merged m new ∨ (r ∈ t.rows ∧ key r.2 ≠ key new) :=
  Table.mem_upsert

/-- The row an upsert leaves has the key of the row it was given. -/
theorem key_merged (m : Merge key) (t : RowidTable κ ρ key) (new : ρ) :
    key (t.merged m new).2 = key new :=
  Table.key_merged (numbered m) t.toTable (t.nextRowid, new)

/-- The row of an upsert is found under its key, merged with the one that was there. -/
theorem find_upsert_self (m : Merge key) (new : ρ) (t : RowidTable κ ρ key) :
    (t.upsert m new).find (key new) = some (t.merged m new) := by
  rw [upsert, Table.find_upsert, if_pos rfl, merged]

/-- The row under the key `k`, without its rowid. -/
def row (t : RowidTable κ ρ key) (k : κ) : Option ρ := (t.find k).map Prod.snd

/-- The row found under a key is a row of the table with this key, whatever its rowid. -/
theorem row_eq_some_iff {t : RowidTable κ ρ key} {k : κ} {r : ρ} :
    t.row k = some r ↔ (∃ n, (n, r) ∈ t.rows) ∧ key r = k := by
  simp only [row, Option.map_eq_some_iff, Table.find_eq_some_iff, Prod.exists, exists_eq_right]
  exact ⟨fun ⟨n, hn, hk⟩ => ⟨⟨n, hn⟩, hk⟩, fun ⟨⟨n, hn⟩, hk⟩ => ⟨n, hn, hk⟩⟩

/-- Reading after an upsert, row numbers aside: the merged row under its key, the old row
elsewhere. -/
theorem row_upsert (m : Merge key) (new : ρ) (t : RowidTable κ ρ key) (k : κ) :
    (t.upsert m new).row k =
      if k = key new then some ((t.row k).elim new fun old => m.merge old new) else t.row k := by
  unfold row upsert
  rw [Table.find_upsert]
  split
  · next hk =>
    subst hk
    rw [Option.map_some, Table.merged]
    cases t.find (key new) <;> rfl
  · rfl

/-- After rows are filtered, a row is read if it was kept. -/
theorem row_filter (p : ρ → Bool) (t : RowidTable κ ρ key) (k : κ) :
    (t.filter fun r => p r.2).row k = (t.row k).filter p := by
  ext r
  rw [Option.filter_eq_some_iff, row_eq_some_iff, row_eq_some_iff]
  simp only [filter, Table.filter, List.mem_filter]
  refine ⟨?_, ?_⟩
  · rintro ⟨⟨n, hn, hp⟩, hk⟩
    exact ⟨⟨⟨n, hn⟩, hk⟩, hp⟩
  · rintro ⟨⟨⟨n, hn⟩, hk⟩, hp⟩
    exact ⟨⟨n, hn, hp⟩, hk⟩

end RowidTable

/-- Rows with distinct keys are as many as their keys. -/
theorem length_eq_ncard [DecidableEq κ] {l : List ρ} (h : (l.map key).Nodup) {s : Set κ}
    (hs : ∀ k, k ∈ s ↔ ∃ r ∈ l, key r = k) : l.length = s.ncard := by
  have hset : s = ((l.map key).toFinset : Set κ) := by
    ext k
    simp [hs]
  rw [hset, Set.ncard_coe_finset, List.toFinset_card_of_nodup h, List.length_map]

/-! ## Runs of upserts -/

/-- What a run of writes leaves under the key `k`: the first row written to it merged with the
last. -/
def written [DecidableEq κ] (m : Merge key) (k : κ) (writes : List ρ) : Option ρ :=
  let own := writes.filter fun r => key r = k
  own.head?.bind fun first => own.getLast?.map fun last => m.merge first last

/-- A run of writes, when merging absorbs: `put` is any write whose effect on the reading `get` is
that of an upsert. -/
theorem get_foldl_put [DecidableEq κ] {τ : Type} {m : Merge key} (hm : m.Absorbing)
    {get : τ → κ → Option ρ} {put : τ → ρ → τ}
    (hput : ∀ t r k, get (put t r) k =
      if k = key r then some ((get t k).elim r fun old => m.merge old r) else get t k)
    {t : τ} (ht : ∀ k, get t k = none) (writes : List ρ) (k : κ) :
    get (writes.foldl put t) k = written m k writes := by
  induction writes using List.reverseRecOn with
  | nil => exact ht k
  | append_singleton ws r ih =>
    rw [List.foldl_append, List.foldl_cons, List.foldl_nil, hput, ih]
    unfold written
    by_cases hk : k = key r
    · subst hk
      rw [if_pos rfl, List.filter_append]
      cases hws : ws.filter fun x => key x = key r with
      | nil => simp [hm.idem]
      | cons first rest =>
        obtain ⟨last, hl⟩ : ∃ last, (first :: rest).getLast? = some last :=
          ⟨_, List.getLast?_eq_some_getLast (List.cons_ne_nil _ _)⟩
        have hr : (first :: (rest ++ [r])).getLast? = some r :=
          List.getLast?_concat (l := first :: rest)
        simp only [hl, List.filter_cons_of_pos, decide_true, List.filter_nil, hr,
          List.cons_append, List.head?_cons, Option.bind_some, Option.map_some, Option.elim_some,
          hm.absorb]
    · rw [if_neg hk, List.filter_append, List.filter_cons_of_neg (by simpa using Ne.symm hk)]
      simp

/-- What a table has under a key after a run of upserts depends on those with this key only. -/
theorem find_foldl_upsert [DecidableEq κ] {m : Merge key} (hm : m.Absorbing) (writes : List ρ)
    (k : κ) :
    (writes.foldl (fun t r => t.upsert m r) (Table.empty : Table κ ρ key)).find k =
      written m k writes :=
  get_foldl_put hm (fun t r k => by
    rw [Table.find_upsert]
    split
    · next hk => rw [Table.merged, hk]
    · rfl) Table.find_empty writes k

/-- The contents of a table with row numbers after a run of upserts. -/
theorem row_foldl_upsert [DecidableEq κ] {m : Merge key} (hm : m.Absorbing) (writes : List ρ)
    (k : κ) :
    (writes.foldl (fun t r => t.upsert m r) (RowidTable.empty : RowidTable κ ρ key)).row k =
      written m k writes :=
  get_foldl_put hm (fun t r k => RowidTable.row_upsert m r t k)
    (fun _ => rfl) writes k

end Keyed
