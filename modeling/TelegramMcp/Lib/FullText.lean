import Mathlib

/-!
# A full-text index over external contents

The index is a multiset of postings: a token, the row it occurs in and its position there. The
contents are kept elsewhere, as documents (a row number and the row's tokens), and the index does
not see them change: it takes postings in (`insert`), takes them out (`remove`) or is computed
anew (`ofDocs`). It is coherent with documents `ds` when it is `ofDocs ds`. Replacing a document
keeps it coherent exactly because `remove` is given the old tokens (`ofDocs_replace`).

`Matches` evaluates a phrase on the index alone. On a coherent index it finds the documents that
contain the phrase (`matches_ofDocs_iff`).
-/

namespace FullText

/-- The token `token` occurs in the row `rowid` at the position `pos`. -/
structure Posting (τ : Type) where
  rowid : Nat
  pos : Nat
  token : τ
  deriving DecidableEq

/-- An index, as the postings it holds, each as often as it was put in. -/
abbrev Index (τ : Type) := Multiset (Posting τ)

variable {τ : Type}

/-- The postings of one row: its rowid with each token and the place of the token. -/
def postings (rowid : Nat) (tokens : List τ) : Index τ :=
  ↑(tokens.zipIdx.map fun t => (⟨rowid, t.2, t.1⟩ : Posting τ))

/-- The postings of a row are put into the index. -/
def insert (rowid : Nat) (tokens : List τ) (idx : Index τ) : Index τ := idx + postings rowid tokens

/-- Take out the postings of the row and tokens supplied, whether or not the row has these. -/
def remove [DecidableEq τ] (rowid : Nat) (tokens : List τ) (idx : Index τ) : Index τ :=
  idx - postings rowid tokens

/-- The index computed anew from the documents. -/
def ofDocs (docs : List (Nat × List τ)) : Index τ := (docs.map fun d => postings d.1 d.2).sum

/-- The index of no documents is empty. -/
@[simp] theorem ofDocs_nil : ofDocs ([] : List (Nat × List τ)) = 0 := rfl

/-- The index of one more document has its postings too. -/
@[simp] theorem ofDocs_cons (d : Nat × List τ) (docs : List (Nat × List τ)) :
    ofDocs (d :: docs) = postings d.1 d.2 + ofDocs docs := List.sum_cons

/-- The index of documents does not depend on their order, as it is a multiset of postings. -/
theorem ofDocs_perm {ds es : List (Nat × List τ)} (h : ds.Perm es) : ofDocs ds = ofDocs es :=
  (h.map _).sum_eq

/-- Putting in the postings of a new document keeps the index coherent. -/
theorem insert_ofDocs (d : Nat × List τ) (docs : List (Nat × List τ)) :
    insert d.1 d.2 (ofDocs docs) = ofDocs (d :: docs) := by
  rw [ofDocs_cons, insert, add_comm]

/-- Taking out the postings of a document, given its stored tokens, leaves the others'. -/
theorem remove_ofDocs_cons [DecidableEq τ] (d : Nat × List τ) (docs : List (Nat × List τ)) :
    remove d.1 d.2 (ofDocs (d :: docs)) = ofDocs docs := by
  rw [ofDocs_cons, remove, add_tsub_cancel_left]

/-- Replacing a document: take out its old postings, put in the new ones. -/
theorem ofDocs_replace [DecidableEq τ] {ds es rest : List (Nat × List τ)}
    {old new : Nat × List τ} (hds : ds.Perm (old :: rest)) (hes : es.Perm (new :: rest)) :
    insert new.1 new.2 (remove old.1 old.2 (ofDocs ds)) = ofDocs es := by
  rw [ofDocs_perm hds, ofDocs_perm hes, remove_ofDocs_cons, insert_ofDocs]

/-- The postings of a document are its tokens, each at its position. -/
theorem mem_postings {rowid : Nat} {tokens : List τ} {p : Posting τ} :
    p ∈ postings rowid tokens ↔ p.rowid = rowid ∧ tokens[p.pos]? = some p.token := by
  simp only [postings, Multiset.mem_coe, List.mem_map, Prod.exists, List.mem_zipIdx_iff_getElem?]
  refine ⟨?_, ?_⟩
  · rintro ⟨t, i, h, rfl⟩
    exact ⟨rfl, h⟩
  · rintro ⟨rfl, h⟩
    exact ⟨p.token, p.pos, h, rfl⟩

/-- A posting is in the index of documents when it is one of a document. -/
theorem mem_ofDocs {docs : List (Nat × List τ)} {p : Posting τ} :
    p ∈ ofDocs docs ↔ ∃ d ∈ docs, p.rowid = d.1 ∧ d.2[p.pos]? = some p.token := by
  induction docs with
  | nil => simp
  | cons d ds ih => simp [mem_postings, ih]

/-! ## Phrases -/

/-- The phrase occurs in the row: its first token at some position, the others right after it. An
empty phrase occurs nowhere. -/
def Matches (idx : Index τ) (rowid : Nat) : List τ → Prop
  | [] => False
  | t :: ts => ∃ p ∈ idx, p.rowid = rowid ∧ p.token = t ∧
      ∀ i (h : i < ts.length), (⟨rowid, p.pos + 1 + i, ts[i]⟩ : Posting τ) ∈ idx

instance [DecidableEq τ] (idx : Index τ) (rowid : Nat) (phrase : List τ) :
    Decidable (Matches idx rowid phrase) :=
  match phrase with
  | [] => inferInstanceAs (Decidable False)
  | t :: ts => @Multiset.decidableExistsMultiset _ idx (fun p => p.rowid = rowid ∧ p.token = t ∧
      ∀ i (h : i < ts.length), (⟨rowid, p.pos + 1 + i, ts[i]⟩ : Posting τ) ∈ idx)
      fun _ => inferInstance

/-- A phrase matches a row of a coherent index exactly when the row's tokens contain it. -/
theorem matches_ofDocs_iff {docs : List (Nat × List τ)} {d : Nat × List τ}
    (hnd : (docs.map Prod.fst).Nodup) (hd : d ∈ docs) {phrase : List τ} :
    Matches (ofDocs docs) d.1 phrase ↔ phrase ≠ [] ∧ phrase <:+: d.2 := by
  -- the postings of the row `d.1` are those of `d`
  have hmem : ∀ i t, (⟨d.1, i, t⟩ : Posting τ) ∈ ofDocs docs ↔ d.2[i]? = some t := by
    intro i t
    rw [mem_ofDocs]
    refine ⟨?_, ?_⟩
    · rintro ⟨e, he, hrow, ht⟩
      rwa [List.inj_on_of_nodup_map hnd hd he hrow]
    · exact fun ht => ⟨d, hd, rfl, ht⟩
  cases phrase with
  | nil => simp [Matches]
  | cons t ts =>
    rw [List.infix_iff_getElem?]
    simp only [Matches, hmem, ne_eq, reduceCtorEq, not_false_eq_true, true_and, List.length_cons]
    refine ⟨?_, ?_⟩
    · rintro ⟨⟨_, k, _⟩, hp, rfl, rfl, hts⟩
      have hk := (hmem k _).1 hp
      refine ⟨k, ?_, fun i hi => ?_⟩
      · cases ts with
        | nil =>
          have := (List.getElem?_eq_some_iff.1 hk).1
          simp only [List.length_nil]
          omega
        | cons u us =>
          have := (List.getElem?_eq_some_iff.1 (hts us.length (by simp))).1
          simp only [List.length_cons] at this ⊢
          omega
      · cases i with
        | zero => simpa using hk
        | succ i =>
          have := hts i (by omega)
          rwa [Nat.add_assoc, Nat.add_comm 1 i, Nat.add_comm k] at this
    · rintro ⟨k, -, hk⟩
      refine ⟨⟨d.1, k, t⟩, (hmem k t).2 (by simpa using hk 0 (by simp)), rfl, rfl, fun i hi => ?_⟩
      have := hk (i + 1) (by omega)
      rwa [Nat.add_assoc, Nat.add_comm 1 i, Nat.add_comm k]

end FullText
