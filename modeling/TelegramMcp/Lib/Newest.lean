import Mathlib

/-!
# The rows with the largest keys

`oldestFirst` and `newestFirst` sort rows by a key. When no two rows share a key the result is
strictly sorted, so the first `n` of the newest are exactly the rows with fewer than `n` newer ones
(`mem_take_newestFirst`): the meaning of `ORDER BY key DESC LIMIT n`.
-/

namespace Newest

variable {α κ : Type} [LinearOrder κ] (key : α → κ)

/-- The list sorted by its keys, in a stable way. -/
def oldestFirst (l : List α) : List α := l.insertionSort fun a b => key a ≤ key b

/-- The list sorted by its keys, the largest first, in a stable way. -/
def newestFirst (l : List α) : List α := l.insertionSort fun a b => key b ≤ key a

variable {key} {l : List α}

/-- Without equal keys the order is strict. -/
theorem oldestFirst_pairwise (h : (l.map key).Nodup) :
    (oldestFirst key l).Pairwise fun a b => key a < key b := by
  have : Std.Total fun a b => key a ≤ key b := ⟨fun a b => le_total (key a) (key b)⟩
  have : IsTrans α fun a b => key a ≤ key b := ⟨fun _ _ _ => le_trans⟩
  have hnodup : ((oldestFirst key l).map key).Nodup :=
    ((List.perm_insertionSort _ l).map key).nodup_iff.2 h
  have hle : (oldestFirst key l).Pairwise fun a b => key a ≤ key b :=
    List.pairwise_insertionSort _ l
  exact (hle.and (List.pairwise_map.1 hnodup)).imp fun ⟨hab, hne⟩ => lt_of_le_of_ne hab hne

/-- The sorted list has no key before a larger one. -/
theorem newestFirst_sorted : (newestFirst key l).Pairwise fun a b => key b ≤ key a := by
  have : Std.Total fun a b => key b ≤ key a := ⟨fun a b => le_total (key b) (key a)⟩
  have : IsTrans α fun a b => key b ≤ key a := ⟨fun _ _ _ hab hbc => le_trans hbc hab⟩
  exact List.pairwise_insertionSort _ l

/-- What is in a sorted list is one of its first `n`, or comes after all of these. -/
theorem mem_take_or {r : α → α → Prop} {x : α} (h : l.Pairwise r) (hx : x ∈ l) (n : Nat) :
    x ∈ l.take n ∨ (l.take n).length = n ∧ ∀ y ∈ l.take n, r y x := by
  rw [← List.take_append_drop n l] at h hx
  rcases List.mem_append.1 hx with hx | hx
  · exact .inl hx
  · have hlen : n < l.length := by
      have hpos := List.length_pos_of_mem hx
      rw [List.length_drop] at hpos
      omega
    refine .inr ⟨by rw [List.length_take]; omega, fun y hy => ?_⟩
    exact (List.pairwise_append.1 h).2.2 y hy x hx

/-- With keys that are all different, the order is strictly descending. -/
theorem newestFirst_pairwise (h : (l.map key).Nodup) :
    (newestFirst key l).Pairwise fun a b => key b < key a :=
  @oldestFirst_pairwise α κᵒᵈ _ (fun a => OrderDual.toDual (key a)) l h

/-- Of a strictly sorted list the first `n` are those with fewer than `n` greater. -/
theorem mem_take_iff {x : α} {n : Nat} (h : l.Pairwise fun a b => key b < key a) :
    x ∈ l.take n ↔ x ∈ l ∧ (l.filter fun y => key x < key y).length < n := by
  induction l generalizing n with
  | nil => simp
  | cons y ys ih =>
    obtain ⟨hy, hys⟩ := List.pairwise_cons.1 h
    cases n with
    | zero => simp
    | succ n =>
      rw [List.take_succ_cons, List.mem_cons, List.mem_cons, ih hys]
      refine ⟨?_, ?_⟩
      · rintro (rfl | ⟨hx, hlt⟩)
        · have hnone : ys.filter (fun y => key x < key y) = [] :=
            List.filter_eq_nil_iff.2 fun z hz => by simpa using (hy z hz).le
          rw [List.filter_cons_of_neg (by simp), hnone]
          exact ⟨.inl rfl, Nat.succ_pos n⟩
        · rw [List.filter_cons_of_pos (by simpa using hy x hx), List.length_cons]
          exact ⟨.inr hx, Nat.succ_lt_succ hlt⟩
      · rintro ⟨rfl | hx, hlt⟩
        · exact .inl rfl
        · rw [List.filter_cons_of_pos (by simpa using hy x hx), List.length_cons] at hlt
          exact .inr ⟨hx, Nat.lt_of_succ_lt_succ hlt⟩

/-- The first `n` of the newest are the rows with fewer than `n` newer ones. -/
theorem mem_take_newestFirst {x : α} {n : Nat} (h : (l.map key).Nodup) :
    x ∈ (newestFirst key l).take n ↔ x ∈ l ∧ (l.filter fun y => key x < key y).length < n := by
  have hperm : (newestFirst key l).Perm l := List.perm_insertionSort _ l
  rw [mem_take_iff (newestFirst_pairwise h), hperm.mem_iff,
    (hperm.filter fun y => key x < key y).length_eq]

/-- What is newer than one of the first is one of the first. -/
theorem mem_take_newestFirst_of_le {x y : α} {n : Nat} (h : (l.map key).Nodup)
    (hy : y ∈ (newestFirst key l).take n) (hx : x ∈ l) (hle : key y ≤ key x) :
    x ∈ (newestFirst key l).take n := by
  rw [mem_take_newestFirst h] at hy ⊢
  refine ⟨hx, Nat.lt_of_le_of_lt (List.Sublist.length_le ?_) hy.2⟩
  refine List.monotone_filter_right l ?_
  intro z hz
  simp only [decide_eq_true_eq] at hz ⊢
  exact hle.trans_lt hz

end Newest
