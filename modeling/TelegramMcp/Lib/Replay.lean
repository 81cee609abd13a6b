import Mathlib
import TelegramMcp.Lib.Keyed

/-!
# Logs with redelivery

A source emits `C` in ascending order of an identifier. A consumer processes the elements in the
order of the log `L`, some of them many times. `Follows id C L` says that nothing was processed
before everything smaller had been. `Settled id L c` says that after some occurrence of `c` only
larger elements were processed.

A log that follows `C` has, of the elements satisfying any predicate, the same first one as `C`
(`Follows.head?_filter`); when all of `C` is settled, it has the same last one
(`Follows.getLast?_filter`). So a table whose rows depend on the first and the last write to their
key only cannot tell the log from `C` (`Follows.written_filterMap`).
-/

namespace Replay

variable {α ι : Type} [LinearOrder ι] {id : α → ι}

/-- The elements are in strictly ascending order of their identifiers. -/
def Ascending (id : α → ι) (C : List α) : Prop := C.Pairwise fun a b => id a < id b

/-- The log has only emitted elements, each after all the smaller ones. -/
structure Follows (id : α → ι) (C L : List α) : Prop where
  emitted : ∀ a ∈ L, a ∈ C
  after : ∀ l₁ a l₂, L = l₁ ++ a :: l₂ → ∀ c ∈ C, id c < id a → c ∈ l₁

/-- After some occurrence of `c`, the log has larger elements only. -/
def Settled (id : α → ι) (L : List α) (c : α) : Prop :=
  ∃ l₁ l₂, L = l₁ ++ c :: l₂ ∧ ∀ a ∈ l₂, id c < id a

/-- In ascending order an identifier determines the element. -/
theorem Ascending.inj {C : List α} (hC : Ascending id C) {a b : α} (ha : a ∈ C) (hb : b ∈ C)
    (h : id a = id b) : a = b := by
  induction C with
  | nil => cases ha
  | cons c cs ih =>
    obtain ⟨hc, hcs⟩ := List.pairwise_cons.1 hC
    rcases List.mem_cons.1 ha with rfl | ha'
    · rcases List.mem_cons.1 hb with rfl | hb'
      · rfl
      · exact absurd h (hc b hb').ne
    · rcases List.mem_cons.1 hb with rfl | hb'
      · exact absurd h (hc a ha').ne'
      · exact ih hcs ha' hb'

/-- Emitting an element above all the others keeps the order. -/
theorem Ascending.concat {C : List α} (hC : Ascending id C) {c : α} (hc : ∀ a ∈ C, id a < id c) :
    Ascending id (C ++ [c]) :=
  List.pairwise_append.2 ⟨hC, List.pairwise_singleton _ _, fun a ha b hb => by
    rw [List.mem_singleton.1 hb]
    exact hc a ha⟩

/-- In a prefix of an ascending list, an element comes with all the smaller ones. -/
theorem Ascending.mem_initial {B C : List α} (hC : Ascending id C) (hB : B <+: C) {b c : α}
    (hb : b ∈ B) (hc : c ∈ C) (h : id c < id b) : c ∈ B := by
  obtain ⟨D, rfl⟩ := hB
  rcases List.mem_append.1 hc with hc | hc
  · exact hc
  · exact absurd ((List.pairwise_append.1 hC).2.2 b hb c hc) h.le.not_gt

/-- An empty log has nothing that could be out of place. -/
theorem follows_nil (C : List α) : Follows id C [] where
  emitted a ha := nomatch ha
  after l₁ a l₂ h := by simp at h

/-- Emitting a larger element does not affect what was processed. -/
theorem Follows.emit {C L : List α} (h : Follows id C L) {c : α} (hc : ∀ a ∈ C, id a < id c) :
    Follows id (C ++ [c]) L where
  emitted a ha := List.mem_append_left _ (h.emitted a ha)
  after l₁ a l₂ hL b hb hlt := by
    rcases List.mem_append.1 hb with hb | hb
    · exact h.after l₁ a l₂ hL b hb hlt
    · rw [List.mem_singleton.1 hb] at hlt
      have ha : a ∈ C := h.emitted a (by simp [hL])
      exact absurd (hc a ha) hlt.le.not_gt

/-- An emitted element may be processed when all the smaller ones were. -/
theorem Follows.concat {C L : List α} (h : Follows id C L) {a : α} (ha : a ∈ C)
    (hsmaller : ∀ c ∈ C, id c < id a → c ∈ L) : Follows id C (L ++ [a]) where
  emitted b hb := by
    rcases List.mem_append.1 hb with hb | hb
    · exact h.emitted b hb
    · rwa [List.mem_singleton.1 hb]
  after l₁ b l₂ hL c hc hlt := by
    rcases List.eq_nil_or_concat l₂ with rfl | ⟨l, x, rfl⟩
    · obtain ⟨rfl, hab⟩ := List.append_inj' hL rfl
      cases hab
      exact hsmaller c hc hlt
    · rw [List.concat_eq_append, ← List.cons_append, ← List.append_assoc] at hL
      exact h.after l₁ b l (List.append_inj' hL rfl).1 c hc hlt

/-- What is processed last is settled, as nothing comes after it. -/
theorem settled_concat_self (L : List α) (c : α) : Settled id (L ++ [c]) c :=
  ⟨L, [], rfl, fun _ ha => nomatch ha⟩

/-- Processing a larger element keeps a smaller one settled. -/
theorem Settled.concat {L : List α} {c : α} (h : Settled id L c) {a : α} (ha : id c < id a) :
    Settled id (L ++ [a]) c := by
  obtain ⟨l₁, l₂, rfl, hl⟩ := h
  refine ⟨l₁, l₂ ++ [a], by simp, fun b hb => ?_⟩
  rcases List.mem_append.1 hb with hb | hb
  · exact hl b hb
  · rwa [List.mem_singleton.1 hb]

/-- An element that is settled is in the log. -/
theorem Settled.mem {L : List α} {c : α} (h : Settled id L c) : c ∈ L := by
  obtain ⟨l₁, l₂, rfl, -⟩ := h
  simp

/-- The first element with a property is the same in the log as among the elements emitted. -/
theorem Follows.head?_filter {C L : List α} (h : Follows id C L) (hC : Ascending id C)
    (hall : ∀ c ∈ C, c ∈ L) (p : α → Bool) : (L.filter p).head? = (C.filter p).head? := by
  rw [List.head?_filter, List.head?_filter]
  cases hf : C.find? p with
  | none =>
    rw [List.find?_eq_none] at hf ⊢
    exact fun a ha => hf a (h.emitted a ha)
  | some c =>
    obtain ⟨hpc, c₁, c₂, rfl, hmin⟩ := List.find?_eq_some_iff_append.1 hf
    have hcC : c ∈ c₁ ++ c :: c₂ := by simp
    cases hl : L.find? p with
    | none => exact absurd hpc (List.find?_eq_none.1 hl c (hall c hcC))
    | some a =>
      obtain ⟨hpa, l₁, l₂, hL, hfirst⟩ := List.find?_eq_some_iff_append.1 hl
      have haC : a ∈ c₁ ++ c :: c₂ := h.emitted a (by simp [hL])
      rcases lt_trichotomy (id c) (id a) with hlt | heq | hlt
      · have hc := hfirst c (h.after l₁ a l₂ hL c hcC hlt)
        simp [hpc] at hc
      · rw [hC.inj hcC haC heq]
      · obtain ⟨-, hcs, -⟩ := List.pairwise_append.1 hC
        rcases List.mem_append.1 haC with ha | ha
        · have := hmin a ha
          simp [hpa] at this
        · rcases List.mem_cons.1 ha with rfl | ha
          · rfl
          · exact absurd ((List.pairwise_cons.1 hcs).1 a ha) hlt.le.not_gt

/-- The last element with a property is the same in the log as among the elements emitted, when
all of these are settled. -/
theorem Follows.getLast?_filter {C L : List α} (h : Follows id C L) (hC : Ascending id C)
    (hset : ∀ c ∈ C, Settled id L c) (p : α → Bool) :
    (L.filter p).getLast? = (C.filter p).getLast? := by
  rcases List.eq_nil_or_concat (C.filter p) with hf | ⟨init, c, hf⟩
  · have hnone : ∀ a ∈ L, ¬ p a = true := fun a ha hpa => by
      have hmem : a ∈ C.filter p := List.mem_filter.2 ⟨h.emitted a ha, hpa⟩
      rw [hf] at hmem
      cases hmem
    rw [hf, List.filter_eq_nil_iff.2 hnone]
  · rw [List.concat_eq_append] at hf
    obtain ⟨hcC, hpc⟩ := List.mem_filter.1 (show c ∈ C.filter p by simp [hf])
    obtain ⟨l₁, l₂, rfl, hl⟩ := hset c hcC
    -- nothing after the last occurrence of `c` has the property
    have hnone : ∀ a ∈ l₂, ¬ p a = true := fun a ha hpa => by
      have haC : a ∈ C := h.emitted a (by simp [ha])
      have hmem : a ∈ init ++ [c] := hf ▸ List.mem_filter.2 ⟨haC, hpa⟩
      have hord := hf ▸ hC.filter p
      rcases List.mem_append.1 hmem with hi | hi
      · exact absurd ((List.pairwise_append.1 hord).2.2 a hi c (by simp)) (hl a ha).le.not_gt
      · exact absurd (List.mem_singleton.1 hi ▸ hl a ha) (lt_irrefl _)
    rw [hf, List.filter_append, List.filter_cons_of_pos hpc, List.filter_eq_nil_iff.2 hnone]
    simp

/-- A log that is cut down to what satisfies `p`, when the log has nothing else, still follows. -/
theorem Follows.filter {C L : List α} (h : Follows id C L) {p : α → Bool} (hp : ∀ a ∈ L, p a) :
    Follows id (C.filter p) L where
  emitted a ha := List.mem_filter.2 ⟨h.emitted a ha, hp a ha⟩
  after l₁ a l₂ hL c hc hlt := h.after l₁ a l₂ hL c (List.mem_filter.1 hc).1 hlt

/-! ## Writes -/

section
variable {β : Type} (g : α → Option β) (p : β → Bool)

/-- The writes with a property are those of the elements whose write has it. -/
theorem filter_filterMap (l : List α) :
    (l.filterMap g).filter p = (l.filter fun a => (g a).any p).filterMap g := by
  induction l with
  | nil => rfl
  | cons a l ih =>
    cases hg : g a with
    | none =>
      rw [List.filterMap_cons_none hg, List.filter_cons_of_neg (by simp [hg]), ih]
    | some b =>
      rw [List.filterMap_cons_some hg]
      by_cases hp : p b
      · rw [List.filter_cons_of_pos hp, List.filter_cons_of_pos (by simpa [hg] using hp),
          List.filterMap_cons_some hg, ih]
      · rw [List.filter_cons_of_neg hp, List.filter_cons_of_neg (by simpa [hg] using hp), ih]

/-- The first write with a property is that of the first element whose write has it. -/
theorem head?_filter_filterMap (l : List α) :
    ((l.filterMap g).filter p).head? = (l.filter fun a => (g a).any p).head?.bind g := by
  rw [filter_filterMap]
  cases hl : l.filter fun a => (g a).any p with
  | nil => rfl
  | cons a l' =>
    have ha : a ∈ l.filter fun a => (g a).any p := hl ▸ List.mem_cons_self
    obtain ⟨b, hb, -⟩ := (Option.any_eq_true p (g a)).1 (List.mem_filter.1 ha).2
    rw [List.filterMap_cons_some hb, List.head?_cons, List.head?_cons, Option.bind_some, hb]

/-- The last write with a property is that of the last element whose write has it. -/
theorem getLast?_filter_filterMap (l : List α) :
    ((l.filterMap g).filter p).getLast? = (l.filter fun a => (g a).any p).getLast?.bind g := by
  rw [← List.head?_reverse, ← List.head?_reverse, ← List.filter_reverse, ← List.filter_reverse,
    ← List.filterMap_reverse]
  exact head?_filter_filterMap g p l.reverse

end

/-- A run of upserts in the order of the log leaves what one in the order of emission leaves. -/
theorem Follows.written_filterMap {κ ρ : Type} [DecidableEq κ] {key : ρ → κ} {C L : List α}
    (h : Follows id C L) (hC : Ascending id C) (hset : ∀ c ∈ C, Settled id L c)
    (m : Keyed.Merge key) (g : α → Option ρ) (k : κ) :
    Keyed.written m k (L.filterMap g) = Keyed.written m k (C.filterMap g) := by
  have hall : ∀ c ∈ C, c ∈ L := fun c hc => (hset c hc).mem
  unfold Keyed.written
  simp only [head?_filter_filterMap, getLast?_filter_filterMap, h.head?_filter hC hall,
    h.getLast?_filter hC hset]

end Replay
