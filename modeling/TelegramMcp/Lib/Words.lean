import Mathlib.Data.List.Basic

/-!
# Words in a list of tokens

A `Reader` knows how an item is written as tokens and how one is read from the front of a list. So
a list of tokens is in one way only the words of some items and a rest at which no other item starts
(`exists_splits`, `Splits.unique`). A parser that takes one item after another acts on the words of
items as a fold over the items (`eq_foldl`); what the fold leaves in a field that every item sets or
leaves alone is what the last item that sets it says (`foldl_last`, `foldl_getD_last`).
-/

/-- How items are written as words, and how one is read; the two are inverse to each other. -/
structure Reader (τ ο : Type) where
  write : ο → List τ
  read : List τ → Option (ο × List τ)
  read_write : ∀ o rest, read (write o ++ rest) = some (o, rest)
  eq_of_read : ∀ {l o rest}, read l = some (o, rest) → l = write o ++ rest
  write_ne_nil : ∀ o, write o ≠ []

namespace Reader

section
variable {τ ο : Type} (R : Reader τ ο)

/-- The words of the items, one item after another. -/
def words (os : List ο) : List τ := os.flatMap R.write

/-- No items are no words. -/
@[simp] theorem words_nil : R.words [] = [] := rfl

/-- The words of the items are those of the first and then those of the others. -/
@[simp] theorem words_cons (o : ο) (os : List ο) : R.words (o :: os) = R.write o ++ R.words os :=
  rfl

/-- The list is the words of these items, and then a rest at which no item starts. -/
structure Splits (l : List τ) (os : List ο) (rest : List τ) : Prop where
  eq : l = R.words os ++ rest
  stuck : R.read rest = none

/-- What is left after an item was read is shorter. -/
theorem length_lt_of_read {l rest : List τ} {o : ο} (h : R.read l = some (o, rest)) :
    rest.length < l.length := by
  have hpos := List.length_pos_iff.2 (R.write_ne_nil o)
  rw [R.eq_of_read h, List.length_append]
  omega

/-- Every list splits into items and a rest, by induction on its length. -/
theorem exists_splits (l : List τ) : ∃ os rest, R.Splits l os rest := by
  induction hn : l.length using Nat.strongRecOn generalizing l with
  | ind n ih =>
    cases hread : R.read l with
    | none => exact ⟨[], l, rfl, hread⟩
    | some p =>
      obtain ⟨o, rest⟩ := p
      obtain ⟨os, rest', heq, hstuck⟩ := ih _ (hn ▸ R.length_lt_of_read hread) rest rfl
      refine ⟨o :: os, rest', ?_, hstuck⟩
      rw [words_cons, List.append_assoc, ← heq]
      exact R.eq_of_read hread

variable {R} {l rest rest' : List τ} {os os' : List ο}

/-- A list is read in one way only. -/
theorem Splits.unique (h : R.Splits l os rest) (h' : R.Splits l os' rest') :
    os = os' ∧ rest = rest' := by
  induction os generalizing l os' with
  | nil =>
    cases os' with
    | nil => exact ⟨rfl, h.eq.symm.trans h'.eq⟩
    | cons o os' =>
      have hread := h.stuck
      rw [show rest = l from h.eq.symm, h'.eq, words_cons, List.append_assoc, R.read_write] at hread
      cases hread
  | cons o os ih =>
    have hread : R.read l = some (o, R.words os ++ rest) := by
      rw [h.eq, words_cons, List.append_assoc, R.read_write]
    cases os' with
    | nil =>
      rw [show l = rest' from h'.eq, h'.stuck] at hread
      cases hread
    | cons o' os' =>
      rw [h'.eq, words_cons, List.append_assoc, R.read_write] at hread
      obtain ⟨rfl, hrest⟩ := Prod.mk.inj (Option.some.inj hread)
      obtain ⟨rfl, rfl⟩ := ih ⟨rfl, h.stuck⟩ ⟨hrest.symm, h'.stuck⟩
      exact ⟨rfl, rfl⟩

/-- A parser that takes one item after another does so for all the items, and then meets the
rest. -/
theorem eq_foldl {σ β : Type} (parse : σ → List τ → β) {step : σ → ο → σ}
    (h : ∀ s o rest, parse s (R.write o ++ rest) = parse (step s o) rest) (s : σ) (os : List ο)
    (rest : List τ) : parse s (R.words os ++ rest) = parse (os.foldl step s) rest := by
  induction os generalizing s with
  | nil => rfl
  | cons o os ih =>
    rw [words_cons, List.append_assoc, h, ih]
    rfl

end

section
variable {σ ο β : Type} {step : σ → ο → σ}

/-- A field that items set has what the last of them sets. -/
theorem foldl_last (get : σ → Option β) (val : ο → Option β)
    (h : ∀ s o, get (step s o) = (val o).or (get s)) (s : σ) (os : List ο) :
    get (os.foldl step s) = (os.filterMap val).getLast?.or (get s) := by
  induction os generalizing s with
  | nil => rfl
  | cons o os ih =>
    rw [List.foldl_cons, ih, h]
    cases ho : val o with
    | none => rw [List.filterMap_cons_none ho, Option.none_or]
    | some b =>
      rw [List.filterMap_cons_some ho, List.getLast?_cons]
      cases (os.filterMap val).getLast? <;> rfl

/-- A field with a default has what the last item sets, or the default. -/
theorem foldl_getD_last (get : σ → β) (val : ο → Option β)
    (h : ∀ s o, get (step s o) = (val o).getD (get s)) (s : σ) (os : List ο) :
    get (os.foldl step s) = (os.filterMap val).getLast?.getD (get s) := by
  have hsome : ∀ s o, some (get (step s o)) = (val o).or (some (get s)) := by
    intro s o
    rw [h]
    cases val o <;> rfl
  have hlast := foldl_last (fun s => some (get s)) val hsome s os
  cases hval : (os.filterMap val).getLast? <;> rw [hval] at hlast <;> exact Option.some.inj hlast

end

end Reader
