import Mathlib

/-!
# Walks up a forest

`up` takes an element to its parent, if it has one, and `hop up n` goes up `n` times. A walk `Ends`
when it comes to an element without a parent; then it meets no element twice (`Ends.hop_inj`).
`Nearest` is the first element of a walk with a property. If the property only holds of elements
that two walks both meet, it does not matter which of them is followed (`nearest_iff`).
-/

namespace Forest

variable {α : Type} {up : α → Option α} {a b c : α} {m n : Nat}

/-- The element `n` steps up, if there are as many. -/
def hop (up : α → Option α) : Nat → α → Option α
  | 0, a => some a
  | n + 1, a => (hop up n a).bind up

/-- No hop leads to the element itself. -/
@[simp] theorem hop_zero (up : α → Option α) (a : α) : hop up 0 a = some a := rfl

/-- One more hop goes up once from where the others lead. -/
theorem hop_succ (up : α → Option α) (n : Nat) (a : α) :
    hop up (n + 1) a = (hop up n a).bind up := rfl

/-- Hops may be taken in two parts, one after the other. -/
theorem hop_add (up : α → Option α) (m n : Nat) (a : α) :
    hop up (m + n) a = (hop up m a).bind (hop up n) := by
  induction n with
  | zero => exact (Option.bind_fun_some (hop up m a)).symm
  | succ n ih =>
    rw [← Nat.add_assoc, hop_succ, ih, Option.bind_assoc]
    rfl

/-- Further up than the end there is nothing. -/
theorem hop_eq_none_of_le (h : hop up m a = none) (hmn : m ≤ n) : hop up n a = none := by
  obtain ⟨k, rfl⟩ := Nat.exists_eq_add_of_le hmn
  rw [hop_add, h]
  rfl

/-- The walk up from `a` comes to an end after some number of steps. -/
def Ends (up : α → Option α) (a : α) : Prop := ∃ n, hop up n a = none

/-- Above an element from which the walk ends, it ends too. -/
theorem Ends.of_hop (h : Ends up a) (hb : hop up m a = some b) : Ends up b := by
  obtain ⟨n, hn⟩ := h
  refine ⟨n, ?_⟩
  have hsum : hop up (m + n) a = none := hop_eq_none_of_le hn (Nat.le_add_left n m)
  rwa [hop_add, hb] at hsum

/-- Where a walk ends there is no way back to where it was. -/
theorem Ends.not_hop_self (h : Ends up a) : hop up (n + 1) a ≠ some a := by
  intro hcycle
  obtain ⟨k, hk⟩ := h
  have hround (j : Nat) : hop up (j * (n + 1)) a = some a := by
    induction j with
    | zero => rw [Nat.zero_mul, hop_zero]
    | succ j ih => rw [Nat.succ_mul, hop_add, ih, Option.bind_some, hcycle]
  have hend := hop_eq_none_of_le hk (Nat.le_mul_of_pos_right k (Nat.succ_pos n))
  rw [hround k] at hend
  cases hend

/-- A walk that ends meets an element at one step only. -/
theorem Ends.hop_inj (h : Ends up a) (hm : hop up m a = some b) (hn : hop up n a = some b) :
    m = n := by
  wlog hle : m ≤ n generalizing m n
  · exact (this hn hm (Nat.le_of_not_le hle)).symm
  obtain ⟨k, rfl⟩ := Nat.exists_eq_add_of_le hle
  cases k with
  | zero => rfl
  | succ k =>
    rw [hop_add, hm, Option.bind_some] at hn
    exact absurd hn (h.of_hop hm).not_hop_self

/-- The first element with the property on the walk from `a`. -/
def Nearest (up : α → Option α) (P : α → Prop) (a c : α) : Prop :=
  ∃ n, hop up n a = some c ∧ P c ∧ ∀ m < n, ∀ d, hop up m a = some d → ¬ P d

/-- Where some element of a walk has the property, one is the first. -/
theorem exists_nearest {P : α → Prop} (hc : hop up n a = some c) (hP : P c) :
    ∃ d, Nearest up P a d := by
  classical
  have hex : ∃ n, ∃ d, hop up n a = some d ∧ P d := ⟨n, c, hc, hP⟩
  obtain ⟨d, hd, hPd⟩ := Nat.find_spec hex
  refine ⟨d, Nat.find hex, hd, hPd, ?_⟩
  intro m hm e he hPe
  exact Nat.find_min hex hm ⟨e, he, hPe⟩

/-- Only one element above is the nearest with a property. -/
theorem Nearest.unique {P : α → Prop} {d : α} (hc : Nearest up P a c) (hd : Nearest up P a d) :
    c = d := by
  obtain ⟨m, hm, hPc, hbefore⟩ := hc
  obtain ⟨n, hn, hPd, hbefore'⟩ := hd
  rcases Nat.lt_trichotomy m n with hlt | rfl | hlt
  · exact absurd hPc (hbefore' m hlt c hm)
  · exact Option.some.inj (hm.symm.trans hn)
  · exact absurd hPd (hbefore n hlt d hn)

/-- What the walks from `a` and `b` both meet and is first for `a` is first for `b`: something
before it would be met by the walk from `a` only behind it, so that this came round to it again. -/
theorem Nearest.of_common {P : α → Prop} (hend : Ends up a)
    (ha : ∀ d, P d → ∃ n, hop up n a = some d) (hb : ∀ d, P d → ∃ n, hop up n b = some d)
    (h : Nearest up P a c) : Nearest up P b c := by
  obtain ⟨n, hn, hP, hbefore⟩ := h
  obtain ⟨m, hm⟩ := hb c hP
  refine ⟨m, hm, hP, ?_⟩
  intro m' hlt d hd hPd
  obtain ⟨n', hn'⟩ := ha d hPd
  have hle : n ≤ n' := Nat.le_of_not_lt fun hlt => hbefore n' hlt d hn' hPd
  have hback : hop up (m - m') d = some c := by
    rw [← Nat.add_sub_cancel' (Nat.le_of_lt hlt), hop_add, hd] at hm
    exact hm
  have hround : hop up (n' + (m - m')) a = some c := by rw [hop_add, hn', Option.bind_some, hback]
  have := hend.hop_inj hn hround
  omega

/-- From which side the nearest common element is sought does not matter. -/
theorem nearest_iff {P : α → Prop} (hea : Ends up a) (heb : Ends up b)
    (ha : ∀ d, P d → ∃ n, hop up n a = some d) (hb : ∀ d, P d → ∃ n, hop up n b = some d) :
    Nearest up P a c ↔ Nearest up P b c :=
  ⟨.of_common hea ha hb, .of_common heb hb ha⟩

/-- The walk up from `a` as a list, with `a` first and the end last. -/
def IsWalk (up : α → Option α) (a : α) (l : List α) : Prop := ∀ n, l[n]? = hop up n a

/-- An element whose walk is a list has a walk that ends. -/
theorem IsWalk.ends {l : List α} (h : IsWalk up a l) : Ends up a :=
  ⟨l.length, by rw [← h, List.getElem?_eq_none (Nat.le_refl _)]⟩

/-- The walk from a node has the nodes that some number of hops leads to. -/
theorem IsWalk.mem_iff {l : List α} (h : IsWalk up a l) : b ∈ l ↔ ∃ n, hop up n a = some b := by
  rw [List.mem_iff_getElem?]
  exact exists_congr fun n => by rw [h]

/-- A walk has no element twice, as it would go on for ever. -/
theorem IsWalk.nodup {l : List α} (h : IsWalk up a l) : l.Nodup := by
  rw [List.nodup_iff_injective_getElem]
  intro i j hij
  refine Fin.ext (h.ends.hop_inj (b := l[j]) ?_ ?_)
  · rw [← h, List.getElem?_eq_getElem i.2]
    exact congrArg some hij
  · rw [← h, List.getElem?_eq_getElem j.2]
    rfl

/-- The first element of the list with a property is the nearest above `a` with it. -/
theorem IsWalk.find?_eq_some_iff {l : List α} {p : α → Bool} (h : IsWalk up a l) :
    l.find? p = some c ↔ Nearest up (fun d => p d = true) a c := by
  rw [List.find?_eq_some_iff_getElem]
  refine ⟨?_, ?_⟩
  · rintro ⟨hp, n, hn, rfl, hbefore⟩
    refine ⟨n, by rw [← h, List.getElem?_eq_getElem hn], hp, ?_⟩
    intro m hm d hd hpd
    have hml : m < l.length := Nat.lt_trans hm hn
    rw [← h, List.getElem?_eq_getElem hml, Option.some.injEq] at hd
    have hnot := hbefore m hm
    rw [hd, hpd] at hnot
    cases hnot
  · rintro ⟨n, hn, hp, hbefore⟩
    rw [← h] at hn
    obtain ⟨hlt, rfl⟩ := List.getElem?_eq_some_iff.1 hn
    refine ⟨hp, n, hlt, rfl, ?_⟩
    intro m hm
    have hml : m < l.length := Nat.lt_trans hm hlt
    have := hbefore m hm l[m] (by rw [← h, List.getElem?_eq_getElem hml])
    simpa using this

end Forest
