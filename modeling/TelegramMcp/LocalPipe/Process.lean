import TelegramMcp.Lib.Forest

/-!
# Process ancestry

`ancestryIn` walks up the parents of a process in a snapshot. It takes 32 hops at most and stops
before a process it has been at, so it ends in any snapshot. Where the ancestors end within 32 hops,
it lists them all (`ancestryIn_isWalk`).
-/

namespace TelegramMcp.LocalPipe

open Forest

/-- The parent PID and the lowercased executable name of a process. -/
structure ProcInfo where
  parent : Nat
  exe : String
  deriving DecidableEq

/-- The running processes at one time: for each PID its executable and its parent, if there is such
a process. -/
abbrev Snapshot := Nat → Option ProcInfo

/-- The rest of the loop, with the hops left, the chain so far and its last process. -/
def ancestryLoop (snap : Snapshot) : Nat → List Nat → Nat → List Nat
  | 0, chain, _ => chain
  | hops + 1, chain, cur =>
    match snap cur with
    | none => chain
    | some info =>
      if info.parent = 0 ∨ info.parent = cur ∨ info.parent ∈ chain then chain
      else ancestryLoop snap hops (chain ++ [info.parent]) info.parent

/-- The chain of a process in a snapshot: the process, its parent, its grandparent and so on, 32
hops at most. -/
def ancestryIn (snap : Snapshot) (pid : Nat) : List Nat := ancestryLoop snap 32 [pid] pid

/-- `pid_ancestry_chain`: the ancestors of the current process, without the process itself. -/
def pidAncestryChain (snap : Snapshot) (id : Nat) : List Nat := (ancestryIn snap id).tail

/-- The parent link of a process. PID 0 is no parent, and neither is the process itself. -/
def parentOf (snap : Snapshot) (pid : Nat) : Option Nat :=
  (snap pid).bind fun info =>
    if info.parent = 0 ∨ info.parent = pid then none else some info.parent

/-- The ancestors of a process end within the 32 hops that the loop takes. -/
def Fits (snap : Snapshot) (pid : Nat) : Prop := hop (parentOf snap) 33 pid = none

instance (snap : Snapshot) (pid : Nat) : Decidable (Fits snap pid) :=
  inferInstanceAs (Decidable (_ = none))

/-- With a snapshot that fits, the ancestors of the process end. -/
theorem Fits.ends {snap : Snapshot} {pid : Nat} (h : Fits snap pid) : Ends (parentOf snap) pid :=
  ⟨33, h⟩

/-- The chain so far is the walk up the parents so far, without a gap, and `cur` is the last process
in it. -/
structure WalkedTo (snap : Snapshot) (pid : Nat) (chain : List Nat) (cur : Nat) : Prop where
  get : ∀ i < chain.length, chain[i]? = hop (parentOf snap) i pid
  last : hop (parentOf snap) (chain.length - 1) pid = some cur
  pos : 0 < chain.length

/-- A walk that has come to a process without a parent is complete. -/
theorem WalkedTo.isWalk {snap : Snapshot} {pid cur : Nat} {chain : List Nat}
    (h : WalkedTo snap pid chain cur) (hend : hop (parentOf snap) chain.length pid = none) :
    IsWalk (parentOf snap) pid chain := by
  intro i
  rcases Nat.lt_or_ge i chain.length with hlt | hge
  · exact h.get i hlt
  · rw [List.getElem?_eq_none hge, hop_eq_none_of_le hend hge]

/-- The hop after the chain goes to the parent of its last process. -/
theorem WalkedTo.hop_length {snap : Snapshot} {pid cur : Nat} {chain : List Nat}
    (h : WalkedTo snap pid chain cur) :
    hop (parentOf snap) chain.length pid = parentOf snap cur := by
  obtain ⟨k, hk⟩ : ∃ k, chain.length = k + 1 := ⟨chain.length - 1, by have := h.pos; omega⟩
  have hlast := h.last
  rw [hk, Nat.add_sub_cancel] at hlast
  rw [hk, hop_succ, hlast, Option.bind_some]

/-- A parent that was not met before goes on the chain and continues the walk. -/
theorem WalkedTo.push {snap : Snapshot} {pid cur parent : Nat} {chain : List Nat}
    (h : WalkedTo snap pid chain cur) (hparent : parentOf snap cur = some parent) :
    WalkedTo snap pid (chain ++ [parent]) parent := by
  refine ⟨?_, ?_, by simp⟩
  · intro i hi
    rw [List.length_append, List.length_singleton] at hi
    rcases Nat.lt_or_ge i chain.length with hlt | hge
    · rw [List.getElem?_append_left hlt]
      exact h.get i hlt
    · obtain rfl : i = chain.length := by omega
      rw [List.getElem?_concat_length, h.hop_length, hparent]
  · rw [List.length_append, List.length_singleton, Nat.add_sub_cancel, h.hop_length, hparent]

/-- A walk that ends does not come back to the chain. -/
theorem WalkedTo.not_mem {snap : Snapshot} {pid cur parent : Nat} {chain : List Nat}
    (h : WalkedTo snap pid chain cur) (hends : Ends (parentOf snap) pid)
    (hparent : parentOf snap cur = some parent) : parent ∉ chain := by
  intro hmem
  obtain ⟨i, hi⟩ := List.mem_iff_getElem?.1 hmem
  obtain ⟨hlt, -⟩ := List.getElem?_eq_some_iff.1 hi
  rw [h.get i hlt] at hi
  have := hends.hop_inj hi (h.hop_length.trans hparent)
  omega

/-- The loop completes the walk, when the ancestors end within the hops it has left. -/
theorem ancestryLoop_isWalk {snap : Snapshot} {pid : Nat} (hfits : Fits snap pid) (hops : Nat)
    (chain : List Nat) (cur : Nat) (h : WalkedTo snap pid chain cur)
    (hlen : chain.length + hops = 33) :
    IsWalk (parentOf snap) pid (ancestryLoop snap hops chain cur) := by
  induction hops generalizing chain cur with
  | zero =>
    obtain hlen : chain.length = 33 := hlen
    refine h.isWalk ?_
    rw [hlen]
    exact hfits
  | succ hops ih =>
    rw [ancestryLoop]
    cases hinfo : snap cur with
    | none =>
      refine h.isWalk ?_
      rw [h.hop_length, parentOf, hinfo]
      rfl
    | some info =>
      by_cases hroot : info.parent = 0 ∨ info.parent = cur
      · have hnone : parentOf snap cur = none := by
          rw [parentOf, hinfo, Option.bind_some, if_pos hroot]
        simp only [← or_assoc, hroot, true_or, if_true]
        exact h.isWalk (h.hop_length.trans hnone)
      · have hparent : parentOf snap cur = some info.parent := by
          rw [parentOf, hinfo, Option.bind_some, if_neg hroot]
        have hnew := h.not_mem hfits.ends hparent
        simp only [← or_assoc, hroot, hnew, or_self, if_false]
        refine ih _ _ (h.push hparent) ?_
        rw [List.length_append, List.length_singleton]
        omega

/-- Where the ancestors end within 32 hops, they are all listed. -/
theorem ancestryIn_isWalk {snap : Snapshot} {pid : Nat} (h : Fits snap pid) :
    IsWalk (parentOf snap) pid (ancestryIn snap pid) := by
  refine ancestryLoop_isWalk h 32 [pid] pid ⟨?_, rfl, Nat.one_pos⟩ rfl
  intro i hi
  obtain rfl : i = 0 := by
    rw [List.length_singleton] at hi
    omega
  rfl

end TelegramMcp.LocalPipe
