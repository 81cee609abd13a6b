import TelegramMcp.LocalPipe.Discovery
import TelegramMcp.Hook.LocalInput

/-!
# The record of the session

A hook finds the records of all servers that run, in the order in which the directory lists them.
`pickRecord` takes the one of its session; else the one whose server was started by the nearest
ancestor of the hook that started a server; else the only one. `Eligible` says this without an order
of the records. What is picked is eligible, something is picked if anything is, and the order plays
no part when no two records have a session or a parent process in common (`pickRecord_spec`).
-/

namespace TelegramMcp.Hook

open Forest LocalPipe

/-- `pick_record`: the record of the session, else the one of the nearest ancestor that has one,
else the only record there is. -/
def pickRecord (records : List DiscoveryRecord) (sessionIdEnv : Option String)
    (pidChain : List Nat) : Option DiscoveryRecord :=
  match sessionIdEnv.bind fun sid => records.find? fun r => r.sessionId = some sid with
  | some r => some r
  | none =>
    match pidChain.findSome? fun pid => records.find? fun r => r.ppid = pid with
    | some r => some r
    | none => if records.length = 1 then records[0]? else none

/-! ## Which record it should be -/

/-- The server of the record serves the session that the environment names. -/
def OfSession (sessionIdEnv : Option String) (r : DiscoveryRecord) : Prop :=
  ∃ sid, sessionIdEnv = some sid ∧ r.sessionId = some sid

/-- Its server was started by the nearest proper ancestor of the hook that started a server. -/
def OfNearestAncestor (records : List DiscoveryRecord) (snap : Snapshot) (hook : Nat)
    (r : DiscoveryRecord) : Prop :=
  ∃ parent, parentOf snap hook = some parent ∧
    Nearest (parentOf snap) (fun pid => ∃ r' ∈ records, r'.ppid = pid) parent r.ppid

/-- The records that may be picked: those of the session; without any, those of the nearest
ancestor; without any, the only one. -/
structure Eligible (records : List DiscoveryRecord) (sessionIdEnv : Option String)
    (snap : Snapshot) (hook : Nat) (r : DiscoveryRecord) : Prop where
  mem : r ∈ records
  session : (∃ r' ∈ records, OfSession sessionIdEnv r') → OfSession sessionIdEnv r
  ancestor : (¬ ∃ r' ∈ records, OfSession sessionIdEnv r') →
    (∃ r' ∈ records, OfNearestAncestor records snap hook r') →
      OfNearestAncestor records snap hook r
  only : (¬ ∃ r' ∈ records, OfSession sessionIdEnv r') →
    (¬ ∃ r' ∈ records, OfNearestAncestor records snap hook r') → records = [r]

/-- Two records have neither a parent process nor a session in common. -/
def Apart (r r' : DiscoveryRecord) : Prop :=
  r.ppid ≠ r'.ppid ∧ ∀ sid, r.sessionId = some sid → r'.sessionId ≠ some sid

instance : Std.Symm Apart := ⟨fun _ _ h => ⟨h.1.symm, fun sid hb ha => h.2 sid ha hb⟩⟩

section
variable {records : List DiscoveryRecord} {sessionIdEnv : Option String} {snap : Snapshot}
  {hook : Nat} {r : DiscoveryRecord}

/-! ## Each criterion -/

/-- The search for the session finds a record of it. -/
theorem ofSession_of_find? (h : (sessionIdEnv.bind fun sid =>
    records.find? fun r => r.sessionId = some sid) = some r) :
    r ∈ records ∧ OfSession sessionIdEnv r := by
  obtain ⟨sid, hsid, hfind⟩ := Option.bind_eq_some_iff.1 h
  exact ⟨List.mem_of_find?_eq_some hfind, sid, hsid, by simpa using List.find?_some hfind⟩

/-- When the session finds no record, none is of the session. -/
theorem not_ofSession_of_find? (h : (sessionIdEnv.bind fun sid =>
    records.find? fun r => r.sessionId = some sid) = none) :
    ¬ ∃ r ∈ records, OfSession sessionIdEnv r := by
  rintro ⟨r, hr, sid, rfl, hsid⟩
  rw [Option.bind_some, List.find?_eq_none] at h
  exact h r hr (decide_eq_true hsid)

/-- The ancestors of a process are the walk from its parent. -/
theorem pidAncestryChain_isWalk (h : Fits snap hook) {parent : Nat}
    (hparent : parentOf snap hook = some parent) :
    IsWalk (parentOf snap) parent (pidAncestryChain snap hook) := by
  intro n
  rw [pidAncestryChain, List.getElem?_tail, ancestryIn_isWalk h, Nat.add_comm, hop_add]
  change (parentOf snap hook).bind _ = _
  rw [hparent, Option.bind_some]

/-- A hook without a parent has no ancestors to look at. -/
theorem pidAncestryChain_eq_nil (h : Fits snap hook) (hparent : parentOf snap hook = none) :
    pidAncestryChain snap hook = [] := by
  have hone : hop (parentOf snap) 1 hook = none := hparent
  refine List.eq_nil_iff_forall_not_mem.2 ?_
  intro pid hpid
  obtain ⟨n, hn⟩ := (mem_pidAncestryChain_iff h).1 hpid
  rw [hop_eq_none_of_le hone (Nat.le_add_left 1 n)] at hn
  cases hn

/-- The search up the ancestors stops at the nearest that is the parent of a server. -/
theorem findSome?_ppid_eq_some_iff {chain : List Nat} :
    (chain.findSome? fun pid => records.find? fun r => r.ppid = pid) = some r ↔
      (chain.find? fun pid => records.any fun r' => r'.ppid = pid) = some r.ppid ∧
        (records.find? fun r' => r'.ppid = r.ppid) = some r := by
  induction chain with
  | nil => simp
  | cons pid chain ih =>
    rw [List.findSome?_cons, List.find?_cons]
    cases hfind : records.find? fun r => r.ppid = pid with
    | none =>
      have hnone : (records.any fun r' => r'.ppid = pid) = false := by
        rw [List.any_eq_false]
        exact List.find?_eq_none.1 hfind
      rw [hnone]
      exact ih
    | some r' =>
      have hppid : r'.ppid = pid := by simpa using List.find?_some hfind
      have hany : (records.any fun r' => r'.ppid = pid) = true :=
        List.any_eq_true.2 ⟨r', List.mem_of_find?_eq_some hfind, decide_eq_true hppid⟩
      rw [hany, Option.some.injEq, Option.some.injEq]
      refine ⟨?_, ?_⟩
      · rintro rfl
        exact ⟨hppid.symm, hppid ▸ hfind⟩
      · rintro ⟨hpid, hsome⟩
        rw [← hpid, hfind] at hsome
        exact Option.some.inj hsome

/-- The first process of the chain that has a record is the nearest ancestor that has one. -/
theorem nearest_iff_find? (h : Fits snap hook) {pid : Nat} :
    ((pidAncestryChain snap hook).find? fun pid => records.any fun r' => r'.ppid = pid) =
        some pid ↔
      ∃ parent, parentOf snap hook = some parent ∧
        Nearest (parentOf snap) (fun pid => ∃ r' ∈ records, r'.ppid = pid) parent pid := by
  cases hparent : parentOf snap hook with
  | none => simp [pidAncestryChain_eq_nil h hparent]
  | some parent =>
    rw [(pidAncestryChain_isWalk h hparent).find?_eq_some_iff]
    simp

/-- The record found along the chain is one of the nearest ancestor. -/
theorem ofNearestAncestor_of_findSome? (h : Fits snap hook)
    (hfind : ((pidAncestryChain snap hook).findSome? fun pid =>
      records.find? fun r => r.ppid = pid) = some r) :
    r ∈ records ∧ OfNearestAncestor records snap hook r := by
  obtain ⟨hnear, hr⟩ := findSome?_ppid_eq_some_iff.1 hfind
  exact ⟨List.mem_of_find?_eq_some hr, (nearest_iff_find? h).1 hnear⟩

/-- When the search along the chain finds no record, no ancestor has one. -/
theorem not_ofNearestAncestor_of_findSome? (h : Fits snap hook)
    (hfind : ((pidAncestryChain snap hook).findSome? fun pid =>
      records.find? fun r => r.ppid = pid) = none) :
    ¬ ∃ r ∈ records, OfNearestAncestor records snap hook r := by
  rintro ⟨r, hr, hnear⟩
  have hchain := (nearest_iff_find? h).2 hnear
  have hpid := List.findSome?_eq_none_iff.1 hfind _ (List.mem_of_find?_eq_some hchain)
  exact List.find?_eq_none.1 hpid r hr (decide_eq_true rfl)

/-! ## The choice -/

/-- What is picked is eligible, by the step that picked it. -/
theorem eligible_of_pickRecord (h : Fits snap hook)
    (hpick : pickRecord records sessionIdEnv (pidAncestryChain snap hook) = some r) :
    Eligible records sessionIdEnv snap hook r := by
  unfold pickRecord at hpick
  split at hpick
  · next r' hfind =>
    cases hpick
    obtain ⟨hr, hsession⟩ := ofSession_of_find? hfind
    exact ⟨hr, fun _ => hsession, fun hno => absurd ⟨_, hr, hsession⟩ hno,
      fun hno => absurd ⟨_, hr, hsession⟩ hno⟩
  · next hsession =>
    have hno := not_ofSession_of_find? hsession
    split at hpick
    · next r' hfind =>
      cases hpick
      obtain ⟨hr, hnear⟩ := ofNearestAncestor_of_findSome? h hfind
      exact ⟨hr, fun hex => absurd hex hno, fun _ _ => hnear,
        fun _ hnone => absurd ⟨_, hr, hnear⟩ hnone⟩
    · next hfind =>
      have hnone := not_ofNearestAncestor_of_findSome? h hfind
      split at hpick
      · next hlen =>
        obtain ⟨r', rfl⟩ := List.length_eq_one_iff.1 hlen
        cases hpick
        exact ⟨List.mem_singleton_self _, fun hex => absurd hex hno,
          fun _ hex => absurd hex hnone, fun _ _ => rfl⟩
      · cases hpick

/-- When nothing is picked, nothing is eligible. -/
theorem not_eligible_of_pickRecord (h : Fits snap hook)
    (hpick : pickRecord records sessionIdEnv (pidAncestryChain snap hook) = none) :
    ¬ Eligible records sessionIdEnv snap hook r := by
  intro hr
  unfold pickRecord at hpick
  split at hpick
  · cases hpick
  · next hsession =>
    split at hpick
    · cases hpick
    · next hfind =>
      rw [hr.only (not_ofSession_of_find? hsession) (not_ofNearestAncestor_of_findSome? h hfind)]
        at hpick
      cases hpick

/-- Of records that are apart, at most one is eligible. The session's comes first; without one the
ancestors decide, of which the nearest has one record at most. -/
theorem Eligible.unique (hdistinct : records.Pairwise Apart) {r' : DiscoveryRecord}
    (h : Eligible records sessionIdEnv snap hook r)
    (h' : Eligible records sessionIdEnv snap hook r') : r = r' := by
  by_contra hne
  obtain ⟨hppid, hsid⟩ := hdistinct.forall h.mem h'.mem hne
  by_cases hsession : ∃ r' ∈ records, OfSession sessionIdEnv r'
  · obtain ⟨sid, rfl, hr⟩ := h.session hsession
    obtain ⟨sid', heq, hr'⟩ := h'.session hsession
    cases heq
    exact hsid sid hr hr'
  · by_cases hnear : ∃ r' ∈ records, OfNearestAncestor records snap hook r'
    · obtain ⟨parent, hparent, hr⟩ := h.ancestor hsession hnear
      obtain ⟨parent', hparent', hr'⟩ := h'.ancestor hsession hnear
      cases hparent.symm.trans hparent'
      exact hppid (hr.unique hr')
    · have hsame := (h.only hsession hnear).symm.trans (h'.only hsession hnear)
      exact hne (List.singleton_inj.1 hsame)

/-- The order of the records does not matter to who is eligible. -/
theorem Eligible.perm {records' : List DiscoveryRecord} (hperm : records.Perm records')
    (h : Eligible records sessionIdEnv snap hook r) :
    Eligible records' sessionIdEnv snap hook r := by
  have hmem (a : DiscoveryRecord) : a ∈ records' ↔ a ∈ records := hperm.mem_iff.symm
  have hnear (a : DiscoveryRecord) : OfNearestAncestor records' snap hook a ↔
      OfNearestAncestor records snap hook a := by
    simp only [OfNearestAncestor, hmem]
  refine ⟨(hmem r).2 h.mem, ?_, ?_, ?_⟩
  · simpa only [hmem] using h.session
  · simpa only [hmem, hnear] using h.ancestor
  · simp only [hmem, hnear]
    intro hsession hnone
    rw [h.only hsession hnone] at hperm
    exact hperm.singleton_eq.symm

end

/-- Where the ancestors of the hook end within 32 hops: what is picked is eligible, and if something
is eligible, something is picked. Of records that are apart the same one is picked, in whatever
order they are listed. -/
theorem pickRecord_spec {snap : Snapshot} {hook : Nat} (h : Fits snap hook)
    (records : List DiscoveryRecord) (sessionIdEnv : Option String) :
    (∀ r, pickRecord records sessionIdEnv (pidAncestryChain snap hook) = some r →
      Eligible records sessionIdEnv snap hook r) ∧
    (pickRecord records sessionIdEnv (pidAncestryChain snap hook) = none →
      ∀ r, ¬ Eligible records sessionIdEnv snap hook r) ∧
    (records.Pairwise Apart → ∀ records', records.Perm records' →
      pickRecord records' sessionIdEnv (pidAncestryChain snap hook) =
        pickRecord records sessionIdEnv (pidAncestryChain snap hook)) := by
  refine ⟨fun r => eligible_of_pickRecord h, fun hnone r => not_eligible_of_pickRecord h hnone, ?_⟩
  intro hdistinct records' hperm
  cases hpick : pickRecord records sessionIdEnv (pidAncestryChain snap hook) with
  | none =>
    cases hpick' : pickRecord records' sessionIdEnv (pidAncestryChain snap hook) with
    | none => rfl
    | some r' =>
      exact absurd ((eligible_of_pickRecord h hpick').perm hperm.symm)
        (not_eligible_of_pickRecord h hpick)
  | some r =>
    have hr := eligible_of_pickRecord h hpick
    cases hpick' : pickRecord records' sessionIdEnv (pidAncestryChain snap hook) with
    | none => exact absurd (hr.perm hperm) (not_eligible_of_pickRecord h hpick')
    | some r' =>
      have hr' := (eligible_of_pickRecord h hpick').perm hperm.symm
      rw [hr.unique hdistinct hr']

/-- Two editors side by side, and a hook in the second. -/
def editors : Snapshot := fun pid =>
  [(50, ⟨30, "code.exe"⟩), (60, ⟨30, "code.exe"⟩), (70, ⟨60, "claude.exe"⟩),
    (80, ⟨70, "tg-hook.exe"⟩)].lookup pid

/-- The record of the server that an editor has started. -/
def serverOf (ppid : Nat) : DiscoveryRecord := { sample with pid := ppid + 1, ppid }

/-- Each of two editors runs a server, and the hook is below one of them: in either order of the
records, its own server is picked. -/
theorem pickRecord_spec_editors :
    pickRecord [serverOf 60, serverOf 50] none (pidAncestryChain editors 80) =
      pickRecord [serverOf 50, serverOf 60] none (pidAncestryChain editors 80) := by
  have hapart : [serverOf 50, serverOf 60].Pairwise Apart := by
    refine List.pairwise_pair.2 ⟨by decide, ?_⟩
    rintro sid ⟨⟩
  exact (pickRecord_spec (by decide) _ none).2.2 hapart _ (List.Perm.swap _ _ [])

example : pickRecord [serverOf 50, serverOf 60] none (pidAncestryChain editors 80) =
    some (serverOf 60) := by decide

end TelegramMcp.Hook
