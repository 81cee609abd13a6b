import TelegramMcp.LocalPipe.Process
import TelegramMcp.Lib.System

/-!
# Local input at the host application

`focusedWindowIsHost` decides by the first process of the focused window's ancestry that is an
ancestor of the hook too. It is the nearest common ancestor of the two, from either side
(`sameApplication`). `LocalInputWatcher` keeps a snapshot as long as it knows the focused process.
What it decides on it is right while no entry that the walk reads has changed (`verdicts_fresh`).
-/

namespace TelegramMcp.Hook

open Forest LocalPipe

/-- `GENERIC_EXES`: executables that unrelated applications have as a common ancestor. -/
def genericExes : List String :=
  ["explorer.exe", "svchost.exe", "services.exe", "wininit.exe", "winlogon.exe", "userinit.exe",
    "runtimebroker.exe", ""]

/-- The system root, a process the snapshot does not know, or one of `genericExes`. -/
def isGenericAncestor (snap : Snapshot) (pid : Nat) : Bool :=
  if pid ≤ 4 then true
  else
    match snap pid with
    | none => true
    | some info => genericExes.contains info.exe

/-- `focused_window_is_host`: the first process of the window's chain that is also in the hook's, if
it is not one that everything descends from. -/
def focusedWindowIsHost (fgPid : Nat) (hostPids : List Nat) (snap : Snapshot) : Bool :=
  match (ancestryIn snap fgPid).find? fun pid => hostPids.contains pid with
  | some pid => !isGenericAncestor snap pid
  | none => false

/-! ## The nearest common ancestor -/

/-- The focused process or an ancestor of it, and a proper ancestor of the hook. -/
def CommonAncestor (snap : Snapshot) (f h pid : Nat) : Prop :=
  (∃ n, hop (parentOf snap) n f = some pid) ∧ ∃ n, hop (parentOf snap) (n + 1) h = some pid

section
variable {snap : Snapshot} {f h : Nat}

/-- With a snapshot that fits, the chain has the ancestors of the hook, and no others. -/
theorem mem_pidAncestryChain_iff (hh : Fits snap h) {pid : Nat} :
    pid ∈ pidAncestryChain snap h ↔ ∃ n, hop (parentOf snap) (n + 1) h = some pid := by
  rw [pidAncestryChain, List.mem_iff_getElem?]
  refine exists_congr ?_
  intro n
  rw [List.getElem?_tail, ancestryIn_isWalk hh]

/-- Of the processes on the walk, `pidAncestryChain` has those that are common ancestors. -/
theorem nearest_congr (hh : Fits snap h) {pid : Nat} :
    Nearest (parentOf snap) (fun d => (pidAncestryChain snap h).contains d = true) f pid ↔
      Nearest (parentOf snap) (CommonAncestor snap f h) f pid := by
  have hiff : ∀ n d, hop (parentOf snap) n f = some d →
      ((pidAncestryChain snap h).contains d = true ↔ CommonAncestor snap f h d) := by
    intro n d hd
    rw [List.contains_iff_mem, mem_pidAncestryChain_iff hh]
    exact (and_iff_right ⟨n, hd⟩).symm
  refine exists_congr ?_
  intro n
  refine and_congr_right ?_
  intro hn
  refine and_congr (hiff n pid hn) (forall₄_congr ?_)
  intro m _ d hd
  exact not_congr (hiff m d hd)

/-- The window is the host's exactly when the nearest common ancestor is not generic. -/
theorem focusedWindowIsHost_iff (hf : Fits snap f) (hh : Fits snap h) :
    focusedWindowIsHost f (pidAncestryChain snap h) snap = true ↔
      ∃ pid, Nearest (parentOf snap) (CommonAncestor snap f h) f pid ∧
        isGenericAncestor snap pid = false := by
  have hfind (pid : Nat) := ((ancestryIn_isWalk hf).find?_eq_some_iff
    (p := fun pid => (pidAncestryChain snap h).contains pid) (c := pid)).trans (nearest_congr hh)
  simp only [← hfind]
  rw [focusedWindowIsHost]
  split
  · next pid hpid =>
    rw [Bool.not_eq_true']
    refine ⟨fun hnot => ⟨pid, hpid, hnot⟩, ?_⟩
    rintro ⟨pid', hpid', hnot⟩
    cases hpid.symm.trans hpid'
    exact hnot
  · next hnone =>
    refine iff_of_false Bool.false_ne_true ?_
    rintro ⟨pid, hpid, -⟩
    cases hnone.symm.trans hpid

/-- The ancestry of a process lists its parents upwards without repetition. The window is the host's
exactly when there is a common ancestor and the nearest, which is the same for both, is not generic.
So it is not when all common ancestors are. -/
theorem sameApplication (hf : Fits snap f) (hh : Fits snap h) :
    (∀ pid, Fits snap pid → (ancestryIn snap pid).Nodup ∧
      ∀ n, (ancestryIn snap pid)[n]? = hop (parentOf snap) n pid) ∧
    (focusedWindowIsHost f (pidAncestryChain snap h) snap = true ↔
      ∃ pid, Nearest (parentOf snap) (CommonAncestor snap f h) f pid ∧
        isGenericAncestor snap pid = false) ∧
    (∀ pid, Nearest (parentOf snap) (CommonAncestor snap f h) f pid ↔
      Nearest (parentOf snap) (CommonAncestor snap f h) h pid) ∧
    ((∃ pid, CommonAncestor snap f h pid) →
      ∃ pid, Nearest (parentOf snap) (CommonAncestor snap f h) f pid) ∧
    ((∀ pid, CommonAncestor snap f h pid → isGenericAncestor snap pid = true) →
      focusedWindowIsHost f (pidAncestryChain snap h) snap = false) := by
  refine ⟨?_, focusedWindowIsHost_iff hf hh, ?_, ?_, ?_⟩
  · intro pid hpid
    exact ⟨(ancestryIn_isWalk hpid).nodup, ancestryIn_isWalk hpid⟩
  · intro pid
    refine nearest_iff hf.ends hh.ends (fun d hd => hd.1) ?_
    rintro d ⟨-, n, hn⟩
    exact ⟨n + 1, hn⟩
  · rintro ⟨pid, hpid⟩
    obtain ⟨n, hn⟩ := hpid.1
    exact exists_nearest hn hpid
  · intro hgeneric
    rw [Bool.eq_false_iff, Ne, focusedWindowIsHost_iff hf hh]
    rintro ⟨pid, ⟨n, -, hcommon, -⟩, hnot⟩
    rw [hgeneric pid hcommon] at hnot
    cases hnot

end

/-- The windows of an editor and of another application, and the hook below the editor's extension
host. -/
def desktop : Snapshot := fun pid =>
  [(30, ⟨2, "explorer.exe"⟩), (50, ⟨30, "code.exe"⟩), (60, ⟨50, "code.exe"⟩),
    (70, ⟨50, "code.exe"⟩), (80, ⟨70, "tg-hook.exe"⟩), (90, ⟨30, "chrome.exe"⟩)].lookup pid

/-- A terminal in an editor, with a browser beside it: the editor is the application of the hook. -/
theorem sameApplication_desktop :
    Fits desktop 60 ∧ Fits desktop 80 ∧
      (focusedWindowIsHost 60 (pidAncestryChain desktop 80) desktop = true ↔
        ∃ pid, Nearest (parentOf desktop) (CommonAncestor desktop 60 80) 60 pid ∧
          isGenericAncestor desktop pid = false) :=
  ⟨by decide, by decide, (sameApplication (by decide) (by decide)).2.1⟩

example : focusedWindowIsHost 60 (pidAncestryChain desktop 80) desktop = true := by decide

example : focusedWindowIsHost 90 (pidAncestryChain desktop 80) desktop = false := by decide

/-! ## The cached snapshot -/

/-- What the system says at a call: the time since the last input, the process of the focused window
(0 if there is none), and the processes that run. -/
structure Call where
  millisSinceInput : Option Nat
  foregroundPid : Nat
  processSnapshot : Snapshot

/-- `LocalInputWatcher`: what it keeps between two calls. The snapshot of the processes is empty at
first, and taken anew whenever the process of the focused window is not in it. -/
structure LocalInputWatcher where
  /-- The hook's ancestor PID chain. -/
  hostPids : List Nat
  thresholdMillis : Nat
  /-- Cached process snapshot. -/
  snapshot : Snapshot

namespace LocalInputWatcher

/-- `LocalInputWatcher::new`: there is no snapshot at first, so that the first call takes one. -/
def new (hostPids : List Nat) (thresholdMillis : Nat) : LocalInputWatcher :=
  { hostPids, thresholdMillis, snapshot := fun _ => none }

/-- `user_active`: recent input counts when the window in the foreground is the hook's, as the
cached snapshot has it. A new snapshot is taken only for a window whose process the cached one does
not know. -/
def userActive (w : LocalInputWatcher) (c : Call) : Bool × LocalInputWatcher :=
  match c.millisSinceInput with
  | none => (false, w)
  | some elapsed =>
    if w.thresholdMillis < elapsed then (false, w)
    else if c.foregroundPid = 0 then (false, w)
    else
      -- a snapshot is taken only for a process the cached one does not have
      let w := if (w.snapshot c.foregroundPid).isNone then { w with snapshot := c.processSnapshot }
        else w
      (focusedWindowIsHost c.foregroundPid w.hostPids w.snapshot, w)

end LocalInputWatcher

/-- A watcher, with what each of its calls has answered so far beside the answer that a fresh
snapshot would have given there. -/
structure Watch where
  watcher : LocalInputWatcher
  verdicts : List (Bool × Bool)

/-- A call, and the verdict that a snapshot taken now would have given. -/
def Watch.step (c : Call) (s : Watch) : Option Watch :=
  let (active, watcher) := s.watcher.userActive c
  let fresh := focusedWindowIsHost c.foregroundPid s.watcher.hostPids c.processSnapshot
  some { watcher, verdicts := s.verdicts ++ [(active, fresh)] }

/-- A watcher that is polled, while processes come and go in any way. -/
def watching : System Watch Call where
  init s := (∃ hostPids thresholdMillis,
    s.watcher = LocalInputWatcher.new hostPids thresholdMillis) ∧ s.verdicts = []
  step := Watch.step

/-- There was input within the threshold, and a window in the foreground. -/
def Recent (s : Watch) (c : Call) : Prop :=
  ∃ elapsed, c.millisSinceInput = some elapsed ∧ elapsed ≤ s.watcher.thresholdMillis

/-- Every call so far has given the verdict of a fresh snapshot. -/
def Watch.Fresh (s : Watch) : Prop := ∀ v ∈ s.verdicts, v.1 = v.2

/-- What `focusedWindowIsHost` reads of the one snapshot is the same in the other: the parents of
the processes below the first host process on the walk, and the executable of that. -/
structure Unchanged (hostPids : List Nat) (fgPid : Nat) (cached now : Snapshot) : Prop where
  parents : ∀ pid ∈ (ancestryIn cached fgPid).takeWhile fun pid => !hostPids.contains pid,
    (cached pid).map (·.parent) = (now pid).map (·.parent)
  host : ∀ pid, (ancestryIn cached fgPid).find? (fun pid => hostPids.contains pid) = some pid →
    (cached pid).map (·.exe) = (now pid).map (·.exe)

/-- There was recent input, and if the cached snapshot is used, nothing it is used for is stale.
Where no window has the focus, PID 0 has no parent. -/
structure NotStale (s : Watch) (c : Call) : Prop where
  recent : Recent s c
  unchanged : (s.watcher.snapshot c.foregroundPid).isSome →
    Unchanged s.watcher.hostPids c.foregroundPid s.watcher.snapshot c.processSnapshot
  unfocused : c.foregroundPid = 0 → parentOf c.processSnapshot 0 = none

section
variable {cached now : Snapshot} {hostPids : List Nat} {p : Nat → Bool}

/-- The loop only adds to the chain it was started with. -/
theorem ancestryLoop_extends (snap : Snapshot) (hops : Nat) (chain : List Nat) (cur : Nat) :
    chain <+: ancestryLoop snap hops chain cur := by
  induction hops generalizing chain cur with
  | zero => exact List.prefix_rfl
  | succ hops ih =>
    rw [ancestryLoop]
    split
    · exact List.prefix_rfl
    · split
      · exact List.prefix_rfl
      · exact (List.prefix_append _ _).trans (ih _ _)

/-- What is found in the chain so far is what is found in the end. -/
theorem find?_ancestryLoop_of_chain {snap : Snapshot} {chain : List Nat} {pid : Nat}
    (hops cur : Nat) (h : chain.find? p = some pid) :
    (ancestryLoop snap hops chain cur).find? p = some pid := by
  obtain ⟨rest, hrest⟩ := ancestryLoop_extends snap hops chain cur
  rw [← hrest, List.find?_append, h]
  rfl

/-- Two walks find the same process first when the parents below it are the same. -/
theorem find?_ancestryLoop_congr (hops : Nat) {chain : List Nat} {cur : Nat}
    (hchain : ∀ pid ∈ chain, p pid = false) (hcur : cur ∈ chain)
    (hsame : ∀ pid ∈ (ancestryLoop cached hops chain cur).takeWhile fun pid => !p pid,
      (cached pid).map (·.parent) = (now pid).map (·.parent)) :
    (ancestryLoop cached hops chain cur).find? p = (ancestryLoop now hops chain cur).find? p := by
  induction hops generalizing chain cur with
  | zero => rfl
  | succ hops ih =>
    have hparent : (cached cur).map (·.parent) = (now cur).map (·.parent) := by
      refine hsame cur ?_
      obtain ⟨rest, hrest⟩ := ancestryLoop_extends cached (hops + 1) chain cur
      rw [← hrest, List.takeWhile_append_of_pos fun pid hpid => by rw [hchain pid hpid]; rfl]
      exact List.mem_append_left _ hcur
    rw [ancestryLoop] at hsame ⊢
    rw [ancestryLoop]
    cases hinfo : cached cur with
    | none =>
      rw [hinfo] at hparent
      rw [Option.map_eq_none_iff.1 hparent.symm]
    | some info =>
      rw [hinfo] at hparent hsame
      obtain ⟨info', hinfo', hsameParent⟩ := Option.map_eq_some_iff.1 hparent.symm
      rw [hinfo']
      simp only [hsameParent]
      split
      · rfl
      · next hgo =>
        simp only [if_neg hgo] at hsame
        cases hp : p info.parent with
        | true =>
          have hfind : (chain ++ [info.parent]).find? p = some info.parent := by
            rw [List.find?_append, List.find?_eq_none.2 fun pid hpid => by simp [hchain pid hpid]]
            simp [hp]
          rw [find?_ancestryLoop_of_chain _ _ hfind, find?_ancestryLoop_of_chain _ _ hfind]
        | false =>
          refine ih ?_ (List.mem_append_right _ List.mem_cons_self) hsame
          intro pid hpid
          rcases List.mem_append.1 hpid with hpid | hpid
          · exact hchain pid hpid
          · rwa [List.mem_singleton.1 hpid]

/-- Where the chain of the window has not changed, the same host is found on it. -/
theorem find?_ancestryIn_congr {fgPid : Nat} (h : Unchanged hostPids fgPid cached now) :
    (ancestryIn cached fgPid).find? (fun pid => hostPids.contains pid) =
      (ancestryIn now fgPid).find? fun pid => hostPids.contains pid := by
  cases hp : hostPids.contains fgPid with
  | true =>
    have hfind : [fgPid].find? (fun pid => hostPids.contains pid) = some fgPid :=
      List.find?_cons_of_pos hp
    rw [ancestryIn, ancestryIn, find?_ancestryLoop_of_chain _ _ hfind,
      find?_ancestryLoop_of_chain _ _ hfind]
  | false =>
    refine find?_ancestryLoop_congr 32 ?_ List.mem_cons_self h.parents
    intro pid hpid
    rwa [List.mem_singleton.1 hpid]

/-- Whether everything descends from a process depends on its executable only. -/
theorem isGenericAncestor_congr {pid : Nat}
    (h : (cached pid).map (·.exe) = (now pid).map (·.exe)) :
    isGenericAncestor cached pid = isGenericAncestor now pid := by
  have hexe (snap : Snapshot) : isGenericAncestor snap pid =
      if pid ≤ 4 then true else ((snap pid).map (·.exe)).elim true genericExes.contains := by
    rw [isGenericAncestor]
    cases snap pid <;> rfl
  rw [hexe, hexe, h]

/-- Snapshots that do not differ in what is read give the same verdict. -/
theorem focusedWindowIsHost_congr {fgPid : Nat} (h : Unchanged hostPids fgPid cached now) :
    focusedWindowIsHost fgPid hostPids cached = focusedWindowIsHost fgPid hostPids now := by
  rw [focusedWindowIsHost, focusedWindowIsHost, ← find?_ancestryIn_congr h]
  split
  · next pid hpid => rw [isGenericAncestor_congr (h.host pid hpid)]
  · rfl

end

/-- PID 0, which stands for no window, is never the host's. -/
theorem focusedWindowIsHost_zero {snap : Snapshot} {hostPids : List Nat}
    (h : parentOf snap 0 = none) : focusedWindowIsHost 0 hostPids snap = false := by
  have hchain : ancestryIn snap 0 = [0] := by
    rw [ancestryIn, ancestryLoop]
    cases hinfo : snap 0 with
    | none => rfl
    | some info =>
      have hroot : info.parent = 0 := by
        by_contra hne
        rw [parentOf, hinfo, Option.bind_some, if_neg (not_or.2 ⟨hne, hne⟩)] at h
        cases h
      exact if_pos (.inl hroot)
  rw [focusedWindowIsHost, hchain]
  split
  · next pid hpid =>
    obtain rfl := List.mem_singleton.1 (List.mem_of_find?_eq_some hpid)
    rfl
  · rfl

/-- A call that reads nothing stale gives the fresh verdict. -/
theorem userActive_eq {s : Watch} {c : Call} (h : NotStale s c) :
    (s.watcher.userActive c).1 =
      focusedWindowIsHost c.foregroundPid s.watcher.hostPids c.processSnapshot := by
  obtain ⟨elapsed, helapsed, hle⟩ := h.recent
  have hrecent : ¬ s.watcher.thresholdMillis < elapsed := Nat.not_lt.2 hle
  simp only [LocalInputWatcher.userActive, helapsed, if_neg hrecent]
  split
  · next hfg =>
    rw [hfg]
    exact (focusedWindowIsHost_zero (h.unfocused hfg)).symm
  · cases hknown : s.watcher.snapshot c.foregroundPid with
    | none => rfl
    | some info => exact focusedWindowIsHost_congr (h.unchanged (by rw [hknown]; rfl))

/-- In a run in which nothing stale is read, every verdict is the one that a fresh snapshot would
give: for the cached one must not have changed where the verdict looks. -/
theorem verdicts_fresh (s : Watch) (h : watching.Reached NotStale s) : s.Fresh := by
  refine h.invariant ?_ ?_
  · rintro s ⟨-, hverdicts⟩
    rw [Watch.Fresh, hverdicts]
    exact List.forall_mem_nil _
  · intro s c s' hs hc hstep v hv
    cases hstep
    rcases List.mem_append.1 hv with hv | hv
    · exact hs v hv
    · rw [List.mem_singleton.1 hv]
      exact userActive_eq hc

/-- A watcher whose hook has the editor and the shell for ancestors. -/
def watch : Watch := ⟨.new [70, 50, 30, 2] 2000, []⟩

/-- The editor's window is polled twice, and between the two calls the editor has not changed. -/
theorem verdicts_fresh_twice :
    Watch.Fresh ⟨⟨[70, 50, 30, 2], 2000, desktop⟩, [(true, true), (true, true)]⟩ := by
  have h0 : watching.Reached NotStale watch := .init ⟨⟨_, _, rfl⟩, rfl⟩
  have h1 := h0.step (⟨some 100, 60, desktop⟩ : Call)
    ⟨⟨100, rfl, by decide⟩, (fun h => by cases h), fun h => by cases h⟩ rfl
  have h2 := h1.step (⟨some 100, 60, desktop⟩ : Call)
    ⟨⟨100, rfl, by decide⟩, fun _ => ⟨fun _ _ => rfl, fun _ _ => rfl⟩, fun h => by cases h⟩ rfl
  exact verdicts_fresh _ h2

/-- The editor's window is closed, and another application gets its PID. -/
def reused : Snapshot := fun pid => if pid = 60 then some ⟨30, "chrome.exe"⟩ else desktop pid

/-- The PID of the editor is given to another application, which is taken for the editor. -/
theorem not_verdicts_fresh : ¬ ∀ s, watching.Reached Recent s → s.Fresh := by
  intro h
  have h0 : watching.Reached Recent watch := .init ⟨⟨_, _, rfl⟩, rfl⟩
  have h1 := h0.step (⟨some 100, 60, desktop⟩ : Call) ⟨100, rfl, by decide⟩ rfl
  have h2 := h1.step (⟨some 100, 60, reused⟩ : Call) ⟨100, rfl, by decide⟩ rfl
  have hfresh := h _ h2 (true, false) (by decide)
  cases hfresh

end TelegramMcp.Hook
