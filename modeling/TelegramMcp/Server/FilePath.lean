import TelegramMcp.Lib.WinJoin
import TelegramMcp.Server.Error

/-!
# The path guard of the file tools

`resolveFilePath` rejects `..`, and with a configured root also absolute paths; anything else is
joined to the root. On Windows a path with a prefix or a root alone is not absolute, and joining it
leaves the root. So does joining a plain name to a root that is left open at its end, as `\\server`
is: the name becomes the share. `resolveFilePath_confined_iff` says exactly which pairs of a root
and a path are confined.
-/

namespace TelegramMcp.Server

open WinPath

/-- Validate a caller's path and resolve it against the configured root, if there is one, as
`resolve_file_path` of main.rs does. -/
def resolveFilePath (path : String) (fileRoot : Option String) : Except McpError Path :=
  let parsed := Path.parse path
  if parsed.components.any (· = .parentDir) then
    .error (.invalidParams ("path must not contain '..': " ++ path))
  else
    match fileRoot with
    | none => .ok parsed
    | some root =>
      if parsed.isAbsolute then
        .error (.invalidParams ("access.file_root is configured; file paths must be " ++
          "relative to it, got absolute path: " ++ path))
      else .ok (Path.join root path)

/-- The guard lets a path through exactly when it has no `..` and is not absolute, and returns it
joined to the root. -/
theorem resolveFilePath_eq_ok_iff {path root : String} {p : Path} :
    resolveFilePath path (some root) = .ok p ↔
      .parentDir ∉ (Path.parse path).components ∧ (Path.parse path).isAbsolute = false ∧
        p = Path.join root path := by
  unfold resolveFilePath
  dsimp only
  split
  · next hany =>
    refine iff_of_false nofun fun h => h.1 ?_
    simpa using hany
  · next hany =>
    have hno : .parentDir ∉ (Path.parse path).components := by simpa using hany
    split
    · next habs => exact iff_of_false nofun fun h => absurd h.2.1 (by simp [habs])
    · next habs =>
      rw [Except.ok.injEq, eq_comm]
      exact ⟨fun h => ⟨hno, by simpa using habs, h⟩, fun h => h.2.2⟩

/-- When the guard confines: the path is rejected, or it has neither a prefix nor a root and does
not alter the root (which it can only where the root is left open at its end), or it spells out the
root's own names behind a root (and the root is no verbatim server without a share, whose share the
names would become), or it has a prefix and spells out the root's own components. -/
def Confined (root path : String) : Prop :=
  .parentDir ∈ (Path.parse path).components ∨ (Path.parse path).isAbsolute ∨
  ((Path.parse path).pfx = none ∧ (Path.parse path).physicalRoot = false ∧
    Path.alters root.toList path.toList = false) ∨
  ((Path.parse path).pfx = none ∧ (Path.parse path).physicalRoot = true ∧
    (Path.parse root).start = [.rootDir] ∧
      (Path.parse root).bodyComponents <+: (Path.parse path).bodyComponents ∧
        ¬ ((Path.parse root).pfx.any Prefix.lacksShare ∧
          (Path.parse path).bodyComponents ≠ [])) ∨
  ((Path.parse path).pfx.isSome ∧ (Path.parse root).components ≠ [] ∧
    (Path.parse root).components <+: (Path.parse path).components)

/-- Whatever the guard lets through is inside the root exactly when the path is one of those, for
every root and every path. The three kinds of relative path are joined in three ways, and each has
its own rule. -/
theorem resolveFilePath_confined_iff (root path : String) :
    (∀ p, resolveFilePath path (some root) = .ok p → (Path.parse root).Inside p) ↔
      Confined root path := by
  simp only [resolveFilePath_eq_ok_iff, Confined]
  by_cases hno : .parentDir ∈ (Path.parse path).components
  · simp [hno]
  cases habs : (Path.parse path).isAbsolute with
  | true => simp
  | false =>
    have hres : (∀ p, .parentDir ∉ (Path.parse path).components ∧ false = false ∧
        p = Path.join root path → (Path.parse root).Inside p) ↔
        (Path.parse root).Inside (Path.join root path) :=
      ⟨fun h => h _ ⟨hno, rfl, rfl⟩, by rintro h p ⟨-, -, rfl⟩; exact h⟩
    rw [hres]
    cases hpfx : (Path.parse path).pfx with
    | some pre =>
      have hsome : (Path.parse path).pfx.isSome := by rw [hpfx]; rfl
      refine Iff.trans (b := (Path.parse root).components ≠ [] ∧
        (Path.parse root).components <+: (Path.parse path).components)
        (Path.inside_join_prefixed_iff hsome habs hno) ?_
      simp [hno]
    | none =>
      cases hroot : (Path.parse path).physicalRoot with
      | true =>
        refine Iff.trans (b := (Path.parse root).start = [.rootDir] ∧
          (Path.parse root).bodyComponents <+: (Path.parse path).bodyComponents ∧
            ¬ ((Path.parse root).pfx.any Prefix.lacksShare ∧
              (Path.parse path).bodyComponents ≠ []))
          (Path.inside_join_rooted_iff hpfx hroot hno) ?_
        simp [hno]
      | false =>
        refine (Path.inside_join_relative_iff hpfx hroot hno).trans ?_
        simp [hno]

/-- A name behind a server alone is its share, one behind the device namespace is a device, and one
behind a verbatim server is its share again. -/
example : Path.alters "\\\\server".toList "share\\x".toList ∧
    Path.alters "\\\\.".toList "PhysicalDrive0".toList ∧
    Path.alters "\\\\?\\UNC\\server\\".toList "x".toList ∧
    ¬ Path.alters "\\\\server\\share".toList "x".toList := by decide +kernel

/-- A drive-relative path: it has a prefix but no root, so the guard takes it for relative, and the
join leaves the root for the current directory of the other drive. -/
theorem resolveFilePath_escapes :
    ¬ ∀ root path p, resolveFilePath path (some root) = .ok p → (Path.parse root).Inside p := by
  intro h
  have hin := h "D:\\files" "C:secret.txt" (Path.parse "C:secret.txt") (by rfl)
  obtain ⟨tail, ht, -⟩ := hin
  have hpath : (Path.parse "C:secret.txt").components =
      [.ofPrefix (.disk 'C'), .normal "secret.txt"] := by decide
  have hroot : (Path.parse "D:\\files").components =
      [.ofPrefix (.disk 'D'), .rootDir, .normal "files"] := by decide
  rw [hpath, hroot] at ht
  cases ht

end TelegramMcp.Server
