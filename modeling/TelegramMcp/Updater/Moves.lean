import TelegramMcp.Updater.Polling

/-!
# The steps of the long-poll loop

`Moves` is the inversion of `step`, one constructor for each way on from a phase.
-/

namespace TelegramMcp.Updater

open Rust Txn History

/-- A step of the loop, by the phase it is in and by what it meets there; each case has its guard
and what it leaves. -/
inductive Moves [Fts5] (cfg : UpdaterConfig) : Input → Phase → Db → Phase → Db → Prop
  | kill (phase : Phase) (db : Db) : Moves cfg .kill phase db .starting db
  | start (flt : Schedule HistoryError) (db : Db) :
    Moves cfg (.store flt) .starting db (.polling (resumeOffset db) 1) db
  | stop (flt : Schedule HistoryError) (e : HistoryError) (db : Db) :
    Moves cfg (.store flt) .starting db (.stopped e) db
  | die (flt : Schedule HistoryError) (db : Db) : Moves cfg (.store flt) .starting db .starting db
  | deliver (us : List Json) (offset : I64) (backoff : Nat) (db : Db) :
    Moves cfg (.updates (.ok us)) (.polling offset backoff) db (.storing offset us none) db
  | fail (e : TgClientError) (offset : I64) (backoff : Nat) (db : Db) :
    Moves cfg (.updates (.error e)) (.polling offset backoff) db
      (.polling offset (nextBackoff e backoff)) db
  | skip {u : Json} (hst : cfg.storable u = none) (flt : Schedule HistoryError) (offset : I64)
    (rest : List Json) (m : Option I64) (db : Db) :
    Moves cfg (.store flt) (.storing offset (u :: rest) m) db
      (.storing offset rest (maxUpdate m u)) db
  | record {u : Json} {chat : ChatInfo} {msg : StoredMessage} {flt : Schedule HistoryError}
    {db : Db} (hst : cfg.storable u = some (chat, msg))
    (hlives : ((recordInbound chat msg).call flt db).1 ≠ .crashed) (offset : I64)
    (rest : List Json) (m : Option I64) :
    Moves cfg (.store flt) (.storing offset (u :: rest) m) db
      (.storing offset rest (maxUpdate m u)) ((recordInbound chat msg).call flt db).2
  | dieRecording {u : Json} {chat : ChatInfo} {msg : StoredMessage} {flt : Schedule HistoryError}
    {db : Db} (hst : cfg.storable u = some (chat, msg))
    (hdies : ((recordInbound chat msg).call flt db).1 = .crashed) (offset : I64)
    (rest : List Json) (m : Option I64) :
    Moves cfg (.store flt) (.storing offset (u :: rest) m) db .starting
      ((recordInbound chat msg).call flt db).2
  | idle (flt : Schedule HistoryError) (offset : I64) (db : Db) :
    Moves cfg (.store flt) (.storing offset [] none) db (.polling offset 1) db
  | acknowledge (flt : Schedule HistoryError) (offset m : I64) (db : Db) :
    Moves cfg (.store flt) (.storing offset [] (some m)) db
      (.polling (IntN.wrapping (m.val + 1)) 1)
      ((kvPut "update_offset" (IntN.wrapping (m.val + 1) : I64).toText).eval db).2
  | refuse (flt : Schedule HistoryError) (offset m : I64) (db : Db) :
    Moves cfg (.store flt) (.storing offset [] (some m)) db (.polling offset 1) db
  | dieAcknowledging (flt : Schedule HistoryError) (offset m : I64) {db db' : Db}
    (hdb : db' = db ∨
      db' = ((kvPut "update_offset" (IntN.wrapping (m.val + 1) : I64).toText).eval db).2) :
    Moves cfg (.store flt) (.storing offset [] (some m)) db .starting db'

section
variable {offset : I64} {rest : List Json} {m : Option I64} {r : Outcome HistoryError Unit × Db}

/-- A process that died in a record starts over. -/
theorem recorded_dies (h : r.1 = .crashed) : recorded offset rest m r = (.starting, r.2) := by
  obtain ⟨out, db⟩ := r
  obtain rfl : out = .crashed := h
  rfl

/-- One that did not goes on with the rest of the batch, also after an error. -/
theorem recorded_lives (h : r.1 ≠ .crashed) :
    recorded offset rest m r = (.storing offset rest m, r.2) := by
  obtain ⟨out, db⟩ := r
  cases out with
  | ok a | err e => rfl
  | crashed => exact absurd rfl h

end

section
variable [Fts5] {cfg : UpdaterConfig} {i : Input} {phase phase' : Phase} {db db' : Db}

/-- Every step of the loop is one of these moves, which is all that the proofs about runs use of
it. -/
theorem moves_of_step (hs : step cfg i (phase, db) = some (phase', db')) :
    Moves cfg i phase db phase' db' := by
  cases i with
  | kill =>
    cases hs
    exact .kill phase db
  | updates r =>
    cases phase with
    | polling offset backoff =>
      cases r with
      | ok us =>
        cases hs
        exact .deliver us offset backoff db
      | error e =>
        cases hs
        exact .fail e offset backoff db
    | starting | storing | stopped => cases r <;> cases hs
  | store flt =>
    cases phase with
    | polling | stopped => cases hs
    | starting =>
      cases hcall : (kvGet "update_offset").call flt db with
      | mk out db₁ =>
        obtain rfl := kvGet_call hcall
        rw [step, hcall] at hs
        cases out with
        | ok stored =>
          cases hs
          rw [show stored = ((kvGet "update_offset").eval db').1 by rw [Op.call_ok hcall]]
          exact .start flt db'
        | err e =>
          cases hs
          exact .stop flt e db'
        | crashed =>
          cases hs
          exact .die flt db'
    | storing offset rest m =>
      cases rest with
      | cons u rest =>
        rw [step] at hs
        cases hst : cfg.storable u with
        | none =>
          rw [hst] at hs
          cases hs
          exact .skip hst flt offset rest m db
        | some row =>
          obtain ⟨chat, msg⟩ := row
          rw [hst] at hs
          dsimp only at hs
          by_cases hdies : ((recordInbound chat msg).call flt db).1 = .crashed
          · rw [recorded_dies hdies] at hs
            cases hs
            exact .dieRecording hst hdies offset rest m
          · rw [recorded_lives hdies] at hs
            cases hs
            exact .record hst hdies offset rest m
      | nil =>
        cases m with
        | none =>
          cases hs
          exact .idle flt offset db
        | some m =>
          rw [step] at hs
          cases hcall :
              (kvPut "update_offset" (IntN.wrapping (m.val + 1) : I64).toText).call flt db with
          | mk out db₁ =>
            rw [hcall] at hs
            cases out with
            | ok a =>
              cases hs
              obtain rfl : (Op.eval _ db).2 = db' := congrArg Prod.snd (Op.call_ok hcall)
              exact .acknowledge flt offset m db
            | err e =>
              cases hs
              obtain rfl := kvPut_err hcall
              exact .refuse flt offset m db'
            | crashed =>
              cases hs
              exact .dieAcknowledging flt offset m ((Op.atomicAt_statement _ flt db).crashed hcall)

/-- What is left to store was left before, or is delivered now. -/
theorem Moves.pending (hm : Moves cfg i phase db phase' db') :
    phase'.pending ⊆ phase.pending ++ deliveredNow i phase := by
  cases hm with
  | deliver us => exact List.subset_append_right _ _
  | skip | record =>
    refine List.Subset.trans ?_ (List.subset_append_left _ _)
    exact List.subset_cons_self _ _
  | kill | start | stop | die | fail | dieRecording | idle | acknowledge | refuse
  | dieAcknowledging => exact List.nil_subset _

end

end TelegramMcp.Updater
