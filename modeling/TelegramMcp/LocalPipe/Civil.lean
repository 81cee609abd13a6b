import TelegramMcp.Lib.Arith
import TelegramMcp.Lib.Gregorian
import TelegramMcp.Lib.Rust

/-!
# Timestamps of the discovery file

`epochToCivil` is the civil time of a number of seconds since 1970, in any build. It counts days
from 1 March of the year 0, in eras of 400 years, and takes the year of the era out of its days by
how often leap days are inserted and left out. `epochToCivil_epochSecs` goes through it for a given
`DateTime`, whose fields come out again. Every number of seconds is that of exactly one, so the
function is the inverse of the count (`epochToCivil_inverse`).
-/

namespace TelegramMcp.LocalPipe

open Rust Gregorian

/-- `epoch_to_civil`, in a build of either kind: the days since the epoch are put into eras of 400
years that begin in March, and the remainders are the year, the month and the day. -/
def epochToCivil {μ : Type → Type} [Monad μ] (B : Build μ) (secs : Int) :
    μ (Int × Int × Int × Int × Int × Int) := do
  -- the divisors are positive literals, so a quotient or a remainder always fits
  let days := secs / 86400
  let secsOfDay := secs % 86400
  let hour ← B.cast .u32 (secsOfDay.tdiv 3600)
  let min ← B.cast .u32 ((secsOfDay.tmod 3600).tdiv 60)
  let sec ← B.cast .u32 (secsOfDay.tmod 60)
  let z ← B.op .i64 (days + 719468)
  let era := (← (if 0 ≤ z then pure z else B.op .i64 (z - 146096) : μ Int)).tdiv 146097
  let doe ← B.cast .u64 (← B.op .i64 (z - (← B.op .i64 (era * 146097))))
  let yoe := (← B.op .u64 ((← B.op .u64 ((← B.op .u64 (doe - doe / 1460)) + doe / 36524)) -
    doe / 146096)) / 365
  let y ← B.op .i64 ((← B.cast .i64 yoe) + (← B.op .i64 (era * 400)))
  let doy ← B.op .u64 (doe - (← B.op .u64 ((← B.op .u64 ((← B.op .u64 (365 * yoe)) + yoe / 4)) -
    yoe / 100)))
  let mp := (← B.op .u64 ((← B.op .u64 (5 * doy)) + 2)) / 153
  let d ← B.cast .u32 (← B.op .u64 ((← B.op .u64 (doy -
    (← B.op .u64 ((← B.op .u64 (153 * mp)) + 2)) / 5)) + 1))
  let m ← B.cast .u32 (← (if mp < 10 then B.op .u64 (mp + 3) else B.op .u64 (mp - 9) : μ Int))
  let y ← B.cast .i32 (← B.op .i64 (y + if m ≤ 2 then 1 else 0))
  return (y, m, d, hour, min, sec)

/-! ## The steps of the algorithm, on the days of a date -/

/-- Division towards zero, of a dividend that is moved down if it is negative, is rounded down. -/
theorem tdiv_era (z : Int) : (if 0 ≤ z then z else z - 146096).tdiv 146097 = z / 146097 := by
  split
  · next h => exact Int.tdiv_eq_ediv_of_nonneg h
  · next h =>
    have hneg : z - 146096 = -(146096 - z) := by omega
    rw [hneg, Int.neg_tdiv, Int.tdiv_eq_ediv_of_nonneg (by omega)]
    omega

/-- The days of an era before its year `n`, which starts in March. -/
def eraDays (n : Int) : Int := 365 * n + n / 4 - n / 100

/-- The year of the era, out of a day of it. -/
theorem yoe_eq {n doe doy : Int} (hn : 0 ≤ n) (hn' : n < 400) (h : 0 ≤ doy)
    (hlt : doy < if IsLeap (n + 1) then 366 else 365) (hdoe : doe = eraDays n + doy) :
    (doe - doe / 1460 + doe / 36524 - doe / 146096) / 365 = n := by
  rw [eraDays] at hdoe
  rcases Int.lt_or_le doy 365 with h365 | h365
  · have h36524 : doe / 36524 = n / 100 := by omega
    have h146096 : doe / 146096 = 0 := by omega
    have h1460 : doe / 1460 = n / 4 ∨ doe / 1460 = n / 4 + 1 ∧ 0 < doy := by omega
    omega
  · -- the leap day, which may be the last of the era
    split at hlt
    · next hleap =>
      obtain ⟨h4, h100⟩ := hleap
      obtain rfl : doy = 365 := by omega
      rcases eq_or_ne n 399 with rfl | hne
      · subst hdoe
        rfl
      · have hcentury : (n + 1) / 100 = n / 100 := by omega
        have h36524 : doe / 36524 = n / 100 := by omega
        have h146096 : doe / 146096 = 0 := by omega
        have h1460 : doe / 1460 = n / 4 + 1 := by omega
        omega
    · omega

/-- Leap years repeat every 400 years. -/
theorem isLeap_emod (y : Int) : IsLeap (y % 400 + 1) ↔ IsLeap (y + 1) := by
  rw [IsLeap, IsLeap]
  omega

section
variable (t : Date)

/-- The day of the era of 400 years, from the year and its day that both begin in March. -/
def dayOfEra : Int := eraDays (t.marchYear % 400) + t.marchDay

/-- A day of the year from March has a number below 367. -/
theorem marchDay_bounds : 0 ≤ t.marchDay ∧ t.marchDay < 367 := by
  have hmonth := t.marchMonth_mem
  have hday := t.marchDay_mem
  omega

/-- A day of an era has a number below 146097. -/
theorem dayOfEra_bounds : 0 ≤ dayOfEra t ∧ dayOfEra t < 146097 := by
  have hday := marchDay_bounds t
  have hlt := t.marchDay_lt
  rw [daysBeforeMarch, daysBeforeMarch] at hlt
  rw [dayOfEra, eraDays]
  omega

/-- The count of a date is made of its era and of the day of the era. -/
theorem count_era :
    t.count + 719468 = t.marchYear / 400 * 146097 + dayOfEra t := by
  rw [t.count_eq, daysBeforeMarch, dayOfEra, eraDays]
  omega

/-- The year of the era, out of its day: the corrections are the leap days before it. -/
theorem yearOfEra_eq :
    (dayOfEra t - dayOfEra t / 1460 + dayOfEra t / 36524 - dayOfEra t / 146096) / 365 =
      t.marchYear % 400 := by
  refine yoe_eq (by omega) (by omega) (marchDay_bounds t).1 ?_ rfl
  have hlt := t.marchDay_lt
  rw [daysBeforeMarch_succ] at hlt
  simp only [isLeap_emod]
  omega

/-- The day of the year, out of the day of the era and the year. -/
theorem dayOfYear_eq : dayOfEra t - (365 * (t.marchYear % 400) + t.marchYear % 400 / 4 -
    t.marchYear % 400 / 100) = t.marchDay := add_sub_cancel_left _ _

/-- The month, out of the day of the year that begins in March. -/
theorem monthOfYear_eq : (5 * t.marchDay + 2) / 153 = t.marchMonth := by
  have hday := t.marchDay_mem
  omega

/-- The day of the month, out of the day of the year and the month. -/
theorem day_eq : t.marchDay - (153 * t.marchMonth + 2) / 5 + 1 = t.day := by
  rw [Date.marchDay]
  omega

/-- The month of the calendar, which counts from January. -/
theorem month_eq :
    (if t.marchMonth < 10 then t.marchMonth + 3 else t.marchMonth - 9) = t.month := by
  have hpos := t.month_pos
  have hle := t.month_le
  rw [Date.marchMonth]
  split_ifs <;> omega

/-- The year of the calendar: January and February are of the next one. -/
theorem year_eq : (t.marchYear + if t.month ≤ 2 then 1 else 0) = t.year := by
  rw [Date.marchYear]
  split <;> omega

end

/-! ## A civil time comes out again -/

section
variable (t : DateTime)

/-- The seconds since the epoch are the days, and the seconds of the day. -/
theorem epochSecs_divMod :
    t.epochSecs / 86400 = t.toDate.count ∧ t.epochSecs % 86400 = t.secsOfDay := by
  have hmem := t.secsOfDay_mem
  rw [DateTime.epochSecs]
  omega

/-- The seconds of the day are divided into hours, minutes and seconds. -/
theorem secsOfDay_divMod :
    t.secsOfDay.tdiv 3600 = t.hour ∧ (t.secsOfDay.tmod 3600).tdiv 60 = t.min ∧
      t.secsOfDay.tmod 60 = t.sec := by
  have hmem := t.secsOfDay_mem.1
  have hmin := t.min_nonneg
  have hmin' := t.min_lt
  have hsec := t.sec_nonneg
  have hsec' := t.sec_lt
  rw [Int.tdiv_eq_ediv_of_nonneg hmem, Int.tmod_eq_emod_of_nonneg hmem,
    Int.tmod_eq_emod_of_nonneg hmem, Int.tdiv_eq_ediv_of_nonneg (by omega), DateTime.secsOfDay]
  omega

end

section
variable {μ : Type → Type} [Monad μ] [LawfulMonad μ] {B : Build μ}

/-- The whole function, a step of it after the other. Its intermediate results are small, but for
those that have the era. -/
theorem epochToCivil_epochSecs (hB : B.Exact) (t : DateTime) (hyear : IntTy.i32.Fits t.year) :
    epochToCivil B t.epochSecs = pure (t.year, t.month, t.day, t.hour, t.min, t.sec) := by
  have small {ty : IntTy} {n : Int} (h0 : 0 ≤ n) (h : n < 1000000) : ty.Fits n :=
    IntTy.fits_of_lt ty h0 (by omega)
  have hi32 := IntTy.fits_i32.1 hyear
  obtain ⟨hdays, hsecs⟩ := epochSecs_divMod t
  obtain ⟨hhour, hmin, hsec⟩ := secsOfDay_divMod t
  have hh := t.hour_lt
  have hm := t.min_lt
  have hs := t.sec_lt
  rw [epochToCivil]
  dsimp only
  rw [hdays, hsecs, hhour, hmin, hsec, hB.cast_bind _ (small t.hour_nonneg (by omega)),
    hB.cast_bind _ (small t.min_nonneg (by omega)), hB.cast_bind _ (small t.sec_nonneg (by omega))]
  -- the era, and the day of the era
  have hyearEq := year_eq t.toDate
  have hera : t.year - 1 ≤ t.marchYear ∧ t.marchYear ≤ t.year := by
    rw [← hyearEq]
    split <;> omega
  obtain ⟨hdoe, hdoe'⟩ := dayOfEra_bounds t.toDate
  have hdiv : (t.marchYear / 400 * 146097 + dayOfEra t.toDate) / 146097 = t.marchYear / 400 := by
    omega
  rw [count_era, hB.op_bind _ (IntTy.fits_i64.2 (by omega))]
  have hif (z : Int) (hz : IntTy.i64.Fits (z - 146096)) :
      (if 0 ≤ z then pure z else B.op .i64 (z - 146096)) =
        pure (if 0 ≤ z then z else z - 146096) := by
    rw [hB.op hz, apply_ite pure]
  rw [hif _ (IntTy.fits_i64.2 (by omega)), pure_bind, tdiv_era, hdiv,
    hB.op_bind _ (IntTy.fits_i64.2 (by omega)), add_sub_cancel_left,
    hB.op_bind _ (small hdoe (by omega)), hB.cast_bind _ (small hdoe (by omega))]
  -- the year, and the day of the year
  have hyoe := yearOfEra_eq t.toDate
  obtain ⟨hdoy, hdoy'⟩ := marchDay_bounds t.toDate
  rw [hB.op_bind _ (small (by omega) (by omega)), hB.op_bind _ (small (by omega) (by omega)),
    hB.op_bind _ (small (by omega) (by omega)), hyoe,
    hB.cast_bind _ (small (by omega) (by omega)), hB.op_bind _ (IntTy.fits_i64.2 (by omega)),
    hB.op_bind _ (IntTy.fits_i64.2 (by omega)), Int.emod_add_ediv_mul]
  rw [hB.op_bind _ (small (by omega) (by omega)), hB.op_bind _ (small (by omega) (by omega)),
    hB.op_bind _ (small (by omega) (by omega)), dayOfYear_eq,
    hB.op_bind _ (small (by omega) (by omega))]
  -- the month, and the day of the month
  obtain ⟨hM, hM'⟩ := t.marchMonth_mem
  have hday := t.marchDay_mem
  rw [hB.op_bind _ (small (by omega) (by omega)), hB.op_bind _ (small (by omega) (by omega)),
    monthOfYear_eq, hB.op_bind _ (small (by omega) (by omega)),
    hB.op_bind _ (small (by omega) (by omega)), hB.op_bind _ (small (by omega) (by omega)),
    hB.op_bind _ (small (by omega) (by omega)), hB.cast_bind _ (small (by omega) (by omega)),
    day_eq]
  have hmonth : (if t.marchMonth < 10 then B.op .u64 (t.marchMonth + 3)
      else B.op .u64 (t.marchMonth - 9)) = pure t.month := by
    rw [← month_eq, apply_ite pure]
    split
    · exact hB.op (small (by omega) (by omega))
    · exact hB.op (small (by omega) (by omega))
  have hpos := t.month_pos
  have hle := t.month_le
  rw [hmonth, pure_bind, hB.cast_bind _ (small (by omega) (by omega)), hyearEq,
    hB.op_bind _ (IntTy.fits_i64.2 (by omega)), hB.cast_bind _ hyear]

end

/-- Every `i64` is the seconds of one civil time. When its year is an `i32`, the function returns
that time, in every build, and nothing overflows or is lost in a cast on the way. -/
theorem epochToCivil_inverse (secs : I64) :
    ∃ t : DateTime, t.epochSecs = secs.val ∧ (∀ t' : DateTime, t'.epochSecs = secs.val → t' = t) ∧
      (IntTy.i32.Fits t.year →
        epochToCivil Build.lossless secs.val =
          some (t.year, t.month, t.day, t.hour, t.min, t.sec) ∧
        epochToCivil Build.debug secs.val = some (t.year, t.month, t.day, t.hour, t.min, t.sec) ∧
        epochToCivil Build.release secs.val =
          pure (t.year, t.month, t.day, t.hour, t.min, t.sec)) := by
  obtain ⟨t, ht⟩ := DateTime.epochSecs_surjective secs.val
  refine ⟨t, ht, fun t' ht' => DateTime.epochSecs_injective (ht'.trans ht.symm), ?_⟩
  intro hyear
  rw [← ht]
  exact ⟨epochToCivil_epochSecs Build.exact_lossless t hyear,
    epochToCivil_epochSecs Build.exact_debug t hyear,
    epochToCivil_epochSecs Build.exact_release t hyear⟩

example : epochToCivil Build.lossless 1582934400 = some (2020, 2, 29, 0, 0, 0) := by decide

end TelegramMcp.LocalPipe
