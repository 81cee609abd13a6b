import Mathlib

/-!
# The proleptic Gregorian calendar

A `Date` is a year, one of its months and one of the month's days, by the Gregorian rule for leap
years in every year, before 1582 and before the year 1 too. `daysFromCivil` counts the days from
1970-01-01 to a date: the days of the years and of the months between, as sums that are negative to
the past. Years and months follow one another without gaps, so a date is known from its count
(`Date.ext_daysFromCivil`). `daysFromCivil_eq` is the count in closed form, with years that start in
March, where the leap day is the last.
-/

/-! ## Consecutive units -/

/-- The sum of `f` from `a` up to `b`, and minus that from `b` up to `a` when `b` is before `a`. -/
def sumFrom (f : Int → Int) (a b : Int) : Int :=
  ∑ k ∈ Finset.range (b - a).toNat, f (a + k) - ∑ k ∈ Finset.range (a - b).toNat, f (b + k)

section
variable {f : Int → Int} {a b : Int}

/-- A sum over no terms is 0. -/
@[simp] theorem sumFrom_self (f : Int → Int) (a : Int) : sumFrom f a a = 0 := Int.sub_self _

/-- A sum over one more term is the sum and this term. -/
theorem sumFrom_succ (f : Int → Int) (a b : Int) : sumFrom f a (b + 1) = sumFrom f a b + f b := by
  rw [sumFrom, sumFrom]
  rcases Int.lt_or_le b a with hlt | hle
  · have hlen : (a - b).toNat = (a - (b + 1)).toNat + 1 := by omega
    have hshift (k : Nat) : f (b + ↑(k + 1)) = f (b + 1 + k) := by
      rw [Nat.cast_succ, Int.add_right_comm, Int.add_assoc]
    rw [show (b - a).toNat = 0 by omega, show (b + 1 - a).toNat = 0 by omega, hlen,
      Finset.sum_range_succ']
    simp only [hshift, Nat.cast_zero, Int.add_zero]
    omega
  · have hlen : (b + 1 - a).toNat = (b - a).toNat + 1 := by omega
    have hlast : a + ((b - a).toNat : Int) = b := by omega
    rw [show (a - b).toNat = 0 by omega, show (a - (b + 1)).toNat = 0 by omega, hlen,
      Finset.sum_range_succ, hlast]
    simp only [Finset.range_zero, Finset.sum_empty]
    omega

/-- A sum is what starts at 0 and goes up by `f`. -/
theorem eq_sumFrom {g : Int → Int} (h0 : g a = 0) (hsucc : ∀ k, g (k + 1) = g k + f k) (b : Int) :
    sumFrom f a b = g b := by
  induction b using Int.inductionOn' (b := a) with
  | zero => rw [sumFrom_self, h0]
  | succ k _ ih => rw [sumFrom_succ, hsucc, ih]
  | pred k _ ih =>
    have hf := sumFrom_succ f a (k - 1)
    have hg := hsucc (k - 1)
    rw [Int.sub_add_cancel] at hf hg
    omega

/-- Units that are not empty start one after the other. -/
theorem strictMono_sumFrom (hf : ∀ k, 0 < f k) (a : Int) : StrictMono (sumFrom f a) := by
  refine strictMono_int_of_lt_succ ?_
  intro k
  rw [sumFrom_succ]
  exact Int.lt_add_of_pos_right _ (hf k)

/-- A function on integers that increases does so by one at each step at least. -/
theorem StrictMono.sub_le_sub {g : Int → Int} (hg : StrictMono g) (h : a ≤ b) :
    b - a ≤ g b - g a := by
  induction b, h using Int.leInduction with
  | base => omega
  | succ k _ ih =>
    have hlt := hg (Int.lt_succ k)
    omega

/-- Each number is in exactly one of the units that start at increasing numbers. -/
theorem StrictMono.existsUnique_unit {g : Int → Int} (hg : StrictMono g) (n : Int) :
    ∃! k, g k ≤ n ∧ n < g (k + 1) := by
  have hbdd : ∀ k, g k ≤ n → k ≤ max 0 (n - g 0) := by
    intro k hk
    rcases Int.le_total k 0 with hneg | hpos
    · exact hneg.trans (le_max_left _ _)
    · have hle := hg.sub_le_sub hpos
      omega
  have hex : g (min 0 (n - g 0)) ≤ n := by
    have hle := hg.sub_le_sub (Int.min_le_left 0 (n - g 0))
    omega
  obtain ⟨k, hk, hmax⟩ := Int.exists_greatest_of_bdd ⟨_, hbdd⟩ ⟨_, hex⟩
  refine ⟨k, ⟨hk, ?_⟩, ?_⟩
  · by_contra hle
    have hlt := hmax _ (not_lt.1 hle)
    omega
  · rintro j ⟨hj, hj'⟩
    have hjk := hmax j hj
    have hkj := hg.lt_iff_lt.1 (hk.trans_lt hj')
    omega

end

namespace Gregorian

/-- A leap year: every fourth, but of the centuries only every fourth. -/
def IsLeap (y : Int) : Prop := 4 ∣ y ∧ (¬ 100 ∣ y ∨ 400 ∣ y)

instance : DecidablePred IsLeap := fun _ => inferInstanceAs (Decidable (_ ∧ _))

/-- The days of a month, by the rule of the calendar. -/
def daysInMonth (y m : Int) : Int :=
  if m = 2 then if IsLeap y then 29 else 28
  else if m = 4 ∨ m = 6 ∨ m = 9 ∨ m = 11 then 30
  else 31

/-- The days before a month of the year, as a sum over the months before it. -/
def daysBeforeMonth (y m : Int) : Int := sumFrom (daysInMonth y) 1 m

/-- The days of a year: those of its twelve months. -/
def daysInYear (y : Int) : Int := daysBeforeMonth y 13

/-- The days from 1970-01-01 to a date, as sums over the years and the months before it. -/
def daysFromCivil (y m d : Int) : Int := sumFrom daysInYear 1970 y + daysBeforeMonth y m + (d - 1)

/-- A day of the calendar; one that does not exist cannot be built. -/
@[ext] structure Date where
  year : Int
  month : Int
  day : Int
  month_pos : 1 ≤ month
  month_le : month ≤ 12
  day_pos : 1 ≤ day
  day_le : day ≤ daysInMonth year month

/-- The number of the date, counted from 1970-01-01. -/
def Date.count (t : Date) : Int := daysFromCivil t.year t.month t.day

/-! ## The date of a count -/

/-- No month is without days. -/
theorem daysInMonth_pos (y m : Int) : 0 < daysInMonth y m := by
  rw [daysInMonth]
  split
  · split <;> omega
  · split <;> omega

/-- A later month of the year has more days before it. -/
theorem strictMono_daysBeforeMonth (y : Int) : StrictMono (daysBeforeMonth y) :=
  strictMono_sumFrom (daysInMonth_pos y) 1

/-- No year is without days. -/
theorem daysInYear_pos (y : Int) : 0 < daysInYear y := by
  have h := strictMono_daysBeforeMonth y (show (1 : Int) < 13 by decide)
  rwa [daysBeforeMonth, sumFrom_self] at h

namespace Date

variable (t : Date)

/-- A day of a month comes before the next month begins. -/
theorem day_lt : daysBeforeMonth t.year t.month + (t.day - 1) <
    daysBeforeMonth t.year (t.month + 1) := by
  have hle := t.day_le
  rw [daysBeforeMonth, daysBeforeMonth, sumFrom_succ]
  omega

/-- The day of the year is at least 0 and less than the days of the year. -/
theorem dayOfYear_mem : 0 ≤ daysBeforeMonth t.year t.month + (t.day - 1) ∧
    daysBeforeMonth t.year t.month + (t.day - 1) < daysInYear t.year := by
  have hmono := (strictMono_daysBeforeMonth t.year).monotone
  have hfirst := hmono t.month_pos
  have hlast := hmono (show t.month + 1 ≤ 13 by have := t.month_le; omega)
  have hday := t.day_pos
  have hlt := t.day_lt
  rw [daysBeforeMonth, sumFrom_self] at hfirst
  rw [daysInYear]
  omega

/-- The count of a date lies in its year. -/
theorem year_mem : sumFrom daysInYear 1970 t.year ≤ t.count ∧
    t.count < sumFrom daysInYear 1970 (t.year + 1) := by
  obtain ⟨hlo, hhi⟩ := t.dayOfYear_mem
  rw [sumFrom_succ, count, daysFromCivil]
  omega

/-- Dates with the same count are the same: first the year is, then the month and the day. -/
theorem count_injective : Function.Injective count := by
  intro t t' h
  have hyear : t.year = t'.year := by
    have hunit := (strictMono_sumFrom daysInYear_pos 1970).existsUnique_unit t.count
    exact hunit.unique t.year_mem (h ▸ t'.year_mem)
  have hday : daysBeforeMonth t.year t.month + (t.day - 1) =
      daysBeforeMonth t.year t'.month + (t'.day - 1) := by
    rw [count, count, daysFromCivil, daysFromCivil, ← hyear] at h
    omega
  have hmonth : t.month = t'.month := by
    have hunit := (strictMono_daysBeforeMonth t.year).existsUnique_unit
      (daysBeforeMonth t.year t.month + (t.day - 1))
    have hpos := t.day_pos
    have hpos' := t'.day_pos
    refine hunit.unique ⟨by omega, t.day_lt⟩ ⟨by omega, ?_⟩
    rw [hday, hyear]
    exact t'.day_lt
  rw [hmonth] at hday
  exact Date.ext hyear hmonth (by omega)

/-- Every number of days is the count of a date: of its year, its month and its day. -/
theorem count_surjective : Function.Surjective count := by
  intro n
  obtain ⟨y, ⟨hy, hy'⟩, -⟩ := (strictMono_sumFrom daysInYear_pos 1970).existsUnique_unit n
  have hmono := strictMono_daysBeforeMonth y
  obtain ⟨m, ⟨hm, hm'⟩, -⟩ := hmono.existsUnique_unit (n - sumFrom daysInYear 1970 y)
  have hfirst : daysBeforeMonth y 1 < daysBeforeMonth y (m + 1) := by
    rw [daysBeforeMonth, sumFrom_self]
    omega
  have hlast : daysBeforeMonth y m < daysBeforeMonth y 13 := by
    rw [sumFrom_succ, daysInYear] at hy'
    omega
  have hm1 := hmono.lt_iff_lt.1 hfirst
  have hm13 := hmono.lt_iff_lt.1 hlast
  rw [daysBeforeMonth, sumFrom_succ, ← daysBeforeMonth] at hm'
  refine ⟨⟨y, m, n - sumFrom daysInYear 1970 y - daysBeforeMonth y m + 1, by omega, by omega,
    by omega, by omega⟩, ?_⟩
  dsimp only [count, daysFromCivil]
  omega

end Date

/-! ## Years that start in March -/

/-- The days from 1 March of the year 0 to 1 March of the year `y`. -/
def daysBeforeMarch (y : Int) : Int := 365 * y + y / 4 - y / 100 + y / 400

/-- The leap day of a year comes right before its March. -/
theorem daysBeforeMarch_succ (y : Int) : daysBeforeMarch (y + 1) =
    daysBeforeMarch y + if IsLeap (y + 1) then 366 else 365 := by
  rw [daysBeforeMarch, daysBeforeMarch]
  split
  · next h =>
    obtain ⟨h4, h100⟩ := h
    omega
  · next h =>
    rw [IsLeap, not_and_or, not_or, not_not] at h
    omega

/-- The days before a month in closed form, as the months from March on repeat with 153 days in
five. -/
theorem daysBeforeMonth_eq {y m : Int} (hm : 1 ≤ m) (hm' : m ≤ 13) :
    daysBeforeMonth y m = if m ≤ 2 then 31 * (m - 1)
      else (if IsLeap y then 60 else 59) + (153 * (m - 3) + 2) / 5 := by
  induction m, hm using Int.leInduction with
  | base => exact sumFrom_self _ _
  | succ k hk ih =>
    rw [daysBeforeMonth, sumFrom_succ, ← daysBeforeMonth, ih (by omega)]
    have hk12 : k ≤ 12 := by omega
    by_cases hleap : IsLeap y
    · simp only [daysInMonth, hleap, if_true]
      interval_cases k <;> rfl
    · simp only [daysInMonth, hleap, if_false]
      interval_cases k <;> rfl

/-- A year has 365 days, or 366 when it is a leap year. -/
theorem daysInYear_eq (y : Int) : daysInYear y = if IsLeap y then 366 else 365 := by
  rw [daysInYear, daysBeforeMonth_eq (by decide) (by decide), if_neg (by decide)]
  split
  · rfl
  · rfl

/-- The days from 1970 to the start of a year, by the days before its March. -/
theorem sumFrom_daysInYear (y : Int) :
    sumFrom daysInYear 1970 y = daysBeforeMarch (y - 1) - 719162 := by
  refine eq_sumFrom (g := fun y => daysBeforeMarch (y - 1) - 719162) rfl ?_ y
  intro k
  have h := daysBeforeMarch_succ (k - 1)
  rw [Int.sub_add_cancel] at h
  rw [daysInYear_eq, Int.add_sub_cancel, h]
  omega

namespace Date

variable (t : Date)

/-- The year that started in March: for January and February it is the one before. -/
def marchYear : Int := if t.month ≤ 2 then t.year - 1 else t.year

/-- The month of the year that started in March, which is 0. -/
def marchMonth : Int := if t.month ≤ 2 then t.month + 9 else t.month - 3

/-- The day of that year, from 0. The months have their lengths by the fraction. -/
def marchDay : Int := (153 * t.marchMonth + 2) / 5 + (t.day - 1)

/-- The count of a date in the year that begins in March: the days before that year, and the days in
it. -/
theorem count_eq : t.count = daysBeforeMarch t.marchYear + t.marchDay - 719468 := by
  have hpos := t.month_pos
  have hle := t.month_le
  have hsucc := daysBeforeMarch_succ (t.year - 1)
  rw [Int.sub_add_cancel] at hsucc
  rw [count, daysFromCivil, sumFrom_daysInYear, daysBeforeMonth_eq hpos (by omega), marchDay,
    marchMonth, marchYear]
  by_cases hm : t.month ≤ 2
  · simp only [if_pos hm]
    omega
  · simp only [if_neg hm, hsucc]
    split <;> omega

/-- Months counted from March are numbered from 0 to 11. -/
theorem marchMonth_mem : 0 ≤ t.marchMonth ∧ t.marchMonth ≤ 11 := by
  have hpos := t.month_pos
  have hle := t.month_le
  rw [marchMonth]
  split <;> omega

/-- A day is in its month also when the months are counted by the fraction with 153 days in five. -/
theorem marchDay_mem : (153 * t.marchMonth + 2) / 5 ≤ t.marchDay ∧
    t.marchDay < (153 * (t.marchMonth + 1) + 2) / 5 := by
  obtain ⟨y, m, d, hm, hm', hd, hd'⟩ := t
  dsimp only [marchDay, marchMonth]
  have hlast : daysInMonth y m ≤
      if m = 2 then 29 else if m = 4 ∨ m = 6 ∨ m = 9 ∨ m = 11 then 30 else 31 := by
    rw [daysInMonth]
    split_ifs <;> omega
  refine ⟨by omega, ?_⟩
  interval_cases m <;> omega

/-- A day is in its year also when the year begins in March. -/
theorem marchDay_lt :
    t.marchDay < daysBeforeMarch (t.marchYear + 1) - daysBeforeMarch t.marchYear := by
  have hmonth := t.marchDay_mem
  have hday := t.day_le
  rw [daysBeforeMarch_succ]
  by_cases hm : t.month = 2
  · rw [daysInMonth, if_pos hm] at hday
    rw [marchDay, marchMonth, marchYear, if_pos (by omega), if_pos (by omega), Int.sub_add_cancel,
      hm]
    split_ifs at hday ⊢ <;> omega
  · have hlt : t.marchMonth < 11 := by
      have hle := t.month_le
      rw [marchMonth]
      split <;> omega
    have h365 : (365 : Int) ≤ if IsLeap (t.marchYear + 1) then 366 else 365 := by
      split <;> decide
    omega

end Date

/-! ## Times of day -/

/-- A second of the calendar, without leap seconds. -/
@[ext] structure DateTime extends Date where
  hour : Int
  min : Int
  sec : Int
  hour_nonneg : 0 ≤ hour
  hour_lt : hour < 24
  min_nonneg : 0 ≤ min
  min_lt : min < 60
  sec_nonneg : 0 ≤ sec
  sec_lt : sec < 60

namespace DateTime

/-- The seconds since midnight. -/
def secsOfDay (t : DateTime) : Int := 3600 * t.hour + 60 * t.min + t.sec

/-- The seconds from 1970-01-01T00:00:00 on, negative before it. -/
def epochSecs (t : DateTime) : Int := t.toDate.count * 86400 + t.secsOfDay

/-- The seconds since midnight are fewer than those of a day. -/
theorem secsOfDay_mem (t : DateTime) : 0 ≤ t.secsOfDay ∧ t.secsOfDay < 86400 := by
  obtain ⟨_, hour, min, sec, h0, h24, m0, m60, s0, s60⟩ := t
  dsimp only [secsOfDay]
  omega

/-- Two times with the same count of seconds are the same. -/
theorem epochSecs_injective : Function.Injective epochSecs := by
  intro t t' h
  have hday : t.toDate.count = t'.toDate.count := by
    have hmem := t.secsOfDay_mem
    have hmem' := t'.secsOfDay_mem
    rw [epochSecs, epochSecs] at h
    omega
  have hsecs : t.secsOfDay = t'.secsOfDay := by
    rw [epochSecs, epochSecs, hday] at h
    exact Int.add_left_cancel h
  have hdate := Date.count_injective hday
  obtain ⟨d, hour, min, sec, h0, h24, m0, m60, s0, s60⟩ := t
  obtain ⟨d', hour', min', sec', h0', h24', m0', m60', s0', s60'⟩ := t'
  cases hdate
  dsimp only [secsOfDay] at hsecs
  obtain rfl : hour = hour' := by omega
  obtain rfl : min = min' := by omega
  obtain rfl : sec = sec' := by omega
  rfl

/-- Every count of seconds is that of a time, also before 1970. -/
theorem epochSecs_surjective : Function.Surjective epochSecs := by
  intro n
  obtain ⟨d, hd⟩ := Date.count_surjective (n / 86400)
  refine ⟨⟨d, n % 86400 / 3600, n % 3600 / 60, n % 60, by omega, by omega, by omega, by omega,
    by omega, by omega⟩, ?_⟩
  dsimp only [epochSecs, secsOfDay]
  rw [hd]
  omega

end DateTime

example : daysFromCivil 2020 2 29 = 18321 := by decide

end Gregorian
