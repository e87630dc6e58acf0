import Mathlib.Tactic

/-!
# The Gregorian calendar

Days and seconds are counted from the start of 1970, backwards with negative
numbers.  A date carries that its month has its day.  The first part is about
units that follow one another with lengths of their own.
-/

namespace StoreCpp

namespace Calendar

/-- The unit in which a position lies, and how far behind its start. -/
def locate : List ℕ → ℕ → ℕ × ℕ
  | [], n => (0, n)
  | length :: lengths, n =>
      if n < length then (0, n)
      else ((locate lengths (n - length)).1 + 1,
        (locate lengths (n - length)).2)

theorem sum_take_locate (lengths : List ℕ) (n : ℕ) :
    (lengths.take (locate lengths n).1).sum + (locate lengths n).2 = n := by
  induction lengths generalizing n with
  | nil => simp [locate]
  | cons length lengths ih =>
      rw [locate]
      split_ifs with hlt
      · simp
      · rw [List.take_succ_cons, List.sum_cons, add_assoc, ih]
        omega

theorem locate_fst_lt {lengths : List ℕ} {n : ℕ} (hn : n < lengths.sum) :
    (locate lengths n).1 < lengths.length := by
  induction lengths generalizing n with
  | nil => simp at hn
  | cons length lengths ih =>
      rw [List.sum_cons] at hn
      rw [locate, List.length_cons]
      split_ifs with hlt
      · omega
      · have hrest := @ih (n - length) (by omega)
        omega

theorem locate_snd_lt {lengths : List ℕ} {n : ℕ} (hn : n < lengths.sum) :
    (locate lengths n).2 < lengths.getD (locate lengths n).1 0 := by
  induction lengths generalizing n with
  | nil => simp at hn
  | cons length lengths ih =>
      rw [List.sum_cons] at hn
      rw [locate]
      split_ifs with hlt
      · simpa using hlt
      · rw [List.getD_cons_succ]
        exact ih (by omega)

/-! ## Years -/

def IsLeap (year : ℤ) : Prop := 4 ∣ year ∧ (100 ∣ year → 400 ∣ year)

instance (year : ℤ) : Decidable (IsLeap year) :=
  inferInstanceAs (Decidable (_ ∧ _))

def monthLengths (year : ℤ) : List ℕ :=
  [31, if IsLeap year then 29 else 28, 31, 30, 31, 30, 31, 31, 30, 31, 30, 31]

/-- The first day of a year. -/
def yearStart (year : ℤ) : ℤ :=
  365 * year + (year - 1) / 4 - (year - 1) / 100 + (year - 1) / 400 - 719527

theorem yearStart_succ (year : ℤ) :
    yearStart (year + 1) = yearStart year + (monthLengths year).sum := by
  have hsum : (monthLengths year).sum = if IsLeap year then 366 else 365 := by
    unfold monthLengths
    split_ifs <;> rfl
  rw [hsum]
  unfold yearStart
  split_ifs with hleap
  · unfold IsLeap at hleap
    omega
  · unfold IsLeap at hleap
    omega

/-- The year of a day, from an estimate that is at most one year late. -/
def yearOf (days : ℤ) : ℤ :=
  let year := 400 * (days + 719164) / 146097 + 1
  if days < yearStart year then year - 1 else year

theorem yearStart_yearOf_le (days : ℤ) : yearStart (yearOf days) ≤ days := by
  unfold yearOf
  dsimp only
  split_ifs with hlate
  · unfold yearStart at *
    omega
  · exact not_lt.mp hlate

theorem lt_yearStart_yearOf_succ (days : ℤ) :
    days < yearStart (yearOf days + 1) := by
  unfold yearOf
  dsimp only
  split_ifs with hlate
  · rwa [sub_add_cancel]
  · unfold yearStart at *
    omega

/-! ## Dates -/

@[ext] structure Date where
  year : ℤ
  month : ℕ
  day : ℕ
  month_lt : month < 12
  day_pos : 0 < day
  day_le : day ≤ (monthLengths year).getD month 0

def dayOfYear (days : ℤ) : ℕ := (days - yearStart (yearOf days)).toNat

theorem dayOfYear_lt (days : ℤ) :
    dayOfYear days < (monthLengths (yearOf days)).sum := by
  have hle := yearStart_yearOf_le days
  have hlt := lt_yearStart_yearOf_succ days
  rw [yearStart_succ] at hlt
  unfold dayOfYear
  omega

def Date.ofDays (days : ℤ) : Date where
  year := yearOf days
  month := (locate (monthLengths (yearOf days)) (dayOfYear days)).1
  day := (locate (monthLengths (yearOf days)) (dayOfYear days)).2 + 1
  month_lt := locate_fst_lt (dayOfYear_lt days)
  day_pos := Nat.succ_pos _
  day_le := locate_snd_lt (dayOfYear_lt days)

def Date.days (date : Date) : ℤ :=
  yearStart date.year +
    (((monthLengths date.year).take date.month).sum + (date.day - 1) : ℕ)

/-- Every day has a date. -/
theorem Date.days_ofDays (days : ℤ) : (Date.ofDays days).days = days := by
  have hle := yearStart_yearOf_le days
  have hlocate :=
    sum_take_locate (monthLengths (yearOf days)) (dayOfYear days)
  unfold Date.days Date.ofDays
  dsimp only
  rw [Nat.add_sub_cancel, hlocate]
  unfold dayOfYear
  omega

example : ∃ date, date = Date.ofDays 19782 ∧
    (date.year, date.month + 1, date.day) = (2024, 2, 29) :=
  ⟨_, rfl, by decide +kernel⟩

theorem Date.day_lt (date : Date) : date.day < 100 := by
  have hlengths : ∀ month < 12, (monthLengths date.year).getD month 0 ≤ 31 := by
    intro month hmonth
    unfold monthLengths
    interval_cases month <;> simp
    split_ifs <;> omega
  have hle := hlengths date.month date.month_lt
  have hday := date.day_le
  omega

/-! ## Moments -/

/-- A date and the time of its day. -/
@[ext] structure Moment where
  date : Date
  hour : Fin 24
  minute : Fin 60
  second : Fin 60

def Moment.ofSeconds (seconds : ℤ) : Moment where
  date := Date.ofDays (seconds / 86400)
  hour := ⟨(seconds / 3600 % 24).toNat, by omega⟩
  minute := ⟨(seconds / 60 % 60).toNat, by omega⟩
  second := ⟨(seconds % 60).toNat, by omega⟩

def Moment.seconds (moment : Moment) : ℤ :=
  86400 * moment.date.days + 3600 * (moment.hour : ℕ) +
    60 * (moment.minute : ℕ) + (moment.second : ℕ)

/-- Every second has a moment. -/
theorem Moment.seconds_ofSeconds (seconds : ℤ) :
    (Moment.ofSeconds seconds).seconds = seconds := by
  unfold Moment.seconds Moment.ofSeconds
  dsimp only
  rw [Date.days_ofDays]
  omega

theorem Moment.ofSeconds_inj {first second : ℤ}
    (hsame : Moment.ofSeconds first = Moment.ofSeconds second) :
    first = second := by
  have hseconds := congrArg Moment.seconds hsame
  rwa [Moment.seconds_ofSeconds, Moment.seconds_ofSeconds] at hseconds

end Calendar

end StoreCpp
