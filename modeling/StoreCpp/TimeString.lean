import StoreCpp.Calendar
import StoreCpp.Extensions

/-!
# Timestamps as text

`getTimeString` takes the date and the time from its timestamp and the
milliseconds from the system clock.  The zone has a fixed offset, in seconds,
and `0.001 * timestamp` is an exact quotient.
-/

namespace StoreCpp

namespace TimeString

open Calendar
open Printf (decimal)

/-- The fields of `struct tm` that are read. -/
structure Tm where
  tmYear : ℤ
  tmMon : ℤ
  tmMday : ℤ
  tmHour : ℤ
  tmMin : ℤ
  tmSec : ℤ

def localtimeR (offset tt : ℤ) : Tm :=
  let moment := Moment.ofSeconds (tt + offset)
  { tmYear := moment.date.year - 1900
    tmMon := moment.date.month
    tmMday := moment.date.day
    tmHour := (moment.hour : ℕ)
    tmMin := (moment.minute : ℕ)
    tmSec := (moment.second : ℕ) }

/-- `std::setfill('0') << std::setw(width)`. -/
def setw (width : ℕ) (value : ℤ) : Str := (decimal value).leftpad width '0'

/-- `getTimeString`, when the clock counts `clock` milliseconds. -/
def getTimeString (offset clock timestamp : ℤ) (iso8601Fmt : Bool) : Str :=
  let tt := timestamp.tdiv 1000
  let localTime := localtimeR offset tt
  let milliseconds := clock.tmod 1000
  decimal (1900 + localTime.tmYear) ++ ['-'] ++
    setw 2 (localTime.tmMon + 1) ++ ['-'] ++
    setw 2 localTime.tmMday ++ [if iso8601Fmt then 'T' else ' '] ++
    setw 2 localTime.tmHour ++ [':'] ++
    setw 2 localTime.tmMin ++ [':'] ++
    setw 2 localTime.tmSec ++ ['.'] ++
    setw 3 milliseconds ++
    if iso8601Fmt then ['Z'] else []

/-- The fields behind the year, each with the character in front of it. -/
def fields (moment : Moment) (iso8601Fmt : Bool) : List (Char × Fin 100) := [
  ('-', ⟨moment.date.month + 1, by have := moment.date.month_lt; omega⟩),
  ('-', ⟨moment.date.day, moment.date.day_lt⟩),
  (if iso8601Fmt then 'T' else ' ', ⟨moment.hour, by omega⟩),
  (':', ⟨moment.minute, by omega⟩),
  (':', ⟨moment.second, by omega⟩)]

def fieldText (field : Char × Fin 100) : Str :=
  field.1 :: setw 2 (field.2 : ℕ)

/-- A moment and its milliseconds as text. -/
def momentText (moment : Moment) (milliseconds : ℤ) (iso8601Fmt : Bool) :
    Str :=
  decimal moment.date.year ++ (fields moment iso8601Fmt).flatMap fieldText ++
    '.' :: setw 3 milliseconds ++ if iso8601Fmt then ['Z'] else []

/-- The text of a timestamp. -/
def timeText (offset timestamp : ℤ) (iso8601Fmt : Bool) : Str :=
  momentText (Moment.ofSeconds (timestamp / 1000 + offset)) (timestamp % 1000)
    iso8601Fmt

structure Call where
  timestamp : ℤ
  clock : ℤ

def Call.text (offset : ℤ) (iso8601Fmt : Bool) (call : Call) : Str :=
  getTimeString offset call.clock call.timestamp iso8601Fmt

/-- A call returns the text of its timestamp. -/
def Call.TellsTimestamp (offset : ℤ) (iso8601Fmt : Bool) (call : Call) : Prop :=
  call.text offset iso8601Fmt = timeText offset call.timestamp iso8601Fmt

/-- Two calls return the texts of their timestamps, and these are the same
exactly when the timestamps are. -/
structure TellTimestamps (offset : ℤ) (iso8601Fmt : Bool)
    (one other : Call) : Prop where
  one_tells : one.TellsTimestamp offset iso8601Fmt
  other_tells : other.TellsTimestamp offset iso8601Fmt
  same_iff : one.text offset iso8601Fmt = other.text offset iso8601Fmt ↔
    one.timestamp = other.timestamp

/-- The clock stands at the milliseconds of the timestamp, and the quotient
loses no part of a second before 1970. -/
structure Call.Agrees (call : Call) : Prop where
  milliseconds : call.clock.tmod 1000 = call.timestamp % 1000
  quotient : 0 ≤ call.timestamp ∨ 1000 ∣ call.timestamp

/-! ## Printed numbers -/

theorem notMem_toDigits {c : Char} (hc : ¬ c.isDigit) (n : ℕ) :
    c ∉ Nat.toDigits 10 n := fun hmem =>
  hc (Nat.isDigit_of_mem_toDigits (by decide) (by decide) hmem)

theorem minus_mem_decimal_iff (value : ℤ) :
    '-' ∈ decimal value ↔ value < 0 := by
  have hdigits := @notMem_toDigits '-' (by decide) value.natAbs
  unfold decimal
  split_ifs with hneg
  · simp [hneg]
  · simp [hneg, hdigits]

theorem decimal_natCast (n : ℕ) : decimal n = Nat.toDigits 10 n := by
  unfold decimal
  rw [if_neg (by omega), List.nil_append, Int.natAbs_natCast]

theorem decimal_of_neg {value : ℤ} (hneg : value < 0) :
    decimal value = '-' :: Nat.toDigits 10 value.natAbs := by
  unfold decimal
  rw [if_pos hneg]
  rfl

theorem toDigits_inj {m n : ℕ} (hsame : Nat.toDigits 10 m = Nat.toDigits 10 n) :
    m = n := by
  have hread := congrArg (Nat.ofDigitChars 10 · 0) hsame
  simpa only [Nat.ofDigitChars_ten_toDigits] using hread

theorem decimal_inj {first second : ℤ}
    (hsame : decimal first = decimal second) : first = second := by
  have hsign : first < 0 ↔ second < 0 := by
    rw [← minus_mem_decimal_iff, hsame, minus_mem_decimal_iff]
  by_cases hneg : first < 0
  · rw [decimal_of_neg hneg, decimal_of_neg (hsign.mp hneg)] at hsame
    have hnat := toDigits_inj (List.cons.inj hsame).2
    omega
  · obtain ⟨m, rfl⟩ := Int.eq_ofNat_of_zero_le (not_lt.mp hneg)
    obtain ⟨n, rfl⟩ := Int.eq_ofNat_of_zero_le (not_lt.mp (hsign.not.mp hneg))
    rw [decimal_natCast, decimal_natCast] at hsame
    rw [toDigits_inj hsame]

theorem setw_eq (width : ℕ) (value : ℤ) :
    setw width value =
      List.replicate (width - (decimal value).length) '0' ++ decimal value :=
  rfl

theorem minus_mem_setw_iff (width : ℕ) (value : ℤ) :
    '-' ∈ setw width value ↔ value < 0 := by
  rw [setw_eq, List.mem_append, minus_mem_decimal_iff]
  simp [List.mem_replicate]

/-- The value is read back through the leading zeros. -/
theorem ofDigitChars_setw (width n : ℕ) :
    Nat.ofDigitChars 10 (setw width n) 0 = n := by
  rw [setw_eq, decimal_natCast, Nat.ofDigitChars_append,
    Nat.ofDigitChars_replicate_zero, mul_zero, Nat.ofDigitChars_ten_toDigits]

theorem setw_inj {width n : ℕ} {value : ℤ}
    (hsame : setw width value = setw width n) : value = n := by
  have hsign : ¬ value < 0 := by
    rw [← minus_mem_setw_iff width, hsame, minus_mem_setw_iff]
    omega
  obtain ⟨m, rfl⟩ := Int.eq_ofNat_of_zero_le (not_lt.mp hsign)
  have hread := congrArg (Nat.ofDigitChars 10 · 0) hsame
  simp only [ofDigitChars_setw] at hread
  rw [hread]

theorem length_setw {width n : ℕ} (hwidth : 0 < width)
    (hn : n < 10 ^ width) : (setw width n).length = width := by
  have hlength := (Nat.length_toDigits_le_iff (by decide) hwidth).mpr hn
  unfold setw
  rw [List.length_leftpad, decimal_natCast]
  exact max_eq_left hlength

theorem dot_notMem_setw (width : ℕ) (value : ℤ) : '.' ∉ setw width value := by
  have hdigits := @notMem_toDigits '.' (by decide) value.natAbs
  have hsign : '.' ∉ (if value < 0 then ['-'] else [] : Str) := by
    split_ifs <;> decide
  rw [setw_eq, List.mem_append, decimal, List.mem_append]
  simp [List.mem_replicate, hdigits, hsign]

/-! ## The texts -/

theorem fieldText_inj : Function.Injective fieldText := by
  intro first second hsame
  obtain ⟨hchar, htext⟩ := List.cons.inj hsame
  have hvalue : first.2 = second.2 := Fin.ext (by exact_mod_cast setw_inj htext)
  exact Prod.ext hchar hvalue

theorem length_fieldText (field : Char × Fin 100) :
    (fieldText field).length = 3 := by
  unfold fieldText
  rw [List.length_cons, length_setw two_pos field.2.isLt]

theorem fields_inj {iso8601Fmt : Bool} {first second : Moment}
    (hyear : first.date.year = second.date.year)
    (hsame : fields first iso8601Fmt = fields second iso8601Fmt) :
    first = second := by
  simp only [fields, List.cons.injEq, Prod.mk.injEq, Fin.mk.injEq, true_and,
    and_true, add_left_inj] at hsame
  obtain ⟨hmonth, hday, hhour, hminute, hsecond⟩ := hsame
  exact Moment.ext (Date.ext hyear hmonth hday) (Fin.ext hhour)
    (Fin.ext hminute) (Fin.ext hsecond)

/-- Behind the last separator nothing is shifted. -/
theorem append_cons_inj_of_notMem {α : Type*} {c : α}
    {front front' back back' : List α} (hback : c ∉ back) (hback' : c ∉ back')
    (hsame : front ++ c :: back = front' ++ c :: back') :
    front = front' ∧ back = back' := by
  cases List.append_eq_append_iff.mp hsame with
  | inl hlonger =>
      obtain ⟨more, rfl, hmore⟩ := hlonger
      cases more with
      | nil => simpa using hmore
      | cons head more =>
          have hmem := (List.cons.inj hmore).2
          exact absurd (by simp [hmem]) hback
  | inr hlonger =>
      obtain ⟨more, rfl, hmore⟩ := hlonger
      cases more with
      | nil => simpa using hmore.symm
      | cons head more =>
          have hmem := (List.cons.inj hmore).2
          exact absurd (by simp [hmem]) hback'

theorem momentText_inj {iso8601Fmt : Bool} {first second : Moment}
    {milliseconds : ℤ} {n : ℕ}
    (hsame : momentText first milliseconds iso8601Fmt =
      momentText second n iso8601Fmt) :
    first = second ∧ milliseconds = n := by
  have hdot := List.append_cancel_right hsame
  obtain ⟨hfront, hmillis⟩ := append_cons_inj_of_notMem (dot_notMem_setw _ _)
    (dot_notMem_setw _ _) hdot
  have hlength : ((fields first iso8601Fmt).flatMap fieldText).length =
      ((fields second iso8601Fmt).flatMap fieldText).length := by
    rw [List.length_flatMap, List.length_flatMap]
    simp only [length_fieldText]
    rfl
  obtain ⟨hyear, hfields⟩ := List.append_inj' hfront hlength
  have hsameFields :=
    flatMap_inj_of_width fieldText_inj three_ne_zero length_fieldText hfields
  exact ⟨fields_inj (decimal_inj hyear) hsameFields, setw_inj hmillis⟩

theorem getTimeString_eq (offset clock timestamp : ℤ) (iso8601Fmt : Bool) :
    getTimeString offset clock timestamp iso8601Fmt =
      momentText (Moment.ofSeconds (timestamp.tdiv 1000 + offset))
        (clock.tmod 1000) iso8601Fmt := by
  unfold getTimeString momentText localtimeR
  simp [fields, fieldText]

theorem momentText_offset_inj {offset : ℤ} {iso8601Fmt : Bool}
    {seconds seconds' milliseconds milliseconds' : ℤ}
    (hmillis : 0 ≤ milliseconds')
    (hsame : momentText (Moment.ofSeconds (seconds + offset)) milliseconds
        iso8601Fmt =
      momentText (Moment.ofSeconds (seconds' + offset)) milliseconds'
        iso8601Fmt) :
    seconds = seconds' ∧ milliseconds = milliseconds' := by
  obtain ⟨n, rfl⟩ := Int.eq_ofNat_of_zero_le hmillis
  obtain ⟨hmoment, hmillis⟩ := momentText_inj hsame
  exact ⟨add_right_cancel (Moment.ofSeconds_inj hmoment), hmillis⟩

theorem timeText_inj {offset : ℤ} {iso8601Fmt : Bool} {first second : ℤ}
    (hsame : timeText offset first iso8601Fmt =
      timeText offset second iso8601Fmt) : first = second := by
  obtain ⟨hseconds, hmillis⟩ := momentText_offset_inj (by omega) hsame
  omega

theorem tdiv_eq_iff (timestamp : ℤ) :
    timestamp.tdiv 1000 = timestamp / 1000 ↔
      0 ≤ timestamp ∨ 1000 ∣ timestamp := by
  rw [Int.tdiv_eq_ediv]
  split_ifs with hexact
  · simp [hexact]
  · simp [hexact]

theorem Call.tellsTimestamp_iff (offset : ℤ) (iso8601Fmt : Bool)
    (call : Call) : call.TellsTimestamp offset iso8601Fmt ↔ call.Agrees := by
  unfold Call.TellsTimestamp Call.text
  rw [getTimeString_eq, timeText]
  constructor
  · intro hsame
    obtain ⟨hseconds, hmillis⟩ := momentText_offset_inj (by omega) hsame
    exact ⟨hmillis, (tdiv_eq_iff _).mp hseconds⟩
  · intro hagrees
    rw [(tdiv_eq_iff _).mpr hagrees.quotient, hagrees.milliseconds]

/-- Two calls tell their timestamps, and nothing of when they were made, exactly
when the clock agrees with the timestamp in each. -/
theorem tellTimestamps_iff (offset : ℤ) (iso8601Fmt : Bool)
    (one other : Call) :
    TellTimestamps offset iso8601Fmt one other ↔
      one.Agrees ∧ other.Agrees := by
  constructor
  · intro htell
    exact ⟨(one.tellsTimestamp_iff offset iso8601Fmt).mp htell.one_tells,
      (other.tellsTimestamp_iff offset iso8601Fmt).mp htell.other_tells⟩
  · rintro ⟨hone, hother⟩
    have hone := (one.tellsTimestamp_iff offset iso8601Fmt).mpr hone
    have hother := (other.tellsTimestamp_iff offset iso8601Fmt).mpr hother
    refine ⟨hone, hother, ?_⟩
    rw [hone, hother]
    exact ⟨timeText_inj, fun hsame => by rw [hsame]⟩

/-- The same timestamp, once when the clock is at 123 milliseconds of a second
and once a millisecond later. -/
theorem laterCall_not_tellTimestamps :
    ¬ ∀ (offset : ℤ) (iso8601Fmt : Bool) (one other : Call),
      TellTimestamps offset iso8601Fmt one other := by
  intro hclaim
  have hsame := (hclaim 0 false ⟨1500, 1700000000123⟩
    ⟨1500, 1700000000124⟩).same_iff.mpr rfl
  exact absurd hsame (by decide +kernel)

end TimeString

end StoreCpp
