import Meno.Lib.TextForm

/-!
# Lib.Calendar

Dates of the Gregorian calendar, the instants they stand for, and their texts: `2026-05-26`,
`2026-05-26T21:55:37`, and the date and time with its zone of RFC 3339. A text of each kind is read
back as what was written (`dateForm`, `dateTimeForm`, `zonedForm`).
-/

namespace Lib.Calendar

open TextForm

/-! ## Dates -/

def isLeap (year : Int) : Bool :=
  year % 4 == 0 && (year % 100 != 0 || year % 400 == 0)

def daysInMonth (year : Int) : Nat → Nat
  | 2 => if isLeap year then 29 else 28
  | 4 | 6 | 9 | 11 => 30
  | _ => 31

theorem daysInMonth_le (year : Int) (month : Nat) : daysInMonth year month ≤ 31 := by
  unfold daysInMonth
  split
  · split <;> omega
  · omega
  · omega
  · omega
  · omega
  · omega

/-- Four digits for the year, and perhaps a sign. -/
structure Date where
  year : Int
  month : Nat
  day : Nat
  year_le : -9999 ≤ year ∧ year ≤ 9999
  month_le : 1 ≤ month ∧ month ≤ 12
  day_le : 1 ≤ day ∧ day ≤ daysInMonth year month
deriving DecidableEq

/-- Days from the first of January of the year 0. -/
def daysBeforeYear (year : Int) : Int :=
  365 * year + (year + 3) / 4 - (year + 99) / 100 + (year + 399) / 400

def daysBeforeMonth (year : Int) : Nat → Nat
  | 0 | 1 => 0
  | month + 2 => daysBeforeMonth year (month + 1) + daysInMonth year (month + 1)

/-- Days from the first of January 1970. -/
def Date.dayNumber (d : Date) : Int :=
  daysBeforeYear d.year + daysBeforeMonth d.year d.month + (d.day - 1) - 719528

theorem daysBeforeMonth_add_one {year : Int} {month : Nat} (h : 1 ≤ month) :
    daysBeforeMonth year (month + 1) = daysBeforeMonth year month + daysInMonth year month := by
  cases month with
  | zero => omega
  | succ month => rfl

theorem daysBeforeMonth_le {year : Int} {month month' : Nat} (h : month ≤ month') :
    daysBeforeMonth year month ≤ daysBeforeMonth year month' := by
  induction h with
  | refl => exact Nat.le_refl _
  | step h ih =>
    rename_i month'
    cases month' with
    | zero => exact ih
    | succ month' =>
      rw [daysBeforeMonth_add_one (by omega)]
      omega

/-- The years follow each other without a gap. -/
theorem daysBeforeYear_add_one (year : Int) :
    daysBeforeYear (year + 1) = daysBeforeYear year + daysBeforeMonth year 13 := by
  have hdays : daysBeforeMonth year 13 = if isLeap year then 366 else 365 := by
    simp only [daysBeforeMonth, daysInMonth]
    split <;> rfl
  rw [hdays, isLeap, daysBeforeYear, daysBeforeYear]
  simp only [Bool.and_eq_true, Bool.or_eq_true, beq_iff_eq, bne_iff_ne]
  split <;> omega

/-- A date lies within its year. -/
theorem Date.dayNumber_within (d : Date) :
    daysBeforeYear d.year ≤ d.dayNumber + 719528 ∧
      d.dayNumber + 719528 < daysBeforeYear (d.year + 1) := by
  have hmonth := @daysBeforeMonth_add_one d.year d.month d.month_le.1
  have hmonths : daysBeforeMonth d.year (d.month + 1) ≤ daysBeforeMonth d.year 13 :=
    daysBeforeMonth_le (by have := d.month_le.2; omega)
  have hday := d.day_le
  rw [daysBeforeYear_add_one, Date.dayNumber]
  omega

/-! ## Times -/

structure TimeOfDay where
  hour : Fin 24
  minute : Fin 60
  second : Fin 60
deriving DecidableEq

def midnight : TimeOfDay := ⟨0, 0, 0⟩

def TimeOfDay.seconds (t : TimeOfDay) : Nat :=
  t.hour * 3600 + t.minute * 60 + t.second

theorem TimeOfDay.seconds_lt (t : TimeOfDay) : t.seconds < 86400 := by
  unfold TimeOfDay.seconds
  omega

/-- Seconds from the epoch, by the clock of Greenwich. -/
def utcSeconds (d : Date) (t : TimeOfDay) : Int := d.dayNumber * 86400 + t.seconds

/-- The first and the last second of the years that there are. -/
theorem utcSeconds_mem (d : Date) (t : TimeOfDay) :
    -377705116800 ≤ utcSeconds d t ∧ utcSeconds d t ≤ 253402300799 := by
  have hday := d.dayNumber_within
  have hyear := d.year_le
  have htime := t.seconds_lt
  unfold utcSeconds
  unfold daysBeforeYear at hday
  omega

inductive Zone where
  | utc
  | offset (behind : Bool) (hours : Fin 24) (minutes : Fin 60)
deriving DecidableEq

/-- Seconds ahead of Greenwich. -/
def Zone.seconds : Zone → Int
  | .utc => 0
  | .offset behind hours minutes =>
    if behind then -(hours * 3600 + minutes * 60 : Int) else hours * 3600 + minutes * 60

/-- A fraction whose first digit counts `unit`; what counts less than one is left out. -/
def fractionValue : Nat → List (Fin 10) → Nat
  | _, [] => 0
  | unit, d :: ds => d * unit + fractionValue (unit / 10) ds

/-- The date and time of RFC 3339. -/
structure ZonedTime where
  date : Date
  time : TimeOfDay
  fraction : List (Fin 10)
  zone : Zone
  year_nonneg : 0 ≤ date.year
deriving DecidableEq

def ZonedTime.seconds (t : ZonedTime) : Int := utcSeconds t.date t.time - t.zone.seconds

/-- Nanoseconds from the epoch. -/
def ZonedTime.nanoseconds (t : ZonedTime) : Int :=
  t.seconds * 1000000000 + fractionValue 100000000 t.fraction

/-! ## Texts -/

def Date.text (d : Date) : List Char :=
  padded 4 d.year.natAbs ++ '-' :: (padded 2 d.month ++ '-' :: padded 2 d.day)

/-- The seconds may be those of a leap second. -/
def TimeOfDay.textWith (second : Nat) (t : TimeOfDay) : List Char :=
  padded 2 t.hour ++ ':' :: (padded 2 t.minute ++ ':' :: padded 2 second)

def TimeOfDay.text (t : TimeOfDay) : List Char := t.textWith t.second

def Zone.text (zulu : Char) : Zone → List Char
  | .utc => [zulu]
  | .offset behind hours minutes =>
    (if behind then '-' else '+') :: (padded 2 hours ++ ':' :: padded 2 minutes)

def ZonedTime.textWith (separator zulu : Char) (second : Nat) (t : ZonedTime) : List Char :=
  t.date.text ++ separator :: (t.time.textWith second ++
    (TextForm.fraction t.fraction ++ t.zone.text zulu))

def ZonedTime.text (t : ZonedTime) : List Char := t.textWith 'T' 'Z' t.time.second

/-! ## Forms -/

/-- A date of the calendar, or none. -/
def Date.ofNumbers (n : Fin 10000 × Unit × Fin 100 × Unit × Fin 100) :
    Option { d : Date // 0 ≤ d.year } :=
  if h : (1 ≤ n.2.2.1.val ∧ n.2.2.1.val ≤ 12) ∧
      (1 ≤ n.2.2.2.2.val ∧ n.2.2.2.2.val ≤ daysInMonth n.1 n.2.2.1) then
    some ⟨⟨n.1, n.2.2.1, n.2.2.2.2, by omega, h.1, h.2⟩, by dsimp only; omega⟩
  else none

def Date.numbers (d : { d : Date // 0 ≤ d.year }) : Fin 10000 × Unit × Fin 100 × Unit × Fin 100 :=
  (⟨d.val.year.natAbs, by have := d.val.year_le; omega⟩, (),
    ⟨d.val.month, by have := d.val.month_le; omega⟩, (),
    ⟨d.val.day, by have := d.val.day_le; have := daysInMonth_le d.val.year d.val.month; omega⟩)

theorem Date.ofNumbers_numbers (d : { d : Date // 0 ≤ d.year }) :
    Date.ofNumbers (Date.numbers d) = some d := by
  obtain ⟨⟨year, month, day, hyear, hmonth, hday⟩, hnonneg⟩ := d
  have hcast : ((year.natAbs : Nat) : Int) = year := Int.natAbs_of_nonneg hnonneg
  simp [Date.ofNumbers, Date.numbers, hcast, hmonth, hday]

theorem Date.numbers_ofNumbers {n : Fin 10000 × Unit × Fin 100 × Unit × Fin 100}
    {d : { d : Date // 0 ≤ d.year }} (h : Date.ofNumbers n = some d) : Date.numbers d = n := by
  unfold Date.ofNumbers at h
  split at h
  · cases h
    rfl
  · cases h

def dateForm : TextForm { d : Date // 0 ≤ d.year } :=
  ((number 4 10000 (by decide)).seq ((char '-').seq ((number 2 100 (by decide)).seq
    ((char '-').seq (number 2 100 (by decide)))))).check
      Date.ofNumbers Date.numbers Date.ofNumbers_numbers Date.numbers_ofNumbers

theorem write_dateForm (d : { d : Date // 0 ≤ d.year }) : dateForm.write d = d.val.text := rfl

/-- Hours and minutes. -/
def clockForm : TextForm (Fin 24 × Unit × Fin 60) :=
  (number 2 24 (by decide)).seq ((char ':').seq (number 2 60 (by decide)))

def timeForm : TextForm TimeOfDay :=
  (clockForm.seq ((char ':').seq (number 2 60 (by decide)))).check
    (fun n => some ⟨n.1.1, n.1.2.2, n.2.2⟩)
    (fun t => ((t.hour, (), t.minute), (), t.second))
    (fun _ => rfl)
    (fun h => by cases h; rfl)

theorem write_timeForm (t : TimeOfDay) : timeForm.write t = t.text := by
  simp [timeForm, clockForm, check, seq, number, char, TimeOfDay.text, TimeOfDay.textWith]

/-- A date and a time of day, by the clock of Greenwich. -/
def dateTimeForm : TextForm ({ d : Date // 0 ≤ d.year } × Unit × TimeOfDay) :=
  dateForm.seq ((char 'T').seq timeForm)

def Zone.read : List Char → Option (Zone × List Char)
  | 'Z' :: rest => some (.utc, rest)
  | '-' :: cs => (clockForm.read cs).map fun n => (.offset true n.1.1 n.1.2.2, n.2)
  | '+' :: cs => (clockForm.read cs).map fun n => (.offset false n.1.1 n.1.2.2, n.2)
  | _ => none

def zoneForm : TextForm Zone where
  write := Zone.text 'Z'
  read := Zone.read
  read_write z rest := by
    cases z with
    | utc => rfl
    | offset behind hours minutes =>
      have hread := clockForm.read_write (hours, (), minutes) rest
      cases behind with
      | true => exact congrArg (Option.map fun n => (Zone.offset true n.1.1 n.1.2.2, n.2)) hread
      | false => exact congrArg (Option.map fun n => (Zone.offset false n.1.1 n.1.2.2, n.2)) hread
  write_read := by
    intro cs z rest h
    unfold Zone.read at h
    split at h
    · cases h
      rfl
    · obtain ⟨⟨n, rest'⟩, hread, hpair⟩ := Option.map_eq_some_iff.1 h
      cases hpair
      exact congrArg ('-' :: ·) (clockForm.write_read hread)
    · obtain ⟨⟨n, rest'⟩, hread, hpair⟩ := Option.map_eq_some_iff.1 h
      cases hpair
      exact congrArg ('+' :: ·) (clockForm.write_read hread)
    · cases h

theorem bounded_zoneForm : zoneForm.Bounded := by
  intro z
  cases z with
  | utc => exact ⟨'Z', [], rfl, by decide, by decide⟩
  | offset behind hours minutes =>
    cases behind with
    | true => exact ⟨'-', _, rfl, by decide, by decide⟩
    | false => exact ⟨'+', _, rfl, by decide, by decide⟩

def zonedForm : TextForm ZonedTime :=
  (dateForm.seq ((char 'T').seq (timeForm.seq (zoneForm.afterFraction bounded_zoneForm)))).check
    (fun n => some ⟨n.1.val, n.2.2.1, n.2.2.2.1, n.2.2.2.2, n.1.property⟩)
    (fun t => (⟨t.date, t.year_nonneg⟩, (), t.time, t.fraction, t.zone))
    (fun _ => rfl)
    (fun h => by cases h; rfl)

theorem write_zonedForm (t : ZonedTime) : zonedForm.write t = t.text := by
  rw [ZonedTime.text, ZonedTime.textWith, ← TimeOfDay.text, ← write_timeForm]
  rfl

/-! ## What stands in a text -/

theorem ZonedTime.colon_mem_textWith (separator zulu : Char) (second : Nat) (t : ZonedTime) :
    ':' ∈ t.textWith separator zulu second := by
  simp [ZonedTime.textWith, TimeOfDay.textWith]

/-- Digits are followed by a hyphen. -/
theorem Date.hyphen_mem_tail_text (d : Date) : '-' ∈ d.text.tail := by
  simp [Date.text, padded]

theorem Date.colon_not_mem_text (d : Date) : ':' ∉ d.text := by
  have hyear : d.year.natAbs < 10 ^ 4 := by have := d.year_le; omega
  have hmonth : d.month < 10 ^ 2 := by have := d.month_le; omega
  have hday : d.day < 10 ^ 2 := by
    have := d.day_le
    have := daysInMonth_le d.year d.month
    omega
  intro hmem
  have hdigit : ∀ {w n : Nat}, n < 10 ^ w → ':' ∉ padded w n := fun hn hcolon =>
    absurd (isDigit_of_mem_padded hn hcolon) (by decide)
  simp [Date.text, hdigit hyear, hdigit hmonth, hdigit hday] at hmem

end Lib.Calendar
