import Mathlib.Data.Int.Basic

/-! Dates of the proleptic Gregorian calendar. -/
namespace Calendar

def leap (year : Int) : Bool := year%4 = 0 ∧ (year%100 ≠ 0 ∨ year%400 = 0)

def daysIn (year : Int) (month : Nat) : Nat :=
  if month = 2 then if leap year then 29 else 28
  else if month = 4 ∨ month = 6 ∨ month = 9 ∨ month = 11 then 30
  else 31

/-- A day of the calendar. Years are counted with a year zero, which is 1 BC. -/
structure Date where
  year : Int
  month : Nat
  day : Nat
  valid : 1 ≤ month ∧ month ≤ 12 ∧ 1 ≤ day ∧ day ≤ daysIn year month
deriving DecidableEq

def Date.before (a b : Date) : Bool :=
  a.year < b.year ∨ (a.year = b.year ∧
    (a.month < b.month ∨ (a.month = b.month ∧ a.day < b.day)))

/-- The year as SQL extracts it, which knows no year zero. -/
def Date.extractYear (d : Date) : Int := if d.year ≤ 0 then d.year-1 else d.year

def Date.extractMonth (d : Date) : Int := d.month

def Date.extractDay (d : Date) : Int := d.day

theorem one_le_daysIn (year : Int) (month : Nat) : 1 ≤ daysIn year month := by
  unfold daysIn
  repeat' split
  all_goals omega

/-- The first day of a month; a month outside 1..12 carries into the year. -/
def monthStart (year month : Int) : Date where
  year := year+(month-1)/12
  month := ((month-1)%12+1).toNat
  day := 1
  valid := ⟨by omega, by omega, le_refl 1, one_le_daysIn _ _⟩

theorem monthStart_year {year month : Int} (h : 1 ≤ month ∧ month ≤ 12) :
    (monthStart year month).year = year := by
  simp only [monthStart]
  omega

theorem monthStart_month {year month : Int} (h : 1 ≤ month ∧ month ≤ 12) :
    ((monthStart year month).month : Int) = month := by
  simp only [monthStart]
  omega

/-- A date is before a month when its own month is. -/
theorem before_monthStart {d : Date} {year month : Int} :
    d.before (monthStart year month) = true ↔ 12*d.year+d.month < 12*year+month := by
  have hvalid := d.valid
  rw [Date.before, decide_eq_true_eq]
  simp only [monthStart]
  omega

/-- The months from one to before another. -/
theorem within_months {d : Date} {year month year' month' : Int} :
    (!d.before (monthStart year month) && d.before (monthStart year' month')) = true ↔
      12*year+month ≤ 12*d.year+d.month ∧ 12*d.year+d.month < 12*year'+month' := by
  rw [Bool.and_eq_true, Bool.not_eq_true', Bool.eq_false_iff, ne_eq, before_monthStart,
    before_monthStart, Int.not_lt]

end Calendar
