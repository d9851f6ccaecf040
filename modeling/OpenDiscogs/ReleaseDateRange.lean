import Mathlib
import OpenDiscogs.Postgres.Reads

/-! The range of dates that a release search selects, against the calendar. -/
namespace OpenDiscogs
open Calendar Catalog Postgres
variable {year : Int} {month : Option Int} {d : Date}

/-- The dates from the start on and before the end that a search by date computes. -/
def dateRange (year : Int) (month : Option Int) : Set Date :=
  {d | ∃ start finish, releaseDateParameters (some year) month = (some start, some finish, none) ∧
    d.before start = false ∧ d.before finish = true}

/-- The dates of a year, or of one of its months. -/
def calendarDates (year : Int) (month : Option Int) : Set Date :=
  {d | d.year = year ∧ ∀ m ∈ month, d.month = m}

/-- The ranges of a year and of its months are those of the calendar, and lie side by side. -/
structure CalendarRanges (year : Int) : Prop where
  wholeYear : dateRange year none = calendarDates year none
  wholeMonth : ∀ m ∈ Set.Icc 1 12, dateRange year (some m) = calendarDates year (some m)
  disjoint : (Set.Icc 1 12).PairwiseDisjoint fun m => dateRange year (some m)
  union : ⋃ m ∈ Set.Icc 1 12, dateRange year (some m) = dateRange year none
  apart : Disjoint (dateRange year none) (dateRange (year+1) none)
  meet : (releaseDateParameters (some year) none).2.1 =
    (releaseDateParameters (some (year+1)) none).1

theorem mem_dateRange {start finish : Date}
    (h : releaseDateParameters (some year) month = (some start, some finish, none)) :
    d ∈ dateRange year month ↔ d.before start = false ∧ d.before finish = true := by
  constructor
  · intro hd
    obtain ⟨s, f, hp, hwithin⟩ := hd
    rw [h] at hp
    cases hp
    exact hwithin
  · exact fun hwithin => ⟨start, finish, h, hwithin⟩

/-- The comparison in the statement keeps the dates of the range. -/
theorem withinDates_iff {month' : Option Int} {start finish date : Option Date}
    (h : releaseDateParameters (some year) month = (start, finish, month')) :
    withinDates start finish date = true ↔ ∃ d ∈ date, d ∈ dateRange year month := by
  obtain ⟨rfl, rfl, rfl⟩ : _ ∧ _ ∧ _ := by simpa [releaseDateParameters, eq_comm] using h
  cases date with
  | none => simp [withinDates]
  | some d =>
    simp only [withinDates, Bool.and_eq_true, Bool.not_eq_true', Option.mem_some_iff,
      exists_eq_left']
    exact (mem_dateRange rfl).symm

/-- The range of a year counts its twelve months. -/
theorem dateRange_year : dateRange year none = calendarDates year none := by
  ext d
  have hvalid := d.valid
  have hmonths := @within_months d year 1 (year+1) 1
  rw [Bool.and_eq_true, Bool.not_eq_true'] at hmonths
  rw [mem_dateRange (releaseDateParameters_year year), hmonths]
  simp only [calendarDates, Set.mem_ofPred_eq, Option.not_mem_none, false_implies, implies_true,
    and_true]
  omega

/-- The range of a month ends where the next begins, in the next year after December. -/
theorem dateRange_month {m : Int} (hm : 1 ≤ m ∧ m ≤ 12) :
    dateRange year (some m) = calendarDates year (some m) := by
  ext d
  have hvalid := d.valid
  have hmonths := @within_months d year m year (m+1)
  rw [Bool.and_eq_true, Bool.not_eq_true'] at hmonths
  rw [mem_dateRange (releaseDateParameters_month year hm), hmonths]
  simp only [calendarDates, Set.mem_ofPred_eq, Option.mem_some_iff, forall_eq']
  omega

theorem mem_calendarDates_month {m : Int} :
    d ∈ calendarDates year (some m) ↔ d.year = year ∧ (d.month : Int) = m := by
  simp [calendarDates]

theorem mem_calendarDates_year : d ∈ calendarDates year none ↔ d.year = year := by
  simp [calendarDates]

theorem disjoint_months {m m' : Int} (h : m ≠ m') :
    Disjoint (calendarDates year (some m)) (calendarDates year (some m')) := by
  rw [Set.disjoint_left]
  intro d hd hd'
  apply h
  exact (mem_calendarDates_month.mp hd).2.symm.trans (mem_calendarDates_month.mp hd').2

theorem union_months :
    ⋃ m ∈ Set.Icc 1 12, calendarDates year (some m) = calendarDates year none := by
  ext d
  simp only [Set.mem_iUnion, mem_calendarDates_month, mem_calendarDates_year]
  constructor
  · intro h
    obtain ⟨m, -, hy, -⟩ := h
    exact hy
  · intro hy
    have hvalid := d.valid
    exact ⟨d.month, ⟨by omega, by omega⟩, hy, rfl⟩

/-- The ranges of a search by date are the years and the months of the calendar. -/
theorem dateRanges_calendar (year : Int) : CalendarRanges year where
  wholeYear := dateRange_year
  wholeMonth _ hm := dateRange_month hm
  disjoint m hm m' hm' hne := by
    simp only [Function.onFun, dateRange_month hm, dateRange_month hm']
    exact disjoint_months hne
  union := by
    rw [dateRange_year, ← union_months]
    exact Set.iUnion₂_congr fun m hm => dateRange_month hm
  apart := by
    rw [dateRange_year, dateRange_year, Set.disjoint_left]
    intro d hd hd'
    rw [mem_calendarDates_year] at hd hd'
    omega
  meet := by rw [releaseDateParameters_year, releaseDateParameters_year]

end OpenDiscogs
