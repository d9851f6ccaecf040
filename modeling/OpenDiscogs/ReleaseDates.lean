import OpenDiscogs.ReleaseDateRange
import OpenDiscogs.Walk

/-! The release search by date against the dates it shows. -/
namespace OpenDiscogs
open SqlText Calendar Catalog Postgres

/-- A year and a month, and no other filter. -/
def dateFilter (year month : Option Int) : ReleaseFilter where
  title := []
  country := []
  year := year
  month := month
  master := none

/-- A search by date shows the release. -/
def Keeps (s : Store) (t : Tables) (year month : Option Int) (r : ReleaseItemRow) : Prop :=
  (Listing.releases (dateFilter year month)).Shows s t r.id

/-- The release is shown with the year, and with the month if there is one. -/
def Displays (year : Int) (month : Option Int) (r : ReleaseItemRow) : Prop :=
  ∃ item, scanRelease (releaseColumnsSQL r) = .value item ∧ item.releasedYear = some year ∧
    ∀ m ∈ month, item.releasedMonth = some m

/-- The search by a year and perhaps a month keeps what is shown with them, and with both of them
what it keeps by each alone. -/
structure DatesAgree (s : Store) (t : Tables) (year : Int) (month : Option Int)
    (r : ReleaseItemRow) : Prop where
  displayed : Keeps s t (some year) month r ↔ Displays year month r
  paths : ∀ m ∈ month, Keeps s t (some year) (some m) r ↔
    Keeps s t (some year) none r ∧ Keeps s t none (some m) r

/-- The release is dated in the month, by a year that is valid and a month that is not. -/
def MonthNotValid (year : Int) (month : Option Int) (r : ReleaseItemRow) : Prop :=
  r.hasValidYear = some true ∧ r.hasValidMonth ≠ some true ∧
    ∃ d ∈ r.releaseDate, d.year = year ∧ month = some d.extractMonth

theorem extractWhen_eq_some {valid : Option Bool} {extract : Date → Int} {date : Option Date}
    {n : Int} : extractWhen valid extract date = some n ↔
      valid = some true ∧ ∃ d ∈ date, extract d = n := by
  unfold extractWhen
  split
  · next hv => simp [hv]
  · next hv => simp [hv]

theorem displays_iff {year : Int} {month : Option Int} {r : ReleaseItemRow} :
    Displays year month r ↔
      (r.hasValidYear = some true ∧ ∃ d ∈ r.releaseDate, d.extractYear = year) ∧
      ∀ m ∈ month, r.hasValidMonth = some true ∧ ∃ d ∈ r.releaseDate, d.extractMonth = m := by
  simp only [Displays, scanRelease_columns, Outcome.value.injEq, exists_eq_left', releaseOf,
    extractWhen_eq_some]

section Paths
variable {server : Server} {r : ReleaseItemRow} {year : Int}

/-- Without texts and a master flag, the dates are all that a release has to match. -/
theorem matches_dates {year month : Option Int} {start finish : Option Date}
    {selected : Option Int}
    (h : releaseDateParameters year month = (start, finish, selected)) :
    matchesFilter server (dateFilter year month) r = true ↔
      (start = none ∨ r.hasValidYear = some true ∧
        withinDates start finish r.releaseDate = true) ∧
      (selected = none ∨ r.hasValidMonth = some true ∧
        r.releaseDate.map Date.extractMonth = selected) := by
  have htext : asText [] = none := rfl
  simp [matchesFilter, dateFilter, h, releaseMatches, htext, containsTerm, unlessNull]

/-- A positive year is extracted as it is. -/
theorem extractYear_iff (hy : 1 ≤ year) (d : Date) : d.extractYear = year ↔ d.year = year := by
  unfold Date.extractYear
  split <;> omega

/-- The year alone: a range of twelve months. -/
theorem matches_year : matchesFilter server (dateFilter (some year) none) r = true ↔
    r.hasValidYear = some true ∧ ∃ d ∈ r.releaseDate, d.year = year := by
  have hwindow := releaseDateParameters_year year
  have hwithin := @withinDates_iff year none none _ _ r.releaseDate hwindow
  simp only [dateRange_year, mem_calendarDates_year] at hwithin
  simp [matches_dates hwindow, hwithin]

/-- The year and the month: a range of one month, under the validity of the year only. -/
theorem matches_year_month {m : Int} (hm : 1 ≤ m ∧ m ≤ 12) :
    matchesFilter server (dateFilter (some year) (some m)) r = true ↔
      r.hasValidYear = some true ∧
        ∃ d ∈ r.releaseDate, d.year = year ∧ d.extractMonth = m := by
  have hwindow := releaseDateParameters_month year hm
  have hwithin := @withinDates_iff year (some m) none _ _ r.releaseDate hwindow
  simp only [dateRange_month hm, mem_calendarDates_month] at hwithin
  simp [matches_dates hwindow, hwithin, Date.extractMonth]

/-- The month alone, under its own validity. -/
theorem matches_month {m : Int} : matchesFilter server (dateFilter none (some m)) r = true ↔
    r.hasValidMonth = some true ∧ ∃ d ∈ r.releaseDate, d.extractMonth = m := by
  simp [matches_dates (show releaseDateParameters none (some m) = (none, none, some m) from rfl)]

end Paths

section Search
variable {s : Store} {db : Database} {r : ReleaseItemRow}

theorem legal_dates {year month : Option Int} (hy : ∀ y ∈ year, 1 ≤ y ∧ y ≤ 32767)
    (hm : ∀ m ∈ month, 1 ≤ m ∧ m ≤ 12) : LegalReleaseFilter (dateFilter year month) := by
  have htext : LegalText [] := by decide
  refine ⟨⟨htext, htext⟩, legalWindow (fun y hmem => ?_) hm⟩
  have := hy y hmem
  omega

theorem keeps_iff (hr : r ∈ db.releaseItem) {year month : Option Int}
    (hy : ∀ y ∈ year, 1 ≤ y ∧ y ≤ 32767) (hm : ∀ m ∈ month, 1 ≤ m ∧ m ≤ 12) :
    Keeps s db.toTables year month r ↔
      matchesFilter db.server (dateFilter year month) r = true := by
  have hid := db.canonical.releaseKey.2 _ (List.mem_map_of_mem hr)
  have hlegal : ∀ request,
      (Listing.releases (dateFilter year month)).Admissible db.toTables request :=
    fun _ => legal_dates hy hm
  rw [Keeps, Listing.shows_iff hlegal hid]
  constructor
  · intro h
    obtain ⟨r', hr', hmatch, hsame⟩ := h
    rwa [← List.inj_on_of_nodup_map (releaseKeys db) hr' hr hsame]
  · exact fun hmatch => ⟨r, hr, hmatch, rfl⟩

/-- The search by date agrees with the dates shown exactly for the releases that are not dated in
the month it asks for by a month that is not valid. -/
theorem dates_agree (s : Store) (db : Database) (hr : r ∈ db.releaseItem) (year : Int)
    (hy : 1 ≤ year ∧ year ≤ 32767) (month : Option Int) (hm : ∀ m ∈ month, 1 ≤ m ∧ m ≤ 12) :
    DatesAgree s db.toTables year month r ↔ ¬MonthNotValid year month r := by
  have hyear : ∀ y ∈ some year, 1 ≤ y ∧ y ≤ 32767 := by simpa using hy
  have hnone : ∀ m ∈ (none : Option Int), 1 ≤ m ∧ m ≤ 12 := by simp
  have hkeeps := @keeps_iff s db r hr
  have hextract : ∀ d : Date, d.extractYear = year ↔ d.year = year := extractYear_iff hy.1
  cases month with
  | none =>
    refine iff_of_true ⟨?_, by simp⟩ (by simp [MonthNotValid])
    rw [hkeeps hyear hnone, matches_year, displays_iff]
    simp [hextract]
  | some m =>
    have hmonth := hm m rfl
    have hboth : Keeps s db.toTables (some year) (some m) r ↔ r.hasValidYear = some true ∧
        ∃ d ∈ r.releaseDate, d.year = year ∧ d.extractMonth = m :=
      (hkeeps hyear hm).trans (matches_year_month hmonth)
    have hshown : Displays year (some m) r ↔
        (r.hasValidYear = some true ∧ ∃ d ∈ r.releaseDate, d.year = year) ∧
        r.hasValidMonth = some true ∧ ∃ d ∈ r.releaseDate, d.extractMonth = m := by
      rw [displays_iff]
      simp [hextract]
    have heach : Keeps s db.toTables (some year) none r ∧ Keeps s db.toTables none (some m) r ↔
        (r.hasValidYear = some true ∧ ∃ d ∈ r.releaseDate, d.year = year) ∧
        r.hasValidMonth = some true ∧ ∃ d ∈ r.releaseDate, d.extractMonth = m := by
      rw [hkeeps hyear hnone, hkeeps (by simp) hm, matches_year, matches_month]
    constructor
    · intro h hparts
      obtain ⟨hdisplayed, -⟩ := h
      obtain ⟨hv, hinvalid, d, hd, hdy, hdm⟩ := hparts
      have hkept := hboth.mpr ⟨hv, d, hd, hdy, (Option.some.inj hdm).symm⟩
      exact hinvalid (hshown.mp (hdisplayed.mp hkept)).2.1
    · intro hnot
      have hsame : Keeps s db.toTables (some year) (some m) r ↔
          (r.hasValidYear = some true ∧ ∃ d ∈ r.releaseDate, d.year = year) ∧
          r.hasValidMonth = some true ∧ ∃ d ∈ r.releaseDate, d.extractMonth = m := by
        rw [hboth]
        constructor
        · intro h
          obtain ⟨hv, d, hd, hdy, hdm⟩ := h
          have hvalid : r.hasValidMonth = some true := by
            by_contra hinvalid
            exact hnot ⟨hv, hinvalid, d, hd, hdy, by rw [hdm]⟩
          exact ⟨⟨hv, d, hd, hdy⟩, hvalid, d, hd, hdm⟩
        · intro h
          obtain ⟨⟨hv, d, hd, hdy⟩, -, d', hd', hdm⟩ := h
          obtain rfl := Option.mem_unique hd hd'
          exact ⟨hv, d, hd, hdy, hdm⟩
      refine ⟨hsame.trans hshown.symm, fun m' hm' => ?_⟩
      cases hm'
      exact hsame.trans heach.symm

end Search

/-- A release whose date names a month that is not known. -/
def monthlessRelease : ReleaseItemRow where
  id := 1
  hasValidYear := some true
  hasValidMonth := some false
  releaseDate := some (monthStart 2000 2)

def monthlessReleases : Database where
  server := cLocale
  releaseItem := [monthlessRelease]
  canonical := by decide

theorem dates_agree_later : DatesAgree localStore monthlessReleases.toTables 2000 (some 3)
    monthlessRelease ↔ ¬MonthNotValid 2000 (some 3) monthlessRelease :=
  dates_agree localStore monthlessReleases (List.mem_singleton_self _) 2000 (by decide) (some 3)
    (by decide)

/-- The release is found by the month and shown without one. -/
theorem dates_differ : ¬DatesAgree localStore monthlessReleases.toTables 2000 (some 2)
    monthlessRelease := by
  intro h
  have hkept : Keeps localStore monthlessReleases.toTables (some 2000) (some 2)
      monthlessRelease :=
    (keeps_iff (List.mem_singleton_self _) (by decide) (by decide)).mpr (by decide)
  obtain ⟨item, hitem, -, hmonth⟩ := h.displayed.mp hkept
  cases hitem
  exact absurd (hmonth 2 rfl) (by decide)

end OpenDiscogs
