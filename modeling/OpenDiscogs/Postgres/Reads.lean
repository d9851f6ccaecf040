import OpenDiscogs.Postgres.Related
import OpenDiscogs.Postgres.ReleaseLookup

/-! When each collection query succeeds, the rows it then reads and the keys of these rows. -/
namespace OpenDiscogs.Postgres
open Utf8 SqlText Calendar Catalog Rows Keyset

/-- An optional filter as the server reads it. -/
def asText (s : Bytes) : Option Text := (optionalText s).bind ofBytes

/-- PostgreSQL accepts the text of the filter, if there is any. -/
def LegalText (s : Bytes) : Prop := ∀ raw ∈ optionalText s, (ofBytes raw).isSome

instance (s : Bytes) : Decidable (LegalText s) :=
  inferInstanceAs (Decidable (∀ raw ∈ optionalText s, (ofBytes raw).isSome))

def InRange (n : Int) : Prop := -2^31 ≤ n ∧ n < 2^31

def DateInRange (d : Date) : Prop := -4712 ≤ d.year ∧ d.year ≤ 5874897

section Parameters
variable {α β : Type}

theorem textParameter_eq_value {s : Bytes} {t : Text} :
    textParameter s = .value t ↔ ofBytes s = some t := by
  unfold textParameter
  split
  · next u hu => simp [hu]
  · next hu => simp [hu, rejected]

theorem integerParameter_eq_value {n m : Int} :
    integerParameter n = .value m ↔ InRange n ∧ m = n :=
  ⟨fun h => ⟨(integerParameter_value h).2, (integerParameter_value h).1⟩,
    fun ⟨h, he⟩ => he.symm ▸ integerParameter_eq h⟩

theorem dateParameter_eq_value {d e : Date} :
    dateParameter d = .value e ↔ DateInRange d ∧ e = d := by
  unfold dateParameter DateInRange
  split
  · next h => simp [h, eq_comm]
  · next h => simp [h, rejected]

theorem limitParameter_eq_value {n : Int} {m : Nat} :
    limitParameter n = .value m ↔ 0 ≤ n ∧ m = n.toNat := by
  unfold limitParameter
  split
  · next h => simp [rejected, show ¬0 ≤ n by omega]
  · next h => simp [show 0 ≤ n by omega, eq_comm]

theorem nullable_eq_value {parameter : α → Result α} {legal : α → Prop}
    (h : ∀ a b, parameter a = .value b ↔ legal a ∧ b = a) {o p : Option α} :
    nullable parameter o = .value p ↔ (∀ a ∈ o, legal a) ∧ p = o := by
  cases o with
  | none => simp [nullable, eq_comm]
  | some a =>
    simp only [nullable, Outcome.bind_value, Outcome.pure_eq, Outcome.value.injEq, h,
      Option.mem_some_iff, forall_eq']
    constructor
    · intro hparts
      obtain ⟨b, ⟨hl, rfl⟩, rfl⟩ := hparts
      exact ⟨hl, rfl⟩
    · intro hparts
      obtain ⟨hl, rfl⟩ := hparts
      exact ⟨a, ⟨hl, rfl⟩, rfl⟩

theorem nullable_text_eq_value {s : Bytes} {p : Option Text} :
    nullable textParameter (optionalText s) = .value p ↔ LegalText s ∧ p = asText s := by
  unfold LegalText asText
  cases optionalText s with
  | none =>
    simp only [nullable, Outcome.value.injEq, Option.bind_none]
    exact ⟨fun h => ⟨by simp, h.symm⟩, fun h => h.2.symm⟩
  | some raw =>
    simp only [nullable, Outcome.bind_value, Outcome.pure_eq, Outcome.value.injEq,
      textParameter_eq_value, Option.mem_some_iff, forall_eq', Option.bind_some]
    constructor
    · intro hparts
      obtain ⟨t, ht, rfl⟩ := hparts
      rw [ht]
      exact ⟨rfl, rfl⟩
    · intro hparts
      obtain ⟨hl, rfl⟩ := hparts
      obtain ⟨t, ht⟩ := Option.isSome_iff_exists.mp hl
      exact ⟨t, ht, ht.symm⟩

/-- The page cut out of what was read. -/
def cutPage (size : Int) (items : List α) : Page α :=
  ⟨items.take size.toNat, decide (size.toNat < items.length)⟩

theorem loadPage_eq_value {size : Int} (hs : 0 < size) {operation : String}
    {items : Result (List α)} {page : Page α} :
    loadPage size (operationError operation items) = .value page ↔
      ∃ rows, items = .value rows ∧ page = cutPage size rows := by
  constructor
  · intro h
    obtain ⟨rows, hr, hp⟩ := Outcome.bind_value.mp h
    refine ⟨rows, operationError_eq_value.mp hr, ?_⟩
    have := lookAhead_pos Page.mk rows hs
    rw [newPage, this, Outcome.value.injEq] at hp
    exact hp.symm
  · intro hparts
    obtain ⟨rows, rfl, rfl⟩ := hparts
    exact loadPage_value hs rows

/-- Rows are scanned into a list of values when every row of them scans. -/
theorem collectRows_map {ρ : Type} {scanner : α → Result β} {columns : ρ → α} {ok : ρ → Prop}
    {f : ρ → β} (h : ∀ row b, scanner (columns row) = .value b ↔ ok row ∧ b = f row)
    {rows : List ρ} {items : List β} :
    collectRows scanner (rows.map columns) = .value items ↔
      (∀ row ∈ rows, ok row) ∧ items = rows.map f := by
  induction rows generalizing items with
  | nil => simp [collectRows, eq_comm]
  | cons row rows ih =>
    simp only [List.map_cons, collectRows, Outcome.bind_value, h, ih, List.mem_cons,
      forall_eq_or_imp, Outcome.pure_eq, Outcome.value.injEq]
    constructor
    · intro hparts
      obtain ⟨b, ⟨ho, rfl⟩, bs, ⟨hos, rfl⟩, rfl⟩ := hparts
      exact ⟨⟨ho, hos⟩, rfl⟩
    · intro hparts
      obtain ⟨⟨ho, hos⟩, rfl⟩ := hparts
      exact ⟨_, ⟨ho, rfl⟩, _, ⟨hos, rfl⟩, rfl⟩

theorem collectRows_columns {ρ : Type} {scanner : α → Result β} {columns : ρ → α} {f : ρ → β}
    (h : ∀ row, scanner (columns row) = .value (f row)) {rows : List ρ} {items : List β} :
    collectRows scanner (rows.map columns) = .value items ↔ items = rows.map f := by
  have hscan : ∀ row b, scanner (columns row) = .value b ↔ True ∧ b = f row := fun row b => by
    rw [h, Outcome.value.injEq, true_and, eq_comm]
  rw [collectRows_map hscan]
  simp

/-- An array of texts scans unless it holds a null. -/
theorem scanTextArray_eq_value {xs : List (Option Text)} {ts : List Text} :
    scanTextArray xs = .value ts ↔ (∀ x ∈ xs, x.isSome) ∧ ts = xs.filterMap id := by
  unfold scanTextArray
  induction xs generalizing ts with
  | nil =>
    simp only [collectRows, Outcome.value.injEq, List.filterMap_nil]
    exact ⟨fun h => ⟨by simp, h.symm⟩, fun h => h.2.symm⟩
  | cons x xs ih =>
    cases x with
    | none => simp [collectRows, scanText]
    | some t =>
      simp only [collectRows, scanText, Outcome.value_bind, Outcome.bind_value, ih]
      constructor
      · intro hparts
        obtain ⟨us, ⟨hs, rfl⟩, he⟩ := hparts
        cases he
        simpa using hs
      · intro hparts
        obtain ⟨hs, rfl⟩ := hparts
        exact ⟨_, ⟨fun x hx => hs x (List.mem_cons_of_mem _ hx), rfl⟩, rfl⟩

end Parameters

/-- `WHERE p AND key > after ORDER BY key LIMIT n` where the key is unique among such rows. -/
theorem least_above {ρ : Type} {key : ρ → Int} {rows : List ρ} {p : ρ → Bool}
    (h : ((rows.filter p).map key).Nodup) (after : Int) (n : Nat) :
    Least ({x | ∃ row ∈ rows, p row ∧ key row = x} ∩ {x | after < x}) n
      (((orderBy key (rows.filter fun row => p row && after < key row)).take n).map key) := by
  have hsub : (rows.filter fun row => p row && after < key row) =
      (rows.filter p).filter fun row => after < key row := by
    rw [List.filter_filter]
    exact List.filter_congr fun row _ => Bool.and_comm _ _
  have hl := least_orderBy (p := fun row => p row && after < key row)
    (hsub ▸ nodup_filter h fun row => after < key row) n
  have hset : {x | ∃ row ∈ rows, (p row && after < key row) = true ∧ key row = x} =
      {x | ∃ row ∈ rows, p row ∧ key row = x} ∩ {x | after < x} := by
    ext x
    simp only [Set.mem_inter_iff, Set.mem_ofPred_eq, Bool.and_eq_true, decide_eq_true_eq]
    constructor
    · intro hparts
      obtain ⟨row, hr, ⟨hp, ha⟩, rfl⟩ := hparts
      exact ⟨⟨row, hr, hp, rfl⟩, ha⟩
    · intro hparts
      obtain ⟨⟨row, hr, hp, rfl⟩, ha⟩ := hparts
      exact ⟨row, hr, ⟨hp, ha⟩, rfl⟩
  rwa [hset] at hl

/-- `SELECT DISTINCT key WHERE p AND key > after ORDER BY key LIMIT n`. -/
theorem least_distinct_above {ρ : Type} (key : ρ → Int) (rows : List ρ) (p : ρ → Bool)
    (after : Int) (n : Nat) :
    Least ({x | ∃ row ∈ rows, p row ∧ key row = x} ∩ {x | after < x}) n
      ((distinct ((rows.filter fun row => p row && after < key row).map key)).take n) := by
  have hl := least_distinct ((rows.filter fun row => p row && after < key row).map key) n
  have hset : {x | x ∈ (rows.filter fun row => p row && after < key row).map key} =
      {x | ∃ row ∈ rows, p row ∧ key row = x} ∩ {x | after < x} := by
    ext x
    simp only [Set.mem_inter_iff, Set.mem_ofPred_eq, List.mem_map, List.mem_filter,
      Bool.and_eq_true, decide_eq_true_eq]
    constructor
    · intro h
      obtain ⟨row, ⟨hr, hp, ha⟩, rfl⟩ := h
      exact ⟨⟨row, hr, hp, rfl⟩, ha⟩
    · intro h
      obtain ⟨⟨row, hr, hp, rfl⟩, ha⟩ := h
      exact ⟨row, ⟨hr, hp, ha⟩, rfl⟩
  rwa [hset] at hl

section Searches
variable {s : Store} {t : Tables} {request : PageRequest}

def artistOf (a : ArtistRow) : Artist where
  id := a.id
  name := a.name
  realName := a.realName
  profile := a.profile
  dataQuality := a.dataQuality

def labelOf (l : LabelRow) : Label where
  id := l.id
  contactInfo := l.contactInfo
  dataQuality := l.dataQuality
  name := l.name
  profile := l.profile

def masterOf (m : MasterRow) : Master where
  id := m.id
  dataQuality := m.dataQuality
  title := m.title
  releasedYear := m.year

def releaseOf (r : ReleaseItemRow) : Release where
  id := r.id
  title := r.title
  country := r.country
  dataQuality := r.dataQuality
  releasedYear := extractWhen r.hasValidYear Date.extractYear r.releaseDate
  releasedMonth := extractWhen r.hasValidMonth Date.extractMonth r.releaseDate
  releasedDay := extractWhen r.hasValidDay Date.extractDay r.releaseDate
  listedReleaseDate := r.listedReleaseDate
  isMaster := r.isMaster
  masterID := r.masterID
  notes := r.notes
  status := r.status

theorem scanArtist_columns (a : ArtistRow) : scanArtist (artistColumns a) = .value (artistOf a) := rfl

theorem scanLabel_columns (l : LabelRow) : scanLabel (labelColumns l) = .value (labelOf l) := rfl

theorem scanMaster_columns (m : MasterRow) : scanMaster (masterColumns m) = .value (masterOf m) := rfl

theorem scanRelease_columns (r : ReleaseItemRow) :
    scanRelease (releaseColumnsSQL r) = .value (releaseOf r) := rfl

/-- The rows that satisfy a filter, above the cursor and up to one more than a page holds. -/
def lookAheadRows {ρ : Type} (key : ρ → Int) (rows : List ρ) (p : ρ → Bool)
    (request : PageRequest) : List ρ :=
  (orderBy key (rows.filter fun row => p row && request.afterID < key row)).take
    request.fetchSize.toNat

def LegalArtistFilter (filter : ArtistFilter) : Prop :=
  LegalText filter.name ∧ LegalText filter.realName

theorem searchArtists_value {filter : ArtistFilter} {page : Page Artist}
    (hs : 0 < request.size) : s.searchArtists t filter request = .value page ↔
      (LegalArtistFilter filter ∧ InRange request.afterID) ∧
      page = cutPage request.size ((lookAheadRows (·.id) t.artist
        (artistMatches t.server (asText filter.name) (asText filter.realName)) request).map
          artistOf) := by
  have hf : 0 ≤ request.fetchSize := by rw [PageRequest.fetchSize]; omega
  simp only [Store.searchArtists, loadPage_eq_value hs, Outcome.bind_value,
    nullable_text_eq_value, integerParameter_eq_value, limitParameter_eq_value,
    searchArtistsSQL, collectRows_columns scanArtist_columns]
  constructor
  · intro h
    obtain ⟨rows, ⟨_, ⟨hn, rfl⟩, _, ⟨hr, rfl⟩, _, ⟨ha, rfl⟩, _, ⟨-, rfl⟩, rfl⟩, rfl⟩ := h
    exact ⟨⟨⟨hn, hr⟩, ha⟩, rfl⟩
  · intro h
    obtain ⟨⟨⟨hn, hr⟩, ha⟩, rfl⟩ := h
    exact ⟨_, ⟨_, ⟨hn, rfl⟩, _, ⟨hr, rfl⟩, _, ⟨ha, rfl⟩, _, ⟨hf, rfl⟩, rfl⟩, rfl⟩

theorem searchLabels_value {filter : LabelFilter} {page : Page Label} (hs : 0 < request.size) :
    s.searchLabels t filter request = .value page ↔
      (LegalText filter.name ∧ InRange request.afterID) ∧
      page = cutPage request.size ((lookAheadRows (·.id) t.label
        (labelMatches t.server (asText filter.name)) request).map labelOf) := by
  have hf : 0 ≤ request.fetchSize := by rw [PageRequest.fetchSize]; omega
  simp only [Store.searchLabels, loadPage_eq_value hs, Outcome.bind_value,
    nullable_text_eq_value, integerParameter_eq_value, limitParameter_eq_value,
    searchLabelsSQL, collectRows_columns scanLabel_columns]
  constructor
  · intro h
    obtain ⟨rows, ⟨_, ⟨hn, rfl⟩, _, ⟨ha, rfl⟩, _, ⟨-, rfl⟩, rfl⟩, rfl⟩ := h
    exact ⟨⟨hn, ha⟩, rfl⟩
  · intro h
    obtain ⟨⟨hn, ha⟩, rfl⟩ := h
    exact ⟨_, ⟨_, ⟨hn, rfl⟩, _, ⟨ha, rfl⟩, _, ⟨hf, rfl⟩, rfl⟩, rfl⟩

def LegalMasterFilter (filter : MasterFilter) : Prop :=
  LegalText filter.title ∧ ∀ year ∈ filter.year, InRange year

theorem searchMasters_value {filter : MasterFilter} {page : Page Master}
    (hs : 0 < request.size) : s.searchMasters t filter request = .value page ↔
      (LegalMasterFilter filter ∧ InRange request.afterID) ∧
      page = cutPage request.size ((lookAheadRows (·.id) t.master
        (masterMatches t.server (asText filter.title) filter.year) request).map masterOf) := by
  have hf : 0 ≤ request.fetchSize := by rw [PageRequest.fetchSize]; omega
  simp only [Store.searchMasters, loadPage_eq_value hs, Outcome.bind_value,
    nullable_text_eq_value, nullable_eq_value @integerParameter_eq_value,
    integerParameter_eq_value, limitParameter_eq_value, searchMastersSQL,
    collectRows_columns scanMaster_columns]
  constructor
  · intro h
    obtain ⟨rows, ⟨_, ⟨ht, rfl⟩, _, ⟨hy, rfl⟩, _, ⟨ha, rfl⟩, _, ⟨-, rfl⟩, rfl⟩, rfl⟩ := h
    exact ⟨⟨⟨ht, hy⟩, ha⟩, rfl⟩
  · intro h
    obtain ⟨⟨⟨ht, hy⟩, ha⟩, rfl⟩ := h
    exact ⟨_, ⟨_, ⟨ht, rfl⟩, _, ⟨hy, rfl⟩, _, ⟨ha, rfl⟩, _, ⟨hf, rfl⟩, rfl⟩, rfl⟩

/-- The text is legal, and so are the dates and the month that year and month turn into. -/
def LegalReleaseFilter (filter : ReleaseFilter) : Prop :=
  let window := releaseDateParameters filter.year filter.month
  (LegalText filter.title ∧ LegalText filter.country) ∧
    (∀ d ∈ window.1, DateInRange d) ∧ (∀ d ∈ window.2.1, DateInRange d) ∧
    ∀ m ∈ window.2.2, InRange m

theorem releaseDateParameters_year (year : Int) : releaseDateParameters (some year) none =
    (some (monthStart year 1), some (monthStart (year+1) 1), none) := by
  have hy : (monthStart year 1).year = year := monthStart_year (by omega)
  have hm : ((monthStart year 1).month : Int) = 1 := monthStart_month (by omega)
  simp only [releaseDateParameters, Option.getD_none, hy, hm]

theorem releaseDateParameters_month (year : Int) {m : Int} (hm : 1 ≤ m ∧ m ≤ 12) :
    releaseDateParameters (some year) (some m) =
      (some (monthStart year m), some (monthStart year (m+1)), none) := by
  simp only [releaseDateParameters, Option.getD_some, monthStart_year hm, monthStart_month hm]

theorem monthStart_inRange {year month : Int} (hy : 0 ≤ year ∧ year ≤ 32768)
    (hm : 1 ≤ month ∧ month ≤ 13) : DateInRange (monthStart year month) := by
  simp only [DateInRange, monthStart]
  omega

/-- The dates and the month of a `smallint` year and a month of the calendar are legal. -/
theorem legalWindow {year month : Option Int} (hy : ∀ y ∈ year, 0 ≤ y ∧ y ≤ 32767)
    (hm : ∀ m ∈ month, 1 ≤ m ∧ m ≤ 12) :
    let window := releaseDateParameters year month
    (∀ d ∈ window.1, DateInRange d) ∧ (∀ d ∈ window.2.1, DateInRange d) ∧
      ∀ m ∈ window.2.2, InRange m := by
  cases year with
  | none =>
    refine ⟨nofun, nofun, fun m hmem => ?_⟩
    have := hm m hmem
    exact ⟨by omega, by omega⟩
  | some y =>
    have hy := hy y rfl
    cases month with
    | none =>
      rw [releaseDateParameters_year]
      refine ⟨?_, ?_, nofun⟩
      · intro d h
        cases h
        exact monthStart_inRange (by omega) (by decide)
      · intro d h
        cases h
        exact monthStart_inRange (by omega) (by decide)
    | some m =>
      have hm := hm m rfl
      rw [releaseDateParameters_month y hm]
      refine ⟨?_, ?_, nofun⟩
      · intro d h
        cases h
        exact monthStart_inRange (by omega) (by omega)
      · intro d h
        cases h
        exact monthStart_inRange (by omega) (by omega)

def matchesFilter (server : Server) (filter : ReleaseFilter) (r : ReleaseItemRow) : Bool :=
  let window := releaseDateParameters filter.year filter.month
  releaseMatches server (asText filter.title) (asText filter.country) window.1 window.2.1
    window.2.2 filter.master r

theorem searchReleases_value {filter : ReleaseFilter} {page : Page Release}
    (hs : 0 < request.size) : s.searchReleases t filter request = .value page ↔
      (LegalReleaseFilter filter ∧ InRange request.afterID) ∧
      page = cutPage request.size ((lookAheadRows (·.id) t.releaseItem
        (matchesFilter t.server filter) request).map releaseOf) := by
  have hf : 0 ≤ request.fetchSize := by rw [PageRequest.fetchSize]; omega
  simp only [Store.searchReleases, loadPage_eq_value hs, Outcome.bind_value,
    nullable_text_eq_value, nullable_eq_value @integerParameter_eq_value,
    nullable_eq_value @dateParameter_eq_value, integerParameter_eq_value,
    limitParameter_eq_value, searchReleasesSQL,
    collectRows_columns scanRelease_columns]
  constructor
  · intro h
    obtain ⟨rows, ⟨_, ⟨ht, rfl⟩, _, ⟨hc, rfl⟩, _, ⟨hst, rfl⟩, _, ⟨hfi, rfl⟩, _, ⟨hm, rfl⟩, _, ⟨ha,
      rfl⟩, _, ⟨-, rfl⟩, rfl⟩, rfl⟩ := h
    exact ⟨⟨⟨⟨ht, hc⟩, hst, hfi, hm⟩, ha⟩, rfl⟩
  · intro h
    obtain ⟨⟨⟨⟨ht, hc⟩, hst, hfi, hm⟩, ha⟩, rfl⟩ := h
    exact ⟨_, ⟨_, ⟨ht, rfl⟩, _, ⟨hc, rfl⟩, _, ⟨hst, rfl⟩, _, ⟨hfi, rfl⟩, _, ⟨hm, rfl⟩, _,
      ⟨ha, rfl⟩, _, ⟨hf, rfl⟩, rfl⟩, rfl⟩

end Searches

end OpenDiscogs.Postgres
