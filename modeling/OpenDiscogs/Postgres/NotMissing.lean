import OpenDiscogs.Postgres.Related
import OpenDiscogs.Postgres.ReleaseLookup
import OpenDiscogs.Postgres.Snapshot

/-! Reads that may fail, but never because something is not found: the collections and the
snapshot. -/
namespace OpenDiscogs.Postgres
open Utf8 SqlText Calendar Catalog Rows

section Parts
variable {α β : Type}

/-- Whatever a read fails with, it is not that something is missing. -/
def NotMissing (r : Result α) : Prop := ∀ e, r = .error e → e.is .notFound = false

theorem notMissing_value (a : α) : NotMissing (.value a : Result α) := nofun

theorem notMissing_panic : NotMissing (.panic : Result α) := nofun

theorem notMissing_other (message : String) : NotMissing (.error (.other message) : Result α) := by
  intro e h
  cases h
  rw [Fault.is]

theorem NotMissing.bind {r : Result α} {f : α → Result β} (hr : NotMissing r)
    (hf : ∀ a, NotMissing (f a)) : NotMissing (r >>= f) := by
  intro e h
  obtain he | ⟨a, -, he⟩ := Outcome.bind_error.mp h
  · exact hr e he
  · exact hf a e he

theorem NotMissing.operationError {r : Result α} (h : NotMissing r) (operation : String) :
    NotMissing (operationError operation r) := by
  intro e he
  cases r with
  | value a => cases he
  | panic => cases he
  | error inner =>
    cases he
    rw [Fault.is_wrap]
    exact h inner rfl

theorem notMissing_text (s : Bytes) : NotMissing (textParameter s) := by
  unfold textParameter
  split
  · exact notMissing_value _
  · exact notMissing_other _

theorem notMissing_integer (n : Int) : NotMissing (integerParameter n) := by
  unfold integerParameter
  split
  · exact notMissing_value _
  · exact notMissing_other _

theorem notMissing_date (d : Date) : NotMissing (dateParameter d) := by
  unfold dateParameter
  split
  · exact notMissing_value _
  · exact notMissing_other _

theorem notMissing_limit (n : Int) : NotMissing (limitParameter n) := by
  unfold limitParameter
  split
  · exact notMissing_other _
  · exact notMissing_value _

theorem notMissing_nullable {parameter : α → Result β} (h : ∀ a, NotMissing (parameter a))
    (o : Option α) : NotMissing (nullable parameter o) := by
  cases o with
  | none => exact notMissing_value _
  | some a => exact (h a).bind fun b => notMissing_value _

theorem notMissing_rows {scanner : α → Result β} (h : ∀ row, NotMissing (scanner row))
    (rows : List α) : NotMissing (collectRows scanner rows) := by
  induction rows with
  | nil => exact notMissing_value _
  | cons row rows ih => exact (h row).bind fun item => ih.bind fun items => notMissing_value _

theorem notMissing_textArray (xs : List (Option Text)) : NotMissing (scanTextArray xs) := by
  refine notMissing_rows (fun x => ?_) xs
  cases x with
  | none => exact notMissing_other _
  | some t => exact notMissing_value _

theorem NotMissing.loadPage {r : Result (List α)} (h : NotMissing r) (size : Int) :
    NotMissing (loadPage size r) := by
  refine h.bind fun items => ?_
  unfold newPage lookAhead slice
  split
  · split
    · exact notMissing_panic
    · exact notMissing_value _
  · exact notMissing_value _

end Parts

section Reads
variable (s : Store) (t : Tables)

theorem searchArtists_notMissing (filter : ArtistFilter) (request : PageRequest) :
    NotMissing (s.searchArtists t filter request) := by
  refine NotMissing.loadPage (NotMissing.operationError ?_ _) _
  exact (notMissing_nullable notMissing_text _).bind fun name =>
    (notMissing_nullable notMissing_text _).bind fun realName =>
    (notMissing_integer _).bind fun afterID => (notMissing_limit _).bind fun limit =>
    notMissing_rows (fun row => notMissing_value _) _

theorem searchLabels_notMissing (filter : LabelFilter) (request : PageRequest) :
    NotMissing (s.searchLabels t filter request) := by
  refine NotMissing.loadPage (NotMissing.operationError ?_ _) _
  exact (notMissing_nullable notMissing_text _).bind fun name =>
    (notMissing_integer _).bind fun afterID => (notMissing_limit _).bind fun limit =>
    notMissing_rows (fun row => notMissing_value _) _

theorem searchMasters_notMissing (filter : MasterFilter) (request : PageRequest) :
    NotMissing (s.searchMasters t filter request) := by
  refine NotMissing.loadPage (NotMissing.operationError ?_ _) _
  exact (notMissing_nullable notMissing_text _).bind fun title =>
    (notMissing_nullable notMissing_integer _).bind fun year =>
    (notMissing_integer _).bind fun afterID => (notMissing_limit _).bind fun limit =>
    notMissing_rows (fun row => notMissing_value _) _

theorem searchReleases_notMissing (filter : ReleaseFilter) (request : PageRequest) :
    NotMissing (s.searchReleases t filter request) := by
  refine NotMissing.loadPage (NotMissing.operationError ?_ _) _
  exact (notMissing_nullable notMissing_text _).bind fun title =>
    (notMissing_nullable notMissing_text _).bind fun country =>
    (notMissing_nullable notMissing_date _).bind fun start =>
    (notMissing_nullable notMissing_date _).bind fun finish =>
    (notMissing_nullable notMissing_integer _).bind fun month =>
    (notMissing_integer _).bind fun afterID => (notMissing_limit _).bind fun limit =>
    notMissing_rows (fun row => notMissing_value _) _

theorem releasesByCatalogNumber_notMissing (lookup : CatalogNumberLookup) (request : PageRequest) :
    NotMissing (s.releasesByCatalogNumber t lookup request) := by
  refine NotMissing.loadPage (NotMissing.operationError ?_ _) _
  exact (notMissing_integer _).bind fun labelID => (notMissing_text _).bind fun catalogNumber =>
    (notMissing_integer _).bind fun afterID => (notMissing_limit _).bind fun limit =>
    notMissing_rows (fun row => notMissing_value _) _

theorem releasesByIdentifier_notMissing (lookup : IdentifierLookup) (request : PageRequest) :
    NotMissing (s.releasesByIdentifier t lookup request) := by
  refine NotMissing.loadPage (NotMissing.operationError ?_ _) _
  exact (notMissing_text _).bind fun type => (notMissing_text _).bind fun value =>
    (notMissing_integer _).bind fun afterID => (notMissing_limit _).bind fun limit =>
    notMissing_rows (fun row => notMissing_value _) _

theorem loadRelated_notMissing {α β : Type} {operation : String} {scanner : α → Result β}
    (h : ∀ row, NotMissing (scanner row)) (sql : Int → Int → Nat → List α) (id : Int)
    (request : PageRequest) : NotMissing (loadRelated operation scanner sql id request) := by
  refine NotMissing.loadPage (NotMissing.operationError ?_ _) _
  exact (notMissing_integer _).bind fun id => (notMissing_integer _).bind fun afterID =>
    (notMissing_limit _).bind fun limit => notMissing_rows h _

theorem artistReleases_notMissing (id : Int) (request : PageRequest) :
    NotMissing (s.artistReleases t id request) :=
  loadRelated_notMissing (fun _ => notMissing_value _) _ id request

theorem labelReleases_notMissing (id : Int) (request : PageRequest) :
    NotMissing (s.labelReleases t id request) :=
  loadRelated_notMissing (fun _ => (notMissing_textArray _).bind fun _ => notMissing_value _) _ id
    request

theorem masterReleases_notMissing (id : Int) (request : PageRequest) :
    NotMissing (s.masterReleases t id request) :=
  loadRelated_notMissing (fun _ => (notMissing_textArray _).bind fun _ => notMissing_value _) _ id
    request

theorem snapshot_notMissing (state : SnapshotTables) : NotMissing (Store.snapshot state) := by
  refine ((notMissing_rows (fun row => notMissing_value _) _).operationError _).bind fun rows => ?_
  cases rows with
  | nil => exact notMissing_other _
  | cons row rows => exact notMissing_value _

end Reads
end OpenDiscogs.Postgres
