import OpenDiscogs.Postgres.Store

/-! The four searches: their statements, the columns they select and the filters they apply. -/
namespace OpenDiscogs.Postgres
open Utf8 SqlText Calendar Catalog Rows Keyset

abbrev ArtistColumns := Int × Option Text × Option Text × Option Text × Option Text

def scanArtist : ArtistColumns → Result Artist
  | (id, name, realName, profile, dataQuality) => .value { id, name, realName, profile, dataQuality }

abbrev LabelColumns := Int × Option Text × Option Text × Option Text × Option Text

def scanLabel : LabelColumns → Result Label
  | (id, contactInfo, dataQuality, name, profile) =>
    .value { id, contactInfo, dataQuality, name, profile }

abbrev MasterColumns := Int × Option Text × Option Text × Option Int

def scanMaster : MasterColumns → Result Master
  | (id, dataQuality, title, releasedYear) => .value { id, dataQuality, title, releasedYear }

abbrev ReleaseColumns :=
  Int × Option Text × Option Text × Option Text × Option Int × Option Int × Option Int ×
    Option Text × Option Bool × Option Int × Option Text × Option Text

def scanRelease : ReleaseColumns → Result Release
  | (id, title, country, dataQuality, releasedYear, releasedMonth, releasedDay, listedReleaseDate,
      isMaster, masterID, notes, status) =>
    .value { id, title, country, dataQuality, releasedYear, releasedMonth, releasedDay,
             listedReleaseDate, isMaster, masterID, notes, status }

/-- `CASE WHEN valid THEN extract(... FROM date) END` -/
def extractWhen (valid : Option Bool) (extract : Date → Int) (date : Option Date) : Option Int :=
  if valid = some true then date.map extract else none

def releaseColumnsSQL (r : ReleaseItemRow) : ReleaseColumns :=
  (r.id, r.title, r.country, r.dataQuality,
    extractWhen r.hasValidYear Date.extractYear r.releaseDate,
    extractWhen r.hasValidMonth Date.extractMonth r.releaseDate,
    extractWhen r.hasValidDay Date.extractDay r.releaseDate,
    r.listedReleaseDate, r.isMaster, r.masterID, r.notes, r.status)

/-- `p.term IS NULL OR column ILIKE '%' || p.term || '%'`; a null column does not match. -/
def containsTerm (server : Server) (term column : Option Text) : Bool :=
  match term, column with
  | none, _ => true
  | some _, none => false
  | some p, some t => ilike server t (substringPattern p)

/-- `p IS NULL OR holds`, where a comparison with a null column is not true. -/
def unlessNull {α β : Type} (p : Option α) (column : Option β) (holds : α → β → Bool) : Bool :=
  match p, column with
  | none, _ => true
  | some _, none => false
  | some a, some b => holds a b

def artistMatches (server : Server) (name realName : Option Text) (a : ArtistRow) : Bool :=
  containsTerm server name a.name && containsTerm server realName a.realName

def artistColumns (a : ArtistRow) : ArtistColumns :=
  (a.id, a.name, a.realName, a.profile, a.dataQuality)

def searchArtistsSQL (t : Tables) (name realName : Option Text) (afterID : Int) (limit : Nat) :
    List ArtistColumns :=
  let selected := t.artist.filter fun a => artistMatches t.server name realName a && afterID < a.id
  ((orderBy (·.id) selected).take limit).map artistColumns

def labelMatches (server : Server) (name : Option Text) (l : LabelRow) : Bool :=
  containsTerm server name l.name

def labelColumns (l : LabelRow) : LabelColumns :=
  (l.id, l.contactInfo, l.dataQuality, l.name, l.profile)

def searchLabelsSQL (t : Tables) (name : Option Text) (afterID : Int) (limit : Nat) :
    List LabelColumns :=
  let selected := t.label.filter fun l => labelMatches t.server name l && afterID < l.id
  ((orderBy (·.id) selected).take limit).map labelColumns

def masterMatches (server : Server) (title : Option Text) (year : Option Int) (m : MasterRow) :
    Bool :=
  containsTerm server title m.title && unlessNull year m.year (fun p y => y = p)

def masterColumns (m : MasterRow) : MasterColumns := (m.id, m.dataQuality, m.title, m.year)

def searchMastersSQL (t : Tables) (title : Option Text) (year : Option Int) (afterID : Int)
    (limit : Nat) : List MasterColumns :=
  let selected := t.master.filter fun m => masterMatches t.server title year m && afterID < m.id
  ((orderBy (·.id) selected).take limit).map masterColumns

/-- `release_date >= start AND release_date < end`; a null bound makes the comparison null. -/
def withinDates (start finish date : Option Date) : Bool :=
  match start, finish, date with
  | some s, some f, some d => !d.before s && d.before f
  | _, _, _ => false

def releaseMatches (server : Server) (title country : Option Text) (start finish : Option Date)
    (month : Option Int) (isMaster : Option Bool) (r : ReleaseItemRow) : Bool :=
  containsTerm server title r.title &&
  unlessNull country r.country (fun p c => c.lower server = p.lower server) &&
  (start.isNone || (r.hasValidYear = some true && withinDates start finish r.releaseDate)) &&
  (month.isNone || (r.hasValidMonth = some true &&
    r.releaseDate.map Date.extractMonth = month)) &&
  unlessNull isMaster r.isMaster (fun p m => m = p)

def searchReleasesSQL (t : Tables) (title country : Option Text) (start finish : Option Date)
    (month : Option Int) (isMaster : Option Bool) (afterID : Int) (limit : Nat) :
    List ReleaseColumns :=
  let selected := t.releaseItem.filter fun r =>
    releaseMatches t.server title country start finish month isMaster r && afterID < r.id
  ((orderBy (·.id) selected).take limit).map releaseColumnsSQL

def queryArtistsError := "query artists"
def queryLabelsError := "query labels"
def queryMastersError := "query masters"
def queryReleasesError := "query releases"

def Store.searchArtists (_ : Store) (t : Tables) (filter : ArtistFilter) (request : PageRequest) :
    Result (Page Artist) :=
  let name := optionalText filter.name
  let realName := optionalText filter.realName
  loadPage request.size (operationError queryArtistsError do
    let name ← nullable textParameter name
    let realName ← nullable textParameter realName
    let afterID ← integerParameter request.afterID
    let limit ← limitParameter request.fetchSize
    collectRows scanArtist (searchArtistsSQL t name realName afterID limit))

def Store.searchLabels (_ : Store) (t : Tables) (filter : LabelFilter) (request : PageRequest) :
    Result (Page Label) :=
  let name := optionalText filter.name
  loadPage request.size (operationError queryLabelsError do
    let name ← nullable textParameter name
    let afterID ← integerParameter request.afterID
    let limit ← limitParameter request.fetchSize
    collectRows scanLabel (searchLabelsSQL t name afterID limit))

def Store.searchMasters (_ : Store) (t : Tables) (filter : MasterFilter) (request : PageRequest) :
    Result (Page Master) :=
  let title := optionalText filter.title
  loadPage request.size (operationError queryMastersError do
    let title ← nullable textParameter title
    let year ← nullable integerParameter filter.year
    let afterID ← integerParameter request.afterID
    let limit ← limitParameter request.fetchSize
    collectRows scanMaster (searchMastersSQL t title year afterID limit))

/-- A year selects a range of dates, of one month when a month comes with it; a month alone is
passed on as it is. `AddDate` on the first of a month moves to the first of another. -/
def releaseDateParameters (year month : Option Int) : Option Date × Option Date × Option Int :=
  match year with
  | none => (none, none, month)
  | some y =>
    let selectedMonth := month.getD 1
    let start := monthStart y selectedMonth
    let finish := match month with
      | none => monthStart (start.year+1) start.month
      | some _ => monthStart start.year (start.month+1)
    (some start, some finish, none)

def Store.searchReleases (_ : Store) (t : Tables) (filter : ReleaseFilter)
    (request : PageRequest) : Result (Page Release) :=
  let title := optionalText filter.title
  let country := optionalText filter.country
  let (start, finish, month) := releaseDateParameters filter.year filter.month
  loadPage request.size (operationError queryReleasesError do
    let title ← nullable textParameter title
    let country ← nullable textParameter country
    let start ← nullable dateParameter start
    let finish ← nullable dateParameter finish
    let month ← nullable integerParameter month
    let afterID ← integerParameter request.afterID
    let limit ← limitParameter request.fetchSize
    collectRows scanRelease
      (searchReleasesSQL t title country start finish month filter.master afterID limit))

end OpenDiscogs.Postgres
