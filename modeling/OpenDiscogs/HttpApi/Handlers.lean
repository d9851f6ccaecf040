import OpenDiscogs.HttpApi.ReleaseLookup

/-! The handlers: each reads its parameters and makes one call on the repository, or refuses the
request with a text. -/
namespace OpenDiscogs.HttpApi
open Utf8 UrlQuery Catalog

/-- A call on the repository, with its arguments. -/
inductive Call where
  | snapshot
  | searchArtists (filter : ArtistFilter) (request : PageRequest)
  | artist (id : Int)
  | artistReleases (id : Int) (request : PageRequest)
  | searchLabels (filter : LabelFilter) (request : PageRequest)
  | label (id : Int)
  | labelReleases (id : Int) (request : PageRequest)
  | searchMasters (filter : MasterFilter) (request : PageRequest)
  | master (id : Int)
  | masterReleases (id : Int) (request : PageRequest)
  | searchReleases (filter : ReleaseFilter) (request : PageRequest)
  | releasesByCatalogNumber (lookup : CatalogNumberLookup) (request : PageRequest)
  | releasesByIdentifier (lookup : IdentifierLookup) (request : PageRequest)
  | release (id : Int)
  | releaseTracks (id : Int) (request : HashPageRequest)
  | releaseIdentifiers (id : Int) (request : HashPageRequest)
deriving DecidableEq

abbrev Handler := Request → Except String Call

def SnapshotHandler.get : Handler := fun _ => .ok .snapshot

def ArtistHandler.search : Handler := fun request => do
  let pageRequest ← parseCursorPage request.query
  let name ← optionalSearchTerm (get request.query parameterName) parameterName
  let realName ← optionalSearchTerm (get request.query parameterRealName) parameterRealName
  return .searchArtists { name, realName } pageRequest

/-- A single resource by its path. -/
def getByID (call : Int → Call) : Handler := fun request => do
  let id ← pathID request
  return call id

/-- A page of the releases related to the resource of the path. -/
def pageByID (call : Int → PageRequest → Call) : Handler := fun request => do
  let id ← pathID request
  let pageRequest ← parseCursorPage request.query
  return call id pageRequest

def ArtistHandler.get : Handler := getByID .artist

def ArtistHandler.releases : Handler := pageByID .artistReleases

def LabelHandler.search : Handler := fun request => do
  let pageRequest ← parseCursorPage request.query
  let name ← optionalSearchTerm (get request.query parameterName) parameterName
  return .searchLabels { name } pageRequest

def LabelHandler.get : Handler := getByID .label

def LabelHandler.releases : Handler := pageByID .labelReleases

def MasterHandler.search : Handler := fun request => do
  let pageRequest ← parseCursorPage request.query
  let title ← optionalSearchTerm (get request.query parameterTitle) parameterTitle
  let year ← optionalInt (get request.query parameterYear) 0 maxInt16 parameterYear
  return .searchMasters { title, year } pageRequest

def MasterHandler.get : Handler := getByID .master

def MasterHandler.releases : Handler := pageByID .masterReleases

def ReleaseHandler.search : Handler := fun request => do
  let pageRequest ← parseCursorPage request.query
  match ← parseReleaseLookup request.query with
  | .catalogNumber lookup => return .releasesByCatalogNumber lookup pageRequest
  | .identifier lookup => return .releasesByIdentifier lookup pageRequest
  | .none =>
    let title ← optionalSearchTerm (get request.query parameterTitle) parameterTitle
    let country ← optionalCountry (get request.query parameterCountry)
    let year ← optionalInt (get request.query parameterYear) 0 maxInt16 parameterYear
    let month ← optionalInt (get request.query parameterMonth) 1 12 parameterMonth
    if month.isSome && year.isNone then .error errorMonthRequiresYear
    else
      let master ← optionalBool (get request.query parameterMaster) parameterMaster
      return .searchReleases { title, country, year, month, master } pageRequest

def ReleaseHandler.get : Handler := getByID .release

def releaseChildRequest (request : Request) : Except String (Int × HashPageRequest) := do
  let id ← pathID request
  let pageRequest ← parseHashCursorPage request.query
  return (id, pageRequest)

def ReleaseHandler.tracks : Handler := fun request => do
  let (id, pageRequest) ← releaseChildRequest request
  return .releaseTracks id pageRequest

def ReleaseHandler.identifiers : Handler := fun request => do
  let (id, pageRequest) ← releaseChildRequest request
  return .releaseIdentifiers id pageRequest

theorem getByID_eq_ok {call : Int → Call} {request : Request} {c : Call} :
    getByID call request = .ok c ↔ ∃ id, pathID request = .ok id ∧ c = call id := by
  simp only [getByID, Except.bind_eq_ok]
  constructor
  · intro hparts
    obtain ⟨id, hp, h⟩ := hparts
    cases h
    exact ⟨id, hp, rfl⟩
  · intro hparts
    obtain ⟨id, hp, rfl⟩ := hparts
    exact ⟨id, hp, rfl⟩

theorem pageByID_eq_ok {call : Int → PageRequest → Call} {request : Request} {c : Call} :
    pageByID call request = .ok c ↔ ∃ id, pathID request = .ok id ∧
      ∃ pageRequest, parseCursorPage request.query = .ok pageRequest ∧ c = call id pageRequest := by
  simp only [pageByID, Except.bind_eq_ok]
  constructor
  · intro hparts
    obtain ⟨id, hp, pageRequest, hq, h⟩ := hparts
    cases h
    exact ⟨id, hp, pageRequest, hq, rfl⟩
  · intro hparts
    obtain ⟨id, hp, pageRequest, hq, rfl⟩ := hparts
    exact ⟨id, hp, pageRequest, hq, rfl⟩

theorem releaseChildRequest_eq_ok {request : Request} {id : Int} {pageRequest : HashPageRequest} :
    releaseChildRequest request = .ok (id, pageRequest) ↔
      pathID request = .ok id ∧ parseHashCursorPage request.query = .ok pageRequest := by
  simp only [releaseChildRequest, Except.bind_eq_ok, pure, Except.pure, Except.ok.injEq, Prod.mk.injEq]
  constructor
  · intro h
    obtain ⟨_, hp, _, hq, rfl, rfl⟩ := h
    exact ⟨hp, hq⟩
  · intro h
    obtain ⟨hp, hq⟩ := h
    exact ⟨_, hp, _, hq, rfl, rfl⟩

theorem artists_ok {request : Request} {call : Call}
    (h : ArtistHandler.search request = .ok call) : ∃ pageRequest name realName,
      parseCursorPage request.query = .ok pageRequest ∧
      optionalSearchTerm (get request.query parameterName) parameterName = .ok name ∧
      optionalSearchTerm (get request.query parameterRealName) parameterRealName = .ok realName ∧
      call = .searchArtists { name, realName } pageRequest := by
  obtain ⟨pageRequest, hpage, h⟩ := Except.bind_eq_ok.mp h
  obtain ⟨name, hname, h⟩ := Except.bind_eq_ok.mp h
  obtain ⟨realName, hreal, h⟩ := Except.bind_eq_ok.mp h
  cases h
  exact ⟨pageRequest, name, realName, hpage, hname, hreal, rfl⟩

theorem labels_ok {request : Request} {call : Call}
    (h : LabelHandler.search request = .ok call) : ∃ pageRequest name,
      parseCursorPage request.query = .ok pageRequest ∧
      optionalSearchTerm (get request.query parameterName) parameterName = .ok name ∧
      call = .searchLabels { name } pageRequest := by
  obtain ⟨pageRequest, hpage, h⟩ := Except.bind_eq_ok.mp h
  obtain ⟨name, hname, h⟩ := Except.bind_eq_ok.mp h
  cases h
  exact ⟨pageRequest, name, hpage, hname, rfl⟩

theorem masters_ok {request : Request} {call : Call}
    (h : MasterHandler.search request = .ok call) : ∃ pageRequest title year,
      parseCursorPage request.query = .ok pageRequest ∧
      optionalSearchTerm (get request.query parameterTitle) parameterTitle = .ok title ∧
      optionalInt (get request.query parameterYear) 0 maxInt16 parameterYear = .ok year ∧
      call = .searchMasters { title, year } pageRequest := by
  obtain ⟨pageRequest, hpage, h⟩ := Except.bind_eq_ok.mp h
  obtain ⟨title, htitle, h⟩ := Except.bind_eq_ok.mp h
  obtain ⟨year, hyear, h⟩ := Except.bind_eq_ok.mp h
  cases h
  exact ⟨pageRequest, title, year, hpage, htitle, hyear, rfl⟩

/-- The filters of a release search, all of which parse. -/
structure ParsedFilters (values : Values) (filter : ReleaseFilter) : Prop where
  title : optionalSearchTerm (get values parameterTitle) parameterTitle = .ok filter.title
  country : optionalCountry (get values parameterCountry) = .ok filter.country
  year : optionalInt (get values parameterYear) 0 maxInt16 parameterYear = .ok filter.year
  month : optionalInt (get values parameterMonth) 1 12 parameterMonth = .ok filter.month
  master : optionalBool (get values parameterMaster) parameterMaster = .ok filter.master
  monthYear : ¬(filter.month.isSome && filter.year.isNone) = true

/-- The call that a release search makes for its lookup. -/
inductive SearchesReleases (values : Values) (pageRequest : PageRequest) :
    ReleaseLookup → Call → Prop where
  | catalogNumber (lookup : CatalogNumberLookup) : SearchesReleases values pageRequest
      (.catalogNumber lookup) (.releasesByCatalogNumber lookup pageRequest)
  | identifier (lookup : IdentifierLookup) : SearchesReleases values pageRequest
      (.identifier lookup) (.releasesByIdentifier lookup pageRequest)
  | filters {filter : ReleaseFilter} (h : ParsedFilters values filter) :
      SearchesReleases values pageRequest .none (.searchReleases filter pageRequest)

theorem releases_eq_ok {request : Request} {call : Call} :
    ReleaseHandler.search request = .ok call ↔ ∃ pageRequest lookup,
      parseCursorPage request.query = .ok pageRequest ∧
      parseReleaseLookup request.query = .ok lookup ∧
      SearchesReleases request.query pageRequest lookup call := by
  constructor
  · intro h
    obtain ⟨pageRequest, hpage, h⟩ := Except.bind_eq_ok.mp h
    obtain ⟨lookup, hlookup, h⟩ := Except.bind_eq_ok.mp h
    refine ⟨pageRequest, lookup, hpage, hlookup, ?_⟩
    cases lookup with
    | catalogNumber lookup =>
      cases h
      exact .catalogNumber lookup
    | identifier lookup =>
      cases h
      exact .identifier lookup
    | none =>
      obtain ⟨title, htitle, h⟩ := Except.bind_eq_ok.mp h
      obtain ⟨country, hcountry, h⟩ := Except.bind_eq_ok.mp h
      obtain ⟨year, hyear, h⟩ := Except.bind_eq_ok.mp h
      obtain ⟨month, hmonth, h⟩ := Except.bind_eq_ok.mp h
      split at h
      · cases h
      · next hm =>
        obtain ⟨master, hmaster, h⟩ := Except.bind_eq_ok.mp h
        cases h
        exact .filters ⟨htitle, hcountry, hyear, hmonth, hmaster, hm⟩
  · intro hparts
    obtain ⟨pageRequest, lookup, hpage, hlookup, h⟩ := hparts
    refine Except.bind_eq_ok.mpr ⟨_, hpage, Except.bind_eq_ok.mpr ⟨_, hlookup, ?_⟩⟩
    cases h with
    | catalogNumber => rfl
    | identifier => rfl
    | filters hf =>
      refine Except.bind_eq_ok.mpr ⟨_, hf.title, Except.bind_eq_ok.mpr ⟨_, hf.country,
        Except.bind_eq_ok.mpr ⟨_, hf.year, Except.bind_eq_ok.mpr ⟨_, hf.month, ?_⟩⟩⟩⟩
      rw [if_neg hf.monthYear]
      exact Except.bind_eq_ok.mpr ⟨_, hf.master, rfl⟩

/-- What a successful call sends back. -/
inductive Payload where
  | snapshot (snapshot : CatalogSnapshot)
  | artists (page : PageResponse Artist)
  | artist (detail : ArtistDetail)
  | artistReleases (page : PageResponse ArtistRelease)
  | labels (page : PageResponse Label)
  | label (detail : LabelDetail)
  | labelReleases (page : PageResponse LabelRelease)
  | masters (page : PageResponse Master)
  | master (detail : MasterDetail)
  | masterReleases (page : PageResponse MasterRelease)
  | releases (page : PageResponse Release)
  | release (detail : ReleaseDetail)
  | releaseTracks (page : HashPageResponse ReleaseTrack)
  | releaseIdentifiers (page : HashPageResponse ReleaseIdentifier)

/-- The call made on a repository, and its value made into a payload for the request's path. -/
def Call.run (repository : Repository) (path : Bytes) : Call → Result Payload
  | .snapshot => do return .snapshot (← repository.snapshot)
  | .searchArtists filter request => do
    return .artists (pageResponse (← repository.searchArtists filter request) path)
  | .artist id => do return .artist (← repository.artist id)
  | .artistReleases id request => do
    return .artistReleases (pageResponse (← repository.artistReleases id request) path)
  | .searchLabels filter request => do
    return .labels (pageResponse (← repository.searchLabels filter request) path)
  | .label id => do return .label (← repository.label id)
  | .labelReleases id request => do
    return .labelReleases (pageResponse (← repository.labelReleases id request) path)
  | .searchMasters filter request => do
    return .masters (pageResponse (← repository.searchMasters filter request) path)
  | .master id => do return .master (← repository.master id)
  | .masterReleases id request => do
    return .masterReleases (pageResponse (← repository.masterReleases id request) path)
  | .searchReleases filter request => do
    return .releases (pageResponse (← repository.searchReleases filter request) path)
  | .releasesByCatalogNumber lookup request => do
    return .releases (pageResponse (← repository.releasesByCatalogNumber lookup request) path)
  | .releasesByIdentifier lookup request => do
    return .releases (pageResponse (← repository.releasesByIdentifier lookup request) path)
  | .release id => do return .release (← repository.release id)
  | .releaseTracks id request => do
    return .releaseTracks (hashPageResponse (← repository.releaseTracks id request) path)
  | .releaseIdentifiers id request => do
    return .releaseIdentifiers (hashPageResponse (← repository.releaseIdentifiers id request) path)

end OpenDiscogs.HttpApi
