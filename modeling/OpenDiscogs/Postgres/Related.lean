import OpenDiscogs.Library.Strconv
import OpenDiscogs.Postgres.Search

/-! The releases of an artist, of a label and of a master. -/
namespace OpenDiscogs.Postgres
open Utf8 SqlText Calendar Catalog Rows Keyset

abbrev ArtistReleaseColumns :=
  Int × Option Text × Option Text × Option Text × Option Text × Option Int × Option Int ×
    Option Int × Option Text × Option Bool × Option Int × Option Text × Option Text

abbrev LabelReleaseColumns :=
  Int × Option Text × Option Text × Option Int × Option Text × List (Option Text) × Option Text

abbrev MasterReleaseColumns :=
  Int × Option Text × List (Option Text) × List Int × Option Int

/-- `fmt.Sprintf("%s/releases/%d", s.serverURL, id)` -/
def Store.releaseURL (s : Store) (id : Int) : Bytes :=
  s.serverURL.bytes ++ lit "/releases/" ++ Strconv.formatInt id

def Store.scanArtistRelease (s : Store) : ArtistReleaseColumns → Result ArtistRelease
  | (id, role, title, country, dataQuality, releasedYear, releasedMonth, releasedDay,
      listedReleaseDate, isMaster, masterID, notes, status) =>
    .value { id, role, title, country, dataQuality, releasedYear, releasedMonth, releasedDay,
             listedReleaseDate, isMaster, masterID, notes, status, resourceURL := s.releaseURL id }

def scanLabelRelease : LabelReleaseColumns → Result LabelRelease
  | (id, artist, title, year, status, catalogNumbers, format) => do
    let catalogNumbers ← scanTextArray catalogNumbers
    return { id, artist, title, year, status, catalogNumbers, format }

def Store.scanMasterRelease (s : Store) : MasterReleaseColumns → Result MasterRelease
  | (id, title, artists, artistIDs, year) => do
    let artists ← scanTextArray artists
    return { id, title, artists, artistIDs, year, resourceURL := s.releaseURL id }

def mainRole : Text := Text.of "Main"

/-- The releases above the cursor on which the artist is a main artist, up to the limit. -/
def mainReleases (t : Tables) (artistID afterID : Int) (limit : Nat) : List Int :=
  let selected := t.releaseItemArtist.filter fun r =>
    r.artistID = artistID && afterID < r.releaseItemID
  ((orderBy (·.releaseItemID) selected).take limit).map (·.releaseItemID)

/-- The releases above the cursor on which the artist is credited, up to the limit. -/
def creditedReleases (t : Tables) (artistID afterID : Int) (limit : Nat) : List Int :=
  let selected := t.releaseItemCreditedArtist.filter fun r =>
    r.artistID = artistID && afterID < r.releaseItemID
  (distinct (selected.map (·.releaseItemID))).take limit

/-- The union of both branches, each of them limited already. -/
def matchingArtistReleases (t : Tables) (artistID afterID : Int) (limit : Nat) : List Int :=
  (distinct (mainReleases t artistID afterID limit ++ creditedReleases t artistID afterID limit)).take
    limit

/-- Every role the artist has on a release: one for each row of the two relations. -/
def relatedRoles (t : Tables) (artistID releaseID : Int) : List (Option Text) :=
  (t.releaseItemArtist.filter fun r => r.artistID = artistID && r.releaseItemID = releaseID).map
    (fun _ => some mainRole) ++
  (t.releaseItemCreditedArtist.filter fun r =>
    r.artistID = artistID && r.releaseItemID = releaseID).map (·.role)

/-- `string_agg(DISTINCT trim(role), ',' ORDER BY trim(role))` -/
def aggregateRoles (server : Server) (roles : List (Option Text)) : Option Text :=
  stringAgg server (roles.map (·.map Text.trim))

/-- One row for each matching release that has related rows, with its roles aggregated. -/
def aggregatedRoles (t : Tables) (artistID : Int) (matching : List Int) :
    List (Int × Option Text) :=
  matching.filterMap fun releaseID => match relatedRoles t artistID releaseID with
    | [] => none
    | role::roles => some (releaseID, aggregateRoles t.server (role::roles))

def artistReleaseColumns (role : Option Text) (r : ReleaseItemRow) : ArtistReleaseColumns :=
  (r.id, role, r.title, r.country, r.dataQuality,
    extractWhen r.hasValidYear Date.extractYear r.releaseDate,
    extractWhen r.hasValidMonth Date.extractMonth r.releaseDate,
    extractWhen r.hasValidDay Date.extractDay r.releaseDate,
    r.listedReleaseDate, r.isMaster, r.masterID, r.notes, r.status)

/-- The aggregated releases joined with their rows. -/
def joinReleases (t : Tables) (aggregated : List (Int × Option Text)) :
    List (Option Text × ReleaseItemRow) :=
  aggregated.flatMap fun aggregate =>
    (t.releaseItem.filter (·.id = aggregate.1)).map fun r => (aggregate.2, r)

def artistReleasesSQL (t : Tables) (artistID afterID : Int) (limit : Nat) :
    List ArtistReleaseColumns :=
  let matching := matchingArtistReleases t artistID afterID limit
  let aggregated := aggregatedRoles t artistID matching
  let selected := (joinReleases t aggregated).filter fun row => afterID < row.2.id
  ((orderBy (·.2.id) selected).take limit).map fun row => artistReleaseColumns row.1 row.2

/-- The main artists of a release: its relation rows joined with the artists. -/
def mainArtists (t : Tables) (releaseID : Int) : List ArtistRow :=
  (t.releaseItemArtist.filter (·.releaseItemID = releaseID)).flatMap fun relation =>
    t.artist.filter (·.id = relation.artistID)

/-- The catalog numbers a label gives a release, each once, in the order of the collation. -/
def catalogNumbers (t : Tables) (labelID releaseID : Int) : List Text :=
  let selected := t.labelReleaseItem.filter fun relation =>
    relation.labelID = labelID && relation.releaseItemID = releaseID
  sortedDistinct t.server (selected.filterMap (·.categoryNotation))

def labelReleaseColumns (t : Tables) (labelID : Int) (r : ReleaseItemRow) : LabelReleaseColumns :=
  (r.id, stringAgg t.server ((mainArtists t r.id).map (·.name)), r.title,
    extractWhen r.hasValidYear Date.extractYear r.releaseDate, r.status,
    (catalogNumbers t labelID r.id).map some,
    stringAgg t.server
      ((t.releaseItemFormat.filter (·.releaseItemID = r.id)).map (·.description)))

def matchingLabelReleases (t : Tables) (labelID afterID : Int) (limit : Nat) : List Int :=
  let selected := t.labelReleaseItem.filter fun relation =>
    relation.labelID = labelID && afterID < relation.releaseItemID
  (distinct (selected.map (·.releaseItemID))).take limit

def labelReleasesSQL (t : Tables) (labelID afterID : Int) (limit : Nat) :
    List LabelReleaseColumns :=
  let matching := matchingLabelReleases t labelID afterID limit
  (orderBy (·.id) (join (·.id) matching t.releaseItem)).map (labelReleaseColumns t labelID)

/-- Both arrays list the main artists by ascending identifier; unnamed artists are nulls. -/
def masterReleaseColumns (t : Tables) (r : ReleaseItemRow) : MasterReleaseColumns :=
  let artists := orderBy (·.id) (mainArtists t r.id)
  (r.id, r.title, artists.map (·.name), artists.map (·.id),
    extractWhen r.hasValidYear Date.extractYear r.releaseDate)

/-- The releases of a master above the cursor, up to the limit. -/
def limitedMasterReleases (t : Tables) (masterID afterID : Int) (limit : Nat) :
    List ReleaseItemRow :=
  let selected := t.releaseItem.filter fun r => r.masterID = some masterID && afterID < r.id
  (orderBy (·.id) selected).take limit

def masterReleasesSQL (t : Tables) (masterID afterID : Int) (limit : Nat) :
    List MasterReleaseColumns :=
  (limitedMasterReleases t masterID afterID limit).map (masterReleaseColumns t)

def queryArtistReleasesError := "query artist releases"
def queryLabelReleasesError := "query label releases"
def queryMasterReleasesError := "query master releases"

/-- A relation is read with the identifier of its parent in place of a filter. -/
def loadRelated {α β : Type} (operation : String) (scanner : α → Result β)
    (sql : Int → Int → Nat → List α) (id : Int) (request : PageRequest) : Result (Page β) :=
  loadPage request.size (operationError operation do
    let id ← integerParameter id
    let afterID ← integerParameter request.afterID
    let limit ← limitParameter request.fetchSize
    collectRows scanner (sql id afterID limit))

def Store.artistReleases (s : Store) (t : Tables) (id : Int) (request : PageRequest) :
    Result (Page ArtistRelease) :=
  loadRelated queryArtistReleasesError s.scanArtistRelease (artistReleasesSQL t) id request

def Store.labelReleases (_ : Store) (t : Tables) (id : Int) (request : PageRequest) :
    Result (Page LabelRelease) :=
  loadRelated queryLabelReleasesError scanLabelRelease (labelReleasesSQL t) id request

def Store.masterReleases (s : Store) (t : Tables) (id : Int) (request : PageRequest) :
    Result (Page MasterRelease) :=
  loadRelated queryMasterReleasesError s.scanMasterRelease (masterReleasesSQL t) id request

end OpenDiscogs.Postgres
