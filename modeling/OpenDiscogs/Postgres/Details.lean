import OpenDiscogs.Postgres.Related

/-! One release with everything attached to it. -/
namespace OpenDiscogs.Postgres
open Utf8 SqlText Calendar Catalog Rows

abbrev ReleaseDetailColumns :=
  Int × Option Text × Option Text × Option Text × Option Int × Option Int × Option Int ×
    Option Text × Option Bool × Option Int × Option Text × Option Text ×
    List ReleaseArtist × List ReleaseLabel × List ReleaseLabel × List ReleaseFormat ×
    List Text × List Text × List ReleaseVideo

def scanReleaseDetail : ReleaseDetailColumns → Result ReleaseDetail
  | (id, title, country, dataQuality, releasedYear, releasedMonth, releasedDay, listedReleaseDate,
      isMaster, masterID, notes, status, artists, labels, companies, formats, styles, genres,
      videos) =>
    .value { id, title, country, dataQuality, releasedYear, releasedMonth, releasedDay,
             listedReleaseDate, isMaster, masterID, notes, status, artists, labels, companies,
             formats, styles, genres, videos }

/-- `$2 || '/artists/' || id` and its likes, as the client reads them. -/
def linkTo (serverURL : Text) (collection : String) (id : Int) : Bytes :=
  serverURL.bytes ++ lit collection ++ Strconv.formatInt id

/-- The main and the credited rows of a release, main ones with the role `Main`. -/
def artistRelations (t : Tables) (releaseID : Int) : List (Int × Option Text) :=
  (t.releaseItemArtist.filter (·.releaseItemID = releaseID)).map
    (fun r => (r.artistID, some mainRole)) ++
  (t.releaseItemCreditedArtist.filter (·.releaseItemID = releaseID)).map
    (fun r => (r.artistID, r.role))

/-- The relations joined with their artists: identifier, name and role of each pair. -/
def joinedArtists (t : Tables) (releaseID : Int) : List ((Int × Option Text) × Option Text) :=
  (artistRelations t releaseID).flatMap fun (artistID, role) =>
    (t.artist.filter (·.id = artistID)).map fun artist => ((artist.id, artist.name), role)

/-- `GROUP BY artist.id, artist.name`: one entry for each group, with the roles of its rows. -/
def releaseArtistsSQL (t : Tables) (serverURL : Text) (releaseID : Int) : List ReleaseArtist :=
  let joined := joinedArtists t releaseID
  ((joined.map (·.1)).dedup).map fun (id, name) =>
    { id, name
      role := aggregateRoles t.server ((joined.filter (·.1 = (id, name))).map (·.2))
      resourceURL := linkTo serverURL "/artists/" id }

/-- Relation rows joined with their labels, one entry for each pair. -/
def labelEntries {ρ : Type} (t : Tables) (serverURL : Text) (labelID : ρ → Int)
    (catno : ρ → Option Text) (relations : List ρ) : List ReleaseLabel :=
  relations.flatMap fun relation =>
    (t.label.filter (·.id = labelID relation)).map fun label =>
      { id := label.id, name := label.name, categoryNotation := catno relation
        resourceURL := linkTo serverURL "/labels/" label.id }

def releaseLabelsSQL (t : Tables) (serverURL : Text) (releaseID : Int) : List ReleaseLabel :=
  labelEntries t serverURL (·.labelID) (·.categoryNotation)
    (t.labelReleaseItem.filter (·.releaseItemID = releaseID))

def releaseCompaniesSQL (t : Tables) (serverURL : Text) (releaseID : Int) : List ReleaseLabel :=
  labelEntries t serverURL (·.labelID) (·.work)
    (t.releaseItemWork.filter (·.releaseItemID = releaseID))

/-- `string_to_array(t, ',')`; the empty text has no parts. -/
def stringToArray (t : Text) : List Text :=
  if t.chars = [] then []
  else (t.chars.splitOn ',').filterMap fun part =>
    if legal : nul ∉ part then some ⟨part, legal⟩ else none

/-- `quantity::text` -/
def integerText (n : Int) : Option Text := ofBytes (Strconv.formatInt n)

def releaseFormatsSQL (t : Tables) (releaseID : Int) : List ReleaseFormat :=
  (t.releaseItemFormat.filter (·.releaseItemID = releaseID)).map fun format =>
    { name := format.name
      quantity := format.quantityText.or (format.quantity.bind integerText)
      descriptions := match format.description with
        | none => []
        | some description => stringToArray description }

def releaseDetailColumns (t : Tables) (serverURL : Text) (r : ReleaseItemRow) :
    ReleaseDetailColumns :=
  (r.id, r.title, r.country, r.dataQuality,
    extractWhen r.hasValidYear Date.extractYear r.releaseDate,
    extractWhen r.hasValidMonth Date.extractMonth r.releaseDate,
    extractWhen r.hasValidDay Date.extractDay r.releaseDate,
    r.listedReleaseDate, r.isMaster, r.masterID, r.notes, r.status,
    releaseArtistsSQL t serverURL r.id, releaseLabelsSQL t serverURL r.id,
    releaseCompaniesSQL t serverURL r.id, releaseFormatsSQL t r.id,
    (t.releaseItemStyle.filter (·.releaseItemID = r.id)).map (·.style),
    (t.releaseItemGenre.filter (·.releaseItemID = r.id)).map (·.genre),
    (t.releaseItemVideo.filter (·.releaseItemID = r.id)).map fun video =>
      { title := video.title, url := video.url, description := video.description })

/-- The single row a query by identifier returns. -/
def queryRow {α β : Type} (scanner : α → Result β) : List α → Result β
  | [] => .error (.sentinel .noRows)
  | row::_ => scanner row

def Store.release (s : Store) (t : Tables) (id : Int) : Result ReleaseDetail :=
  let detail : Result ReleaseDetail := do
    let id ← integerParameter id
    let rows := t.releaseItem.filter (·.id = id)
    queryRow scanReleaseDetail (rows.map (releaseDetailColumns t s.serverURL))
  match detail with
  | .error e => .error (notFound e)
  | r => r

end OpenDiscogs.Postgres
