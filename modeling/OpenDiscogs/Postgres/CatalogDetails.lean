import OpenDiscogs.Postgres.Details

/-! One artist, one label and one master with everything attached to them. -/
namespace OpenDiscogs.Postgres
open Utf8 SqlText Catalog Rows

structure ArtistMemberRow where
  artistID : Int
  memberID : Int

structure ArtistGroupRow where
  artistID : Int
  groupID : Int

structure ArtistAliasRow where
  artistID : Int
  aliasID : Int

structure ArtistNameVariationRow where
  artistID : Int
  nameVariation : Text

structure ArtistURLRow where
  artistID : Int
  url : Text

structure LabelSubLabelRow where
  parentLabelID : Int
  subLabelID : Int

structure LabelURLRow where
  labelID : Int
  url : Text

structure MasterArtistRow where
  masterID : Int
  artistID : Int

structure MasterGenreRow where
  masterID : Int
  genre : Text

structure MasterStyleRow where
  masterID : Int
  style : Text

structure MasterVideoRow where
  masterID : Int
  url : Option Text := none
  description : Option Text := none
  title : Option Text := none

/-- The tables with those that only these details are read from. -/
structure DetailTables extends Tables where
  artistMember : List ArtistMemberRow := []
  artistGroup : List ArtistGroupRow := []
  artistAlias : List ArtistAliasRow := []
  artistNameVariation : List ArtistNameVariationRow := []
  artistURL : List ArtistURLRow := []
  labelSubLabel : List LabelSubLabelRow := []
  labelURL : List LabelURLRow := []
  masterArtist : List MasterArtistRow := []
  masterGenre : List MasterGenreRow := []
  masterStyle : List MasterStyleRow := []
  masterVideo : List MasterVideoRow := []
  /-- The column `main_release_id` of a master. -/
  mainReleaseID : Int → Option Int := fun _ => none

/-- `fmt.Sprintf("%s/artists/%d", s.serverURL, id)` -/
def Store.artistURL (s : Store) (id : Int) : Bytes :=
  s.serverURL.bytes ++ lit "/artists/" ++ Strconv.formatInt id

/-- `fmt.Sprintf("%s/labels/%d", s.serverURL, id)` -/
def Store.labelURL (s : Store) (id : Int) : Bytes :=
  s.serverURL.bytes ++ lit "/labels/" ++ Strconv.formatInt id

/-- Relation rows joined with their artists, one reference for each pair. -/
def artistReferences {ρ : Type} (t : Tables) (serverURL : Text) (artistID : ρ → Int)
    (relations : List ρ) : List ArtistReference :=
  relations.flatMap fun relation =>
    (t.artist.filter (·.id = artistID relation)).map fun related =>
      { id := related.id, name := related.name
        resourceURL := linkTo serverURL "/artists/" related.id }

def labelReference (serverURL : Text) (label : LabelRow) : LabelReference :=
  { id := label.id, name := label.name, resourceURL := linkTo serverURL "/labels/" label.id }

abbrev ArtistDetailColumns :=
  Int × Option Text × Option Text × Option Text × Option Text × List ArtistReference ×
    List ArtistReference × List ArtistReference × List Text × List Text

def artistDetailColumns (t : DetailTables) (serverURL : Text) (a : ArtistRow) :
    ArtistDetailColumns :=
  (a.id, a.name, a.realName, a.profile, a.dataQuality,
    artistReferences t.toTables serverURL (·.memberID)
      (t.artistMember.filter (·.artistID = a.id)),
    artistReferences t.toTables serverURL (·.groupID) (t.artistGroup.filter (·.artistID = a.id)),
    artistReferences t.toTables serverURL (·.aliasID) (t.artistAlias.filter (·.artistID = a.id)),
    (t.artistNameVariation.filter (·.artistID = a.id)).map (·.nameVariation),
    (t.artistURL.filter (·.artistID = a.id)).map (·.url))

/-- The two links of the artist itself are made after the scan, of the identifier asked for. -/
def Store.scanArtistDetail (s : Store) (id : Int) : ArtistDetailColumns → Result ArtistDetail
  | (rowID, name, realName, profile, dataQuality, members, groups, aliases, nameVariations, urls) =>
    .value { id := rowID, name, realName, profile, dataQuality, members, groups, aliases,
             nameVariations, urls, uri := s.artistURL id,
             releaseURL := s.artistURL id ++ lit "/releases" }

abbrev LabelDetailColumns :=
  Int × Option Text × Option Text × Option Text × Option Text × Option LabelReference ×
    List LabelReference × List Text

/-- The parent of the least identifier, of the rows that have one. -/
def parentLabelSQL (t : DetailTables) (serverURL : Text) (labelID : Int) :
    Option LabelReference :=
  let parents := (t.labelSubLabel.filter (·.subLabelID = labelID)).flatMap fun relation =>
    t.label.filter (·.id = relation.parentLabelID)
  ((orderBy (·.id) parents).take 1).head?.map (labelReference serverURL)

def sublabelsSQL (t : DetailTables) (serverURL : Text) (labelID : Int) : List LabelReference :=
  (t.labelSubLabel.filter (·.parentLabelID = labelID)).flatMap fun relation =>
    (t.label.filter (·.id = relation.subLabelID)).map (labelReference serverURL)

def labelDetailColumns (t : DetailTables) (serverURL : Text) (l : LabelRow) :
    LabelDetailColumns :=
  (l.id, l.contactInfo, l.dataQuality, l.name, l.profile, parentLabelSQL t serverURL l.id,
    sublabelsSQL t serverURL l.id, (t.labelURL.filter (·.labelID = l.id)).map (·.url))

def Store.scanLabelDetail (s : Store) (id : Int) : LabelDetailColumns → Result LabelDetail
  | (rowID, contactInfo, dataQuality, name, profile, parentLabel, sublabels, urls) =>
    .value { id := rowID, contactInfo, dataQuality, name, profile, parentLabel, sublabels, urls,
             uri := s.labelURL id, releaseURL := s.labelURL id ++ lit "/releases" }

abbrev MasterDetailColumns :=
  Int × Option Text × Option Text × Option Int × Option Int × List Text × List Text ×
    List ArtistReference × List MasterVideo

def masterDetailColumns (t : DetailTables) (serverURL : Text) (m : MasterRow) :
    MasterDetailColumns :=
  (m.id, m.title, m.dataQuality, t.mainReleaseID m.id, m.year,
    (t.masterGenre.filter (·.masterID = m.id)).map (·.genre),
    (t.masterStyle.filter (·.masterID = m.id)).map (·.style),
    artistReferences t.toTables serverURL (·.artistID) (t.masterArtist.filter (·.masterID = m.id)),
    (t.masterVideo.filter (·.masterID = m.id)).map fun video =>
      { url := video.url, description := video.description, title := video.title })

def scanMasterDetail : MasterDetailColumns → Result MasterDetail
  | (id, title, dataQuality, mainRelease, year, genres, styles, artists, videos) =>
    .value { id, title, dataQuality, mainRelease, year, genres, styles, artists, videos }

/-- A query for one row by its identifier. -/
def queryDetail {ρ α β : Type} (rows : List ρ) (key : ρ → Int) (columns : ρ → α)
    (scanner : α → Result β) (id : Int) : Result β :=
  let detail : Result β := do
    let id ← integerParameter id
    queryRow scanner ((rows.filter (key · = id)).map columns)
  match detail with
  | .error e => .error (notFound e)
  | r => r

def Store.artist (s : Store) (t : DetailTables) (id : Int) : Result ArtistDetail :=
  queryDetail t.artist (·.id) (artistDetailColumns t s.serverURL) (s.scanArtistDetail id) id

def Store.label (s : Store) (t : DetailTables) (id : Int) : Result LabelDetail :=
  queryDetail t.label (·.id) (labelDetailColumns t s.serverURL) (s.scanLabelDetail id) id

def Store.master (s : Store) (t : DetailTables) (id : Int) : Result MasterDetail :=
  queryDetail t.master (·.id) (masterDetailColumns t s.serverURL) scanMasterDetail id

/-- A release is read as the other details are. -/
theorem release_eq (s : Store) (t : Tables) (id : Int) : s.release t id =
    queryDetail t.releaseItem (·.id) (releaseDetailColumns t s.serverURL) scanReleaseDetail id := by
  unfold Store.release queryDetail
  simp only
  split
  · next e he => rw [he]
  · next hno =>
    split
    · next e he => exact (hno e he).elim
    · rfl

/-- A detail that is found was made of a row with the identifier. -/
theorem queryDetail_value {ρ α β : Type} {rows : List ρ} {key : ρ → Int} {columns : ρ → α}
    {scanner : α → Result β} {id : Int} {detail : β}
    (h : queryDetail rows key columns scanner id = .value detail) :
    ∃ row ∈ rows, key row = id ∧ scanner (columns row) = .value detail := by
  unfold queryDetail at h
  simp only at h
  split at h
  · cases h
  · obtain ⟨rowID, hid, hrow⟩ := Outcome.bind_value.mp h
    obtain ⟨rfl, -⟩ := integerParameter_value hid
    cases hrows : rows.filter (key · = rowID) with
    | nil =>
      rw [hrows] at hrow
      cases hrow
    | cons row rest =>
      have hmem : row ∈ rows.filter (key · = rowID) := by simp [hrows]
      rw [hrows] at hrow
      exact ⟨row, (List.mem_filter.mp hmem).1, of_decide_eq_true (List.mem_filter.mp hmem).2, hrow⟩

end OpenDiscogs.Postgres
