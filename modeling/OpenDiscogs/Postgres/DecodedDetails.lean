import OpenDiscogs.Postgres.DetailsDecode

/-! The store's detail reads as the code makes them: a row of columns and `jsonb` texts, and the
texts decoded. They are the reads of the tables themselves. -/
namespace OpenDiscogs.Postgres
open Utf8 SqlText Catalog

def decodeArtistDetailError := "decode artist detail"
def decodeLabelDetailError := "decode label detail"
def decodeMasterDetailError := "decode master detail"
def decodeReleaseDetailError := "decode release detail"

def unmarshalFault : Json.UnmarshalError → Err
  | .syntaxError => .other "json.SyntaxError"
  | .unmarshalTypeError => .other "json.UnmarshalTypeError"

/-- A target after decoding, and the error; a target that failed is not looked at again. -/
def unmarshalInto {α : Type} (decode : Json.Decoder α) (data : Bytes) (target : α) :
    α × Option Err :=
  match Json.unmarshal decode data target with
  | .ok a => (a, none)
  | .error e => (target, some (unmarshalFault e))

/-- `errors.Join`: no error when there is none to join. -/
def joinErrors (errors : List (Option Err)) : Option Err :=
  match errors.filterMap id with
  | [] => none
  | e::es => some (.join (e::es))

def decodeError (operation : String) (e : Option Err) : Option Err := e.map (.wrap operation)

/-- A decoded detail, unless there was an error. -/
def detailResult {α : Type} (decoded : α × Option Err) : Result α :=
  match decoded.2 with
  | some e => .error e
  | none => .value decoded.1

structure ArtistDetailPayload where
  members : Bytes
  groups : Bytes
  aliases : Bytes
  variations : Bytes
  urls : Bytes

open Json.Decoder in
def decodeArtistDetail (detail : ArtistDetail) (payload : ArtistDetailPayload) :
    ArtistDetail × Option Err :=
  let zero : ArtistReference := { id := 0, name := none, resourceURL := [] }
  let (members, e₁) := unmarshalInto (slice zero artistReferenceDecoder) payload.members
    detail.members
  let (groups, e₂) := unmarshalInto (slice zero artistReferenceDecoder) payload.groups
    detail.groups
  let (aliases, e₃) := unmarshalInto (slice zero artistReferenceDecoder) payload.aliases
    detail.aliases
  let (nameVariations, e₄) := unmarshalInto (slice emptyText text) payload.variations
    detail.nameVariations
  let (urls, e₅) := unmarshalInto (slice emptyText text) payload.urls detail.urls
  ({ detail with members, groups, aliases, nameVariations, urls },
    decodeError decodeArtistDetailError (joinErrors [e₁, e₂, e₃, e₄, e₅]))

def artistDetailResult (detail : ArtistDetail) (payload : ArtistDetailPayload) :
    Result ArtistDetail := detailResult (decodeArtistDetail detail payload)

/-- The parent is missing when the query finds none. -/
structure LabelDetailPayload where
  parent : Option Bytes
  sublabels : Bytes
  urls : Bytes

open Json.Decoder in
/-- A label without a parent keeps none: neither a missing text nor `null` is decoded. -/
def decodeLabelDetail (detail : LabelDetail) (payload : LabelDetailPayload) :
    LabelDetail × Option Err :=
  let zero : LabelReference := { id := 0, name := none, resourceURL := [] }
  let parent := payload.parent.getD []
  let (parentLabel, e₁) :=
    if parent.length > 0 ∧ parent ≠ lit "null" then
      let (reference, e) := unmarshalInto labelReferenceDecoder parent zero
      (some reference, e)
    else (detail.parentLabel, none)
  let (sublabels, e₂) := unmarshalInto (slice zero labelReferenceDecoder) payload.sublabels
    detail.sublabels
  let (urls, e₃) := unmarshalInto (slice emptyText text) payload.urls detail.urls
  ({ detail with parentLabel, sublabels, urls },
    decodeError decodeLabelDetailError (joinErrors [e₁, e₂, e₃]))

def labelDetailResult (detail : LabelDetail) (payload : LabelDetailPayload) :
    Result LabelDetail := detailResult (decodeLabelDetail detail payload)

structure MasterDetailPayload where
  genres : Bytes
  styles : Bytes
  artists : Bytes
  videos : Bytes

open Json.Decoder in
def decodeMasterDetail (detail : MasterDetail) (payload : MasterDetailPayload) :
    MasterDetail × Option Err :=
  let (genres, e₁) := unmarshalInto (slice emptyText text) payload.genres detail.genres
  let (styles, e₂) := unmarshalInto (slice emptyText text) payload.styles detail.styles
  let (artists, e₃) := unmarshalInto
    (slice { id := 0, name := none, resourceURL := [] } artistReferenceDecoder)
    payload.artists detail.artists
  let (videos, e₄) := unmarshalInto
    (slice { url := none, description := none, title := none } masterVideoDecoder)
    payload.videos detail.videos
  ({ detail with genres, styles, artists, videos },
    decodeError decodeMasterDetailError (joinErrors [e₁, e₂, e₃, e₄]))

def masterDetailResult (detail : MasterDetail) (payload : MasterDetailPayload) :
    Result MasterDetail := detailResult (decodeMasterDetail detail payload)

structure ReleaseDetailPayload where
  artists : Bytes
  labels : Bytes
  companies : Bytes
  formats : Bytes
  styles : Bytes
  genres : Bytes
  videos : Bytes

open Json.Decoder in
def decodeReleaseDetail (detail : ReleaseDetail) (payload : ReleaseDetailPayload) :
    ReleaseDetail × Option Err :=
  let zero : ReleaseLabel := { id := 0, name := none, categoryNotation := none, resourceURL := [] }
  let (artists, e₁) := unmarshalInto
    (slice { id := 0, name := none, role := none, resourceURL := [] } releaseArtistDecoder)
    payload.artists detail.artists
  let (labels, e₂) := unmarshalInto (slice zero releaseLabelDecoder) payload.labels detail.labels
  let (companies, e₃) := unmarshalInto (slice zero releaseLabelDecoder) payload.companies
    detail.companies
  let (formats, e₄) := unmarshalInto
    (slice { name := none, quantity := none, descriptions := [] } releaseFormatDecoder)
    payload.formats detail.formats
  let (styles, e₅) := unmarshalInto (slice emptyText text) payload.styles detail.styles
  let (genres, e₆) := unmarshalInto (slice emptyText text) payload.genres detail.genres
  let (videos, e₇) := unmarshalInto
    (slice { title := none, url := none, description := none } releaseVideoDecoder)
    payload.videos detail.videos
  ({ detail with artists, labels, companies, formats, styles, genres, videos },
    decodeError decodeReleaseDetailError (joinErrors [e₁, e₂, e₃, e₄, e₅, e₆, e₇]))

def releaseDetailResult (detail : ReleaseDetail) (payload : ReleaseDetailPayload) :
    Result ReleaseDetail := detailResult (decodeReleaseDetail detail payload)

/-! The rows of the detail queries -/

def artistDetailPayload (t : DetailTables) (serverURL : Text) (a : ArtistRow) :
    ArtistDetailPayload :=
  let (_, _, _, _, _, members, groups, aliases, variations, urls) :=
    artistDetailColumns t serverURL a
  { members := aggregated artistReferenceObject members
    groups := aggregated artistReferenceObject groups
    aliases := aggregated artistReferenceObject aliases
    variations := aggregated Json.text variations
    urls := aggregated Json.text urls }

def Store.artistDecoded (s : Store) (t : DetailTables) (id : Int) : Result ArtistDetail := do
  let (row, payload) ← queryDetail t.artist (·.id)
    (fun a => (a, artistDetailPayload t s.serverURL a)) .value id
  let uri := s.artistURL id
  artistDetailResult
    { id := row.id, name := row.name, realName := row.realName, profile := row.profile
      dataQuality := row.dataQuality, members := [], groups := [], aliases := []
      nameVariations := [], urls := [], uri, releaseURL := uri ++ lit "/releases" } payload

def labelDetailPayload (t : DetailTables) (serverURL : Text) (l : LabelRow) :
    LabelDetailPayload :=
  let (_, _, _, _, _, parent, sublabels, urls) := labelDetailColumns t serverURL l
  { parent := parent.map fun reference => jsonbText (labelReferenceObject reference)
    sublabels := aggregated labelReferenceObject sublabels
    urls := aggregated Json.text urls }

def Store.labelDecoded (s : Store) (t : DetailTables) (id : Int) : Result LabelDetail := do
  let (row, payload) ← queryDetail t.label (·.id)
    (fun l => (l, labelDetailPayload t s.serverURL l)) .value id
  let uri := s.labelURL id
  labelDetailResult
    { id := row.id, contactInfo := row.contactInfo, dataQuality := row.dataQuality
      name := row.name, profile := row.profile, parentLabel := none, sublabels := [], urls := []
      uri, releaseURL := uri ++ lit "/releases" } payload

def masterDetailPayload (t : DetailTables) (serverURL : Text) (m : MasterRow) :
    MasterDetailPayload :=
  let (_, _, _, _, _, genres, styles, artists, videos) := masterDetailColumns t serverURL m
  { genres := aggregated Json.text genres
    styles := aggregated Json.text styles
    artists := aggregated artistReferenceObject artists
    videos := aggregated masterVideoObject videos }

def Store.masterDecoded (s : Store) (t : DetailTables) (id : Int) : Result MasterDetail := do
  let (row, payload) ← queryDetail t.master (·.id)
    (fun m => (m, masterDetailPayload t s.serverURL m)) .value id
  masterDetailResult
    { id := row.id, title := row.title, dataQuality := row.dataQuality
      mainRelease := t.mainReleaseID row.id, year := row.year, genres := [], styles := []
      artists := [], videos := [] } payload

def releaseDetailPayload (t : Tables) (serverURL : Text) (r : ReleaseItemRow) :
    ReleaseDetailPayload :=
  let (_, _, _, _, _, _, _, _, _, _, _, _, artists, labels, companies, formats, styles, genres,
    videos) := releaseDetailColumns t serverURL r
  { artists := aggregated releaseArtistObject artists
    labels := aggregated releaseLabelObject labels
    companies := aggregated releaseLabelObject companies
    formats := aggregated releaseFormatObject formats
    styles := aggregated Json.text styles
    genres := aggregated Json.text genres
    videos := aggregated releaseVideoObject videos }

def Store.releaseDecoded (s : Store) (t : Tables) (id : Int) : Result ReleaseDetail := do
  let (row, payload) ← queryDetail t.releaseItem (·.id)
    (fun r => (r, releaseDetailPayload t s.serverURL r)) .value id
  let (id, title, country, dataQuality, releasedYear, releasedMonth, releasedDay,
    listedReleaseDate, isMaster, masterID, notes, status, _) :=
    releaseDetailColumns t s.serverURL row
  releaseDetailResult
    { id, title, country, dataQuality, releasedYear, releasedMonth, releasedDay
      listedReleaseDate, isMaster, masterID, notes, status, artists := [], labels := []
      companies := [], formats := [], styles := [], genres := [], videos := [] } payload

/-! The texts of a canonical database decode to the rows they were made of -/

theorem unmarshalInto_ok {α : Type} {decode : Json.Decoder α} {data : Bytes} {target a : α}
    (h : Json.unmarshal decode data target = .ok a) :
    unmarshalInto decode data target = (a, none) := by
  rw [unmarshalInto, h]

theorem unmarshalInto_aggregated {ρ : Type} {element : ρ → Json.Value} {decode : Json.Decoder ρ}
    {zero : ρ} {rows : List ρ} (ha : ∀ row ∈ rows, Aggregable (element row))
    (hr : ∀ row ∈ rows, Json.Decoder.Reads decode element row) (target : List ρ) :
    unmarshalInto (Json.Decoder.slice zero decode) (aggregated element rows) target =
      (rows, none) :=
  unmarshalInto_ok (unmarshal_aggregated ha hr target)

theorem unmarshalInto_texts (zero : Text) (ts target : List Text) :
    unmarshalInto (Json.Decoder.slice zero Json.Decoder.text) (aggregated Json.text ts) target =
      (ts, none) :=
  unmarshalInto_aggregated (fun t _ => aggregable_text t)
    (fun t _ => Json.Decoder.text_reads t) target

theorem linkTo_valid (serverURL : Text) (collection : String) (id : Int) :
    validString (linkTo serverURL collection id) = true := by
  refine validString_append (validString_append (validString_encode _) (validString_encode _)) ?_
  refine validString_ascii fun b hb => ?_
  exact UInt8.lt_trans (Strconv.formatInt_visible id b hb).2 (by decide)

theorem int64_of_key {ids : List Int} (h : ResourceKey ids) {id : Int} (hid : id ∈ ids) :
    Int64Range id := by
  have hlo := (h.2 id hid).1
  have hhi := (h.2 id hid).2
  have hmax : maximumInteger = 2147483647 := rfl
  unfold Int64Range
  omega

/-- A reference made from a table's row: its identifier is a key, and its link is made of it. -/
structure Linked (ids : List Int) (id : Int) (resourceURL : Bytes) : Prop where
  key : id ∈ ids
  valid : validString resourceURL = true

theorem artistReferences_linked {ρ : Type} {t : Tables} {serverURL : Text} {artistID : ρ → Int}
    {relations : List ρ} {r : ArtistReference}
    (h : r ∈ artistReferences t serverURL artistID relations) :
    Linked (t.artist.map (·.id)) r.id r.resourceURL := by
  obtain ⟨relation, -, hr⟩ := List.mem_flatMap.mp h
  obtain ⟨artist, hartist, rfl⟩ := List.mem_map.mp hr
  exact ⟨List.mem_map_of_mem (List.mem_filter.mp hartist).1, linkTo_valid _ _ _⟩

theorem unmarshalInto_artists {ρ : Type} {t : Tables} (hc : Canonical t) (serverURL : Text)
    (artistID : ρ → Int) (relations : List ρ) (zero : ArtistReference)
    (target : List ArtistReference) :
    unmarshalInto (Json.Decoder.slice zero artistReferenceDecoder)
      (aggregated artistReferenceObject (artistReferences t serverURL artistID relations)) target =
      (artistReferences t serverURL artistID relations, none) :=
  unmarshalInto_aggregated
    (fun _ hr => aggregable_reference (artistReferences_linked hr).valid)
    (fun _ hr => artistReference_reads
      (int64_of_key hc.artistKey (artistReferences_linked hr).key)) target

/-- A query that scans its row and decodes it later is one that scans the decoded row, when no
row of the table fails to decode. -/
theorem queryDetail_bind {ρ α γ β : Type} {rows : List ρ} {key : ρ → Int} {columns : ρ → α}
    {decode : α → Result β} {other : ρ → γ} {scanner : γ → Result β} {id : Int}
    (h : ∀ row ∈ rows, key row = id →
      decode (columns row) = scanner (other row) ∧ ∃ b, scanner (other row) = .value b) :
    (queryDetail rows key columns .value id >>= decode) =
      queryDetail rows key other scanner id := by
  unfold queryDetail
  cases hid : integerParameter id with
  | error e => rfl
  | panic => rfl
  | value n =>
    obtain ⟨rfl, -⟩ := integerParameter_value hid
    cases hrows : rows.filter (key · = n) with
    | nil =>
      simp only [Outcome.value_bind, hrows]
      rfl
    | cons row rest =>
      have hmem : row ∈ rows.filter (key · = n) := by simp [hrows]
      obtain ⟨hrow, hkey⟩ := List.mem_filter.mp hmem
      obtain ⟨hdecode, b, hb⟩ := h row hrow (of_decide_eq_true hkey)
      simp only [Outcome.value_bind, hrows, List.map_cons, queryRow, hdecode, hb]

theorem artistDecoded_eq (s : Store) {t : DetailTables} (hc : Canonical t.toTables) (id : Int) :
    s.artistDecoded t id = s.artist t id := by
  refine queryDetail_bind fun row _ _ => ⟨?_, _, rfl⟩
  simp only [artistDetailResult, decodeArtistDetail, artistDetailPayload, artistDetailColumns,
    unmarshalInto_artists hc, unmarshalInto_texts, Store.scanArtistDetail]
  rfl

theorem unmarshalInto_labels {t : Tables} (hc : Canonical t) {refs : List LabelReference}
    (h : ∀ r ∈ refs, Linked (t.label.map (·.id)) r.id r.resourceURL) (zero : LabelReference)
    (target : List LabelReference) :
    unmarshalInto (Json.Decoder.slice zero labelReferenceDecoder)
      (aggregated labelReferenceObject refs) target = (refs, none) :=
  unmarshalInto_aggregated (fun r hr => aggregable_reference (h r hr).valid)
    (fun r hr => labelReference_reads (int64_of_key hc.labelKey (h r hr).key)) target

theorem labelReference_linked {t : Tables} (serverURL : Text) {l : LabelRow} (h : l ∈ t.label) :
    Linked (t.label.map (·.id)) (labelReference serverURL l).id
      (labelReference serverURL l).resourceURL :=
  ⟨List.mem_map_of_mem h, linkTo_valid _ _ _⟩

theorem sublabels_linked {t : DetailTables} {serverURL : Text} {labelID : Int}
    {r : LabelReference} (h : r ∈ sublabelsSQL t serverURL labelID) :
    Linked (t.label.map (·.id)) r.id r.resourceURL := by
  obtain ⟨relation, -, hr⟩ := List.mem_flatMap.mp h
  obtain ⟨label, hlabel, rfl⟩ := List.mem_map.mp hr
  exact labelReference_linked serverURL (List.mem_filter.mp hlabel).1

theorem parentLabel_linked {t : DetailTables} {serverURL : Text} {labelID : Int}
    {r : LabelReference} (h : parentLabelSQL t serverURL labelID = some r) :
    Linked (t.label.map (·.id)) r.id r.resourceURL := by
  obtain ⟨label, hlabel, rfl⟩ := Option.map_eq_some_iff.mp h
  have hmem := List.mem_of_mem_take (List.mem_of_mem_head? hlabel)
  obtain ⟨relation, -, hl⟩ := List.mem_flatMap.mp (Rows.mem_orderBy.mp hmem)
  exact labelReference_linked serverURL (List.mem_filter.mp hl).1

/-- The text of a parent is an object's, neither empty nor `null`. -/
theorem parent_text (r : LabelReference) :
    (jsonbText (labelReferenceObject r)).length > 0 ∧
      jsonbText (labelReferenceObject r) ≠ lit "null" := by
  rw [labelReferenceObject, referenceObject_eq, jsonbText, Json.write_object]
  exact ⟨Nat.zero_lt_succ _, fun h => by cases (List.cons.inj h).1⟩

theorem unmarshalInto_parent {t : Tables} (hc : Canonical t) {r : LabelReference}
    (h : Linked (t.label.map (·.id)) r.id r.resourceURL) (target : LabelReference) :
    unmarshalInto labelReferenceDecoder (jsonbText (labelReferenceObject r)) target =
      (r, none) := by
  have ha : Aggregable (labelReferenceObject r) := aggregable_reference h.valid
  have hnests : (labelReferenceObject r).Nests Json.maximumDepth :=
    Nat.le_trans ha.nests (by decide)
  exact unmarshalInto_ok (Json.unmarshal_written jsonbStyle
    (labelReference_reads (int64_of_key hc.labelKey h.key)) hnests ha.wellFormed target)

theorem labelDecoded_eq (s : Store) {t : DetailTables} (hc : Canonical t.toTables) (id : Int) :
    s.labelDecoded t id = s.label t id := by
  refine queryDetail_bind fun row _ _ => ⟨?_, _, rfl⟩
  have hsub := unmarshalInto_labels hc
    (fun r hr => @sublabels_linked t s.serverURL row.id r hr)
  cases hparent : parentLabelSQL t s.serverURL row.id with
  | none =>
    simp only [labelDetailResult, decodeLabelDetail, labelDetailPayload, labelDetailColumns,
      hparent, hsub, unmarshalInto_texts, Store.scanLabelDetail]
    rfl
  | some r =>
    have hr := unmarshalInto_parent hc (parentLabel_linked hparent)
    simp only [labelDetailResult, decodeLabelDetail, labelDetailPayload, labelDetailColumns,
      hparent, Option.map_some, Option.getD_some, if_pos (parent_text r), hr, hsub,
      unmarshalInto_texts, Store.scanLabelDetail]
    rfl

theorem masterDecoded_eq (s : Store) {t : DetailTables} (hc : Canonical t.toTables) (id : Int) :
    s.masterDecoded t id = s.master t id := by
  refine queryDetail_bind fun row _ _ => ⟨?_, _, rfl⟩
  have hvideos : ∀ (zero : MasterVideo) (videos target : List MasterVideo),
      unmarshalInto (Json.Decoder.slice zero masterVideoDecoder)
        (aggregated masterVideoObject videos) target = (videos, none) := fun _ _ target =>
    unmarshalInto_aggregated (fun v _ => aggregable_masterVideo v) (fun v _ => masterVideo_reads v)
      target
  simp only [masterDetailResult, decodeMasterDetail, masterDetailPayload, masterDetailColumns,
    unmarshalInto_artists hc, unmarshalInto_texts, hvideos, scanMasterDetail]
  rfl

theorem releaseArtists_linked {t : Tables} {serverURL : Text} {releaseID : Int}
    {a : ReleaseArtist} (h : a ∈ releaseArtistsSQL t serverURL releaseID) :
    Linked (t.artist.map (·.id)) a.id a.resourceURL := by
  obtain ⟨⟨id, name⟩, hgroup, rfl⟩ := List.mem_map.mp h
  obtain ⟨joined, hjoined, hj⟩ := List.mem_map.mp (List.mem_dedup.mp hgroup)
  obtain ⟨relation, -, hr⟩ := List.mem_flatMap.mp hjoined
  obtain ⟨artist, hartist, rfl⟩ := List.mem_map.mp hr
  cases hj
  exact ⟨List.mem_map_of_mem (List.mem_filter.mp hartist).1, linkTo_valid _ _ _⟩

theorem labelEntries_linked {ρ : Type} {t : Tables} {serverURL : Text} {labelID : ρ → Int}
    {catno : ρ → Option Text} {relations : List ρ} {l : ReleaseLabel}
    (h : l ∈ labelEntries t serverURL labelID catno relations) :
    Linked (t.label.map (·.id)) l.id l.resourceURL := by
  obtain ⟨relation, -, hl⟩ := List.mem_flatMap.mp h
  obtain ⟨label, hlabel, rfl⟩ := List.mem_map.mp hl
  exact ⟨List.mem_map_of_mem (List.mem_filter.mp hlabel).1, linkTo_valid _ _ _⟩

theorem unmarshalInto_releaseLabels {ρ : Type} {t : Tables} (hc : Canonical t) (serverURL : Text)
    (labelID : ρ → Int) (catno : ρ → Option Text) (relations : List ρ) (zero : ReleaseLabel)
    (target : List ReleaseLabel) :
    unmarshalInto (Json.Decoder.slice zero releaseLabelDecoder)
      (aggregated releaseLabelObject (labelEntries t serverURL labelID catno relations)) target =
      (labelEntries t serverURL labelID catno relations, none) :=
  unmarshalInto_aggregated
    (fun _ hl => aggregable_releaseLabel (labelEntries_linked hl).valid)
    (fun _ hl => releaseLabel_reads (int64_of_key hc.labelKey (labelEntries_linked hl).key)) target

theorem releaseDecoded_eq (s : Store) {t : Tables} (hc : Canonical t) (id : Int) :
    s.releaseDecoded t id = s.release t id := by
  rw [release_eq]
  refine queryDetail_bind fun row _ _ => ⟨?_, _, rfl⟩
  have hartists : ∀ zero target, unmarshalInto (Json.Decoder.slice zero releaseArtistDecoder)
      (aggregated releaseArtistObject (releaseArtistsSQL t s.serverURL row.id)) target =
      (releaseArtistsSQL t s.serverURL row.id, none) := fun _ target =>
    unmarshalInto_aggregated
      (fun _ ha => aggregable_releaseArtist (releaseArtists_linked ha).valid)
      (fun _ ha => releaseArtist_reads
        (int64_of_key hc.artistKey (releaseArtists_linked ha).key)) target
  have hformats : ∀ (zero : ReleaseFormat) (formats target : List ReleaseFormat),
      unmarshalInto (Json.Decoder.slice zero releaseFormatDecoder)
        (aggregated releaseFormatObject formats) target = (formats, none) := fun _ _ target =>
    unmarshalInto_aggregated (fun f _ => aggregable_releaseFormat f)
      (fun f _ => releaseFormat_reads f) target
  have hvideos : ∀ (zero : ReleaseVideo) (videos target : List ReleaseVideo),
      unmarshalInto (Json.Decoder.slice zero releaseVideoDecoder)
        (aggregated releaseVideoObject videos) target = (videos, none) := fun _ _ target =>
    unmarshalInto_aggregated (fun v _ => aggregable_releaseVideo v)
      (fun v _ => releaseVideo_reads v) target
  simp only [releaseDetailResult, decodeReleaseDetail, releaseDetailPayload, releaseDetailColumns,
    hartists, releaseLabelsSQL, releaseCompaniesSQL, unmarshalInto_releaseLabels hc, hformats,
    unmarshalInto_texts, hvideos, scanReleaseDetail]
  rfl

end OpenDiscogs.Postgres
