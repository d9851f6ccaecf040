import OpenDiscogs.CatalogRepository
import OpenDiscogs.HttpApi.Answers
import OpenDiscogs.Postgres.DetailReads

/-! Links followed: what a client gets for a link that a response gave it. -/
namespace OpenDiscogs
open Utf8 SqlText Catalog HttpApi HttpResponse Postgres ServeMux Url OpenDiscogs.Configuration

namespace Resource

def id : Resource → Int
  | artist id => id
  | label id => id
  | release id => id
  | artistReleases id => id
  | labelReleases id => id

/-- The route that a resource is found on. -/
def route : Resource → CatalogRoute
  | artist _ => .artist
  | label _ => .label
  | release _ => .release
  | artistReleases _ => .artistReleases
  | labelReleases _ => .labelReleases

/-- The parts of the resource's path. -/
def parts : Resource → List Bytes
  | artist id => [lit "artists", Strconv.formatInt id]
  | label id => [lit "labels", Strconv.formatInt id]
  | release id => [lit "releases", Strconv.formatInt id]
  | artistReleases id => [lit "artists", Strconv.formatInt id, lit "releases"]
  | labelReleases id => [lit "labels", Strconv.formatInt id, lit "releases"]

theorem path_eq (resource : Resource) : resource.path = joinParts resource.parts := by
  cases resource <;> simp [Resource.path, parts, joinParts] <;> rfl

end Resource

theorem formatInt_part (n : Int) : PlainPart (Strconv.formatInt n) := by
  have hother : ∀ b : UInt8, 0x30 ≤ b ∧ b ≤ 0x39 ∨ b = 0x2D → b ≠ 0x2E ∧ b ≠ 0x2F :=
    forall_byte (by decide)
  have hbytes : ∀ b ∈ Strconv.formatInt n, b ≠ 0x2E ∧ b ≠ 0x2F := by
    intro b hb
    refine hother b ?_
    unfold Strconv.formatInt at hb
    split at hb
    · obtain rfl | hb := List.mem_cons.mp hb
      · exact Or.inr rfl
      · exact Or.inl (Strconv.formatNat_digits _ b hb)
    · exact Or.inl (Strconv.formatNat_digits _ b hb)
  have hdot : ∀ s : Bytes, 0x2E ∈ s → Strconv.formatInt n ≠ s := by
    intro s hs he
    exact (hbytes 0x2E (he ▸ hs)).1 rfl
  exact { nonempty := Strconv.formatInt_ne_nil n, here := hdot _ (by decide),
          back := hdot _ (by decide), single := fun h => (hbytes _ h).2 rfl,
          plain := formatInt_plain n }

theorem collection_part {collection : Bytes}
    (h : collection ∈ [lit "artists", lit "labels", lit "releases"]) : PlainPart collection := by
  simp only [List.mem_cons, List.not_mem_nil, or_false] at h
  obtain rfl | rfl | rfl := h <;>
    exact { nonempty := by decide, here := by decide, back := by decide, single := by decide,
            plain := by decide +kernel }

theorem Resource.plainParts (resource : Resource) : ∀ p ∈ resource.parts, PlainPart p := by
  have hartists := @collection_part (lit "artists") (by simp)
  have hlabels := @collection_part (lit "labels") (by simp)
  have hreleases := @collection_part (lit "releases") (by simp)
  cases resource <;> simp [Resource.parts, hartists, hlabels, hreleases, formatInt_part]

/-- The path of a resource is clean. -/
theorem Resource.cleanPath_path (resource : Resource) :
    cleanPath resource.path = resource.path := by
  have hne : resource.parts ≠ [] := by cases resource <;> exact List.cons_ne_nil _ _
  rw [Resource.path_eq]
  exact (cleanPath_join hne fun p hp => (resource.plainParts p hp).toCleanPart).1

/-- The path of a resource is of the form of its route, with its identifier at the wildcard. -/
theorem Resource.matches_route (resource : Resource) :
    Matches (Route.catalog resource.route).segments resource.path
      [Strconv.formatInt resource.id] := by
  have hartists := @collection_part (lit "artists") (by simp)
  have hlabels := @collection_part (lit "labels") (by simp)
  have hreleases := @collection_part (lit "releases") (by simp)
  have hid := formatInt_part resource.id
  rw [Resource.path_eq]
  cases resource with
  | artist id => exact .literal_plain hartists (@Matches.wildcard_plain _ _ hid [] _ _ .done)
  | label id => exact .literal_plain hlabels (@Matches.wildcard_plain _ _ hid [] _ _ .done)
  | release id => exact .literal_plain hreleases (@Matches.wildcard_plain _ _ hid [] _ _ .done)
  | artistReleases id =>
    exact .literal_plain hartists (.wildcard_plain hid
      (@Matches.literal_plain _ hreleases [] _ _ .done))
  | labelReleases id =>
    exact .literal_plain hlabels (.wildcard_plain hid
      (@Matches.literal_plain _ hreleases [] _ _ .done))

/-! The resources of links are there -/

/-- The row that a resource is read from, or is related to, is there. -/
def Resource.Exists (t : Tables) : Resource → Prop
  | .artist id => id ∈ t.artist.map (·.id)
  | .label id => id ∈ t.label.map (·.id)
  | .release id => id ∈ t.releaseItem.map (·.id)
  | .artistReleases id => id ∈ t.artist.map (·.id)
  | .labelReleases id => id ∈ t.label.map (·.id)

section Existing
variable {s : Store} {t : DetailTables}

theorem artistReferences_exists {ρ : Type} {t : Tables} {serverURL : Text} {artistID : ρ → Int}
    {relations : List ρ} {r : ArtistReference}
    (h : r ∈ artistReferences t serverURL artistID relations) : r.id ∈ t.artist.map (·.id) := by
  obtain ⟨relation, -, h⟩ := List.mem_flatMap.mp h
  obtain ⟨related, hrelated, rfl⟩ := List.mem_map.mp h
  exact List.mem_map_of_mem (List.mem_filter.mp hrelated).1

theorem labelEntries_exists {ρ : Type} {t : Tables} {serverURL : Text} {labelID : ρ → Int}
    {catno : ρ → Option Text} {relations : List ρ} {r : ReleaseLabel}
    (h : r ∈ labelEntries t serverURL labelID catno relations) : r.id ∈ t.label.map (·.id) := by
  obtain ⟨relation, -, h⟩ := List.mem_flatMap.mp h
  obtain ⟨label, hlabel, rfl⟩ := List.mem_map.mp h
  exact List.mem_map_of_mem (List.mem_filter.mp hlabel).1

theorem relatedLabel_exists {serverURL : Text} {labelID : Int} {r : LabelReference}
    (h : parentLabelSQL t serverURL labelID = some r ∨ r ∈ sublabelsSQL t serverURL labelID) :
    r.id ∈ t.label.map (·.id) := by
  obtain h | h := h
  · obtain ⟨parent, hparent, rfl⟩ := Option.map_eq_some_iff.mp h
    have hmem := List.mem_of_mem_take (List.mem_of_mem_head? hparent)
    obtain ⟨relation, -, hlabel⟩ := List.mem_flatMap.mp (Rows.mem_orderBy.mp hmem)
    exact List.mem_map_of_mem (List.mem_filter.mp hlabel).1
  · obtain ⟨relation, -, h⟩ := List.mem_flatMap.mp h
    obtain ⟨child, hchild, rfl⟩ := List.mem_map.mp h
    exact List.mem_map_of_mem (List.mem_filter.mp hchild).1

theorem releaseArtists_exists {t : Tables} {serverURL : Text} {releaseID : Int} {r : ReleaseArtist}
    (h : r ∈ releaseArtistsSQL t serverURL releaseID) : r.id ∈ t.artist.map (·.id) := by
  obtain ⟨⟨id, name⟩, hkey, rfl⟩ := List.mem_map.mp h
  obtain ⟨⟨key, role⟩, hjoined, he⟩ := List.mem_map.mp (List.mem_dedup.mp hkey)
  obtain ⟨relation, -, hartist⟩ := List.mem_flatMap.mp hjoined
  obtain ⟨artist, hmem, heq⟩ := List.mem_map.mp hartist
  cases heq
  cases he
  exact List.mem_map_of_mem (List.mem_filter.mp hmem).1

theorem artistReleasesSQL_exists {t : Tables} {artistID afterID : Int} {limit : Nat}
    {row : ArtistReleaseColumns} (h : row ∈ artistReleasesSQL t artistID afterID limit) :
    row.1 ∈ t.releaseItem.map (·.id) := by
  obtain ⟨⟨role, r⟩, hmem, rfl⟩ := List.mem_map.mp h
  have hselected := Rows.mem_orderBy.mp (List.mem_of_mem_take hmem)
  obtain ⟨aggregate, -, hjoined⟩ := List.mem_flatMap.mp (List.mem_filter.mp hselected).1
  obtain ⟨release, hrelease, he⟩ := List.mem_map.mp hjoined
  cases he
  exact List.mem_map_of_mem (List.mem_filter.mp hrelease).1

theorem masterReleasesSQL_exists {t : Tables} {masterID afterID : Int} {limit : Nat}
    {row : MasterReleaseColumns} (h : row ∈ masterReleasesSQL t masterID afterID limit) :
    row.1 ∈ t.releaseItem.map (·.id) := by
  obtain ⟨r, hmem, rfl⟩ := List.mem_map.mp h
  have hselected := Rows.mem_orderBy.mp (List.mem_of_mem_take hmem)
  exact List.mem_map_of_mem (List.mem_filter.mp hselected).1

/-- The items of a page were read. -/
theorem loadPage_items {α : Type} {size : Int} {operation : String} {read : Result (List α)}
    {page : Page α} (h : loadPage size (operationError operation read) = .value page) {item : α}
    (hi : item ∈ page.items) : ∃ items, read = .value items ∧ item ∈ items := by
  obtain ⟨items, hitems, hpage⟩ := Outcome.bind_value.mp h
  exact ⟨items, operationError_eq_value.mp hitems, newPage_mem hpage hi⟩

theorem collectRows_row {α β : Type} {scanner : α → Result β} {rows : List α} {items : List β}
    (h : collectRows scanner rows = .value items) {item : β} (hi : item ∈ items) :
    ∃ row ∈ rows, scanner row = .value item := by
  have hscanned := collectRows_eq_value.mp h
  obtain ⟨n, hn, rfl⟩ := List.getElem_of_mem hi
  exact ⟨_, List.getElem_mem (by rw [hscanned.length_eq]; exact hn),
    hscanned.get (by rw [hscanned.length_eq]; exact hn) hn⟩

/-- The items of a page of a relation were scanned from rows of its query. -/
theorem loadRelated_row {α β : Type} {operation : String} {scanner : α → Result β}
    {sql : Int → Int → Nat → List α} {id : Int} {request : PageRequest} {page : Page β}
    (h : loadRelated operation scanner sql id request = .value page) {item : β}
    (hi : item ∈ page.items) :
    ∃ after limit, ∃ row ∈ sql id after limit, scanner row = .value item := by
  obtain ⟨items, hread, hitem⟩ := loadPage_items h hi
  simp only [Outcome.bind_value] at hread
  obtain ⟨parent, hparent, after, -, limit, -, hrows⟩ := hread
  obtain ⟨rfl, -⟩ := integerParameter_value hparent
  exact ⟨after, limit, collectRows_row hrows hitem⟩

/-- A link is for something that is there. -/
theorem Emits.exists {resource : Resource} {link : Bytes} (h : Emits s t resource link) :
    resource.Exists t.toTables := by
  cases h with
  | artist h =>
    obtain ⟨a, ha, rfl, hd⟩ := queryDetail_value h
    cases hd
    exact List.mem_map_of_mem ha
  | artistReleases h =>
    obtain ⟨a, ha, rfl, hd⟩ := queryDetail_value h
    cases hd
    exact List.mem_map_of_mem ha
  | relatedArtist h hr =>
    obtain ⟨a, -, rfl, hd⟩ := queryDetail_value h
    cases hd
    obtain hr | hr | hr := hr <;> exact artistReferences_exists hr
  | label h =>
    obtain ⟨l, hl, rfl, hd⟩ := queryDetail_value h
    cases hd
    exact List.mem_map_of_mem hl
  | labelReleases h =>
    obtain ⟨l, hl, rfl, hd⟩ := queryDetail_value h
    cases hd
    exact List.mem_map_of_mem hl
  | relatedLabel h hr =>
    obtain ⟨l, -, rfl, hd⟩ := queryDetail_value h
    cases hd
    exact relatedLabel_exists hr
  | masterArtist h hr =>
    obtain ⟨m, -, rfl, hd⟩ := queryDetail_value h
    cases hd
    exact artistReferences_exists hr
  | releaseArtist h hr =>
    rw [release_eq] at h
    obtain ⟨row, -, rfl, hd⟩ := queryDetail_value h
    cases hd
    exact releaseArtists_exists hr
  | releaseLabel h hr =>
    rw [release_eq] at h
    obtain ⟨row, -, rfl, hd⟩ := queryDetail_value h
    cases hd
    obtain hr | hr := hr <;> exact labelEntries_exists hr
  | artistRelease h hr =>
    obtain ⟨after, limit, row, hrow, hscan⟩ := loadRelated_row h hr
    cases hscan
    exact artistReleasesSQL_exists hrow
  | masterRelease h hr =>
    obtain ⟨after, limit, row, hrow, hscan⟩ := loadRelated_row h hr
    obtain ⟨artists, -, hitem⟩ := Outcome.bind_value.mp hscan
    cases hitem
    exact masterReleasesSQL_exists hrow

end Existing
/-! Following a link -/

/-- A page request without parameters. -/
def firstPage : PageRequest := { afterID := 0, size := defaultPageSize }

/-- What a client expects to see at a resource. -/
def Resource.Shown (s : Store) (t : DetailTables) (path : Bytes) : Resource → Payload → Prop
  | .artist id, payload => ∃ d, s.artist t id = .value d ∧ d.id = id ∧ payload = .artist d
  | .label id, payload => ∃ d, s.label t id = .value d ∧ d.id = id ∧ payload = .label d
  | .release id, payload =>
    ∃ d, s.release t.toTables id = .value d ∧ d.id = id ∧ payload = .release d
  | .artistReleases id, payload => ∃ page,
    s.artistReleases t.toTables id firstPage = .value page ∧
      payload = .artistReleases (pageResponse page path)
  | .labelReleases id, payload => ∃ page,
    s.labelReleases t.toTables id firstPage = .value page ∧
      payload = .labelReleases (pageResponse page path)

section Served
variable {s : Store} {t : DetailTables} {resource : Resource}

theorem Resource.Exists.bounds (hc : Canonical t.toTables) (h : resource.Exists t.toTables) :
    1 ≤ resource.id ∧ resource.id ≤ maximumInteger := by
  cases resource with
  | artist id => exact hc.artistKey.2 id h
  | label id => exact hc.labelKey.2 id h
  | release id => exact hc.releaseKey.2 id h
  | artistReleases id => exact hc.artistKey.2 id h
  | labelReleases id => exact hc.labelKey.2 id h

/-- A row with the identifier is found. -/
theorem queryDetail_found {ρ α β : Type} {rows : List ρ} {key : ρ → Int} {columns : ρ → α}
    {scanner : α → Result β} {id : Int} (hid : 1 ≤ id ∧ id ≤ maximumInteger)
    (h : id ∈ rows.map key) (hscan : ∀ row, ∃ detail, scanner (columns row) = .value detail) :
    ∃ row ∈ rows, key row = id ∧ ∃ detail, scanner (columns row) = .value detail ∧
      queryDetail rows key columns scanner id = .value detail := by
  have hrange : -2^31 ≤ id ∧ id < 2^31 := by
    simp only [maximumInteger] at hid
    omega
  obtain ⟨found, hfound, hkey⟩ := List.mem_map.mp h
  cases hrows : rows.filter (key · = id) with
  | nil => exact absurd hkey (by simpa using List.filter_eq_nil_iff.mp hrows found hfound)
  | cons row rest =>
    have hmem : row ∈ rows.filter (key · = id) := by simp [hrows]
    obtain ⟨detail, hdetail⟩ := hscan row
    refine ⟨row, (List.mem_filter.mp hmem).1, of_decide_eq_true (List.mem_filter.mp hmem).2,
      detail, hdetail, ?_⟩
    simp only [queryDetail, integerParameter_eq hrange, Outcome.value_bind, hrows, List.map_cons,
      queryRow, hdetail]

/-- What exists is shown. -/
theorem Resource.Exists.shown (s : Store) (hc : Canonical t.toTables)
    (h : resource.Exists t.toTables) (path : Bytes) :
    ∃ payload, resource.Shown s t path payload := by
  have hbounds := h.bounds hc
  have hrange : ∀ n : Int, 1 ≤ n ∧ n ≤ maximumInteger → Postgres.InRange n := by
    intro n hn
    simp only [maximumInteger] at hn
    unfold Postgres.InRange
    omega
  have hzero : Postgres.InRange firstPage.afterID := ⟨by decide, by decide⟩
  have hsize : 0 < firstPage.size := by decide
  cases resource with
  | artist id =>
    obtain ⟨row, -, hid, detail, hdetail, hfound⟩ := @queryDetail_found _ _ _ t.artist (·.id)
      (artistDetailColumns t s.serverURL) (s.scanArtistDetail id) id hbounds h fun _ => ⟨_, rfl⟩
    cases hdetail
    exact ⟨_, _, hfound, hid, rfl⟩
  | label id =>
    obtain ⟨row, -, hid, detail, hdetail, hfound⟩ := @queryDetail_found _ _ _ t.label (·.id)
      (labelDetailColumns t s.serverURL) (s.scanLabelDetail id) id hbounds h fun _ => ⟨_, rfl⟩
    cases hdetail
    exact ⟨_, _, hfound, hid, rfl⟩
  | release id =>
    obtain ⟨row, -, hid, detail, hdetail, hfound⟩ := @queryDetail_found _ _ _ t.releaseItem (·.id)
      (releaseDetailColumns t.toTables s.serverURL) scanReleaseDetail id hbounds h fun _ => ⟨_, rfl⟩
    cases hdetail
    rw [← release_eq] at hfound
    exact ⟨_, _, hfound, hid, rfl⟩
  | artistReleases id =>
    have hpage := (@artistReleases_value s ⟨t.toTables, hc⟩ id firstPage _ hsize).mpr
      ⟨⟨hrange id hbounds, hzero⟩, rfl⟩
    exact ⟨.artistReleases (pageResponse _ path), _, hpage, rfl⟩
  | labelReleases id =>
    have hpage := (@labelReleases_value s ⟨t.toTables, hc⟩ id firstPage _ hsize).mpr
      ⟨⟨hrange id hbounds, hzero⟩, rfl⟩
    exact ⟨.labelReleases (pageResponse _ path), _, hpage, rfl⟩

/-- The identifier of a path is read back. -/
theorem pathID_formatInt {n : Int} (h : 1 ≤ n ∧ n ≤ maximumInteger) (path query : Bytes) :
    pathID { path := path, pathValueID := Strconv.formatInt n, rawQuery := query } = .ok n := by
  have hmax : maximumInteger = maximumResourceID := rfl
  simp only [maximumInteger] at h
  have hparse : Strconv.parseInt (Strconv.formatInt n) 10 64 = some n :=
    Strconv.parseInt_formatInt (by decide) (by omega) (by omega)
  have hin : ¬(n < 1 ∨ n > maximumResourceID) := by
    rw [← hmax, maximumInteger]
    omega
  simp only [pathID, hparse, if_neg hin]

/-- A request for a resource that is there finds what it shows. -/
theorem Resource.Exists.found (s : Store) (hc : Canonical t.toTables) (state : SnapshotTables)
    (h : resource.Exists t.toTables) (path : Bytes) :
    ∃ payload, resource.Shown s t path payload ∧
      resource.route.Found (s.catalogRepository t state)
        { path := path, pathValueID := Strconv.formatInt resource.id, rawQuery := [] } payload := by
  obtain ⟨payload, hshown⟩ := h.shown s hc path
  have hid := pathID_formatInt (h.bounds hc) path []
  have hpage : parseCursorPage (UrlQuery.parse []) = .ok firstPage := rfl
  refine ⟨payload, hshown, ?_⟩
  rw [catalogRepository_eq s hc]
  cases resource with
  | artist id =>
    obtain ⟨d, hd, -, rfl⟩ := hshown
    exact ⟨.artist id, getByID_eq_ok.mpr ⟨id, hid, rfl⟩, Outcome.bind_value.mpr ⟨d, hd, rfl⟩⟩
  | label id =>
    obtain ⟨d, hd, -, rfl⟩ := hshown
    exact ⟨.label id, getByID_eq_ok.mpr ⟨id, hid, rfl⟩, Outcome.bind_value.mpr ⟨d, hd, rfl⟩⟩
  | release id =>
    obtain ⟨d, hd, -, rfl⟩ := hshown
    exact ⟨.release id, getByID_eq_ok.mpr ⟨id, hid, rfl⟩, Outcome.bind_value.mpr ⟨d, hd, rfl⟩⟩
  | artistReleases id =>
    obtain ⟨page, hp, rfl⟩ := hshown
    exact ⟨.artistReleases id firstPage, pageByID_eq_ok.mpr ⟨id, hid, firstPage, hpage, rfl⟩,
      Outcome.bind_value.mpr ⟨page, hp, rfl⟩⟩
  | labelReleases id =>
    obtain ⟨page, hp, rfl⟩ := hshown
    exact ⟨.labelReleases id firstPage, pageByID_eq_ok.mpr ⟨id, hid, firstPage, hpage, rfl⟩,
      Outcome.bind_value.mpr ⟨page, hp, rfl⟩⟩

/-- A request for the path of a resource that is there is answered with the document of what it
shows. -/
theorem Resource.Exists.served (s : Store) (hc : Canonical t.toTables) (state : SnapshotTables)
    (h : resource.Exists t.toTables) (router : Router) (assets : Assets) (broken : Bool)
    {method : String} (hmethod : method = "GET" ∨ method = "HEAD") {requested : URL}
    (hpath : requested.escapedPath = resource.path) (hquery : requested.rawQuery = []) :
    ∃ payload x, resource.Shown s t resource.path payload ∧
      Service.handle ⟨router, s.catalogRepository t state, assets⟩ method requested broken =
        .served (.catalog resource.route) x ∧
      Delivers router.responder.cacheControl broken x.response 200 contentTypeJSON
        (router.responder.encode (.catalog payload)) := by
  let service : Service := ⟨router, s.catalogRepository t state, assets⟩
  have hread : requested.path = resource.path := by
    have hunescape := unescape_escapedPath requested
    rw [hpath, unescape_suffix resource.suffix] at hunescape
    exact (Option.some.inj hunescape).symm
  obtain ⟨payload, hshown, hfound⟩ := h.found s hc state resource.path
  have hdispatch : Route.mux.findHandler method requested.escapedPath requested.path =
      .handler (.catalog resource.route) [Strconv.formatInt resource.id] := by
    rw [hpath]
    exact Route.findHandler_handler.mpr
      ⟨hmethod, resource.cleanPath_path, resource.matches_route⟩
  have hrequest : Service.request requested [Strconv.formatInt resource.id] =
      { path := resource.path, pathValueID := Strconv.formatInt resource.id, rawQuery := [] } := by
    simp only [Service.request, hread, hquery, List.headD_cons]
  have hhandle := service.handle_catalog hdispatch broken
  rw [hrequest] at hhandle
  exact ⟨payload, _, hshown, hhandle, @serve_found service resource.route _ payload hfound method broken⟩

end Served
/-- A router that logs nothing and lets nothing be cached. -/
def plainRouter : Router where
  accessLog := false
  responder := { cacheControl := [], encode := encodeJSON numberedTimes }

def noAssets : Assets where
  openAPIDocument := []
  documentationHTML := []
  documentationScript := []
  scalarScript := []
  version := lit "development"

end OpenDiscogs
