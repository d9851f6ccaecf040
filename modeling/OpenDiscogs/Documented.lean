import OpenDiscogs.AcceptedRequests
import OpenDiscogs.HttpApi.OpenApi
import OpenDiscogs.Navigation
import OpenDiscogs.Postgres.NotMissing
import OpenDiscogs.Walk

/-! Every answer to a documented request is one that the OpenAPI document describes. -/
namespace OpenDiscogs
open Utf8 SqlText Catalog HttpApi Postgres Rows Keyset Json ServeMux
open HttpApi.OpenApi (LegalCursor LegalSnapshot)

/-! The document by routes -/

namespace HttpApi.CatalogRoute

/-- The schema of a successful answer. -/
def schema : CatalogRoute → Json.Schema
  | artists => OpenApi.artistPage
  | artist => OpenApi.artistDetail
  | artistReleases => OpenApi.artistReleasePage
  | labels => OpenApi.labelPage
  | label => OpenApi.labelDetail
  | labelReleases => OpenApi.labelReleasePage
  | masters => OpenApi.masterPage
  | master => OpenApi.masterDetail
  | masterReleases => OpenApi.masterReleasePage
  | releases => OpenApi.releasePage
  | release => OpenApi.releaseDetail
  | releaseTracks => OpenApi.releaseTrackPage
  | releaseIdentifiers => OpenApi.releaseIdentifierPage
  | snapshot => OpenApi.catalogSnapshot

/-- The routes that take parameters, all but one. -/
def parameterized : CatalogRoute → Bool
  | snapshot => false
  | _ => true

/-- The routes of one resource and of what it contains, which may not be there. -/
def single : CatalogRoute → Bool
  | artist | label | master | release | releaseTracks | releaseIdentifiers => true
  | _ => false

def operation (route : CatalogRoute) : OpenApi.Operation where
  path := route.template
  responses := OpenApi.ok route.schema ::
    (if route.parameterized then [OpenApi.badRequest] else []) ++
    (if route.single then [OpenApi.notFound] else []) ++ [OpenApi.gatewayTimeout]

def all : List CatalogRoute :=
  [artists, artist, artistReleases, labels, label, labelReleases, masters, master, masterReleases,
   releases, release, releaseTracks, releaseIdentifiers, snapshot]

end HttpApi.CatalogRoute

def versionOperation : OpenApi.Operation := ⟨"/version", [OpenApi.ok OpenApi.version]⟩

/-- The document has an operation for each route of the catalog, and one for the version. -/
theorem paths_eq : OpenApi.paths = CatalogRoute.all.map CatalogRoute.operation ++
    [versionOperation] := rfl

/-! The calls of a route -/

namespace Listing

def route : Listing → CatalogRoute
  | artists _ => .artists
  | labels _ => .labels
  | masters _ => .masters
  | releases _ => .releases
  | artistReleases _ => .artistReleases
  | labelReleases _ => .labelReleases
  | masterReleases _ => .masterReleases
  | byCatalogNumber _ => .releases
  | byIdentifier _ => .releases

def call : Listing → PageRequest → Call
  | artists filter => .searchArtists filter
  | labels filter => .searchLabels filter
  | masters filter => .searchMasters filter
  | releases filter => .searchReleases filter
  | artistReleases id => .artistReleases id
  | labelReleases id => .labelReleases id
  | masterReleases id => .masterReleases id
  | byCatalogNumber lookup => .releasesByCatalogNumber lookup
  | byIdentifier lookup => .releasesByIdentifier lookup

def payload : (l : Listing) → PageResponse l.Item → Payload
  | artists _ => .artists
  | labels _ => .labels
  | masters _ => .masters
  | releases _ => .releases
  | artistReleases _ => .artistReleases
  | labelReleases _ => .labelReleases
  | masterReleases _ => .masterReleases
  | byCatalogNumber _ => .releases
  | byIdentifier _ => .releases

theorem run_call (s : Store) (t : DetailTables) (state : SnapshotTables) (l : Listing)
    (page : PageRequest) (path : Bytes) :
    (l.call page).run (s.catalogRepository t state) path =
      (l.read s t.toTables page >>= fun found => .value (l.payload (pageResponse found path))) := by
  cases l <;> rfl

theorem read_notMissing (s : Store) (t : Tables) (l : Listing) (page : PageRequest) :
    NotMissing (l.read s t page) := by
  cases l with
  | artists filter => exact searchArtists_notMissing s t filter page
  | labels filter => exact searchLabels_notMissing s t filter page
  | masters filter => exact searchMasters_notMissing s t filter page
  | releases filter => exact searchReleases_notMissing s t filter page
  | artistReleases id => exact artistReleases_notMissing s t id page
  | labelReleases id => exact labelReleases_notMissing s t id page
  | masterReleases id => exact masterReleases_notMissing s t id page
  | byCatalogNumber lookup => exact releasesByCatalogNumber_notMissing s t lookup page
  | byIdentifier lookup => exact releasesByIdentifier_notMissing s t lookup page

/-- The cursor of a page is the identifier of a resource. -/
theorem legalCursor {s : Store} {db : Database} {l : Listing} {page : PageRequest}
    (hs : 0 < page.size) (ha : Postgres.InRange page.afterID) {found : Page l.Item}
    (h : l.read s db.toTables page = .value found) (path : Bytes) :
    LegalCursor (pageResponse found path).nextAfterID := by
  intro n hn
  have hlast : n ∈ (found.items.map PageItem.pageID).getLast? := by
    simp only [pageResponse, Page.nextAfterID, nextAfter_eq] at hn
    split at hn
    · exact hn
    · cases hn
  obtain ⟨item, hitem, rfl⟩ := List.mem_map.mp (List.mem_of_getLast? hlast)
  have hlegal := l.matching_legal db ((Listing.reads hs ha l).sound h item hitem)
  simpa [maximumInteger] using hlegal

end Listing

/-- The calls that a route makes; pages are asked for within the bounds of the parameters. -/
inductive Makes : CatalogRoute → Call → Prop where
  | listing (l : Listing) {page : PageRequest} (hs : 0 < page.size)
      (ha : Postgres.InRange page.afterID) : Makes l.route (l.call page)
  | artist (id : Int) : Makes .artist (.artist id)
  | label (id : Int) : Makes .label (.label id)
  | master (id : Int) : Makes .master (.master id)
  | release (id : Int) : Makes .release (.release id)
  | tracks (id : Int) (page : HashPageRequest) : Makes .releaseTracks (.releaseTracks id page)
  | identifiers (id : Int) (page : HashPageRequest) :
      Makes .releaseIdentifiers (.releaseIdentifiers id page)
  | snapshot : Makes .snapshot .snapshot

section Makes
variable {request : Request} {call : Call}

theorem makes_listing {page : PageRequest} (h : parseCursorPage request.query = .ok page)
    (l : Listing) : Makes l.route (l.call page) := by
  obtain ⟨hafter, hsize, -⟩ := parseCursorPage_bounds h
  exact .listing l hsize (resource_inRange hafter)

/-- Whatever a handler accepts, it makes a call of its route. -/
theorem makes_of_ok {route : CatalogRoute} (h : route.handler request = .ok call) :
    Makes route call := by
  cases route with
  | artists =>
    obtain ⟨page, name, realName, hpage, -, -, rfl⟩ := artists_ok h
    exact makes_listing hpage (.artists _)
  | labels =>
    obtain ⟨page, name, hpage, -, rfl⟩ := labels_ok h
    exact makes_listing hpage (.labels _)
  | masters =>
    obtain ⟨page, title, year, hpage, -, -, rfl⟩ := masters_ok h
    exact makes_listing hpage (.masters _)
  | releases =>
    obtain ⟨page, lookup, hpage, -, hsearch⟩ := releases_eq_ok.mp h
    cases hsearch with
    | catalogNumber lookup => exact makes_listing hpage (.byCatalogNumber lookup)
    | identifier lookup => exact makes_listing hpage (.byIdentifier lookup)
    | filters hfilter => exact makes_listing hpage (.releases _)
  | artistReleases =>
    obtain ⟨id, -, page, hpage, rfl⟩ := pageByID_eq_ok.mp h
    exact makes_listing hpage (.artistReleases id)
  | labelReleases =>
    obtain ⟨id, -, page, hpage, rfl⟩ := pageByID_eq_ok.mp h
    exact makes_listing hpage (.labelReleases id)
  | masterReleases =>
    obtain ⟨id, -, page, hpage, rfl⟩ := pageByID_eq_ok.mp h
    exact makes_listing hpage (.masterReleases id)
  | artist =>
    obtain ⟨id, -, rfl⟩ := getByID_eq_ok.mp h
    exact .artist id
  | label =>
    obtain ⟨id, -, rfl⟩ := getByID_eq_ok.mp h
    exact .label id
  | master =>
    obtain ⟨id, -, rfl⟩ := getByID_eq_ok.mp h
    exact .master id
  | release =>
    obtain ⟨id, -, rfl⟩ := getByID_eq_ok.mp h
    exact .release id
  | releaseTracks =>
    obtain ⟨⟨id, page⟩, -, hcall⟩ := Except.bind_eq_ok.mp h
    cases hcall
    exact .tracks id page
  | releaseIdentifiers =>
    obtain ⟨⟨id, page⟩, -, hcall⟩ := Except.bind_eq_ok.mp h
    cases hcall
    exact .identifiers id page
  | snapshot =>
    cases h
    exact .snapshot

end Makes

/-! What a route finds -/

/-- What the schema of a route asks of a payload. -/
def HttpApi.Payload.Legal : CatalogRoute → Payload → Prop
  | .artists, .artists p => LegalCursor p.nextAfterID
  | .artist, .artist _ => True
  | .artistReleases, .artistReleases p => LegalCursor p.nextAfterID
  | .labels, .labels p => LegalCursor p.nextAfterID
  | .label, .label _ => True
  | .labelReleases, .labelReleases p => LegalCursor p.nextAfterID
  | .masters, .masters p => LegalCursor p.nextAfterID
  | .master, .master _ => True
  | .masterReleases, .masterReleases p => LegalCursor p.nextAfterID
  | .releases, .releases p => LegalCursor p.nextAfterID
  | .release, .release _ => True
  | .releaseTracks, .releaseTracks _ => True
  | .releaseIdentifiers, .releaseIdentifiers _ => True
  | .snapshot, .snapshot s => LegalSnapshot s
  | _, _ => False

/-- The document of a legal payload meets the schema of its route. -/
theorem HttpApi.Payload.Legal.conforms {route : CatalogRoute} {payload : Payload}
    (h : payload.Legal route) (times : TimeFormat) :
    route.schema (Documents.payload times payload).valid = true := by
  unfold Payload.Legal at h
  -- the names of the page schemas give way to `pageOf`, so that the lemmas match as they stand
  split at h <;> simp only [CatalogRoute.schema, OpenApi.artistPage, OpenApi.artistReleasePage,
    OpenApi.labelPage, OpenApi.labelReleasePage, OpenApi.masterPage, OpenApi.masterReleasePage,
    OpenApi.releasePage, OpenApi.releaseTrackPage, OpenApi.releaseIdentifierPage,
    Documents.payload]
  · exact OpenApi.page_conforms OpenApi.artist_conforms h
  · exact OpenApi.artistDetail_conforms _
  · exact OpenApi.page_conforms OpenApi.artistRelease_conforms h
  · exact OpenApi.page_conforms OpenApi.label_conforms h
  · exact OpenApi.labelDetail_conforms _
  · exact OpenApi.page_conforms OpenApi.labelRelease_conforms h
  · exact OpenApi.page_conforms OpenApi.master_conforms h
  · exact OpenApi.masterDetail_conforms _
  · exact OpenApi.page_conforms OpenApi.masterRelease_conforms h
  · exact OpenApi.page_conforms OpenApi.release_conforms h
  · exact OpenApi.releaseDetail_conforms _
  · exact OpenApi.hashPage_conforms OpenApi.releaseTrack_conforms _
  · exact OpenApi.hashPage_conforms OpenApi.releaseIdentifier_conforms _
  · exact OpenApi.catalogSnapshot_conforms h
  · cases h

/-- The state of the imports as an importer keeps it: every collection has its row, and no status
is another than the four. -/
structure Postgres.SnapshotTables.Seeded (state : SnapshotTables) : Prop
    extends state.Canonical where
  entityTypes : (state.entityState.map (·.entityType.bytes)).Perm (OpenApi.entityTypes.map lit)
  entityStatus : ∀ row ∈ state.entityState, ∃ status ∈ OpenApi.statuses,
    row.status.bytes = lit status
  catalogStatus : ∀ row ∈ state.readiness, ∃ status ∈ OpenApi.statuses,
    row.status.bytes = lit status

theorem snapshot_legal {state : SnapshotTables} (h : state.Seeded) {snapshot : CatalogSnapshot}
    (hs : Store.snapshot state = .value snapshot) : LegalSnapshot snapshot := by
  obtain ⟨readiness, hreadiness, hstatus, hentities⟩ := snapshot_value h.toCanonical hs
  have hmem : ∀ e ∈ snapshot.entities, ∃ row ∈ state.entityState,
      e.entityType = row.entityType ∧ e.status = row.status := by
    intro e he
    rw [hentities] at he
    obtain ⟨row, hrow, rfl⟩ := List.mem_map.mp he
    exact ⟨row, mem_orderBy.mp hrow, rfl, rfl⟩
  constructor
  · rw [hstatus]
    exact h.catalogStatus readiness hreadiness
  · have hlength := h.entityTypes.length_eq
    rw [List.length_map, List.length_map] at hlength
    rw [hentities, List.length_map, (orderBy_perm _ _).length_eq, hlength]
    rfl
  · intro e he
    obtain ⟨row, hrow, htype, -⟩ := hmem e he
    have hbytes : row.entityType.bytes ∈ OpenApi.entityTypes.map lit :=
      h.entityTypes.mem_iff.mp (List.mem_map_of_mem hrow)
    obtain ⟨entityType, hin, heq⟩ := List.mem_map.mp hbytes
    exact ⟨entityType, hin, htype ▸ heq.symm⟩
  · intro e he
    obtain ⟨row, hrow, -, hrowStatus⟩ := hmem e he
    exact hrowStatus ▸ h.entityStatus row hrow

section Store
variable {s : Store} {t : DetailTables} {state : SnapshotTables} {route : CatalogRoute}
  {call : Call} {path : Bytes}

/-- What the store answers to a call of a route is legal there. -/
theorem Makes.legal (hc : Canonical t.toTables) (hs : state.Seeded) (h : Makes route call)
    {payload : Payload} (hrun : call.run (s.catalogRepository t state) path = .value payload) :
    payload.Legal route := by
  cases h with
  | listing l hsize ha =>
    rw [Listing.run_call] at hrun
    obtain ⟨found, hfound, hp⟩ := Outcome.bind_value.mp hrun
    cases hp
    have hcursor := @Listing.legalCursor s ⟨t.toTables, hc⟩ l _ hsize ha _ hfound path
    cases l <;> exact hcursor
  | snapshot =>
    obtain ⟨found, hfound, hp⟩ := Outcome.bind_value.mp hrun
    cases hp
    exact snapshot_legal hs hfound
  | _ =>
    obtain ⟨found, -, hp⟩ := Outcome.bind_value.mp hrun
    cases hp
    trivial

/-- Only what is asked for by its identifier is ever missing. -/
theorem Makes.single (h : Makes route call) {e : Err}
    (hrun : call.run (s.catalogRepository t state) path = .error e)
    (he : e.is .notFound = true) : route.single = true := by
  have hnot : ¬NotMissing (call.run (s.catalogRepository t state) path) :=
    fun hp => by simp [hp e hrun] at he
  cases h with
  | listing l hsize ha =>
    rw [Listing.run_call] at hnot
    exact absurd ((l.read_notMissing s t.toTables _).bind fun _ => notMissing_value _) hnot
  | snapshot => exact absurd ((snapshot_notMissing state).bind fun _ => notMissing_value _) hnot
  | _ => rfl

end Store

/-! What a client gets -/

/-- A response as the document describes it: its status, its media type, and a body that is one
JSON value of its schema. -/
structure HttpApi.OpenApi.Response.Describes (response : OpenApi.Response)
    (sent : HttpResponse.Response) : Prop where
  status : sent.status = response.status
  mediaType : sent.header.get headerContentType = lit response.mediaType
  body : ∃ v, Json.parse sent.body = some v ∧ response.schema v = true

/-- The problem that no operation lists. -/
def internalError : OpenApi.Response := ⟨500, "application/problem+json", OpenApi.problem⟩

/-- An answer to a request for an operation: one that the operation lists, a problem with the
status 500 when the call failed or panicked, or to a client that went away nothing. -/
inductive DocumentedAnswer (service : Service) (operation : OpenApi.Operation)
    (request : Request) : Service.Answer → Prop where
  | described {route : Route} {x : Exchange} {response : OpenApi.Response}
      (mem : response ∈ operation.responses) (h : response.Describes x.response) :
      DocumentedAnswer service operation request (.served route x)
  | failed {route : CatalogRoute} {x : Exchange}
      (fails : route.Fails service.repository request 500)
      (h : internalError.Describes x.response) :
      DocumentedAnswer service operation request (.served (.catalog route) x)
  | canceled {route : CatalogRoute} {x : Exchange}
      (canceled : route.Canceled service.repository request)
      (h : x.response = ⟨200, (Router.securityHeaders {}).header, []⟩) :
      DocumentedAnswer service operation request (.served (.catalog route) x)

/-- A repository that answers as another one, but any call of which may fail or panic; it reports
nothing as missing that is there. -/
def Catalog.Repository.Interrupts (r other : Repository) : Prop := ∀ (call : Call) (path : Bytes),
  call.run r path = call.run other path ∨ call.run r path = .panic ∨
    ∃ e, call.run r path = .error e ∧ e.is .notFound = false

section Interrupts
variable {r other : Repository} {call : Call} {path : Bytes}

theorem Catalog.Repository.Interrupts.value (h : r.Interrupts other) {payload : Payload}
    (hrun : call.run r path = .value payload) : call.run other path = .value payload := by
  obtain heq | hpanic | ⟨e, he, -⟩ := h call path
  · rw [← heq, hrun]
  · rw [hrun] at hpanic
    cases hpanic
  · rw [hrun] at he
    cases he

theorem Catalog.Repository.Interrupts.missing (h : r.Interrupts other) {e : Err}
    (hrun : call.run r path = .error e) (he : e.is .notFound = true) :
    call.run other path = .error e := by
  obtain heq | hpanic | ⟨e', he', hfound⟩ := h call path
  · rw [← heq, hrun]
  · rw [hrun] at hpanic
    cases hpanic
  · rw [hrun] at he'
    cases he'
    simp [he] at hfound

end Interrupts

section Answers
variable {times : TimeFormat} {s : Store} {t : DetailTables} {state : SnapshotTables}
  {service : Service} {cacheControl : Bytes} {sent : HttpResponse.Response}

/-- A delivered document that meets a schema is described. -/
theorem delivers_describes {status : Nat} {contentType : String} {schema : Json.Schema}
    {value : JSONPayload}
    (h : Delivers cacheControl false sent status contentType (encodeJSON times value))
    (hschema : schema (Documents.jsonPayload times value).valid = true) :
    (⟨status, contentType, schema⟩ : OpenApi.Response).Describes sent := by
  refine ⟨h.hasStatus, h.hasType, _, ?_, hschema⟩
  rw [h.hasBody]
  exact parse_encodeJSON times value

/-- Only a route with parameters refuses a request. -/
theorem parameterized_of_error {route : CatalogRoute} {request : Request} {text : String}
    (h : route.handler request = .error text) : route.parameterized = true := by
  cases route with
  | snapshot => cases h
  | _ => rfl

/-- An answer of a route is documented by the operation of the route. -/
theorem catalog_documented (hc : Canonical t.toTables) (hstate : state.Seeded)
    (hrepository : service.repository.Interrupts (s.catalogRepository t state))
    (hencode : service.router.responder.encode = encodeJSON times) {route : CatalogRoute}
    {request : Request} {x : Exchange}
    (h : CatalogAnswer service route request false x.response) :
    DocumentedAnswer service route.operation request (.served (.catalog route) x) := by
  cases h with
  | value found h =>
    obtain ⟨call, hcall, hrun⟩ := found
    rw [hencode] at h
    have hlegal := (makes_of_ok hcall).legal hc hstate (hrepository.value hrun)
    have hmem : OpenApi.ok route.schema ∈ route.operation.responses := by
      simp [CatalogRoute.operation]
    exact .described hmem (delivers_describes h (hlegal.conforms times))
  | @problem document fails path h =>
    rw [hencode] at h
    have hdescribes := delivers_describes h (OpenApi.problem_conforms document)
    generalize document.status = status at fails hdescribes
    cases fails with
    | refused hrefused =>
      have hmem : OpenApi.badRequest ∈ route.operation.responses := by
        simp [CatalogRoute.operation, parameterized_of_error hrefused]
      exact .described hmem hdescribes
    | missing hcall hrun he =>
      have hsingle := (makes_of_ok hcall).single (hrepository.missing hrun he) he
      have hmem : OpenApi.notFound ∈ route.operation.responses := by
        simp [CatalogRoute.operation, hsingle]
      exact .described hmem hdescribes
    | late =>
      have hmem : OpenApi.gatewayTimeout ∈ route.operation.responses := by
        simp [CatalogRoute.operation]
      exact .described hmem hdescribes
    | failed hcall hrun hfound hlate he =>
      exact .failed (.failed hcall hrun hfound hlate he) hdescribes
    | panicked hcall hrun => exact .failed (.panicked hcall hrun) hdescribes
  | canceled canceled h => exact .canceled canceled h

/-- The version is always answered with its document. -/
theorem version_documented (service : Service) (request : Request) (method : String)
    (path : Bytes) : DocumentedAnswer service versionOperation request (.served .version
      (service.router.wrap Route.version.template method path
        (service.handlerFunc request .version) (Router.securityHeaders { broken := false }))) := by
  have h := @Service.static_answer service request .version nofun method path false
  have hnests : (Json.record [("version", .string service.assets.version)]).Nests 1 := by simp
  have hparse : Json.parse (versionDocument service.assets.version) =
      some (Json.record [("version", .string service.assets.version)]).valid :=
    Json.parse_written encoderStyle (Nat.le_trans hnests (by decide))
      (List.forall_mem_singleton.mpr rfl)
  have hbody := h.hasBody.trans (if_neg Bool.false_ne_true)
  have hdescribes : (OpenApi.ok OpenApi.version).Describes (service.router.wrap
      Route.version.template method path (service.handlerFunc request .version)
      (Router.securityHeaders { broken := false })).response :=
    ⟨h.hasStatus, h.hasType, _, (congrArg Json.parse hbody).trans hparse,
      OpenApi.version_conforms service.assets.version⟩
  exact .described (List.mem_singleton.mpr rfl) hdescribes

end Answers

theorem importedTables_seeded : importedTables.Seeded where
  toCanonical := by decide
  entityTypes := by decide
  entityStatus := by decide
  catalogStatus := by decide

end OpenDiscogs
