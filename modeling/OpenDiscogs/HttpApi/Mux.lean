import OpenDiscogs.HttpApi.Documents
import OpenDiscogs.HttpApi.Router
import OpenDiscogs.Library.ServeMux

/-! The whole HTTP handler: the multiplexer of all routes, the documents that are served beside the
catalog, and what a request ends in. -/
namespace OpenDiscogs.HttpApi
open Utf8 Catalog HttpResponse ServeMux

deriving instance DecidableEq for CatalogRoute

/-- The routes in the order in which they are registered. -/
inductive Route where
  | catalog (route : CatalogRoute)
  | openAPI | openAPIJSON | documentation | documentationSlash | documentationJS | scalarJS
  | version
deriving DecidableEq

namespace Route

def template : Route → String
  | catalog route => route.template
  | openAPI => "/v3/api-docs"
  | openAPIJSON => "/openapi.json"
  | documentation => "/docs"
  | documentationSlash => "/docs/{$}"
  | documentationJS => "/docs/reference.js"
  | scalarJS => "/docs/scalar-1.75.0.js"
  | version => "/version"

def all : List Route :=
  [catalog .artists, catalog .artist, catalog .artistReleases, catalog .labels, catalog .label,
   catalog .labelReleases, catalog .masters, catalog .master, catalog .masterReleases,
   catalog .releases, catalog .release, catalog .releaseTracks, catalog .releaseIdentifiers,
   catalog .snapshot, openAPI, openAPIJSON, documentation, documentationSlash, documentationJS,
   scalarJS, version]

theorem mem_all (route : Route) : route ∈ all := by
  cases route with
  | catalog route => cases route <;> decide
  | _ => decide

/-- The segments of the templates. -/
def segments : Route → List Segment
  | catalog route => match route with
    | .artists => [.literal (lit "artists")]
    | .artist => [.literal (lit "artists"), .wildcard (lit "id")]
    | .artistReleases => [.literal (lit "artists"), .wildcard (lit "id"), .literal (lit "releases")]
    | .labels => [.literal (lit "labels")]
    | .label => [.literal (lit "labels"), .wildcard (lit "id")]
    | .labelReleases => [.literal (lit "labels"), .wildcard (lit "id"), .literal (lit "releases")]
    | .masters => [.literal (lit "masters")]
    | .master => [.literal (lit "masters"), .wildcard (lit "id")]
    | .masterReleases => [.literal (lit "masters"), .wildcard (lit "id"), .literal (lit "releases")]
    | .releases => [.literal (lit "releases")]
    | .release => [.literal (lit "releases"), .wildcard (lit "id")]
    | .releaseTracks => [.literal (lit "releases"), .wildcard (lit "id"), .literal (lit "tracks")]
    | .releaseIdentifiers =>
      [.literal (lit "releases"), .wildcard (lit "id"), .literal (lit "identifiers")]
    | .snapshot => [.literal (lit "snapshot")]
  | openAPI => [.literal (lit "v3"), .literal (lit "api-docs")]
  | openAPIJSON => [.literal (lit "openapi.json")]
  | documentation => [.literal (lit "docs")]
  | documentationSlash => [.literal (lit "docs"), .literal slash]
  | documentationJS => [.literal (lit "docs"), .literal (lit "reference.js")]
  | scalarJS => [.literal (lit "docs"), .literal (lit "scalar-1.75.0.js")]
  | version => [.literal (lit "version")]

/-- Every template is a pattern, and these are its segments. -/
theorem parseSegments_template (route : Route) :
    parseSegments (lit route.template) = some route.segments := by
  cases route with
  | catalog route => cases route <;> decide
  | _ => decide

/-- `pattern := MethodGet + " " + route` -/
def pattern (route : Route) : Pattern := { method := some "GET", segments := route.segments }

def mux : Mux Route := all.map fun route => (route.pattern, route)

theorem mem_mux {entry : Pattern × Route} :
    entry ∈ mux ↔ entry.1 = entry.2.pattern := by
  obtain ⟨pattern, route⟩ := entry
  constructor
  · intro h
    obtain ⟨route, -, he⟩ := List.mem_map.mp h
    cases he
    rfl
  · intro h
    simp only at h
    exact List.mem_map.mpr ⟨route, mem_all route, by rw [h]⟩

/-- Two templates have no path in common. -/
theorem compatible_iff : ∀ p ∈ all, ∀ q ∈ all, compatible p.segments q.segments = true → p = q := by
  decide +kernel

/-- All templates are for GET, no two of them are for one path, and the only one with a last slash
stands beside one without. -/
theorem mux_plain : mux.Plain where
  get entry hmem := by rw [mem_mux.mp hmem]; rfl
  single entry hmem s hs := by
    rw [mem_mux.mp hmem] at hs
    have hall : ∀ route ∈ all, ∀ s ∈ route.segments, s.single = true := by decide
    exact hall _ (mem_all _) s hs
  unambiguous p hp q hq h := by
    obtain ⟨pattern, route⟩ := p
    obtain ⟨other, another⟩ := q
    have hpattern := mem_mux.mp hp
    have hother := mem_mux.mp hq
    simp only at hpattern hother
    subst hpattern hother
    rw [compatible_iff route (mem_all route) another (mem_all another) h]
  companion entry hmem front hfront := by
    have hslash : ∀ route ∈ all, route.segments.getLast? = some (.literal slash) →
        route.segments.dropLast = documentation.segments := by decide
    rw [mem_mux.mp hmem] at hfront
    have hlast : entry.2.segments.getLast? = some (.literal slash) := by
      rw [show entry.2.segments = front ++ [.literal slash] from hfront, List.getLast?_concat]
    have hdrop := hslash _ (mem_all entry.2) hlast
    rw [show entry.2.segments = front ++ [.literal slash] from hfront, List.dropLast_concat] at hdrop
    exact ⟨(documentation.pattern, documentation), mem_mux.mpr rfl, hdrop.symm⟩

/-- A template is for a path. -/
theorem mux_for {path : Bytes} {route : Route} {matched : List Bytes} :
    mux.For path route matched ↔ Matches route.segments path matched := by
  constructor
  · intro hparts
    obtain ⟨entry, hmem, rfl, hm⟩ := hparts
    rwa [mem_mux.mp hmem] at hm
  · intro hm
    exact ⟨(route.pattern, route), mem_mux.mpr rfl, rfl, hm⟩

end Route

/-! Documents beside the catalog -/

def headerContentSecurityPolicy := "Content-Security-Policy"
def contentSecurityPolicy :=
  "default-src 'self'; script-src 'self'; style-src 'self' 'unsafe-inline'; " ++
  "img-src 'self' data:; font-src 'self' data:; connect-src 'self'; base-uri 'none'; " ++
  "form-action 'none'; frame-ancestors 'none'"
def contentTypeHTML := "text/html; charset=utf-8"
def contentTypeJavaScript := "text/javascript; charset=utf-8"

/-- What is built into the program. -/
structure Assets where
  openAPIDocument : Bytes
  documentationHTML : Bytes
  documentationScript : Bytes
  scalarScript : Bytes
  version : Bytes

namespace Responder

def assetHeader (r : Responder) (header : Header) (contentType : String) (document : Bytes) :
    Header :=
  let header := header.set headerContentType (lit contentType)
  let header := header.set headerContentLength (Strconv.formatInt document.length)
  if r.cacheControl ≠ [] then header.set headerCacheControl r.cacheControl else header

def asset (r : Responder) (contentType : String) (document : Bytes) (x : Exchange) : Exchange :=
  let x := x.withHeader (r.assetHeader x.recorder.writer.header contentType document)
  let (recorder, taken) := (x.recorder.writeHeader 200).write document
  let x := { x with recorder := recorder }
  if taken then x else x.log .writeFailed

def document (r : Responder) (document : Bytes) (x : Exchange) : Exchange :=
  r.asset contentTypeJSON document x

/-- `writeJSON` of a value that is encoded already. -/
def writeEncoded (r : Responder) (x : Exchange) (status : Nat) (encoded : Bytes) : Exchange :=
  let x := x.withHeader (r.jsonHeader x.recorder.writer.header status encoded)
  let (recorder, taken) := (x.recorder.writeHeader status).write encoded
  let x := { x with recorder := recorder }
  if taken then x else x.log .writeFailed

theorem writeJSON_eq (r : Responder) (x : Exchange) (status : Nat) (value : JSONPayload) :
    r.writeJSON x status value = r.writeEncoded x status (r.encode value) := rfl

end Responder

/-- The document of a version. -/
def versionDocument (version : Bytes) : Bytes :=
  encoderStyle.write (Json.record [("version", .string version)]) ++ [0x0A]

namespace DocumentationHandler
variable (r : Responder) (assets : Assets)

def openAPI : HandlerFunc := fun x => (r.document assets.openAPIDocument x, false)

def reference : HandlerFunc := fun x =>
  let header := x.recorder.writer.header.set headerContentSecurityPolicy (lit contentSecurityPolicy)
  (r.asset contentTypeHTML assets.documentationHTML (x.withHeader header), false)

def referenceScript : HandlerFunc := fun x =>
  (r.asset contentTypeJavaScript assets.documentationScript x, false)

def scalarScript : HandlerFunc := fun x =>
  (r.asset contentTypeJavaScript assets.scalarScript x, false)

end DocumentationHandler

/-! The handler of all requests -/

/-- What all requests are answered from. -/
structure Service where
  router : Router
  repository : Repository
  assets : Assets

namespace Service

def handlerFunc (service : Service) (request : Request) : Route → HandlerFunc
  | .catalog route => route.handler.serve service.repository service.router.responder request
  | .openAPI => DocumentationHandler.openAPI service.router.responder service.assets
  | .openAPIJSON => DocumentationHandler.openAPI service.router.responder service.assets
  | .documentation => DocumentationHandler.reference service.router.responder service.assets
  | .documentationSlash => DocumentationHandler.reference service.router.responder service.assets
  | .documentationJS => DocumentationHandler.referenceScript service.router.responder service.assets
  | .scalarJS => DocumentationHandler.scalarScript service.router.responder service.assets
  | .version => fun x =>
    (service.router.responder.writeEncoded x 200 (versionDocument service.assets.version), false)

/-- What a request ends in: an exchange with a handler, a redirection with the header fields that
it starts from, or an error of the multiplexer. -/
inductive Answer where
  | served (route : Route) (x : Exchange)
  | redirected (header : Header) (path : Bytes)
  | refused (writer : Writer)

/-- The request of a handler; what stands at the wildcard is its `{id}`. -/
def request (url : Url.URL) (matched : List Bytes) : Request where
  path := url.path
  pathValueID := matched.headD []
  rawQuery := url.rawQuery

/-- A request to the server, over a connection that may be broken. -/
def handle (service : Service) (method : String) (url : Url.URL) (broken : Bool) : Answer :=
  let writer := Router.securityHeaders { broken := broken }
  match Route.mux.reply method url.escapedPath url.path writer with
  | .handled route matched => .served route
      (service.router.wrap route.template method url.path
        (service.handlerFunc (request url matched) route) writer)
  | .redirected header path => .redirected header path
  | .refused writer => .refused writer

/-- A request that is for a route is served there. -/
theorem handle_served (service : Service) {method : String} {url : Url.URL} {route : Route}
    {matched : List Bytes}
    (h : Route.mux.findHandler method url.escapedPath url.path = .handler route matched)
    (broken : Bool) : service.handle method url broken = .served route
      (service.router.wrap route.template method url.path
        (service.handlerFunc (request url matched) route)
        (Router.securityHeaders { broken := broken })) := by
  simp only [handle, Mux.reply, h]

theorem handle_catalog (service : Service) {method : String} {url : Url.URL}
    {route : CatalogRoute} {matched : List Bytes}
    (h : Route.mux.findHandler method url.escapedPath url.path = .handler (.catalog route) matched)
    (broken : Bool) : service.handle method url broken = .served (.catalog route)
      (service.router.serve service.repository route method (request url matched) broken) :=
  service.handle_served h broken

end Service

/-! Dispatch -/

namespace Route

/-- A handler gets the requests whose path its template is for, with GET or HEAD only. -/
theorem findHandler_handler {method : String} {escapedPath path : Bytes} {route : Route}
    {matched : List Bytes} : mux.findHandler method escapedPath path = .handler route matched ↔
      (method = "GET" ∨ method = "HEAD") ∧ cleanPath escapedPath = escapedPath ∧
        Matches route.segments escapedPath matched := by
  rw [← mux_for]
  exact (mux_plain.dispatch method escapedPath path).1 route matched

/-- Where a request goes, whatever it is: to the one handler whose template is for its path, with
GET or HEAD only; to the clean path, where it is not redirected again; to an answer that names the
two methods; or nowhere. -/
theorem requests_dispatched (method : String) (escapedPath path : Bytes) :
    (∀ route matched, mux.findHandler method escapedPath path = .handler route matched ↔
      (method = "GET" ∨ method = "HEAD") ∧ cleanPath escapedPath = escapedPath ∧
        Matches route.segments escapedPath matched) ∧
    (∀ target, mux.findHandler method escapedPath path = .redirect target ↔
      method ≠ "CONNECT" ∧ cleanPath escapedPath ≠ escapedPath ∧
        target = cleanPath escapedPath) ∧
    (∀ path' target, mux.findHandler method (cleanPath escapedPath) path' ≠ .redirect target) ∧
    (∀ allowed, mux.findHandler method escapedPath path = .methodNotAllowed allowed ↔
      method ≠ "GET" ∧ method ≠ "HEAD" ∧
        (method = "CONNECT" ∨ cleanPath escapedPath = escapedPath) ∧
        (∃ route : Route, ∃ matched, Matches route.segments escapedPath matched) ∧
        allowed = ["GET", "HEAD"]) ∧
    (mux.findHandler method escapedPath path = .notFound ↔
      (method = "CONNECT" ∨ cleanPath escapedPath = escapedPath) ∧
        ∀ route : Route, ∀ matched, ¬Matches route.segments escapedPath matched) := by
  obtain ⟨-, hredirect, hmethods, hnone⟩ := mux_plain.dispatch method escapedPath path
  simp only [mux_for] at hmethods hnone
  refine ⟨fun _ _ => findHandler_handler, hredirect, fun path' target h => ?_, hmethods, hnone⟩
  obtain ⟨-, hunclean, -⟩ :=
    ((mux_plain.dispatch method (cleanPath escapedPath) path').2.1 target).mp h
  exact hunclean (cleanPath_idem escapedPath)

end Route
end OpenDiscogs.HttpApi
