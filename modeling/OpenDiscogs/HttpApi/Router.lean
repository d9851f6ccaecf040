import OpenDiscogs.HttpApi.Responder

/-! The routes of the catalog, and what goes around every handler: security headers, metrics, the
access log and the recovery of panics. -/
namespace OpenDiscogs.HttpApi
open Utf8 Catalog HttpResponse

inductive CatalogRoute where
  | artists | artist | artistReleases | labels | label | labelReleases | masters | master
  | masterReleases | releases | release | releaseTracks | releaseIdentifiers | snapshot

namespace CatalogRoute

def template : CatalogRoute → String
  | artists => "/artists"
  | artist => "/artists/{id}"
  | artistReleases => "/artists/{id}/releases"
  | labels => "/labels"
  | label => "/labels/{id}"
  | labelReleases => "/labels/{id}/releases"
  | masters => "/masters"
  | master => "/masters/{id}"
  | masterReleases => "/masters/{id}/releases"
  | releases => "/releases"
  | release => "/releases/{id}"
  | releaseTracks => "/releases/{id}/tracks"
  | releaseIdentifiers => "/releases/{id}/identifiers"
  | snapshot => "/snapshot"

def handler : CatalogRoute → Handler
  | artists => ArtistHandler.search
  | artist => ArtistHandler.get
  | artistReleases => ArtistHandler.releases
  | labels => LabelHandler.search
  | label => LabelHandler.get
  | labelReleases => LabelHandler.releases
  | masters => MasterHandler.search
  | master => MasterHandler.get
  | masterReleases => MasterHandler.releases
  | releases => ReleaseHandler.search
  | release => ReleaseHandler.get
  | releaseTracks => ReleaseHandler.tracks
  | releaseIdentifiers => ReleaseHandler.identifiers
  | snapshot => SnapshotHandler.get

end CatalogRoute

/-- What a handler does to a request, and whether it ended in a panic. -/
abbrev HandlerFunc := Exchange → Exchange × Bool

/-- The parameters are read, the call is made, and its value or the problem with it is written. -/
def Handler.serve (handler : Handler) (repository : Repository) (r : Responder)
    (request : Request) : HandlerFunc := fun x =>
  match handler request with
  | .error text => (r.badRequest x request.path text, false)
  | .ok call => match call.run repository request.path with
    | .value payload => (r.writeJSON x 200 (.catalog payload), false)
    | .error e => (r.repositoryError x request.path e, false)
    | .panic => (x, true)

structure Router where
  accessLog : Bool
  responder : Responder

namespace Router

/-- The deferred part of a request: a panic is answered, if nothing was, and the status counted. -/
def finish (router : Router) (route method : String) (path : Bytes) (x : Exchange)
    (panicked : Bool) : Exchange :=
  let x := if panicked then
    let x := x.log (.panicked route)
    if !x.recorder.wroteHeader then
      router.responder.problem x path 500 problemTitleInternal problemDetailInternal
    else x
  else x
  let x := x.log (.requestFinished route method x.recorder.status)
  if router.accessLog then x.log (.requestLogged method route x.recorder.status) else x

def wrap (router : Router) (route method : String) (path : Bytes) (handler : HandlerFunc)
    (writer : Writer) : Exchange :=
  let x : Exchange := { recorder := { writer := writer }, events := [.requestStarted route] }
  let (x, panicked) := handler x
  router.finish route method path x panicked

def securityHeaders (writer : Writer) : Writer :=
  let header := writer.header.set headerTypeOptions (lit headerValueNoSniff)
  let header := header.set headerReferrerPolicy (lit headerValueNoReferrer)
  { writer with header := header.set headerFrameOptions (lit headerValueDeny) }

/-- A request to a catalog route, over a connection that may be broken. -/
def serve (router : Router) (repository : Repository) (route : CatalogRoute) (method : String)
    (request : Request) (broken : Bool) : Exchange :=
  router.wrap route.template method request.path
    (route.handler.serve repository router.responder request)
    (securityHeaders { broken := broken })

end Router
end OpenDiscogs.HttpApi
