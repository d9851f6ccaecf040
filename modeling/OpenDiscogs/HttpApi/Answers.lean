import OpenDiscogs.HttpApi.Mux

/-! What every request is answered with: the security headers, and a whole document or, when it was
canceled, nothing. -/
namespace OpenDiscogs.HttpApi
open Utf8 Catalog HttpResponse ServeMux

/-- The header fields that every response has. -/
structure Secure (header : Header) : Prop where
  typeOptions : header.get headerTypeOptions = lit headerValueNoSniff
  referrerPolicy : header.get headerReferrerPolicy = lit headerValueNoReferrer
  frameOptions : header.get headerFrameOptions = lit headerValueDeny

namespace Secure
variable {header : Header}

theorem start (writer : Writer) : Secure (Router.securityHeaders writer).header := by
  have hreferrer : headerReferrerPolicy ≠ headerTypeOptions := by decide
  have hframe : headerFrameOptions ≠ headerTypeOptions := by decide
  have hframe' : headerFrameOptions ≠ headerReferrerPolicy := by decide
  constructor
  · exact (Header.get_set_other hframe _ _).trans
      ((Header.get_set_other hreferrer _ _).trans (Header.get_set _ _ _))
  · exact (Header.get_set_other hframe' _ _).trans (Header.get_set _ _ _)
  · exact Header.get_set _ _ _

/-- Another field is no matter. -/
theorem set (h : Secure header) {name : String} (hn : name ∉ [headerTypeOptions,
    headerReferrerPolicy, headerFrameOptions]) (value : Bytes) : Secure (header.set name value) := by
  simp only [List.mem_cons, List.not_mem_nil, or_false, not_or] at hn
  exact ⟨(Header.get_set_other hn.1 _ _).trans h.typeOptions,
    (Header.get_set_other hn.2.1 _ _).trans h.referrerPolicy,
    (Header.get_set_other hn.2.2 _ _).trans h.frameOptions⟩

theorem jsonHeader (h : Secure header) (r : Responder) (status : Nat) (encoded : Bytes) :
    Secure (r.jsonHeader header status encoded) := by
  unfold Responder.jsonHeader
  refine set ?_ (by decide) _
  split
  · refine set ?_ (by decide) _
    split
    · exact set h (by decide) _
    · exact h
  · split
    · exact set h (by decide) _
    · exact h

theorem assetHeader (h : Secure header) (r : Responder) (contentType : String) (document : Bytes) :
    Secure (r.assetHeader header contentType document) := by
  have htype : Secure (header.set headerContentType (lit contentType)) := h.set (by decide) _
  have hlength : Secure ((header.set headerContentType (lit contentType)).set headerContentLength
      (Strconv.formatInt document.length)) := htype.set (by decide) _
  unfold Responder.assetHeader
  simp only
  split
  · exact hlength.set (by decide) _
  · exact hlength

end Secure

/-! What is written is what is sent -/

/-- A request that nothing was written for, with the header that an answer starts from. -/
structure Open (x : Exchange) (header : Header) (broken : Bool) : Prop where
  coherent : x.recorder.Coherent
  unwritten : x.recorder.wroteHeader = false
  header : x.recorder.writer.header = header
  empty : x.recorder.writer.body = []
  broken : x.recorder.writer.broken = broken

/-- The response of an exchange. -/
def Exchange.response (x : Exchange) : Response := x.recorder.writer.response

section Sent
variable {x : Exchange} {header : Header} {broken : Bool}

theorem Open.log (h : Open x header broken) (event : Event) : Open (x.log event) header broken :=
  ⟨h.coherent, h.unwritten, h.header, h.empty, h.broken⟩

theorem Open.withHeader (h : Open x header broken) (other : Header) :
    Open (x.withHeader other) other broken :=
  ⟨h.coherent.withHeader other, h.unwritten, rfl, h.empty, h.broken⟩

theorem Open.response (h : Open x header broken) : x.response = ⟨200, header, []⟩ := by
  rw [Exchange.response, Writer.response_unsent (h.coherent.unsent h.unwritten).1, h.header, h.empty]

/-- The one status and the one body of an answer. -/
theorem Open.sent (h : Open x header broken) (status : Nat) (body : Bytes) :
    (((x.recorder.writeHeader status).write body).1.writer.response =
      ⟨status, header, if broken then [] else body⟩) := by
  rw [StatusWriter.writeHeader_fresh h.coherent h.unwritten, StatusWriter.write_wrote rfl]
  rw [Writer.response_sent (Writer.write_sent rfl body), h.header]
  simp only [Writer.write]
  rw [h.broken, h.empty]
  cases broken <;> rfl

end Sent

/-- A document as it is sent: its status, its type, its length and its bytes, which a broken
connection does not take. Only a success may be cached. -/
structure Delivers (cacheControl : Bytes) (broken : Bool) (response : Response) (status : Nat)
    (contentType : String) (document : Bytes) : Prop where
  secure : Secure response.header
  hasType : response.header.get headerContentType = lit contentType
  hasLength : response.header.get headerContentLength = Strconv.formatInt document.length
  hasCache : response.header.get headerCacheControl = if status < 300 then cacheControl else []
  hasStatus : response.status = status
  hasBody : response.body = if broken then [] else document

namespace Responder
variable (r : Responder) {x : Exchange} {header : Header} {broken : Bool}

/-- The fields of a JSON document; a type that was set before is kept. -/
theorem jsonHeader_get (hcache : header.get headerCacheControl = []) {status : Nat}
    (hs : 200 ≤ status) (encoded : Bytes) :
    (r.jsonHeader header status encoded).get headerContentType =
        (if header.get headerContentType = [] then lit contentTypeJSON
          else header.get headerContentType) ∧
      (r.jsonHeader header status encoded).get headerContentLength =
        Strconv.formatInt encoded.length ∧
      (r.jsonHeader header status encoded).get headerCacheControl =
        if status < 300 then r.cacheControl else [] := by
  have hlengthType : headerContentLength ≠ headerContentType := by decide
  have hcacheType : headerCacheControl ≠ headerContentType := by decide
  have hlengthCache : headerContentLength ≠ headerCacheControl := by decide
  have htypeCache : headerContentType ≠ headerCacheControl := by decide
  let typed := if header.get headerContentType = [] then
    header.set headerContentType (lit contentTypeJSON) else header
  have htyped : typed.get headerContentType = (if header.get headerContentType = [] then
      lit contentTypeJSON else header.get headerContentType) := by
    simp only [typed]
    split
    · exact Header.get_set _ _ _
    · rfl
  have huncached : typed.get headerCacheControl = [] := by
    simp only [typed]
    split
    · exact (Header.get_set_other htypeCache _ _).trans hcache
    · exact hcache
  let cached := if 200 ≤ status ∧ status < 300 ∧ r.cacheControl ≠ [] then
    typed.set headerCacheControl r.cacheControl else typed
  have hset : r.jsonHeader header status encoded =
      cached.set headerContentLength (Strconv.formatInt encoded.length) := rfl
  rw [hset, Header.get_set, Header.get_set_other hlengthType, Header.get_set_other hlengthCache]
  refine ⟨?_, rfl, ?_⟩
  · simp only [cached]
    split
    · exact (Header.get_set_other hcacheType _ _).trans htyped
    · exact htyped
  · simp only [cached]
    split
    · next h => rw [Header.get_set, if_pos h.2.1]
    · next h =>
      rw [huncached]
      split
      · next hlow => simpa [hs, hlow, eq_comm] using h
      · rfl

/-- A document that is written to an open exchange is delivered. -/
theorem writeEncoded_delivers (h : Open x header broken) (hsecure : Secure header)
    (hcache : header.get headerCacheControl = []) {status : Nat} (hs : 200 ≤ status)
    {contentType : String}
    (htype : (if header.get headerContentType = [] then lit contentTypeJSON
      else header.get headerContentType) = lit contentType) (encoded : Bytes) :
    Delivers r.cacheControl broken (r.writeEncoded x status encoded).response status contentType
      encoded := by
  have hsent := (h.withHeader (r.jsonHeader header status encoded)).sent status encoded
  have hresponse : (r.writeEncoded x status encoded).response =
      ⟨status, r.jsonHeader header status encoded, if broken then [] else encoded⟩ := by
    rw [← hsent, writeEncoded, h.header]
    simp only
    split <;> rfl
  obtain ⟨hget, hlength, hcontrol⟩ := r.jsonHeader_get hcache hs encoded
  rw [hresponse]
  exact ⟨hsecure.jsonHeader r status encoded, hget.trans htype, hlength, hcontrol, rfl, rfl⟩

/-- An asset that is written to an open exchange is delivered. -/
theorem asset_delivers (h : Open x header broken) (hsecure : Secure header)
    (hcache : header.get headerCacheControl = []) (contentType : String) (document : Bytes) :
    Delivers r.cacheControl broken (r.asset contentType document x).response 200 contentType
      document := by
  have hsent := (h.withHeader (r.assetHeader header contentType document)).sent 200 document
  have hresponse : (r.asset contentType document x).response =
      ⟨200, r.assetHeader header contentType document, if broken then [] else document⟩ := by
    rw [← hsent, asset, h.header]
    simp only
    split <;> rfl
  have hlengthType : headerContentLength ≠ headerContentType := by decide
  have hcacheType : headerCacheControl ≠ headerContentType := by decide
  have hcacheLength : headerCacheControl ≠ headerContentLength := by decide
  have hlengthCache : headerContentLength ≠ headerCacheControl := by decide
  have htypeCache : headerContentType ≠ headerCacheControl := by decide
  rw [hresponse]
  refine ⟨hsecure.assetHeader r contentType document, ?_, ?_, ?_, rfl, rfl⟩
  · unfold assetHeader
    simp only
    split
    · rw [Header.get_set_other hcacheType, Header.get_set_other hlengthType, Header.get_set]
    · rw [Header.get_set_other hlengthType, Header.get_set]
  · unfold assetHeader
    simp only
    split
    · rw [Header.get_set_other hcacheLength, Header.get_set]
    · rw [Header.get_set]
  · unfold assetHeader
    simp only
    split
    · rw [Header.get_set, if_pos (by decide)]
    · next hempty =>
      rw [Header.get_set_other hlengthCache, Header.get_set_other htypeCache, hcache,
        not_not.mp hempty]
      rfl

/-- A problem names its status and the path of its request. -/
theorem problem_delivers (h : Open x header broken) (hsecure : Secure header)
    (hcache : header.get headerCacheControl = []) {status : Nat} (hs : 200 ≤ status)
    (path : Bytes) (title detail : String) :
    Delivers r.cacheControl broken (r.problem x path status title detail).response status
      contentTypeProblemJSON (r.encode (.problem
        { type := problemTypeAboutBlank, title, status, detail, instanceURI := path })) := by
  have htypeCache : headerContentType ≠ headerCacheControl := by decide
  rw [problem, writeJSON_eq, h.header]
  refine r.writeEncoded_delivers (h.withHeader _) (hsecure.set (by decide) _)
    ((Header.get_set_other htypeCache _ _).trans hcache) hs ?_ _
  rw [Header.get_set, if_neg (by decide)]

end Responder
/-! The answer of a route -/

namespace Router
variable (router : Router)

/-- A request as its handler gets it. -/
theorem open_start (route : String) (broken : Bool) :
    Open { recorder := { writer := securityHeaders { broken := broken } },
           events := [.requestStarted route] }
      (securityHeaders { broken := broken }).header broken :=
  ⟨StatusWriter.Coherent.start _ rfl, rfl, rfl, rfl, rfl⟩

/-- No field but the security headers is there before. -/
theorem start_get (broken : Bool) :
    (securityHeaders { broken := broken }).header.get headerCacheControl = [] ∧
      (securityHeaders { broken := broken }).header.get headerContentType = [] := by
  cases broken <;> decide

theorem finish_returned (route method : String) (path : Bytes) (x : Exchange) :
    (router.finish route method path x false).response = x.response := by
  unfold finish
  simp only
  split <;> rfl

/-- The response of a handler that returns. -/
theorem wrap_returned {route method : String} {path : Bytes} {handler : HandlerFunc}
    {writer : Writer} {x : Exchange}
    (h : handler { recorder := { writer := writer }, events := [.requestStarted route] } =
      (x, false)) : (router.wrap route method path handler writer).response = x.response := by
  unfold wrap
  simp only [h]
  exact router.finish_returned route method path x

/-- The deferred answer to a panic before anything was written. -/
theorem finish_panicked (route method : String) (path : Bytes) {x : Exchange}
    (h : x.recorder.wroteHeader = false) :
    (router.finish route method path x true).response =
      (router.responder.problem (x.log (.panicked route)) path 500 problemTitleInternal
        problemDetailInternal).response := by
  have hw : (!(x.log (.panicked route)).recorder.wroteHeader) = true := by simp [Exchange.log, h]
  unfold finish
  simp only [if_true, hw]
  split <;> rfl

end Router

/-- A request whose call was canceled, and not for another reason too. -/
def CatalogRoute.Canceled (route : CatalogRoute) (repository : Repository) (request : Request) :
    Prop :=
  ∃ call e, route.handler request = .ok call ∧ call.run repository request.path = .error e ∧
    e.is .notFound = false ∧ e.is .deadlineExceeded = false ∧ e.is .canceled = true

/-- The value of a request's call. -/
def CatalogRoute.Found (route : CatalogRoute) (repository : Repository) (request : Request)
    (payload : Payload) : Prop :=
  ∃ call, route.handler request = .ok call ∧ call.run repository request.path = .value payload

/-- Why a request is answered with a problem, and the status that says so. -/
inductive CatalogRoute.Fails (route : CatalogRoute) (repository : Repository) (request : Request) :
    Nat → Prop where
  | refused {text : String} (h : route.handler request = .error text) :
      Fails route repository request 400
  | missing {call : Call} {e : Err} (hcall : route.handler request = .ok call)
      (hrun : call.run repository request.path = .error e) (he : e.is .notFound = true) :
      Fails route repository request 404
  | late {call : Call} {e : Err} (hcall : route.handler request = .ok call)
      (hrun : call.run repository request.path = .error e) (hfound : e.is .notFound = false)
      (he : e.is .deadlineExceeded = true) : Fails route repository request 504
  | failed {call : Call} {e : Err} (hcall : route.handler request = .ok call)
      (hrun : call.run repository request.path = .error e) (hfound : e.is .notFound = false)
      (hlate : e.is .deadlineExceeded = false) (he : e.is .canceled = false) :
      Fails route repository request 500
  | panicked {call : Call} (hcall : route.handler request = .ok call)
      (hrun : call.run repository request.path = .panic) : Fails route repository request 500

theorem CatalogRoute.Fails.status {route : CatalogRoute} {repository : Repository}
    {request : Request} {status : Nat} (h : route.Fails repository request status) :
    status ∈ [400, 404, 500, 504] := by
  cases h <;> decide

/-- What a catalog route answers: the document of its value, a problem with a status of its own, or
to a canceled request an empty success. -/
inductive CatalogAnswer (service : Service) (route : CatalogRoute) (request : Request)
    (broken : Bool) (response : Response) : Prop where
  | value {payload : Payload} (found : route.Found service.repository request payload)
      (h : Delivers service.router.responder.cacheControl broken response 200 contentTypeJSON
        (service.router.responder.encode (.catalog payload)))
  | problem {document : ProblemDocument}
      (fails : route.Fails service.repository request document.status)
      (path : document.instanceURI = request.path)
      (h : Delivers service.router.responder.cacheControl broken response document.status
        contentTypeProblemJSON (service.router.responder.encode (.problem document)))
  | canceled (canceled : route.Canceled service.repository request)
      (h : response = ⟨200, (Router.securityHeaders {}).header, []⟩)

section Answered
variable {service : Service} (route : CatalogRoute) (request : Request)

/-- A problem that is written to an open exchange is the answer of its route. -/
theorem problem_answer {broken : Bool} {x : Exchange}
    (h : Open x (Router.securityHeaders { broken := broken }).header broken) {status : Nat}
    (hfails : route.Fails service.repository request status) (title detail : String) :
    CatalogAnswer service route request broken
      (service.router.responder.problem x request.path status title detail).response := by
  have hlow : 200 ≤ status := by
    have hs := hfails.status
    simp only [List.mem_cons, List.not_mem_nil, or_false] at hs
    omega
  let document : ProblemDocument :=
    { type := problemTypeAboutBlank, title, status, detail, instanceURI := request.path }
  have hdelivers : Delivers service.router.responder.cacheControl broken
      (service.router.responder.problem x request.path status title detail).response
      document.status contentTypeProblemJSON
      (service.router.responder.encode (.problem document)) :=
    service.router.responder.problem_delivers h (Secure.start _) (Router.start_get broken).1 hlow
      request.path title detail
  exact .problem hfails rfl hdelivers

/-- The error of a call is answered with a problem, or not at all. -/
theorem repositoryError_answer {broken : Bool} {x : Exchange}
    (h : Open x (Router.securityHeaders { broken := broken }).header broken) {call : Call} {e : Err}
    (hcall : route.handler request = .ok call)
    (he : call.run service.repository request.path = .error e) :
    CatalogAnswer service route request broken
      (service.router.responder.repositoryError x request.path e).response := by
  unfold Responder.repositoryError
  split
  · next hmissing => exact problem_answer route request h (.missing hcall he hmissing) _ _
  · next hfound =>
    have hfound : e.is .notFound = false := by simpa using hfound
    split
    · next hlate => exact problem_answer route request h (.late hcall he hfound hlate) _ _
    · next hlate =>
      have hlate : e.is .deadlineExceeded = false := by simpa using hlate
      split
      · next hcanceled =>
        rw [h.response]
        exact .canceled ⟨call, e, hcall, he, hfound, hlate, hcanceled⟩ rfl
      · next hcanceled =>
        exact problem_answer route request (h.log _)
          (.failed hcall he hfound hlate (by simpa using hcanceled)) _ _

/-- The value of a call is sent as its document. -/
theorem serve_found {payload : Payload} (h : route.Found service.repository request payload)
    (method : String) (broken : Bool) :
    Delivers service.router.responder.cacheControl broken
      (service.router.serve service.repository route method request broken).response 200
      contentTypeJSON (service.router.responder.encode (.catalog payload)) := by
  have hopen := Router.open_start route.template broken
  obtain ⟨call, hcall, hrun⟩ := h
  unfold Router.serve Router.wrap Handler.serve
  simp only [hcall, hrun, Router.finish_returned]
  exact service.router.responder.writeEncoded_delivers hopen (Secure.start _)
    (Router.start_get broken).1 (by decide) (if_pos (Router.start_get broken).2) _

/-- Every request to a catalog route, whatever the repository does with it, is answered with one
whole document or, when it was canceled, with nothing. -/
theorem serve_answer (service : Service) (method : String) (broken : Bool) :
    CatalogAnswer service route request broken
      (service.router.serve service.repository route method request broken).response := by
  have hopen := Router.open_start route.template broken
  cases hcall : route.handler request with
  | error text =>
    unfold Router.serve Router.wrap Handler.serve
    simp only [hcall, Router.finish_returned]
    exact problem_answer route request hopen (.refused hcall) _ _
  | ok call =>
    cases hrun : call.run service.repository request.path with
    | value payload =>
      have hfound : route.Found service.repository request payload := ⟨call, hcall, hrun⟩
      exact .value hfound (serve_found route request hfound method broken)
    | error e =>
      unfold Router.serve Router.wrap Handler.serve
      simp only [hcall, hrun, Router.finish_returned]
      exact repositoryError_answer route request hopen hcall hrun
    | panic =>
      unfold Router.serve Router.wrap Handler.serve
      simp only [hcall, hrun]
      rw [Router.finish_panicked _ _ _ _ hopen.unwritten]
      exact problem_answer route request (hopen.log _) (.panicked hcall hrun) _ _

end Answered

theorem CatalogAnswer.secure {service : Service} {route : CatalogRoute} {request : Request}
    {broken : Bool} {response : Response}
    (h : CatalogAnswer service route request broken response) : Secure response.header := by
  cases h with
  | value _ h => exact h.secure
  | problem _ _ h => exact h.secure
  | canceled _ h =>
    rw [h]
    exact Secure.start _

/-! Every request -/

namespace Service

/-- The documents of the routes beside the catalog, with their types. -/
def staticDocument (assets : Assets) : Route → String × Bytes
  | .catalog _ => ("", [])
  | .openAPI => (contentTypeJSON, assets.openAPIDocument)
  | .openAPIJSON => (contentTypeJSON, assets.openAPIDocument)
  | .documentation => (contentTypeHTML, assets.documentationHTML)
  | .documentationSlash => (contentTypeHTML, assets.documentationHTML)
  | .documentationJS => (contentTypeJavaScript, assets.documentationScript)
  | .scalarJS => (contentTypeJavaScript, assets.scalarScript)
  | .version => (contentTypeJSON, versionDocument assets.version)

/-- What a request may be answered with. -/
inductive Answered (service : Service) (url : Url.URL) (broken : Bool) : Answer → Prop where
  | catalog {route : CatalogRoute} {matched : List Bytes} {x : Exchange}
      (h : CatalogAnswer service route (request url matched) broken x.response) :
      Answered service url broken (.served (.catalog route) x)
  | static {route : Route} {x : Exchange} (other : ∀ r, route ≠ .catalog r)
      (h : Delivers service.router.responder.cacheControl broken x.response 200
        (staticDocument service.assets route).1 (staticDocument service.assets route).2) :
      Answered service url broken (.served route x)
  | redirected {header : Header} (h : Secure header) :
      Answered service url broken (.redirected header (cleanPath url.escapedPath))
  | methodNotAllowed {writer : Writer} (h : Secure writer.response.header)
      (status : writer.response.status = 405)
      (allow : writer.response.header.get "Allow" = lit "GET, HEAD") :
      Answered service url broken (.refused writer)
  | notFound {writer : Writer} (h : Secure writer.response.header)
      (status : writer.response.status = 404) : Answered service url broken (.refused writer)

/-- The routes beside the catalog are answered with what was built into the program. -/
theorem static_answer (service : Service) (request : Request) {route : Route}
    (other : ∀ r, route ≠ .catalog r) (method : String) (path : Bytes) (broken : Bool) :
    Delivers service.router.responder.cacheControl broken
      (service.router.wrap route.template method path (service.handlerFunc request route)
        (Router.securityHeaders { broken := broken })).response 200
      (staticDocument service.assets route).1 (staticDocument service.assets route).2 := by
  have hopen := Router.open_start route.template broken
  have hsecure := Secure.start { broken := broken }
  obtain ⟨hcache, htype⟩ := Router.start_get broken
  have hpolicy : headerContentSecurityPolicy ≠ headerCacheControl := by decide
  have hreference := service.router.responder.asset_delivers
    (hopen.withHeader ((Router.securityHeaders { broken := broken }).header.set
      headerContentSecurityPolicy (lit contentSecurityPolicy)))
    (hsecure.set (by decide) _) ((Header.get_set_other hpolicy _ _).trans hcache)
    contentTypeHTML service.assets.documentationHTML
  have hasset := service.router.responder.asset_delivers hopen hsecure hcache
  cases route with
  | catalog r => exact absurd rfl (other r)
  | openAPI =>
    rw [service.router.wrap_returned rfl]
    exact hasset _ _
  | openAPIJSON =>
    rw [service.router.wrap_returned rfl]
    exact hasset _ _
  | documentation =>
    rw [service.router.wrap_returned rfl]
    exact hreference
  | documentationSlash =>
    rw [service.router.wrap_returned rfl]
    exact hreference
  | documentationJS =>
    rw [service.router.wrap_returned rfl]
    exact hasset _ _
  | scalarJS =>
    rw [service.router.wrap_returned rfl]
    exact hasset _ _
  | version =>
    rw [service.router.wrap_returned rfl]
    exact service.router.responder.writeEncoded_delivers hopen hsecure hcache (by decide)
      (if_pos htype) _

/-- The multiplexer's own errors keep the security headers. -/
theorem error_secure {writer : Writer} (hw : writer.sent = none) (h : Secure writer.header)
    (text : String) (status : Nat) : Secure (writer.error text status).response.header := by
  obtain ⟨-, hoptions, hother⟩ := Writer.error_response hw text status
  exact ⟨hoptions, (hother _ (by decide)).trans h.referrerPolicy,
    (hother _ (by decide)).trans h.frameOptions⟩

end Service
end OpenDiscogs.HttpApi
