import OpenDiscogs.HttpApi.Mux

/-! The management listener: health, readiness and metrics, and the probe of the readiness. -/
namespace OpenDiscogs.Management
open Utf8 Catalog HttpResponse ServeMux

def routeHealth := "/healthz"
def routeReadiness := "/readyz"
def routeActuatorHealth := "/actuator/health"
def routeMetrics := "/metrics"
def routeActuatorPrometheus := "/actuator/prometheus"
def headerContentType := "Content-Type"
def contentTypeJSON := "application/json"
def statusUp := "UP"
def statusDown := "DOWN"
def managementReadinessURL := "http://127.0.0.1:8081/readyz"
def errorCreateRequest := "create readiness request"
def errorExecuteRequest := "execute readiness request"
def errorUnexpectedStatus (status : Nat) := s!"readiness endpoint returned HTTP {status}"

/-- The routes in the order in which they are registered. -/
inductive Route where
  | health | readiness | actuatorHealth | metrics | actuatorPrometheus
deriving DecidableEq

namespace Route

def template : Route → String
  | health => routeHealth
  | readiness => routeReadiness
  | actuatorHealth => routeActuatorHealth
  | metrics => routeMetrics
  | actuatorPrometheus => routeActuatorPrometheus

def segments : Route → List Segment
  | health => [.literal (lit "healthz")]
  | readiness => [.literal (lit "readyz")]
  | actuatorHealth => [.literal (lit "actuator"), .literal (lit "health")]
  | metrics => [.literal (lit "metrics")]
  | actuatorPrometheus => [.literal (lit "actuator"), .literal (lit "prometheus")]

theorem parseSegments_template (route : Route) :
    parseSegments (lit route.template) = some route.segments := by
  cases route <;> decide

def pattern (route : Route) : Pattern := { method := some "GET", segments := route.segments }

/-- The routes that are for metrics. -/
def ofMetrics : Route → Bool
  | metrics => true
  | actuatorPrometheus => true
  | _ => false

/-- Metrics have routes only where they are enabled. -/
def registered (metricsEnabled : Bool) : List Route :=
  [health, readiness, actuatorHealth] ++
    if metricsEnabled then [metrics, actuatorPrometheus] else []

theorem mem_registered {metricsEnabled : Bool} {route : Route} :
    route ∈ registered metricsEnabled ↔ (route.ofMetrics = true → metricsEnabled = true) := by
  cases metricsEnabled <;> cases route <;> decide

def mux (metricsEnabled : Bool) : Mux Route :=
  (registered metricsEnabled).map fun route => (route.pattern, route)

variable {metricsEnabled : Bool}

theorem mem_mux {entry : Pattern × Route} : entry ∈ mux metricsEnabled ↔
    entry.1 = entry.2.pattern ∧ entry.2 ∈ registered metricsEnabled := by
  obtain ⟨pattern, route⟩ := entry
  constructor
  · intro h
    obtain ⟨route, hroute, he⟩ := List.mem_map.mp h
    cases he
    exact ⟨rfl, hroute⟩
  · intro h
    simp only at h
    exact List.mem_map.mpr ⟨route, h.2, by rw [h.1]⟩

theorem compatible_iff (p q : Route) : compatible p.segments q.segments = true → p = q := by
  cases p <;> cases q <;> decide

theorem mux_plain (metricsEnabled : Bool) : (mux metricsEnabled).Plain where
  get entry hmem := by rw [(mem_mux.mp hmem).1]; rfl
  single entry hmem s hs := by
    rw [(mem_mux.mp hmem).1] at hs
    have hall : ∀ route : Route, ∀ s ∈ route.segments, s.single = true := by
      intro route
      cases route <;> decide
    exact hall _ s hs
  unambiguous p hp q hq h := by
    obtain ⟨pattern, route⟩ := p
    obtain ⟨other, another⟩ := q
    obtain ⟨hpattern, -⟩ := mem_mux.mp hp
    obtain ⟨hother, -⟩ := mem_mux.mp hq
    simp only at hpattern hother
    subst hpattern hother
    rw [compatible_iff route another h]
  companion entry hmem front hfront := by
    have hlast : ∀ route : Route, route.segments.getLast? ≠ some (.literal slash) := by
      intro route
      cases route <;> decide
    rw [(mem_mux.mp hmem).1] at hfront
    refine absurd ?_ (hlast entry.2)
    rw [show entry.2.segments = front ++ [.literal slash] from hfront, List.getLast?_concat]

theorem mux_for {path : Bytes} {route : Route} {matched : List Bytes} :
    (mux metricsEnabled).For path route matched ↔
      route ∈ registered metricsEnabled ∧ Matches route.segments path matched := by
  constructor
  · intro hparts
    obtain ⟨entry, hmem, rfl, hm⟩ := hparts
    obtain ⟨hpattern, hroute⟩ := mem_mux.mp hmem
    rw [hpattern] at hm
    exact ⟨hroute, hm⟩
  · intro h
    exact ⟨(route.pattern, route), mem_mux.mpr ⟨rfl, h.1⟩, rfl, h.2⟩

end Route

/-- What requests are answered from: whether the checker is ready when it is asked, and the
handler of metrics. -/
structure Handler where
  ready : Option Err
  metricsEnabled : Bool
  metricsHandler : Writer → Writer

/-- The document of a status. -/
def healthDocument (status : String) : Bytes :=
  HttpApi.encoderStyle.write (Json.record [("status", .string (lit status))]) ++ [0x0A]

def writeHealth (writer : Writer) (statusCode : Nat) (status : String) : Writer :=
  let writer := { writer with header := writer.header.set headerContentType (lit contentTypeJSON) }
  ((writer.writeHeader statusCode).write (healthDocument status)).1

namespace Handler

def liveness (writer : Writer) : Writer := writeHealth writer 200 statusUp

def readiness (h : Handler) (writer : Writer) : Writer :=
  if h.ready.isSome then writeHealth writer 503 statusDown
  else writeHealth writer 200 statusUp

def handlerFunc (h : Handler) : Route → Writer → Writer
  | .health => liveness
  | .readiness => h.readiness
  | .actuatorHealth => h.readiness
  | .metrics => h.metricsHandler
  | .actuatorPrometheus => h.metricsHandler

/-- What a request ends in. -/
inductive Answer where
  | served (route : Route) (writer : Writer)
  | redirected (header : Header) (path : Bytes)
  | refused (writer : Writer)

def handle (h : Handler) (method : String) (url : Url.URL) (broken : Bool) : Answer :=
  match (Route.mux h.metricsEnabled).reply method url.escapedPath url.path { broken := broken } with
  | .handled route _ => .served route (h.handlerFunc route { broken := broken })
  | .redirected header path => .redirected header path
  | .refused writer => .refused writer

end Handler

/-- `Ready` of the store: only the connection is checked, not what was imported. -/
def storeReady (pingFailure : Option Err) : Option Err :=
  pingFailure.map (.wrap "check database connectivity")

/-- The probe, with a client that gets a status or fails. -/
def probe (client : Url.URL → Except Err Nat) (endpoint : Bytes) : Except Err Unit :=
  match Url.parse endpoint with
  | none => .error (.other errorCreateRequest)
  | some url =>
    match client url with
    | .error e => .error (.wrap errorExecuteRequest e)
    | .ok status => if status ≠ 200 then .error (.other (errorUnexpectedStatus status)) else .ok ()

/-! What is answered -/

/-- The answer about a status, whose body a broken connection does not take. -/
structure Tells (broken : Bool) (response : Response) (statusCode : Nat) (status : String) :
    Prop where
  code : response.status = statusCode
  hasType : response.header.get headerContentType = lit contentTypeJSON
  body : response.body = if broken then [] else healthDocument status

theorem writeHealth_tells (broken : Bool) (statusCode : Nat) (status : String) :
    Tells broken (writeHealth { broken := broken } statusCode status).response statusCode status := by
  have hresponse : (writeHealth { broken := broken } statusCode status).response =
      ⟨statusCode, Header.set [] headerContentType (lit contentTypeJSON),
        if broken then [] else healthDocument status⟩ := by
    cases broken <;> rfl
  rw [hresponse]
  exact ⟨rfl, Header.get_set _ _ _, rfl⟩

/-- The routes that tell of the database. -/
def Route.ofReadiness : Route → Bool
  | readiness => true
  | actuatorHealth => true
  | _ => false

/-- What a request to the management listener may be answered with. -/
inductive Handler.Answered (h : Handler) (url : Url.URL) (broken : Bool) : Handler.Answer → Prop where
  | live {writer : Writer} (tells : Tells broken writer.response 200 statusUp) :
      Answered h url broken (.served .health writer)
  | ready {route : Route} {writer : Writer} (hr : route.ofReadiness = true)
      (ready : h.ready = none) (tells : Tells broken writer.response 200 statusUp) :
      Answered h url broken (.served route writer)
  | down {route : Route} {writer : Writer} {e : Err} (hr : route.ofReadiness = true)
      (failed : h.ready = some e) (tells : Tells broken writer.response 503 statusDown) :
      Answered h url broken (.served route writer)
  | metrics {route : Route} (hr : route.ofMetrics = true) (enabled : h.metricsEnabled = true) :
      Answered h url broken (.served route (h.metricsHandler { broken := broken }))
  | redirected {header : Header} (unclean : cleanPath url.escapedPath ≠ url.escapedPath) :
      Answered h url broken (.redirected header (cleanPath url.escapedPath))
  | methodNotAllowed {writer : Writer} (status : writer.response.status = 405)
      (allow : writer.response.header.get "Allow" = lit "GET, HEAD") :
      Answered h url broken (.refused writer)
  | notFound {writer : Writer} (status : writer.response.status = 404)
      (nothing : ∀ route ∈ Route.registered h.metricsEnabled, ∀ matched,
        ¬Matches route.segments url.escapedPath matched) :
      Answered h url broken (.refused writer)

/-- No path is for a route of both listeners. -/
theorem routes_apart {path : Bytes} {publicRoute : HttpApi.Route} {route : Route}
    {m₁ m₂ : List Bytes} (h₁ : Matches publicRoute.segments path m₁) :
    ¬Matches route.segments path m₂ := by
  have hapart : ∀ p ∈ HttpApi.Route.all, ∀ q ∈ Route.registered true,
      compatible p.segments q.segments = false := by decide +kernel
  intro h₂
  have hcompatible := h₁.compatible h₂
  rw [hapart publicRoute (HttpApi.Route.mem_all publicRoute) route
    (Route.mem_registered.mpr fun _ => rfl)] at hcompatible
  cases hcompatible

/-- A request that one of the listeners serves is not found on the other. -/
theorem listeners_apart (service : HttpApi.Service) (h : Handler) (method : String)
    (url : Url.URL) (broken : Bool) :
    (∀ route x, service.handle method url broken = .served route x →
      ∃ writer, h.handle method url broken = .refused writer ∧ writer.response.status = 404) ∧
    (∀ route writer, h.handle method url broken = .served route writer →
      ∃ writer, service.handle method url broken = .refused writer ∧
        writer.response.status = 404) := by
  constructor
  · intro route x hserved
    have hfor : ∃ route matched, cleanPath url.escapedPath = url.escapedPath ∧
        HttpApi.Route.mux.For url.escapedPath route matched := by
      unfold HttpApi.Service.handle at hserved
      simp only at hserved
      split at hserved
      · next route matched hreply =>
        obtain ⟨-, hclean, hfor⟩ := HttpApi.Route.mux_plain.reply_handled hreply
        exact ⟨route, matched, hclean, hfor⟩
      · cases hserved
      · cases hserved
    obtain ⟨publicRoute, matched, hclean, hfor⟩ := hfor
    have hnone : ∀ route matched, ¬(Route.mux h.metricsEnabled).For url.escapedPath route matched :=
      fun _ _ hm => routes_apart (HttpApi.Route.mux_for.mp hfor) (Route.mux_for.mp hm).2
    refine ⟨_, ?_, (@Writer.error_response { broken := broken } rfl "404 page not found" 404).1⟩
    rw [Handler.handle, (Route.mux_plain h.metricsEnabled).reply_notFound hclean hnone]
  · intro route writer hserved
    have hfor : ∃ route matched, cleanPath url.escapedPath = url.escapedPath ∧
        (Route.mux h.metricsEnabled).For url.escapedPath route matched := by
      unfold Handler.handle at hserved
      split at hserved
      · next route matched hreply =>
        obtain ⟨-, hclean, hfor⟩ := (Route.mux_plain h.metricsEnabled).reply_handled hreply
        exact ⟨route, matched, hclean, hfor⟩
      · cases hserved
      · cases hserved
    obtain ⟨managementRoute, matched, hclean, hfor⟩ := hfor
    have hnone : ∀ route matched, ¬HttpApi.Route.mux.For url.escapedPath route matched :=
      fun _ _ hm => routes_apart (HttpApi.Route.mux_for.mp hm) (Route.mux_for.mp hfor).2
    refine ⟨_, ?_, (@Writer.error_response (HttpApi.Router.securityHeaders { broken := broken }) rfl
      "404 page not found" 404).1⟩
    simp only [HttpApi.Service.handle, HttpApi.Route.mux_plain.reply_notFound hclean hnone]

/-! The probe -/

/-- The probe of a running service succeeds exactly when its database answers a ping, and names
the status that it got otherwise. -/
theorem probe_ready (pingFailure : Option Err) (metricsEnabled broken : Bool)
    (metricsHandler : Writer → Writer) {client : Url.URL → Except Err Nat}
    (hclient : ∀ url route writer, Handler.handle
      ⟨storeReady pingFailure, metricsEnabled, metricsHandler⟩ "GET" url broken =
        .served route writer → client url = .ok writer.response.status) :
    probe client (lit managementReadinessURL) =
      if pingFailure.isSome then .error (.other (errorUnexpectedStatus 503)) else .ok () := by
  let url : Url.URL := {
    scheme := lit "http"
    host := lit "127.0.0.1:8081"
    path := lit routeReadiness }
  have hparse : Url.parse (lit managementReadinessURL) = some url := by decide +kernel
  have hfor : (Route.mux metricsEnabled).For url.escapedPath .readiness [] :=
    Route.mux_for.mpr ⟨Route.mem_registered.mpr nofun, .literal (by decide) (by decide) .done⟩
  have hfound := (((Route.mux_plain metricsEnabled).dispatch "GET" url.escapedPath url.path).1
    .readiness []).mpr ⟨Or.inl rfl, by decide, hfor⟩
  let handler : Handler := ⟨storeReady pingFailure, metricsEnabled, metricsHandler⟩
  have hserved : handler.handle "GET" url broken =
      .served .readiness (handler.readiness { broken := broken }) := by
    simp only [Handler.handle, Mux.reply, handler, hfound]
    rfl
  rw [probe, hparse]
  simp only [hclient url _ _ hserved]
  cases pingFailure with
  | none => rw [show (handler.readiness { broken := broken }).response.status = 200 from
      (writeHealth_tells broken 200 statusUp).code]; rfl
  | some e => rw [show (handler.readiness { broken := broken }).response.status = 503 from
      (writeHealth_tells broken 503 statusDown).code]; rfl

/-- The status of an answer, for a client that follows no redirection. -/
def Handler.Answer.status : Handler.Answer → Except Err Nat
  | .served _ writer => .ok writer.response.status
  | .refused writer => .ok writer.response.status
  | .redirected _ _ => .error (.other "redirected")

/-- While the database cannot be reached, the probe fails. -/
theorem probe_offline :
    probe (fun url => (Handler.handle ⟨storeReady (some (.other "connection refused")), false, id⟩
      "GET" url false).status) (lit managementReadinessURL) =
        .error (.other (errorUnexpectedStatus 503)) :=
  (probe_ready (some (.other "connection refused")) false false id
    fun _ _ _ hserved => congrArg Handler.Answer.status hserved).trans (if_pos rfl)

end OpenDiscogs.Management
