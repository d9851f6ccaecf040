import OpenDiscogs.HttpApi.BufferPool
import OpenDiscogs.HttpApi.Router
import OpenDiscogs.Library.Tally
import OpenDiscogs.Observability.Metrics

/-! Concurrent requests to the routes, and what their metrics say of them. -/
namespace OpenDiscogs.HttpApi
open Utf8 HttpResponse Observability

namespace StatusWriter

def call (w : StatusWriter) : WriterCall → StatusWriter
  | .header header => { w with writer := { w.writer with header := header } }
  | .writeHeader status => w.writeHeader status
  | .write body => (w.write body).1

/-- The calls on the embedded writer that a call makes. -/
def passed (w : StatusWriter) : WriterCall → List WriterCall
  | .header header => [.header header]
  | .writeHeader status => if w.wroteHeader then [] else [.writeHeader status]
  | .write body => if w.wroteHeader then [.write body] else [.writeHeader 200, .write body]

def passedAll (w : StatusWriter) : List WriterCall → List WriterCall
  | [] => []
  | c::calls => w.passed c ++ (w.call c).passedAll calls

/-- The embedded writer is what the calls passed on make of it. -/
theorem call_writer (w : StatusWriter) (c : WriterCall) :
    (w.call c).writer = (w.passed c).foldl Writer.call w.writer := by
  obtain ⟨writer, status, wrote⟩ := w
  cases c <;> cases wrote <;> rfl

theorem passedAll_writer (w : StatusWriter) (calls : List WriterCall) :
    (calls.foldl call w).writer = (w.passedAll calls).foldl Writer.call w.writer := by
  induction calls generalizing w with
  | nil => rfl
  | cons c calls ih => rw [List.foldl_cons, ih, call_writer, passedAll, List.foldl_append]

/-- After the header nothing is passed on that would send another one. -/
theorem heads_wrote {w : StatusWriter} (hw : w.wroteHeader = true) (calls : List WriterCall) :
    heads true (w.passedAll calls) = [] ∧ (calls.foldl call w).wroteHeader = true ∧
      (calls.foldl call w).status = w.status := by
  induction calls generalizing w with
  | nil => exact ⟨rfl, hw, rfl⟩
  | cons c calls ih =>
    have hcall : (w.call c).wroteHeader = true ∧ (w.call c).status = w.status := by
      cases c <;> simp [call, writeHeader, write, hw]
    obtain ⟨hheads, hwrote, hstatus⟩ := ih hcall.1
    refine ⟨?_, hwrote, hstatus.trans hcall.2⟩
    cases c <;> simpa [passedAll, passed, hw, heads] using hheads

/-- The one header that is sent has the status that is remembered. -/
theorem heads_unwritten {w : StatusWriter} (hw : w.wroteHeader = false) (calls : List WriterCall) :
    heads false (w.passedAll calls) =
      if (calls.foldl call w).wroteHeader then [(calls.foldl call w).status] else [] := by
  induction calls generalizing w with
  | nil => simp [passedAll, heads, hw]
  | cons c calls ih =>
    cases c with
    | header header => exact ih hw
    | writeHeader status =>
      have hwrote : (w.call (.writeHeader status)).wroteHeader = true := writeHeader_wrote w status
      obtain ⟨hheads, hafter, hstatus⟩ := heads_wrote hwrote calls
      simp only [passedAll, passed, hw, Bool.false_eq_true, if_false, List.singleton_append, heads,
        hheads, List.foldl_cons, hafter, hstatus, if_true]
      simp [call, writeHeader, hw]
    | write body =>
      have hwrote : (w.call (.write body)).wroteHeader = true := by
        simp [call, write, writeHeader, hw]
      obtain ⟨hheads, hafter, hstatus⟩ := heads_wrote hwrote calls
      simp only [passedAll, passed, hw, Bool.false_eq_true, if_false, List.cons_append,
        List.nil_append, heads, hheads, List.foldl_cons, hafter, hstatus, if_true]
      simp [call, write, writeHeader, hw]

theorem status_unwritten {w : StatusWriter} (hw : w.wroteHeader = false) (hs : w.status = 200)
    {calls : List WriterCall} (h : (calls.foldl call w).wroteHeader = false) :
    (calls.foldl call w).status = 200 := by
  induction calls generalizing w with
  | nil => exact hs
  | cons c calls ih =>
    cases hc : (w.call c).wroteHeader with
    | true =>
      rw [List.foldl_cons, (heads_wrote hc calls).2.1] at h
      cases h
    | false =>
      refine ih hc ?_ h
      cases c with
      | header header => exact hs
      | writeHeader status => simp [call, writeHeader_wrote] at hc
      | write body => simp [call, write, writeHeader, hw] at hc

/-- A response has one header, with the status that is remembered, written or implied. -/
theorem responseHeads_passedAll (writer : Writer) (calls : List WriterCall) :
    responseHeads (passedAll { writer } calls) = [(calls.foldl call { writer }).status] := by
  unfold responseHeads
  rw [heads_unwritten rfl]
  cases hwrote : (calls.foldl call { writer }).wroteHeader with
  | true => simp
  | false => simp [status_unwritten rfl rfl hwrote]

end StatusWriter

/-- The calls that a problem makes on the writer it is written to. -/
def Responder.problemCalls (r : Responder) (w : StatusWriter) (path : Bytes) (status : Nat)
    (title detail : String) : List WriterCall :=
  let header := w.writer.header.set headerContentType (lit contentTypeProblemJSON)
  let encoded := r.encode (.problem
    { type := problemTypeAboutBlank, title, status, detail, instanceURI := path })
  [.header (r.jsonHeader header status encoded), .writeHeader status, .write encoded]

theorem problem_recorder (r : Responder) (x : Exchange) (path : Bytes) (status : Nat)
    (title detail : String) : (r.problem x path status title detail).recorder =
      (r.problemCalls x.recorder path status title detail).foldl StatusWriter.call x.recorder := by
  rw [Responder.problem, Responder.writeJSON_recorder]
  rfl

/-- Where a request is on its way through the wrapper of its route. -/
inductive RequestPhase where
  | arrived
  /-- counted as in flight, inside its handler -/
  | handling
  /-- with the deferred function about to run -/
  | deferred
  /-- past the recovery of a panic -/
  | finishing
  /-- no longer in flight, not counted yet -/
  | released
  | counted
  | finished
deriving DecidableEq

def RequestPhase.inFlight (phase : RequestPhase) : Bool :=
  phase = .handling ∨ phase = .deferred ∨ phase = .finishing

def RequestPhase.isCounted (phase : RequestPhase) : Bool := phase = .counted ∨ phase = .finished

/-- A request, the calls that its handler and the deferred function made on its writer, and
whether the handler panicked. -/
structure ServedRequest where
  route : String
  method : String
  path : Bytes
  writer : Writer
  phase : RequestPhase := .arrived
  handled : List WriterCall := []
  panicked : Bool := false
  recovered : List WriterCall := []

namespace ServedRequest

/-- The recorder that the handler leaves. -/
def handlerRecorder (q : ServedRequest) : StatusWriter :=
  q.handled.foldl StatusWriter.call { writer := q.writer }

def recorder (q : ServedRequest) : StatusWriter :=
  q.recovered.foldl StatusWriter.call q.handlerRecorder

/-- The statuses that the handler had sent. -/
def handlerHeads (q : ServedRequest) : List Nat :=
  heads false (StatusWriter.passedAll { writer := q.writer } q.handled)

/-- The statuses of the response. -/
def sentHeads (q : ServedRequest) : List Nat :=
  responseHeads (StatusWriter.passedAll { writer := q.writer } (q.handled ++ q.recovered))

/-- The deferred function answers a panic if the handler answered nothing. -/
def recovery (r : Responder) (q : ServedRequest) : List WriterCall :=
  if q.panicked ∧ !q.handlerRecorder.wroteHeader then
    r.problemCalls q.handlerRecorder q.path 500 problemTitleInternal problemDetailInternal
  else []

/-- Nothing has happened to the request, and nothing was written for it. -/
structure Fresh (q : ServedRequest) : Prop where
  phase : q.phase = .arrived
  unsent : q.writer.sent = none
  handled : q.handled = []
  panicked : q.panicked = false
  recovered : q.recovered = []

end ServedRequest

/-- A handler sets no status but a final one. -/
def FinalStatus : WriterCall → Prop
  | .writeHeader status => 200 ≤ status ∧ status ≤ 599
  | _ => True

/-- One step of one request: of the wrapper, of the handler, which calls the writer as it likes and
ends as it likes, or of the metrics, which other requests may use in between. -/
inductive RequestStep {σ : Type} (m : Metrics σ) (r : Responder) :
    σ → ServedRequest → σ → ServedRequest → Prop where
  | start {x : σ} {q : ServedRequest} (hq : q.phase = .arrived) :
      RequestStep m r x q (m.requestStarted q.route x) { q with phase := .handling }
  | call {x : σ} {q : ServedRequest} (c : WriterCall) (hq : q.phase = .handling)
      (hc : FinalStatus c) : RequestStep m r x q x { q with handled := q.handled ++ [c] }
  | returned {x : σ} {q : ServedRequest} (hq : q.phase = .handling) :
      RequestStep m r x q x { q with phase := .deferred }
  | panic {x : σ} {q : ServedRequest} (hq : q.phase = .handling) :
      RequestStep m r x q x { q with phase := .deferred, panicked := true }
  | recover {x : σ} {q : ServedRequest} (hq : q.phase = .deferred) :
      RequestStep m r x q x { q with phase := .finishing, recovered := q.recovery r }
  | disabled {x : σ} {q : ServedRequest} (hq : q.phase = .finishing)
      (hm : m.enabled = false) : RequestStep m r x q x { q with phase := .finished }
  | release {x : σ} {q : ServedRequest} (hq : q.phase = .finishing)
      (hm : m.enabled = true) :
      RequestStep m r x q (m.registry.decInFlight q.route x) { q with phase := .released }
  | count {x : σ} {q : ServedRequest} (hq : q.phase = .released) :
      RequestStep m r x q
        (m.registry.incRequests (q.route, q.method, Strconv.formatNat q.recorder.status) x)
        { q with phase := .counted }
  | observe {x : σ} {q : ServedRequest} (hq : q.phase = .counted) :
      RequestStep m r x q
        (m.registry.observeDuration (q.route, q.method, Strconv.formatNat q.recorder.status) x)
        { q with phase := .finished }

/-- The server takes requests to any route at any time, and they take their steps in any order. -/
abbrev ServerRun {σ : Type} (m : Metrics σ) (r : Responder) (s : Tally.State σ ServedRequest) :
    Prop :=
  Tally.Run ServedRequest.Fresh (RequestStep m r) ⟨m.registry.registered, []⟩ s

/-- The metrics agree with the requests, and the requests with their responses. A request is in
flight until it is counted down from the gauge. -/
structure Accounted {σ : Type} (registry : Registry σ) (s : Tally.State σ ServedRequest) :
    Prop where
  gauge : ∀ route, registry.inFlight s.shared route =
    s.threads.countP fun q => q.route = route ∧ q.phase.inFlight
  nonnegative : ∀ route, 0 ≤ registry.inFlight s.shared route
  total : ∀ labels, registry.requests s.shared labels =
    s.threads.countP fun q => q.phase.isCounted ∧
      q.sentHeads.map (fun status => (q.route, q.method, Strconv.formatNat status)) = [labels]
  oneHead : ∀ q ∈ s.threads, q.phase.isCounted → ∃ status, q.sentHeads = [status]
  answered : ∀ q ∈ s.threads, q.phase.isCounted → q.panicked = true → q.handlerHeads = [] →
    q.sentHeads = [500]
  kept : ∀ q ∈ s.threads, q.phase.isCounted → q.panicked = true → q.handlerHeads ≠ [] →
    q.recovered = [] ∧ q.sentHeads = q.handlerHeads

section Run
variable {σ : Type} {m : Metrics σ} {r : Responder} {x x' : σ} {q q' : ServedRequest}

def RequestPhase.unrecovered (phase : RequestPhase) : Bool :=
  phase = .arrived ∨ phase = .handling ∨ phase = .deferred

/-- The deferred function makes its calls in one go, when it recovers. -/
def Recovered (r : Responder) (q : ServedRequest) : Prop :=
  q.recovered = if q.phase.unrecovered then [] else q.recovery r

theorem recovered_fresh (h : q.Fresh) : Recovered r q := by
  rw [Recovered, h.phase, h.recovered]
  rfl

theorem RequestStep.recovered (h : RequestStep m r x q x' q') (hq : Recovered r q) :
    Recovered r q' := by
  cases h with
  | call c hp hc =>
    have hunrecovered : q.phase.unrecovered = true := by rw [hp]; rfl
    rw [Recovered, if_pos hunrecovered] at hq
    exact hq.trans (if_pos hunrecovered).symm
  | start hp | returned hp | panic hp | disabled hp hm | release hp hm | count hp | observe hp =>
    rw [Recovered, hp] at hq
    exact hq
  | recover hp => rfl

/-- Every step moves the gauge as the request comes into flight or leaves it. -/
theorem RequestStep.gauge (hd : m.registry.Documented) (hm : m.enabled = true)
    (h : RequestStep m r x q x' q') (route : String) :
    m.registry.inFlight x' route + (decide (q.route = route ∧ q.phase.inFlight)).toNat =
      m.registry.inFlight x route + (decide (q'.route = route ∧ q'.phase.inFlight)).toNat := by
  cases h with
  | start hp => simp [Metrics.requestStarted, hm, hd.inFlight_inc, hp, RequestPhase.inFlight]
  | release hp => simp [hd.inFlight_dec, hp, RequestPhase.inFlight]
  | call c hp hc | returned hp | panic hp | recover hp => simp [hp, RequestPhase.inFlight]
  | disabled hp hdisabled => simp [hm] at hdisabled
  | count hp => simp [hp, RequestPhase.inFlight, hd.inFlight_requests]
  | observe hp => simp [hp, RequestPhase.inFlight, hd.inFlight_duration]

/-- The labels that a request is counted under. -/
def ServedRequest.labels (q : ServedRequest) : Labels :=
  (q.route, q.method, Strconv.formatNat q.recorder.status)

/-- Every step moves a counter as the request comes to be counted under its labels. -/
theorem RequestStep.total (hd : m.registry.Documented) (hm : m.enabled = true)
    (h : RequestStep m r x q x' q') (labels : Labels) :
    (m.registry.requests x' labels : Int) +
        (decide (q.phase.isCounted ∧ q.labels = labels)).toNat =
      m.registry.requests x labels +
        (decide (q'.phase.isCounted ∧ q'.labels = labels)).toNat := by
  cases h with
  | start hp =>
    simp [Metrics.requestStarted, hm, hd.requests_incInFlight, hp, RequestPhase.isCounted]
  | call c hp hc | returned hp | panic hp | recover hp => simp [hp, RequestPhase.isCounted]
  | disabled hp hdisabled => simp [hm] at hdisabled
  | release hp => simp [hd.requests_decInFlight, hp, RequestPhase.isCounted]
  | count hp =>
    have hlabels : ({ q with phase := .counted } : ServedRequest).labels = q.labels := rfl
    rw [hlabels, ← ServedRequest.labels, hd.requests_inc]
    simp [hp, RequestPhase.isCounted]
  | observe hp =>
    have hlabels : ({ q with phase := .finished } : ServedRequest).labels = q.labels := rfl
    rw [hlabels]
    simp [hp, RequestPhase.isCounted, hd.requests_duration]

theorem sentHeads_eq (q : ServedRequest) : q.sentHeads = [q.recorder.status] := by
  rw [ServedRequest.sentHeads, StatusWriter.responseHeads_passedAll, List.foldl_append]
  rfl

theorem handlerHeads_eq (q : ServedRequest) : q.handlerHeads =
    if q.handlerRecorder.wroteHeader then [q.handlerRecorder.status] else [] :=
  StatusWriter.heads_unwritten rfl q.handled

/-- A request that was counted has recovered. -/
theorem recovered_counted (h : Recovered r q) (hq : q.phase.isCounted = true) :
    q.recovered = q.recovery r := by
  have hphase : q.phase.unrecovered = false := by
    cases hp : q.phase <;> simp_all [RequestPhase.isCounted, RequestPhase.unrecovered]
  rw [Recovered, hphase] at h
  exact h

/-- A problem written first is sent with its status. -/
theorem problemCalls_status {w : StatusWriter} (hw : w.wroteHeader = false) (path : Bytes)
    (status : Nat) (title detail : String) :
    ((r.problemCalls w path status title detail).foldl StatusWriter.call w).status = status := by
  simp [Responder.problemCalls, StatusWriter.call, StatusWriter.writeHeader, StatusWriter.write, hw]

theorem panic_answered (h : Recovered r q) (hq : q.phase.isCounted = true)
    (hp : q.panicked = true) (hh : q.handlerHeads = []) : q.sentHeads = [500] := by
  have hwrote : q.handlerRecorder.wroteHeader = false := by
    rw [handlerHeads_eq] at hh
    by_contra hwrote
    simp [hwrote] at hh
  have hrecovery : q.recovery r = r.problemCalls q.handlerRecorder q.path 500
      problemTitleInternal problemDetailInternal := by
    rw [ServedRequest.recovery, if_pos ⟨hp, by simp [hwrote]⟩]
  rw [sentHeads_eq, ServedRequest.recorder, recovered_counted h hq, hrecovery,
    problemCalls_status hwrote]

theorem panic_kept (h : Recovered r q) (hq : q.phase.isCounted = true)
    (hh : q.handlerHeads ≠ []) : q.recovered = [] ∧ q.sentHeads = q.handlerHeads := by
  have hwrote : q.handlerRecorder.wroteHeader = true := by
    rw [handlerHeads_eq] at hh
    by_contra hwrote
    simp [hwrote] at hh
  have hrecovered : q.recovered = [] := by
    rw [recovered_counted h hq, ServedRequest.recovery, if_neg (by simp [hwrote])]
  refine ⟨hrecovered, ?_⟩
  rw [sentHeads_eq, ServedRequest.recorder, hrecovered, handlerHeads_eq, if_pos hwrote]
  rfl

/-- The request when it has ended, after its handler made the calls. -/
def ServedRequest.ended (r : Responder) (q : ServedRequest) (calls : List WriterCall)
    (panicked : Bool) : ServedRequest :=
  { q with
    handled := calls
    panicked := panicked
    recovered := { q with handled := calls, panicked := panicked }.recovery r
    phase := .finished }

theorem ended_recorder (r : Responder) (q : ServedRequest) (calls : List WriterCall)
    (panicked : Bool) :
    let w := calls.foldl StatusWriter.call { writer := q.writer }
    (q.ended r calls panicked).recorder =
      if panicked ∧ !w.wroteHeader then
        (r.problemCalls w q.path 500 problemTitleInternal problemDetailInternal).foldl
          StatusWriter.call w
      else w := by
  intro w
  have hrecovery : (q.ended r calls panicked).recovered =
      if panicked ∧ !w.wroteHeader then
        r.problemCalls w q.path 500 problemTitleInternal problemDetailInternal
      else [] := rfl
  rw [ServedRequest.recorder, hrecovery]
  split <;> rfl

/-- The wrapper of a route leaves the recorder of the ended request, and counts its status. -/
theorem wrap_ended (router : Router) (q : ServedRequest) (calls : List WriterCall)
    (panicked : Bool) :
    let x := router.wrap q.route q.method q.path (fun x =>
      ({ x with recorder := calls.foldl StatusWriter.call x.recorder }, panicked)) q.writer
    let ended := q.ended router.responder calls panicked
    x.recorder = ended.recorder ∧
      Event.requestFinished q.route q.method ended.recorder.status ∈ x.events := by
  simp only [Router.wrap, Router.finish, ended_recorder]
  generalize calls.foldl StatusWriter.call { writer := q.writer } = w
  cases panicked with
  | false => cases router.accessLog <;> simp [Exchange.log]
  | true =>
    cases hw : w.wroteHeader with
    | true => cases router.accessLog <;> simp [Exchange.log, hw]
    | false => cases router.accessLog <;> simp [Exchange.log, hw, problem_recorder]

/-- The calls of a handler, one step each. -/
theorem callSteps {x : σ} {q : ServedRequest} (hq : q.phase = .handling)
    {calls : List WriterCall} (hc : ∀ c ∈ calls, FinalStatus c) :
    Relation.ReflTransGen (Tally.Moves (RequestStep m r)) (x, q)
      (x, { q with handled := q.handled ++ calls }) := by
  induction calls generalizing q with
  | nil => rw [List.append_nil]
  | cons c calls ih =>
    have hstep : Tally.Moves (RequestStep m r) (x, q)
        (x, { q with handled := q.handled ++ [c] }) :=
      RequestStep.call c hq (hc c List.mem_cons_self)
    have hrest := @ih { q with handled := q.handled ++ [c] } hq fun c' hc' =>
      hc c' (List.mem_cons_of_mem c hc')
    rw [List.append_assoc, List.singleton_append] at hrest
    exact hrest.head hstep

/-- The steps that a request takes when no other one comes in between. -/
theorem requestSteps (hm : m.enabled = true) (hq : q.Fresh) {calls : List WriterCall}
    (hc : ∀ c ∈ calls, FinalStatus c) (panicked : Bool) (x : σ) :
    Relation.ReflTransGen (Tally.Moves (RequestStep m r)) (x, q)
      (m.requestFinished q.route q.method (q.ended r calls panicked).recorder.status
        (m.requestStarted q.route x), q.ended r calls panicked) := by
  obtain ⟨route, method, path, writer, phase, handled, panicked', recovered⟩ := q
  obtain ⟨rfl, -, rfl, rfl, rfl⟩ := hq
  let started := m.requestStarted route x
  let handling : ServedRequest := ⟨route, method, path, writer, .handling, [], false, []⟩
  let deferred : ServedRequest := ⟨route, method, path, writer, .deferred, calls, panicked, []⟩
  let ended := handling.ended r calls panicked
  let labels := (route, method, Strconv.formatNat ended.recorder.status)
  let released := m.registry.decInFlight route started
  let counted := m.registry.incRequests labels released
  have hstart : Tally.Moves (RequestStep m r)
      (x, ⟨route, method, path, writer, .arrived, [], false, []⟩) (started, handling) :=
    RequestStep.start rfl
  have hcalls := @callSteps _ m r started handling rfl calls hc
  have hended : Tally.Moves (RequestStep m r) (started, { handling with handled := calls })
      (started, deferred) := by
    cases panicked with
    | false => exact RequestStep.returned rfl
    | true => exact RequestStep.panic rfl
  have hrecover : Tally.Moves (RequestStep m r) (started, deferred)
      (started, { ended with phase := .finishing }) := RequestStep.recover rfl
  have hrelease : Tally.Moves (RequestStep m r) (started, { ended with phase := .finishing })
      (released, { ended with phase := .released }) := RequestStep.release rfl hm
  have hcount : Tally.Moves (RequestStep m r)
      (released, { ended with phase := .released })
      (counted, { ended with phase := .counted }) :=
    RequestStep.count rfl
  have hobserve : Tally.Moves (RequestStep m r)
      (counted, { ended with phase := .counted })
      (m.registry.observeDuration labels counted, ended) :=
    RequestStep.observe rfl
  have hsamples : m.requestFinished route method ended.recorder.status started =
      m.registry.observeDuration labels counted := by
    rw [Metrics.requestFinished, hm]
    rfl
  have hrun := (((((hcalls.head hstart).tail hended).tail hrecover).tail hrelease).tail
    hcount).tail hobserve
  rw [← hsamples] at hrun
  exact hrun

/-- A request may arrive at any time, and be served. -/
theorem ServerRun.serve (hm : m.enabled = true) {s : Tally.State σ ServedRequest}
    (h : ServerRun m r s) (hq : q.Fresh) {calls : List WriterCall}
    (hc : ∀ c ∈ calls, FinalStatus c) (panicked : Bool) :
    ServerRun m r ⟨m.requestFinished q.route q.method (q.ended r calls panicked).recorder.status
      (m.requestStarted q.route s.shared), s.threads ++ [q.ended r calls panicked]⟩ :=
  Tally.Run.moves (h.tail (Tally.Step.arrive hq)) (requestSteps hm hq hc panicked s.shared)

end Run
/-- The metrics of concurrent requests balance, in every state of every run. -/
theorem requests_accounted {σ : Type} {registry : Registry σ} (hd : registry.Documented)
    (r : Responder) {s : Tally.State σ ServedRequest}
    (h : ServerRun (Metrics.newMetrics registry true) r s) : Accounted registry s := by
  have hm : (Metrics.newMetrics registry true).enabled = true := rfl
  have hrecovered : ∀ q ∈ s.threads, Recovered r q :=
    h.each (fun q hq => recovered_fresh hq) fun x q x' q' hstep => hstep.recovered
  have hgauge : ∀ route, registry.inFlight s.shared route =
      s.threads.countP fun q => q.route = route ∧ q.phase.inFlight := fun route => by
    have harrives : ∀ q : ServedRequest, q.Fresh →
        decide (q.route = route ∧ q.phase.inFlight = true) = false := fun q hq => by
      simp [hq.phase, RequestPhase.inFlight]
    exact @Tally.Run.count _ _ _ _ _ _ (fun x => registry.inFlight x route) _ h
      (hd.inFlight_registered route) harrives fun x q x' q' hstep => hstep.gauge hd hm route
  have htotal : ∀ labels, (registry.requests s.shared labels : Int) =
      s.threads.countP fun q => q.phase.isCounted ∧ q.labels = labels := fun labels => by
    have harrives : ∀ q : ServedRequest, q.Fresh →
        decide (q.phase.isCounted = true ∧ q.labels = labels) = false := fun q hq => by
      simp [hq.phase, RequestPhase.isCounted]
    have hregistered : (registry.requests registry.registered labels : Int) = 0 := by
      rw [hd.requests_registered]
      rfl
    exact @Tally.Run.count _ _ _ _ _ _ (fun x => (registry.requests x labels : Int)) _ h
      hregistered harrives fun x q x' q' hstep => hstep.total hd hm labels
  refine ⟨hgauge, fun route => ?_, fun labels => ?_, fun q _ _ => ⟨_, sentHeads_eq q⟩, ?_, ?_⟩
  · rw [hgauge]
    exact Int.natCast_nonneg _
  · have hlabels : ∀ q : ServedRequest, q.sentHeads.map
        (fun status => (q.route, q.method, Strconv.formatNat status)) = [q.labels] := fun q => by
      rw [sentHeads_eq]
      rfl
    simp only [hlabels, List.cons.injEq, and_true]
    exact Int.ofNat.inj (htotal labels)
  · exact fun q hq hcounted hp hh => panic_answered (hrecovered q hq) hcounted hp hh
  · exact fun q hq hcounted _ hh => panic_kept (hrecovered q hq) hcounted hh

/-- A request for the artists whose handler panics at once. -/
def panickingRequest : ServedRequest where
  route := CatalogRoute.artists.template
  method := "GET"
  path := lit "/artists"
  writer := {}

theorem requests_accounted_panic : ∃ s : Tally.State Samples ServedRequest,
    Accounted plainRegistry s ∧ s.shared.requests ("/artists", "GET", lit "500") = 1 ∧
      s.shared.inFlight "/artists" = 0 := by
  let r : Responder := ⟨lit "public", problemText⟩
  have hrun := @ServerRun.serve _ (Metrics.newMetrics plainRegistry true) r panickingRequest rfl _
    Relation.ReflTransGen.refl ⟨rfl, rfl, rfl, rfl, rfl⟩ [] (by simp) true
  exact ⟨_, requests_accounted plainRegistry_documented r hrun, by decide, by decide +kernel⟩

end OpenDiscogs.HttpApi
