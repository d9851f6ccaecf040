import OpenDiscogs.HttpApi.Router
import OpenDiscogs.Service

/-! What a request to a catalog route looks like from outside: to its client, to the metrics and to
the access log. -/
namespace OpenDiscogs
open Utf8 Catalog HttpApi HttpResponse

def statusOf : Event → Option Nat
  | .requestFinished _ _ status => some status
  | .requestLogged _ _ status => some status
  | _ => none

/-- The statuses given to the metrics and to the access log. -/
def recordedStatuses (events : List Event) : List Nat := events.filterMap statusOf

/-- Everyone is told the same status. -/
def Recorded (x : Exchange) (accessLog : Bool) (status : Nat) : Prop :=
  x.recorder.writer.response.status = status ∧
    recordedStatuses x.events = if accessLog then [status, status] else [status]

/-- A success is told as such, and so is a failure, which is not cacheable either. -/
structure Honest (x : Exchange) (accessLog returned : Bool) : Prop where
  recorded : ∃ status, Recorded x accessLog status ∧
    if returned then status = 200 else 400 ≤ status
  uncached : returned = false →
    x.recorder.writer.response.header.has headerCacheControl = false

/-- What is sent for a request that was given up: nothing, which its client reads as an empty
success. -/
structure Unanswered (x : Exchange) (accessLog : Bool) : Prop where
  recorded : Recorded x accessLog 200
  uncached : x.recorder.writer.response.header.has headerCacheControl = false
  empty : x.recorder.writer.response.body = []

/-- The call of a request failed because it was canceled, and for no reason that is answered. -/
def GivenUp (handler : Handler) (repository : Repository) (request : Request) : Prop :=
  ∃ call e, handler request = .ok call ∧ call.run repository request.path = .error e ∧
    Fault.Leaf .canceled e ∧ ¬Fault.Leaf .notFound e ∧ ¬Fault.Leaf .deadlineExceeded e

section Events
variable {r : Responder} {x : Exchange}

theorem writeJSON_statuses (status : Nat) (value : JSONPayload) :
    recordedStatuses (r.writeJSON x status value).events = recordedStatuses x.events := by
  unfold Responder.writeJSON
  simp only
  split
  · rfl
  · simp [Exchange.log, recordedStatuses, Exchange.withHeader, statusOf]

theorem problem_statuses (path : Bytes) (status : Nat) (title detail : String) :
    recordedStatuses (r.problem x path status title detail).events = recordedStatuses x.events :=
  writeJSON_statuses _ _

end Events

section Requests
variable {router : Router} {route method : String} {path : Bytes} {x : Exchange}

theorem finish_recorder : (router.finish route method path x false).recorder = x.recorder := by
  unfold Router.finish
  cases router.accessLog <;> rfl

/-- The status of an answered request is counted, and logged if requests are. -/
theorem finish_answered {status : Nat} {cached : Bool} (h : x.Answered status cached)
    (hs : recordedStatuses x.events = []) :
    Recorded (router.finish route method path x false) router.accessLog status ∧
      (router.finish route method path x false).recorder.writer.response.header.has
        headerCacheControl = cached := by
  have hevents : recordedStatuses (router.finish route method path x false).events =
      if router.accessLog then [status, status] else [status] := by
    unfold Router.finish
    unfold recordedStatuses at *
    cases router.accessLog <;> simp [Exchange.log, statusOf, hs, h.status]
  rw [Recorded, finish_recorder]
  exact ⟨⟨h.coherent.response_status.trans h.status, hevents⟩, h.cached⟩

/-- A panic before anything was written is answered as an internal error. -/
theorem finish_panicked (hw : x.recorder.wroteHeader = false) :
    router.finish route method path x true = router.finish route method path
      (router.responder.problem (x.log (.panicked route)) path 500 problemTitleInternal
        problemDetailInternal) false := by
  have hw' : (x.log (.panicked route)).recorder.wroteHeader = false := hw
  simp [Router.finish, hw']

variable {handler : Handler} {repository : Repository} {request : Request}

/-- A started request: nothing is written or recorded. -/
theorem started_fresh (broken : Bool) (route : String) :
    Exchange.Fresh { recorder := { writer := Router.securityHeaders { broken := broken } },
                     events := [.requestStarted route] } :=
  ⟨StatusWriter.Coherent.start _ rfl, rfl, rfl⟩

theorem honest_answered {status : Nat} {cached returned : Bool} (h : x.Answered status cached)
    (hs : recordedStatuses x.events = [])
    (hr : if returned then status = 200 else 400 ≤ status ∧ cached = false) :
    Honest (router.finish route method path x false) router.accessLog returned := by
  obtain ⟨hrecorded, hcached⟩ := @finish_answered router route method path x _ _ h hs
  cases returned with
  | true => exact ⟨⟨status, hrecorded, hr⟩, nofun⟩
  | false => exact ⟨⟨status, hrecorded, hr.1⟩, fun _ => hcached.trans hr.2⟩

theorem honest_problem {y : Exchange} (hf : y.Fresh) (hs : recordedStatuses y.events = [])
    {status : Nat} (hstatus : 400 ≤ status) (title detail : String) :
    Honest (router.finish route method path
      (router.responder.problem y path status title detail) false) router.accessLog false :=
  honest_answered (Responder.problem_answered hf path (by omega) title detail)
    ((problem_statuses path status title detail).trans hs) ⟨hstatus, rfl⟩

/-- Whether a repository error is given up or answered with a problem. -/
theorem honest_error (hf : x.Fresh) (hs : recordedStatuses x.events = []) {e : Err}
    (h : ¬(Fault.Leaf .canceled e ∧ ¬Fault.Leaf .notFound e ∧ ¬Fault.Leaf .deadlineExceeded e)) :
    Honest (router.finish route method path (router.responder.repositoryError x path e) false)
      router.accessLog false := by
  simp only [← Fault.is_iff_leaf] at h
  unfold Responder.repositoryError
  by_cases hn : e.is .notFound = true
  · rw [if_pos hn]
    exact honest_problem hf hs (by decide) _ _
  · rw [if_neg hn]
    by_cases hd : e.is .deadlineExceeded = true
    · rw [if_pos hd]
      exact honest_problem hf hs (by decide) _ _
    · have hcanceled : ¬e.is .canceled = true := fun hc => h ⟨hc, hn, hd⟩
      rw [if_neg hd, if_neg hcanceled]
      refine honest_problem (hf.log _) ?_ (by decide) _ _
      simpa [Exchange.log, recordedStatuses, statusOf] using hs

theorem finish_unanswered (hf : x.Fresh) (hs : recordedStatuses x.events = [])
    (hb : x.recorder.writer.response.body = []) :
    Unanswered (router.finish route method path x false) router.accessLog := by
  obtain ⟨hrecorded, huncached⟩ := @finish_answered router route method path x _ _ hf.answered hs
  exact ⟨hrecorded, huncached, by rw [finish_recorder, hb]⟩

theorem repositoryError_canceled {r : Responder} {e : Err}
    (h : Fault.Leaf .canceled e ∧ ¬Fault.Leaf .notFound e ∧ ¬Fault.Leaf .deadlineExceeded e) :
    r.repositoryError x path e = x := by
  simp only [← Fault.is_iff_leaf] at h
  rw [Responder.repositoryError, if_neg h.2.1, if_neg h.2.2, if_pos h.1]

end Requests

/-- Every request is told for what it was, but for those that are given up. -/
theorem failed_requests (router : Router) (repository : Repository) (route : CatalogRoute)
    (method : String) (request : Request) (broken : Bool) :
    let x := router.serve repository route method request broken
    (¬GivenUp route.handler repository request ∧
      Honest x router.accessLog (answer route.handler repository request).isSome) ∨
    (GivenUp route.handler repository request ∧ Unanswered x router.accessLog) := by
  have hfresh := started_fresh broken route.template
  have hnone : recordedStatuses [.requestStarted route.template] = [] := rfl
  unfold Router.serve Router.wrap Handler.serve GivenUp answer
  simp only
  cases hh : route.handler request with
  | error text =>
    refine Or.inl ⟨?_, honest_problem hfresh hnone (by decide) _ _⟩
    intro h
    obtain ⟨call, e, hcall, -⟩ := h
    cases hcall
  | ok call =>
    simp only
    cases hr : call.run repository request.path with
    | value payload =>
      refine Or.inl ⟨?_, ?_⟩
      · intro h
        obtain ⟨call', e, hcall, hrun, -⟩ := h
        cases hcall
        cases hr.symm.trans hrun
      · exact honest_answered (Responder.success_answered hfresh _)
          ((writeJSON_statuses _ _).trans hnone) rfl
    | error e =>
      by_cases hg : Fault.Leaf .canceled e ∧ ¬Fault.Leaf .notFound e ∧
          ¬Fault.Leaf .deadlineExceeded e
      · refine Or.inr ⟨⟨call, e, rfl, hr, hg⟩, ?_⟩
        simp only
        rw [repositoryError_canceled hg]
        exact finish_unanswered hfresh hnone rfl
      · refine Or.inl ⟨?_, honest_error hfresh hnone hg⟩
        intro h
        obtain ⟨call', e', hcall, hrun, hg'⟩ := h
        cases hcall
        cases hr.symm.trans hrun
        exact hg hg'
    | panic =>
      refine Or.inl ⟨?_, ?_⟩
      · intro h
        obtain ⟨call', e, hcall, hrun, -⟩ := h
        cases hcall
        cases hr.symm.trans hrun
      · simp only
        rw [finish_panicked hfresh.unwritten]
        exact honest_problem (hfresh.log _) rfl (by decide) _ _

/-- A repository whose calls are all canceled. -/
def canceledRepository : Repository :=
  { emptyRepository with release := fun _ => .error (.wrap "query release" (.sentinel .canceled)) }

/-- Canceled without a client that left, a call looks like a success. -/
theorem failed_requests_canceled : ¬Honest
    (Router.serve ⟨true, ⟨lit "public", fun _ => []⟩⟩ canceledRepository .release "GET"
      { path := lit "/releases/1", pathValueID := lit "1" } false) true
    (answer CatalogRoute.release.handler canceledRepository
      { path := lit "/releases/1", pathValueID := lit "1" }).isSome := by
  intro h
  have hfailed : (answer CatalogRoute.release.handler canceledRepository
      { path := lit "/releases/1", pathValueID := lit "1" }).isSome = false := by decide
  rw [hfailed] at h
  obtain ⟨status, ⟨hstatus, -⟩, hlow⟩ := h.recorded
  have hsent : (Router.serve ⟨true, ⟨lit "public", fun _ => []⟩⟩ canceledRepository .release "GET"
      { path := lit "/releases/1", pathValueID := lit "1" } false).recorder.writer.response.status =
        200 := by decide
  rw [hsent] at hstatus
  subst hstatus
  exact absurd hlow (by decide)

end OpenDiscogs
