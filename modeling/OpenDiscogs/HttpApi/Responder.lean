import OpenDiscogs.HttpApi.Handlers
import OpenDiscogs.Library.HttpResponse

/-! What is written to a client: the value of a call, or a problem. -/
namespace OpenDiscogs.HttpApi
open Utf8 Catalog HttpResponse

def headerCacheControl := "Cache-Control"
def headerContentLength := "Content-Length"
def headerContentType := "Content-Type"
def headerFrameOptions := "X-Frame-Options"
def headerReferrerPolicy := "Referrer-Policy"
def headerTypeOptions := "X-Content-Type-Options"
def contentTypeJSON := "application/json"
def contentTypeProblemJSON := "application/problem+json"
def headerValueDeny := "DENY"
def headerValueNoReferrer := "no-referrer"
def headerValueNoSniff := "nosniff"
def problemTypeAboutBlank := "about:blank"
def problemTitleBadRequest := "Bad Request"
def problemTitleNotFound := "Not Found"
def problemTitleInternal := "Internal Server Error"
def problemTitleTimeout := "Gateway Timeout"
def problemDetailNotFound := "resource not found in imported dump snapshot"
def problemDetailInternal := "request processing failed"
def problemDetailTimeout := "database query timed out"

structure ProblemDocument where
  type : String
  title : String
  status : Nat
  detail : String
  instanceURI : Bytes

inductive JSONPayload where
  | catalog (payload : Payload)
  | problem (document : ProblemDocument)

/-- What the service records about a request: calls of the metrics and lines of the log. -/
inductive Event where
  | requestStarted (route : String)
  | requestFinished (route method : String) (status : Nat)
  | requestLogged (method route : String) (status : Nat)
  | repositoryFailed (path : Bytes) (error : Err)
  | writeFailed
  | panicked (route : String)

/-- A writer that remembers the status it was given, 200 until then. -/
structure StatusWriter where
  writer : Writer
  status : Nat := 200
  wroteHeader : Bool := false

namespace StatusWriter

def writeHeader (w : StatusWriter) (status : Nat) : StatusWriter :=
  if w.wroteHeader then w
  else { writer := w.writer.writeHeader status, status := status, wroteHeader := true }

def write (w : StatusWriter) (body : Bytes) : StatusWriter × Bool :=
  let w := if !w.wroteHeader then w.writeHeader 200 else w
  let (writer, taken) := w.writer.write body
  ({ w with writer := writer }, taken)

/-- The status remembered is the one that was sent, if any was. -/
structure Coherent (w : StatusWriter) : Prop where
  unsent : w.wroteHeader = false → w.writer.sent = none ∧ w.status = 200
  sent : w.wroteHeader = true → ∃ header, w.writer.sent = some (w.status, header)

variable {w : StatusWriter}

theorem Coherent.start (writer : Writer) (h : writer.sent = none) :
    Coherent { writer := writer } :=
  ⟨fun _ => ⟨h, rfl⟩, nofun⟩

theorem Coherent.answered {writer : Writer} {status : Nat} {header : Header}
    (h : writer.sent = some (status, header)) :
    Coherent { writer := writer, status := status, wroteHeader := true } :=
  ⟨nofun, fun _ => ⟨header, h⟩⟩

theorem Coherent.withHeader (h : w.Coherent) (header : Header) :
    Coherent { w with writer := { w.writer with header := header } } :=
  ⟨h.unsent, h.sent⟩

theorem writeHeader_wrote (w : StatusWriter) (status : Nat) :
    (w.writeHeader status).wroteHeader = true := by
  unfold writeHeader
  split
  · assumption
  · rfl

theorem writeHeader_fresh (h : w.Coherent) (hw : w.wroteHeader = false) (status : Nat) :
    w.writeHeader status = { writer := { w.writer with sent := some (status, w.writer.header) },
                             status := status, wroteHeader := true } := by
  unfold writeHeader
  rw [hw, Writer.writeHeader_unsent (h.unsent hw).1]
  rfl

theorem write_wrote (hw : w.wroteHeader = true) (body : Bytes) :
    (w.write body).1 = { w with writer := (w.writer.write body).1 } := by
  obtain ⟨writer, status, wroteHeader⟩ := w
  cases hw
  rfl

theorem Coherent.writeHeader (h : w.Coherent) (status : Nat) : (w.writeHeader status).Coherent := by
  cases hw : w.wroteHeader with
  | true =>
    rw [StatusWriter.writeHeader, hw]
    exact h
  | false =>
    rw [writeHeader_fresh h hw]
    exact Coherent.answered rfl

theorem Coherent.write_wrote (h : w.Coherent) (hw : w.wroteHeader = true) (body : Bytes) :
    (w.write body).1.Coherent := by
  obtain ⟨header, hs⟩ := h.sent hw
  rw [StatusWriter.write_wrote hw]
  refine ⟨fun he => ?_, fun _ => ⟨header, Writer.write_sent hs body⟩⟩
  rw [hw] at he
  cases he

theorem Coherent.write (h : w.Coherent) (body : Bytes) : (w.write body).1.Coherent := by
  cases hw : w.wroteHeader with
  | true => exact h.write_wrote hw body
  | false =>
    have hfirst := (h.writeHeader 200).write_wrote (writeHeader_wrote w 200) body
    rw [StatusWriter.write_wrote (writeHeader_wrote w 200)] at hfirst
    rw [StatusWriter.write, hw]
    exact hfirst

/-- What was recorded is what the client gets. -/
theorem Coherent.response_status (h : w.Coherent) : w.writer.response.status = w.status := by
  cases hw : w.wroteHeader with
  | true =>
    obtain ⟨header, hs⟩ := h.sent hw
    rw [Writer.response_sent hs]
  | false =>
    obtain ⟨hs, hstatus⟩ := h.unsent hw
    rw [Writer.response_unsent hs, hstatus]

end StatusWriter

/-- A request on its way: what was written so far, and what was recorded. -/
structure Exchange where
  recorder : StatusWriter
  events : List Event := []

namespace Exchange

def withHeader (x : Exchange) (header : Header) : Exchange :=
  { x with recorder := { x.recorder with writer := { x.recorder.writer with header := header } } }

def log (x : Exchange) (event : Event) : Exchange := { x with events := x.events ++ [event] }

/-- A request that nothing was written for yet, and that is not cacheable so far. -/
structure Fresh (x : Exchange) : Prop where
  coherent : x.recorder.Coherent
  unwritten : x.recorder.wroteHeader = false
  uncached : x.recorder.writer.header.has headerCacheControl = false

/-- A request answered with a status, and cacheable or not. -/
structure Answered (x : Exchange) (status : Nat) (cached : Bool) : Prop where
  coherent : x.recorder.Coherent
  status : x.recorder.status = status
  cached : x.recorder.writer.response.header.has headerCacheControl = cached

variable {x : Exchange}

theorem Fresh.log (h : Fresh x) (event : Event) : Fresh (x.log event) :=
  ⟨h.coherent, h.unwritten, h.uncached⟩

/-- A client that nothing is written for gets an empty success. -/
theorem Fresh.answered (h : Fresh x) : Answered x 200 false := by
  obtain ⟨hs, hstatus⟩ := h.coherent.unsent h.unwritten
  refine ⟨h.coherent, hstatus, ?_⟩
  rw [Writer.response_unsent hs]
  exact h.uncached

end Exchange

/-- The encoder of JSON documents, and the cache control that successes are sent with. -/
structure Responder where
  cacheControl : Bytes
  encode : JSONPayload → Bytes

namespace Responder

/-- The header fields of a document; only successes may be cached. -/
def jsonHeader (r : Responder) (header : Header) (status : Nat) (encoded : Bytes) : Header :=
  let header := if header.get headerContentType = [] then
    header.set headerContentType (lit contentTypeJSON) else header
  let header := if 200 ≤ status ∧ status < 300 ∧ r.cacheControl ≠ [] then
    header.set headerCacheControl r.cacheControl else header
  header.set headerContentLength (Strconv.formatInt encoded.length)

def writeJSON (r : Responder) (x : Exchange) (status : Nat) (value : JSONPayload) : Exchange :=
  let encoded := r.encode value
  let x := x.withHeader (r.jsonHeader x.recorder.writer.header status encoded)
  let (recorder, taken) := (x.recorder.writeHeader status).write encoded
  let x := { x with recorder := recorder }
  if taken then x else x.log .writeFailed

def problem (r : Responder) (x : Exchange) (path : Bytes) (status : Nat) (title detail : String) :
    Exchange :=
  let header := x.recorder.writer.header.set headerContentType (lit contentTypeProblemJSON)
  r.writeJSON (x.withHeader header) status
    (.problem { type := problemTypeAboutBlank, title, status, detail, instanceURI := path })

/-- A canceled request is given up without an answer. -/
def repositoryError (r : Responder) (x : Exchange) (path : Bytes) (e : Err) : Exchange :=
  if e.is .notFound then r.problem x path 404 problemTitleNotFound problemDetailNotFound
  else if e.is .deadlineExceeded then
    r.problem x path 504 problemTitleTimeout problemDetailTimeout
  else if e.is .canceled then x
  else r.problem (x.log (.repositoryFailed path e)) path 500 problemTitleInternal
    problemDetailInternal

def badRequest (r : Responder) (x : Exchange) (path : Bytes) (text : String) : Exchange :=
  r.problem x path 400 problemTitleBadRequest text

section Facts
variable {r : Responder} {x : Exchange}

theorem jsonHeader_cacheControl (r : Responder) (header : Header) (status : Nat) (encoded : Bytes) :
    (r.jsonHeader header status encoded).has headerCacheControl =
      (header.has headerCacheControl ||
        decide (200 ≤ status ∧ status < 300 ∧ r.cacheControl ≠ [])) := by
  have htype : headerContentType ≠ headerCacheControl := by decide
  have hlength : headerContentLength ≠ headerCacheControl := by decide
  unfold jsonHeader
  rw [Header.has_set_other hlength]
  by_cases hs : 200 ≤ status ∧ status < 300 ∧ r.cacheControl ≠ []
  · rw [if_pos hs, Header.has_set, decide_eq_true hs, Bool.or_true]
  · rw [if_neg hs, decide_eq_false hs, Bool.or_false]
    split
    · exact Header.has_set_other htype header _
    · rfl

theorem writeJSON_recorder (r : Responder) (x : Exchange) (status : Nat) (value : JSONPayload) :
    (r.writeJSON x status value).recorder =
      (((x.withHeader (r.jsonHeader x.recorder.writer.header status
        (r.encode value))).recorder.writeHeader status).write (r.encode value)).1 := by
  unfold writeJSON
  simp only
  split <;> rfl

/-- A document written to a fresh writer is sent with its status, and is not cacheable unless it is
a success. -/
theorem writeJSON_fresh (hc : x.recorder.Coherent) (hw : x.recorder.wroteHeader = false)
    (status : Nat) (value : JSONPayload) :
    (r.writeJSON x status value).recorder.Coherent ∧
      (r.writeJSON x status value).recorder.status = status ∧
      (r.writeJSON x status value).recorder.writer.response.header.has headerCacheControl =
        (x.recorder.writer.header.has headerCacheControl ||
          decide (200 ≤ status ∧ status < 300 ∧ r.cacheControl ≠ [])) := by
  have hc' := hc.withHeader (r.jsonHeader x.recorder.writer.header status (r.encode value))
  rw [writeJSON_recorder, Exchange.withHeader, StatusWriter.writeHeader_fresh hc' hw]
  refine ⟨?_, ?_, ?_⟩
  · exact StatusWriter.Coherent.write (StatusWriter.Coherent.answered rfl) _
  · rw [StatusWriter.write_wrote rfl]
  · rw [StatusWriter.write_wrote rfl]
    rw [Writer.response_sent (Writer.write_sent rfl _)]
    exact jsonHeader_cacheControl r x.recorder.writer.header status _

theorem success_answered (h : x.Fresh) (value : JSONPayload) :
    (r.writeJSON x 200 value).Answered 200 (decide (r.cacheControl ≠ [])) := by
  obtain ⟨hc, hs, hcache⟩ := @writeJSON_fresh r x h.coherent h.unwritten 200 value
  refine ⟨hc, hs, hcache.trans ?_⟩
  simp [h.uncached]

theorem problem_answered (h : x.Fresh) (path : Bytes) {status : Nat} (hs : 300 ≤ status)
    (title detail : String) : (r.problem x path status title detail).Answered status false := by
  let header := x.recorder.writer.header.set headerContentType (lit contentTypeProblemJSON)
  have htype : headerContentType ≠ headerCacheControl := by decide
  have hfresh : (x.withHeader header).Fresh :=
    ⟨h.coherent.withHeader header, h.unwritten, (Header.has_set_other htype _ _).trans h.uncached⟩
  obtain ⟨hc, hstatus, hcache⟩ := @writeJSON_fresh r (x.withHeader header) hfresh.coherent
    hfresh.unwritten status
    (.problem { type := problemTypeAboutBlank, title, status, detail, instanceURI := path })
  refine ⟨hc, hstatus, hcache.trans ?_⟩
  rw [hfresh.uncached, Bool.false_or, decide_eq_false_iff_not]
  omega

end Facts

end Responder
end OpenDiscogs.HttpApi
