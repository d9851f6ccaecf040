import OpenDiscogs.Library.Utf8

/-! A server's side of one response: header fields that may change until the status is sent, and
a body. -/
namespace HttpResponse
open Utf8

/-- Header fields under canonical names, each name once. -/
abbrev Header := List (String × Bytes)

namespace Header

/-- The value of a field, and the empty text when the field is missing. -/
def get (header : Header) (name : String) : Bytes :=
  match header.find? fun field => field.1 = name with
  | some field => field.2
  | none => []

def set (header : Header) (name : String) (value : Bytes) : Header :=
  (name, value)::header.filter fun field => field.1 ≠ name

def has (header : Header) (name : String) : Bool := header.any fun field => field.1 = name

theorem has_set (header : Header) (name : String) (value : Bytes) : (header.set name value).has name = true := by
  simp [set, has]

theorem has_set_other {name other : String} (h : name ≠ other) (header : Header) (value : Bytes) :
    (header.set name value).has other = header.has other := by
  rw [set, has, List.any_cons, decide_eq_false h, Bool.false_or, List.any_filter]
  refine congrArg header.any (funext fun field => ?_)
  by_cases hf : field.1 = other
  · simp [hf, h.symm]
  · simp [hf]

theorem get_set (header : Header) (name : String) (value : Bytes) :
    (header.set name value).get name = value := by
  simp [set, get]

/-- Fields that are left out are no other fields. -/
theorem get_without {name other : String} (h : name ≠ other) (header : Header) :
    get (header.filter fun field => field.1 ≠ name) other = header.get other := by
  have hpred : ∀ field : String × Bytes,
      (decide (field.1 ≠ name) = true ∧ decide (field.1 = other) = true) ↔ field.1 = other := by
    intro field
    simp only [decide_eq_true_eq, and_iff_right_iff_imp]
    intro hf
    rw [hf]
    exact h.symm
  simp only [get, List.find?_filter, hpred]

theorem get_set_other {name other : String} (h : name ≠ other) (header : Header) (value : Bytes) :
    (header.set name value).get other = header.get other := by
  rw [← get_without h header, set]
  simp [get, h]

end Header

/-- What a client gets. -/
structure Response where
  status : Nat
  header : Header
  body : Bytes

/-- The header is sent as it stands when the status is; a broken connection takes no body. -/
structure Writer where
  header : Header := []
  sent : Option (Nat × Header) := none
  body : Bytes := []
  broken : Bool := false

namespace Writer

/-- Only the first status is sent. -/
def writeHeader (w : Writer) (status : Nat) : Writer :=
  match w.sent with
  | none => { w with sent := some (status, w.header) }
  | some _ => w

/-- The flag tells whether the body was taken. -/
def write (w : Writer) (body : Bytes) : Writer × Bool :=
  let w := w.writeHeader 200
  if w.broken then (w, false) else ({ w with body := w.body ++ body }, true)

/-- A handler that returns without a status or a body sends the status 200. -/
def response (w : Writer) : Response :=
  match w.sent with
  | some (status, header) => ⟨status, header, w.body⟩
  | none => ⟨200, w.header, w.body⟩

theorem writeHeader_unsent {w : Writer} (h : w.sent = none) (status : Nat) :
    w.writeHeader status = { w with sent := some (status, w.header) } := by
  rw [writeHeader, h]

theorem writeHeader_sent {w : Writer} {head : Nat × Header} (h : w.sent = some head)
    (status : Nat) : w.writeHeader status = w := by
  rw [writeHeader, h]

theorem write_sent {w : Writer} {head : Nat × Header} (h : w.sent = some head) (body : Bytes) :
    (w.write body).1.sent = some head := by
  rw [write, writeHeader_sent h]
  cases w.broken <;> exact h

theorem response_sent {w : Writer} {status : Nat} {header : Header}
    (h : w.sent = some (status, header)) : w.response = ⟨status, header, w.body⟩ := by
  rw [response, h]

theorem response_unsent {w : Writer} (h : w.sent = none) : w.response = ⟨200, w.header, w.body⟩ := by
  rw [response, h]

/-- `http.Error`: what was known of another body is dropped. -/
def error (w : Writer) (text : String) (status : Nat) : Writer :=
  let header : Header := w.header.filter fun field => field.1 ≠ "Content-Length"
  let header := header.set "Content-Type" (lit "text/plain; charset=utf-8")
  let w := { w with header := header.set "X-Content-Type-Options" (lit "nosniff") }
  ((w.writeHeader status).write (lit text ++ [0x0A])).1

/-- An error is sent with its status, and with the other fields as they were. -/
theorem error_response {w : Writer} (h : w.sent = none) (text : String) (status : Nat) :
    (w.error text status).response.status = status ∧
      (w.error text status).response.header.get "X-Content-Type-Options" = lit "nosniff" ∧
      ∀ name, name ∉ ["Content-Length", "Content-Type", "X-Content-Type-Options"] →
        (w.error text status).response.header.get name = w.header.get name := by
  let kept : Header := w.header.filter fun field => field.1 ≠ "Content-Length"
  let header := (kept.set "Content-Type" (lit "text/plain; charset=utf-8")).set
    "X-Content-Type-Options" (lit "nosniff")
  have hsent : (({ w with header := header }.writeHeader status).write
      (lit text ++ [0x0A])).1.sent = some (status, header) := by
    refine write_sent ?_ _
    rw [@writeHeader_unsent { w with header := header } h]
  unfold error
  rw [response_sent hsent]
  refine ⟨rfl, Header.get_set _ _ _, fun name hname => ?_⟩
  simp only [List.mem_cons, List.not_mem_nil, or_false, not_or] at hname
  obtain ⟨hlength, htype, hoptions⟩ := hname
  exact (Header.get_set_other (Ne.symm hoptions) _ _).trans
    ((Header.get_set_other (Ne.symm htype) _ _).trans (Header.get_without (Ne.symm hlength) _))

end Writer

/-- What is asked of a writer: new header fields, a status, or a piece of the body. -/
inductive WriterCall where
  | header (header : Header)
  | writeHeader (status : Nat)
  | write (body : Bytes)

def Writer.call (w : Writer) : WriterCall → Writer
  | .header header => { w with header := header }
  | .writeHeader status => w.writeHeader status
  | .write body => (w.write body).1

/-- The statuses that calls ask to be sent, the one that a first write implies among them. -/
def heads (sent : Bool) : List WriterCall → List Nat
  | [] => []
  | .header _::calls => heads sent calls
  | .writeHeader status::calls => status::heads true calls
  | .write _::calls => if sent then heads true calls else 200::heads true calls

/-- The statuses of a response once its handler has returned. -/
def responseHeads (calls : List WriterCall) : List Nat :=
  if heads false calls = [] then [200] else heads false calls

end HttpResponse
