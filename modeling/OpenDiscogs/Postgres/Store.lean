import OpenDiscogs.Postgres.Schema

/-! What all store methods share: query parameters as PostgreSQL accepts them, rows scanned into
values, and pages made of them. -/
namespace OpenDiscogs.Postgres
open Utf8 SqlText Calendar Catalog

/-- The reader of the catalog. Its server URL is a text, since the detail queries hand it to
PostgreSQL. -/
structure Store where
  serverURL : Text

def trimRight (t : Text) (c : Char) : Text where
  chars := t.chars.rdropWhile (· == c)
  legal h := t.legal ((List.rdropWhile_prefix _ _).mem h)

def Store.new (serverURL : Text) : Store where
  serverURL := trimRight serverURL '/'

/-- The store of a service that runs locally. -/
def localStore : Store := Store.new (Text.of "http://localhost:8080")

variable {α β : Type}

/-- An error of a query, under the name of the operation that issued it. -/
def operationError (operation : String) : Result α → Result α
  | .error e => .error (.wrap operation e)
  | r => r

def rejected (reason : String) : Result α := .error (.other reason)

/-- A text parameter: PostgreSQL refuses malformed UTF-8 and U+0000. -/
def textParameter (s : Bytes) : Result Text :=
  match ofBytes s with
  | some t => .value t
  | none => rejected "invalid byte sequence for encoding"

/-- A parameter compared with an integer column. -/
def integerParameter (n : Int) : Result Int :=
  if -2^31 ≤ n ∧ n < 2^31 then .value n else rejected "value is out of range for type integer"

/-- A date parameter: the type ends in 4713 BC and 5874897 AD. -/
def dateParameter (d : Date) : Result Date :=
  if -4712 ≤ d.year ∧ d.year ≤ 5874897 then .value d else rejected "date out of range"

def limitParameter (n : Int) : Result Nat :=
  if n < 0 then rejected "LIMIT must not be negative" else .value n.toNat

/-- A parameter that may be null. -/
def nullable (parameter : α → Result β) : Option α → Result (Option β)
  | none => .value none
  | some a => do
    let b ← parameter a
    return some b

/-- Every row scanned in turn; the first row that does not scan fails the query. -/
def collectRows (scanner : α → Result β) : List α → Result (List β)
  | [] => .value []
  | row::rows => do
    let item ← scanner row
    let items ← collectRows scanner rows
    return item::items

def scanText : Option Text → Result Text
  | some t => .value t
  | none => .error (.other "cannot scan NULL into *string")

/-- An SQL array scanned into a slice of strings, which cannot hold a null. -/
def scanTextArray (xs : List (Option Text)) : Result (List Text) := collectRows scanText xs

def loadPage (requestedSize : Int) (items : Result (List α)) : Result (Page α) := do
  let items ← items
  newPage items requestedSize

def loadHashPage (requestedSize : Int) (items : Result (List α)) : Result (HashPage α) := do
  let items ← items
  newHashPage items requestedSize

def notFound : Err → Err
  | e => if e.is .noRows then errNotFound else e

/-- `strings.TrimSpace` of an optional filter; a blank one is no filter. -/
def optionalText (raw : Bytes) : Option Bytes :=
  let normalized := trimSpace raw
  if normalized = [] then none else some normalized

@[simp] theorem operationError_value (operation : String) (a : α) :
    operationError operation (.value a : Result α) = .value a := rfl

theorem operationError_eq_value {operation : String} {r : Result α} {a : α} :
    operationError operation r = .value a ↔ r = .value a := by
  cases r <;> simp [operationError]

theorem integerParameter_eq {n : Int} (h : -2^31 ≤ n ∧ n < 2^31) :
    integerParameter n = .value n := if_pos h

theorem integerParameter_value {n m : Int} (h : integerParameter n = .value m) :
    m = n ∧ -2^31 ≤ n ∧ n < 2^31 := by
  unfold integerParameter at h
  split at h
  · next hn => cases h; exact ⟨rfl, hn⟩
  · cases h

theorem collectRows_eq_value {scanner : α → Result β} {rows : List α} {items : List β} :
    collectRows scanner rows = .value items ↔
      List.Forall₂ (fun row item => scanner row = .value item) rows items := by
  induction rows generalizing items with
  | nil => simp [collectRows, List.forall₂_nil_left_iff, eq_comm]
  | cons row rows ih =>
    simp only [collectRows, Outcome.bind_value, List.forall₂_cons_left_iff]
    constructor
    · intro h
      obtain ⟨item, hi, rest, hr, he⟩ := h
      cases he
      exact ⟨item, rest, hi, ih.mp hr, rfl⟩
    · intro h
      obtain ⟨item, rest, hi, hr, rfl⟩ := h
      exact ⟨item, hi, rest, ih.mpr hr, rfl⟩

/-- Without nulls an array scans to its elements. -/
theorem scanTextArray_some (ts : List Text) : scanTextArray (ts.map some) = .value ts := by
  rw [scanTextArray, collectRows_eq_value, List.forall₂_map_left_iff]
  exact List.forall₂_same.mpr fun t _ => rfl

theorem loadPage_value {size : Int} (h : 0 < size) (items : List α) :
    loadPage size (.value items : Result (List α)) =
      .value ⟨items.take size.toNat, decide (size.toNat < items.length)⟩ :=
  lookAhead_pos Page.mk items h

end OpenDiscogs.Postgres
