import OpenDiscogs.Catalog
import OpenDiscogs.Library.Base64
import OpenDiscogs.Library.Strconv
import OpenDiscogs.Library.UrlQuery

/-! Page parameters, cursors and page responses. -/
namespace OpenDiscogs.HttpApi
open Utf8 Strconv UrlQuery Catalog

def parameterAfterID := "after_id"
def parameterCursor := "cursor"
def parameterSize := "size"
def parameterName := "name"
def parameterRealName := "real_name"
def parameterTitle := "title"
def parameterCountry := "country"
def parameterYear := "year"
def parameterMonth := "month"
def parameterMaster := "master"
def parameterLabelID := "label_id"
def parameterCatalogNumber := "catno"
def parameterIdentifierType := "identifier_type"
def parameterIdentifierValue := "identifier_value"

def maximumResourceID : Int := 2^31-1

def defaultPageSize : Int := 20
def maximumPageSize : Int := 30
def errorCursor := "cursor is invalid"

/-- `values.Get(name)` -/
def get (values : Values) (name : String) : Bytes := values.get (lit name)

structure PageResponse (α : Type) where
  items : List α
  nextAfterID : Option Int
  hasMore : Bool
  pageSize : Int
  resourceURI : Bytes

structure HashPageResponse (α : Type) where
  items : List α
  nextCursor : Option Bytes
  hasMore : Bool
  pageSize : Int
  resourceURI : Bytes

variable {α : Type}

def pageResponse [PageItem α] (page : Page α) (resourceURI : Bytes) : PageResponse α where
  items := page.items
  nextAfterID := page.nextAfterID
  hasMore := page.hasMore
  pageSize := page.items.length
  resourceURI := resourceURI

def encodeHashCursor : Option Int32 → Option Bytes
  | none => none
  | some hash => some (Base64.encode (formatInt hash.toInt))

def hashPageResponse [HashPageItem α] (page : HashPage α) (resourceURI : Bytes) :
    HashPageResponse α where
  items := page.items
  nextCursor := encodeHashCursor page.nextAfterHash
  hasMore := page.hasMore
  pageSize := page.items.length
  resourceURI := resourceURI

def boundsError (minimum maximum : Int) (name : String) : String :=
  s!"{name} must be between {minimum} and {maximum}"

/-- A blank parameter takes the fallback; a numeral is read as it stands, untrimmed. -/
def parseBounded (numeral : Bytes → Option Int) (raw : Bytes) (fallback minimum maximum : Int)
    (name : String) : Except String Int :=
  if trimSpace raw = [] then .ok fallback
  else match numeral raw with
    | some value =>
      if value < minimum ∨ value > maximum then .error (boundsError minimum maximum name)
      else .ok value
    | none => .error (boundsError minimum maximum name)

def parseBoundedInt := parseBounded atoi

def parseBoundedInt64 := parseBounded fun raw => parseInt raw 10 64

def parseCursorPage (values : Values) : Except String PageRequest := do
  let afterID ← parseBoundedInt64 (get values parameterAfterID) 0 0 maximumResourceID
    parameterAfterID
  let size ← parseBoundedInt (get values parameterSize) defaultPageSize 1 maximumPageSize
    parameterSize
  return { afterID, size }

def decodeHashCursor (raw : Bytes) : Except String (Option Int32) :=
  if trimSpace raw = [] then .ok none
  else match Base64.decode raw with
    | none => .error errorCursor
    | some decoded => match parseInt decoded 10 32 with
      | none => .error errorCursor
      | some parsed => .ok (some (Int32.ofInt parsed))

def parseHashCursorPage (values : Values) : Except String HashPageRequest := do
  let afterHash ← decodeHashCursor (get values parameterCursor)
  let size ← parseBoundedInt (get values parameterSize) defaultPageSize 1 maximumPageSize
    parameterSize
  return { afterHash, size }

/-- A bounded parameter is blank, or a numeral within its bounds. -/
theorem parseBounded_eq_ok {numeral : Bytes → Option Int} {raw : Bytes}
    {fallback minimum maximum value : Int} {name : String} :
    parseBounded numeral raw fallback minimum maximum name = .ok value ↔
      if trimSpace raw = [] then value = fallback
      else numeral raw = some value ∧ minimum ≤ value ∧ value ≤ maximum := by
  unfold parseBounded
  by_cases hb : trimSpace raw = []
  · simp [hb, eq_comm]
  · cases hn : numeral raw with
    | none => simp [hb]
    | some n =>
      by_cases hr : n < minimum ∨ n > maximum
      · simp only [hb, hr, if_true, if_false, Option.some.injEq, reduceCtorEq, false_iff]
        intro hparts
        obtain ⟨rfl, hlo, hhi⟩ := hparts
        omega
      · simp only [hb, hr, if_false, Except.ok.injEq, Option.some.injEq]
        exact ⟨fun h => ⟨h, by omega, by omega⟩, fun h => h.1⟩

/-- An accepted page size is between 1 and 30. -/
theorem pageSize_bounds {raw : Bytes} {size : Int}
    (h : parseBoundedInt raw defaultPageSize 1 maximumPageSize parameterSize = .ok size) :
    1 ≤ size ∧ size ≤ maximumPageSize := by
  rw [parseBoundedInt, parseBounded_eq_ok] at h
  split at h
  · subst h
    decide
  · exact h.2

theorem parseHashCursorPage_bounds {values : Values} {request : HashPageRequest}
    (h : parseHashCursorPage values = .ok request) :
    1 ≤ request.size ∧ request.size ≤ maximumPageSize := by
  obtain ⟨afterHash, -, h⟩ := Except.bind_eq_ok.mp h
  obtain ⟨size, hs, h⟩ := Except.bind_eq_ok.mp h
  cases h
  exact pageSize_bounds hs

/-- An accepted page request starts in the range of identifiers and asks for 1 to 30 items. -/
theorem parseCursorPage_bounds {values : Values} {request : PageRequest}
    (h : parseCursorPage values = .ok request) :
    (0 ≤ request.afterID ∧ request.afterID ≤ maximumResourceID) ∧
      1 ≤ request.size ∧ request.size ≤ maximumPageSize := by
  obtain ⟨afterID, ha, h⟩ := Except.bind_eq_ok.mp h
  obtain ⟨size, hs, h⟩ := Except.bind_eq_ok.mp h
  cases h
  refine ⟨?_, pageSize_bounds hs⟩
  rw [parseBoundedInt64, parseBounded_eq_ok] at ha
  split at ha
  · subst ha
    have hmax : 0 ≤ maximumResourceID := by decide
    exact ⟨le_refl 0, hmax⟩
  · exact ha.2

/-- A number in bounds is read back from the numeral it is written as. -/
theorem parseBounded_written {numeral : Bytes → Option Int} {n minimum maximum : Int}
    (hr : numeral (formatInt n) = some n) (hn : minimum ≤ n ∧ n ≤ maximum) (fallback : Int)
    (name : String) :
    parseBounded numeral (formatInt n) fallback minimum maximum name = .ok n := by
  rw [parseBounded, if_neg (trimSpace_formatInt n), hr]
  exact if_neg (by omega)

theorem parseInt_written {n : Int} (h : -2^63 ≤ n ∧ n < 2^63) :
    parseInt (formatInt n) 10 64 = some n :=
  parseInt_formatInt (by omega) (by omega) (by omega)

theorem parseBoundedInt_written {n minimum maximum : Int} (hn : minimum ≤ n ∧ n ≤ maximum)
    (hf : -2^63 ≤ n ∧ n < 2^63) (fallback : Int) (name : String) :
    parseBoundedInt (formatInt n) fallback minimum maximum name = .ok n :=
  parseBounded_written (parseInt_written hf) hn fallback name

theorem parseBoundedInt64_written {n minimum maximum : Int} (hn : minimum ≤ n ∧ n ≤ maximum)
    (hf : -2^63 ≤ n ∧ n < 2^63) (fallback : Int) (name : String) :
    parseBoundedInt64 (formatInt n) fallback minimum maximum name = .ok n :=
  parseBounded_written (parseInt_written hf) hn fallback name

end OpenDiscogs.HttpApi
