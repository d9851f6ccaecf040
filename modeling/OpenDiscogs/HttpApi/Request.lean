import OpenDiscogs.HttpApi.Pagination

/-! Path and query parameters read into values, or refused with a text that names them. -/
namespace OpenDiscogs.HttpApi
open Utf8 Strconv UrlQuery

/-- A request on a matched route: the path, its `{id}` part and the raw query. -/
structure Request where
  path : Bytes
  pathValueID : Bytes := []
  rawQuery : Bytes := []

/-- `request.URL.Query()` -/
def Request.query (request : Request) : Values := parse request.rawQuery

def errorIDRange := s!"id must be between 1 and {maximumResourceID}"
def errorBoolean (name : String) := s!"{name} must be true or false"
def errorTextEncoding (name : String) := s!"{name} must be valid UTF-8"
def errorTextLength (name : String) (minimum maximum : Nat) :=
  s!"{name} must contain between {minimum} and {maximum} characters"
def errorMonthRequiresYear := "month requires year"
def errorRequired (name : String) := s!"{name} is required"
def minimumSearchLength := 3
def maximumSearchLength := 200
def maximumCountryLength := 255
def maxInt16 : Int := 2^15-1

def optionalTextFilter (raw : Bytes) (minimum maximum : Nat) (name : String) :
    Except String Bytes :=
  if !validString raw then .error (errorTextEncoding name)
  else
    let normalized := trimSpace raw
    if normalized = [] then .ok []
    else
      let length := runeCount normalized
      if length < minimum ∨ length > maximum then .error (errorTextLength name minimum maximum)
      else .ok normalized

def requiredTextFilter (raw : Bytes) (minimum maximum : Nat) (name : String) :
    Except String Bytes := do
  let value ← optionalTextFilter raw minimum maximum name
  if value = [] then .error (errorRequired name) else .ok value

def pathID (request : Request) : Except String Int :=
  match parseInt request.pathValueID 10 64 with
  | some id => if id < 1 ∨ id > maximumResourceID then .error errorIDRange else .ok id
  | none => .error errorIDRange

def optionalInt (raw : Bytes) (minimum maximum : Int) (name : String) :
    Except String (Option Int) :=
  if trimSpace raw = [] then .ok none
  else do
    let value ← parseBoundedInt raw 0 minimum maximum name
    return some value

def optionalBool (raw : Bytes) (name : String) : Except String (Option Bool) :=
  if trimSpace raw = [] then .ok none
  else match parseBool raw with
    | some value => .ok (some value)
    | none => .error (errorBoolean name)

def optionalSearchTerm (raw : Bytes) (name : String) : Except String Bytes :=
  optionalTextFilter raw minimumSearchLength maximumSearchLength name

def optionalCountry (raw : Bytes) : Except String Bytes :=
  optionalTextFilter raw 1 maximumCountryLength parameterCountry

theorem pathID_bounds {request : Request} {id : Int} (h : pathID request = .ok id) :
    1 ≤ id ∧ id ≤ maximumResourceID := by
  unfold pathID at h
  split at h
  · split at h
    · cases h
    · cases h
      omega
  · cases h

/-- A filter accepts well-formed text that is blank or in bounds, and passes it on trimmed. -/
theorem optionalTextFilter_eq_ok {raw value : Bytes} {minimum maximum : Nat} {name : String} :
    optionalTextFilter raw minimum maximum name = .ok value ↔
      validString raw = true ∧ (trimSpace raw = [] ∨
        minimum ≤ runeCount (trimSpace raw) ∧ runeCount (trimSpace raw) ≤ maximum) ∧
      value = trimSpace raw := by
  unfold optionalTextFilter
  cases hv : validString raw with
  | false => simp
  | true =>
    by_cases hb : trimSpace raw = []
    · simp [hb, eq_comm]
    · by_cases hl : runeCount (trimSpace raw) < minimum ∨ runeCount (trimSpace raw) > maximum
      · have hno : ¬(minimum ≤ runeCount (trimSpace raw) ∧ runeCount (trimSpace raw) ≤ maximum) := by
          omega
        simp [hb, hl, hno]
      · have hyes : minimum ≤ runeCount (trimSpace raw) ∧ runeCount (trimSpace raw) ≤ maximum := by
          omega
        simp [hb, hl, hyes, eq_comm]

/-- An optional number is missing when it is blank, and the numeral's value otherwise. -/
theorem optionalInt_eq_ok {raw : Bytes} {minimum maximum : Int} {name : String}
    {value : Option Int} : optionalInt raw minimum maximum name = .ok value ↔
      if trimSpace raw = [] then value = none
      else ∃ n, value = some n ∧ atoi raw = some n ∧ minimum ≤ n ∧ n ≤ maximum := by
  unfold optionalInt
  by_cases hb : trimSpace raw = []
  · simp [hb, eq_comm]
  · simp only [hb, if_false, Except.bind_eq_ok, parseBoundedInt, parseBounded_eq_ok]
    constructor
    · intro hparts
      obtain ⟨n, hn, h⟩ := hparts
      cases h
      exact ⟨n, rfl, hn⟩
    · intro hparts
      obtain ⟨n, rfl, hn⟩ := hparts
      exact ⟨n, hn, rfl⟩

theorem optionalBool_eq_ok {raw : Bytes} {name : String} {value : Option Bool} :
    optionalBool raw name = .ok value ↔
      if trimSpace raw = [] then value = none else ∃ b, value = some b ∧ parseBool raw = some b := by
  unfold optionalBool
  by_cases hb : trimSpace raw = []
  · simp [hb, eq_comm]
  · cases hr : parseBool raw with
    | none => simp [hb]
    | some b => simp [hb, eq_comm]

theorem requiredTextFilter_eq_ok {raw value : Bytes} {minimum maximum : Nat} {name : String} :
    requiredTextFilter raw minimum maximum name = .ok value ↔
      optionalTextFilter raw minimum maximum name = .ok value ∧ value ≠ [] := by
  rw [requiredTextFilter, Except.bind_eq_ok]
  constructor
  · intro hparts
    obtain ⟨v, hv, h⟩ := hparts
    split at h
    · cases h
    · next hne => cases h; exact ⟨hv, hne⟩
  · intro hparts
    obtain ⟨hv, hne⟩ := hparts
    exact ⟨value, hv, if_neg hne⟩

/-- A text in bounds with no white space around it is accepted as it is. -/
theorem requiredTextFilter_encode {cs : List Char} (ht : trim cs = cs) {minimum maximum : Nat}
    (hm : 0 < minimum) (hc : minimum ≤ cs.length ∧ cs.length ≤ maximum) (name : String) :
    requiredTextFilter (Utf8.encode cs) minimum maximum name = .ok (Utf8.encode cs) := by
  have hne : Utf8.encode cs ≠ [] := fun h => by
    have hnil : cs = [] := encode_injective (h.trans rfl)
    rw [hnil, List.length_nil] at hc
    omega
  rw [requiredTextFilter_eq_ok, optionalTextFilter_eq_ok, trimSpace_encode, ht, runeCount_encode]
  exact ⟨⟨validString_encode cs, Or.inr hc, rfl⟩, hne⟩

end OpenDiscogs.HttpApi
