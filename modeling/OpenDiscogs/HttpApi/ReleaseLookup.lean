import OpenDiscogs.HttpApi.Request

/-! Which exact lookup, if any, a release search asks for. -/
namespace OpenDiscogs.HttpApi
open Utf8 UrlQuery Catalog

def maximumCatalogNumberLength := 1000
def maximumIdentifierTypeLength := 255
def maximumIdentifierValueLength := 4096
def errorLookupPair (first second : String) := s!"{first} and {second} must be provided together"
def errorLookupCombination := "catalog-number and identifier lookups cannot be combined"
def errorLookupFilterCombination :=
  "exact release lookup cannot be combined with title, country, year, month, or master filters"

inductive ReleaseLookup where
  | none
  | catalogNumber (lookup : CatalogNumberLookup)
  | identifier (lookup : IdentifierLookup)

def hasText (value : Bytes) : Bool := trimSpace value ≠ []

def hasQueryParameter (values : Values) (name : String) : Bool := values.has (lit name)

def hasStandardReleaseFilter (values : Values) : Bool :=
  [parameterTitle, parameterCountry, parameterYear, parameterMonth, parameterMaster].any
    fun name => hasText (get values name)

def parseCatalogNumberLookup (values : Values) (hasLabelID hasCatalogNumber : Bool) :
    Except String ReleaseLookup :=
  if !hasLabelID || !hasCatalogNumber then
    .error (errorLookupPair parameterLabelID parameterCatalogNumber)
  else if !hasText (get values parameterLabelID) then .error (errorRequired parameterLabelID)
  else do
    let labelID ← parseBoundedInt64 (get values parameterLabelID) 0 1 maximumResourceID
      parameterLabelID
    let catalogNumber ← requiredTextFilter (get values parameterCatalogNumber) 1
      maximumCatalogNumberLength parameterCatalogNumber
    return .catalogNumber { labelID, catalogNumber }

def parseIdentifierLookup (values : Values) (hasType hasValue : Bool) :
    Except String ReleaseLookup :=
  if !hasType || !hasValue then
    .error (errorLookupPair parameterIdentifierType parameterIdentifierValue)
  else do
    let type ← requiredTextFilter (get values parameterIdentifierType) 1
      maximumIdentifierTypeLength parameterIdentifierType
    let value ← requiredTextFilter (get values parameterIdentifierValue) 1
      maximumIdentifierValueLength parameterIdentifierValue
    return .identifier { type, value }

def parseReleaseLookup (values : Values) : Except String ReleaseLookup :=
  let hasLabelID := hasQueryParameter values parameterLabelID
  let hasCatalogNumber := hasQueryParameter values parameterCatalogNumber
  let hasIdentifierType := hasQueryParameter values parameterIdentifierType
  let hasIdentifierValue := hasQueryParameter values parameterIdentifierValue
  let hasCatalogLookup := hasLabelID || hasCatalogNumber
  let hasIdentifierLookup := hasIdentifierType || hasIdentifierValue
  if hasCatalogLookup && hasIdentifierLookup then .error errorLookupCombination
  else if !hasCatalogLookup && !hasIdentifierLookup then .ok .none
  else if hasStandardReleaseFilter values then .error errorLookupFilterCombination
  else if hasCatalogLookup then parseCatalogNumberLookup values hasLabelID hasCatalogNumber
  else parseIdentifierLookup values hasIdentifierType hasIdentifierValue

/-- The parameters that ask for a lookup by catalog number, and by identifier. -/
def asksCatalogNumber (values : Values) : Bool :=
  hasQueryParameter values parameterLabelID || hasQueryParameter values parameterCatalogNumber

def asksIdentifier (values : Values) : Bool :=
  hasQueryParameter values parameterIdentifierType ||
    hasQueryParameter values parameterIdentifierValue

section Cases
variable {values : Values}

theorem parseCatalogNumberLookup_eq_ok {hasLabelID hasCatalogNumber : Bool}
    {lookup : ReleaseLookup} :
    parseCatalogNumberLookup values hasLabelID hasCatalogNumber = .ok lookup ↔
      (hasLabelID = true ∧ hasCatalogNumber = true) ∧
      hasText (get values parameterLabelID) = true ∧ ∃ labelID,
        parseBoundedInt64 (get values parameterLabelID) 0 1 maximumResourceID parameterLabelID =
          .ok labelID ∧ ∃ catalogNumber,
        requiredTextFilter (get values parameterCatalogNumber) 1 maximumCatalogNumberLength
          parameterCatalogNumber = .ok catalogNumber ∧
        lookup = .catalogNumber { labelID, catalogNumber } := by
  unfold parseCatalogNumberLookup
  cases hasLabelID with
  | false => simp
  | true =>
    cases hasCatalogNumber with
    | false => simp
    | true =>
      cases hasText (get values parameterLabelID) with
      | false => simp
      | true =>
        simp only [Bool.not_true, Bool.or_self, Bool.false_eq_true, if_false, Except.bind_eq_ok, true_and]
        exact exists_congr fun _ => and_congr_right fun _ => exists_congr fun _ =>
          and_congr_right fun _ => ⟨fun h => by cases h; rfl, fun h => by rw [h]; rfl⟩

theorem parseIdentifierLookup_eq_ok {hasType hasValue : Bool} {lookup : ReleaseLookup} :
    parseIdentifierLookup values hasType hasValue = .ok lookup ↔
      (hasType = true ∧ hasValue = true) ∧ ∃ type,
        requiredTextFilter (get values parameterIdentifierType) 1 maximumIdentifierTypeLength
          parameterIdentifierType = .ok type ∧ ∃ value,
        requiredTextFilter (get values parameterIdentifierValue) 1 maximumIdentifierValueLength
          parameterIdentifierValue = .ok value ∧
        lookup = .identifier { type, value } := by
  unfold parseIdentifierLookup
  cases hasType with
  | false => simp
  | true =>
    cases hasValue with
    | false => simp
    | true =>
      simp only [Bool.not_true, Bool.or_self, Bool.false_eq_true, if_false, Except.bind_eq_ok, true_and]
      exact exists_congr fun _ => and_congr_right fun _ => exists_congr fun _ =>
        and_congr_right fun _ => ⟨fun h => by cases h; rfl, fun h => by rw [h]; rfl⟩

theorem parseReleaseLookup_eq : parseReleaseLookup values =
    if asksCatalogNumber values && asksIdentifier values then .error errorLookupCombination
    else if !asksCatalogNumber values && !asksIdentifier values then .ok .none
    else if hasStandardReleaseFilter values then .error errorLookupFilterCombination
    else if asksCatalogNumber values then
      parseCatalogNumberLookup values (hasQueryParameter values parameterLabelID)
        (hasQueryParameter values parameterCatalogNumber)
    else parseIdentifierLookup values (hasQueryParameter values parameterIdentifierType)
      (hasQueryParameter values parameterIdentifierValue) := rfl

/-- Which lookup is made depends on the presence of the four parameters alone. -/
theorem parseReleaseLookup_eq_ok {lookup : ReleaseLookup} :
    parseReleaseLookup values = .ok lookup ↔
      match asksCatalogNumber values, asksIdentifier values with
      | false, false => lookup = .none
      | true, true => False
      | true, false => hasStandardReleaseFilter values = false ∧
        parseCatalogNumberLookup values (hasQueryParameter values parameterLabelID)
          (hasQueryParameter values parameterCatalogNumber) = .ok lookup
      | false, true => hasStandardReleaseFilter values = false ∧
        parseIdentifierLookup values (hasQueryParameter values parameterIdentifierType)
          (hasQueryParameter values parameterIdentifierValue) = .ok lookup := by
  rw [parseReleaseLookup_eq]
  cases asksCatalogNumber values with
  | false =>
    cases asksIdentifier values with
    | false => simp [eq_comm]
    | true => cases hasStandardReleaseFilter values <;> simp
  | true =>
    cases asksIdentifier values with
    | false => cases hasStandardReleaseFilter values <;> simp
    | true => simp

/-- An accepted request with a parameter of the identifier lookup has both, in bounds, and no
other filter. -/
theorem identifierLookup_of_ok (ha : asksIdentifier values = true) {lookup : ReleaseLookup}
    (h : parseReleaseLookup values = .ok lookup) :
    (asksCatalogNumber values = false ∧ hasStandardReleaseFilter values = false) ∧ ∃ type value,
      requiredTextFilter (get values parameterIdentifierType) 1 maximumIdentifierTypeLength
        parameterIdentifierType = .ok type ∧
      requiredTextFilter (get values parameterIdentifierValue) 1 maximumIdentifierValueLength
        parameterIdentifierValue = .ok value ∧ lookup = .identifier { type, value } := by
  rw [parseReleaseLookup_eq_ok, ha] at h
  cases hc : asksCatalogNumber values with
  | true => rw [hc] at h; exact h.elim
  | false =>
    rw [hc] at h
    obtain ⟨-, type, ht, value, hv, hlookup⟩ := parseIdentifierLookup_eq_ok.mp h.2
    exact ⟨⟨rfl, h.1⟩, type, value, ht, hv, hlookup⟩

theorem catalogNumberLookup_of_ok (ha : asksCatalogNumber values = true) {lookup : ReleaseLookup}
    (h : parseReleaseLookup values = .ok lookup) :
    (asksIdentifier values = false ∧ hasStandardReleaseFilter values = false) ∧
      ∃ labelID catalogNumber, hasText (get values parameterLabelID) = true ∧
      parseBoundedInt64 (get values parameterLabelID) 0 1 maximumResourceID parameterLabelID =
        .ok labelID ∧
      requiredTextFilter (get values parameterCatalogNumber) 1 maximumCatalogNumberLength
        parameterCatalogNumber = .ok catalogNumber ∧
      lookup = .catalogNumber { labelID, catalogNumber } := by
  rw [parseReleaseLookup_eq_ok, ha] at h
  cases hi : asksIdentifier values with
  | true => rw [hi] at h; exact h.elim
  | false =>
    rw [hi] at h
    obtain ⟨-, ht, labelID, hl, c, hc, hlookup⟩ := parseCatalogNumberLookup_eq_ok.mp h.2
    exact ⟨⟨rfl, h.1⟩, labelID, c, ht, hl, hc, hlookup⟩

theorem noLookup_of_ok (hc : asksCatalogNumber values = false) (hi : asksIdentifier values = false)
    {lookup : ReleaseLookup} (h : parseReleaseLookup values = .ok lookup) : lookup = .none := by
  rw [parseReleaseLookup_eq_ok, hc, hi] at h
  exact h

end Cases

end OpenDiscogs.HttpApi
