import OpenDiscogs.HttpApi.Handlers

/-! What the four search routes make of the parameters that stand in a raw query. -/
namespace OpenDiscogs
open Utf8 UrlQuery Strconv Catalog HttpApi

/-- The filter and paging parameters of the search routes. -/
inductive Parameter where
  | afterID | size | name | realName | title | country | year | month | master | labelID
  | catalogNumber | identifierType | identifierValue

namespace Parameter

def word : Parameter → String
  | afterID => parameterAfterID
  | size => parameterSize
  | name => parameterName
  | realName => parameterRealName
  | title => parameterTitle
  | country => parameterCountry
  | year => parameterYear
  | month => parameterMonth
  | master => parameterMaster
  | labelID => parameterLabelID
  | catalogNumber => parameterCatalogNumber
  | identifierType => parameterIdentifierType
  | identifierValue => parameterIdentifierValue

/-- The parameters whose values are texts and not numbers or truth values. -/
def isText : Parameter → Bool
  | name | realName | title | country | catalogNumber | identifierType | identifierValue => true
  | _ => false

end Parameter

/-- One argument of a repository call. -/
inductive Argument where
  | text (value : Bytes)
  | number (value : Int)
  | flag (value : Bool)
deriving DecidableEq

/-- What a client means by a value of a parameter; texts are meant without the white space around
them. -/
def Parameter.meaning (parameter : Parameter) (value : Bytes) : Option Argument :=
  match parameter with
  | .afterID | .size | .year | .month | .labelID => (parseInt value 10 64).map .number
  | .master => (parseBool value).map .flag
  | _ => some (.text (trimSpace value))

/-- What a search takes for a parameter that is missing. -/
def Parameter.fallback : Parameter → Option Argument
  | .afterID => some (.number 0)
  | .size => some (.number defaultPageSize)
  | _ => none

def pageArgument (request : PageRequest) : Parameter → Option Argument
  | .afterID => some (.number request.afterID)
  | .size => some (.number request.size)
  | _ => none

/-- The argument of a search call that a parameter is for. -/
def searchArgument : Call → Parameter → Option Argument
  | .searchArtists filter _, .name => some (.text filter.name)
  | .searchArtists filter _, .realName => some (.text filter.realName)
  | .searchLabels filter _, .name => some (.text filter.name)
  | .searchMasters filter _, .title => some (.text filter.title)
  | .searchMasters filter _, .year => filter.year.map .number
  | .searchReleases filter _, .title => some (.text filter.title)
  | .searchReleases filter _, .country => some (.text filter.country)
  | .searchReleases filter _, .year => filter.year.map .number
  | .searchReleases filter _, .month => filter.month.map .number
  | .searchReleases filter _, .master => filter.master.map .flag
  | .releasesByCatalogNumber lookup _, .labelID => some (.number lookup.labelID)
  | .releasesByCatalogNumber lookup _, .catalogNumber => some (.text lookup.catalogNumber)
  | .releasesByIdentifier lookup _, .identifierType => some (.text lookup.type)
  | .releasesByIdentifier lookup _, .identifierValue => some (.text lookup.value)
  | .searchArtists _ request, parameter => pageArgument request parameter
  | .searchLabels _ request, parameter => pageArgument request parameter
  | .searchMasters _ request, parameter => pageArgument request parameter
  | .searchReleases _ request, parameter => pageArgument request parameter
  | .releasesByCatalogNumber _ request, parameter => pageArgument request parameter
  | .releasesByIdentifier _ request, parameter => pageArgument request parameter
  | _, _ => none

inductive SearchRoute where
  | artists | labels | masters | releases

namespace SearchRoute

def handler : SearchRoute → Handler
  | artists => ArtistHandler.search
  | labels => LabelHandler.search
  | masters => MasterHandler.search
  | releases => ReleaseHandler.search

def parameters : SearchRoute → List Parameter
  | artists => [.afterID, .size, .name, .realName]
  | labels => [.afterID, .size, .name]
  | masters => [.afterID, .size, .title, .year]
  | releases => [.afterID, .size, .title, .country, .year, .month, .master, .labelID,
      .catalogNumber, .identifierType, .identifierValue]

/-- The call of a search without parameters. -/
def unfiltered : SearchRoute → Call
  | artists => .searchArtists ⟨[], []⟩ ⟨0, defaultPageSize⟩
  | labels => .searchLabels ⟨[]⟩ ⟨0, defaultPageSize⟩
  | masters => .searchMasters ⟨[], none⟩ ⟨0, defaultPageSize⟩
  | releases => .searchReleases ⟨[], [], none, none, none⟩ ⟨0, defaultPageSize⟩

end SearchRoute

/-- An argument is what the value of its parameter means, or, for a blank value, no text. -/
def Carries (parameter : Parameter) (value : Bytes) (argument : Option Argument) : Prop :=
  if trimSpace value = [] then ∀ t, argument = some (.text t) → t = []
  else argument.isSome ∧ argument = parameter.meaning value

section Carried
variable {values : Values} {value : Bytes}

theorem carries_text {parameter : Parameter} (ht : parameter.isText = true) :
    Carries parameter value (some (.text (trimSpace value))) := by
  unfold Carries
  split
  · next hb => simp [hb]
  · cases parameter with
    | name | realName | title | country | catalogNumber | identifierType | identifierValue =>
      exact ⟨rfl, rfl⟩
    | _ => cases ht

theorem carries_page {request : PageRequest} (h : parseCursorPage values = .ok request) :
    Carries .afterID (get values parameterAfterID) (some (.number request.afterID)) ∧
      Carries .size (get values parameterSize) (some (.number request.size)) := by
  obtain ⟨afterID, ha, h⟩ := Except.bind_eq_ok.mp h
  obtain ⟨size, hs, h⟩ := Except.bind_eq_ok.mp h
  cases h
  rw [parseBoundedInt64, parseBounded_eq_ok] at ha
  rw [parseBoundedInt, parseBounded_eq_ok] at hs
  unfold Carries
  constructor
  · split at ha
    · next hb => simp [hb]
    · next hb => simp [hb, Parameter.meaning, ha.1]
  · split at hs
    · next hb => simp [hb]
    · next hb =>
      have hs' : parseInt (get values parameterSize) 10 64 = some size := hs.1
      simp [hb, Parameter.meaning, hs']

/-- A blank parameter may be left out of a call. -/
theorem carries_blank {parameter : Parameter} (hb : trimSpace value = []) :
    Carries parameter value none := by
  rw [Carries, if_pos hb]
  intro t ht
  cases ht

theorem carries_filter {parameter : Parameter} (ht : parameter.isText = true)
    {minimum maximum : Nat} {word : String} {text : Bytes}
    (h : optionalTextFilter value minimum maximum word = .ok text) :
    Carries parameter value (some (.text text)) := by
  obtain ⟨-, -, rfl⟩ := optionalTextFilter_eq_ok.mp h
  exact carries_text ht

theorem carries_int {parameter : Parameter}
    (hp : ∀ v, parameter.meaning v = (parseInt v 10 64).map .number) {minimum maximum : Int}
    {word : String} {n : Option Int} (h : optionalInt value minimum maximum word = .ok n) :
    Carries parameter value (n.map .number) := by
  rw [optionalInt_eq_ok] at h
  split at h
  · next hb => exact h ▸ carries_blank hb
  · next hb =>
    obtain ⟨k, rfl, hk, -⟩ := h
    have hk' : parseInt value 10 64 = some k := hk
    rw [Carries, if_neg hb, hp, hk']
    exact ⟨rfl, rfl⟩

theorem carries_bool {word : String} {b : Option Bool} (h : optionalBool value word = .ok b) :
    Carries .master value (b.map .flag) := by
  rw [optionalBool_eq_ok] at h
  split at h
  · next hb => exact h ▸ carries_blank hb
  · next hb =>
    obtain ⟨k, rfl, hk⟩ := h
    rw [Carries, if_neg hb, Parameter.meaning, hk]
    exact ⟨rfl, rfl⟩

/-- Parameters that a lookup does not use are blank when it is accepted. -/
theorem carries_unused (h : hasStandardReleaseFilter values = false) :
    ∀ parameter ∈ [Parameter.title, .country, .year, .month, .master],
      Carries parameter (get values parameter.word) none := by
  intro parameter hp
  rw [hasStandardReleaseFilter, List.any_eq_false] at h
  have htext := h parameter.word (List.mem_map_of_mem hp)
  exact carries_blank (by simpa [hasText] using htext)

theorem blank_of_absent {word : String} (h : hasQueryParameter values word = false) :
    trimSpace (get values word) = [] := by
  rw [HttpApi.get, get_of_not_has h]
  rfl

end Carried

section Releases
variable {values : Values} {page : PageRequest}

/-- Every parameter of a release search is carried into a call. -/
def ReleaseCall (values : Values) (call : Call) : Prop :=
  ∀ parameter ∈ SearchRoute.releases.parameters,
    Carries parameter (get values parameter.word) (searchArgument call parameter)

theorem catalogNumber_carries (hpage : parseCursorPage values = .ok page)
    (hc : asksCatalogNumber values = true) {lookup : ReleaseLookup}
    (h : parseReleaseLookup values = .ok lookup) : ∃ catalogNumber : CatalogNumberLookup,
      lookup = .catalogNumber catalogNumber ∧
      ReleaseCall values (.releasesByCatalogNumber catalogNumber page) := by
  obtain ⟨⟨hi, hf⟩, labelID, c, htext, hl, hcatno, rfl⟩ := catalogNumberLookup_of_ok hc h
  refine ⟨_, rfl, ?_⟩
  obtain ⟨hafter, hsize⟩ := carries_page hpage
  rw [asksIdentifier, Bool.or_eq_false_iff] at hi
  have hlabel : Carries .labelID (get values parameterLabelID) (some (.number labelID)) := by
    have hb : trimSpace (get values parameterLabelID) ≠ [] := of_decide_eq_true htext
    rw [parseBoundedInt64, parseBounded_eq_ok, if_neg hb] at hl
    rw [Carries, if_neg hb, Parameter.meaning, hl.1]
    exact ⟨rfl, rfl⟩
  have hunused := carries_unused hf
  simp only [List.forall_mem_cons, List.not_mem_nil, false_implies, implies_true, and_true]
    at hunused
  obtain ⟨htitle, hcountry, hyear, hmonth, hmaster⟩ := hunused
  simp only [ReleaseCall, SearchRoute.parameters, List.forall_mem_cons, List.not_mem_nil,
    false_implies, implies_true, and_true]
  exact ⟨hafter, hsize, htitle, hcountry, hyear, hmonth, hmaster, hlabel,
    carries_filter rfl (requiredTextFilter_eq_ok.mp hcatno).1,
    carries_blank (blank_of_absent hi.1), carries_blank (blank_of_absent hi.2)⟩

theorem identifier_carries (hpage : parseCursorPage values = .ok page)
    (hi : asksIdentifier values = true) {lookup : ReleaseLookup}
    (h : parseReleaseLookup values = .ok lookup) : ∃ identifier : IdentifierLookup,
      lookup = .identifier identifier ∧
      ReleaseCall values (.releasesByIdentifier identifier page) := by
  obtain ⟨⟨hc, hf⟩, type, value, ht, hv, rfl⟩ := identifierLookup_of_ok hi h
  refine ⟨_, rfl, ?_⟩
  obtain ⟨hafter, hsize⟩ := carries_page hpage
  rw [asksCatalogNumber, Bool.or_eq_false_iff] at hc
  have hunused := carries_unused hf
  simp only [List.forall_mem_cons, List.not_mem_nil, false_implies, implies_true, and_true]
    at hunused
  obtain ⟨htitle, hcountry, hyear, hmonth, hmaster⟩ := hunused
  simp only [ReleaseCall, SearchRoute.parameters, List.forall_mem_cons, List.not_mem_nil,
    false_implies, implies_true, and_true]
  exact ⟨hafter, hsize, htitle, hcountry, hyear, hmonth, hmaster,
    carries_blank (blank_of_absent hc.1),
    carries_blank (blank_of_absent hc.2), carries_filter rfl (requiredTextFilter_eq_ok.mp ht).1,
    carries_filter rfl (requiredTextFilter_eq_ok.mp hv).1⟩

theorem release_carries {request : Request} {call : Call}
    (h : ReleaseHandler.search request = .ok call) : ReleaseCall request.query call := by
  obtain ⟨page, lookup, hpage, hlookup, h⟩ := releases_eq_ok.mp h
  cases hc : asksCatalogNumber request.query with
  | true =>
    obtain ⟨catalogNumber, rfl, hcall⟩ := catalogNumber_carries hpage hc hlookup
    cases h
    exact hcall
  | false =>
    cases hi : asksIdentifier request.query with
    | true =>
      obtain ⟨identifier, rfl, hcall⟩ := identifier_carries hpage hi hlookup
      cases h
      exact hcall
    | false =>
      obtain rfl := noLookup_of_ok hc hi hlookup
      cases h with
      | filters hf =>
        obtain ⟨hafter, hsize⟩ := carries_page hpage
        rw [asksCatalogNumber, Bool.or_eq_false_iff] at hc
        rw [asksIdentifier, Bool.or_eq_false_iff] at hi
        simp only [ReleaseCall, SearchRoute.parameters, List.forall_mem_cons, List.not_mem_nil,
          false_implies, implies_true, and_true]
        exact ⟨hafter, hsize, carries_filter rfl hf.title, carries_filter rfl hf.country,
          carries_int (fun _ => rfl) hf.year, carries_int (fun _ => rfl) hf.month,
          carries_bool hf.master, carries_blank (blank_of_absent hc.1),
          carries_blank (blank_of_absent hc.2), carries_blank (blank_of_absent hi.1),
          carries_blank (blank_of_absent hi.2)⟩

end Releases

/-- An accepted search carries each of its parameters into the call it makes. -/
theorem search_carries {route : SearchRoute} {request : Request} {call : Call}
    (h : route.handler request = .ok call) : ∀ parameter ∈ route.parameters,
      Carries parameter (get request.query parameter.word) (searchArgument call parameter) := by
  cases route with
  | artists =>
    obtain ⟨page, name, realName, hpage, hname, hreal, rfl⟩ := artists_ok h
    obtain ⟨hafter, hsize⟩ := carries_page hpage
    simp only [SearchRoute.parameters, List.forall_mem_cons, List.not_mem_nil,
      false_implies, implies_true, and_true]
    exact ⟨hafter, hsize, carries_filter rfl hname, carries_filter rfl hreal⟩
  | labels =>
    obtain ⟨page, name, hpage, hname, rfl⟩ := labels_ok h
    obtain ⟨hafter, hsize⟩ := carries_page hpage
    simp only [SearchRoute.parameters, List.forall_mem_cons, List.not_mem_nil,
      false_implies, implies_true, and_true]
    exact ⟨hafter, hsize, carries_filter rfl hname⟩
  | masters =>
    obtain ⟨page, title, year, hpage, htitle, hyear, rfl⟩ := masters_ok h
    obtain ⟨hafter, hsize⟩ := carries_page hpage
    simp only [SearchRoute.parameters, List.forall_mem_cons, List.not_mem_nil,
      false_implies, implies_true, and_true]
    exact ⟨hafter, hsize, carries_filter rfl htitle, carries_int (fun _ => rfl) hyear⟩
  | releases => exact release_carries h

/-- A value that a client sent is reflected in a call. -/
def Reflected (call : Call) (parameter : Parameter) (value : Bytes) : Prop :=
  ∃ argument, parameter.meaning value = some argument ∧
    searchArgument call parameter = some argument

/-- The pairs of a raw query that a search should heed: the first one of each parameter, if its
value is not blank. -/
def Sent (route : SearchRoute) (raw : Bytes) (parameter : Parameter) (pair : Bytes) : Prop :=
  parameter ∈ route.parameters ∧ firstPair raw (lit parameter.word) = some pair ∧
    ∀ value ∈ valueOf pair, trimSpace value ≠ []

/-- A pair that the query parser keeps, or that it drops in favour of one that means the same. Of
too many parameters it keeps none, and a pair may mean what is taken anyway. -/
def Kept (raw : Bytes) (parameter : Parameter) (pair value : Bytes) : Prop :=
  if paramsWithinMax raw then
    0x3B ∉ pair ∨ parameter.isText = true ∧
      trimSpace (get (parse raw) parameter.word) = trimSpace value
  else ∃ argument, parameter.fallback = some argument ∧ parameter.meaning value = some argument

theorem meaning_text {parameter : Parameter} (ht : parameter.isText = true) (value : Bytes) :
    parameter.meaning value = some (.text (trimSpace value)) := by
  cases parameter with
  | name | realName | title | country | catalogNumber | identifierType | identifierValue => rfl
  | _ => cases ht

/-- A value with a semicolon means something for a text only. -/
theorem meaning_semicolon {parameter : Parameter} (ht : parameter.isText = false) {value : Bytes}
    (hm : 0x3B ∈ value) : parameter.meaning value = none := by
  cases parameter with
  | name | realName | title | country | catalogNumber | identifierType | identifierValue => cases ht
  | master => rw [Parameter.meaning, parseBool_semicolon hm]; rfl
  | _ => rw [Parameter.meaning, parseInt_semicolon hm]; rfl

theorem word_plain (parameter : Parameter) : 0x3B ∉ lit parameter.word := by
  cases parameter <;> decide

/-- A text that the parser drops is reflected only by chance. -/
theorem reflected_text {call : Call} {parameter : Parameter} (ht : parameter.isText = true)
    {read value : Bytes} (hne : trimSpace value ≠ [])
    (hc : Carries parameter read (searchArgument call parameter)) :
    Reflected call parameter value ↔ trimSpace read = trimSpace value := by
  unfold Reflected Carries at *
  rw [meaning_text ht]
  split at hc
  · next hb =>
    constructor
    · intro h
      obtain ⟨argument, ha, hs⟩ := h
      cases ha
      exact absurd (hc _ hs) hne
    · intro he
      exact absurd (he.symm.trans hb) hne
  · rw [meaning_text ht] at hc
    rw [hc.2]
    constructor
    · intro h
      obtain ⟨argument, ha, hs⟩ := h
      cases ha
      simpa using hs
    · intro he
      exact ⟨_, rfl, by rw [he]⟩

/-- Without parameters a search is made for all there is. -/
theorem unfiltered_call {route : SearchRoute} {request : Request} (h : request.query = []) :
    route.handler request = .ok route.unfiltered := by
  cases route <;>
    simp only [SearchRoute.handler, ArtistHandler.search, LabelHandler.search,
      MasterHandler.search, ReleaseHandler.search, h] <;> rfl

theorem unfiltered_argument (route : SearchRoute) (parameter : Parameter) :
    searchArgument route.unfiltered parameter = parameter.fallback ∨
      parameter.isText = true ∧ searchArgument route.unfiltered parameter = some (.text []) := by
  cases route <;> cases parameter <;> first | exact Or.inl rfl | exact Or.inr ⟨rfl, rfl⟩

/-- Of too many parameters none is read, and those are reflected that mean what is taken anyway. -/
theorem reflected_beyond {route : SearchRoute} {request : Request} {call : Call}
    (h : route.handler request = .ok call) (hw : paramsWithinMax request.rawQuery = false)
    {value : Bytes} (hne : trimSpace value ≠ []) (parameter : Parameter) :
    Reflected call parameter value ↔
      ∃ argument, parameter.fallback = some argument ∧ parameter.meaning value = some argument := by
  have hquery : request.query = [] := by
    rw [Request.query, parse, hw]
    rfl
  rw [unfiltered_call hquery, Except.ok.injEq] at h
  subst h
  obtain harg | ⟨ht, harg⟩ := unfiltered_argument route parameter
  · rw [Reflected, harg]
    exact exists_congr fun argument => and_comm
  · have hnone : parameter.fallback = none := by
      cases parameter <;> first | rfl | cases ht
    rw [Reflected, harg, hnone, meaning_text ht]
    constructor
    · intro hreflected
      obtain ⟨argument, hmeaning, he⟩ := hreflected
      cases hmeaning
      exact absurd (Argument.text.inj (Option.some.inj he)).symm hne
    · intro hkept
      obtain ⟨argument, hf, -⟩ := hkept
      cases hf

/-- Of few enough parameters those are reflected that the query parser keeps, and texts that stand
elsewhere too. -/
theorem reflected_within {route : SearchRoute} {request : Request} {call : Call}
    (h : route.handler request = .ok call) (hw : paramsWithinMax request.rawQuery = true)
    {parameter : Parameter} {pair value : Bytes} (hs : Sent route request.rawQuery parameter pair)
    (hv : valueOf pair = some value) : Reflected call parameter value ↔
      0x3B ∉ pair ∨ parameter.isText = true ∧
        trimSpace (get (parse request.rawQuery) parameter.word) = trimSpace value := by
  obtain ⟨hp, hfirst, hblank⟩ := hs
  have hne := hblank value hv
  have hcarried := search_carries h parameter hp
  by_cases hsemi : 0x3B ∈ pair
  · have hkey : keyOf pair = some (lit parameter.word) := by
      simpa using List.find?_some hfirst
    have hvalue := semicolon_value hkey hv (word_plain parameter) hsemi
    cases ht : parameter.isText with
    | true =>
      rw [reflected_text ht hne hcarried]
      simp [hsemi, Request.query]
    | false =>
      rw [Reflected, meaning_semicolon ht hvalue]
      simp [hsemi]
  · have hget : get request.query parameter.word = value := get_parse hw hfirst hv hsemi
    rw [hget, Carries, if_neg hne] at hcarried
    obtain ⟨argument, ha⟩ := Option.isSome_iff_exists.mp hcarried.1
    have hreflected : Reflected call parameter value :=
      ⟨argument, by rw [← hcarried.2, ha], ha⟩
    exact iff_of_true hreflected (Or.inl hsemi)

/-- A pair is reflected in the call of an accepted search exactly when the query parser keeps it. -/
theorem reflected_iff {route : SearchRoute} {request : Request} {call : Call}
    (h : route.handler request = .ok call) {parameter : Parameter} {pair value : Bytes}
    (hs : Sent route request.rawQuery parameter pair) (hv : valueOf pair = some value) :
    Reflected call parameter value ↔ Kept request.rawQuery parameter pair value := by
  cases hw : paramsWithinMax request.rawQuery with
  | true =>
    rw [Kept, hw, if_pos rfl]
    exact reflected_within h hw hs hv
  | false =>
    rw [Kept, hw, if_neg Bool.false_ne_true]
    exact reflected_beyond h hw (hs.2.2 value hv) parameter

/-- Every search is refused, or makes one call; and what its client sent is reflected in that call,
pair by pair, exactly when every pair has no malformed escape and the query parser keeps it. -/
theorem filters_reflected (route : SearchRoute) (request : Request) :
    (∃ text, route.handler request = .error text) ∨
    ∃ call, route.handler request = .ok call ∧
      ((∀ parameter pair, Sent route request.rawQuery parameter pair →
          ∃ value, valueOf pair = some value ∧ Reflected call parameter value) ↔
        ∀ parameter pair, Sent route request.rawQuery parameter pair →
          ∃ value, valueOf pair = some value ∧ Kept request.rawQuery parameter pair value) := by
  cases h : route.handler request with
  | error text => exact Or.inl ⟨text, rfl⟩
  | ok call =>
    refine Or.inr ⟨call, rfl, ?_⟩
    refine forall_congr' fun parameter => forall_congr' fun pair => ?_
    refine ⟨fun hall hs => ?_, fun hall hs => ?_⟩
    · obtain ⟨value, hv, hr⟩ := hall hs
      exact ⟨value, hv, (reflected_iff h hs hv).mp hr⟩
    · obtain ⟨value, hv, hk⟩ := hall hs
      exact ⟨value, hv, (reflected_iff h hs hv).mpr hk⟩

/-- A name with a semicolon is dropped, and every artist matches. -/
theorem filters_dropped : ¬∀ call, SearchRoute.artists.handler
      { path := lit "/artists", rawQuery := lit "name=abc;def" } = .ok call →
    ∀ parameter pair, Sent .artists (lit "name=abc;def") parameter pair →
      ∃ value, valueOf pair = some value ∧ Reflected call parameter value := by
  intro h
  have hsent : Sent .artists (lit "name=abc;def") .name (lit "name=abc;def") :=
    ⟨by simp [SearchRoute.parameters], by decide, by decide⟩
  obtain ⟨value, hv, argument, ha, hs⟩ := h (.searchArtists ⟨[], []⟩ ⟨0, 20⟩) (by rfl) _ _ hsent
  cases hs
  have hvalue : valueOf (lit "name=abc;def") = some (lit "abc;def") := by decide
  cases hv.symm.trans hvalue
  exact absurd ha (by decide)

end OpenDiscogs
