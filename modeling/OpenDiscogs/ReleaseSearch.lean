import OpenDiscogs.FailedRequests

/-! The grammar of the release search: which requests ask for which query, with which arguments. -/
namespace OpenDiscogs
open Utf8 UrlQuery Strconv Catalog HttpApi

/-- The parameter is there, with whatever value. -/
def Present (values : Values) (name : String) : Prop := values.has (lit name) = true

def Blank (values : Values) (name : String) : Prop := trimSpace (get values name) = []

/-- A text is passed on trimmed, with a length in its bounds. -/
structure TextRead (raw : Bytes) (minimum maximum : Nat) (value : Bytes) : Prop where
  valid : validString raw = true
  bounds : minimum ≤ runeCount (trimSpace raw) ∧ runeCount (trimSpace raw) ≤ maximum
  trimmed : value = trimSpace raw

/-- A number is read as it stands. -/
structure NumberRead (raw : Bytes) (minimum maximum value : Int) : Prop where
  numeral : parseInt raw 10 64 = some value
  bounds : minimum ≤ value ∧ value ≤ maximum

/-- A filter is left out when it is blank, and read otherwise. -/
def FilterRead {α : Type} (raw : Bytes) (missing : α) (read : α → Prop) (value : α) : Prop :=
  if trimSpace raw = [] then value = missing else read value

def standardFilters : List String :=
  [parameterTitle, parameterCountry, parameterYear, parameterMonth, parameterMaster]

structure AsksCatalogNumber (values : Values) (lookup : CatalogNumberLookup) : Prop where
  both : Present values parameterLabelID ∧ Present values parameterCatalogNumber
  neither : ¬Present values parameterIdentifierType ∧ ¬Present values parameterIdentifierValue
  blank : ∀ name ∈ standardFilters, Blank values name
  labelID : NumberRead (get values parameterLabelID) 1 (2^31-1) lookup.labelID
  catalogNumber : TextRead (get values parameterCatalogNumber) 1 1000 lookup.catalogNumber

structure AsksIdentifier (values : Values) (lookup : IdentifierLookup) : Prop where
  both : Present values parameterIdentifierType ∧ Present values parameterIdentifierValue
  neither : ¬Present values parameterLabelID ∧ ¬Present values parameterCatalogNumber
  blank : ∀ name ∈ standardFilters, Blank values name
  type : TextRead (get values parameterIdentifierType) 1 255 lookup.type
  value : TextRead (get values parameterIdentifierValue) 1 4096 lookup.value

structure AsksFilters (values : Values) (filter : ReleaseFilter) : Prop where
  absent : ∀ name ∈ [parameterLabelID, parameterCatalogNumber, parameterIdentifierType,
    parameterIdentifierValue], ¬Present values name
  title : FilterRead (get values parameterTitle) [] (TextRead (get values parameterTitle) 3 200)
    filter.title
  country : FilterRead (get values parameterCountry) []
    (TextRead (get values parameterCountry) 1 255) filter.country
  year : FilterRead (get values parameterYear) none
    (fun year => ∃ y, year = some y ∧ NumberRead (get values parameterYear) 0 32767 y) filter.year
  month : FilterRead (get values parameterMonth) none
    (fun month => ∃ m, month = some m ∧ NumberRead (get values parameterMonth) 1 12 m) filter.month
  master : FilterRead (get values parameterMaster) none
    (fun master => ∃ b, master = some b ∧ parseBool (get values parameterMaster) = some b)
    filter.master
  monthYear : filter.month.isSome → filter.year.isSome

/-- The request is answered with the status 400, whatever the repository would have said. -/
def Refused (request : Request) : Prop :=
  ∀ (router : Router) (repository : Repository) (method : String) (broken : Bool),
    let x := router.serve repository .releases method request broken
    x.recorder.writer.response.status = 400 ∧
      ∀ other : Repository, router.serve other .releases method request broken = x

/-- A release search with legal paging makes the one call that it asks for, or is refused. -/
structure ReleaseGrammar (request : Request) (page : PageRequest) : Prop where
  catalogNumber : ∀ lookup, ReleaseHandler.search request =
    .ok (.releasesByCatalogNumber lookup page) ↔ AsksCatalogNumber request.query lookup
  identifier : ∀ lookup, ReleaseHandler.search request =
    .ok (.releasesByIdentifier lookup page) ↔ AsksIdentifier request.query lookup
  filters : ∀ filter, ReleaseHandler.search request =
    .ok (.searchReleases filter page) ↔ AsksFilters request.query filter
  others : (∀ lookup, ¬AsksCatalogNumber request.query lookup) →
    (∀ lookup, ¬AsksIdentifier request.query lookup) →
    (∀ filter, ¬AsksFilters request.query filter) → Refused request

section Reading
variable {values : Values} {raw value : Bytes} {name : String}

theorem optionalTextFilter_read {minimum maximum : Nat} :
    optionalTextFilter raw minimum maximum name = .ok value ↔
      FilterRead raw [] (TextRead raw minimum maximum) value := by
  rw [optionalTextFilter_eq_ok, FilterRead]
  split
  · next hb => simp [hb, validString_blank hb]
  · next hb =>
    constructor
    · intro h
      obtain ⟨hv, hbounds, rfl⟩ := h
      exact ⟨hv, hbounds.resolve_left hb, rfl⟩
    · intro h
      obtain ⟨hv, hbounds, rfl⟩ := h
      exact ⟨hv, Or.inr hbounds, rfl⟩

theorem requiredTextFilter_read {minimum maximum : Nat} (hm : 0 < minimum) :
    requiredTextFilter raw minimum maximum name = .ok value ↔
      TextRead raw minimum maximum value := by
  rw [requiredTextFilter_eq_ok, optionalTextFilter_read, FilterRead]
  split
  · next hb =>
    refine iff_of_false (fun h => h.2 h.1) fun h => ?_
    have hlen := h.bounds.1
    rw [hb] at hlen
    have hzero : runeCount [] = 0 := rfl
    omega
  · next hb =>
    refine and_iff_left_of_imp fun h => ?_
    rw [h.trimmed]
    exact hb

theorem optionalInt_read {minimum maximum : Int} {n : Option Int} :
    optionalInt raw minimum maximum name = .ok n ↔
      FilterRead raw none (fun n => ∃ m, n = some m ∧ NumberRead raw minimum maximum m) n := by
  rw [optionalInt_eq_ok, FilterRead]
  split
  · rfl
  · exact exists_congr fun m => and_congr_right fun _ =>
      ⟨fun h => ⟨h.1, h.2⟩, fun h => ⟨h.numeral, h.bounds⟩⟩

theorem optionalBool_read {b : Option Bool} : optionalBool raw name = .ok b ↔
    FilterRead raw none (fun b => ∃ c, b = some c ∧ parseBool raw = some c) b := optionalBool_eq_ok

theorem labelID_read {labelID : Int} :
    (hasText raw = true ∧ parseBoundedInt64 raw 0 1 maximumResourceID name = .ok labelID) ↔
      NumberRead raw 1 (2^31-1) labelID := by
  rw [parseBoundedInt64, parseBounded_eq_ok, hasText, decide_eq_true_eq]
  constructor
  · intro hparts
    obtain ⟨hb, h⟩ := hparts
    rw [if_neg hb] at h
    exact ⟨h.1, h.2⟩
  · intro h
    have hb : trimSpace raw ≠ [] := by
      rw [(parseInt_noSpace h.numeral).trimSpace]
      intro he
      subst he
      exact absurd h.numeral (by simp [parseInt, parseUint])
    rw [if_neg hb]
    exact ⟨hb, h.numeral, h.bounds⟩

theorem blank_filters : hasStandardReleaseFilter values = false ↔
    ∀ name ∈ standardFilters, Blank values name := by
  rw [hasStandardReleaseFilter, List.any_eq_false]
  simp only [standardFilters, hasText, Blank, decide_eq_true_eq, not_not]

end Reading

section Lookups
variable {values : Values}

theorem present_absent {first second : String} :
    (hasQueryParameter values first || hasQueryParameter values second) = false ↔
      ¬Present values first ∧ ¬Present values second := by
  simp [hasQueryParameter, Present]

/-- The lookup by catalog number is parsed exactly when it is asked for. -/
theorem catalogNumber_parsed {lookup : CatalogNumberLookup} :
    parseReleaseLookup values = .ok (.catalogNumber lookup) ↔ AsksCatalogNumber values lookup := by
  rw [parseReleaseLookup_eq_ok]
  constructor
  · intro h
    cases hc : asksCatalogNumber values with
    | false =>
      cases hi : asksIdentifier values with
      | false => rw [hc, hi] at h; cases h
      | true =>
        rw [hc, hi] at h
        obtain ⟨-, type, -, value, -, he⟩ := parseIdentifierLookup_eq_ok.mp h.2
        cases he
    | true =>
      cases hi : asksIdentifier values with
      | true => rw [hc, hi] at h; exact h.elim
      | false =>
        rw [hc, hi] at h
        obtain ⟨hblank, h⟩ := h
        obtain ⟨hboth, htext, labelID, hlabel, c, hcatno, he⟩ := parseCatalogNumberLookup_eq_ok.mp h
        cases he
        exact ⟨hboth, present_absent.mp hi, blank_filters.mp hblank,
          labelID_read.mp ⟨htext, hlabel⟩, (requiredTextFilter_read Nat.one_pos).mp hcatno⟩
  · intro hparts
    obtain ⟨hboth, hneither, hblank, hlabel, hcatno⟩ := hparts
    have hc : asksCatalogNumber values = true := by
      rw [asksCatalogNumber, hasQueryParameter, hboth.1, Bool.true_or]
    have hi : asksIdentifier values = false := present_absent.mpr hneither
    obtain ⟨htext, hlabel⟩ := labelID_read.mpr hlabel
    rw [hc, hi]
    exact ⟨blank_filters.mpr hblank, parseCatalogNumberLookup_eq_ok.mpr ⟨hboth, htext, _, hlabel,
      _, (requiredTextFilter_read Nat.one_pos).mpr hcatno, rfl⟩⟩

theorem identifier_parsed {lookup : IdentifierLookup} :
    parseReleaseLookup values = .ok (.identifier lookup) ↔ AsksIdentifier values lookup := by
  rw [parseReleaseLookup_eq_ok]
  constructor
  · intro h
    cases hi : asksIdentifier values with
    | false =>
      cases hc : asksCatalogNumber values with
      | false => rw [hc, hi] at h; cases h
      | true =>
        rw [hc, hi] at h
        obtain ⟨-, -, labelID, -, c, -, he⟩ := parseCatalogNumberLookup_eq_ok.mp h.2
        cases he
    | true =>
      cases hc : asksCatalogNumber values with
      | true => rw [hc, hi] at h; exact h.elim
      | false =>
        rw [hc, hi] at h
        obtain ⟨hblank, h⟩ := h
        obtain ⟨hboth, type, htype, value, hvalue, he⟩ := parseIdentifierLookup_eq_ok.mp h
        cases he
        exact ⟨hboth, present_absent.mp hc, blank_filters.mp hblank,
          (requiredTextFilter_read Nat.one_pos).mp htype,
          (requiredTextFilter_read Nat.one_pos).mp hvalue⟩
  · intro hparts
    obtain ⟨hboth, hneither, hblank, htype, hvalue⟩ := hparts
    have hi : asksIdentifier values = true := by
      rw [asksIdentifier, hasQueryParameter, hboth.1, Bool.true_or]
    have hc : asksCatalogNumber values = false := present_absent.mpr hneither
    rw [hc, hi]
    exact ⟨blank_filters.mpr hblank, parseIdentifierLookup_eq_ok.mpr ⟨hboth, _,
      (requiredTextFilter_read Nat.one_pos).mpr htype, _,
      (requiredTextFilter_read Nat.one_pos).mpr hvalue, rfl⟩⟩

theorem noLookup_parsed : parseReleaseLookup values = .ok .none ↔
    ∀ name ∈ [parameterLabelID, parameterCatalogNumber, parameterIdentifierType,
      parameterIdentifierValue], ¬Present values name := by
  have hnone : (asksCatalogNumber values = false ∧ asksIdentifier values = false) ↔
      ∀ name ∈ [parameterLabelID, parameterCatalogNumber, parameterIdentifierType,
        parameterIdentifierValue], ¬Present values name := by
    simp only [asksCatalogNumber, asksIdentifier, present_absent, List.forall_mem_cons,
      List.not_mem_nil, false_implies, implies_true, and_true, and_assoc]
  rw [← hnone]
  constructor
  · intro h
    cases hc : asksCatalogNumber values with
    | true =>
      obtain ⟨-, labelID, c, -, -, -, he⟩ := catalogNumberLookup_of_ok hc h
      cases he
    | false =>
      cases hi : asksIdentifier values with
      | true =>
        obtain ⟨-, type, value, -, -, he⟩ := identifierLookup_of_ok hi h
        cases he
      | false => exact ⟨rfl, rfl⟩
  · intro hparts
    obtain ⟨hc, hi⟩ := hparts
    rw [parseReleaseLookup_eq_ok, hc, hi]

end Lookups

section Search
variable {request : Request} {page : PageRequest}

/-- The filters of a search without a lookup. -/
theorem filters_parsed {call : Call} (h : parseReleaseLookup request.query = .ok .none)
    (hp : parseCursorPage request.query = .ok page) : ReleaseHandler.search request = .ok call ↔
      ∃ filter, AsksFilters request.query filter ∧ call = .searchReleases filter page := by
  constructor
  · intro hs
    obtain ⟨page', lookup, hpage, hlookup, hcall⟩ := releases_eq_ok.mp hs
    cases hp.symm.trans hpage
    cases h.symm.trans hlookup
    cases hcall with
    | @filters filter hf =>
      have hmonthYear : filter.month.isSome → filter.year.isSome := by
        have hm := hf.monthYear
        cases hmonth : filter.month <;> cases hyear : filter.year <;> simp_all
      exact ⟨filter, ⟨noLookup_parsed.mp h, optionalTextFilter_read.mp hf.title,
        optionalTextFilter_read.mp hf.country, optionalInt_read.mp hf.year,
        optionalInt_read.mp hf.month, optionalBool_read.mp hf.master, hmonthYear⟩, rfl⟩
  · intro hparts
    obtain ⟨filter, ha, rfl⟩ := hparts
    have hm : ¬(filter.month.isSome && filter.year.isNone) = true := by
      have := ha.monthYear
      cases hmonth : filter.month <;> cases hyear : filter.year <;> simp_all
    exact releases_eq_ok.mpr ⟨page, .none, hp, h, .filters
      ⟨optionalTextFilter_read.mpr ha.title, optionalTextFilter_read.mpr ha.country,
        optionalInt_read.mpr ha.year, optionalInt_read.mpr ha.month,
        optionalBool_read.mpr ha.master, hm⟩⟩

/-- The calls of an accepted search are the three that can be asked for. -/
theorem search_eq_ok {call : Call} (hp : parseCursorPage request.query = .ok page) :
    ReleaseHandler.search request = .ok call ↔
      (∃ lookup, AsksCatalogNumber request.query lookup ∧
        call = .releasesByCatalogNumber lookup page) ∨
      (∃ lookup, AsksIdentifier request.query lookup ∧ call = .releasesByIdentifier lookup page) ∨
      ∃ filter, AsksFilters request.query filter ∧ call = .searchReleases filter page := by
  constructor
  · intro hs
    obtain ⟨page', lookup, hpage, hlookup, hcall⟩ := releases_eq_ok.mp hs
    cases hp.symm.trans hpage
    cases hcall with
    | catalogNumber lookup => exact Or.inl ⟨lookup, catalogNumber_parsed.mp hlookup, rfl⟩
    | identifier lookup => exact Or.inr (Or.inl ⟨lookup, identifier_parsed.mp hlookup, rfl⟩)
    | filters => exact Or.inr (Or.inr ((filters_parsed hlookup hp).mp hs))
  · intro h
    obtain ⟨lookup, ha, rfl⟩ | ⟨lookup, ha, rfl⟩ | ⟨filter, ha, rfl⟩ := h
    · exact releases_eq_ok.mpr
        ⟨page, _, hp, catalogNumber_parsed.mpr ha, .catalogNumber lookup⟩
    · exact releases_eq_ok.mpr
        ⟨page, _, hp, identifier_parsed.mpr ha, .identifier lookup⟩
    · exact (filters_parsed (noLookup_parsed.mpr ha.absent) hp).mpr ⟨filter, ha, rfl⟩

/-- A request that the handler does not accept is answered without a call. -/
theorem refused_of_error {text : String} (h : ReleaseHandler.search request = .error text) :
    Refused request := by
  intro router repository method broken
  let started : Exchange :=
    { recorder := { writer := Router.securityHeaders { broken := broken } }
      events := [.requestStarted CatalogRoute.releases.template] }
  have hserve : ∀ repository : Repository,
      router.serve repository .releases method request broken =
        router.finish CatalogRoute.releases.template method request.path
          (router.responder.badRequest started request.path text) false := by
    intro repository
    have hh : CatalogRoute.releases.handler request = .error text := h
    simp only [Router.serve, Router.wrap, Handler.serve, hh, started]
  have hfresh : started.Fresh := started_fresh broken CatalogRoute.releases.template
  have hanswered := @Responder.problem_answered router.responder started hfresh request.path 400
    (by decide) problemTitleBadRequest text
  refine ⟨?_, fun other => (hserve other).trans (hserve repository).symm⟩
  simp only [hserve, finish_recorder]
  exact hanswered.coherent.response_status.trans hanswered.status

/-- A release search with legal paging keeps to its grammar. -/
theorem release_grammar (hp : parseCursorPage request.query = .ok page) :
    ReleaseGrammar request page := by
  refine ⟨fun lookup => ?_, fun lookup => ?_, fun filter => ?_, fun hc hi hf => ?_⟩
  · rw [search_eq_ok hp]
    simp
  · rw [search_eq_ok hp]
    simp
  · rw [search_eq_ok hp]
    simp
  · cases hs : ReleaseHandler.search request with
    | error text => exact refused_of_error hs
    | ok call =>
      obtain ⟨l, hl, -⟩ | ⟨l, hl, -⟩ | ⟨f, hf', -⟩ := (search_eq_ok hp).mp hs
      · exact absurd hl (hc l)
      · exact absurd hl (hi l)
      · exact absurd hf' (hf f)

end Search

theorem release_grammar_month : ReleaseGrammar
    { path := lit "/releases", rawQuery := lit "year=1999&month=%2B7&label=4" } ⟨0, 20⟩ :=
  release_grammar (by decide)

end OpenDiscogs
