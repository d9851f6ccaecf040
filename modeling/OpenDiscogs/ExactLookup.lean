import OpenDiscogs.ChildWalk
import OpenDiscogs.Walk

/-! Exact lookups end to end: the identifiers and catalog numbers that a client is shown, sent back
as the parameters of a release search. -/
namespace OpenDiscogs
open Utf8 UrlQuery SqlText Catalog HttpApi Postgres Rows Keyset

/-- A request for a page of releases, with other parameters before the paging ones. -/
def pageQuery (base : Values) (cursor : Option Int) (size : PageSize) : Request where
  path := lit "/releases"
  rawQuery := encode (base ++ pageValues cursor size.val)

/-- `GET /releases` -/
def askReleases (repository : Repository) (base : Values) (cursor : Option Int)
    (size : PageSize) : Option (Reply Int Release) :=
  match answer ReleaseHandler.search repository (pageQuery base cursor size) with
  | some (.releases response) => some (replyOf response)
  | _ => none

def identifierValues (type value : Text) : Values :=
  [(lit parameterIdentifierType, type.bytes), (lit parameterIdentifierValue, value.bytes)]

def catalogNumberValues (labelID : Int) (catalogNumber : Text) : Values :=
  [(lit parameterLabelID, Strconv.formatInt labelID),
    (lit parameterCatalogNumber, catalogNumber.bytes)]

/-- A text of at most so many characters, but of one at least. -/
def Within (maximum : Nat) (t : Text) : Prop := 1 ≤ t.chars.length ∧ t.chars.length ≤ maximum

/-- A text with no white space at either end. -/
def Trimmed (t : Text) : Prop := trim t.chars = t.chars

def visitOf (db : Database) (size : PageSize) : Visit := ⟨db, size.val, size.property⟩

section Requests
variable {s : Store} {db : Database} {rest : Repository} {base : Values}

theorem pageQuery_query (hb : base.length+2 ≤ defaultMaxParams) (cursor : Option Int)
    (size : PageSize) : (pageQuery base cursor size).query = base ++ pageValues cursor size.val := by
  refine parse_encode ?_
  have hpage : (pageValues cursor size.val).length ≤ 2 := by
    cases cursor <;> simp [pageValues]
  rw [List.length_append]
  omega

/-- Other parameters do not disturb the paging ones. -/
theorem parseCursorPage_append (ha : base.has (lit parameterAfterID) = false)
    (hs : base.has (lit parameterSize) = false) (values : Values) :
    parseCursorPage (base ++ values) = parseCursorPage values := by
  have hafter : get (base ++ values) parameterAfterID = get values parameterAfterID := by
    rw [HttpApi.get, get_append, ha]
    rfl
  have hsize : get (base ++ values) parameterSize = get values parameterSize := by
    rw [HttpApi.get, get_append, hs]
    rfl
  rw [parseCursorPage, parseCursorPage, hafter, hsize]

theorem parseReleaseLookup_identifier {type value : Text} (ht : Within 255 type) (ht' : Trimmed type)
    (hv : Within 4096 value) (hv' : Trimmed value) (cursor : Option Int) (size : PageSize) :
    parseReleaseLookup (identifierValues type value ++ pageValues cursor size.val) =
      .ok (.identifier ⟨type.bytes, value.bytes⟩) := by
  let values := identifierValues type value ++ pageValues cursor size.val
  have hcatalog : asksCatalogNumber values = false := by cases cursor <;> rfl
  have hidentifier : asksIdentifier values = true := rfl
  have hfilters : hasStandardReleaseFilter values = false := by cases cursor <;> rfl
  rw [parseReleaseLookup_eq_ok, hcatalog, hidentifier]
  refine ⟨hfilters, parseIdentifierLookup_eq_ok.mpr ⟨⟨rfl, rfl⟩, type.bytes, ?_, value.bytes, ?_, rfl⟩⟩
  · exact requiredTextFilter_encode ht' (by decide) ht _
  · exact requiredTextFilter_encode hv' (by decide) hv _

theorem parseReleaseLookup_catalogNumber {labelID : Int}
    (hl : 1 ≤ labelID ∧ labelID ≤ maximumResourceID) {c : Text} (hc : Within 1000 c)
    (hc' : Trimmed c) (cursor : Option Int) (size : PageSize) :
    parseReleaseLookup (catalogNumberValues labelID c ++ pageValues cursor size.val) =
      .ok (.catalogNumber ⟨labelID, c.bytes⟩) := by
  let values := catalogNumberValues labelID c ++ pageValues cursor size.val
  have hcatalog : asksCatalogNumber values = true := rfl
  have hidentifier : asksIdentifier values = false := by cases cursor <;> rfl
  have hfilters : hasStandardReleaseFilter values = false := by cases cursor <;> rfl
  have hmax : maximumResourceID < 2^63 := by decide
  have hlabel : hasText (Strconv.formatInt labelID) = true := by
    simpa [hasText] using Strconv.trimSpace_formatInt labelID
  rw [parseReleaseLookup_eq_ok, hcatalog, hidentifier]
  refine ⟨hfilters, parseCatalogNumberLookup_eq_ok.mpr
    ⟨⟨rfl, rfl⟩, hlabel, labelID, ?_, c.bytes, ?_, rfl⟩⟩
  · exact parseBoundedInt64_written hl (by omega) _ _
  · exact requiredTextFilter_encode hc' (by decide) hc _

/-- A lookup that the parameters spell is made for every page of the walk. -/
theorem askReleases_identifier {type value : Text} (ht : Within 255 type) (ht' : Trimmed type)
    (hv : Within 4096 value) (hv' : Trimmed value) (cursor : Option Int) (size : PageSize) :
    askReleases (s.repository db.toTables rest) (identifierValues type value) cursor size =
      Listing.ask s (.byIdentifier ⟨type.bytes, value.bytes⟩) cursor (visitOf db size) := by
  have hbase : (identifierValues type value).length+2 ≤ defaultMaxParams :=
    (by decide : 4 ≤ defaultMaxParams)
  have hpage := @parseCursorPage_append (identifierValues type value) rfl rfl
    (pageValues cursor size.val)
  have hlookup := parseReleaseLookup_identifier ht ht' hv hv' cursor size
  rw [askReleases, answer, Listing.ask, ReleaseHandler.search, pageQuery_query hbase, hpage, hlookup]
  simp only [visitOf]
  cases parseCursorPage (pageValues cursor size.val) with
  | error e => rfl
  | ok request =>
    simp only [Except.bind, bind, pure, Except.pure, Call.run, Store.repository, Listing.read]
    cases s.releasesByIdentifier db.toTables ⟨type.bytes, value.bytes⟩ request <;> rfl

theorem askReleases_catalogNumber {labelID : Int} (hl : 1 ≤ labelID ∧ labelID ≤ maximumResourceID)
    {c : Text} (hc : Within 1000 c) (hc' : Trimmed c) (cursor : Option Int) (size : PageSize) :
    askReleases (s.repository db.toTables rest) (catalogNumberValues labelID c) cursor size =
      Listing.ask s (.byCatalogNumber ⟨labelID, c.bytes⟩) cursor (visitOf db size) := by
  have hbase : (catalogNumberValues labelID c).length+2 ≤ defaultMaxParams :=
    (by decide : 4 ≤ defaultMaxParams)
  have hpage := @parseCursorPage_append (catalogNumberValues labelID c) rfl rfl
    (pageValues cursor size.val)
  have hlookup := parseReleaseLookup_catalogNumber hl hc hc' cursor size
  rw [askReleases, answer, Listing.ask, ReleaseHandler.search, pageQuery_query hbase, hpage, hlookup]
  simp only [visitOf]
  cases parseCursorPage (pageValues cursor size.val) with
  | error e => rfl
  | ok request =>
    simp only [Except.bind, bind, pure, Except.pure, Call.run, Store.repository, Listing.read]
    cases s.releasesByCatalogNumber db.toTables ⟨labelID, c.bytes⟩ request <;> rfl

/-- A client whose requests are those of a collection receives, by the end of its walk, every
resource of the collection. -/
theorem walk_of_ask {l : Listing} {ask : Option Int → PageSize → Option (Reply Int l.Item)}
    (hask : ∀ cursor size, ask cursor size = l.ask s cursor (visitOf db size))
    (hadmissible : ∀ request, l.Admissible db.toTables request) {sizes : List PageSize}
    (he : Ended (replies ask none sizes) sizes) {x : Int} (hx : x ∈ l.matching db.toTables) :
    x ∈ ids (replies ask none sizes) := by
  have hwalk : replies ask none sizes = l.walk s (sizes.map (visitOf db)) := by
    rw [Listing.walk, replies_comap]
    exact congrArg (fun ask => replies ask none sizes) (funext fun c => funext (hask c))
  have hdb : ∀ v ∈ sizes.map (visitOf db), v.db = db := by
    intro v hv
    obtain ⟨size, -, rfl⟩ := List.mem_map.mp hv
    rfl
  rw [hwalk]
  rw [hwalk, Ended, ← List.length_map (visitOf db)] at he
  refine Listing.walk_covers (fun request hq => ?_) he fun v hv => ?_
  · rw [hdb _ (visit_of_request hq)]
    exact hadmissible _
  · rw [hdb v hv]
    exact hx

/-- The ended walk of a lookup by identifier has every release with the identifier. -/
theorem identifier_covers {type value : Text} (ht : Within 255 type) (ht' : Trimmed type)
    (hv : Within 4096 value) (hv' : Trimmed value) {sizes : List PageSize}
    (he : Ended (replies (askReleases (s.repository db.toTables rest)
      (identifierValues type value)) none sizes) sizes) {x : Int}
    (hx : x ∈ identifierSet db.toTables type value) :
    x ∈ ids (replies (askReleases (s.repository db.toTables rest) (identifierValues type value))
      none sizes) := by
  let l : Listing := .byIdentifier ⟨type.bytes, value.bytes⟩
  have hadmissible : ∀ request, l.Admissible db.toTables request := fun _ => by
    simp [l, Listing.Admissible]
  have hmatching : x ∈ l.matching db.toTables :=
    ⟨type, ofBytes_bytes type, value, ofBytes_bytes value, hx⟩
  exact @walk_of_ask s db l _ (askReleases_identifier ht ht' hv hv') hadmissible sizes he x hmatching

theorem catalogNumber_covers {labelID : Int} (hl : 1 ≤ labelID ∧ labelID ≤ maximumResourceID)
    {c : Text} (hc : Within 1000 c) (hc' : Trimmed c) {sizes : List PageSize}
    (he : Ended (replies (askReleases (s.repository db.toTables rest)
      (catalogNumberValues labelID c)) none sizes) sizes) {x : Int}
    (hx : x ∈ catalogNumberSet db.toTables labelID c) :
    x ∈ ids (replies (askReleases (s.repository db.toTables rest) (catalogNumberValues labelID c))
      none sizes) := by
  let l : Listing := .byCatalogNumber ⟨labelID, c.bytes⟩
  have hrange : InRange labelID := by
    simp only [maximumResourceID] at hl
    exact ⟨by omega, by omega⟩
  have hadmissible : ∀ request, l.Admissible db.toTables request := fun _ => by
    simp [l, Listing.Admissible, hrange]
  have hmatching : x ∈ l.matching db.toTables := ⟨c, ofBytes_bytes c, hx⟩
  exact @walk_of_ask s db l _ (askReleases_catalogNumber hl hc hc') hadmissible sizes he x hmatching

end Requests

section Shown
variable {s : Store} {db : Database} {rest : Repository} {request : Request} {id : Int}

/-- An identifier that a client is shown is one of a row of the release it asked for. -/
theorem shown_identifier (hp : pathID request = .ok id)
    {response : HashPageResponse ReleaseIdentifier}
    (h : answer ReleaseHandler.identifiers (s.repository db.toTables rest) request =
      some (.releaseIdentifiers response)) {item : ReleaseIdentifier}
    (hi : item ∈ response.items) :
    ∃ r ∈ db.releaseItemIdentifier, r.releaseItemID = id ∧ identifierOf r = item := by
  obtain ⟨call, hcall, hrun⟩ := answer_eq_some.mp h
  obtain ⟨⟨m, page⟩, hchild, hcall⟩ := Except.bind_eq_ok.mp hcall
  obtain ⟨hm, hpage⟩ := releaseChildRequest_eq_ok.mp hchild
  cases hcall
  cases hp.symm.trans hm
  obtain ⟨read, hread, hresponse⟩ := Outcome.bind_value.mp hrun
  cases hresponse
  exact releaseIdentifiers_items (parseHashCursorPage_bounds hpage).1 hread item hi

/-- A catalog number that a client is shown is one that the label gives the release. -/
theorem shown_catalogNumber (hp : pathID request = .ok id) {response : PageResponse LabelRelease}
    (h : answer LabelHandler.releases (s.repository db.toTables rest) request =
      some (.labelReleases response)) {item : LabelRelease} (hi : item ∈ response.items) {c : Text}
    (hc : c ∈ item.catalogNumbers) : item.id ∈ catalogNumberSet db.toTables id c := by
  obtain ⟨call, hcall, hrun⟩ := answer_eq_some.mp h
  obtain ⟨m, hm, page, hpage, rfl⟩ := pageByID_eq_ok.mp hcall
  cases hp.symm.trans hm
  obtain ⟨read, hread, hresponse⟩ := Outcome.bind_value.mp hrun
  cases hresponse
  obtain ⟨-, rfl⟩ := (labelReleases_value (s := s) (parseCursorPage_bounds hpage).2.1).mp hread
  obtain ⟨r, -, rfl⟩ := List.mem_map.mp (List.mem_of_mem_take hi)
  obtain ⟨relation, hrelation, hcatno⟩ := List.mem_filterMap.mp (mem_sortedDistinct.mp hc)
  simp only [List.mem_filter, Bool.and_eq_true, decide_eq_true_eq] at hrelation
  exact ⟨relation, hrelation.1, ⟨hrelation.2.1, hcatno⟩, hrelation.2.2⟩

end Shown

section Found
variable {s : Store} {db : Database} {rest : Repository} {request : Request}

theorem inRange_of_cursorPage {values : Values} {pageRequest : PageRequest}
    (h : parseCursorPage values = .ok pageRequest) :
    0 < pageRequest.size ∧ InRange pageRequest.afterID := by
  have hb := parseCursorPage_bounds h
  simp only [maximumResourceID] at hb
  exact ⟨by omega, by omega, by omega⟩

/-- What a lookup by identifier finds has the identifier that was sent. -/
theorem found_identifier (hk : asksIdentifier request.query = true)
    {response : PageResponse Release}
    (h : answer ReleaseHandler.search (s.repository db.toTables rest) request =
      some (.releases response)) {item : Release} (hi : item ∈ response.items) :
    ∃ type value, type.bytes = trimSpace (get request.query parameterIdentifierType) ∧
      value.bytes = trimSpace (get request.query parameterIdentifierValue) ∧
      item.id ∈ identifierSet db.toTables type value := by
  obtain ⟨call, hcall, hrun⟩ := answer_eq_some.mp h
  obtain ⟨page, lookup, hpage, hlookup, hcall⟩ := releases_eq_ok.mp hcall
  obtain ⟨-, type, value, ht, hv, rfl⟩ := identifierLookup_of_ok hk hlookup
  cases hcall
  obtain ⟨read, hread, hresponse⟩ := Outcome.bind_value.mp hrun
  cases hresponse
  obtain ⟨hs, ha⟩ := inRange_of_cursorPage hpage
  obtain ⟨ty, hty, v, hval, hmem⟩ :=
    (@byIdentifier_reads s db _ hs ha ⟨type, value⟩).sound hread item hi
  rw [requiredTextFilter_eq_ok, optionalTextFilter_eq_ok] at ht hv
  exact ⟨ty, v, (ofBytes_some hty).symm.trans ht.1.2.2, (ofBytes_some hval).symm.trans hv.1.2.2, hmem⟩

/-- What a lookup by catalog number finds has the catalog number that was sent, of the label that
was sent. -/
theorem found_catalogNumber (hk : asksCatalogNumber request.query = true)
    {response : PageResponse Release}
    (h : answer ReleaseHandler.search (s.repository db.toTables rest) request =
      some (.releases response)) {item : Release} (hi : item ∈ response.items) :
    ∃ labelID c, Strconv.parseInt (get request.query parameterLabelID) 10 64 = some labelID ∧
      c.bytes = trimSpace (get request.query parameterCatalogNumber) ∧
      item.id ∈ catalogNumberSet db.toTables labelID c := by
  obtain ⟨call, hcall, hrun⟩ := answer_eq_some.mp h
  obtain ⟨page, lookup, hpage, hlookup, hcall⟩ := releases_eq_ok.mp hcall
  obtain ⟨-, labelID, catalogNumber, htext, hl, hc, rfl⟩ := catalogNumberLookup_of_ok hk hlookup
  cases hcall
  obtain ⟨read, hread, hresponse⟩ := Outcome.bind_value.mp hrun
  cases hresponse
  obtain ⟨hs, ha⟩ := inRange_of_cursorPage hpage
  obtain ⟨c, hbytes, hmem⟩ :=
    (@byCatalogNumber_reads s db _ hs ha ⟨labelID, catalogNumber⟩).sound hread item hi
  rw [requiredTextFilter_eq_ok, optionalTextFilter_eq_ok] at hc
  rw [parseBoundedInt64, parseBounded_eq_ok, if_neg (of_decide_eq_true htext)] at hl
  exact ⟨labelID, c, hl.1, (ofBytes_some hbytes).symm.trans hc.1.2.2, hmem⟩

end Found

/-- What exact lookups promise on one state: every identifier and catalog number that the client is
shown, among those that are `plain`, finds its release, and what is found has what was sent, as
the service `reads` it. -/
structure ExactLookups (repository : Repository) (t : Tables) (plain : Text → Prop)
    (reads : Bytes → Bytes) : Prop where
  identifiers : ∀ (request : Request) (id : Int) (response : HashPageResponse ReleaseIdentifier),
    pathID request = .ok id →
    answer ReleaseHandler.identifiers repository request = some (.releaseIdentifiers response) →
    ∀ item ∈ response.items, ∀ type ∈ item.type, ∀ value ∈ item.value,
      Within 255 type → Within 4096 value → plain type → plain value → ∀ sizes,
      Ended (replies (askReleases repository (identifierValues type value)) none sizes) sizes →
        id ∈ ids (replies (askReleases repository (identifierValues type value)) none sizes)
  catalogNumbers : ∀ (request : Request) (id : Int) (response : PageResponse LabelRelease),
    pathID request = .ok id →
    answer LabelHandler.releases repository request = some (.labelReleases response) →
    ∀ item ∈ response.items, ∀ c ∈ item.catalogNumbers, Within 1000 c → plain c → ∀ sizes,
      Ended (replies (askReleases repository (catalogNumberValues id c)) none sizes) sizes →
        item.id ∈ ids (replies (askReleases repository (catalogNumberValues id c)) none sizes)
  foundIdentifiers : ∀ (request : Request) (response : PageResponse Release),
    asksIdentifier request.query = true →
    answer ReleaseHandler.search repository request = some (.releases response) →
    ∀ item ∈ response.items, ∃ row ∈ t.releaseItemIdentifier, row.releaseItemID = item.id ∧
      row.value.map Text.bytes = some (reads (get request.query parameterIdentifierValue)) ∧
      ∃ type : Text, type.bytes = reads (get request.query parameterIdentifierType) ∧
        row.type.map (Text.lower t.server) = some (type.lower t.server)
  foundCatalogNumbers : ∀ (request : Request) (response : PageResponse Release),
    asksCatalogNumber request.query = true →
    answer ReleaseHandler.search repository request = some (.releases response) →
    ∀ item ∈ response.items, ∃ row ∈ t.labelReleaseItem, row.releaseItemID = item.id ∧
      Strconv.parseInt (get request.query parameterLabelID) 10 64 = some row.labelID ∧
      row.categoryNotation.map Text.bytes =
        some (reads (get request.query parameterCatalogNumber))

/-- Exact lookups keep their promises about texts without white space around them, and compare
what was sent without the white space around it. -/
theorem exact_lookups (s : Store) (db : Database) (rest : Repository) :
    ExactLookups (s.repository db.toTables rest) db.toTables Trimmed trimSpace := by
  refine ⟨?_, ?_, ?_, ?_⟩
  · intro request id response hp h item hi type ht value hv htn hvn htt hvt sizes he
    obtain ⟨r, hr, rfl, rfl⟩ := shown_identifier hp h hi
    have hmem : r.releaseItemID ∈ identifierSet db.toTables type value := by
      refine ⟨r, hr, ?_, rfl⟩
      have ht' : r.type = some type := ht
      have hv' : r.value = some value := hv
      simp [identifierMatches, ht', hv']
    exact identifier_covers htn htt hvn hvt he hmem
  · intro request id response hp h item hi c hc hcn hct sizes he
    exact catalogNumber_covers (pathID_bounds hp) hcn hct he (shown_catalogNumber hp h hi hc)
  · intro request response hk h item hi
    obtain ⟨type, value, ht, hv, r, hr, hmatch, hid⟩ := found_identifier hk h hi
    simp only [identifierMatches, Bool.and_eq_true, decide_eq_true_eq] at hmatch
    refine ⟨r, hr, hid, ?_, type, ht, hmatch.1.1⟩
    rw [hmatch.2, Option.map_some, hv]
  · intro request response hk h item hi
    obtain ⟨labelID, c, hl, hc, r, hr, ⟨hlabel, hcatno⟩, hid⟩ := found_catalogNumber hk h hi
    refine ⟨r, hr, hid, ?_, ?_⟩
    · rw [hl, hlabel]
    · rw [hcatno, Option.map_some, hc]

/-- A release whose only identifier ends in a blank. -/
def blankIdentifier : Database where
  server := cLocale
  releaseItem := [{ id := 1 }]
  releaseItemIdentifier := [⟨1, 7, none, some (Text.of "Barcode"), some (Text.of "A ")⟩]
  canonical := by decide

/-- The blank is shown to the client, but trimmed from what the client sends. -/
theorem exact_lookups_blank : ¬ExactLookups
    (localStore.repository blankIdentifier.toTables emptyRepository) blankIdentifier.toTables
    (fun _ => True) id := by
  intro h
  have hid := h.identifiers { path := lit "/releases/1/identifiers", pathValueID := lit "1" } 1
    ⟨[⟨7, none, some (Text.of "Barcode"), some (Text.of "A ")⟩], none, false, 1,
      lit "/releases/1/identifiers"⟩ (by decide) (by rfl) _ (List.mem_singleton_self _)
    (Text.of "Barcode") rfl (Text.of "A ") rfl ⟨by decide, by decide⟩ ⟨by decide, by decide⟩
    trivial trivial [⟨20, by decide⟩] (by decide)
  exact absurd hid (by decide)

end OpenDiscogs
