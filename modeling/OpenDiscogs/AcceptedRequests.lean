import OpenDiscogs.SearchFilters
import OpenDiscogs.Service
import OpenDiscogs.Walk

/-! What the handlers of the collections let through, and what the server accepts of it. -/
namespace OpenDiscogs
open Utf8 SqlText UrlQuery Catalog HttpApi Postgres

/-- The routes that answer with a page: searches, which include the lookups, and relations. -/
inductive CollectionRoute where
  | search (route : SearchRoute)
  | artistReleases | labelReleases | masterReleases | releaseTracks | releaseIdentifiers

namespace CollectionRoute

def handler : CollectionRoute → Handler
  | search route => route.handler
  | artistReleases => ArtistHandler.releases
  | labelReleases => LabelHandler.releases
  | masterReleases => MasterHandler.releases
  | releaseTracks => ReleaseHandler.tracks
  | releaseIdentifiers => ReleaseHandler.identifiers

/-- The parameters of a route that are passed on as texts. -/
def texts : CollectionRoute → List Parameter
  | search route => route.parameters.filter Parameter.isText
  | _ => []

end CollectionRoute

/-- A text argument, and the lengths declared for its parameter. -/
structure TextArgument where
  value : Bytes
  minimum : Nat
  maximum : Nat

/-- A number, and the range it has to keep to. -/
structure NumberArgument where
  value : Int
  minimum : Int
  maximum : Int

def searchTerm (value : Bytes) : TextArgument := ⟨value, minimumSearchLength, maximumSearchLength⟩

def integerArgument (value : Int) : NumberArgument := ⟨value, -2^31, 2^31-1⟩

def yearArgument (value : Int) : NumberArgument := ⟨value, -2^15, maxInt16⟩

def monthArgument (value : Int) : NumberArgument := ⟨value, 1, 12⟩

def callTexts : Call → List TextArgument
  | .searchArtists filter _ => [searchTerm filter.name, searchTerm filter.realName]
  | .searchLabels filter _ => [searchTerm filter.name]
  | .searchMasters filter _ => [searchTerm filter.title]
  | .searchReleases filter _ =>
    [searchTerm filter.title, ⟨filter.country, 1, maximumCountryLength⟩]
  | .releasesByCatalogNumber lookup _ => [⟨lookup.catalogNumber, 1, maximumCatalogNumberLength⟩]
  | .releasesByIdentifier lookup _ =>
    [⟨lookup.type, 1, maximumIdentifierTypeLength⟩, ⟨lookup.value, 1, maximumIdentifierValueLength⟩]
  | _ => []

def callNumbers : Call → List NumberArgument
  | .searchArtists _ request | .searchLabels _ request => [integerArgument request.afterID]
  | .searchMasters filter request =>
    integerArgument request.afterID::(filter.year.map yearArgument).toList
  | .searchReleases filter request =>
    integerArgument request.afterID::((filter.year.map yearArgument).toList ++
      (filter.month.map monthArgument).toList)
  | .releasesByCatalogNumber lookup request =>
    [integerArgument lookup.labelID, integerArgument request.afterID]
  | .releasesByIdentifier _ request => [integerArgument request.afterID]
  | .artistReleases id request | .labelReleases id request | .masterReleases id request =>
    [integerArgument id, integerArgument request.afterID]
  | .releaseTracks id _ | .releaseIdentifiers id _ => [integerArgument id]
  | _ => []

/-- A text argument is empty, or text the server accepts with a length in its bounds. -/
def TextArgument.Safe (argument : TextArgument) : Prop := argument.value ≠ [] →
  (ofBytes argument.value).isSome ∧
    argument.minimum ≤ runeCount (trimSpace argument.value) ∧
    runeCount (trimSpace argument.value) ≤ argument.maximum

def NumberArgument.Safe (argument : NumberArgument) : Prop :=
  argument.minimum ≤ argument.value ∧ argument.value ≤ argument.maximum

/-- The call is answered from every state in which every artist has a name, if only by saying that
its resource is not there. -/
def Answered (call : Call) (path : Bytes) : Prop :=
  ∀ (s : Store) (db : Database) (rest : Repository), (∀ a ∈ db.artist, a.name.isSome) →
    (∃ payload, call.run (s.repository db.toTables rest) path = .value payload) ∨
      call.run (s.repository db.toTables rest) path = .error errNotFound

/-- No argument of the call can be refused by the server. -/
structure SafeCall (call : Call) (path : Bytes) : Prop where
  texts : ∀ argument ∈ callTexts call, argument.Safe
  numbers : ∀ argument ∈ callNumbers call, argument.Safe
  answered : Answered call path

/-- U+0000 is somewhere in a client's text. -/
def HasNul (s : Bytes) : Prop := Rune.char nul ∈ runes s

/-- None of the texts of a request has U+0000 in it. -/
def NulFree (route : CollectionRoute) (request : Request) : Prop :=
  ∀ parameter ∈ route.texts, ¬HasNul (get request.query parameter.word)

section Texts
variable {raw value : Bytes}

theorem mem_trim {cs : List Char} {c : Char} (hc : Utf8.isSpace c = false) :
    c ∈ trim cs ↔ c ∈ cs := by
  have hdrop : ∀ l : List Char, c ∈ l.dropWhile Utf8.isSpace ↔ c ∈ l := by
    intro l
    induction l with
    | nil => rfl
    | cons d l ih =>
      rw [List.dropWhile_cons]
      split
      · next hd =>
        rw [ih, List.mem_cons]
        refine ⟨Or.inr, fun h => h.resolve_left ?_⟩
        intro he
        subst he
        rw [hc] at hd
        cases hd
      · rfl
  rw [trim, List.rdropWhile, List.mem_reverse, hdrop, List.mem_reverse, hdrop]

theorem hasNul_encode {cs : List Char} : HasNul (encode cs) ↔ nul ∈ cs := by
  simp [HasNul, runes_encode]

theorem not_hasNul_blank (h : trimSpace raw = []) : ¬HasNul raw := by
  intro hn
  exact absurd (trimSpace_eq_nil.mp h _ hn) (by decide)

/-- What a text filter passes on is safe exactly when U+0000 was not sent. -/
theorem filter_safe {minimum maximum : Nat} {name : String}
    (h : optionalTextFilter raw minimum maximum name = .ok value) :
    TextArgument.Safe ⟨value, minimum, maximum⟩ ↔ ¬HasNul raw := by
  obtain ⟨hvalid, hbounds, rfl⟩ := optionalTextFilter_eq_ok.mp h
  obtain ⟨cs, rfl⟩ := validString_iff.mp hvalid
  have hspace : Utf8.isSpace nul = false := by decide
  by_cases hb : trimSpace (encode cs) = []
  · refine iff_of_true (fun hne => absurd hb hne) (not_hasNul_blank hb)
  · have hlen := hbounds.resolve_left hb
    have htrim : trimSpace (trimSpace (encode cs)) = trimSpace (encode cs) := by
      rw [trimSpace_encode, trimSpace_encode, trim_trim]
    rw [TextArgument.Safe, htrim, and_iff_left hlen, trimSpace_encode] at *
    rw [ofBytes, decode_encode, hasNul_encode, ← mem_trim hspace]
    simp [hb]

theorem required_safe {minimum maximum : Nat} {name : String}
    (h : requiredTextFilter raw minimum maximum name = .ok value) :
    TextArgument.Safe ⟨value, minimum, maximum⟩ ↔ ¬HasNul raw :=
  filter_safe (requiredTextFilter_eq_ok.mp h).1

/-- A safe filter is accepted by the server. -/
theorem legalText_of_safe {minimum maximum : Nat} {name : String}
    (h : optionalTextFilter raw minimum maximum name = .ok value)
    (hs : TextArgument.Safe ⟨value, minimum, maximum⟩) : LegalText value := by
  obtain ⟨hvalid, -, rfl⟩ := optionalTextFilter_eq_ok.mp h
  obtain ⟨cs, rfl⟩ := validString_iff.mp hvalid
  intro text htext
  rw [optionalText, trimSpace_encode, trimSpace_encode, trim_trim] at htext
  split at htext
  · cases htext
  · next hne =>
    cases htext
    rw [TextArgument.Safe, trimSpace_encode] at hs
    exact (hs hne).1

theorem isSome_of_safe {minimum maximum : Nat} {name : String}
    (h : requiredTextFilter raw minimum maximum name = .ok value)
    (hs : TextArgument.Safe ⟨value, minimum, maximum⟩) : (ofBytes value).isSome :=
  (hs (requiredTextFilter_eq_ok.mp h).2).1

end Texts

section Reading
variable {s : Store} {db : Database}

theorem read_answered (s : Store) (db : Database) {request : PageRequest} (hs : 0 < request.size)
    (ha : InRange request.afterID) (l : Listing) (h : l.Admissible db.toTables request) :
    ∃ page, l.read s db.toTables request = .value page := by
  obtain ⟨items, -, hp⟩ := Listing.reads (s := s) hs ha l
  exact ⟨cutPage request.size items, (hp _).mpr ⟨h, rfl⟩⟩

/-- A page of children is answered with its rows, or by saying that there is no such release. -/
theorem children_answered {α : Type} {load : Result (HashPage α)} (h : ∃ page, load = .value page)
    {id : Int} (hi : InRange id) :
    (∃ page, requireUnlessEmpty load (s.requireRelease db.toTables id) = .value page) ∨
      requireUnlessEmpty load (s.requireRelease db.toTables id) = .error errNotFound := by
  obtain ⟨page, rfl⟩ := h
  cases he : page.items.isEmpty with
  | false => exact Or.inl ⟨page, requireUnlessEmpty_items he _⟩
  | true =>
    rw [requireUnlessEmpty_empty he, requireRelease_eq hi]
    split
    · exact Or.inl ⟨page, rfl⟩
    · exact Or.inr rfl

theorem payload_answered {α : Type} {r : Result α} (f : α → Payload)
    (h : (∃ a, r = .value a) ∨ r = .error errNotFound) :
    (∃ payload, (do return f (← r)) = .value payload) ∨
      (do return f (← r)) = (.error errNotFound : Result Payload) := by
  obtain ⟨a, rfl⟩ | rfl := h
  · exact Or.inl ⟨f a, rfl⟩
  · exact Or.inr rfl

theorem mainArtists_named (h : ∀ a ∈ db.artist, a.name.isSome) (id afterID : Int) (limit : Nat) :
    MainArtistsNamed db.toTables id afterID limit := by
  intro r _ a ha
  obtain ⟨relation, -, ha⟩ := List.mem_flatMap.mp ha
  exact h a (List.mem_filter.mp ha).1

end Reading

/-- What is shown of each route: its numbers are safe, its texts are if U+0000 was not sent, and
then its call is answered. -/
structure Checked (route : CollectionRoute) (request : Request) (call : Call) : Prop where
  texts : (∀ argument ∈ callTexts call, argument.Safe) ↔ NulFree route request
  numbers : ∀ argument ∈ callNumbers call, argument.Safe
  answered : (∀ argument ∈ callTexts call, argument.Safe) → Answered call request.path

section Routes
variable {request : Request} {values : Values}

theorem resource_inRange {n : Int} (h : 0 ≤ n ∧ n ≤ maximumResourceID) : InRange n := by
  simp only [maximumResourceID] at h
  exact ⟨by omega, by omega⟩

theorem integer_safe {n : Int} (h : InRange n) : (integerArgument n).Safe := by
  have := h.2
  exact ⟨h.1, by simp only [integerArgument]; omega⟩

theorem optionalInt_bounds {raw : Bytes} {minimum maximum : Int} {name : String}
    {value : Option Int} (h : optionalInt raw minimum maximum name = .ok value) :
    ∀ n ∈ value, minimum ≤ n ∧ n ≤ maximum := by
  rw [optionalInt_eq_ok] at h
  split at h
  · subst h
    exact nofun
  · obtain ⟨n, rfl, -, hn⟩ := h
    intro m hmem
    cases hmem
    exact hn

theorem year_bounds {raw : Bytes} {year : Option Int}
    (h : optionalInt raw 0 maxInt16 parameterYear = .ok year) :
    ∀ y ∈ year, 0 ≤ y ∧ y ≤ 32767 := fun y hy => by
  have := optionalInt_bounds h y hy
  simp only [maxInt16] at this
  omega

theorem year_safe {y : Int} (h : 0 ≤ y ∧ y ≤ 32767) : (yearArgument y).Safe :=
  ⟨by simp only [yearArgument]; omega, by simp only [yearArgument, maxInt16]; omega⟩

theorem optional_safe {argument : Int → NumberArgument} {o : Option Int}
    (h : ∀ n ∈ o, (argument n).Safe) : ∀ a ∈ (o.map argument).toList, a.Safe := by
  cases o with
  | none => simp
  | some n => simpa using h

theorem artists_checked {call : Call} (h : ArtistHandler.search request = .ok call) :
    Checked (.search .artists) request call := by
  obtain ⟨page, name, realName, hpage, hname, hreal, rfl⟩ := artists_ok h
  obtain ⟨hafter, hsize, -⟩ := parseCursorPage_bounds hpage
  have hrange := resource_inRange hafter
  refine ⟨?_, ?_, ?_⟩
  · have hn := filter_safe hname
    have hr := filter_safe hreal
    simpa [callTexts, NulFree, CollectionRoute.texts, SearchRoute.parameters, Parameter.isText,
      searchTerm, Parameter.word] using and_congr hn hr
  · simpa [callNumbers] using integer_safe hrange
  · intro hsafe s db rest _
    simp only [callTexts, List.forall_mem_cons] at hsafe
    have hlegal : LegalArtistFilter { name, realName } :=
      ⟨legalText_of_safe hname hsafe.1, legalText_of_safe hreal hsafe.2.1⟩
    exact payload_answered _ (Or.inl
      (read_answered s db hsize hrange (.artists { name, realName }) hlegal))

theorem labels_checked {call : Call} (h : LabelHandler.search request = .ok call) :
    Checked (.search .labels) request call := by
  obtain ⟨page, name, hpage, hname, rfl⟩ := labels_ok h
  obtain ⟨hafter, hsize, -⟩ := parseCursorPage_bounds hpage
  have hrange := resource_inRange hafter
  refine ⟨?_, ?_, ?_⟩
  · simpa [callTexts, NulFree, CollectionRoute.texts, SearchRoute.parameters, Parameter.isText,
      searchTerm, Parameter.word] using filter_safe hname
  · simpa [callNumbers] using integer_safe hrange
  · intro hsafe s db rest _
    simp only [callTexts, List.forall_mem_cons] at hsafe
    exact payload_answered _ (Or.inl (read_answered s db hsize hrange
      (.labels { name }) (legalText_of_safe hname hsafe.1)))

theorem masters_checked {call : Call} (h : MasterHandler.search request = .ok call) :
    Checked (.search .masters) request call := by
  obtain ⟨page, title, year, hpage, htitle, hyear, rfl⟩ := masters_ok h
  obtain ⟨hafter, hsize, -⟩ := parseCursorPage_bounds hpage
  have hrange := resource_inRange hafter
  have hy := year_bounds hyear
  refine ⟨?_, ?_, ?_⟩
  · simpa [callTexts, NulFree, CollectionRoute.texts, SearchRoute.parameters, Parameter.isText,
      searchTerm, Parameter.word] using filter_safe htitle
  · exact List.forall_mem_cons.mpr ⟨integer_safe hrange,
      optional_safe fun y hmem => year_safe (hy y hmem)⟩
  · intro hsafe s db rest _
    simp only [callTexts, List.forall_mem_cons] at hsafe
    have hlegal : LegalMasterFilter { title, year } := by
      refine ⟨legalText_of_safe htitle hsafe.1, fun y hmem => ?_⟩
      have := hy y hmem
      exact ⟨by omega, by omega⟩
    exact payload_answered _ (Or.inl
      (read_answered s db hsize hrange (.masters { title, year }) hlegal))

/-- A page of the releases of a resource has no text argument. -/
theorem related_checked {route : CollectionRoute} (hroute : route.texts = [])
    {toCall : Int → PageRequest → Call} (htexts : ∀ id page, callTexts (toCall id page) = [])
    (hnumbers : ∀ id page,
      callNumbers (toCall id page) = [integerArgument id, integerArgument page.afterID])
    {l : Int → Listing}
    (hl : ∀ (db : Database) (id : Int) (page : PageRequest), InRange id →
      (∀ a ∈ db.artist, a.name.isSome) → (l id).Admissible db.toTables page)
    {f : (id : Int) → Bytes → Page (l id).Item → Payload}
    (hrun : ∀ (s : Store) (db : Database) (rest : Repository) (id : Int) (page : PageRequest)
      (path : Bytes), (toCall id page).run (s.repository db.toTables rest) path =
        do return f id path (← (l id).read s db.toTables page))
    {call : Call} (h : pageByID toCall request = .ok call) : Checked route request call := by
  obtain ⟨id, hid, page, hpage, rfl⟩ := pageByID_eq_ok.mp h
  obtain ⟨hafter, hsize, -⟩ := parseCursorPage_bounds hpage
  have hrange := resource_inRange hafter
  have hresource : InRange id := by
    have := pathID_bounds hid
    exact resource_inRange (by omega)
  refine ⟨?_, ?_, ?_⟩
  · simp [htexts, NulFree, hroute]
  · simpa [hnumbers] using ⟨integer_safe hresource, integer_safe hrange⟩
  · intro _ s db rest hnamed
    rw [hrun]
    exact payload_answered _ (Or.inl
      (read_answered s db hsize hrange (l id) (hl db id page hresource hnamed)))

theorem fetchSize_nonneg {page : HashPageRequest} (h : 0 < page.size) : 0 ≤ page.fetchSize := by
  rw [HashPageRequest.fetchSize]
  omega

/-- A page of the children of a release has no text argument either. -/
theorem children_checked {route : CollectionRoute} (hroute : route.texts = [])
    {id : Int} {page : HashPageRequest}
    (h : releaseChildRequest request = .ok (id, page)) {call : Call} (htexts : callTexts call = [])
    (hnumbers : callNumbers call = [integerArgument id])
    (hrun : InRange id → 0 < page.size → Answered call request.path) :
    Checked route request call := by
  obtain ⟨hid, hpage⟩ := releaseChildRequest_eq_ok.mp h
  have hresource : InRange id := by
    have := pathID_bounds hid
    exact resource_inRange (by omega)
  have hsize := (parseHashCursorPage_bounds hpage).1
  refine ⟨?_, ?_, fun _ => hrun hresource hsize⟩
  · simp [htexts, NulFree, hroute]
  · simpa [hnumbers] using integer_safe hresource

theorem nulFree_releases : NulFree (.search .releases) request ↔
    ¬HasNul (get request.query parameterTitle) ∧ ¬HasNul (get request.query parameterCountry) ∧
    ¬HasNul (get request.query parameterCatalogNumber) ∧
    ¬HasNul (get request.query parameterIdentifierType) ∧
    ¬HasNul (get request.query parameterIdentifierValue) := by
  simp [NulFree, CollectionRoute.texts, SearchRoute.parameters, Parameter.isText, Parameter.word]

/-- A lookup leaves the texts of the other filters blank. -/
theorem filters_blank (h : hasStandardReleaseFilter values = false) :
    ¬HasNul (get values parameterTitle) ∧ ¬HasNul (get values parameterCountry) := by
  rw [hasStandardReleaseFilter, List.any_eq_false] at h
  have hblank : ∀ name ∈ [parameterTitle, parameterCountry], ¬HasNul (get values name) := by
    intro name hname
    have hmem : name ∈ [parameterTitle, parameterCountry, parameterYear, parameterMonth,
        parameterMaster] := List.mem_append_left _ hname
    exact not_hasNul_blank (by simpa [hasText] using h name hmem)
  exact ⟨hblank _ (by simp), hblank _ (by simp)⟩

theorem absent_nulFree {first second : String}
    (h : (hasQueryParameter values first || hasQueryParameter values second) = false) :
    ¬HasNul (get values first) ∧ ¬HasNul (get values second) := by
  rw [Bool.or_eq_false_iff] at h
  exact ⟨not_hasNul_blank (blank_of_absent h.1), not_hasNul_blank (blank_of_absent h.2)⟩

theorem catalogNumber_checked {page : PageRequest}
    (hpage : parseCursorPage request.query = .ok page)
    (hc : asksCatalogNumber request.query = true) {lookup : ReleaseLookup}
    (h : parseReleaseLookup request.query = .ok lookup) : ∃ catalogNumber : CatalogNumberLookup,
      lookup = .catalogNumber catalogNumber ∧
      Checked (.search .releases) request (.releasesByCatalogNumber catalogNumber page) := by
  obtain ⟨⟨hi, hf⟩, labelID, c, htext, hl, hcatno, rfl⟩ := catalogNumberLookup_of_ok hc h
  obtain ⟨hafter, hsize, -⟩ := parseCursorPage_bounds hpage
  have hrange := resource_inRange hafter
  have hlabel : InRange labelID := by
    have hb : trimSpace (get request.query parameterLabelID) ≠ [] := of_decide_eq_true htext
    rw [parseBoundedInt64, parseBounded_eq_ok, if_neg hb] at hl
    exact resource_inRange (by omega)
  refine ⟨_, rfl, ?_, ?_, ?_⟩
  · rw [nulFree_releases, and_iff_right (filters_blank hf).1, and_iff_right (filters_blank hf).2,
      and_iff_left (absent_nulFree hi), ← required_safe hcatno]
    simp [callTexts]
  · simpa [callNumbers] using ⟨integer_safe hlabel, integer_safe hrange⟩
  · intro hsafe s db rest _
    simp only [callTexts, List.forall_mem_cons] at hsafe
    exact payload_answered _ (Or.inl (read_answered s db hsize hrange
      (.byCatalogNumber ⟨labelID, c⟩) ⟨hlabel, isSome_of_safe hcatno hsafe.1⟩))

theorem identifier_checked {page : PageRequest}
    (hpage : parseCursorPage request.query = .ok page)
    (hi : asksIdentifier request.query = true) {lookup : ReleaseLookup}
    (h : parseReleaseLookup request.query = .ok lookup) : ∃ identifier : IdentifierLookup,
      lookup = .identifier identifier ∧
      Checked (.search .releases) request (.releasesByIdentifier identifier page) := by
  obtain ⟨⟨hc, hf⟩, type, value, ht, hv, rfl⟩ := identifierLookup_of_ok hi h
  obtain ⟨hafter, hsize, -⟩ := parseCursorPage_bounds hpage
  have hrange := resource_inRange hafter
  refine ⟨_, rfl, ?_, ?_, ?_⟩
  · rw [nulFree_releases, and_iff_right (filters_blank hf).1, and_iff_right (filters_blank hf).2,
      and_iff_right (absent_nulFree hc).2, ← required_safe ht, ← required_safe hv]
    simp [callTexts]
  · simpa [callNumbers] using integer_safe hrange
  · intro hsafe s db rest _
    simp only [callTexts, List.forall_mem_cons] at hsafe
    exact payload_answered _ (Or.inl (read_answered s db hsize hrange
      (.byIdentifier ⟨type, value⟩) ⟨isSome_of_safe ht hsafe.1, isSome_of_safe hv hsafe.2.1⟩))

theorem filters_checked {page : PageRequest} (hpage : parseCursorPage request.query = .ok page)
    (hc : asksCatalogNumber request.query = false) (hi : asksIdentifier request.query = false)
    {title country : Bytes} {year month : Option Int}
    (htitle : optionalSearchTerm (get request.query parameterTitle) parameterTitle = .ok title)
    (hcountry : optionalCountry (get request.query parameterCountry) = .ok country)
    (hyear : optionalInt (get request.query parameterYear) 0 maxInt16 parameterYear = .ok year)
    (hmonth : optionalInt (get request.query parameterMonth) 1 12 parameterMonth = .ok month)
    (master : Option Bool) : Checked (.search .releases) request
      (.searchReleases { title, country, year, month, master } page) := by
  obtain ⟨hafter, hsize, -⟩ := parseCursorPage_bounds hpage
  have hrange := resource_inRange hafter
  have hy := year_bounds hyear
  have hm := optionalInt_bounds hmonth
  refine ⟨?_, ?_, ?_⟩
  · have hcatno := (absent_nulFree hc).2
    rw [nulFree_releases, and_iff_left (absent_nulFree hi).2]
    rw [← filter_safe htitle, ← filter_safe hcountry]
    simp [callTexts, searchTerm, hcatno, (absent_nulFree hi).1]
  · refine List.forall_mem_cons.mpr ⟨integer_safe hrange, fun argument ha => ?_⟩
    obtain ha | ha := List.mem_append.mp ha
    · exact optional_safe (fun y hmem => year_safe (hy y hmem)) _ ha
    · exact optional_safe hm _ ha
  · intro hsafe s db rest _
    simp only [callTexts, List.forall_mem_cons] at hsafe
    have hlegal : LegalReleaseFilter { title, country, year, month, master } :=
      ⟨⟨legalText_of_safe htitle hsafe.1, legalText_of_safe hcountry hsafe.2.1⟩,
        legalWindow hy hm⟩
    exact payload_answered _ (Or.inl (read_answered s db hsize hrange
      (.releases { title, country, year, month, master }) hlegal))

theorem releases_checked {call : Call} (h : ReleaseHandler.search request = .ok call) :
    Checked (.search .releases) request call := by
  obtain ⟨page, lookup, hpage, hlookup, h⟩ := releases_eq_ok.mp h
  cases hc : asksCatalogNumber request.query with
  | true =>
    obtain ⟨catalogNumber, rfl, hchecked⟩ := catalogNumber_checked hpage hc hlookup
    cases h
    exact hchecked
  | false =>
    cases hi : asksIdentifier request.query with
    | true =>
      obtain ⟨identifier, rfl, hchecked⟩ := identifier_checked hpage hi hlookup
      cases h
      exact hchecked
    | false =>
      obtain rfl := noLookup_of_ok hc hi hlookup
      cases h with
      | filters hf => exact filters_checked hpage hc hi hf.title hf.country hf.year hf.month _

/-- Every accepted request is checked. -/
theorem route_checked {route : CollectionRoute} {call : Call}
    (h : route.handler request = .ok call) : Checked route request call := by
  cases route with
  | search route =>
    cases route with
    | artists => exact artists_checked h
    | labels => exact labels_checked h
    | masters => exact masters_checked h
    | releases => exact releases_checked h
  | artistReleases =>
    exact related_checked rfl (fun _ _ => rfl) (fun _ _ => rfl)
      (l := Listing.artistReleases) (fun _ _ _ hid _ => hid)
      (f := fun _ path page => .artistReleases (pageResponse page path))
      (fun _ _ _ _ _ _ => rfl) h
  | labelReleases =>
    exact related_checked rfl (fun _ _ => rfl) (fun _ _ => rfl)
      (l := Listing.labelReleases) (fun _ _ _ hid _ => hid)
      (f := fun _ path page => .labelReleases (pageResponse page path))
      (fun _ _ _ _ _ _ => rfl) h
  | masterReleases =>
    exact related_checked rfl (fun _ _ => rfl) (fun _ _ => rfl)
      (l := Listing.masterReleases) (fun _ id page hid hnamed =>
        ⟨hid, mainArtists_named hnamed id page.afterID page.fetchSize.toNat⟩)
      (f := fun _ path page => .masterReleases (pageResponse page path))
      (fun _ _ _ _ _ _ => rfl) h
  | releaseTracks =>
    obtain ⟨⟨id, page⟩, hchild, h⟩ := Except.bind_eq_ok.mp h
    cases h
    refine children_checked rfl hchild rfl rfl fun hid hsize s db rest _ => ?_
    have hfetch := fetchSize_nonneg hsize
    exact payload_answered _ (children_answered
      ⟨_, loadReleaseTracks_eq_value.mpr ⟨⟨hid, hfetch⟩, lookAhead_pos _ _ hsize⟩⟩ hid)
  | releaseIdentifiers =>
    obtain ⟨⟨id, page⟩, hchild, h⟩ := Except.bind_eq_ok.mp h
    cases h
    refine children_checked rfl hchild rfl rfl fun hid hsize s db rest _ => ?_
    have hfetch := fetchSize_nonneg hsize
    exact payload_answered _ (children_answered
      ⟨_, loadReleaseIdentifiers_eq_value.mpr ⟨⟨hid, hfetch⟩, lookAhead_pos _ _ hsize⟩⟩ hid)

end Routes

/-- An accepted request makes a call that the server takes all arguments of exactly when the request
has U+0000 in none of its texts. -/
theorem accepted_safe {route : CollectionRoute} {request : Request} {call : Call}
    (h : route.handler request = .ok call) :
    SafeCall call request.path ↔ NulFree route request := by
  have hchecked := route_checked h
  constructor
  · exact fun hsafe => hchecked.texts.mp hsafe.texts
  · intro hfree
    have htexts := hchecked.texts.mpr hfree
    exact ⟨htexts, hchecked.numbers, hchecked.answered htexts⟩

theorem accepted_safe_bob : SafeCall (.searchArtists ⟨lit "bob", []⟩ ⟨0, 20⟩) (lit "/artists") ↔
    NulFree (.search .artists) { path := lit "/artists", rawQuery := lit "name=bob" } :=
  @accepted_safe (.search .artists) { path := lit "/artists", rawQuery := lit "name=bob" } _ (by rfl)

/-- An escaped U+0000 passes as a character of the term, and the server refuses the term. -/
theorem accepted_nul :
    ArtistHandler.search { path := lit "/artists", rawQuery := lit "name=a%00bc" } =
      .ok (.searchArtists ⟨[0x61, 0, 0x62, 0x63], []⟩ ⟨0, 20⟩) ∧
    ¬SafeCall (.searchArtists ⟨[0x61, 0, 0x62, 0x63], []⟩ ⟨0, 20⟩) (lit "/artists") := by
  refine ⟨by rfl, fun h => ?_⟩
  have hsafe := h.texts _ (List.mem_cons_self ..) (by decide)
  exact absurd hsafe.1 (by decide)

end OpenDiscogs
