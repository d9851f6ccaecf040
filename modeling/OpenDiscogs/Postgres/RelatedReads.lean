import OpenDiscogs.Postgres.Reads

/-! The relation and lookup queries: which releases they read, and that bounding the branches of a
query before it joins loses none of them. -/
namespace OpenDiscogs.Postgres
open Utf8 SqlText Calendar Catalog Rows Keyset

section Keys
variable (db : Database)

theorem releaseKeys : (db.releaseItem.map (·.id)).Nodup := db.canonical.releaseKey.1

/-- The releases on which an artist is a main or a credited artist. -/
def artistReleaseSet (t : Tables) (artistID : Int) : Set Int :=
  {x | (∃ r ∈ t.releaseItemArtist, r.artistID = artistID ∧ r.releaseItemID = x) ∨
    ∃ r ∈ t.releaseItemCreditedArtist, r.artistID = artistID ∧ r.releaseItemID = x}

def labelReleaseSet (t : Tables) (labelID : Int) : Set Int :=
  {x | ∃ r ∈ t.labelReleaseItem, r.labelID = labelID ∧ r.releaseItemID = x}

def catalogNumberSet (t : Tables) (labelID : Int) (catalogNumber : Text) : Set Int :=
  {x | ∃ r ∈ t.labelReleaseItem, (r.labelID = labelID ∧
    r.categoryNotation = some catalogNumber) ∧ r.releaseItemID = x}

def identifierSet (t : Tables) (type value : Text) : Set Int :=
  {x | ∃ r ∈ t.releaseItemIdentifier, identifierMatches t.server type value r ∧
    r.releaseItemID = x}

/-- The constraints under which the releases of an artist are read: unique releases, one main row
for an artist and a release, and rows of releases that exist. -/
structure ArtistCredits (t : Tables) : Prop where
  releaseUnique : (t.releaseItem.map (·.id)).Nodup
  artistUnique : (t.releaseItemArtist.map fun r => (r.artistID, r.releaseItemID)).Nodup
  artistRelease : References (t.releaseItemArtist.map (·.releaseItemID)) (t.releaseItem.map (·.id))
  creditedRelease : References (t.releaseItemCreditedArtist.map (·.releaseItemID))
    (t.releaseItem.map (·.id))

theorem artistCredits : ArtistCredits db.toTables where
  releaseUnique := releaseKeys db
  artistUnique := db.canonical.artistUnique
  artistRelease := db.canonical.artistRelease
  creditedRelease := db.canonical.creditedRelease

theorem mainReleases_least {t : Tables} (hc : ArtistCredits t) (artistID after : Int) (n : Nat) :
    Least ({x | ∃ r ∈ t.releaseItemArtist, r.artistID = artistID ∧ r.releaseItemID = x} ∩
      {x | after < x}) n (mainReleases t artistID after n) := by
  have hn : ((t.releaseItemArtist.filter fun r => r.artistID = artistID).map
      (·.releaseItemID)).Nodup := by
    refine nodup_part hc.artistUnique _ fun r _ r' _ hp hp' he => ?_
    simp only [decide_eq_true_eq] at hp hp'
    rw [hp, hp', he]
  simpa [mainReleases] using least_above hn after n

theorem creditedReleases_least (t : Tables) (artistID after : Int) (n : Nat) :
    Least ({x | ∃ r ∈ t.releaseItemCreditedArtist, r.artistID = artistID ∧
      r.releaseItemID = x} ∩ {x | after < x}) n
      (creditedReleases t artistID after n) := by
  simpa [creditedReleases] using least_distinct_above (·.releaseItemID) t.releaseItemCreditedArtist
    (fun r => r.artistID = artistID) after n

/-- The union of the limited branches has the least releases of the unlimited ones. -/
theorem matchingArtistReleases_least {t : Tables} (hc : ArtistCredits t) (artistID after : Int)
    (n : Nat) : Least (artistReleaseSet t artistID ∩ {x | after < x}) n
      (matchingArtistReleases t artistID after n) := by
  have hu := least_distinct (mainReleases t artistID after n ++
    creditedReleases t artistID after n) n
  simp only [List.mem_append] at hu
  have h := (mainReleases_least hc artistID after n).union
    (creditedReleases_least t artistID after n) hu
  rw [← Set.union_inter_distrib_right] at h
  exact h

theorem matchingLabelReleases_least (labelID after : Int) (n : Nat) :
    Least (labelReleaseSet db.toTables labelID ∩ {x | after < x}) n
      (matchingLabelReleases db.toTables labelID after n) := by
  simpa [matchingLabelReleases, labelReleaseSet] using least_distinct_above (·.releaseItemID) db.labelReleaseItem
    (fun r => r.labelID = labelID) after n

theorem matchingCatalogNumber_least (labelID : Int) (catalogNumber : Text) (after : Int)
    (n : Nat) : Least (catalogNumberSet db.toTables labelID catalogNumber ∩ {x | after < x}) n
      (matchingCatalogNumber db.toTables labelID catalogNumber after n) := by
  have hn : ((db.labelReleaseItem.filter fun r => r.labelID = labelID &&
      r.categoryNotation = some catalogNumber).map (·.releaseItemID)).Nodup := by
    have hp := nodup_part db.canonical.catalogNumberUnique (g := (·.releaseItemID))
      (fun r => r.labelID = labelID && r.categoryNotation = some catalogNumber)
      fun r _ r' _ hp hp' he => by
        simp only [Bool.and_eq_true, decide_eq_true_eq] at hp hp'
        rw [hp.1, hp'.1, hp.2, hp'.2, he]
    rw [List.filter_filter] at hp
    rwa [List.filter_congr fun r _ => ?_] at hp
    cases r.categoryNotation <;> simp
  simpa [matchingCatalogNumber, catalogNumberSet] using least_above hn after n

theorem matchingIdentifier_least (type value : Text) (after : Int) (n : Nat) :
    Least (identifierSet db.toTables type value ∩ {x | after < x}) n
      (matchingIdentifier db.toTables type value after n) := by
  simpa [matchingIdentifier, identifierSet] using least_distinct_above (·.releaseItemID) db.releaseItemIdentifier
    (identifierMatches db.server type value) after n

theorem artistReleaseSet_known {t : Tables} (hc : ArtistCredits t) {artistID x : Int}
    (hx : x ∈ artistReleaseSet t artistID) : x ∈ t.releaseItem.map (·.id) := by
  obtain ⟨r, hr, -, rfl⟩ | ⟨r, hr, -, rfl⟩ := hx
  · exact hc.artistRelease _ (List.mem_map_of_mem hr)
  · exact hc.creditedRelease _ (List.mem_map_of_mem hr)

theorem labelReleaseSet_known {labelID x : Int} (hx : x ∈ labelReleaseSet db.toTables labelID) :
    x ∈ db.releaseItem.map (·.id) := by
  obtain ⟨r, hr, -, rfl⟩ := hx
  exact db.canonical.labelRelease _ (List.mem_map_of_mem hr)

theorem catalogNumberSet_known {labelID x : Int} {c : Text}
    (hx : x ∈ catalogNumberSet db.toTables labelID c) : x ∈ db.releaseItem.map (·.id) := by
  obtain ⟨r, hr, -, rfl⟩ := hx
  exact db.canonical.labelRelease _ (List.mem_map_of_mem hr)

theorem identifierSet_known {type value : Text} {x : Int}
    (hx : x ∈ identifierSet db.toTables type value) : x ∈ db.releaseItem.map (·.id) := by
  obtain ⟨r, hr, -, rfl⟩ := hx
  exact db.canonical.identifierRelease _ (List.mem_map_of_mem hr)

end Keys

section Joins
variable {db : Database} {S : Set Int} {after : Int} {n : Nat} {matching : List Int}

/-- The rows that a bounded list of known releases is joined with, one for each and in order. -/
theorem joined_ids (h : Least (S ∩ {x | after < x}) n matching)
    (hk : ∀ x ∈ S, x ∈ db.releaseItem.map (·.id)) :
    (join (·.id) matching db.releaseItem).map (·.id) = matching :=
  map_join (releaseKeys db) fun x hx => hk x (h.sound x hx).1

theorem orderBy_joined (h : Least (S ∩ {x | after < x}) n matching)
    (hk : ∀ x ∈ S, x ∈ db.releaseItem.map (·.id)) :
    orderBy (·.id) (join (·.id) matching db.releaseItem) = join (·.id) matching db.releaseItem :=
  orderBy_join (releaseKeys db) (fun x hx => hk x (h.sound x hx).1) h.ascending

end Joins

section ArtistReleases
variable {s : Store} {db : Database} {artistID after : Int} {n : Nat}

/-- Every release the artist is on has a role row of the artist. -/
theorem relatedRoles_ne_nil {t : Tables} {x : Int} (hx : x ∈ artistReleaseSet t artistID) :
    relatedRoles t artistID x ≠ [] := by
  rw [relatedRoles, ne_eq, List.append_eq_nil_iff, List.map_eq_nil_iff, List.map_eq_nil_iff,
    List.filter_eq_nil_iff, List.filter_eq_nil_iff]
  intro h
  obtain ⟨hm, hc⟩ := h
  obtain ⟨r, hr, ha, hx⟩ | ⟨r, hr, ha, hx⟩ := hx
  · exact hm r hr (by simp [ha, hx])
  · exact hc r hr (by simp [ha, hx])

theorem aggregatedRoles_eq {t : Tables} {matching : List Int}
    (h : ∀ x ∈ matching, relatedRoles t artistID x ≠ []) :
    aggregatedRoles t artistID matching =
      matching.map fun x => (x, aggregateRoles t.server (relatedRoles t artistID x)) := by
  induction matching with
  | nil => rfl
  | cons x xs ih =>
    obtain ⟨role, roles, hr⟩ := List.exists_cons_of_ne_nil (h x (by simp))
    have hxs := ih fun y hy => h y (List.mem_cons_of_mem x hy)
    rw [aggregatedRoles, List.filterMap_cons, hr]
    simp only [List.map_cons, hr]
    rw [← hxs]
    rfl

/-- The final join, filter and limit keep the aggregated releases as they are. -/
theorem artistReleasesSQL_eq {t : Tables} (hc : ArtistCredits t) :
    artistReleasesSQL t artistID after n =
    (join (·.id) (matchingArtistReleases t artistID after n) t.releaseItem).map fun r =>
      artistReleaseColumns (aggregateRoles t.server (relatedRoles t artistID r.id)) r := by
  have hl := matchingArtistReleases_least hc artistID after n
  generalize hm : matchingArtistReleases t artistID after n = matching at hl
  have hk : ∀ x ∈ matching, x ∈ t.releaseItem.map (·.id) := fun x hx =>
    artistReleaseSet_known hc (hl.sound x hx).1
  have hroles : ∀ x ∈ matching, relatedRoles t artistID x ≠ [] := fun x hx =>
    relatedRoles_ne_nil (hl.sound x hx).1
  let withRole := fun r : ReleaseItemRow =>
    (aggregateRoles t.server (relatedRoles t artistID r.id), r)
  have hjoin : joinReleases t (aggregatedRoles t artistID matching) =
      (join (·.id) matching t.releaseItem).map withRole := by
    rw [aggregatedRoles_eq hroles, joinReleases, List.flatMap_map, join, List.map_flatMap]
    refine List.flatMap_congr fun x _ => List.map_congr_left fun r hr => ?_
    rw [List.mem_filter, decide_eq_true_eq] at hr
    simp only [withRole, hr.2]
  have hlimit := limited_join (hc.releaseUnique) hk hl.ascending (p := fun r => after < r.id)
    (fun r hr => by simpa using (hl.sound _ hr).2) hl.short
  have horder : ∀ rows : List ReleaseItemRow,
      orderBy (fun p : Option Text × ReleaseItemRow => p.2.id) (rows.map withRole) =
        (orderBy (·.id) rows).map withRole := by
    intro rows
    exact (List.map_insertionSort _ _ withRole rows fun _ _ _ _ => Iff.rfl).symm
  rw [artistReleasesSQL, hm]
  rw [hjoin, List.filter_map, horder, ← List.map_take]
  simp only [Function.comp_def, withRole]
  rw [hlimit, List.map_map]
  rfl

end ArtistReleases

section Values
variable {s : Store} {db : Database} {id : Int} {request : PageRequest}

theorem loadRelated_value {α β : Type} {operation : String} {scanner : α → Result β}
    {sql : Int → Int → Nat → List α} {page : Page β} (hs : 0 < request.size) :
    loadRelated operation scanner sql id request = .value page ↔
      (InRange id ∧ InRange request.afterID) ∧ ∃ rows,
        collectRows scanner (sql id request.afterID request.fetchSize.toNat) = .value rows ∧
        page = cutPage request.size rows := by
  have hf : 0 ≤ request.fetchSize := by rw [PageRequest.fetchSize]; omega
  simp only [loadRelated, loadPage_eq_value hs, Outcome.bind_value, integerParameter_eq_value,
    limitParameter_eq_value]
  constructor
  · intro h
    obtain ⟨rows, ⟨_, ⟨hi, rfl⟩, _, ⟨ha, rfl⟩, _, ⟨-, rfl⟩, hr⟩, rfl⟩ := h
    exact ⟨⟨hi, ha⟩, rows, hr, rfl⟩
  · intro h
    obtain ⟨⟨hi, ha⟩, rows, hr, rfl⟩ := h
    exact ⟨rows, ⟨_, ⟨hi, rfl⟩, _, ⟨ha, rfl⟩, _, ⟨hf, rfl⟩, hr⟩, rfl⟩

/-- The item shown for a release among the releases of an artist. -/
def artistReleaseOf (s : Store) (t : Tables) (artistID : Int) (r : ReleaseItemRow) :
    ArtistRelease where
  id := r.id
  role := aggregateRoles t.server (relatedRoles t artistID r.id)
  title := r.title
  country := r.country
  dataQuality := r.dataQuality
  releasedYear := extractWhen r.hasValidYear Date.extractYear r.releaseDate
  releasedMonth := extractWhen r.hasValidMonth Date.extractMonth r.releaseDate
  releasedDay := extractWhen r.hasValidDay Date.extractDay r.releaseDate
  listedReleaseDate := r.listedReleaseDate
  isMaster := r.isMaster
  masterID := r.masterID
  notes := r.notes
  status := r.status
  resourceURL := s.releaseURL r.id

def labelReleaseOf (t : Tables) (labelID : Int) (r : ReleaseItemRow) : LabelRelease where
  id := r.id
  artist := stringAgg t.server ((mainArtists t r.id).map (·.name))
  title := r.title
  year := extractWhen r.hasValidYear Date.extractYear r.releaseDate
  status := r.status
  catalogNumbers := catalogNumbers t labelID r.id
  format := stringAgg t.server
    ((t.releaseItemFormat.filter (·.releaseItemID = r.id)).map (·.description))

def masterReleaseOf (s : Store) (t : Tables) (r : ReleaseItemRow) : MasterRelease where
  id := r.id
  title := r.title
  artists := (orderBy (·.id) (mainArtists t r.id)).filterMap (·.name)
  artistIDs := (orderBy (·.id) (mainArtists t r.id)).map (·.id)
  year := extractWhen r.hasValidYear Date.extractYear r.releaseDate
  resourceURL := s.releaseURL r.id

/-- The rows a page of a relation is made of. -/
def relatedRows (t : Tables) (matching : Int → Nat → List Int) (request : PageRequest) :
    List ReleaseItemRow :=
  join (·.id) (matching request.afterID request.fetchSize.toNat) t.releaseItem

theorem artistReleases_value {page : Page ArtistRelease} (hs : 0 < request.size) :
    s.artistReleases db.toTables id request = .value page ↔
      (InRange id ∧ InRange request.afterID) ∧
      page = cutPage request.size ((relatedRows db.toTables
        (matchingArtistReleases db.toTables id) request).map
          (artistReleaseOf s db.toTables id)) := by
  have hscan : ∀ r : ReleaseItemRow, s.scanArtistRelease (artistReleaseColumns
      (aggregateRoles db.server (relatedRoles db.toTables id r.id)) r) =
        .value (artistReleaseOf s db.toTables id r) := fun _ => rfl
  rw [Store.artistReleases, loadRelated_value hs]
  simp only [artistReleasesSQL_eq (artistCredits db), collectRows_columns hscan, exists_eq_left, relatedRows]

theorem labelReleases_value {page : Page LabelRelease} (hs : 0 < request.size) :
    s.labelReleases db.toTables id request = .value page ↔
      (InRange id ∧ InRange request.afterID) ∧
      page = cutPage request.size ((relatedRows db.toTables
        (matchingLabelReleases db.toTables id) request).map (labelReleaseOf db.toTables id)) := by
  have hscan : ∀ r : ReleaseItemRow, scanLabelRelease (labelReleaseColumns db.toTables id r) =
      .value (labelReleaseOf db.toTables id r) := by
    intro r
    simp [scanLabelRelease, labelReleaseColumns, scanTextArray_some, labelReleaseOf]
  have horder := orderBy_joined
    (matchingLabelReleases_least db id request.afterID request.fetchSize.toNat)
    fun x hx => labelReleaseSet_known db hx
  rw [Store.labelReleases, loadRelated_value hs, labelReleasesSQL]
  simp only [horder, collectRows_columns hscan, exists_eq_left, relatedRows]

/-- Every main artist of the releases a page request reads is named. -/
def MainArtistsNamed (t : Tables) (masterID afterID : Int) (limit : Nat) : Prop :=
  ∀ r ∈ limitedMasterReleases t masterID afterID limit, ∀ a ∈ mainArtists t r.id, a.name.isSome

theorem masterReleases_value {t : Tables} {page : Page MasterRelease} (hs : 0 < request.size) :
    s.masterReleases t id request = .value page ↔
      (InRange id ∧ InRange request.afterID ∧
        MainArtistsNamed t id request.afterID request.fetchSize.toNat) ∧
      page = cutPage request.size ((lookAheadRows (·.id) t.releaseItem
        (fun r => r.masterID = some id) request).map (masterReleaseOf s t)) := by
  have hscan : ∀ (r : ReleaseItemRow) (item : MasterRelease),
      s.scanMasterRelease (masterReleaseColumns t r) = .value item ↔
        (∀ a ∈ mainArtists t r.id, a.name.isSome) ∧ item = masterReleaseOf s t r := by
    intro r item
    simp only [Store.scanMasterRelease, masterReleaseColumns, Outcome.bind_value,
      scanTextArray_eq_value, Outcome.pure_eq, Outcome.value.injEq, List.mem_map, mem_orderBy,
      forall_exists_index, and_imp, forall_apply_eq_imp_iff₂, List.filterMap_map]
    constructor
    · intro h
      obtain ⟨_, ⟨hn, rfl⟩, rfl⟩ := h
      exact ⟨hn, rfl⟩
    · intro h
      obtain ⟨hn, rfl⟩ := h
      exact ⟨_, ⟨hn, rfl⟩, rfl⟩
  rw [Store.masterReleases, loadRelated_value hs, masterReleasesSQL]
  simp only [collectRows_map hscan, MainArtistsNamed, limitedMasterReleases, lookAheadRows]
  constructor
  · intro h
    obtain ⟨⟨hi, ha⟩, rows, ⟨hn, rfl⟩, rfl⟩ := h
    exact ⟨⟨hi, ha, hn⟩, rfl⟩
  · intro h
    obtain ⟨⟨hi, ha, hn⟩, rfl⟩ := h
    exact ⟨⟨hi, ha⟩, _, ⟨hn, rfl⟩, rfl⟩

theorem releasesByCatalogNumber_value {lookup : CatalogNumberLookup} {page : Page Release}
    (hs : 0 < request.size) : s.releasesByCatalogNumber db.toTables lookup request = .value page ↔
      InRange request.afterID ∧ ∃ c, ofBytes lookup.catalogNumber = some c ∧
        InRange lookup.labelID ∧ page = cutPage request.size ((relatedRows db.toTables
          (matchingCatalogNumber db.toTables lookup.labelID c) request).map releaseOf) := by
  have hf : 0 ≤ request.fetchSize := by rw [PageRequest.fetchSize]; omega
  have horder := fun c => orderBy_joined
    (matchingCatalogNumber_least db lookup.labelID c request.afterID request.fetchSize.toNat)
    fun x hx => catalogNumberSet_known db hx
  simp only [Store.releasesByCatalogNumber, loadPage_eq_value hs, Outcome.bind_value,
    textParameter_eq_value, integerParameter_eq_value, limitParameter_eq_value,
    releasesByCatalogNumberSQL, collectRows_columns scanRelease_columns, relatedRows]
  constructor
  · intro h
    obtain ⟨rows, ⟨_, ⟨hl, rfl⟩, c, hc, _, ⟨ha, rfl⟩, _, ⟨-, rfl⟩, rfl⟩, rfl⟩ := h
    exact ⟨ha, c, hc, hl, by rw [horder]⟩
  · intro h
    obtain ⟨ha, c, hc, hl, rfl⟩ := h
    exact ⟨_, ⟨_, ⟨hl, rfl⟩, c, hc, _, ⟨ha, rfl⟩, _, ⟨hf, rfl⟩, by rw [horder]⟩, rfl⟩

theorem releasesByIdentifier_value {lookup : IdentifierLookup} {page : Page Release}
    (hs : 0 < request.size) : s.releasesByIdentifier db.toTables lookup request = .value page ↔
      InRange request.afterID ∧ ∃ type, ofBytes lookup.type = some type ∧ ∃ value,
        ofBytes lookup.value = some value ∧ page = cutPage request.size ((relatedRows db.toTables
          (matchingIdentifier db.toTables type value) request).map releaseOf) := by
  have hf : 0 ≤ request.fetchSize := by rw [PageRequest.fetchSize]; omega
  have horder := fun type value => orderBy_joined
    (matchingIdentifier_least db type value request.afterID request.fetchSize.toNat)
    fun x hx => identifierSet_known db hx
  simp only [Store.releasesByIdentifier, loadPage_eq_value hs, Outcome.bind_value,
    textParameter_eq_value, integerParameter_eq_value, limitParameter_eq_value,
    releasesByIdentifierSQL, collectRows_columns scanRelease_columns, relatedRows]
  constructor
  · intro h
    obtain ⟨rows, ⟨type, ht, value, hv, _, ⟨ha, rfl⟩, _, ⟨-, rfl⟩, rfl⟩, rfl⟩ := h
    exact ⟨ha, type, ht, value, hv, by rw [horder]⟩
  · intro h
    obtain ⟨ha, type, ht, value, hv, rfl⟩ := h
    exact ⟨_, ⟨type, ht, value, hv, _, ⟨ha, rfl⟩, _, ⟨hf, rfl⟩, by rw [horder]⟩, rfl⟩

end Values

end OpenDiscogs.Postgres
