import Mathlib.Data.Finset.Sort
import Mathlib.Data.Set.Card
import Mathlib.Data.Int.Interval
import OpenDiscogs.HttpApi.Pagination
import OpenDiscogs.Library.Paging
import OpenDiscogs.Postgres.RelatedReads

/-! Keyset walks over the nine collections that are paged by resource identifier, with imports
committing between the page requests. -/
namespace OpenDiscogs
open Utf8 SqlText Catalog HttpApi Postgres Rows Keyset

/-- A collection, with the filter or the parent it is read for. -/
inductive Listing where
  | artists (filter : ArtistFilter)
  | labels (filter : LabelFilter)
  | masters (filter : MasterFilter)
  | releases (filter : ReleaseFilter)
  | artistReleases (id : Int)
  | labelReleases (id : Int)
  | masterReleases (id : Int)
  | byCatalogNumber (lookup : CatalogNumberLookup)
  | byIdentifier (lookup : IdentifierLookup)

namespace Listing

abbrev Item : Listing → Type
  | artists _ => Artist
  | labels _ => Label
  | masters _ => Master
  | releases _ => Release
  | artistReleases _ => ArtistRelease
  | labelReleases _ => LabelRelease
  | masterReleases _ => MasterRelease
  | byCatalogNumber _ => Release
  | byIdentifier _ => Release

instance : (l : Listing) → PageItem l.Item
  | artists _ => inferInstanceAs (PageItem Artist)
  | labels _ => inferInstanceAs (PageItem Label)
  | masters _ => inferInstanceAs (PageItem Master)
  | releases _ => inferInstanceAs (PageItem Release)
  | artistReleases _ => inferInstanceAs (PageItem ArtistRelease)
  | labelReleases _ => inferInstanceAs (PageItem LabelRelease)
  | masterReleases _ => inferInstanceAs (PageItem MasterRelease)
  | byCatalogNumber _ => inferInstanceAs (PageItem Release)
  | byIdentifier _ => inferInstanceAs (PageItem Release)

/-- The repository call that reads a page of the collection. -/
def read (s : Store) (t : Tables) : (l : Listing) → PageRequest → Result (Page l.Item)
  | artists filter => s.searchArtists t filter
  | labels filter => s.searchLabels t filter
  | masters filter => s.searchMasters t filter
  | releases filter => s.searchReleases t filter
  | artistReleases id => s.artistReleases t id
  | labelReleases id => s.labelReleases t id
  | masterReleases id => s.masterReleases t id
  | byCatalogNumber lookup => s.releasesByCatalogNumber t lookup
  | byIdentifier lookup => s.releasesByIdentifier t lookup

/-- The identifiers of the resources that the collection consists of in a state. -/
def matching (t : Tables) : Listing → Set Int
  | artists filter => {x | ∃ a ∈ t.artist,
      artistMatches t.server (asText filter.name) (asText filter.realName) a ∧ a.id = x}
  | labels filter => {x | ∃ l ∈ t.label, labelMatches t.server (asText filter.name) l ∧ l.id = x}
  | masters filter => {x | ∃ m ∈ t.master,
      masterMatches t.server (asText filter.title) filter.year m ∧ m.id = x}
  | releases filter => {x | ∃ r ∈ t.releaseItem, matchesFilter t.server filter r ∧ r.id = x}
  | artistReleases id => artistReleaseSet t id
  | labelReleases id => labelReleaseSet t id
  | masterReleases id => {x | ∃ r ∈ t.releaseItem, r.masterID = some id ∧ r.id = x}
  | byCatalogNumber lookup =>
    {x | ∃ c, ofBytes lookup.catalogNumber = some c ∧ x ∈ catalogNumberSet t lookup.labelID c}
  | byIdentifier lookup =>
    {x | ∃ type, ofBytes lookup.type = some type ∧ ∃ value, ofBytes lookup.value = some value ∧
      x ∈ identifierSet t type value}

/-- PostgreSQL accepts every parameter of the query, and no array of artist names that the page
request reads has a null in it. -/
def Admissible (t : Tables) (request : PageRequest) : Listing → Prop
  | artists filter => LegalArtistFilter filter
  | labels filter => LegalText filter.name
  | masters filter => LegalMasterFilter filter
  | releases filter => LegalReleaseFilter filter
  | artistReleases id => InRange id
  | labelReleases id => InRange id
  | masterReleases id =>
    InRange id ∧ MainArtistsNamed t id request.afterID request.fetchSize.toNat
  | byCatalogNumber lookup => InRange lookup.labelID ∧ (ofBytes lookup.catalogNumber).isSome
  | byIdentifier lookup => (ofBytes lookup.type).isSome ∧ (ofBytes lookup.value).isSome

end Listing

/-- A result holds the page of a set that a request asks for exactly when the request is legal. -/
def Reads {α : Type} [PageItem α] (S : Set Int) (legal : Prop) (request : PageRequest)
    (r : Result (Page α)) : Prop :=
  ∃ items : List α,
    Least (S ∩ {x | request.afterID < x}) request.fetchSize.toNat (items.map PageItem.pageID) ∧
      ∀ page, r = .value page ↔ legal ∧ page = cutPage request.size items

section Reads
variable {s : Store} {db : Database} {request : PageRequest}

/-- A scan of one table for rows above the cursor. -/
theorem reads_scan {α ρ : Type} [PageItem α] {key : ρ → Int} {rows : List ρ}
    (hk : (rows.map key).Nodup) (p : ρ → Bool) {item : ρ → α}
    (hi : ∀ row, PageItem.pageID (item row) = key row) {legal : Prop} {r : Result (Page α)}
    (h : ∀ page, r = .value page ↔
      legal ∧ page = cutPage request.size ((lookAheadRows key rows p request).map item)) :
    Reads {x | ∃ row ∈ rows, p row ∧ key row = x} legal request r := by
  refine ⟨_, ?_, h⟩
  rw [List.map_map, show PageItem.pageID ∘ item = key from funext hi]
  exact least_above (nodup_filter hk p) request.afterID request.fetchSize.toNat

/-- A bounded list of releases joined with their rows. -/
theorem reads_joined {α : Type} [PageItem α] {S : Set Int} {matching : Int → Nat → List Int}
    (hm : Least (S ∩ {x | request.afterID < x}) request.fetchSize.toNat
      (matching request.afterID request.fetchSize.toNat))
    (hk : ∀ x ∈ S, x ∈ db.releaseItem.map (·.id)) {item : ReleaseItemRow → α}
    (hi : ∀ row, PageItem.pageID (item row) = row.id) {legal : Prop} {r : Result (Page α)}
    (h : ∀ page, r = .value page ↔ legal ∧
      page = cutPage request.size ((relatedRows db.toTables matching request).map item)) :
    Reads S legal request r := by
  refine ⟨_, ?_, h⟩
  rw [List.map_map, show PageItem.pageID ∘ item = (·.id) from funext hi, relatedRows,
    joined_ids hm hk]
  exact hm

theorem reads_congr {α : Type} [PageItem α] {S T : Set Int} {p q : Prop} {r : Result (Page α)}
    (h : Reads S p request r) (hs : S = T) (hp : p ↔ q) : Reads T q request r := by
  subst hs
  obtain ⟨items, hl, hr⟩ := h
  exact ⟨items, hl, fun page => by rw [hr, hp]⟩

/-- What no state contains is read only in vain. -/
theorem reads_nothing {α : Type} [PageItem α] {r : Result (Page α)}
    (h : ∀ page, r ≠ .value page) : Reads ∅ False request r :=
  ⟨[], ⟨by simp, by simp, by simp, by simp⟩, fun page => by simp [h page]⟩

/-- Only resources of the set are read. -/
theorem Reads.sound {α : Type} [PageItem α] {S : Set Int} {legal : Prop} {r : Result (Page α)}
    (h : Reads S legal request r) {page : Page α} (hr : r = .value page) :
    ∀ item ∈ page.items, PageItem.pageID item ∈ S := by
  intro item hi
  obtain ⟨items, hl, hp⟩ := h
  obtain ⟨-, rfl⟩ := (hp page).mp hr
  exact (hl.sound _ (List.mem_map_of_mem (List.mem_of_mem_take hi))).1

theorem byCatalogNumber_reads (hs : 0 < request.size) (ha : InRange request.afterID)
    (lookup : CatalogNumberLookup) :
    Reads (Listing.matching db.toTables (.byCatalogNumber lookup))
      (Listing.Admissible db.toTables request (.byCatalogNumber lookup)) request
      (s.releasesByCatalogNumber db.toTables lookup request) := by
  simp only [Listing.matching, Listing.Admissible]
  cases hc : ofBytes lookup.catalogNumber with
  | none =>
    refine reads_congr (reads_nothing fun page hp => ?_) (by simp) (by simp)
    obtain ⟨-, c, hc', -⟩ := (releasesByCatalogNumber_value hs).mp hp
    rw [hc] at hc'
    cases hc'
  | some c =>
    have hpage : ∀ page, s.releasesByCatalogNumber db.toTables lookup request = .value page ↔
        InRange lookup.labelID ∧ page = cutPage request.size ((relatedRows db.toTables
          (matchingCatalogNumber db.toTables lookup.labelID c) request).map releaseOf) :=
      fun page => by simp [releasesByCatalogNumber_value hs, hc, ha]
    exact reads_congr (reads_joined
      (matchingCatalogNumber_least db lookup.labelID c request.afterID request.fetchSize.toNat)
      (fun x hx => catalogNumberSet_known db hx) (fun _ => rfl) hpage) (by simp) (by simp)

theorem byIdentifier_reads (hs : 0 < request.size) (ha : InRange request.afterID)
    (lookup : IdentifierLookup) :
    Reads (Listing.matching db.toTables (.byIdentifier lookup))
      (Listing.Admissible db.toTables request (.byIdentifier lookup)) request
      (s.releasesByIdentifier db.toTables lookup request) := by
  simp only [Listing.matching, Listing.Admissible]
  cases ht : ofBytes lookup.type with
  | none =>
    refine reads_congr (reads_nothing fun page hp => ?_) (by simp) (by simp)
    obtain ⟨-, type, ht', -⟩ := (releasesByIdentifier_value hs).mp hp
    rw [ht] at ht'
    cases ht'
  | some type =>
    cases hv : ofBytes lookup.value with
    | none =>
      refine reads_congr (reads_nothing fun page hp => ?_) (by simp) (by simp)
      obtain ⟨-, _, -, value, hv', -⟩ := (releasesByIdentifier_value hs).mp hp
      rw [hv] at hv'
      cases hv'
    | some value =>
      have hpage : ∀ page, s.releasesByIdentifier db.toTables lookup request = .value page ↔
          True ∧ page = cutPage request.size ((relatedRows db.toTables
            (matchingIdentifier db.toTables type value) request).map releaseOf) :=
        fun page => by simp [releasesByIdentifier_value hs, ht, hv, ha]
      exact reads_congr (reads_joined
        (matchingIdentifier_least db type value request.afterID request.fetchSize.toNat)
        (fun x hx => identifierSet_known db hx) (fun _ => rfl) hpage) (by simp) (by simp)

/-- Every collection reads its pages from the set of its resources. -/
theorem Listing.reads (hs : 0 < request.size) (ha : InRange request.afterID) (l : Listing) :
    Reads (l.matching db.toTables) (l.Admissible db.toTables request) request
      (l.read s db.toTables request) := by
  cases l with
  | artists filter =>
    exact reads_scan db.canonical.artistKey.1 _ (fun _ => rfl) fun page => by
      rw [Listing.read, searchArtists_value hs, Listing.Admissible, and_iff_left ha]
  | labels filter =>
    exact reads_scan db.canonical.labelKey.1 _ (fun _ => rfl) fun page => by
      rw [Listing.read, searchLabels_value hs, Listing.Admissible, and_iff_left ha]
  | masters filter =>
    exact reads_scan db.canonical.masterKey.1 _ (fun _ => rfl) fun page => by
      rw [Listing.read, searchMasters_value hs, Listing.Admissible, and_iff_left ha]
  | releases filter =>
    exact reads_scan db.canonical.releaseKey.1 _ (fun _ => rfl) fun page => by
      rw [Listing.read, searchReleases_value hs, Listing.Admissible, and_iff_left ha]
  | artistReleases id =>
    exact reads_joined (matchingArtistReleases_least (artistCredits db) id _ _)
      (fun x hx => artistReleaseSet_known (artistCredits db) hx) (fun _ => rfl) fun page => by
        rw [Listing.read, artistReleases_value hs, Listing.Admissible, and_iff_left ha]
  | labelReleases id =>
    exact reads_joined (matchingLabelReleases_least db id _ _)
      (fun x hx => labelReleaseSet_known db hx) (fun _ => rfl) fun page => by
        rw [Listing.read, labelReleases_value hs, Listing.Admissible, and_iff_left ha]
  | masterReleases id =>
    have hpage : ∀ page, s.masterReleases db.toTables id request = .value page ↔
        Listing.Admissible db.toTables request (.masterReleases id) ∧
          page = cutPage request.size ((lookAheadRows (·.id) db.releaseItem
            (fun r => r.masterID = some id) request).map (masterReleaseOf s db.toTables)) :=
      fun page => by rw [masterReleases_value hs, Listing.Admissible, and_iff_right ha]
    exact reads_congr (reads_scan db.canonical.releaseKey.1 (fun r => r.masterID = some id)
      (fun _ => rfl) hpage) (by simp [Listing.matching]) Iff.rfl
  | byCatalogNumber lookup => exact byCatalogNumber_reads (s := s) hs ha lookup
  | byIdentifier lookup => exact byIdentifier_reads (s := s) hs ha lookup

end Reads

/-- Some page of the collection shows the resource. -/
def Listing.Shows (s : Store) (t : Tables) (l : Listing) (x : Int) : Prop :=
  ∃ (request : PageRequest) (page : Page l.Item), 0 < request.size ∧ InRange request.afterID ∧
    l.read s t request = .value page ∧ x ∈ page.items.map PageItem.pageID

theorem Listing.Shows.admissible {s : Store} {db : Database} {l : Listing} {x : Int}
    (h : l.Shows s db.toTables x) : ∃ request, l.Admissible db.toTables request := by
  obtain ⟨request, page, hsize, hafter, hread, -⟩ := h
  obtain ⟨items, -, hp⟩ := @Listing.reads s db request hsize hafter l
  exact ⟨request, ((hp page).mp hread).1⟩

/-- A page of one row after the identifier before shows any resource of the collection. -/
theorem Listing.shows_iff {s : Store} {db : Database} {l : Listing}
    (h : ∀ request, l.Admissible db.toTables request) {x : Int}
    (hx : 1 ≤ x ∧ x ≤ maximumInteger) :
    l.Shows s db.toTables x ↔ x ∈ l.matching db.toTables := by
  constructor
  · intro hparts
    obtain ⟨request, page, hsize, hafter, hread, hmem⟩ := hparts
    obtain ⟨item, hi, rfl⟩ := List.mem_map.mp hmem
    exact (Listing.reads (s := s) hsize hafter l).sound hread item hi
  · intro hm
    simp only [maximumInteger] at hx
    have hafter : InRange (x-1) := ⟨by omega, by omega⟩
    obtain ⟨items, hl, hp⟩ := @Listing.reads s db ⟨x-1, 1⟩ Int.one_pos hafter l
    refine ⟨⟨x-1, 1⟩, cutPage 1 items, Int.one_pos, hafter, (hp _).mpr ⟨h _, rfl⟩, ?_⟩
    -- nothing lies between the cursor and `x`, so a page of one row has no room for another
    have hone := hl.take (show 1 ≤ (PageRequest.fetchSize ⟨x-1, 1⟩).toNat from by
      simp [PageRequest.fetchSize])
    by_contra hn
    rw [cutPage, List.map_take] at hn
    have hin : x ∈ l.matching db.toTables ∩ {y | x-1 < y} := by
      refine ⟨hm, ?_⟩
      rw [Set.mem_ofPred_eq]
      omega
    obtain ⟨hlen, hlt⟩ := hone.complete x hin hn
    obtain ⟨y, hy⟩ := List.exists_mem_of_length_pos (Nat.lt_of_lt_of_eq Nat.one_pos hlen.symm)
    have hbelow := hlt y hy
    have habove : x-1 < y := (hone.sound y hy).2
    omega

/-- One page request of a client: the state it meets and the page size it asks for. -/
structure Visit where
  db : Database
  size : Nat
  allowed : 1 ≤ size ∧ size ≤ 30

/-- The paging parameters of a client that passes a cursor on, or has none yet. -/
def pageValues (cursor : Option Int) (size : Nat) : UrlQuery.Values :=
  (match cursor with
    | none => []
    | some k => [(lit parameterAfterID, Strconv.formatInt k)]) ++
    [(lit parameterSize, Strconv.formatInt size)]

/-- The page request of a cursor, as `parseCursorPage` builds it. -/
def pageRequest (cursor : Option Int) (size : Nat) : PageRequest where
  afterID := cursor.getD 0
  size := size

def replyOf {α : Type} (response : PageResponse α) : Reply Int α where
  items := response.items
  next := response.nextAfterID
  hasMore := response.hasMore

/-- A page request answered: its parameters parsed, the collection read, the page sent back. -/
def Listing.ask (s : Store) (l : Listing) (cursor : Option Int) (v : Visit) :
    Option (Reply Int l.Item) :=
  match parseCursorPage (pageValues cursor v.size) with
  | .error _ => none
  | .ok request => match l.read s v.db.toTables request with
    | .value page => some (replyOf (pageResponse page []))
    | _ => none

/-- The replies to a client that starts without a cursor and follows every cursor it is given. -/
def Listing.walk (s : Store) (l : Listing) (visits : List Visit) : List (Reply Int l.Item) :=
  replies (l.ask s) none visits

/-- The identifiers a client has received. -/
def ids {α : Type} [PageItem α] (rs : List (Reply Int α)) : List Int :=
  (received rs).map PageItem.pageID

/-- A cursor that the parser accepts, whatever page size comes with it. -/
def Accepted (k : Int) : Prop :=
  ∀ size, 1 ≤ size ∧ size ≤ 30 →
    parseCursorPage (pageValues (some k) size) = .ok (pageRequest (some k) size)

/-- What a keyset walk promises its client. -/
structure KeysetWalk (s : Store) (l : Listing) (visits : List Visit) : Prop where
  ascending : (ids (l.walk s visits)).Pairwise (· < ·)
  complete : Ended (l.walk s visits) visits →
    ∀ x, (∀ v ∈ visits, x ∈ l.matching v.db.toTables) → (ids (l.walk s visits)).count x = 1
  cursors : ∀ reply ∈ l.walk s visits, reply.next.isSome = reply.hasMore ∧
    ∀ k ∈ reply.next, Accepted k
  pages : ∀ (db : Database) (size : Nat), (∀ v ∈ visits, v.db = db ∧ v.size = size) →
    pageCount (l.matching db.toTables).ncard size ≤ visits.length →
    (l.walk s visits).length = pageCount (l.matching db.toTables).ncard size

/-- The identifiers that a cursor can be: those of the canonical schema. -/
def Legal (cursor : Option Int) : Prop := ∀ k ∈ cursor, 1 ≤ k ∧ k ≤ maximumInteger

theorem parseCursorPage_pageValues {cursor : Option Int} (hc : Legal cursor) {size : Nat}
    (hs : 1 ≤ size ∧ size ≤ 30) :
    parseCursorPage (pageValues cursor size) = .ok (pageRequest cursor size) := by
  have hsize : parseBoundedInt (Strconv.formatInt size) defaultPageSize 1 maximumPageSize
      parameterSize = .ok (size : Int) :=
    parseBoundedInt_written (by simp only [maximumPageSize]; omega) (by omega) _ _
  cases cursor with
  | none =>
    have hg : get (pageValues none size) parameterSize = Strconv.formatInt size := rfl
    rw [parseCursorPage, hg, hsize]
    rfl
  | some k =>
    have hk := hc k rfl
    simp only [maximumInteger] at hk
    have hafter : parseBoundedInt64 (Strconv.formatInt k) 0 0 maximumResourceID parameterAfterID =
        .ok k := parseBoundedInt64_written (by simp only [maximumResourceID]; omega) (by omega) _ _
    have hg : get (pageValues (some k) size) parameterSize = Strconv.formatInt size := rfl
    have ha : get (pageValues (some k) size) parameterAfterID = Strconv.formatInt k := rfl
    rw [parseCursorPage, hg, ha, hafter, hsize]
    rfl

/-- Resources have the identifiers of rows, so their cursors are legal. -/
theorem Listing.matching_legal (db : Database) (l : Listing) {x : Int}
    (hx : x ∈ l.matching db.toTables) : 1 ≤ x ∧ x ≤ maximumInteger := by
  have hr := db.canonical.releaseKey.2
  cases l with
  | artists filter =>
    obtain ⟨a, ha, -, rfl⟩ := hx
    exact db.canonical.artistKey.2 _ (List.mem_map_of_mem ha)
  | labels filter =>
    obtain ⟨a, ha, -, rfl⟩ := hx
    exact db.canonical.labelKey.2 _ (List.mem_map_of_mem ha)
  | masters filter =>
    obtain ⟨a, ha, -, rfl⟩ := hx
    exact db.canonical.masterKey.2 _ (List.mem_map_of_mem ha)
  | releases filter =>
    obtain ⟨a, ha, -, rfl⟩ := hx
    exact hr _ (List.mem_map_of_mem ha)
  | artistReleases id => exact hr x (artistReleaseSet_known (artistCredits db) hx)
  | labelReleases id => exact hr x (labelReleaseSet_known db hx)
  | masterReleases id =>
    obtain ⟨a, ha, -, rfl⟩ := hx
    exact hr _ (List.mem_map_of_mem ha)
  | byCatalogNumber lookup =>
    obtain ⟨c, -, hx⟩ := hx
    exact hr x (catalogNumberSet_known db hx)
  | byIdentifier lookup =>
    obtain ⟨type, -, value, -, hx⟩ := hx
    exact hr x (identifierSet_known db hx)

section Client
variable {s : Store} {l : Listing}

/-- A page request is answered exactly when it is admissible, and then as a paged read owes it. -/
theorem Listing.ask_serves {cursor : Option Int} (hc : Legal cursor) (v : Visit) :
    ((l.ask s cursor v).isSome ↔
      l.Admissible v.db.toTables (pageRequest cursor v.size)) ∧
    ∀ reply, l.ask s cursor v = some reply →
      Serves PageItem.pageID (l.matching v.db.toTables) v.size cursor reply := by
  have hsize : 0 < (pageRequest cursor v.size).size := by
    have := v.allowed
    simp only [pageRequest]
    omega
  have hafter : InRange (pageRequest cursor v.size).afterID := by
    cases cursor with
    | none => exact ⟨by simp [pageRequest], by simp [pageRequest]⟩
    | some k =>
      have hk := hc k rfl
      simp only [maximumInteger] at hk
      simp only [InRange, pageRequest, Option.getD_some]
      omega
  obtain ⟨items, hl, hr⟩ : Reads (l.matching v.db.toTables)
      (l.Admissible v.db.toTables (pageRequest cursor v.size)) (pageRequest cursor v.size)
      (l.read s v.db.toTables (pageRequest cursor v.size)) := Listing.reads hsize hafter l
  have hset : l.matching v.db.toTables ∩ {x | (pageRequest cursor v.size).afterID < x} =
      l.matching v.db.toTables ∩ beyond cursor := by
    ext x
    refine and_congr_right fun hx => ?_
    have hpos := (l.matching_legal v.db hx).1
    cases cursor with
    | none => simp [pageRequest]; omega
    | some k => simp [pageRequest]
  have hfetch : (pageRequest cursor v.size).fetchSize.toNat = v.size+1 := by
    simp only [PageRequest.fetchSize, pageRequest]
    omega
  rw [hset, hfetch] at hl
  unfold Listing.ask
  rw [parseCursorPage_pageValues hc v.allowed]
  constructor
  · constructor
    · intro h
      cases hread : l.read s v.db.toTables (pageRequest cursor v.size) with
      | value page => exact ((hr page).mp hread).1
      | error e => simp [hread] at h
      | panic => simp [hread] at h
    · intro h
      have hread := (hr _).mpr ⟨h, rfl⟩
      simp only [hread, Option.isSome_some]
  · intro reply hreply
    cases hread : l.read s v.db.toTables (pageRequest cursor v.size) with
    | value page =>
      obtain ⟨-, rfl⟩ := (hr page).mp hread
      simp only [hread, Option.some.injEq] at hreply
      subst hreply
      have hnat : (pageRequest cursor v.size).size.toNat = v.size := by simp [pageRequest]
      refine ⟨⟨_, hl, ?_, ?_⟩, ?_⟩
      · simp [replyOf, pageResponse, cutPage, hnat, List.map_take]
      · simp [replyOf, pageResponse, cutPage, hnat]
      · simp only [replyOf, pageResponse, Page.nextAfterID, nextAfter_eq]
    | error e => simp [hread] at hreply
    | panic => simp [hread] at hreply

/-- Every cursor a walk sends back is legal. -/
theorem Listing.requests_legal (visits : List Visit) :
    ∀ request ∈ requests (l.ask s) none visits, Legal request.1 := by
  refine requests_inv (by simp [Legal]) fun c v reply hc hr k hk => ?_
  exact l.matching_legal v.db (((l.ask_serves hc v).2 reply hr).next_mem hk).1

/-- Admissible requests are served from the states they meet. -/
theorem Listing.served {visits : List Visit}
    (h : ∀ request ∈ requests (l.ask s) none visits,
      l.Admissible request.2.db.toTables (pageRequest request.1 request.2.size)) :
    Served (l.ask s) PageItem.pageID (fun v => l.matching v.db.toTables) Visit.size none visits := by
  intro request hq
  obtain ⟨hsome, hserves⟩ := l.ask_serves (s := s) (Listing.requests_legal visits request hq) request.2
  obtain ⟨reply, hr⟩ := Option.isSome_iff_exists.mp (hsome.mpr (h request hq))
  exact ⟨reply, hr, hserves reply hr⟩

/-- The resources of a collection, in ascending order. -/
theorem Listing.exists_ascending (db : Database) (l : Listing) :
    ∃ all : List Int, all.Pairwise (· < ·) ∧ (∀ x, x ∈ all ↔ x ∈ l.matching db.toTables) ∧
      all.length = (l.matching db.toTables).ncard := by
  have hfin : (l.matching db.toTables).Finite :=
    (Set.finite_Icc 1 maximumInteger).subset fun x hx => l.matching_legal db hx
  refine ⟨hfin.toFinset.sort (· ≤ ·), Finset.sortedLT_sort _ |>.pairwise, fun x => by simp, ?_⟩
  rw [Finset.length_sort, Set.ncard_eq_toFinset_card _ hfin]

/-- A walk that the service ends has received every resource that all the states have. -/
theorem Listing.walk_covers {visits : List Visit}
    (h : ∀ request ∈ requests (l.ask s) none visits,
      l.Admissible request.2.db.toTables (pageRequest request.1 request.2.size))
    (he : Ended (l.walk s visits) visits) {x : Int}
    (hx : ∀ v ∈ visits, x ∈ l.matching v.db.toTables) : x ∈ ids (l.walk s visits) :=
  (Listing.served h).covers (fun v _ => v.allowed.1)
    (finished_of_ended (Listing.served h).isSome he) (by simp) hx

section Constant
variable {db : Database} {visits : List Visit}

theorem Listing.admissible_constant (hdb : ∀ v ∈ visits, v.db = db)
    (ha : ∀ request, l.Admissible db.toTables request) :
    ∀ request ∈ requests (l.ask s) none visits,
      l.Admissible request.2.db.toTables (pageRequest request.1 request.2.size) := by
  intro request hq
  rw [hdb _ (visit_of_request hq)]
  exact ha _

/-- Over one state, an ended walk receives the collection and nothing else. -/
theorem Listing.mem_walk (hdb : ∀ v ∈ visits, v.db = db)
    (ha : ∀ request, l.Admissible db.toTables request) (he : Ended (l.walk s visits) visits)
    {x : Int} : x ∈ ids (l.walk s visits) ↔ x ∈ l.matching db.toTables := by
  have hadmissible := Listing.admissible_constant (s := s) hdb ha
  constructor
  · intro hx
    obtain ⟨v, hv, hmem⟩ := (Listing.served hadmissible).sound (fun v _ => v.allowed.1) hx
    rwa [hdb v hv] at hmem
  · intro hx
    exact Listing.walk_covers hadmissible he fun v hv => (hdb v hv).symm ▸ hx

theorem Listing.walk_nodup (hdb : ∀ v ∈ visits, v.db = db)
    (ha : ∀ request, l.Admissible db.toTables request) : (ids (l.walk s visits)).Nodup :=
  ((Listing.served (Listing.admissible_constant (s := s) hdb ha)).ascending
    fun v _ => v.allowed.1).imp ne_of_lt

/-- What is received was on a page that was read. -/
theorem Listing.walk_item (hdb : ∀ v ∈ visits, v.db = db) {item : l.Item}
    (hi : item ∈ received (l.walk s visits)) : ∃ (request : PageRequest) (page : Page l.Item),
      0 < request.size ∧ l.read s db.toTables request = .value page ∧ item ∈ page.items := by
  obtain ⟨reply, hreply, hitem⟩ := List.mem_flatMap.mp hi
  obtain ⟨request, hq, hr⟩ := mem_replies.mp hreply
  rw [Listing.ask, parseCursorPage_pageValues (Listing.requests_legal visits request hq)
    request.2.allowed, hdb _ (visit_of_request hq)] at hr
  have hsize : 0 < (pageRequest request.1 request.2.size).size := by
    have := request.2.allowed
    simp only [pageRequest]
    omega
  cases hread : l.read s db.toTables (pageRequest request.1 request.2.size) with
  | value page =>
    simp only [hread, Option.some.injEq] at hr
    subst hr
    exact ⟨_, page, hsize, hread, hitem⟩
  | error e => simp [hread] at hr
  | panic => simp [hread] at hr

end Constant

/-- A walk all of whose page requests are admissible keeps every promise of a keyset walk,
whatever is committed between its requests. -/
theorem keyset_walk (s : Store) (l : Listing) (visits : List Visit)
    (h : ∀ request ∈ requests (l.ask s) none visits,
      l.Admissible request.2.db.toTables (pageRequest request.1 request.2.size)) :
    KeysetWalk s l visits := by
  have hserved := Listing.served h
  have hpos : ∀ v ∈ visits, 0 < v.size := fun v _ => v.allowed.1
  have hascending := hserved.ascending hpos
  refine ⟨hascending, ?_, ?_, ?_⟩
  · intro he x hx
    exact List.count_eq_one_of_mem (hascending.imp ne_of_lt) (Listing.walk_covers h he hx)
  · intro reply hreply
    obtain ⟨request, hq, hr⟩ := mem_replies.mp hreply
    have hc := Listing.requests_legal visits request hq
    have hs := (l.ask_serves hc request.2).2 reply hr
    refine ⟨hs.next_isSome request.2.allowed.1, fun k hk size hsize => ?_⟩
    refine parseCursorPage_pageValues (fun j hj => ?_) hsize
    cases hj
    exact l.matching_legal request.2.db (hs.next_mem hk).1
  · intro db size hconst hlen
    cases visits with
    | nil =>
      have : 1 ≤ pageCount (l.matching db.toTables).ncard size := by simp [pageCount]
      simp only [List.length_nil] at hlen
      omega
    | cons v rest =>
      obtain ⟨all, hall, hmem, hcard⟩ := l.exists_ascending db
      have hsize : 0 < size := by
        have := (hconst v (by simp)).2
        have := v.allowed
        omega
      rw [← hcard] at hlen ⊢
      refine (hserved.constant hsize (T := l.matching db.toTables) (fun w hw => ?_) hall
        (fun x => by simp [hmem]) hlen).2
      obtain ⟨hdb, hsz⟩ := hconst w hw
      exact ⟨by rw [hdb], hsz⟩

end Client

/-- Two artists of whom a search for "bob" finds one, and a third who is imported later. -/
def twoArtists : Database where
  server := cLocale
  artist := [{ id := 1, name := some (Text.of "Bobby") }, { id := 2, name := some (Text.of "Ann") }]
  canonical := by decide

def threeArtists : Database where
  server := cLocale
  artist := [{ id := 3, name := some (Text.of "Bob") }, { id := 1, name := some (Text.of "Bobby") }]
  canonical := by decide

theorem keyset_walk_bob : KeysetWalk localStore (.artists ⟨lit "bob", []⟩)
    [⟨threeArtists, 1, by decide⟩, ⟨twoArtists, 30, by decide⟩] :=
  keyset_walk _ _ _ fun _ _ => ⟨by decide, by decide⟩

/-- One release of one master, by an artist without a name. -/
def unnamedArtist : Database where
  server := cLocale
  artist := [{ id := 1 }]
  releaseItem := [{ id := 1, masterID := some 1 }]
  releaseItemArtist := [{ artistID := 1, releaseItemID := 1 }]
  canonical := by decide

/-- The only page of the master's releases is not answered: its array of artist names holds a null,
which the scan refuses. -/
theorem keyset_walk_unnamed :
    ¬KeysetWalk localStore (.masterReleases 1) [⟨unnamedArtist, 20, by decide⟩] := by
  intro h
  have hlength : (Listing.walk localStore (.masterReleases 1)
      [⟨unnamedArtist, 20, by decide⟩]).length < 1 := by decide
  have hone := h.complete (Or.inr hlength) 1 (by simp [Listing.matching, unnamedArtist])
  exact absurd hone (by decide)

end OpenDiscogs
