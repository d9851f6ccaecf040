import OpenDiscogs.Postgres.DetailReads
import OpenDiscogs.Walk

/-! One relation in two views: from the release that its rows belong to, and from the artist or the
label. -/
namespace OpenDiscogs
open Utf8 SqlText Catalog HttpApi Postgres Rows Keyset

/-- The fields that the detail of a release shares with the item of a listing. -/
def detailFields (detail : ReleaseDetail) : Release where
  id := detail.id
  title := detail.title
  country := detail.country
  dataQuality := detail.dataQuality
  releasedYear := detail.releasedYear
  releasedMonth := detail.releasedMonth
  releasedDay := detail.releasedDay
  listedReleaseDate := detail.listedReleaseDate
  isMaster := detail.isMaster
  masterID := detail.masterID
  notes := detail.notes
  status := detail.status

def itemFields (item : ArtistRelease) : Release where
  id := item.id
  title := item.title
  country := item.country
  dataQuality := item.dataQuality
  releasedYear := item.releasedYear
  releasedMonth := item.releasedMonth
  releasedDay := item.releasedDay
  listedReleaseDate := item.listedReleaseDate
  isMaster := item.isMaster
  masterID := item.masterID
  notes := item.notes
  status := item.status

/-- The roles an artist has on a release, trimmed; a main artist's role is `Main`. -/
def rolesOf (t : Tables) (artistID releaseID : Int) : Set Text :=
  {x | (x = mainRole ∧ ∃ r ∈ t.releaseItemArtist, r.artistID = artistID ∧ r.releaseItemID = releaseID) ∨
    ∃ r ∈ t.releaseItemCreditedArtist, r.artistID = artistID ∧ r.releaseItemID = releaseID ∧
      r.role.map Text.trim = some x}

/-- A set of texts as one text: sorted, each once, and with commas between; or none for no text. -/
def Joined (server : Server) (texts : Set Text) (joined : Option Text) : Prop :=
  ∃ l : List Text, l.Pairwise server.order.lt ∧ (∀ x, x ∈ l ↔ x ∈ texts) ∧
    joined = if l = [] then none else some (commaJoin l)

theorem stringAgg_joined (server : Server) (xs : List (Option Text)) :
    Joined server {x | some x ∈ xs} (stringAgg server xs) := by
  refine ⟨sortedDistinct server (xs.filterMap id),
    @Rows.distinct_ascending Text server.order _, fun x => by simp, ?_⟩
  rw [stringAgg]
  cases sortedDistinct server (xs.filterMap id) with
  | nil => rfl
  | cons x l => rfl

theorem aggregateRoles_joined (t : Tables) (artistID releaseID : Int) :
    Joined t.server (rolesOf t artistID releaseID)
      (aggregateRoles t.server (relatedRoles t artistID releaseID)) := by
  have hset : {x | some x ∈ (relatedRoles t artistID releaseID).map (·.map Text.trim)} =
      rolesOf t artistID releaseID := by
    ext x
    have htrim : Text.trim mainRole = mainRole := rfl
    simp only [relatedRoles, rolesOf, List.map_append, List.map_map, Set.mem_ofPred_eq,
      List.mem_append, List.mem_map, List.mem_filter, Bool.and_eq_true, decide_eq_true_eq,
      Function.comp_apply, Option.map_some, Option.some.injEq, htrim, and_assoc]
    refine or_congr ⟨?_, ?_⟩ Iff.rfl
    · intro h
      obtain ⟨r, hr, ha, hx, rfl⟩ := h
      exact ⟨rfl, r, hr, ha, hx⟩
    · intro h
      obtain ⟨rfl, r, hr, ha, hx⟩ := h
      exact ⟨r, hr, ha, hx, rfl⟩
  rw [← hset]
  exact stringAgg_joined _ _

section Artists
variable {s : Store} {db : Database} {visits : List Visit} {artistID : Int}

theorem known_inRange {ids : List Int} (hk : ResourceKey ids) {id : Int} (h : id ∈ ids) :
    InRange id := by
  have hid := hk.2 id h
  simp only [maximumInteger] at hid
  exact ⟨by omega, by omega⟩

/-- An item among the releases of an artist is that of a release row. -/
theorem artistRelease_row (hdb : ∀ v ∈ visits, v.db = db) {item : ArtistRelease}
    (hi : item ∈ received (Listing.walk s (.artistReleases artistID) visits)) :
    ∃ r ∈ db.releaseItem, item = artistReleaseOf s db.toTables artistID r := by
  obtain ⟨request, page, hsize, hread, hitem⟩ := Listing.walk_item hdb hi
  obtain ⟨-, rfl⟩ := (artistReleases_value (s := s) hsize).mp hread
  obtain ⟨r, hr, rfl⟩ := List.mem_map.mp (List.mem_of_mem_take hitem)
  exact ⟨r, (mem_join.mp hr).1, rfl⟩

/-- How the releases of an artist and the artists of a release agree. -/
structure ArtistViews (t : Tables) (artistID : Int) (detail : ReleaseDetail)
    (items : List ArtistRelease) : Prop where
  both : artistID ∈ detail.artists.map (·.id) ↔ detail.id ∈ items.map (·.id)
  onceThere : artistID ∈ detail.artists.map (·.id) →
    (detail.artists.map (·.id)).count artistID = 1
  onceHere : detail.id ∈ items.map (·.id) → (items.map (·.id)).count detail.id = 1
  agree : ∀ entry ∈ detail.artists, entry.id = artistID → ∀ item ∈ items, item.id = detail.id →
    entry.role = item.role ∧ Joined t.server (rolesOf t artistID detail.id) item.role ∧
      detailFields detail = itemFields item

/-- An artist's credit on a release is the same in both views. -/
theorem artist_views_agree (s : Store) (db : Database) {artistID releaseID : Int}
    (ha : artistID ∈ db.artist.map (·.id)) (hr : releaseID ∈ db.releaseItem.map (·.id))
    (visits : List Visit) (hdb : ∀ v ∈ visits, v.db = db)
    (he : Ended (Listing.walk s (.artistReleases artistID) visits) visits) :
    ∃ detail, s.release db.toTables releaseID = .value detail ∧
      ArtistViews db.toTables artistID detail
        (received (Listing.walk s (.artistReleases artistID) visits)) := by
  obtain ⟨row, hrow, rfl⟩ := List.mem_map.mp hr
  have hadmissible : ∀ request, (Listing.artistReleases artistID).Admissible db.toTables request :=
    fun _ => known_inRange db.canonical.artistKey ha
  refine ⟨_, release_value hrow, ?_, ?_, ?_, ?_⟩
  · have hwalk := Listing.mem_walk (s := s) hdb hadmissible he (x := row.id)
    rw [List.mem_map]
    exact mem_releaseArtists.trans hwalk.symm
  · exact fun h => List.count_eq_one_of_mem releaseArtists_nodup h
  · exact fun h => List.count_eq_one_of_mem (Listing.walk_nodup (s := s) hdb hadmissible) h
  · intro entry hentry hid item hitem hsame
    obtain ⟨row', hrow', rfl⟩ := artistRelease_row hdb hitem
    have heq : row' = row := List.inj_on_of_nodup_map (releaseKeys db) hrow' hrow hsame
    subst heq
    subst hid
    exact ⟨releaseArtists_role hentry, aggregateRoles_joined db.toTables _ _, rfl⟩

/-- An artist with a main row, a padded, a repeated and a missing role on a release, and one with
a missing role only. -/
def creditedArtists : Database where
  server := cLocale
  artist := [{ id := 1, name := some (Text.of "Cleo") }, { id := 2 }]
  releaseItem := [{ id := 7, title := some (Text.of "One") }, { id := 8 }]
  releaseItemArtist := [⟨1, 7⟩]
  releaseItemCreditedArtist := [⟨1, 7, some (Text.of " Voice ")⟩, ⟨1, 7, none⟩,
    ⟨1, 7, some (Text.of "Voice")⟩, ⟨2, 7, none⟩]
  canonical := by decide

theorem artist_views_agree_credited :
    ∃ detail, localStore.release creditedArtists.toTables 7 = .value detail ∧
      ArtistViews creditedArtists.toTables 1 detail
        (received (Listing.walk localStore (.artistReleases 1) [⟨creditedArtists, 1, by decide⟩])) :=
  artist_views_agree localStore creditedArtists (by decide) (by decide) _
    (fun _ hv => by rw [List.mem_singleton.mp hv]) (by decide)

end Artists

section Labels
variable {s : Store} {db : Database} {visits : List Visit} {labelID : Int}

theorem labelRelease_row (hdb : ∀ v ∈ visits, v.db = db) {item : LabelRelease}
    (hi : item ∈ received (Listing.walk s (.labelReleases labelID) visits)) :
    ∃ r ∈ db.releaseItem, item = labelReleaseOf db.toTables labelID r := by
  obtain ⟨request, page, hsize, hread, hitem⟩ := Listing.walk_item hdb hi
  obtain ⟨-, rfl⟩ := (labelReleases_value (s := s) hsize).mp hread
  obtain ⟨r, hr, rfl⟩ := List.mem_map.mp (List.mem_of_mem_take hitem)
  exact ⟨r, (mem_join.mp hr).1, rfl⟩

theorem mem_catalogNumbers {t : Tables} {releaseID : Int} {c : Text} :
    c ∈ catalogNumbers t labelID releaseID ↔ releaseID ∈ catalogNumberSet t labelID c := by
  simp only [catalogNumbers, mem_sortedDistinct, List.mem_filterMap, List.mem_filter,
    Bool.and_eq_true, decide_eq_true_eq, catalogNumberSet, Set.mem_ofPred_eq]
  constructor
  · intro h
    obtain ⟨r, ⟨hr, hl, hx⟩, hc⟩ := h
    exact ⟨r, hr, ⟨hl, hc⟩, hx⟩
  · intro h
    obtain ⟨r, hr, ⟨hl, hc⟩, hx⟩ := h
    exact ⟨r, ⟨hr, hl, hx⟩, hc⟩

theorem catalogNumberSet_label {t : Tables} {c : Text} {x : Int}
    (hx : x ∈ catalogNumberSet t labelID c) : x ∈ labelReleaseSet t labelID := by
  obtain ⟨r, hr, ⟨hl, -⟩, hid⟩ := hx
  exact ⟨r, hr, hl, hid⟩

/-- A lookup that is not legal text finds nothing, and no stored text has its bytes. -/
theorem mem_lookup_walk (hdb : ∀ v ∈ visits, v.db = db) (hl : InRange labelID) {c : Bytes}
    (he : Ended (Listing.walk s (.byCatalogNumber ⟨labelID, c⟩) visits) visits) {x : Int} :
    x ∈ ids (Listing.walk s (.byCatalogNumber ⟨labelID, c⟩) visits) ↔
      ∃ text : Text, text.bytes = c ∧ x ∈ catalogNumberSet db.toTables labelID text := by
  cases hc : ofBytes c with
  | none =>
    constructor
    · intro hx
      obtain ⟨item, hi, -⟩ := List.mem_map.mp hx
      obtain ⟨request, page, hsize, hread, -⟩ := Listing.walk_item hdb hi
      obtain ⟨-, text, htext, -⟩ := (releasesByCatalogNumber_value (s := s) hsize).mp hread
      cases hc.symm.trans htext
    · intro h
      obtain ⟨text, rfl, -⟩ := h
      rw [ofBytes_bytes] at hc
      cases hc
  | some text =>
    have hadmissible : ∀ request,
        (Listing.byCatalogNumber ⟨labelID, c⟩).Admissible db.toTables request :=
      fun _ => ⟨hl, by rw [hc]; rfl⟩
    rw [Listing.mem_walk hdb hadmissible he]
    constructor
    · intro h
      obtain ⟨text', htext, hx⟩ := h
      exact ⟨text', (ofBytes_some htext).symm, hx⟩
    · intro h
      obtain ⟨text', rfl, hx⟩ := h
      exact ⟨text', ofBytes_bytes text', hx⟩

/-- How the releases of a label, the labels of a release and the lookup by a catalog number
agree. -/
structure LabelViews (t : Tables) (labelID : Int) (detail : ReleaseDetail)
    (items : List LabelRelease) (found : List Release) (c : Bytes) : Prop where
  both : detail.id ∈ items.map (·.id) ↔ ∃ entry ∈ detail.labels, entry.id = labelID
  once : detail.id ∈ items.map (·.id) → (items.map (·.id)).count detail.id = 1
  sorted : ∀ item ∈ items, item.catalogNumbers.Pairwise t.server.order.lt
  lossless : ∀ item ∈ items, item.id = detail.id → ∀ text, text ∈ item.catalogNumbers ↔
    ∃ entry ∈ detail.labels, entry.id = labelID ∧ entry.categoryNotation = some text
  lookup : detail.id ∈ found.map (·.id) ↔
    ∃ item ∈ items, item.id = detail.id ∧ ∃ text ∈ item.catalogNumbers, text.bytes = c

/-- A label's releases and their catalog numbers are the same in all three views. -/
theorem label_views_agree (s : Store) (db : Database) {labelID releaseID : Int}
    (hl : labelID ∈ db.label.map (·.id)) (hr : releaseID ∈ db.releaseItem.map (·.id)) (c : Bytes)
    (visits lookups : List Visit) (hdb : ∀ v ∈ visits, v.db = db) (hdb' : ∀ v ∈ lookups, v.db = db)
    (he : Ended (Listing.walk s (.labelReleases labelID) visits) visits)
    (he' : Ended (Listing.walk s (.byCatalogNumber ⟨labelID, c⟩) lookups) lookups) :
    ∃ detail, s.release db.toTables releaseID = .value detail ∧
      LabelViews db.toTables labelID detail
        (received (Listing.walk s (.labelReleases labelID) visits))
        (received (Listing.walk s (.byCatalogNumber ⟨labelID, c⟩) lookups)) c := by
  obtain ⟨row, hrow, rfl⟩ := List.mem_map.mp hr
  have hrange := known_inRange db.canonical.labelKey hl
  have hadmissible : ∀ request, (Listing.labelReleases labelID).Admissible db.toTables request :=
    fun _ => hrange
  have hwalk := Listing.mem_walk (s := s) hdb hadmissible he (x := row.id)
  have hfound := mem_lookup_walk hdb' hrange he' (x := row.id)
  refine ⟨_, release_value hrow, ?_, ?_, ?_, ?_, ?_⟩
  · exact hwalk.trans mem_releaseLabels_id.symm
  · exact fun h => List.count_eq_one_of_mem (Listing.walk_nodup (s := s) hdb hadmissible) h
  · intro item hitem
    obtain ⟨row', -, rfl⟩ := labelRelease_row hdb hitem
    exact @Rows.distinct_ascending Text db.server.order _
  · intro item hitem hsame text
    obtain ⟨row', -, rfl⟩ := labelRelease_row hdb hitem
    have hid : row'.id = row.id := hsame
    exact mem_catalogNumbers.trans (hid ▸ mem_releaseLabels_catno.symm)
  · refine hfound.trans ⟨?_, ?_⟩
    · intro hparts
      obtain ⟨text, hbytes, hx⟩ := hparts
      obtain ⟨item, hitem, hid⟩ := List.mem_map.mp (hwalk.mpr (catalogNumberSet_label hx))
      obtain ⟨row', -, rfl⟩ := labelRelease_row hdb hitem
      have hid' : row'.id = row.id := hid
      exact ⟨_, hitem, hid, text, mem_catalogNumbers.mpr (hid'.symm ▸ hx), hbytes⟩
    · intro hparts
      obtain ⟨item, hitem, hid, text, htext, hbytes⟩ := hparts
      obtain ⟨row', -, rfl⟩ := labelRelease_row hdb hitem
      have hid' : row'.id = row.id := hid
      exact ⟨text, hbytes, hid' ▸ mem_catalogNumbers.mp htext⟩

/-- A release with two catalog numbers, a missing one and one of another label; and one with none. -/
def numberedReleases : Database where
  server := cLocale
  label := [{ id := 3 }, { id := 4 }]
  releaseItem := [{ id := 7 }, { id := 8 }]
  labelReleaseItem := [⟨3, 7, some (Text.of "B-2")⟩, ⟨3, 7, none⟩, ⟨4, 7, some (Text.of "X")⟩,
    ⟨3, 7, some (Text.of "A 1")⟩, ⟨3, 8, none⟩]
  canonical := by decide

theorem label_views_agree_numbered :
    ∃ detail, localStore.release numberedReleases.toTables 7 = .value detail ∧
      LabelViews numberedReleases.toTables 3 detail
        (received (Listing.walk localStore (.labelReleases 3)
          [⟨numberedReleases, 1, by decide⟩, ⟨numberedReleases, 1, by decide⟩]))
        (received (Listing.walk localStore (.byCatalogNumber ⟨3, lit "A 1"⟩)
          [⟨numberedReleases, 1, by decide⟩])) (lit "A 1") :=
  label_views_agree localStore numberedReleases (by decide) (by decide) (lit "A 1") _ _
    (by simp) (by simp) (by decide) (by decide)

end Labels

end OpenDiscogs
