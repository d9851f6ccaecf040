import OpenDiscogs.Postgres.Details
import OpenDiscogs.Postgres.RelatedReads

/-! What the query for one release reads: the row of the release, the artists and the labels. -/
namespace OpenDiscogs.Postgres
open Utf8 SqlText Calendar Catalog Rows

section Artists
variable {t : Tables} {releaseID artistID : Int}

/-- The roles that an artist has on a release are those of the artist among the roles of the
release, whichever of the two the relation is read for. -/
theorem mem_relatedRoles {role : Option Text} :
    role ∈ relatedRoles t artistID releaseID ↔ (artistID, role) ∈ artistRelations t releaseID := by
  simp only [relatedRoles, artistRelations, List.mem_append, List.mem_map, List.mem_filter,
    Bool.and_eq_true, decide_eq_true_eq, Prod.mk.injEq]
  constructor
  · intro h
    obtain ⟨r, ⟨hr, ha, hx⟩, rfl⟩ | ⟨r, ⟨hr, ha, hx⟩, rfl⟩ := h
    · exact Or.inl ⟨r, ⟨hr, hx⟩, ha, rfl⟩
    · exact Or.inr ⟨r, ⟨hr, hx⟩, ha, rfl⟩
  · intro h
    obtain ⟨r, ⟨hr, hx⟩, ha, rfl⟩ | ⟨r, ⟨hr, hx⟩, ha, rfl⟩ := h
    · exact Or.inl ⟨r, ⟨hr, ha, hx⟩, rfl⟩
    · exact Or.inr ⟨r, ⟨hr, ha, hx⟩, rfl⟩

theorem mem_joinedArtists {key : Int × Option Text} {role : Option Text} :
    (key, role) ∈ joinedArtists t releaseID ↔ (key.1, role) ∈ artistRelations t releaseID ∧
      ∃ artist ∈ t.artist, (artist.id, artist.name) = key := by
  simp only [joinedArtists, List.mem_flatMap, List.mem_map, List.mem_filter, decide_eq_true_eq,
    Prod.mk.injEq, Prod.exists]
  constructor
  · intro h
    obtain ⟨i, role', hrel, artist, ⟨hartist, rfl⟩, rfl, rfl⟩ := h
    exact ⟨hrel, artist, hartist, rfl⟩
  · intro h
    obtain ⟨hrel, artist, hartist, rfl⟩ := h
    exact ⟨artist.id, role, hrel, artist, ⟨hartist, rfl⟩, rfl, rfl⟩

theorem mem_groups {key : Int × Option Text} :
    key ∈ ((joinedArtists t releaseID).map (·.1)).dedup ↔
      ∃ role, (key, role) ∈ joinedArtists t releaseID := by
  rw [List.mem_dedup, List.mem_map]
  exact ⟨fun ⟨⟨_, role⟩, h, he⟩ => ⟨role, he ▸ h⟩, fun ⟨role, h⟩ => ⟨(key, role), h, rfl⟩⟩

/-- An artist is on a release exactly when it has roles there. -/
theorem mem_artistReleaseSet : releaseID ∈ artistReleaseSet t artistID ↔
    ∃ role, (artistID, role) ∈ artistRelations t releaseID := by
  simp only [artistReleaseSet, artistRelations, Set.mem_ofPred_eq, List.mem_append, List.mem_map,
    List.mem_filter, decide_eq_true_eq, Prod.mk.injEq]
  constructor
  · intro h
    obtain ⟨r, hr, ha, hx⟩ | ⟨r, hr, ha, hx⟩ := h
    · exact ⟨_, Or.inl ⟨r, ⟨hr, hx⟩, ha, rfl⟩⟩
    · exact ⟨_, Or.inr ⟨r, ⟨hr, hx⟩, ha, rfl⟩⟩
  · intro h
    obtain ⟨role, ⟨r, ⟨hr, hx⟩, ha, -⟩ | ⟨r, ⟨hr, hx⟩, ha, -⟩⟩ := h
    · exact Or.inl ⟨r, hr, ha, hx⟩
    · exact Or.inr ⟨r, hr, ha, hx⟩

end Artists

section Groups
variable {db : Database} {serverURL : Text} {releaseID artistID : Int}

theorem known_artist {role : Option Text} (h : (artistID, role) ∈ artistRelations db.toTables releaseID) :
    ∃ artist ∈ db.artist, artist.id = artistID := by
  simp only [artistRelations, List.mem_append, List.mem_map, Prod.mk.injEq] at h
  obtain ⟨r, hr, rfl, -⟩ | ⟨r, hr, rfl, -⟩ := h
  · exact List.mem_map.mp (db.canonical.artistArtist _
      (List.mem_map_of_mem (List.mem_filter.mp hr).1))
  · exact List.mem_map.mp (db.canonical.creditedArtist _
      (List.mem_map_of_mem (List.mem_filter.mp hr).1))

/-- One entry for each artist of the release. -/
theorem mem_releaseArtists : (∃ entry ∈ releaseArtistsSQL db.toTables serverURL releaseID,
    entry.id = artistID) ↔ releaseID ∈ artistReleaseSet db.toTables artistID := by
  rw [mem_artistReleaseSet]
  constructor
  · intro h
    obtain ⟨entry, hentry, rfl⟩ := h
    obtain ⟨key, hk, rfl⟩ := List.mem_map.mp hentry
    obtain ⟨role, hj⟩ := mem_groups.mp hk
    exact ⟨role, (mem_joinedArtists.mp hj).1⟩
  · intro h
    obtain ⟨role, hrel⟩ := h
    obtain ⟨artist, hartist, rfl⟩ := known_artist hrel
    have hj := mem_joinedArtists.mpr
      ⟨show ((artist.id, artist.name).1, role) ∈ _ from hrel, artist, hartist, rfl⟩
    exact ⟨_, List.mem_map_of_mem (mem_groups.mpr ⟨role, hj⟩), rfl⟩

/-- Names are those of the artists, so grouping by both leaves one group for each identifier. -/
theorem releaseArtists_nodup :
    ((releaseArtistsSQL db.toTables serverURL releaseID).map (·.id)).Nodup := by
  rw [releaseArtistsSQL, List.map_map]
  refine (List.nodup_dedup _).map_on fun key hk key' hk' he => ?_
  obtain ⟨role, hj⟩ := mem_groups.mp hk
  obtain ⟨role', hj'⟩ := mem_groups.mp hk'
  obtain ⟨-, a, ha, rfl⟩ := mem_joinedArtists.mp hj
  obtain ⟨-, a', ha', rfl⟩ := mem_joinedArtists.mp hj'
  rw [List.inj_on_of_nodup_map db.canonical.artistKey.1 ha ha' he]

/-- Both aggregations take the roles of the same rows. -/
theorem releaseArtists_role {entry : ReleaseArtist}
    (h : entry ∈ releaseArtistsSQL db.toTables serverURL releaseID) :
    entry.role = aggregateRoles db.server (relatedRoles db.toTables entry.id releaseID) := by
  obtain ⟨key, hk, rfl⟩ := List.mem_map.mp h
  obtain ⟨role, hj⟩ := mem_groups.mp hk
  obtain ⟨-, a, ha, rfl⟩ := mem_joinedArtists.mp hj
  refine stringAgg_congr fun text => ?_
  have hmem : ∀ role, role ∈ ((joinedArtists db.toTables releaseID).filter
      (·.1 = (a.id, a.name))).map (·.2) ↔ role ∈ relatedRoles db.toTables a.id releaseID := by
    intro role
    rw [mem_relatedRoles, List.mem_map]
    constructor
    · intro hparts
      obtain ⟨⟨key, role⟩, hrow, rfl⟩ := hparts
      obtain ⟨hj, he⟩ := List.mem_filter.mp hrow
      have hkey : key = (a.id, a.name) := of_decide_eq_true he
      subst hkey
      exact (mem_joinedArtists.mp hj).1
    · intro hrel
      have hj := mem_joinedArtists.mpr
        ⟨show ((a.id, a.name).1, role) ∈ _ from hrel, a, ha, rfl⟩
      exact ⟨((a.id, a.name), role), List.mem_filter.mpr ⟨hj, by simp⟩, rfl⟩
  simp only [List.mem_map, hmem]

end Groups

section Labels
variable {db : Database} {serverURL : Text} {releaseID labelID : Int}

/-- One entry for each relation row of the release, with the row's catalog number. -/
theorem mem_releaseLabels {catno : Option Text} :
    (∃ entry ∈ releaseLabelsSQL db.toTables serverURL releaseID, entry.id = labelID ∧
      entry.categoryNotation = catno) ↔
    ∃ r ∈ db.labelReleaseItem, r.releaseItemID = releaseID ∧ r.labelID = labelID ∧
      r.categoryNotation = catno := by
  simp only [releaseLabelsSQL, labelEntries, List.mem_flatMap, List.mem_map, List.mem_filter,
    decide_eq_true_eq]
  constructor
  · intro h
    obtain ⟨entry, ⟨r, ⟨hr, hx⟩, label, ⟨hlabel, hid⟩, rfl⟩, rfl, rfl⟩ := h
    exact ⟨r, hr, hx, hid.symm, rfl⟩
  · intro h
    obtain ⟨r, hr, hx, rfl, rfl⟩ := h
    obtain ⟨label, hlabel, hid⟩ := List.mem_map.mp
      (db.canonical.labelLabel _ (List.mem_map_of_mem hr))
    exact ⟨_, ⟨r, ⟨hr, hx⟩, label, ⟨hlabel, hid⟩, rfl⟩, hid, rfl⟩

theorem mem_releaseLabels_id : (∃ entry ∈ releaseLabelsSQL db.toTables serverURL releaseID,
    entry.id = labelID) ↔ releaseID ∈ labelReleaseSet db.toTables labelID := by
  constructor
  · intro h
    obtain ⟨entry, hentry, hid⟩ := h
    obtain ⟨r, hr, hx, hl, -⟩ := mem_releaseLabels.mp ⟨entry, hentry, hid, rfl⟩
    exact ⟨r, hr, hl, hx⟩
  · intro h
    obtain ⟨r, hr, hl, hx⟩ := h
    obtain ⟨entry, hentry, hid, -⟩ := mem_releaseLabels.mpr ⟨r, hr, hx, hl, rfl⟩
    exact ⟨entry, hentry, hid⟩

theorem mem_releaseLabels_catno {c : Text} :
    (∃ entry ∈ releaseLabelsSQL db.toTables serverURL releaseID, entry.id = labelID ∧
      entry.categoryNotation = some c) ↔ releaseID ∈ catalogNumberSet db.toTables labelID c := by
  rw [mem_releaseLabels]
  constructor
  · intro h
    obtain ⟨r, hr, hx, hl, hc⟩ := h
    exact ⟨r, hr, ⟨hl, hc⟩, hx⟩
  · intro h
    obtain ⟨r, hr, ⟨hl, hc⟩, hx⟩ := h
    exact ⟨r, hr, hx, hl, hc⟩

end Labels

/-- The release shown for a row, with everything attached to it. -/
def releaseDetailOf (s : Store) (t : Tables) (r : ReleaseItemRow) : ReleaseDetail where
  id := r.id
  title := r.title
  country := r.country
  dataQuality := r.dataQuality
  releasedYear := extractWhen r.hasValidYear Date.extractYear r.releaseDate
  releasedMonth := extractWhen r.hasValidMonth Date.extractMonth r.releaseDate
  releasedDay := extractWhen r.hasValidDay Date.extractDay r.releaseDate
  listedReleaseDate := r.listedReleaseDate
  isMaster := r.isMaster
  masterID := r.masterID
  notes := r.notes
  status := r.status
  artists := releaseArtistsSQL t s.serverURL r.id
  labels := releaseLabelsSQL t s.serverURL r.id
  companies := releaseCompaniesSQL t s.serverURL r.id
  formats := releaseFormatsSQL t r.id
  styles := (t.releaseItemStyle.filter (·.releaseItemID = r.id)).map (·.style)
  genres := (t.releaseItemGenre.filter (·.releaseItemID = r.id)).map (·.genre)
  videos := (t.releaseItemVideo.filter (·.releaseItemID = r.id)).map fun video =>
    { title := video.title, url := video.url, description := video.description }

theorem release_value {s : Store} {db : Database} {r : ReleaseItemRow} (h : r ∈ db.releaseItem) :
    s.release db.toTables r.id = .value (releaseDetailOf s db.toTables r) := by
  have hid := db.canonical.releaseKey.2 r.id (List.mem_map_of_mem h)
  simp only [maximumInteger] at hid
  have hrange : -2^31 ≤ r.id ∧ r.id < 2^31 := ⟨by omega, by omega⟩
  rw [Store.release, integerParameter_eq hrange]
  simp only [Outcome.value_bind, filter_key (releaseKeys db) h]
  rfl

end OpenDiscogs.Postgres
