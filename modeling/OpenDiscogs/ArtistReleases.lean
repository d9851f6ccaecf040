import OpenDiscogs.Views

/-! The query for the releases of an artist against one that limits nothing before its end. -/
namespace OpenDiscogs
open SqlText Catalog Postgres Rows Keyset

/-- The artist is a main or a credited artist of the release. -/
def onRelease (t : Tables) (artistID releaseID : Int) : Bool :=
  t.releaseItemArtist.any (fun r => r.artistID = artistID && r.releaseItemID = releaseID) ||
  t.releaseItemCreditedArtist.any (fun r => r.artistID = artistID && r.releaseItemID = releaseID)

/-- Every release of the artist after the cursor, in order, with the roles of all of its rows. -/
def unboundedArtistReleases (t : Tables) (artistID afterID : Int) : List ArtistReleaseColumns :=
  let selected := t.releaseItem.filter fun r => onRelease t artistID r.id && afterID < r.id
  (orderBy (·.id) selected).map fun r =>
    artistReleaseColumns (aggregateRoles t.server (relatedRoles t artistID r.id)) r

/-- The releases after a cursor that the artist is on, each once and in order. -/
structure AllReleases (t : Tables) (artistID afterID : Int) (rows : List ArtistReleaseColumns) :
    Prop where
  ascending : (rows.map (·.1)).Pairwise (· < ·)
  members : ∀ id, id ∈ rows.map (·.1) ↔ id ∈ artistReleaseSet t artistID ∧ afterID < id
  roles : ∀ row ∈ rows, Joined t.server (rolesOf t artistID row.1) row.2.1
  columns : ∀ row ∈ rows, ∃ r ∈ t.releaseItem, row = artistReleaseColumns row.2.1 r

section Releases
variable {t : Tables} {artistID afterID : Int}

theorem onRelease_iff {releaseID : Int} :
    onRelease t artistID releaseID = true ↔ releaseID ∈ artistReleaseSet t artistID := by
  simp [onRelease, artistReleaseSet]

theorem unbounded_ids : (unboundedArtistReleases t artistID afterID).map (·.1) =
    (orderBy (·.id) (t.releaseItem.filter fun r => onRelease t artistID r.id && afterID < r.id)).map
      (·.id) := by
  rw [unboundedArtistReleases, List.map_map]
  rfl

theorem unbounded_all (hc : ArtistCredits t) :
    AllReleases t artistID afterID (unboundedArtistReleases t artistID afterID) := by
  refine ⟨?_, fun id => ?_, fun row hrow => ?_, fun row hrow => ?_⟩
  · rw [unbounded_ids]
    exact orderBy_ascending (nodup_filter hc.releaseUnique _)
  · simp only [unbounded_ids, List.mem_map, mem_orderBy, List.mem_filter, Bool.and_eq_true,
      onRelease_iff, decide_eq_true_eq]
    constructor
    · intro h
      obtain ⟨r, ⟨-, hon, hafter⟩, rfl⟩ := h
      exact ⟨hon, hafter⟩
    · intro h
      obtain ⟨hon, hafter⟩ := h
      obtain ⟨r, hr, rfl⟩ := List.mem_map.mp (artistReleaseSet_known hc hon)
      exact ⟨r, ⟨hr, hon, hafter⟩, rfl⟩
  · obtain ⟨r, -, rfl⟩ := List.mem_map.mp hrow
    exact aggregateRoles_joined t artistID r.id
  · obtain ⟨r, hr, rfl⟩ := List.mem_map.mp hrow
    rw [mem_orderBy, List.mem_filter] at hr
    exact ⟨r, hr.1, rfl⟩

/-- The rows that the bounded query joins are the first ones of all. -/
theorem matching_rows (hc : ArtistCredits t) (n : Nat) :
    join (·.id) (matchingArtistReleases t artistID afterID n) t.releaseItem =
      (orderBy (·.id) (t.releaseItem.filter fun r =>
        onRelease t artistID r.id && afterID < r.id)).take n := by
  have hmatching := matchingArtistReleases_least hc artistID afterID n
  have hall := least_above (p := fun r : ReleaseItemRow => onRelease t artistID r.id)
    (nodup_filter hc.releaseUnique _) afterID n
  have hset : {x | ∃ r ∈ t.releaseItem, onRelease t artistID r.id = true ∧ r.id = x} =
      artistReleaseSet t artistID := by
    ext x
    simp only [onRelease_iff, Set.mem_ofPred_eq]
    constructor
    · intro h
      obtain ⟨r, -, hon, rfl⟩ := h
      exact hon
    · intro hon
      obtain ⟨r, hr, rfl⟩ := List.mem_map.mp (artistReleaseSet_known hc hon)
      exact ⟨r, hr, hon, rfl⟩
  rw [hset] at hall
  have hids : (join (·.id) (matchingArtistReleases t artistID afterID n) t.releaseItem).map (·.id) =
      matchingArtistReleases t artistID afterID n :=
    map_join hc.releaseUnique fun x hx => artistReleaseSet_known hc (hmatching.sound x hx).1
  refine eq_of_map_eq (f := (·.id)) (fun r hr r' hr' he => ?_)
    (hids.trans (hmatching.unique hall))
  have hmem := List.mem_of_mem_take hr'
  rw [mem_orderBy, List.mem_filter] at hmem
  exact List.inj_on_of_nodup_map hc.releaseUnique (mem_join.mp hr).1 hmem.1 he

end Releases

/-- The bounded query reads the first rows of all the releases of the artist. -/
theorem artist_releases_bounded (t : Tables) (hc : ArtistCredits t) (artistID afterID : Int)
    (n : Nat) :
    AllReleases t artistID afterID (unboundedArtistReleases t artistID afterID) ∧
      artistReleasesSQL t artistID afterID n =
        (unboundedArtistReleases t artistID afterID).take n := by
  refine ⟨unbounded_all hc, ?_⟩
  rw [artistReleasesSQL_eq hc, matching_rows hc, unboundedArtistReleases, List.map_take]

theorem artist_releases_bounded_credited :
    AllReleases creditedArtists.toTables 1 0 (unboundedArtistReleases creditedArtists.toTables 1 0) ∧
      artistReleasesSQL creditedArtists.toTables 1 0 1 =
        (unboundedArtistReleases creditedArtists.toTables 1 0).take 1 :=
  artist_releases_bounded creditedArtists.toTables (artistCredits creditedArtists) 1 0 1

end OpenDiscogs
