import OpenDiscogs.Walk

/-! The releases of a master with their main artists, in two arrays. -/
namespace OpenDiscogs
open SqlText Catalog Postgres Rows

def IsMainArtist (t : Tables) (releaseID artistID : Int) : Prop :=
  ∃ r ∈ t.releaseItemArtist, r.releaseItemID = releaseID ∧ r.artistID = artistID

/-- The two arrays of an item list the main artists of its release, place by place. -/
structure ArtistsListed (t : Tables) (item : MasterRelease) : Prop where
  parallel : item.artists.length = item.artistIDs.length
  ascending : item.artistIDs.Pairwise (· < ·)
  members : ∀ artistID, artistID ∈ item.artistIDs ↔ IsMainArtist t item.id artistID
  named : ∀ a ∈ t.artist, ∀ i : Nat, item.artistIDs[i]? = some a.id →
    ∀ name, a.name = some name → item.artists[i]? = some name
  empty : (∀ artistID, ¬IsMainArtist t item.id artistID) →
    item.artists = [] ∧ item.artistIDs = []

/-- A page of a master's releases is answered, with the main artists of each. -/
def MasterListed (s : Store) (t : Tables) (id : Int) (request : PageRequest) : Prop :=
  ∃ page, s.masterReleases t id request = .value page ∧ ∀ item ∈ page.items, ArtistsListed t item

section Artists
variable {s : Store} {db : Database} {releaseID : Int}

theorem mainArtists_eq (t : Tables) (releaseID : Int) : mainArtists t releaseID =
    join (·.id) ((t.releaseItemArtist.filter (·.releaseItemID = releaseID)).map (·.artistID))
      t.artist := by
  rw [mainArtists, join, List.flatMap_map]

theorem mainArtists_ids : (mainArtists db.toTables releaseID).map (·.id) =
    (db.releaseItemArtist.filter (·.releaseItemID = releaseID)).map (·.artistID) := by
  rw [mainArtists_eq]
  refine map_join db.canonical.artistKey.1 fun x hx => ?_
  obtain ⟨r, hr, rfl⟩ := List.mem_map.mp hx
  exact db.canonical.artistArtist _ (List.mem_map_of_mem (List.mem_filter.mp hr).1)

/-- An artist is a main artist of a release once. -/
theorem mainArtists_nodup : ((mainArtists db.toTables releaseID).map (·.id)).Nodup := by
  rw [mainArtists_ids]
  refine nodup_part db.canonical.artistUnique (fun r => r.releaseItemID = releaseID)
    fun r _ r' _ hp hp' he => ?_
  simp only [decide_eq_true_eq] at hp hp'
  rw [hp, hp', he]

theorem mem_mainArtists_ids {artistID : Int} :
    artistID ∈ (mainArtists db.toTables releaseID).map (·.id) ↔
      IsMainArtist db.toTables releaseID artistID := by
  simp [mainArtists_ids, IsMainArtist, and_assoc]

/-- Nothing is skipped among texts that are all there. -/
theorem filterMap_name {artists : List ArtistRow} (h : ∀ a ∈ artists, a.name.isSome) :
    (artists.filterMap (·.name)).map some = artists.map (·.name) := by
  induction artists with
  | nil => rfl
  | cons a artists ih =>
    obtain ⟨name, hname⟩ := Option.isSome_iff_exists.mp (h a (by simp))
    have hrest := ih fun b hb => h b (List.mem_cons_of_mem a hb)
    rw [List.filterMap_cons, hname, List.map_cons, List.map_cons, hname, hrest]

theorem masterReleaseOf_listed (r : ReleaseItemRow)
    (hnamed : ∀ a ∈ mainArtists db.toTables r.id, a.name.isSome) :
    ArtistsListed db.toTables (masterReleaseOf s db.toTables r) := by
  let artists := orderBy (·.id) (mainArtists db.toTables r.id)
  have hperm : artists.Perm (mainArtists db.toTables r.id) := orderBy_perm _ _
  have hnames : (artists.filterMap (·.name)).map some = artists.map (·.name) :=
    filterMap_name fun a ha => hnamed a (hperm.mem_iff.mp ha)
  have hlength : (artists.filterMap (·.name)).length = (artists.map (·.id)).length := by
    rw [← List.length_map some, hnames, List.length_map, List.length_map]
  have hexact : ∀ artistID, artistID ∈ artists.map (·.id) ↔
      IsMainArtist db.toTables r.id artistID := fun artistID =>
    (hperm.map (·.id)).mem_iff.trans mem_mainArtists_ids
  refine ⟨hlength, orderBy_ascending mainArtists_nodup, hexact, ?_, ?_⟩
  · intro a ha i hi name hname
    rw [show (masterReleaseOf s db.toTables r).artistIDs = artists.map (·.id) from rfl,
      List.getElem?_map, Option.map_eq_some_iff] at hi
    obtain ⟨b, hb, hid⟩ := hi
    have hmem : b ∈ db.artist := by
      have hbm := hperm.mem_iff.mp (List.mem_of_getElem? hb)
      rw [mainArtists_eq, mem_join] at hbm
      exact hbm.1
    obtain rfl := List.inj_on_of_nodup_map db.canonical.artistKey.1 hmem ha hid
    have hsome : ((artists.filterMap (·.name)).map some)[i]? = some (some name) := by
      rw [hnames, List.getElem?_map, hb, Option.map_some, hname]
    rw [List.getElem?_map, Option.map_eq_some_iff] at hsome
    obtain ⟨name', hname', he⟩ := hsome
    cases he
    exact hname'
  · intro hnone
    have hids : artists.map (·.id) = [] :=
      List.eq_nil_iff_forall_not_mem.mpr fun a ha => hnone a ((hexact a).mp ha)
    rw [hids] at hlength
    exact ⟨List.length_eq_zero_iff.mp hlength, hids⟩

end Artists

/-- A page of a master's releases is listed exactly when every main artist of the releases that it
reads, those after the cursor up to one more than the page holds, has a name. -/
theorem master_listed (s : Store) (db : Database) {id : Int} {request : PageRequest}
    (hs : 0 < request.size) (hid : InRange id) (ha : InRange request.afterID) :
    MasterListed s db.toTables id request ↔
      MainArtistsNamed db.toTables id request.afterID request.fetchSize.toNat := by
  constructor
  · intro h
    obtain ⟨page, hpage, -⟩ := h
    exact ((masterReleases_value hs).mp hpage).1.2.2
  · intro hnamed
    refine ⟨_, (masterReleases_value hs).mpr ⟨⟨hid, ha, hnamed⟩, rfl⟩, fun item hitem => ?_⟩
    obtain ⟨r, hr, rfl⟩ := List.mem_map.mp (List.mem_of_mem_take hitem)
    exact masterReleaseOf_listed r (hnamed r hr)

/-- A release with two named artists, listed against their order, and one without any. -/
def namedArtists : Database where
  server := cLocale
  artist := [{ id := 1, name := some (Text.of "Ida") }, { id := 2, name := some (Text.of "Ulf") }]
  releaseItem := [{ id := 4, masterID := some 9 }, { id := 3, masterID := some 9 }]
  releaseItemArtist := [⟨2, 3⟩, ⟨1, 3⟩]
  canonical := by decide

theorem master_listed_named : MasterListed localStore namedArtists.toTables 9 ⟨0, 1⟩ ↔
    MainArtistsNamed namedArtists.toTables 9 0 2 :=
  master_listed localStore namedArtists (by decide) ⟨by decide, by decide⟩
    ⟨by decide, by decide⟩

/-- One artist without a name is enough for the page to fail. -/
theorem master_unnamed : ¬MasterListed localStore unnamedArtist.toTables 1 ⟨0, 20⟩ := by
  intro h
  obtain ⟨page, hpage, -⟩ := h
  have hnamed := ((masterReleases_value (by decide)).mp hpage).1.2.2
  exact absurd (hnamed _ (List.mem_singleton_self _) _ (List.mem_singleton_self _)) (by decide)

end OpenDiscogs
