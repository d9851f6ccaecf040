import OpenDiscogs.Navigation
import OpenDiscogs.Views

/-! What an answer tells of another resource is what that resource's own answer tells. -/
namespace OpenDiscogs
open Utf8 SqlText Catalog HttpApi Postgres Rows

namespace Catalog.Repository
variable (r : Repository)

/-- The artist of an identifier is found under a name. -/
def NamesArtist (id : Int) (name : Option Text) : Prop :=
  ∃ d, r.artist id = .value d ∧ d.id = id ∧ d.name = name

def NamesLabel (id : Int) (name : Option Text) : Prop :=
  ∃ d, r.label id = .value d ∧ d.id = id ∧ d.name = name

/-- The release of a listing is found with the same fields. -/
def HasRelease (release : Release) : Prop :=
  ∃ d, r.release release.id = .value d ∧ detailFields d = release

/-- A release among those of an artist, who is one of the release's artists in the same role. -/
def HasArtistRelease (artistID : Int) (item : ArtistRelease) : Prop :=
  ∃ d, r.release item.id = .value d ∧ detailFields d = itemFields item ∧
    ∃ entry ∈ d.artists, entry.id = artistID ∧ entry.role = item.role

/-- A release among those of a label, which is one of the release's labels with the same catalog
numbers. -/
def HasLabelRelease (labelID : Int) (item : LabelRelease) : Prop :=
  ∃ d, r.release item.id = .value d ∧ d.id = item.id ∧ d.title = item.title ∧
    d.releasedYear = item.year ∧ d.status = item.status ∧
    (∃ entry ∈ d.labels, entry.id = labelID) ∧ ∀ number, number ∈ item.catalogNumbers ↔
      ∃ entry ∈ d.labels, entry.id = labelID ∧ entry.categoryNotation = some number

/-- A release among those of a master, of which it is a version, by artists of the release. -/
def HasMasterRelease (masterID : Int) (item : MasterRelease) : Prop :=
  ∃ d, r.release item.id = .value d ∧ d.id = item.id ∧ d.title = item.title ∧
    d.releasedYear = item.year ∧ d.masterID = some masterID ∧
    List.Forall₂ (fun id name => ∃ entry ∈ d.artists, entry.id = id ∧ entry.name = some name)
      item.artistIDs item.artists

/-- A label and its parent or children: each names the other, and a label that has parents shows
the first of them. -/
structure LabelFamily (d : LabelDetail) : Prop where
  parent : ∀ p ∈ d.parentLabel, ∃ parent, r.label p.id = .value parent ∧ parent.name = p.name ∧
    ∃ child ∈ parent.sublabels, child.id = d.id ∧ child.name = d.name
  children : ∀ c ∈ d.sublabels, ∃ child, r.label c.id = .value child ∧ child.name = c.name ∧
    ∃ p ∈ child.parentLabel, p.id ≤ d.id

/-- What the answer to a call tells of other resources is what these tell themselves. -/
def Consistent : Call → Payload → Prop
  | .searchArtists _ _, .artists page =>
    ∀ item ∈ page.items, ∃ d, r.artist item.id = .value d ∧ d.toArtist = item
  | .artist _, .artist d =>
    ∀ other ∈ d.members ++ d.groups ++ d.aliases, r.NamesArtist other.id other.name
  | .artistReleases id _, .artistReleases page => ∀ item ∈ page.items, r.HasArtistRelease id item
  | .searchLabels _ _, .labels page =>
    ∀ item ∈ page.items, ∃ d, r.label item.id = .value d ∧ d.toLabel = item
  | .label _, .label d => r.LabelFamily d
  | .labelReleases id _, .labelReleases page => ∀ item ∈ page.items, r.HasLabelRelease id item
  | .searchMasters _ _, .masters page => ∀ item ∈ page.items, ∃ d, r.master item.id = .value d ∧
    item = { id := d.id, dataQuality := d.dataQuality, title := d.title, releasedYear := d.year }
  | .master _, .master d => ∀ artist ∈ d.artists, r.NamesArtist artist.id artist.name
  | .masterReleases id _, .masterReleases page => ∀ item ∈ page.items, r.HasMasterRelease id item
  | .searchReleases _ _, .releases page => ∀ item ∈ page.items, r.HasRelease item
  | .releasesByCatalogNumber _ _, .releases page => ∀ item ∈ page.items, r.HasRelease item
  | .releasesByIdentifier _ _, .releases page => ∀ item ∈ page.items, r.HasRelease item
  | .release _, .release d =>
    (∀ artist ∈ d.artists, r.NamesArtist artist.id artist.name) ∧
      ∀ label ∈ d.labels ++ d.companies, r.NamesLabel label.id label.name
  | .releaseTracks id _, .releaseTracks _ => ∃ d, r.release id = .value d
  | .releaseIdentifiers id _, .releaseIdentifiers _ => ∃ d, r.release id = .value d
  | .snapshot, .snapshot _ => True
  | _, _ => False

end Catalog.Repository

section Found
variable {s : Store} {t : DetailTables}

theorem queryDetail_row {ρ α β : Type} {rows : List ρ} {key : ρ → Int} {columns : ρ → α}
    {scanner : α → Result β} {row : ρ} {d : β} (hk : ResourceKey (rows.map key)) (hr : row ∈ rows)
    (hd : scanner (columns row) = .value d) :
    queryDetail rows key columns scanner (key row) = .value d := by
  have hrange := known_inRange hk (List.mem_map_of_mem hr)
  simp only [queryDetail, integerParameter_eq hrange, Outcome.value_bind, filter_key hk.1 hr,
    List.map_cons, List.map_nil, queryRow, hd]

theorem artist_found (hc : Canonical t.toTables) {a : ArtistRow} (ha : a ∈ t.artist) :
    ∃ d, s.artist t a.id = .value d ∧ d.toArtist = artistOf a :=
  ⟨_, queryDetail_row hc.artistKey ha rfl, rfl⟩

theorem label_found (hc : Canonical t.toTables) {l : LabelRow} (hl : l ∈ t.label) :
    ∃ d, s.label t l.id = .value d ∧ d.toLabel = labelOf l ∧
      d.parentLabel = parentLabelSQL t s.serverURL l.id ∧
      d.sublabels = sublabelsSQL t s.serverURL l.id :=
  ⟨_, queryDetail_row hc.labelKey hl rfl, rfl, rfl, rfl⟩

theorem master_found (hc : Canonical t.toTables) {m : MasterRow} (hm : m ∈ t.master) :
    ∃ d, s.master t m.id = .value d ∧ masterOf m =
      { id := d.id, dataQuality := d.dataQuality, title := d.title, releasedYear := d.year } :=
  ⟨_, queryDetail_row hc.masterKey hm rfl, rfl⟩

/-- The listings of releases that show all their fields. -/
theorem listed_release (hc : Canonical t.toTables) {rows : List ReleaseItemRow}
    (hrows : ∀ r ∈ rows, r ∈ t.releaseItem) {item : Release} {columns : ReleaseColumns}
    (hcolumns : columns ∈ rows.map releaseColumnsSQL) (hscan : scanRelease columns = .value item) :
    ∃ d, s.release t.toTables item.id = .value d ∧ detailFields d = item := by
  obtain ⟨r, hr, rfl⟩ := List.mem_map.mp hcolumns
  cases hscan
  exact ⟨_, @release_value s ⟨t.toTables, hc⟩ r (hrows r hr), rfl⟩

/-- Rows that are filtered, ordered and cut are rows of the table. -/
theorem selected_mem {ρ : Type} {key : ρ → Int} {rows : List ρ} {p : ρ → Bool} {n : Nat} {row : ρ}
    (h : row ∈ (orderBy key (rows.filter p)).take n) : row ∈ rows :=
  (List.mem_filter.mp (mem_orderBy.mp (List.mem_of_mem_take h))).1

end Found

section Related
variable {s : Store} {t : DetailTables}

/-- A reference to an artist has the name of the artist's row. -/
theorem artistReferences_named {ρ : Type} (hc : Canonical t.toTables) {serverURL : Text}
    {artistID : ρ → Int} {relations : List ρ} {r : ArtistReference}
    (h : r ∈ artistReferences t.toTables serverURL artistID relations) :
    ∃ d, s.artist t r.id = .value d ∧ d.id = r.id ∧ d.name = r.name := by
  obtain ⟨relation, -, h⟩ := List.mem_flatMap.mp h
  obtain ⟨a, ha, rfl⟩ := List.mem_map.mp h
  obtain ⟨d, hd, hfields⟩ := artist_found hc (List.mem_filter.mp ha).1
  exact ⟨d, hd, congrArg Artist.id hfields, congrArg Artist.name hfields⟩

theorem releaseArtists_named (hc : Canonical t.toTables) {serverURL : Text} {releaseID : Int}
    {r : ReleaseArtist} (h : r ∈ releaseArtistsSQL t.toTables serverURL releaseID) :
    ∃ d, s.artist t r.id = .value d ∧ d.id = r.id ∧ d.name = r.name := by
  obtain ⟨key, hkey, rfl⟩ := List.mem_map.mp h
  obtain ⟨role, hjoined⟩ := mem_groups.mp hkey
  obtain ⟨-, a, ha, rfl⟩ := mem_joinedArtists.mp hjoined
  obtain ⟨d, hd, hfields⟩ := artist_found hc ha
  exact ⟨d, hd, congrArg Artist.id hfields, congrArg Artist.name hfields⟩

theorem labelEntries_named {ρ : Type} (hc : Canonical t.toTables) {serverURL : Text}
    {labelID : ρ → Int} {catno : ρ → Option Text} {relations : List ρ} {r : ReleaseLabel}
    (h : r ∈ labelEntries t.toTables serverURL labelID catno relations) :
    ∃ d, s.label t r.id = .value d ∧ d.id = r.id ∧ d.name = r.name := by
  obtain ⟨relation, -, h⟩ := List.mem_flatMap.mp h
  obtain ⟨l, hl, rfl⟩ := List.mem_map.mp h
  obtain ⟨d, hd, hfields, -⟩ := label_found hc (List.mem_filter.mp hl).1
  exact ⟨d, hd, congrArg Label.id hfields, congrArg Label.name hfields⟩

/-- The first parent of a label has the label among its sublabels. -/
theorem parentLabel_lists (hc : Canonical t.toTables) {l : LabelRow} (hl : l ∈ t.label)
    {p : LabelReference} (h : parentLabelSQL t s.serverURL l.id = some p) :
    ∃ parent, s.label t p.id = .value parent ∧ parent.name = p.name ∧
      ∃ child ∈ parent.sublabels, child.id = l.id ∧ child.name = l.name := by
  obtain ⟨row, hrow, rfl⟩ := Option.map_eq_some_iff.mp h
  have hparents := mem_orderBy.mp (List.mem_of_mem_take (List.mem_of_mem_head? hrow))
  obtain ⟨relation, hrelation, hlabel⟩ := List.mem_flatMap.mp hparents
  obtain ⟨hmem, hsub⟩ := List.mem_filter.mp hrelation
  obtain ⟨hrow, hid⟩ := List.mem_filter.mp hlabel
  obtain ⟨parent, hparent, hfields, -, hsublabels⟩ := @label_found s t hc row hrow
  refine ⟨parent, hparent, congrArg Label.name hfields, labelReference s.serverURL l, ?_, rfl, rfl⟩
  rw [hsublabels]
  refine List.mem_flatMap.mpr ⟨relation, List.mem_filter.mpr ⟨hmem, ?_⟩,
    List.mem_map_of_mem (List.mem_filter.mpr ⟨hl, ?_⟩)⟩
  · exact decide_eq_true (of_decide_eq_true hid).symm
  · exact decide_eq_true (of_decide_eq_true hsub).symm

/-- A sublabel shows a parent, which comes before the label or is the label. -/
theorem sublabel_shows (hc : Canonical t.toTables) {l : LabelRow} (hl : l ∈ t.label)
    {c : LabelReference} (h : c ∈ sublabelsSQL t s.serverURL l.id) :
    ∃ child, s.label t c.id = .value child ∧ child.name = c.name ∧
      ∃ p ∈ child.parentLabel, p.id ≤ l.id := by
  obtain ⟨relation, hrelation, h⟩ := List.mem_flatMap.mp h
  obtain ⟨row, hrow, rfl⟩ := List.mem_map.mp h
  obtain ⟨hmem, hparent⟩ := List.mem_filter.mp hrelation
  obtain ⟨hrow, hsub⟩ := List.mem_filter.mp hrow
  obtain ⟨child, hchild, hfields, hparentLabel, -⟩ := @label_found s t hc row hrow
  refine ⟨child, hchild, congrArg Label.name hfields, ?_⟩
  let parents := (t.labelSubLabel.filter (·.subLabelID = row.id)).flatMap fun relation =>
    t.label.filter (·.id = relation.parentLabelID)
  have hlisted : l ∈ orderBy (·.id) parents := by
    refine mem_orderBy.mpr (List.mem_flatMap.mpr ⟨relation, List.mem_filter.mpr ⟨hmem, ?_⟩,
      List.mem_filter.mpr ⟨hl, ?_⟩⟩)
    · exact decide_eq_true (of_decide_eq_true hsub).symm
    · exact decide_eq_true (of_decide_eq_true hparent).symm
  cases hordered : orderBy (·.id) parents with
  | nil =>
    rw [hordered] at hlisted
    cases hlisted
  | cons first rest =>
    refine ⟨labelReference s.serverURL first, ?_, ?_⟩
    · rw [hparentLabel, parentLabelSQL]
      simp only [parents] at hordered
      rw [hordered]
      rfl
    · have hsorted : (orderBy (·.id) parents).Pairwise (fun a b : LabelRow => a.id ≤ b.id) :=
        orderBy_sorted _ _
      rw [hordered, List.pairwise_cons] at hsorted
      rw [hordered] at hlisted
      obtain rfl | hrest := List.mem_cons.mp hlisted
      · exact le_rfl
      · exact hsorted.1 l hrest

/-- A listed release of an artist has the roles that the artist has there. -/
theorem artistReleases_role {t : Tables} {artistID afterID : Int} {limit : Nat}
    {columns : ArtistReleaseColumns} (h : columns ∈ artistReleasesSQL t artistID afterID limit) :
    ∃ r ∈ t.releaseItem, relatedRoles t artistID r.id ≠ [] ∧
      columns = artistReleaseColumns (aggregateRoles t.server (relatedRoles t artistID r.id)) r := by
  obtain ⟨⟨role, r⟩, hselected, rfl⟩ := List.mem_map.mp h
  have hjoined := (List.mem_filter.mp (mem_orderBy.mp (List.mem_of_mem_take hselected))).1
  obtain ⟨⟨releaseID, aggregate⟩, haggregate, hrow⟩ := List.mem_flatMap.mp hjoined
  obtain ⟨row, hrow, he⟩ := List.mem_map.mp hrow
  cases he
  obtain ⟨hmem, hid⟩ := List.mem_filter.mp hrow
  have hid : r.id = releaseID := of_decide_eq_true hid
  subst hid
  obtain ⟨releaseID, -, hroles⟩ := List.mem_filterMap.mp haggregate
  cases hrelated : relatedRoles t artistID releaseID with
  | nil =>
    rw [hrelated] at hroles
    cases hroles
  | cons first rest =>
    rw [hrelated] at hroles
    cases hroles
    exact ⟨r, hmem, by rw [hrelated]; exact List.cons_ne_nil _ _, by rw [hrelated]⟩

/-- The release of a listed row, as it is shown alone. -/
theorem release_found (hc : Canonical t.toTables) {r : ReleaseItemRow} (hr : r ∈ t.releaseItem) :
    s.release t.toTables r.id = .value (releaseDetailOf s t.toTables r) :=
  @release_value s ⟨t.toTables, hc⟩ r hr

theorem artistRelease_found (hc : Canonical t.toTables) {artistID : Int} {request : PageRequest}
    {page : Page ArtistRelease} (h : s.artistReleases t.toTables artistID request = .value page)
    {item : ArtistRelease} (hi : item ∈ page.items) :
    ∃ d, s.release t.toTables item.id = .value d ∧ detailFields d = itemFields item ∧
      ∃ entry ∈ d.artists, entry.id = artistID ∧ entry.role = item.role := by
  let db : Database := ⟨t.toTables, hc⟩
  obtain ⟨after, limit, columns, hcolumns, hscan⟩ := loadRelated_row h hi
  obtain ⟨r, hr, hroles, rfl⟩ := artistReleases_role hcolumns
  cases hscan
  obtain ⟨role, hrole⟩ := List.exists_mem_of_ne_nil _ hroles
  have hset := mem_artistReleaseSet.mpr ⟨role, mem_relatedRoles.mp hrole⟩
  obtain ⟨entry, hentry, hid⟩ := (@mem_releaseArtists db s.serverURL r.id artistID).mpr hset
  refine ⟨_, release_found hc hr, rfl, entry, hentry, hid, ?_⟩
  rw [@releaseArtists_role db _ _ _ hentry, hid]

theorem labelRelease_found (hc : Canonical t.toTables) {labelID : Int} {request : PageRequest}
    {page : Page LabelRelease} (h : s.labelReleases t.toTables labelID request = .value page)
    {item : LabelRelease} (hi : item ∈ page.items) :
    ∃ d, s.release t.toTables item.id = .value d ∧ d.id = item.id ∧ d.title = item.title ∧
      d.releasedYear = item.year ∧ d.status = item.status ∧
      (∃ entry ∈ d.labels, entry.id = labelID) ∧ ∀ number, number ∈ item.catalogNumbers ↔
        ∃ entry ∈ d.labels, entry.id = labelID ∧ entry.categoryNotation = some number := by
  let db : Database := ⟨t.toTables, hc⟩
  obtain ⟨after, limit, columns, hcolumns, hscan⟩ := loadRelated_row h hi
  obtain ⟨r, hr, rfl⟩ := List.mem_map.mp hcolumns
  obtain ⟨hrow, hmatching⟩ := mem_join.mp (mem_orderBy.mp hr)
  simp only [scanLabelRelease, labelReleaseColumns, scanTextArray_some, Outcome.value_bind] at hscan
  cases hscan
  have hlisted : r.id ∈ labelReleaseSet t.toTables labelID := by
    have hdistinct := mem_distinct.mp (List.mem_of_mem_take hmatching)
    obtain ⟨relation, hrelation, hid⟩ := List.mem_map.mp hdistinct
    obtain ⟨hmem, hp⟩ := List.mem_filter.mp hrelation
    simp only [Bool.and_eq_true, decide_eq_true_eq] at hp
    exact ⟨relation, hmem, hp.1, hid⟩
  refine ⟨_, release_found hc hrow, rfl, rfl, rfl, rfl, ?_, fun number => ?_⟩
  · exact (@mem_releaseLabels_id db s.serverURL r.id labelID).mpr hlisted
  · exact mem_catalogNumbers.trans (@mem_releaseLabels_catno db s.serverURL r.id labelID number).symm

/-- The main artists of a release are among its artists, by their names. -/
theorem mainArtist_listed {t : Tables} {serverURL : Text} {releaseID : Int} {a : ArtistRow}
    (h : a ∈ mainArtists t releaseID) : ∃ entry ∈ releaseArtistsSQL t serverURL releaseID,
      entry.id = a.id ∧ entry.name = a.name := by
  obtain ⟨relation, hrelation, hartist⟩ := List.mem_flatMap.mp h
  obtain ⟨hmem, hid⟩ := List.mem_filter.mp hartist
  have hid : a.id = relation.artistID := of_decide_eq_true hid
  have hrelated : ((a.id, a.name).1, some mainRole) ∈ artistRelations t releaseID := by
    refine List.mem_append_left _ (List.mem_map.mpr ⟨relation, hrelation, ?_⟩)
    rw [hid]
  have hkey := mem_groups.mpr ⟨_, mem_joinedArtists.mpr ⟨hrelated, a, hmem, rfl⟩⟩
  exact ⟨_, List.mem_map_of_mem hkey, rfl, rfl⟩

theorem mainArtists_listed {t : Tables} {serverURL : Text} {releaseID : Int}
    {rows : List ArtistRow} (hrows : ∀ a ∈ rows, a ∈ mainArtists t releaseID)
    (hnames : ∀ name ∈ rows.map (·.name), name.isSome = true) :
    List.Forall₂ (fun id name => ∃ entry ∈ releaseArtistsSQL t serverURL releaseID,
        entry.id = id ∧ entry.name = some name)
      (rows.map (·.id)) ((rows.map (·.name)).filterMap id) := by
  induction rows with
  | nil => exact .nil
  | cons a rows ih =>
    simp only [List.map_cons, List.mem_cons, forall_eq_or_imp] at hrows hnames
    obtain ⟨name, hname⟩ := Option.isSome_iff_exists.mp hnames.1
    obtain ⟨entry, hentry, hid, hentryName⟩ := @mainArtist_listed t serverURL releaseID a hrows.1
    simp only [List.map_cons, hname, List.filterMap_cons, id_eq]
    exact .cons ⟨entry, hentry, hid, hentryName.trans hname⟩ (ih hrows.2 hnames.2)

theorem masterRelease_found (hc : Canonical t.toTables) {masterID : Int} {request : PageRequest}
    {page : Page MasterRelease} (h : s.masterReleases t.toTables masterID request = .value page)
    {item : MasterRelease} (hi : item ∈ page.items) :
    ∃ d, s.release t.toTables item.id = .value d ∧ d.id = item.id ∧ d.title = item.title ∧
      d.releasedYear = item.year ∧ d.masterID = some masterID ∧
      List.Forall₂ (fun id name => ∃ entry ∈ d.artists, entry.id = id ∧ entry.name = some name)
        item.artistIDs item.artists := by
  obtain ⟨after, limit, columns, hcolumns, hscan⟩ := loadRelated_row h hi
  obtain ⟨r, hr, rfl⟩ := List.mem_map.mp hcolumns
  have hselected := List.mem_filter.mp (mem_orderBy.mp (List.mem_of_mem_take hr))
  have hmaster : r.masterID = some masterID := by
    have hp := hselected.2
    simp only [Bool.and_eq_true, decide_eq_true_eq] at hp
    exact hp.1
  obtain ⟨artists, hartists, hitem⟩ := Outcome.bind_value.mp hscan
  cases hitem
  obtain ⟨hnamed, rfl⟩ := scanTextArray_eq_value.mp hartists
  exact ⟨_, release_found hc hselected.1, rfl, rfl, rfl, hmaster,
    mainArtists_listed (fun a ha => mem_orderBy.mp ha) hnamed⟩

/-- What is looked ahead at keeps a part of what was read. -/
theorem lookAhead_part {α β : Type} {build : List α → Bool → β} {items : List α} {size : Int}
    {b : β} (h : lookAhead build items size = .value b) :
    ∃ kept hasMore, b = build kept hasMore ∧ kept ⊆ items := by
  unfold lookAhead at h
  split at h
  · obtain ⟨kept, hkept, hb⟩ := Outcome.bind_value.mp h
    unfold slice at hkept
    split at hkept
    · cases hkept
    · cases hkept
      cases hb
      exact ⟨_, _, rfl, List.take_subset _ _⟩
  · cases h
    exact ⟨_, _, rfl, List.Subset.refl _⟩

/-- Tracks and identifiers are shown of a release that is there: their rows have one, and where
there are none it is asked for. -/
theorem children_found {α β : Type} (hc : Canonical t.toTables) {operation : String}
    {scanner : α → Result β} {sql : Int → Option Int32 → Nat → List α} {releaseID : Int}
    {request : HashPageRequest} {page : HashPage β}
    (hsql : ∀ after limit columns, columns ∈ sql releaseID after limit →
      releaseID ∈ t.releaseItem.map (·.id))
    (h : requireUnlessEmpty (loadChildren operation scanner sql releaseID request)
      (s.requireRelease t.toTables releaseID) = .value page) :
    ∃ d, s.release t.toTables releaseID = .value d := by
  have hknown : releaseID ∈ t.releaseItem.map (·.id) := by
    obtain ⟨found, hfound, hrequired⟩ := Outcome.bind_value.mp h
    split at hrequired
    · obtain ⟨_, hpresent, -⟩ := Outcome.bind_value.mp hrequired
      obtain ⟨present, hread, hpresent⟩ := Outcome.bind_value.mp hpresent
      obtain ⟨id, hid, hexists⟩ := Outcome.bind_value.mp (operationError_eq_value.mp hread)
      obtain ⟨rfl, -⟩ := integerParameter_value hid
      cases hexists
      split at hpresent
      · next hp => exact releaseExistsSQL_iff.mp hp
      · cases hpresent
    · next hitems =>
      obtain ⟨items, hread, hpage⟩ := Outcome.bind_value.mp hfound
      obtain ⟨kept, hasMore, rfl, hkept⟩ := lookAhead_part hpage
      have hne : kept ≠ [] := fun he => hitems (List.isEmpty_iff.mpr he)
      obtain ⟨item, hitem⟩ := List.exists_mem_of_ne_nil kept hne
      have hrows := operationError_eq_value.mp hread
      simp only [Outcome.bind_value] at hrows
      obtain ⟨id, hid, limit, -, hcollected⟩ := hrows
      obtain ⟨rfl, -⟩ := integerParameter_value hid
      obtain ⟨columns, hcolumns, -⟩ := collectRows_row hcollected (hkept hitem)
      exact hsql _ _ _ hcolumns
  obtain ⟨r, hr, rfl⟩ := List.mem_map.mp hknown
  exact ⟨_, release_found hc hr⟩

end Related

/-- A label with two parents and a child of its own. -/
def labelFamily : DetailTables where
  server := cLocale
  label := [{ id := 1, name := some (Text.of "Root") }, { id := 2 }, { id := 3 }, { id := 4 }]
  labelSubLabel := [⟨2, 3⟩, ⟨1, 3⟩, ⟨3, 4⟩]

end OpenDiscogs
