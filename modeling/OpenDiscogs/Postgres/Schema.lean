import Mathlib.Algebra.Ring.Int.Defs
import OpenDiscogs.Catalog
import OpenDiscogs.Library.Calendar

/-! The canonical tables the service reads, and the constraints every committed state keeps. -/
namespace OpenDiscogs.Postgres
open SqlText Calendar

structure ArtistRow where
  id : Int
  name : Option Text := none
  realName : Option Text := none
  profile : Option Text := none
  dataQuality : Option Text := none

structure LabelRow where
  id : Int
  contactInfo : Option Text := none
  dataQuality : Option Text := none
  name : Option Text := none
  profile : Option Text := none

structure MasterRow where
  id : Int
  dataQuality : Option Text := none
  title : Option Text := none
  year : Option Int := none

structure ReleaseItemRow where
  id : Int
  title : Option Text := none
  country : Option Text := none
  dataQuality : Option Text := none
  hasValidYear : Option Bool := none
  hasValidMonth : Option Bool := none
  hasValidDay : Option Bool := none
  releaseDate : Option Date := none
  listedReleaseDate : Option Text := none
  isMaster : Option Bool := none
  masterID : Option Int := none
  notes : Option Text := none
  status : Option Text := none

structure ReleaseItemArtistRow where
  artistID : Int
  releaseItemID : Int

structure ReleaseItemCreditedArtistRow where
  artistID : Int
  releaseItemID : Int
  role : Option Text := none

structure LabelReleaseItemRow where
  labelID : Int
  releaseItemID : Int
  categoryNotation : Option Text := none

structure ReleaseItemTrackRow where
  releaseItemID : Int
  hash : Int32
  duration : Option Text := none
  position : Option Text := none
  title : Option Text := none

structure ReleaseItemIdentifierRow where
  releaseItemID : Int
  hash : Int32
  description : Option Text := none
  type : Option Text := none
  value : Option Text := none

structure ReleaseItemWorkRow where
  labelID : Int
  releaseItemID : Int
  work : Option Text := none

structure ReleaseItemFormatRow where
  releaseItemID : Int
  name : Option Text := none
  quantity : Option Int := none
  quantityText : Option Text := none
  description : Option Text := none

structure ReleaseItemStyleRow where
  releaseItemID : Int
  style : Text

structure ReleaseItemGenreRow where
  releaseItemID : Int
  genre : Text

structure ReleaseItemVideoRow where
  releaseItemID : Int
  title : Option Text := none
  url : Option Text := none
  description : Option Text := none

/-- The contents of the tables at one moment, on a given server. -/
structure Tables where
  server : Server
  artist : List ArtistRow := []
  label : List LabelRow := []
  master : List MasterRow := []
  releaseItem : List ReleaseItemRow := []
  releaseItemArtist : List ReleaseItemArtistRow := []
  releaseItemCreditedArtist : List ReleaseItemCreditedArtistRow := []
  labelReleaseItem : List LabelReleaseItemRow := []
  releaseItemTrack : List ReleaseItemTrackRow := []
  releaseItemIdentifier : List ReleaseItemIdentifierRow := []
  releaseItemWork : List ReleaseItemWorkRow := []
  releaseItemFormat : List ReleaseItemFormatRow := []
  releaseItemStyle : List ReleaseItemStyleRow := []
  releaseItemGenre : List ReleaseItemGenreRow := []
  releaseItemVideo : List ReleaseItemVideoRow := []

def maximumInteger : Int := 2^31-1

/-- A primary key of resource identifiers: unique, and drawn from the positive integers. -/
abbrev ResourceKey (ids : List Int) : Prop :=
  ids.Nodup ∧ ∀ id ∈ ids, 1 ≤ id ∧ id ≤ maximumInteger

/-- A foreign key. -/
abbrev References (xs ids : List Int) : Prop := ∀ x ∈ xs, x ∈ ids

/-- The constraints of the canonical schema. -/
structure Canonical (t : Tables) : Prop where
  artistKey : ResourceKey (t.artist.map (·.id))
  labelKey : ResourceKey (t.label.map (·.id))
  masterKey : ResourceKey (t.master.map (·.id))
  releaseKey : ResourceKey (t.releaseItem.map (·.id))
  artistUnique : (t.releaseItemArtist.map fun r => (r.artistID, r.releaseItemID)).Nodup
  catalogNumberUnique : ((t.labelReleaseItem.filter (·.categoryNotation.isSome)).map fun r =>
    (r.labelID, r.releaseItemID, r.categoryNotation)).Nodup
  trackUnique : (t.releaseItemTrack.map fun r => (r.releaseItemID, r.hash)).Nodup
  identifierUnique : (t.releaseItemIdentifier.map fun r => (r.releaseItemID, r.hash)).Nodup
  artistArtist : References (t.releaseItemArtist.map (·.artistID)) (t.artist.map (·.id))
  artistRelease : References (t.releaseItemArtist.map (·.releaseItemID)) (t.releaseItem.map (·.id))
  creditedArtist : References (t.releaseItemCreditedArtist.map (·.artistID)) (t.artist.map (·.id))
  creditedRelease : References (t.releaseItemCreditedArtist.map (·.releaseItemID))
    (t.releaseItem.map (·.id))
  labelLabel : References (t.labelReleaseItem.map (·.labelID)) (t.label.map (·.id))
  labelRelease : References (t.labelReleaseItem.map (·.releaseItemID)) (t.releaseItem.map (·.id))
  trackRelease : References (t.releaseItemTrack.map (·.releaseItemID)) (t.releaseItem.map (·.id))
  identifierRelease : References (t.releaseItemIdentifier.map (·.releaseItemID))
    (t.releaseItem.map (·.id))

/-- A committed database state. -/
structure Database extends Tables where
  canonical : Canonical toTables

instance (t : Tables) : Decidable (Canonical t) :=
  decidable_of_iff
    (ResourceKey (t.artist.map (·.id)) ∧ ResourceKey (t.label.map (·.id)) ∧
      ResourceKey (t.master.map (·.id)) ∧ ResourceKey (t.releaseItem.map (·.id)) ∧
      (t.releaseItemArtist.map fun r => (r.artistID, r.releaseItemID)).Nodup ∧
      ((t.labelReleaseItem.filter (·.categoryNotation.isSome)).map fun r =>
        (r.labelID, r.releaseItemID, r.categoryNotation)).Nodup ∧
      (t.releaseItemTrack.map fun r => (r.releaseItemID, r.hash)).Nodup ∧
      (t.releaseItemIdentifier.map fun r => (r.releaseItemID, r.hash)).Nodup ∧
      References (t.releaseItemArtist.map (·.artistID)) (t.artist.map (·.id)) ∧
      References (t.releaseItemArtist.map (·.releaseItemID)) (t.releaseItem.map (·.id)) ∧
      References (t.releaseItemCreditedArtist.map (·.artistID)) (t.artist.map (·.id)) ∧
      References (t.releaseItemCreditedArtist.map (·.releaseItemID)) (t.releaseItem.map (·.id)) ∧
      References (t.labelReleaseItem.map (·.labelID)) (t.label.map (·.id)) ∧
      References (t.labelReleaseItem.map (·.releaseItemID)) (t.releaseItem.map (·.id)) ∧
      References (t.releaseItemTrack.map (·.releaseItemID)) (t.releaseItem.map (·.id)) ∧
      References (t.releaseItemIdentifier.map (·.releaseItemID)) (t.releaseItem.map (·.id)))
    ⟨fun ⟨a, b, c, d, e, f, g, h, i, j, k, l, m, n, o, p⟩ =>
      ⟨a, b, c, d, e, f, g, h, i, j, k, l, m, n, o, p⟩,
    fun ⟨a, b, c, d, e, f, g, h, i, j, k, l, m, n, o, p⟩ =>
      ⟨a, b, c, d, e, f, g, h, i, j, k, l, m, n, o, p⟩⟩

end OpenDiscogs.Postgres
