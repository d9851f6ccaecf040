import OpenDiscogs.Library.Outcome
import OpenDiscogs.Library.SqlText

/-! The catalog domain: resources, filters, page requests and the look-ahead pages. -/
namespace OpenDiscogs.Catalog
open Utf8 SqlText

/-- The errors that callers tell apart; every other error is opaque to them. -/
inductive Sentinel where
  | notFound | noRows | deadlineExceeded | canceled
deriving DecidableEq

abbrev Err := Fault Sentinel

abbrev Result (α : Type) := Outcome Err α

def errNotFound : Err := .sentinel .notFound

structure PageRequest where
  afterID : Int
  size : Int
deriving DecidableEq

def PageRequest.fetchSize (p : PageRequest) : Int := p.size+1

class PageItem (α : Type) where
  pageID : α → Int

structure Page (α : Type) where
  items : List α
  hasMore : Bool
deriving DecidableEq

structure HashPageRequest where
  afterHash : Option Int32
  size : Int
deriving DecidableEq

def HashPageRequest.fetchSize (p : HashPageRequest) : Int := p.size+1

class HashPageItem (α : Type) where
  pageHash : α → Int32

structure HashPage (α : Type) where
  items : List α
  hasMore : Bool
deriving DecidableEq

variable {α : Type}

/-- `items[:size]`; a negative size panics. -/
def slice (items : List α) (size : Int) : Result (List α) :=
  if size < 0 then .panic else .value (items.take size.toNat)

/-- The look-ahead trim that both kinds of page share. -/
def lookAhead {β : Type} (build : List α → Bool → β) (items : List α) (requestedSize : Int) :
    Result β :=
  if requestedSize < items.length then do
    let items ← slice items requestedSize
    return build items true
  else return build items false

/-- The key of a page's last item, when there is another page to ask for. -/
def nextAfter {κ : Type} (key : α → κ) (items : List α) (hasMore : Bool) : Option κ :=
  if !hasMore || items.isEmpty then none else items.getLast?.map key

def newHashPage (items : List α) (requestedSize : Int) : Result (HashPage α) :=
  lookAhead HashPage.mk items requestedSize

def HashPage.nextAfterHash [HashPageItem α] (p : HashPage α) : Option Int32 :=
  nextAfter HashPageItem.pageHash p.items p.hasMore

def newPage (items : List α) (requestedSize : Int) : Result (Page α) :=
  lookAhead Page.mk items requestedSize

def Page.nextAfterID [PageItem α] (p : Page α) : Option Int :=
  nextAfter PageItem.pageID p.items p.hasMore

structure ArtistFilter where
  name : Bytes
  realName : Bytes
deriving DecidableEq

structure LabelFilter where
  name : Bytes
deriving DecidableEq

structure MasterFilter where
  title : Bytes
  year : Option Int
deriving DecidableEq

structure ReleaseFilter where
  title : Bytes
  country : Bytes
  year : Option Int
  month : Option Int
  master : Option Bool
deriving DecidableEq

structure CatalogNumberLookup where
  labelID : Int
  catalogNumber : Bytes
deriving DecidableEq

structure IdentifierLookup where
  type : Bytes
  value : Bytes
deriving DecidableEq

/-- Times are nanoseconds since the epoch. -/
structure SnapshotEntity where
  entityType : Text
  status : Text
  dumpDate : Option Text
  appliedAt : Option Int
  processor : Option Text
  processorVersion : Option Text
deriving DecidableEq

structure CatalogSnapshot where
  ready : Bool
  status : Text
  updatedAt : Int
  entities : List SnapshotEntity
deriving DecidableEq

structure Artist where
  id : Int
  name : Option Text
  realName : Option Text
  profile : Option Text
  dataQuality : Option Text
deriving DecidableEq

structure ArtistReference where
  id : Int
  name : Option Text
  resourceURL : Bytes
deriving DecidableEq

structure ArtistDetail extends Artist where
  members : List ArtistReference
  groups : List ArtistReference
  aliases : List ArtistReference
  nameVariations : List Text
  urls : List Text
  uri : Bytes
  releaseURL : Bytes
deriving DecidableEq

structure ArtistRelease where
  id : Int
  role : Option Text
  title : Option Text
  country : Option Text
  dataQuality : Option Text
  releasedYear : Option Int
  releasedMonth : Option Int
  releasedDay : Option Int
  listedReleaseDate : Option Text
  isMaster : Option Bool
  masterID : Option Int
  notes : Option Text
  status : Option Text
  resourceURL : Bytes
deriving DecidableEq

structure Label where
  id : Int
  contactInfo : Option Text
  dataQuality : Option Text
  name : Option Text
  profile : Option Text
deriving DecidableEq

structure LabelReference where
  id : Int
  name : Option Text
  resourceURL : Bytes
deriving DecidableEq

structure LabelDetail extends Label where
  parentLabel : Option LabelReference
  sublabels : List LabelReference
  urls : List Text
  uri : Bytes
  releaseURL : Bytes
deriving DecidableEq

structure LabelRelease where
  id : Int
  artist : Option Text
  title : Option Text
  year : Option Int
  status : Option Text
  catalogNumbers : List Text
  format : Option Text
deriving DecidableEq

structure Master where
  id : Int
  dataQuality : Option Text
  title : Option Text
  releasedYear : Option Int
deriving DecidableEq

structure MasterVideo where
  url : Option Text
  description : Option Text
  title : Option Text
deriving DecidableEq

structure MasterDetail where
  id : Int
  title : Option Text
  dataQuality : Option Text
  mainRelease : Option Int
  year : Option Int
  genres : List Text
  styles : List Text
  artists : List ArtistReference
  videos : List MasterVideo
deriving DecidableEq

structure MasterRelease where
  id : Int
  title : Option Text
  artists : List Text
  artistIDs : List Int
  year : Option Int
  resourceURL : Bytes
deriving DecidableEq

structure Release where
  id : Int
  title : Option Text
  country : Option Text
  dataQuality : Option Text
  releasedYear : Option Int
  releasedMonth : Option Int
  releasedDay : Option Int
  listedReleaseDate : Option Text
  isMaster : Option Bool
  masterID : Option Int
  notes : Option Text
  status : Option Text
deriving DecidableEq

structure ReleaseArtist where
  id : Int
  name : Option Text
  role : Option Text
  resourceURL : Bytes
deriving DecidableEq

structure ReleaseLabel where
  id : Int
  name : Option Text
  categoryNotation : Option Text
  resourceURL : Bytes
deriving DecidableEq

structure ReleaseFormat where
  name : Option Text
  quantity : Option Text
  descriptions : List Text
deriving DecidableEq

structure ReleaseVideo where
  title : Option Text
  url : Option Text
  description : Option Text
deriving DecidableEq

structure ReleaseTrack where
  hash : Int32
  duration : Option Text
  position : Option Text
  title : Option Text
deriving DecidableEq

structure ReleaseIdentifier where
  hash : Int32
  description : Option Text
  type : Option Text
  value : Option Text
deriving DecidableEq

structure ReleaseDetail extends Release where
  artists : List ReleaseArtist
  labels : List ReleaseLabel
  companies : List ReleaseLabel
  formats : List ReleaseFormat
  styles : List Text
  genres : List Text
  videos : List ReleaseVideo
deriving DecidableEq

/-- What the service reads its catalog from. -/
structure Repository where
  snapshot : Result CatalogSnapshot
  searchArtists : ArtistFilter → PageRequest → Result (Page Artist)
  artist : Int → Result ArtistDetail
  artistReleases : Int → PageRequest → Result (Page ArtistRelease)
  searchLabels : LabelFilter → PageRequest → Result (Page Label)
  label : Int → Result LabelDetail
  labelReleases : Int → PageRequest → Result (Page LabelRelease)
  searchMasters : MasterFilter → PageRequest → Result (Page Master)
  master : Int → Result MasterDetail
  masterReleases : Int → PageRequest → Result (Page MasterRelease)
  searchReleases : ReleaseFilter → PageRequest → Result (Page Release)
  releasesByCatalogNumber : CatalogNumberLookup → PageRequest → Result (Page Release)
  releasesByIdentifier : IdentifierLookup → PageRequest → Result (Page Release)
  release : Int → Result ReleaseDetail
  releaseTracks : Int → HashPageRequest → Result (HashPage ReleaseTrack)
  releaseIdentifiers : Int → HashPageRequest → Result (HashPage ReleaseIdentifier)

instance : PageItem Artist := ⟨Artist.id⟩
instance : PageItem ArtistRelease := ⟨ArtistRelease.id⟩
instance : PageItem Label := ⟨Label.id⟩
instance : PageItem LabelRelease := ⟨LabelRelease.id⟩
instance : PageItem Master := ⟨Master.id⟩
instance : PageItem MasterRelease := ⟨MasterRelease.id⟩
instance : PageItem Release := ⟨Release.id⟩
instance : HashPageItem ReleaseTrack := ⟨ReleaseTrack.hash⟩
instance : HashPageItem ReleaseIdentifier := ⟨ReleaseIdentifier.hash⟩

/-- A page of at least one row keeps the front of what was read, and knows of more exactly when
a row is cut off. -/
theorem lookAhead_pos {β : Type} (build : List α → Bool → β) (items : List α) {size : Int}
    (h : 0 < size) : lookAhead build items size =
      .value (build (items.take size.toNat) (decide (size.toNat < items.length))) := by
  unfold lookAhead slice
  split
  · next hlt =>
    have hn : size.toNat < items.length := by omega
    simp [show ¬size < 0 by omega, hn]
  · next hlt =>
    have hn : ¬size.toNat < items.length := by omega
    rw [List.take_of_length_le (by omega)]
    simp [hn]

/-- The cursor of a full page is its last item's key; a page without a successor has none. -/
theorem nextAfter_eq {κ : Type} (key : α → κ) (items : List α) (hasMore : Bool) :
    nextAfter key items hasMore = if hasMore then (items.map key).getLast? else none := by
  rw [nextAfter, List.getLast?_map]
  cases hasMore with
  | false => rfl
  | true => cases items <;> rfl

end OpenDiscogs.Catalog
