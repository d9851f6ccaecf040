import OpenDiscogs.HttpApi.Responder
import OpenDiscogs.Library.JsonDocument

/-! The JSON documents of everything the service sends, under the names that clients read. -/
namespace OpenDiscogs.HttpApi
open Utf8 SqlText Catalog Json

/-- How points in time are written; every zone and precision of a server writes different times
differently. -/
structure TimeFormat where
  format : Int → Text
  injective : Function.Injective format

namespace Documents

variable (times : TimeFormat)

def time (t : Int) : Value := text (times.format t)

def url (s : Bytes) : Value := .string s

def snapshotEntity (e : SnapshotEntity) : Value :=
  record [("entity_type", text e.entityType), ("status", text e.status),
    ("dump_date", nullable text e.dumpDate), ("applied_at", nullable (time times) e.appliedAt),
    ("processor", nullable text e.processor),
    ("processor_version", nullable text e.processorVersion)]

def catalogSnapshot (s : CatalogSnapshot) : Value :=
  record [("ready", .bool s.ready), ("status", text s.status), ("updated_at", time times s.updatedAt),
    ("entities", list (snapshotEntity times) s.entities)]

def artistFields (a : Artist) : List (String × Value) :=
  [("id", integer a.id), ("name", nullable text a.name), ("real_name", nullable text a.realName),
   ("profile", nullable text a.profile), ("data_quality", nullable text a.dataQuality)]

def artist (a : Artist) : Value := record (artistFields a)

def artistReference (r : ArtistReference) : Value :=
  record [("id", integer r.id), ("name", nullable text r.name),
    ("resource_url", url r.resourceURL)]

/-- The fields of the artist itself come first. -/
def artistDetail (d : ArtistDetail) : Value :=
  record (artistFields d.toArtist ++
    [("members", list artistReference d.members), ("groups", list artistReference d.groups),
     ("aliases", list artistReference d.aliases), ("namevariations", list text d.nameVariations),
     ("urls", list text d.urls), ("uri", url d.uri), ("release_url", url d.releaseURL)])

def artistRelease (r : ArtistRelease) : Value :=
  record [("id", integer r.id), ("role", nullable text r.role), ("title", nullable text r.title),
    ("country", nullable text r.country), ("data_quality", nullable text r.dataQuality),
    ("released_year", nullable integer r.releasedYear),
    ("released_month", nullable integer r.releasedMonth),
    ("released_day", nullable integer r.releasedDay),
    ("listed_release_date", nullable text r.listedReleaseDate),
    ("is_master", nullable .bool r.isMaster), ("master_id", nullable integer r.masterID),
    ("notes", nullable text r.notes), ("status", nullable text r.status),
    ("resource_url", url r.resourceURL)]

def labelFields (l : Label) : List (String × Value) :=
  [("id", integer l.id), ("contact_info", nullable text l.contactInfo),
   ("data_quality", nullable text l.dataQuality), ("name", nullable text l.name),
   ("profile", nullable text l.profile)]

def label (l : Label) : Value := record (labelFields l)

def labelReference (r : LabelReference) : Value :=
  record [("id", integer r.id), ("name", nullable text r.name),
    ("resource_url", url r.resourceURL)]

def labelDetail (d : LabelDetail) : Value :=
  record (labelFields d.toLabel ++
    [("parent_label", nullable labelReference d.parentLabel),
     ("sublabels", list labelReference d.sublabels), ("urls", list text d.urls),
     ("uri", url d.uri), ("release_url", url d.releaseURL)])

def labelRelease (r : LabelRelease) : Value :=
  record [("id", integer r.id), ("artist", nullable text r.artist),
    ("title", nullable text r.title), ("year", nullable integer r.year),
    ("status", nullable text r.status), ("catnos", list text r.catalogNumbers),
    ("format", nullable text r.format)]

def master (m : Master) : Value :=
  record [("id", integer m.id), ("data_quality", nullable text m.dataQuality),
    ("title", nullable text m.title), ("released_year", nullable integer m.releasedYear)]

def masterVideo (v : MasterVideo) : Value :=
  record [("url", nullable text v.url), ("description", nullable text v.description),
    ("title", nullable text v.title)]

def masterDetail (d : MasterDetail) : Value :=
  record [("id", integer d.id), ("title", nullable text d.title),
    ("data_quality", nullable text d.dataQuality), ("main_release", nullable integer d.mainRelease),
    ("year", nullable integer d.year), ("genres", list text d.genres),
    ("styles", list text d.styles), ("artists", list artistReference d.artists),
    ("videos", list masterVideo d.videos)]

def masterRelease (r : MasterRelease) : Value :=
  record [("id", integer r.id), ("title", nullable text r.title), ("artist", list text r.artists),
    ("artist_id", list integer r.artistIDs), ("year", nullable integer r.year),
    ("resource_url", url r.resourceURL)]

def releaseFields (r : Release) : List (String × Value) :=
  [("id", integer r.id), ("title", nullable text r.title), ("country", nullable text r.country),
   ("data_quality", nullable text r.dataQuality),
   ("released_year", nullable integer r.releasedYear),
   ("released_month", nullable integer r.releasedMonth),
   ("released_day", nullable integer r.releasedDay),
   ("listed_release_date", nullable text r.listedReleaseDate),
   ("is_master", nullable .bool r.isMaster), ("master_id", nullable integer r.masterID),
   ("notes", nullable text r.notes), ("status", nullable text r.status)]

def release (r : Release) : Value := record (releaseFields r)

def releaseArtist (a : ReleaseArtist) : Value :=
  record [("id", integer a.id), ("name", nullable text a.name), ("role", nullable text a.role),
    ("resource_url", url a.resourceURL)]

def releaseLabel (l : ReleaseLabel) : Value :=
  record [("id", integer l.id), ("name", nullable text l.name),
    ("catno", nullable text l.categoryNotation), ("resource_url", url l.resourceURL)]

def releaseFormat (f : ReleaseFormat) : Value :=
  record [("name", nullable text f.name), ("qty", nullable text f.quantity),
    ("descriptions", list text f.descriptions)]

def releaseVideo (v : ReleaseVideo) : Value :=
  record [("title", nullable text v.title), ("url", nullable text v.url),
    ("description", nullable text v.description)]

def releaseDetail (d : ReleaseDetail) : Value :=
  record (releaseFields d.toRelease ++
    [("artists", list releaseArtist d.artists), ("labels", list releaseLabel d.labels),
     ("companies", list releaseLabel d.companies), ("formats", list releaseFormat d.formats),
     ("styles", list text d.styles), ("genres", list text d.genres),
     ("videos", list releaseVideo d.videos)])

/-- The hash of a track is its place in the pages, and is not sent. -/
def releaseTrack (t : ReleaseTrack) : Value :=
  record [("duration", nullable text t.duration), ("position", nullable text t.position),
    ("title", nullable text t.title)]

def releaseIdentifier (i : ReleaseIdentifier) : Value :=
  record [("description", nullable text i.description), ("type", nullable text i.type),
    ("value", nullable text i.value)]

def page {α : Type} (document : α → Value) (p : PageResponse α) : Value :=
  record [("items", list document p.items), ("next_after_id", nullable integer p.nextAfterID),
    ("has_more", .bool p.hasMore), ("page_size", integer p.pageSize),
    ("resource_uri", url p.resourceURI)]

def hashPage {α : Type} (document : α → Value) (p : HashPageResponse α) : Value :=
  record [("items", list document p.items), ("next_cursor", nullable url p.nextCursor),
    ("has_more", .bool p.hasMore), ("page_size", integer p.pageSize),
    ("resource_uri", url p.resourceURI)]

def payload : Payload → Value
  | .snapshot snapshot => catalogSnapshot times snapshot
  | .artists p => page artist p
  | .artist detail => artistDetail detail
  | .artistReleases p => page artistRelease p
  | .labels p => page label p
  | .label detail => labelDetail detail
  | .labelReleases p => page labelRelease p
  | .masters p => page master p
  | .master detail => masterDetail detail
  | .masterReleases p => page masterRelease p
  | .releases p => page release p
  | .release detail => releaseDetail detail
  | .releaseTracks p => hashPage releaseTrack p
  | .releaseIdentifiers p => hashPage releaseIdentifier p

def problemDocument (d : ProblemDocument) : Value :=
  record [("type", .string (lit d.type)), ("title", .string (lit d.title)),
    ("status", integer d.status), ("detail", .string (lit d.detail)),
    ("instance", url d.instanceURI)]

def jsonPayload : JSONPayload → Value
  | .catalog p => payload times p
  | .problem document => problemDocument document

end Documents

/-- The layout of the encoder, with its escaping of HTML off: no blanks, and the two separators
that JavaScript takes for line ends by their number. -/
def encoderStyle : Style where
  blank := []
  escapes c := c.toNat = 0x2028 || c.toNat = 0x2029
  blank_isBlank := nofun
  escapes_short c h := by
    simp only [Bool.or_eq_true, decide_eq_true_eq] at h
    omega

/-- `encoder.Encode(value)`: a line feed ends every document. -/
def encodeJSON (times : TimeFormat) (value : JSONPayload) : Bytes :=
  encoderStyle.write (Documents.jsonPayload times value) ++ [0x0A]

namespace Documents
variable {times : TimeFormat}

@[simp] theorem nests_url (s : Bytes) (n : Nat) : (url s).Nests n := nests_string s n

@[simp] theorem nests_time (t : Int) (n : Nat) : (time times t).Nests n := nests_text _ n

@[simp] theorem nests_artistReference (r : ArtistReference) (n : Nat) :
    (artistReference r).Nests (n+1) := by
  simp [artistReference]

@[simp] theorem nests_labelReference (r : LabelReference) (n : Nat) :
    (labelReference r).Nests (n+1) := by
  simp [labelReference]

@[simp] theorem nests_masterVideo (v : MasterVideo) (n : Nat) : (masterVideo v).Nests (n+1) := by
  simp [masterVideo]

@[simp] theorem nests_releaseArtist (a : ReleaseArtist) (n : Nat) :
    (releaseArtist a).Nests (n+1) := by
  simp [releaseArtist]

@[simp] theorem nests_releaseLabel (l : ReleaseLabel) (n : Nat) :
    (releaseLabel l).Nests (n+1) := by
  simp [releaseLabel]

@[simp] theorem nests_releaseFormat (f : ReleaseFormat) (n : Nat) :
    (releaseFormat f).Nests (n+2) := by
  simp [releaseFormat]

@[simp] theorem nests_releaseVideo (v : ReleaseVideo) (n : Nat) :
    (releaseVideo v).Nests (n+1) := by
  simp [releaseVideo]

@[simp] theorem nests_snapshotEntity (e : SnapshotEntity) (n : Nat) :
    (snapshotEntity times e).Nests (n+1) := by
  simp [snapshotEntity]

theorem nests_page {α : Type} {document : α → Value} (h : ∀ a, (document a).Nests 2)
    (p : PageResponse α) : (page document p).Nests 4 := by
  simp [page, h]

theorem nests_hashPage {α : Type} {document : α → Value} (h : ∀ a, (document a).Nests 2)
    (p : HashPageResponse α) : (hashPage document p).Nests 4 := by
  simp [hashPage, h]

/-- Pages and details hold lists of objects, which may hold one more list. -/
theorem nests_payload (p : Payload) : (payload times p).Nests 4 := by
  cases p with
  | snapshot s => simp [payload, catalogSnapshot]
  | artists p => exact nests_page (fun a => by simp [artist, artistFields]) p
  | artist d => simp [payload, artistDetail, artistFields]
  | artistReleases p => exact nests_page (fun a => by simp [artistRelease]) p
  | labels p => exact nests_page (fun a => by simp [label, labelFields]) p
  | label d => simp [payload, labelDetail, labelFields]
  | labelReleases p => exact nests_page (fun a => by simp [labelRelease]) p
  | masters p => exact nests_page (fun a => by simp [master]) p
  | master d => simp [payload, masterDetail]
  | masterReleases p => exact nests_page (fun a => by simp [masterRelease]) p
  | releases p => exact nests_page (fun a => by simp [release, releaseFields]) p
  | release d => simp [payload, releaseDetail, releaseFields]
  | releaseTracks p => exact nests_hashPage (fun a => by simp [releaseTrack]) p
  | releaseIdentifiers p => exact nests_hashPage (fun a => by simp [releaseIdentifier]) p

theorem nests_jsonPayload (value : JSONPayload) : (jsonPayload times value).Nests 4 := by
  cases value with
  | catalog p => exact nests_payload p
  | problem document => simp [jsonPayload, problemDocument]

end Documents

/-- Every body the service writes is one JSON document: a parser gets back what was encoded, with
U+FFFD for each byte of a path that is part of no character. -/
theorem parse_encodeJSON (times : TimeFormat) (value : JSONPayload) :
    parse (encodeJSON times value) = some (Documents.jsonPayload times value).valid := by
  have hdepth : (Documents.jsonPayload times value).depth ≤ maximumDepth :=
    Nat.le_trans (Documents.nests_jsonPayload value) (by decide)
  exact parse_written encoderStyle hdepth (List.forall_mem_singleton.mpr rfl)

end OpenDiscogs.HttpApi
