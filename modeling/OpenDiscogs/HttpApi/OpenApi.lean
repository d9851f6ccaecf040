import OpenDiscogs.HttpApi.Documents
import OpenDiscogs.Library.JsonSchema

/-! The OpenAPI document: the schemas of all bodies, and the operations with the responses that
they may have. -/
namespace OpenDiscogs.HttpApi.OpenApi
open Utf8 SqlText Catalog

section Schemas
open Json.Schema

def nullableString : Json.Schema := anyType [string, null]

def nullableInteger : Json.Schema := anyType [integer, null]

def nullableBoolean : Json.Schema := anyType [boolean, null]

def pageEnvelope : Json.Schema :=
  object ["items", "next_after_id", "has_more", "page_size", "resource_uri"]
    [("next_after_id", allOf [anyType [integer, null], range 1 2147483647]),
     ("has_more", boolean), ("page_size", integer), ("resource_uri", string)]

def hashPageEnvelope : Json.Schema :=
  object ["items", "next_cursor", "has_more", "page_size", "resource_uri"]
    [("next_cursor", anyType [string, null]), ("has_more", boolean), ("page_size", integer),
     ("resource_uri", string)]

def artist : Json.Schema :=
  object ["id", "name", "real_name", "profile", "data_quality"]
    [("id", integer), ("name", nullableString), ("real_name", nullableString),
     ("profile", nullableString), ("data_quality", nullableString)]

def artistReference : Json.Schema :=
  object ["id", "name", "resource_url"]
    [("id", integer), ("name", nullableString), ("resource_url", string)]

def artistDetail : Json.Schema :=
  allOf [artist,
    object ["members", "groups", "aliases", "namevariations", "urls", "uri", "release_url"]
      [("members", array artistReference), ("groups", array artistReference),
       ("aliases", array artistReference), ("namevariations", array string),
       ("urls", array string), ("uri", string), ("release_url", string)]]

def release : Json.Schema :=
  object ["id", "title", "country", "data_quality", "released_year", "released_month",
      "released_day", "listed_release_date", "is_master", "master_id", "notes", "status"]
    [("id", integer), ("title", nullableString), ("country", nullableString),
     ("data_quality", nullableString), ("released_year", nullableInteger),
     ("released_month", nullableInteger), ("released_day", nullableInteger),
     ("listed_release_date", nullableString), ("is_master", nullableBoolean),
     ("master_id", nullableInteger), ("notes", nullableString), ("status", nullableString)]

def artistRelease : Json.Schema :=
  allOf [release,
    object ["role", "resource_url"] [("role", nullableString), ("resource_url", string)]]

def label : Json.Schema :=
  object ["id", "contact_info", "data_quality", "name", "profile"]
    [("id", integer), ("contact_info", nullableString), ("data_quality", nullableString),
     ("name", nullableString), ("profile", nullableString)]

def labelReference : Json.Schema :=
  object ["id", "name", "resource_url"]
    [("id", integer), ("name", nullableString), ("resource_url", string)]

def labelDetail : Json.Schema :=
  allOf [label,
    object ["parent_label", "sublabels", "urls", "uri", "release_url"]
      [("parent_label", oneOf [labelReference, null]), ("sublabels", array labelReference),
       ("urls", array string), ("uri", string), ("release_url", string)]]

def labelRelease : Json.Schema :=
  object ["id", "artist", "title", "year", "status", "catnos", "format"]
    [("id", integer), ("artist", nullableString), ("title", nullableString),
     ("year", nullableInteger), ("status", nullableString), ("catnos", array string),
     ("format", nullableString)]

def master : Json.Schema :=
  object ["id", "data_quality", "title", "released_year"]
    [("id", integer), ("data_quality", nullableString), ("title", nullableString),
     ("released_year", nullableInteger)]

def video : Json.Schema :=
  object ["title", "url", "description"]
    [("title", nullableString), ("url", nullableString), ("description", nullableString)]

def masterDetail : Json.Schema :=
  object ["id", "title", "data_quality", "main_release", "year", "genres", "styles", "artists",
      "videos"]
    [("id", integer), ("title", nullableString), ("data_quality", nullableString),
     ("main_release", nullableInteger), ("year", nullableInteger), ("genres", array string),
     ("styles", array string), ("artists", array artistReference), ("videos", array video)]

def masterRelease : Json.Schema :=
  object ["id", "title", "artist", "artist_id", "year", "resource_url"]
    [("id", integer), ("title", nullableString), ("artist", array string),
     ("artist_id", array integer), ("year", nullableInteger), ("resource_url", string)]

def releaseArtist : Json.Schema :=
  object ["id", "name", "role", "resource_url"]
    [("id", integer), ("name", nullableString), ("role", nullableString),
     ("resource_url", string)]

def releaseLabel : Json.Schema :=
  object ["id", "name", "catno", "resource_url"]
    [("id", integer), ("name", nullableString), ("catno", nullableString),
     ("resource_url", string)]

def releaseFormat : Json.Schema :=
  object ["name", "qty", "descriptions"]
    [("name", nullableString), ("qty", nullableString), ("descriptions", array string)]

def releaseDetail : Json.Schema :=
  allOf [release,
    object ["artists", "labels", "companies", "formats", "styles", "genres", "videos"]
      [("artists", array releaseArtist), ("labels", array releaseLabel),
       ("companies", array releaseLabel), ("formats", array releaseFormat),
       ("styles", array string), ("genres", array string), ("videos", array video)]]

def releaseTrack : Json.Schema :=
  object ["duration", "position", "title"]
    [("duration", nullableString), ("position", nullableString), ("title", nullableString)]

def releaseIdentifier : Json.Schema :=
  object ["description", "type", "value"]
    [("description", nullableString), ("type", nullableString), ("value", nullableString)]

def entityTypes := ["artist", "label", "master", "release"]

def statuses := ["bootstrap_pending", "importing", "ready", "failed"]

def snapshotEntity : Json.Schema :=
  object ["entity_type", "status", "dump_date", "applied_at", "processor", "processor_version"]
    [("entity_type", allOf [string, enum entityTypes]), ("status", allOf [string, enum statuses]),
     ("dump_date", anyType [string, null]), ("applied_at", anyType [string, null]),
     ("processor", nullableString), ("processor_version", nullableString)]

def catalogSnapshot : Json.Schema :=
  object ["ready", "status", "updated_at", "entities"]
    [("ready", boolean), ("status", allOf [string, enum statuses]), ("updated_at", string),
     ("entities", allOf [array snapshotEntity, itemCount 4 4])]

def pageOf (envelope item : Json.Schema) : Json.Schema :=
  allOf [envelope, object ["items"] [("items", array item)]]

def artistPage := pageOf pageEnvelope artist
def artistReleasePage := pageOf pageEnvelope artistRelease
def labelPage := pageOf pageEnvelope label
def labelReleasePage := pageOf pageEnvelope labelRelease
def masterPage := pageOf pageEnvelope master
def masterReleasePage := pageOf pageEnvelope masterRelease
def releasePage := pageOf pageEnvelope release
def releaseTrackPage := pageOf hashPageEnvelope releaseTrack
def releaseIdentifierPage := pageOf hashPageEnvelope releaseIdentifier

def problem : Json.Schema :=
  object ["type", "title", "status", "detail", "instance"]
    [("type", string), ("title", string), ("status", integer), ("detail", string),
     ("instance", string)]

def version : Json.Schema := object ["version"] [("version", string)]

end Schemas

/-- A response with its one media type. -/
structure Response where
  status : Nat
  mediaType : String
  schema : Json.Schema

def ok (schema : Json.Schema) : Response := ⟨200, "application/json", schema⟩
def badRequest : Response := ⟨400, "application/problem+json", problem⟩
def notFound : Response := ⟨404, "application/problem+json", problem⟩
def gatewayTimeout : Response := ⟨504, "application/problem+json", problem⟩

/-- `get` of a path. -/
structure Operation where
  path : String
  responses : List Response

def paths : List Operation :=
  [⟨"/artists", [ok artistPage, badRequest, gatewayTimeout]⟩,
   ⟨"/artists/{id}", [ok artistDetail, badRequest, notFound, gatewayTimeout]⟩,
   ⟨"/artists/{id}/releases", [ok artistReleasePage, badRequest, gatewayTimeout]⟩,
   ⟨"/labels", [ok labelPage, badRequest, gatewayTimeout]⟩,
   ⟨"/labels/{id}", [ok labelDetail, badRequest, notFound, gatewayTimeout]⟩,
   ⟨"/labels/{id}/releases", [ok labelReleasePage, badRequest, gatewayTimeout]⟩,
   ⟨"/masters", [ok masterPage, badRequest, gatewayTimeout]⟩,
   ⟨"/masters/{id}", [ok masterDetail, badRequest, notFound, gatewayTimeout]⟩,
   ⟨"/masters/{id}/releases", [ok masterReleasePage, badRequest, gatewayTimeout]⟩,
   ⟨"/releases", [ok releasePage, badRequest, gatewayTimeout]⟩,
   ⟨"/releases/{id}", [ok releaseDetail, badRequest, notFound, gatewayTimeout]⟩,
   ⟨"/releases/{id}/tracks", [ok releaseTrackPage, badRequest, notFound, gatewayTimeout]⟩,
   ⟨"/releases/{id}/identifiers",
    [ok releaseIdentifierPage, badRequest, notFound, gatewayTimeout]⟩,
   ⟨"/snapshot", [ok catalogSnapshot, gatewayTimeout]⟩,
   ⟨"/version", [ok version]⟩]

/-! The documents meet the schemas -/

section Conforms
open Json
variable {times : TimeFormat}

@[simp] theorem nullableString_text (x : Option Text) :
    nullableString (nullable text x) = true :=
  Schema.anyType_nullable Schema.string_text

@[simp] theorem nullableInteger_integer (x : Option Int) :
    nullableInteger (nullable integer x) = true :=
  Schema.anyType_nullable Schema.integer_integer

@[simp] theorem nullableBoolean_bool (x : Option Bool) :
    nullableBoolean (nullable .bool x) = true :=
  Schema.anyType_nullable Schema.boolean_bool

@[simp] theorem array_text (ts : List Text) : Schema.array Schema.string (list text ts) = true :=
  Schema.array_list fun t _ => Schema.string_text t

@[simp] theorem array_integer (ns : List Int) :
    Schema.array Schema.integer (list integer ns) = true :=
  Schema.array_list fun n _ => Schema.integer_integer n

@[simp] theorem string_url (s : Bytes) : Schema.string (Documents.url s).valid = true := rfl

theorem array_conforms {α : Type} {schema : Schema} {document : α → Value}
    (h : ∀ a, schema (document a).valid = true) (items : List α) :
    Schema.array schema (list (fun a => (document a).valid) items) = true :=
  Schema.array_list fun a _ => h a

@[simp] theorem artist_conforms (a : Artist) : artist (Documents.artist a).valid = true := by
  rw [Documents.artist, valid_record]
  refine Schema.object_record ?_ ?_ <;> simp [Documents.artistFields]

@[simp] theorem artistReference_conforms (r : ArtistReference) :
    artistReference (Documents.artistReference r).valid = true := by
  rw [Documents.artistReference, valid_record]
  refine Schema.object_record ?_ ?_ <;> simp

theorem artistDetail_conforms (d : ArtistDetail) :
    artistDetail (Documents.artistDetail d).valid = true := by
  simp only [artistDetail, Schema.allOf, Documents.artistDetail, valid_record, List.all_cons,
    List.all_nil, Bool.and_true, Bool.and_eq_true]
  refine ⟨Schema.object_record ?_ ?_, Schema.object_record ?_ ?_⟩
  · simp [Documents.artistFields]
  · simp [Documents.artistFields]
  · simp [Documents.artistFields]
  · simp [Documents.artistFields, array_conforms]

@[simp] theorem release_conforms (r : Release) : release (Documents.release r).valid = true := by
  rw [Documents.release, valid_record]
  refine Schema.object_record ?_ ?_ <;> simp [Documents.releaseFields]

@[simp] theorem artistRelease_conforms (r : ArtistRelease) :
    artistRelease (Documents.artistRelease r).valid = true := by
  simp only [artistRelease, Schema.allOf, Documents.artistRelease, valid_record, List.all_cons,
    List.all_nil, Bool.and_true, Bool.and_eq_true]
  refine ⟨Schema.object_record ?_ ?_, Schema.object_record ?_ ?_⟩ <;> simp

@[simp] theorem label_conforms (l : Label) : label (Documents.label l).valid = true := by
  rw [Documents.label, valid_record]
  refine Schema.object_record ?_ ?_ <;> simp [Documents.labelFields]

@[simp] theorem labelReference_conforms (r : LabelReference) :
    labelReference (Documents.labelReference r).valid = true := by
  rw [Documents.labelReference, valid_record]
  refine Schema.object_record ?_ ?_ <;> simp

/-- A reference is no null, so only one of the two schemas is met. -/
@[simp] theorem parentLabel_conforms (x : Option LabelReference) :
    Schema.oneOf [labelReference, Schema.null]
      (nullable (fun r => (Documents.labelReference r).valid) x) = true := by
  cases x with
  | none => rfl
  | some r =>
    have hnull : Schema.null (Documents.labelReference r).valid = false := rfl
    simp [Schema.oneOf, nullable, hnull]

theorem labelDetail_conforms (d : LabelDetail) :
    labelDetail (Documents.labelDetail d).valid = true := by
  simp only [labelDetail, Schema.allOf, Documents.labelDetail, valid_record, List.all_cons,
    List.all_nil, Bool.and_true, Bool.and_eq_true]
  refine ⟨Schema.object_record ?_ ?_, Schema.object_record ?_ ?_⟩
  · simp [Documents.labelFields]
  · simp [Documents.labelFields]
  · simp [Documents.labelFields]
  · simp [Documents.labelFields, array_conforms]

@[simp] theorem labelRelease_conforms (r : LabelRelease) :
    labelRelease (Documents.labelRelease r).valid = true := by
  rw [Documents.labelRelease, valid_record]
  refine Schema.object_record ?_ ?_ <;> simp

@[simp] theorem master_conforms (m : Master) : master (Documents.master m).valid = true := by
  rw [Documents.master, valid_record]
  refine Schema.object_record ?_ ?_ <;> simp

@[simp] theorem masterVideo_conforms (v : MasterVideo) :
    video (Documents.masterVideo v).valid = true := by
  rw [Documents.masterVideo, valid_record]
  refine Schema.object_record ?_ ?_ <;> simp

theorem masterDetail_conforms (d : MasterDetail) :
    masterDetail (Documents.masterDetail d).valid = true := by
  rw [Documents.masterDetail, valid_record]
  refine Schema.object_record ?_ ?_ <;> simp [array_conforms]

@[simp] theorem masterRelease_conforms (r : MasterRelease) :
    masterRelease (Documents.masterRelease r).valid = true := by
  rw [Documents.masterRelease, valid_record]
  refine Schema.object_record ?_ ?_ <;> simp

@[simp] theorem releaseArtist_conforms (a : ReleaseArtist) :
    releaseArtist (Documents.releaseArtist a).valid = true := by
  rw [Documents.releaseArtist, valid_record]
  refine Schema.object_record ?_ ?_ <;> simp

@[simp] theorem releaseLabel_conforms (l : ReleaseLabel) :
    releaseLabel (Documents.releaseLabel l).valid = true := by
  rw [Documents.releaseLabel, valid_record]
  refine Schema.object_record ?_ ?_ <;> simp

@[simp] theorem releaseFormat_conforms (f : ReleaseFormat) :
    releaseFormat (Documents.releaseFormat f).valid = true := by
  rw [Documents.releaseFormat, valid_record]
  refine Schema.object_record ?_ ?_ <;> simp

@[simp] theorem releaseVideo_conforms (v : ReleaseVideo) :
    video (Documents.releaseVideo v).valid = true := by
  rw [Documents.releaseVideo, valid_record]
  refine Schema.object_record ?_ ?_ <;> simp

theorem releaseDetail_conforms (d : ReleaseDetail) :
    releaseDetail (Documents.releaseDetail d).valid = true := by
  simp only [releaseDetail, Schema.allOf, Documents.releaseDetail, valid_record, List.all_cons,
    List.all_nil, Bool.and_true, Bool.and_eq_true]
  refine ⟨Schema.object_record ?_ ?_, Schema.object_record ?_ ?_⟩
  · simp [Documents.releaseFields]
  · simp [Documents.releaseFields]
  · simp [Documents.releaseFields]
  · simp [Documents.releaseFields, array_conforms]

@[simp] theorem releaseTrack_conforms (t : ReleaseTrack) :
    releaseTrack (Documents.releaseTrack t).valid = true := by
  rw [Documents.releaseTrack, valid_record]
  refine Schema.object_record ?_ ?_ <;> simp

@[simp] theorem releaseIdentifier_conforms (i : ReleaseIdentifier) :
    releaseIdentifier (Documents.releaseIdentifier i).valid = true := by
  rw [Documents.releaseIdentifier, valid_record]
  refine Schema.object_record ?_ ?_ <;> simp

theorem problem_conforms (d : ProblemDocument) :
    problem (Documents.problemDocument d).valid = true := by
  rw [Documents.problemDocument, valid_record]
  refine Schema.object_record ?_ ?_ <;> simp

theorem version_conforms (v : Bytes) :
    version (record [("version", .string v)]).valid = true := by
  rw [valid_record]
  refine Schema.object_record ?_ ?_ <;> simp

/-- What the schemas ask of a cursor: it is an identifier. -/
def LegalCursor (cursor : Option Int) : Prop := ∀ n ∈ cursor, 1 ≤ n ∧ n ≤ 2147483647

@[simp] theorem range_cursor {cursor : Option Int} (h : LegalCursor cursor) :
    Schema.range 1 2147483647 (nullable integer cursor) = true := by
  cases cursor with
  | none => rfl
  | some n => exact Schema.range_integer (h n rfl) (by have := h n rfl; omega)

theorem page_conforms {α : Type} {schema : Schema} {document : α → Value}
    (h : ∀ a, schema (document a).valid = true) {p : PageResponse α}
    (hp : LegalCursor p.nextAfterID) :
    pageOf pageEnvelope schema (Documents.page document p).valid = true := by
  simp only [pageOf, Schema.allOf, Documents.page, valid_record, List.all_cons, List.all_nil,
    Bool.and_true, Bool.and_eq_true]
  refine ⟨Schema.object_record ?_ ?_, Schema.object_record ?_ ?_⟩
  · simp
  · have hcursor := nullableInteger_integer p.nextAfterID
    rw [nullableInteger] at hcursor
    simp [Schema.allOf, hp, hcursor]
  · simp
  · simp [array_conforms h]

theorem hashPage_conforms {α : Type} {schema : Schema} {document : α → Value}
    (h : ∀ a, schema (document a).valid = true) (p : HashPageResponse α) :
    pageOf hashPageEnvelope schema (Documents.hashPage document p).valid = true := by
  have hcursor : Schema.anyType [Schema.string, Schema.null]
      (nullable (fun c => (Documents.url c).valid) p.nextCursor) = true :=
    Schema.anyType_nullable fun c => string_url c
  simp only [pageOf, Schema.allOf, Documents.hashPage, valid_record, List.all_cons, List.all_nil,
    Bool.and_true, Bool.and_eq_true]
  refine ⟨Schema.object_record ?_ ?_, Schema.object_record ?_ ?_⟩
  · simp
  · simp [hcursor]
  · simp
  · simp [array_conforms h]

/-- What the schemas ask of a snapshot: the four collections, and no other status. -/
structure LegalSnapshot (s : CatalogSnapshot) : Prop where
  status : ∃ status ∈ statuses, s.status.bytes = lit status
  count : s.entities.length = 4
  entityType : ∀ e ∈ s.entities, ∃ entityType ∈ entityTypes, e.entityType.bytes = lit entityType
  entityStatus : ∀ e ∈ s.entities, ∃ status ∈ statuses, e.status.bytes = lit status

theorem snapshotEntity_conforms {e : SnapshotEntity}
    (htype : ∃ entityType ∈ entityTypes, e.entityType.bytes = lit entityType)
    (hstatus : ∃ status ∈ statuses, e.status.bytes = lit status) :
    snapshotEntity (Documents.snapshotEntity times e).valid = true := by
  have hdate : Schema.anyType [Schema.string, Schema.null] (nullable text e.dumpDate) = true :=
    Schema.anyType_nullable Schema.string_text
  have happlied : Schema.anyType [Schema.string, Schema.null]
      (nullable (fun n => (Documents.time times n).valid) e.appliedAt) = true :=
    Schema.anyType_nullable fun n => rfl
  rw [Documents.snapshotEntity, valid_record]
  refine Schema.object_record ?_ ?_
  · simp
  · simp [Schema.allOf, Schema.enum_text htype, Schema.enum_text hstatus, hdate, happlied]

theorem catalogSnapshot_conforms {s : CatalogSnapshot} (h : LegalSnapshot s) :
    catalogSnapshot (Documents.catalogSnapshot times s).valid = true := by
  have hentities : Schema.array snapshotEntity
      (list (fun e => (Documents.snapshotEntity times e).valid) s.entities) = true :=
    Schema.array_list fun e he => snapshotEntity_conforms (h.entityType e he) (h.entityStatus e he)
  have hcount : Schema.itemCount 4 4
      (list (fun e => (Documents.snapshotEntity times e).valid) s.entities) = true := by
    simp [Schema.itemCount, list, h.count]
  have htime : Schema.string (Documents.time times s.updatedAt).valid = true := rfl
  rw [Documents.catalogSnapshot, valid_record]
  refine Schema.object_record ?_ ?_
  · simp
  · simp [Schema.allOf, Schema.enum_text h.status, hentities, hcount, htime]

end Conforms
end OpenDiscogs.HttpApi.OpenApi
