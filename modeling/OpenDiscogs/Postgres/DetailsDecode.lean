import OpenDiscogs.Library.JsonUnmarshal
import OpenDiscogs.Postgres.CatalogDetails
import OpenDiscogs.Postgres.Reads

/-! The details as they travel: PostgreSQL aggregates the attached rows into `jsonb` texts, and
the store decodes these. -/
namespace OpenDiscogs.Postgres
open Utf8 SqlText Catalog

/-! Texts of `jsonb` values -/

/-- Bytes in their order, as `memcmp` compares texts of one length. -/
def bytesBefore : Bytes → Bytes → Bool
  | a::s, b::t => a < b || a = b && bytesBefore s t
  | _, _ => true

/-- The order of an object's keys in `jsonb`: by length, and keys of one length by their bytes. -/
def jsonbBefore (a b : Bytes × Json.Value) : Bool :=
  a.1.length < b.1.length || a.1.length = b.1.length && bytesBefore a.1 b.1

/-- `jsonb_build_object` with every key once. -/
def jsonbBuildObject (fields : List (String × Json.Value)) : Json.Value :=
  .object ((fields.map fun field => (lit field.1, field.2)).insertionSort (jsonbBefore · ·))

/-- `jsonb_agg`: null when there is no row. -/
def jsonbAgg {ρ : Type} (element : ρ → Json.Value) : List ρ → Option Json.Value
  | [] => none
  | row::rows => some (Json.list element (row::rows))

/-- PostgreSQL puts a blank after commas and colons, and writes only control characters by their
number. -/
def jsonbStyle : Json.Style where
  blank := [0x20]
  escapes _ := false
  blank_isBlank := List.forall_mem_singleton.mpr rfl
  escapes_short := nofun

def jsonbText (v : Json.Value) : Bytes := jsonbStyle.write v

/-- `COALESCE((SELECT jsonb_agg(...)), '[]'::jsonb)` -/
def aggregated {ρ : Type} (element : ρ → Json.Value) (rows : List ρ) : Bytes :=
  jsonbText ((jsonbAgg element rows).getD (.array []))

def urlValue (s : Bytes) : Json.Value := .string s

def referenceObject (id : Int) (name : Option Text) (resourceURL : Bytes) : Json.Value :=
  jsonbBuildObject [("id", Json.integer id), ("name", Json.nullable Json.text name),
    ("resource_url", urlValue resourceURL)]

def artistReferenceObject (r : ArtistReference) : Json.Value :=
  referenceObject r.id r.name r.resourceURL

def labelReferenceObject (r : LabelReference) : Json.Value :=
  referenceObject r.id r.name r.resourceURL

def masterVideoObject (v : MasterVideo) : Json.Value :=
  jsonbBuildObject [("url", Json.nullable Json.text v.url),
    ("description", Json.nullable Json.text v.description),
    ("title", Json.nullable Json.text v.title)]

def releaseArtistObject (a : ReleaseArtist) : Json.Value :=
  jsonbBuildObject [("id", Json.integer a.id), ("name", Json.nullable Json.text a.name),
    ("role", Json.nullable Json.text a.role), ("resource_url", urlValue a.resourceURL)]

def releaseLabelObject (l : ReleaseLabel) : Json.Value :=
  jsonbBuildObject [("id", Json.integer l.id), ("name", Json.nullable Json.text l.name),
    ("catno", Json.nullable Json.text l.categoryNotation),
    ("resource_url", urlValue l.resourceURL)]

def releaseFormatObject (f : ReleaseFormat) : Json.Value :=
  jsonbBuildObject [("name", Json.nullable Json.text f.name),
    ("qty", Json.nullable Json.text f.quantity),
    ("descriptions", Json.list Json.text f.descriptions)]

def releaseVideoObject (v : ReleaseVideo) : Json.Value :=
  jsonbBuildObject [("title", Json.nullable Json.text v.title),
    ("url", Json.nullable Json.text v.url),
    ("description", Json.nullable Json.text v.description)]

/-! What the store decodes them into -/

open Json.Decoder in
def artistReferenceDecoder : Json.Decoder ArtistReference := struct
  [field "id" (·.id) (fun n r => { r with id := n }) int64,
   field "name" (·.name) (fun t r => { r with name := t }) (pointer emptyText text),
   field "resource_url" (·.resourceURL) (fun s r => { r with resourceURL := s }) string]

open Json.Decoder in
def labelReferenceDecoder : Json.Decoder LabelReference := struct
  [field "id" (·.id) (fun n r => { r with id := n }) int64,
   field "name" (·.name) (fun t r => { r with name := t }) (pointer emptyText text),
   field "resource_url" (·.resourceURL) (fun s r => { r with resourceURL := s }) string]

open Json.Decoder in
def masterVideoDecoder : Json.Decoder MasterVideo := struct
  [field "url" (·.url) (fun t v => { v with url := t }) (pointer emptyText text),
   field "description" (·.description) (fun t v => { v with description := t })
     (pointer emptyText text),
   field "title" (·.title) (fun t v => { v with title := t }) (pointer emptyText text)]

open Json.Decoder in
def releaseArtistDecoder : Json.Decoder ReleaseArtist := struct
  [field "id" (·.id) (fun n a => { a with id := n }) int64,
   field "name" (·.name) (fun t a => { a with name := t }) (pointer emptyText text),
   field "role" (·.role) (fun t a => { a with role := t }) (pointer emptyText text),
   field "resource_url" (·.resourceURL) (fun s a => { a with resourceURL := s }) string]

open Json.Decoder in
def releaseLabelDecoder : Json.Decoder ReleaseLabel := struct
  [field "id" (·.id) (fun n l => { l with id := n }) int64,
   field "name" (·.name) (fun t l => { l with name := t }) (pointer emptyText text),
   field "catno" (·.categoryNotation) (fun t l => { l with categoryNotation := t })
     (pointer emptyText text),
   field "resource_url" (·.resourceURL) (fun s l => { l with resourceURL := s }) string]

open Json.Decoder in
def releaseFormatDecoder : Json.Decoder ReleaseFormat := struct
  [field "name" (·.name) (fun t f => { f with name := t }) (pointer emptyText text),
   field "qty" (·.quantity) (fun t f => { f with quantity := t }) (pointer emptyText text),
   field "descriptions" (·.descriptions) (fun ts f => { f with descriptions := ts })
     (slice emptyText text)]

open Json.Decoder in
def releaseVideoDecoder : Json.Decoder ReleaseVideo := struct
  [field "title" (·.title) (fun t v => { v with title := t }) (pointer emptyText text),
   field "url" (·.url) (fun t v => { v with url := t }) (pointer emptyText text),
   field "description" (·.description) (fun t v => { v with description := t })
     (pointer emptyText text)]

/-! Decoding what was aggregated -/

theorem referenceObject_eq (id : Int) (name : Option Text) (resourceURL : Bytes) :
    referenceObject id name resourceURL = .object [(lit "id", Json.integer id),
      (lit "name", Json.nullable Json.text name), (lit "resource_url", urlValue resourceURL)] := by
  simp only [referenceObject, jsonbBuildObject, List.map_cons, List.map_nil]
  rfl

section Decoders
open Json.Decoder

/-- Columns of the range of a 64-bit integer. -/
def Int64Range (n : Int) : Prop := -2^63 ≤ n ∧ n < 2^63

theorem artistReference_reads {r : ArtistReference} (h : Int64Range r.id) :
    Reads artistReferenceDecoder artistReferenceObject r := by
  intro previous
  simp [artistReferenceObject, referenceObject_eq, artistReferenceDecoder, struct, assign,
    findField, field, lit_inj, int64_reads h _, text_pointer_reads _ r.name _, urlValue, string]

theorem labelReference_reads {r : LabelReference} (h : Int64Range r.id) :
    Reads labelReferenceDecoder labelReferenceObject r := by
  intro previous
  simp [labelReferenceObject, referenceObject_eq, labelReferenceDecoder, struct, assign,
    findField, field, lit_inj, int64_reads h _, text_pointer_reads _ r.name _, urlValue, string]

theorem masterVideo_reads (v : MasterVideo) : Reads masterVideoDecoder masterVideoObject v := by
  intro previous
  have hsort : masterVideoObject v = .object [(lit "url", Json.nullable Json.text v.url),
      (lit "title", Json.nullable Json.text v.title),
      (lit "description", Json.nullable Json.text v.description)] := by
    simp only [masterVideoObject, jsonbBuildObject, List.map_cons, List.map_nil]
    rfl
  simp [hsort, masterVideoDecoder, struct, assign, findField, field, lit_inj,
    text_pointer_reads _ v.url _, text_pointer_reads _ v.title _,
    text_pointer_reads _ v.description _]

theorem releaseArtist_reads {a : ReleaseArtist} (h : Int64Range a.id) :
    Reads releaseArtistDecoder releaseArtistObject a := by
  intro previous
  have hsort : releaseArtistObject a = .object [(lit "id", Json.integer a.id),
      (lit "name", Json.nullable Json.text a.name), (lit "role", Json.nullable Json.text a.role),
      (lit "resource_url", urlValue a.resourceURL)] := by
    simp only [releaseArtistObject, jsonbBuildObject, List.map_cons, List.map_nil]
    rfl
  simp [hsort, releaseArtistDecoder, struct, assign, findField, field, lit_inj, int64_reads h _,
    text_pointer_reads _ a.name _, text_pointer_reads _ a.role _, urlValue, string]

theorem releaseLabel_reads {l : ReleaseLabel} (h : Int64Range l.id) :
    Reads releaseLabelDecoder releaseLabelObject l := by
  intro previous
  have hsort : releaseLabelObject l = .object [(lit "id", Json.integer l.id),
      (lit "name", Json.nullable Json.text l.name),
      (lit "catno", Json.nullable Json.text l.categoryNotation),
      (lit "resource_url", urlValue l.resourceURL)] := by
    simp only [releaseLabelObject, jsonbBuildObject, List.map_cons, List.map_nil]
    rfl
  simp [hsort, releaseLabelDecoder, struct, assign, findField, field, lit_inj, int64_reads h _,
    text_pointer_reads _ l.name _, text_pointer_reads _ l.categoryNotation _, urlValue, string]

theorem releaseFormat_reads (f : ReleaseFormat) :
    Reads releaseFormatDecoder releaseFormatObject f := by
  intro previous
  have hsort : releaseFormatObject f = .object [(lit "qty", Json.nullable Json.text f.quantity),
      (lit "name", Json.nullable Json.text f.name),
      (lit "descriptions", Json.list Json.text f.descriptions)] := by
    simp only [releaseFormatObject, jsonbBuildObject, List.map_cons, List.map_nil]
    rfl
  simp [hsort, releaseFormatDecoder, struct, assign, findField, field, lit_inj,
    text_pointer_reads _ f.name _, text_pointer_reads _ f.quantity _,
    text_slice_reads _ f.descriptions _]

theorem releaseVideo_reads (v : ReleaseVideo) : Reads releaseVideoDecoder releaseVideoObject v := by
  intro previous
  have hsort : releaseVideoObject v = .object [(lit "url", Json.nullable Json.text v.url),
      (lit "title", Json.nullable Json.text v.title),
      (lit "description", Json.nullable Json.text v.description)] := by
    simp only [releaseVideoObject, jsonbBuildObject, List.map_cons, List.map_nil]
    rfl
  simp [hsort, releaseVideoDecoder, struct, assign, findField, field, lit_inj,
    text_pointer_reads _ v.title _, text_pointer_reads _ v.url _,
    text_pointer_reads _ v.description _]

end Decoders

/-! Aggregated texts are documents without ill-formed strings -/

theorem mem_jsonbMembers {fields : List (String × Json.Value)} {member : Bytes × Json.Value}
    (h : member ∈ (fields.map fun field => (lit field.1, field.2)).insertionSort
      (jsonbBefore · ·)) : ∃ field ∈ fields, member = (lit field.1, field.2) := by
  obtain ⟨field, hf, rfl⟩ := List.mem_map.mp ((List.mem_insertionSort _).mp h)
  exact ⟨field, hf, rfl⟩

theorem nests_jsonbBuildObject {fields : List (String × Json.Value)} {n : Nat}
    (h : ∀ field ∈ fields, field.2.Nests n) : (jsonbBuildObject fields).Nests (n+1) := by
  rw [Json.Value.Nests, jsonbBuildObject, Json.Value.depth]
  refine Nat.succ_le_succ (Json.depthMembers_le fun member hm => ?_)
  obtain ⟨field, hf, rfl⟩ := mem_jsonbMembers hm
  exact h field hf

theorem wellFormed_jsonbBuildObject {fields : List (String × Json.Value)}
    (h : ∀ field ∈ fields, field.2.WellFormed) : (jsonbBuildObject fields).WellFormed := by
  have hmembers : ∀ member ∈ (fields.map fun field => (lit field.1, field.2)).insertionSort
      (jsonbBefore · ·), Json.validMember member = member := by
    intro member hm
    obtain ⟨field, hf, rfl⟩ := mem_jsonbMembers hm
    have hv : field.2.valid = field.2 := h field hf
    rw [Json.validMember, lit, Json.toValid_encode, hv]
  rw [Json.Value.WellFormed, jsonbBuildObject, Json.Value.valid, Json.validMembers_eq]
  exact congrArg Json.Value.object ((List.map_congr_left hmembers).trans (List.map_id _))

/-- No rows are aggregated to the empty array, as they would be listed. -/
theorem aggregated_eq {ρ : Type} (element : ρ → Json.Value) (rows : List ρ) :
    aggregated element rows = jsonbText (Json.list element rows) := by
  cases rows <;> rfl

/-- An element of an aggregate: an object of plain values and lists of these, without ill-formed
strings. -/
structure Aggregable (v : Json.Value) : Prop where
  nests : v.Nests 2
  wellFormed : v.WellFormed

theorem aggregable_text (t : Text) : Aggregable (Json.text t) :=
  ⟨Json.nests_text t 2, Json.wellFormed_text t⟩

theorem aggregable_object {fields : List (String × Json.Value)}
    (hn : ∀ field ∈ fields, field.2.Nests 1) (hw : ∀ field ∈ fields, field.2.WellFormed) :
    Aggregable (jsonbBuildObject fields) :=
  ⟨nests_jsonbBuildObject hn, wellFormed_jsonbBuildObject hw⟩

theorem wellFormed_urlValue {s : Bytes} (h : validString s = true) : (urlValue s).WellFormed :=
  Json.wellFormed_string h

theorem nests_urlValue (s : Bytes) (n : Nat) : (urlValue s).Nests n := Json.nests_string s n

theorem aggregable_reference {id : Int} {name : Option Text} {resourceURL : Bytes}
    (h : validString resourceURL = true) : Aggregable (referenceObject id name resourceURL) :=
  aggregable_object (by simp [nests_urlValue]) (by simp [wellFormed_urlValue h])

theorem aggregable_masterVideo (v : MasterVideo) : Aggregable (masterVideoObject v) :=
  aggregable_object (by simp) (by simp)

theorem aggregable_releaseArtist {a : ReleaseArtist} (h : validString a.resourceURL = true) :
    Aggregable (releaseArtistObject a) :=
  aggregable_object (by simp [nests_urlValue]) (by simp [wellFormed_urlValue h])

theorem aggregable_releaseLabel {l : ReleaseLabel} (h : validString l.resourceURL = true) :
    Aggregable (releaseLabelObject l) :=
  aggregable_object (by simp [nests_urlValue]) (by simp [wellFormed_urlValue h])

theorem aggregable_releaseFormat (f : ReleaseFormat) : Aggregable (releaseFormatObject f) :=
  aggregable_object (by simp) (by simp)

theorem aggregable_releaseVideo (v : ReleaseVideo) : Aggregable (releaseVideoObject v) :=
  aggregable_object (by simp) (by simp)

/-- A slice gets back the rows that were aggregated, whatever it held. -/
theorem unmarshal_aggregated {ρ : Type} {element : ρ → Json.Value} {decode : Json.Decoder ρ}
    {zero : ρ} {rows : List ρ} (ha : ∀ row ∈ rows, Aggregable (element row))
    (hr : ∀ row ∈ rows, Json.Decoder.Reads decode element row) (target : List ρ) :
    Json.unmarshal (Json.Decoder.slice zero decode) (aggregated element rows) target =
      .ok rows := by
  have hnests : (Json.list element rows).Nests Json.maximumDepth := by
    rw [Json.Value.Nests, Json.list, Json.Value.depth]
    refine Nat.succ_le_of_lt (Nat.lt_of_le_of_lt (Json.depthItems_le fun v hv => ?_)
      (show 2 < Json.maximumDepth by decide))
    obtain ⟨row, hrow, rfl⟩ := List.mem_map.mp hv
    exact (ha row hrow).nests
  rw [aggregated_eq]
  exact Json.unmarshal_written jsonbStyle (Json.Decoder.slice_reads hr) hnests
    (Json.wellFormed_list fun row hrow => (ha row hrow).wellFormed) target

end OpenDiscogs.Postgres
