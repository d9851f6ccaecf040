import OpenDiscogs.HttpApi.Bodies
import OpenDiscogs.Links
import OpenDiscogs.Postgres.DecodedDetails
import OpenDiscogs.Postgres.Snapshot
import OpenDiscogs.Service

/-! The store as the whole repository of the handlers, on one state of the database, and the
bodies that are made of its answers. -/
namespace OpenDiscogs
open Utf8 SqlText Catalog HttpApi Postgres

/-- Every read of the store as the code makes it. -/
def Postgres.Store.catalogRepository (s : Store) (t : DetailTables) (state : SnapshotTables) :
    Repository where
  snapshot := Store.snapshot state
  searchArtists := s.searchArtists t.toTables
  artist := s.artistDecoded t
  artistReleases := s.artistReleases t.toTables
  searchLabels := s.searchLabels t.toTables
  label := s.labelDecoded t
  labelReleases := s.labelReleases t.toTables
  searchMasters := s.searchMasters t.toTables
  master := s.masterDecoded t
  masterReleases := s.masterReleases t.toTables
  searchReleases := s.searchReleases t.toTables
  releasesByCatalogNumber := s.releasesByCatalogNumber t.toTables
  releasesByIdentifier := s.releasesByIdentifier t.toTables
  release := s.releaseDecoded t.toTables
  releaseTracks := s.releaseTracks t.toTables t.toTables
  releaseIdentifiers := s.releaseIdentifiers t.toTables t.toTables

/-- The details and the snapshot, read from the tables without a detour. -/
def Postgres.Store.plainDetails (s : Store) (t : DetailTables) (state : SnapshotTables) :
    Repository :=
  { emptyRepository with
    snapshot := Store.snapshot state
    artist := s.artist t
    label := s.label t
    master := s.master t }

/-- On a canonical state the detour of the details through JSON is no difference: the store
answers every call as one that reads its tables. -/
theorem catalogRepository_eq (s : Store) {t : DetailTables} (hc : Canonical t.toTables)
    (state : SnapshotTables) :
    s.catalogRepository t state = s.repository t.toTables (s.plainDetails t state) := by
  have hartist : s.artistDecoded t = s.artist t := funext (artistDecoded_eq s hc)
  have hlabel : s.labelDecoded t = s.label t := funext (labelDecoded_eq s hc)
  have hmaster : s.masterDecoded t = s.master t := funext (masterDecoded_eq s hc)
  have hrelease : s.releaseDecoded t.toTables = s.release t.toTables :=
    funext (releaseDecoded_eq s hc)
  rw [Postgres.Store.catalogRepository, hartist, hlabel, hmaster, hrelease]
  rfl

theorem plain_ascii (b : UInt8) : Url.shouldEscape b .path = false → b < 0x80 := by
  revert b
  exact forall_byte (by decide)

theorem Emits.valid {s : Store} {t : DetailTables} {resource : Resource} {link : Bytes}
    (h : Emits s t resource link) : validString link = true := by
  rw [h.eq]
  exact validString_append (validString_encode _)
    (validString_ascii fun b hb => plain_ascii b (resource.suffix.plain b hb))

/-- A cursor is in the alphabet of base 64. -/
theorem encodeHashCursor_valid {hash : Option Int32} {cursor : Bytes}
    (h : encodeHashCursor hash = some cursor) : validString cursor = true := by
  cases hash with
  | none => cases h
  | some hash =>
    cases h
    refine validString_ascii fun b hb => ?_
    obtain ⟨v, hv, rfl⟩ := List.mem_map.mp hb
    exact UInt8.lt_trans (Base64.symbol_visible v (Base64.sextets_lt _ v hv)).2 (by decide)

/-- Whatever the store answers is readable, when the request's path is. -/
theorem run_readable {s : Store} {t : DetailTables} (hc : Canonical t.toTables)
    {state : SnapshotTables} {path : Bytes} (hpath : validString path = true) {call : Call}
    {p : Payload} (h : call.run (s.catalogRepository t state) path = .value p) : p.Readable := by
  rw [catalogRepository_eq s hc] at h
  cases call with
  | snapshot =>
    obtain ⟨snapshot, -, hp⟩ := Outcome.bind_value.mp h
    cases hp
    trivial
  | searchArtists filter request =>
    obtain ⟨page, -, hp⟩ := Outcome.bind_value.mp h
    cases hp
    exact hpath
  | artist id =>
    obtain ⟨d, hd, hp⟩ := Outcome.bind_value.mp h
    cases hp
    refine ⟨(Emits.artist hd).valid, (Emits.artistReleases hd).valid, fun r hr => ?_⟩
    simp only [List.mem_append, or_assoc] at hr
    exact (Emits.relatedArtist hd hr).valid
  | artistReleases id request =>
    obtain ⟨page, hpage, hp⟩ := Outcome.bind_value.mp h
    cases hp
    exact ⟨hpath, fun r hr => (Emits.artistRelease hpage hr).valid⟩
  | searchLabels filter request =>
    obtain ⟨page, -, hp⟩ := Outcome.bind_value.mp h
    cases hp
    exact hpath
  | label id =>
    obtain ⟨d, hd, hp⟩ := Outcome.bind_value.mp h
    cases hp
    refine ⟨(Emits.label hd).valid, (Emits.labelReleases hd).valid, fun r hr => ?_⟩
    simp only [List.mem_append, Option.mem_toList] at hr
    exact (Emits.relatedLabel hd hr).valid
  | labelReleases id request =>
    obtain ⟨page, -, hp⟩ := Outcome.bind_value.mp h
    cases hp
    exact hpath
  | searchMasters filter request =>
    obtain ⟨page, -, hp⟩ := Outcome.bind_value.mp h
    cases hp
    exact hpath
  | master id =>
    obtain ⟨d, hd, hp⟩ := Outcome.bind_value.mp h
    cases hp
    exact fun r hr => (Emits.masterArtist hd hr).valid
  | masterReleases id request =>
    obtain ⟨page, hpage, hp⟩ := Outcome.bind_value.mp h
    cases hp
    exact ⟨hpath, fun r hr => (Emits.masterRelease hpage hr).valid⟩
  | searchReleases filter request =>
    obtain ⟨page, -, hp⟩ := Outcome.bind_value.mp h
    cases hp
    exact hpath
  | releasesByCatalogNumber lookup request =>
    obtain ⟨page, -, hp⟩ := Outcome.bind_value.mp h
    cases hp
    exact hpath
  | releasesByIdentifier lookup request =>
    obtain ⟨page, -, hp⟩ := Outcome.bind_value.mp h
    cases hp
    exact hpath
  | release id =>
    obtain ⟨d, hd, hp⟩ := Outcome.bind_value.mp h
    cases hp
    refine ⟨fun r hr => (Emits.releaseArtist hd hr).valid, fun l hl => ?_⟩
    exact (Emits.releaseLabel hd (List.mem_append.mp hl)).valid
  | releaseTracks id request =>
    obtain ⟨page, -, hp⟩ := Outcome.bind_value.mp h
    cases hp
    exact ⟨hpath, fun c hcursor => encodeHashCursor_valid hcursor⟩
  | releaseIdentifiers id request =>
    obtain ⟨page, -, hp⟩ := Outcome.bind_value.mp h
    cases hp
    exact ⟨hpath, fun c hcursor => encodeHashCursor_valid hcursor⟩

/-- Times as their numbers, for a server whose clock counts. -/
def numberedTimes : TimeFormat where
  format n := (ofBytes (Strconv.formatInt n)).get (by
    obtain ⟨t, ht⟩ := exists_text (Strconv.formatInt_visible n)
    rw [← ht, ofBytes_bytes]
    rfl)
  injective n m h := by
    have hbytes : ∀ k : Int, ∀ hk, ((ofBytes (Strconv.formatInt k)).get hk).bytes =
        Strconv.formatInt k := fun k hk =>
      (ofBytes_some (Option.some_get hk).symm).symm
    have heq := congrArg Text.bytes h
    rw [hbytes, hbytes] at heq
    exact Json.formatInt_injective heq

/-- What the only artist of a catalog is shown as. -/
def oneArtistPayload : Payload := .artist
  { id := 1, name := none, realName := none, profile := none, dataQuality := none,
    members := [], groups := [], aliases := [], nameVariations := [], urls := [],
    uri := localStore.artistURL 1, releaseURL := localStore.artistURL 1 ++ lit "/releases" }

end OpenDiscogs
