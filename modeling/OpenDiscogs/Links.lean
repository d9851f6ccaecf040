import OpenDiscogs.Config.Load
import OpenDiscogs.Library.UrlBase
import OpenDiscogs.Postgres.CatalogDetails
import OpenDiscogs.Postgres.RelatedReads

/-! The links of the responses: the resources they are for, and what is read from them. -/
namespace OpenDiscogs
open Utf8 SqlText Catalog Postgres Url OpenDiscogs.Configuration

/-- What a link is for. -/
inductive Resource where
  | artist (id : Int)
  | label (id : Int)
  | release (id : Int)
  | artistReleases (id : Int)
  | labelReleases (id : Int)
deriving DecidableEq

/-- The path of a resource under the server's. -/
def Resource.path : Resource → Bytes
  | artist id => lit "/artists/" ++ Strconv.formatInt id
  | label id => lit "/labels/" ++ Strconv.formatInt id
  | release id => lit "/releases/" ++ Strconv.formatInt id
  | artistReleases id => lit "/artists/" ++ Strconv.formatInt id ++ lit "/releases"
  | labelReleases id => lit "/labels/" ++ Strconv.formatInt id ++ lit "/releases"

/-- The links that a store emits on tables in one state, each with the resource that stands beside
it. -/
inductive Emits (s : Store) (t : DetailTables) : Resource → Bytes → Prop
  | artist {id : Int} {d : ArtistDetail} (h : s.artist t id = .value d) :
      Emits s t (.artist d.id) d.uri
  | artistReleases {id : Int} {d : ArtistDetail} (h : s.artist t id = .value d) :
      Emits s t (.artistReleases d.id) d.releaseURL
  | relatedArtist {id : Int} {d : ArtistDetail} (h : s.artist t id = .value d)
      {r : ArtistReference} (hr : r ∈ d.members ∨ r ∈ d.groups ∨ r ∈ d.aliases) :
      Emits s t (.artist r.id) r.resourceURL
  | label {id : Int} {d : LabelDetail} (h : s.label t id = .value d) :
      Emits s t (.label d.id) d.uri
  | labelReleases {id : Int} {d : LabelDetail} (h : s.label t id = .value d) :
      Emits s t (.labelReleases d.id) d.releaseURL
  | relatedLabel {id : Int} {d : LabelDetail} (h : s.label t id = .value d)
      {r : LabelReference} (hr : d.parentLabel = some r ∨ r ∈ d.sublabels) :
      Emits s t (.label r.id) r.resourceURL
  | masterArtist {id : Int} {d : MasterDetail} (h : s.master t id = .value d)
      {r : ArtistReference} (hr : r ∈ d.artists) : Emits s t (.artist r.id) r.resourceURL
  | releaseArtist {id : Int} {d : ReleaseDetail} (h : s.release t.toTables id = .value d)
      {r : ReleaseArtist} (hr : r ∈ d.artists) : Emits s t (.artist r.id) r.resourceURL
  | releaseLabel {id : Int} {d : ReleaseDetail} (h : s.release t.toTables id = .value d)
      {r : ReleaseLabel} (hr : r ∈ d.labels ∨ r ∈ d.companies) :
      Emits s t (.label r.id) r.resourceURL
  | artistRelease {id : Int} {request : PageRequest} {page : Page ArtistRelease}
      (h : s.artistReleases t.toTables id request = .value page)
      {r : ArtistRelease} (hr : r ∈ page.items) : Emits s t (.release r.id) r.resourceURL
  | masterRelease {id : Int} {request : PageRequest} {page : Page MasterRelease}
      (h : s.masterReleases t.toTables id request = .value page)
      {r : MasterRelease} (hr : r ∈ page.items) : Emits s t (.release r.id) r.resourceURL

section Emitted
variable {s : Store} {t : DetailTables}

theorem artistReferences_link {ρ : Type} {t : Tables} {serverURL : Text} {artistID : ρ → Int}
    {relations : List ρ} {r : ArtistReference}
    (h : r ∈ artistReferences t serverURL artistID relations) :
    r.resourceURL = linkTo serverURL "/artists/" r.id := by
  obtain ⟨relation, -, h⟩ := List.mem_flatMap.mp h
  obtain ⟨related, -, rfl⟩ := List.mem_map.mp h
  rfl

theorem labelEntries_link {ρ : Type} {t : Tables} {serverURL : Text} {labelID : ρ → Int}
    {catno : ρ → Option Text} {relations : List ρ} {r : ReleaseLabel}
    (h : r ∈ labelEntries t serverURL labelID catno relations) :
    r.resourceURL = linkTo serverURL "/labels/" r.id := by
  obtain ⟨relation, -, h⟩ := List.mem_flatMap.mp h
  obtain ⟨label, -, rfl⟩ := List.mem_map.mp h
  rfl

theorem relatedLabel_link {serverURL : Text} {labelID : Int} {r : LabelReference}
    (h : parentLabelSQL t serverURL labelID = some r ∨ r ∈ sublabelsSQL t serverURL labelID) :
    r.resourceURL = linkTo serverURL "/labels/" r.id := by
  obtain h | h := h
  · obtain ⟨parent, -, rfl⟩ := Option.map_eq_some_iff.mp h
    rfl
  · obtain ⟨relation, -, h⟩ := List.mem_flatMap.mp h
    obtain ⟨child, -, rfl⟩ := List.mem_map.mp h
    rfl

/-- A page has nothing that was not loaded. -/
theorem newPage_mem {α : Type} {items : List α} {size : Int} {page : Page α}
    (h : newPage items size = .value page) {item : α} (hi : item ∈ page.items) : item ∈ items := by
  unfold newPage lookAhead at h
  split at h
  · obtain ⟨kept, hkept, hpage⟩ := Outcome.bind_value.mp h
    unfold slice at hkept
    split at hkept
    · cases hkept
    · cases hkept
      cases hpage
      exact List.mem_of_mem_take hi
  · cases h
    exact hi

/-- The items of a page were scanned from rows. -/
theorem loadRelated_scanned {α β : Type} {operation : String} {scanner : α → Result β}
    {sql : Int → Int → Nat → List α} {id : Int} {request : PageRequest} {page : Page β}
    (h : loadRelated operation scanner sql id request = .value page) {item : β}
    (hi : item ∈ page.items) : ∃ row, scanner row = .value item := by
  obtain ⟨items, hitems, hpage⟩ := Outcome.bind_value.mp h
  simp only [operationError_eq_value, Outcome.bind_value] at hitems
  obtain ⟨_, -, _, -, _, -, hrows⟩ := hitems
  have hscanned := collectRows_eq_value.mp hrows
  obtain ⟨n, hn, rfl⟩ := List.getElem_of_mem (newPage_mem hpage hi)
  exact ⟨_, hscanned.get (by rw [hscanned.length_eq]; exact hn) hn⟩

/-- Every link is the server's URL with the path of its resource after it, whichever code made
it. -/
theorem Emits.eq {resource : Resource} {link : Bytes} (h : Emits s t resource link) :
    link = s.serverURL.bytes ++ resource.path := by
  cases h with
  | artist h =>
    obtain ⟨a, -, rfl, hd⟩ := queryDetail_value h
    cases hd
    simp [Resource.path, Store.artistURL]
  | artistReleases h =>
    obtain ⟨a, -, rfl, hd⟩ := queryDetail_value h
    cases hd
    simp [Resource.path, Store.artistURL]
  | relatedArtist h hr =>
    obtain ⟨a, -, rfl, hd⟩ := queryDetail_value h
    cases hd
    obtain hr | hr | hr := hr <;> simp [artistReferences_link hr, linkTo, Resource.path]
  | label h =>
    obtain ⟨l, -, rfl, hd⟩ := queryDetail_value h
    cases hd
    simp [Resource.path, Store.labelURL]
  | labelReleases h =>
    obtain ⟨l, -, rfl, hd⟩ := queryDetail_value h
    cases hd
    simp [Resource.path, Store.labelURL]
  | relatedLabel h hr =>
    obtain ⟨l, -, rfl, hd⟩ := queryDetail_value h
    cases hd
    simp [relatedLabel_link hr, linkTo, Resource.path]
  | masterArtist h hr =>
    obtain ⟨m, -, rfl, hd⟩ := queryDetail_value h
    cases hd
    simp [artistReferences_link hr, linkTo, Resource.path]
  | releaseArtist h hr =>
    rw [release_eq] at h
    obtain ⟨row, -, rfl, hd⟩ := queryDetail_value h
    cases hd
    obtain ⟨pair, -, rfl⟩ := List.mem_map.mp hr
    simp [linkTo, Resource.path]
  | releaseLabel h hr =>
    rw [release_eq] at h
    obtain ⟨row, -, rfl, hd⟩ := queryDetail_value h
    cases hd
    obtain hr | hr := hr <;> simp [labelEntries_link hr, linkTo, Resource.path]
  | artistRelease h hr =>
    obtain ⟨row, hrow⟩ := loadRelated_scanned h hr
    cases hrow
    simp [Store.releaseURL, Resource.path]
  | masterRelease h hr =>
    obtain ⟨row, hrow⟩ := loadRelated_scanned h hr
    obtain ⟨artists, -, hitem⟩ := Outcome.bind_value.mp hrow
    cases hitem
    simp [Store.releaseURL, Resource.path]

end Emitted

/-- A link to a resource of a server: an absolute URL of the web at the server's scheme and host,
with neither a query nor a fragment, whose path is the server's without its last slashes, and the
resource's after it. -/
structure PointsAt (server : URL) (resource : Resource) (link : Bytes) (parsed : URL) : Prop where
  parses : Url.parse link = some parsed
  web : WebScheme parsed.scheme
  absolute : parsed.host ≠ []
  continues : Continues server resource.path parsed

/-- Every link of a store that is given the URL points at its resource, and two links to one resource
are one text. -/
def LinksHold (server : URL) (url : Bytes) : Prop :=
  ∃ serverURL : Text, serverURL.bytes = url ∧
    (∀ t resource link, Emits (Store.new serverURL) t resource link →
      ∃ parsed, PointsAt server resource link parsed) ∧
    ∀ t t' resource link link', Emits (Store.new serverURL) t resource link →
      Emits (Store.new serverURL) t' resource link' → link = link'

/-- What a server's URL must not have: a query, be it an empty one, a fragment, and a zone of its
host with an opening bracket or a byte that is not ASCII. -/
structure PlainServer (server : URL) : Prop where
  bare : Bare server
  zone : PlainZone server.host

theorem formatInt_plain (n : Int) : ∀ b ∈ Strconv.formatInt n, shouldEscape b .path = false := by
  have hdigit : ∀ b : UInt8, (0x30 ≤ b ∧ b ≤ 0x39) → shouldEscape b .path = false :=
    forall_byte (by decide)
  intro b hb
  unfold Strconv.formatInt at hb
  split at hb
  · obtain rfl | hb := List.mem_cons.mp hb
    · decide
    · exact hdigit b (Strconv.formatNat_digits _ b hb)
  · exact hdigit b (Strconv.formatNat_digits _ b hb)

theorem collections_plain : ∀ collection ∈ ["/artists/", "/labels/", "/releases/", "/releases"],
    ∀ b ∈ lit collection, shouldEscape b .path = false := by decide +kernel

/-- A resource's path needs no escapes. -/
theorem Resource.suffix (resource : Resource) : Suffix resource.path := by
  have hsingle : ∀ collection ∈ ["/artists/", "/labels/", "/releases/"], ∀ (id : Int),
      ∀ b ∈ lit collection ++ Strconv.formatInt id, shouldEscape b .path = false :=
    fun collection hc id => List.forall_mem_append.mpr
      ⟨collections_plain collection (List.mem_append_left ["/releases"] hc), formatInt_plain id⟩
  have hreleases := collections_plain "/releases" (by simp)
  refine ⟨by cases resource <;> rfl, ?_⟩
  cases resource with
  | artist id => exact hsingle "/artists/" (by simp) id
  | label id => exact hsingle "/labels/" (by simp) id
  | release id => exact hsingle "/releases/" (by simp) id
  | artistReleases id =>
    exact List.forall_mem_append.mpr ⟨hsingle "/artists/" (by simp) id, hreleases⟩
  | labelReleases id =>
    exact List.forall_mem_append.mpr ⟨hsingle "/labels/" (by simp) id, hreleases⟩

/-- An accepted server URL has the parts that links are made from. -/
theorem absoluteHTTPURL_ok {raw url : Bytes} (h : absoluteHTTPURL raw = .ok url) :
    ∃ server, Url.parse (trimSpace raw) = some server ∧ WebScheme server.scheme ∧
      server.host ≠ [] ∧ url = trimSlashes server.string := by
  unfold absoluteHTTPURL at h
  split at h
  · next server hparse =>
    split at h
    · cases h
    · next hlegal =>
      cases h
      rw [not_or, not_and_or, not_not, not_not] at hlegal
      exact ⟨server, hparse, hlegal.1, hlegal.2, rfl⟩
  · cases h

theorem legalScheme_web {scheme : Bytes} (h : WebScheme scheme) : LegalScheme scheme := by
  obtain rfl | rfl := h <;> constructor <;> decide

/-- A store keeps a URL that ends in no slash. -/
theorem new_serverURL {serverURL : Text} (h : serverURL.bytes.getLast? ≠ some 0x2F) :
    (Store.new serverURL).serverURL = serverURL := by
  refine Text.ext (List.rdropWhile_eq_self_iff.mpr fun hne hlast => h ?_)
  have hchars := List.dropLast_append_getLast hne
  rw [beq_iff_eq.mp hlast] at hchars
  rw [Text.bytes, ← hchars, encode_append]
  exact List.getLast?_concat

/-- Visible bytes are a text. -/
theorem exists_text {s : Bytes} (h : ∀ b ∈ s, Visible b) : ∃ t : Text, t.bytes = s := by
  have hchar : ∀ n < 0x7F, 0x20 < n → Char.ofNat n ≠ nul ∧
      String.utf8EncodeChar (Char.ofNat n) = [UInt8.ofNat n] := by decide
  induction s with
  | nil => exact ⟨Text.of "", rfl⟩
  | cons b s ih =>
    rw [List.forall_mem_cons] at h
    obtain ⟨t, rfl⟩ := ih h.2
    obtain ⟨hnul, hbytes⟩ := hchar b.toNat h.1.2 h.1.1
    refine ⟨⟨Char.ofNat b.toNat::t.chars, ?_⟩, ?_⟩
    · rw [List.mem_cons, not_or]
      exact ⟨Ne.symm hnul, t.legal⟩
    · rw [Text.bytes, encode_cons, hbytes, UInt8.ofNat_toNat]
      rfl

section Accepted
variable {raw url : Bytes} {server : URL}

/-- What is trimmed of the text of a plain server is a text. -/
theorem PlainServer.text (hweb : WebScheme server.scheme) (hh : server.host ≠ [])
    (ha : HasAuthority server) (hp : PlainServer server) :
    ∃ serverURL : Text, serverURL.bytes = trimSlashes server.string := by
  have hbytes : ∀ b ∈ server.string, Visible b := by
    intro b hb
    rw [string_bare (legalScheme_web hweb).ne_nil hh ha hp.bare, URL.place] at hb
    simp only [List.mem_append, List.mem_cons] at hb
    obtain (hb | rfl | rfl | rfl | hb) | hb := hb
    · exact (schemeByte_visible b (List.all_eq_true.mp (legalScheme_web hweb).bytes b hb)).1
    · decide
    · decide
    · decide
    · exact (mem_writtenAuthority hb).1
    · exact (pathByte_visible b (mem_escapedPath hb)).1
  exact exists_text fun b hb => hbytes b ((List.rdropWhile_prefix _ _).mem hb)

/-- With a plain server every link points at its resource. -/
theorem PlainServer.linksHold (hweb : WebScheme server.scheme) (hh : server.host ≠ [])
    (ha : HasAuthority server) (hp : PlainServer server) :
    LinksHold server (trimSlashes server.string) := by
  obtain ⟨serverURL, htext⟩ := hp.text hweb hh ha
  have hnew : (Store.new serverURL).serverURL.bytes = trimSlashes server.string := by
    rw [new_serverURL (by rw [htext]; exact trimSlashes_last _), htext]
  obtain ⟨written, hhost⟩ := ha.host
  have hlegal := (legalHost_of_parse hhost).mpr hp.zone
  refine ⟨serverURL, htext, fun t resource link h => ?_, fun t t' resource link link' h h' => ?_⟩
  · obtain ⟨parsed, hparse, hcontinues⟩ := parse_continued (legalScheme_web hweb) hh ha hp.bare
      hlegal resource.suffix
    refine ⟨parsed, by rw [h.eq, hnew, hparse], ?_, ?_, hcontinues⟩
    · rw [hcontinues.scheme]
      exact hweb
    · rw [hcontinues.host]
      exact hh
  · rw [h.eq, h'.eq]

/-- Tables with one artist. -/
def oneArtist : DetailTables := { server := cLocale, artist := [{ id := 1 }] }

theorem emits_artist (s : Store) : Emits s oneArtist (.artist 1) (s.artistURL 1) :=
  @Emits.artist s oneArtist 1
    { id := 1, name := none, realName := none, profile := none, dataQuality := none,
      members := [], groups := [], aliases := [], nameVariations := [], urls := [],
      uri := s.artistURL 1, releaseURL := s.artistURL 1 ++ lit "/releases" } rfl

/-- Only with a plain server do the links point at their resources. -/
theorem LinksHold.plainServer (hweb : WebScheme server.scheme) (hh : server.host ≠ [])
    (ha : HasAuthority server) (h : LinksHold server (trimSlashes server.string)) :
    PlainServer server := by
  obtain ⟨serverURL, htext, hpoints, -⟩ := h
  have hnew : (Store.new serverURL).serverURL.bytes = trimSlashes server.string := by
    rw [new_serverURL (by rw [htext]; exact trimSlashes_last _), htext]
  have hemits := emits_artist (Store.new serverURL)
  obtain ⟨parsed, hparsed⟩ := hpoints _ _ _ hemits
  have hparse := hparsed.parses
  rw [hemits.eq, hnew] at hparse
  obtain ⟨hbare, hlegal⟩ := bare_of_continued (legalScheme_web hweb) hh ha
    (Resource.suffix (.artist 1)) hparse hparsed.continues.bare
  obtain ⟨written, hhost⟩ := ha.host
  exact ⟨hbare, (legalHost_of_parse hhost).mp hlegal⟩

/-- The links of an accepted server URL point at their resources exactly when it has neither a query
nor a fragment, nor a zone that would not be read back. -/
theorem links_hold (h : absoluteHTTPURL raw = .ok url) :
    ∃ server, Url.parse (trimSpace raw) = some server ∧
      (LinksHold server url ↔ PlainServer server) := by
  obtain ⟨server, hparse, hweb, hh, rfl⟩ := absoluteHTTPURL_ok h
  have ha := parse_hasAuthority hparse hh
  exact ⟨server, hparse, fun hlinks => hlinks.plainServer hweb hh ha,
    fun hplain => hplain.linksHold hweb hh ha⟩

theorem links_hold_base : LinksHold
    { scheme := lit "https", host := lit "api.example.com", path := lit "/discogs//" }
    (lit "https://api.example.com/discogs") := by
  obtain ⟨server, hparse, hiff⟩ := @links_hold (lit " https://api.example.com/discogs// ")
    (lit "https://api.example.com/discogs") (by rfl)
  have htrim : trimSpace (lit " https://api.example.com/discogs// ") =
      lit "https://api.example.com/discogs//" := by decide
  have hserver : Url.parse (lit "https://api.example.com/discogs//") = some
      { scheme := lit "https", host := lit "api.example.com", path := lit "/discogs//" } := by
    decide
  rw [htrim, hserver, Option.some.injEq] at hparse
  subst hparse
  refine hiff.mpr ⟨⟨rfl, rfl, rfl⟩, fun inner he => ?_⟩
  have hname : (lit "api.example.com").head? ≠ some 0x5B := by decide
  exact absurd (congrArg List.head? he) hname

/-- The query of an accepted server URL swallows what is put after it. -/
theorem links_lost : ¬∀ (raw url : Bytes) (server : URL), absoluteHTTPURL raw = .ok url →
    Url.parse (trimSpace raw) = some server → LinksHold server url := by
  intro hall
  have hok : ∃ url, absoluteHTTPURL (lit "http://localhost:8080/?v=1") = .ok url := ⟨_, rfl⟩
  obtain ⟨url, h⟩ := hok
  obtain ⟨server, hparse, hweb, hh, rfl⟩ := absoluteHTTPURL_ok h
  have hplain := (hall _ _ _ h hparse).plainServer hweb hh (parse_hasAuthority hparse hh)
  have hquery : (Url.parse (trimSpace (lit "http://localhost:8080/?v=1"))).map (·.rawQuery) =
      some (lit "v=1") := by decide
  rw [hparse, Option.map_some, hplain.bare.query] at hquery
  exact absurd hquery (by decide)

end Accepted

end OpenDiscogs
