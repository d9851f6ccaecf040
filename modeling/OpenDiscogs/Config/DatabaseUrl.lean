import OpenDiscogs.Config.Load
import OpenDiscogs.Library.UrlAbsolute

/-! The URL of the database that the split settings make, and what is read back from it. -/
namespace OpenDiscogs.Configuration
open Utf8 Url UrlQuery

def schemePostgres := "postgres"

/-- The URL tells what the split settings say. -/
def TellsSettings (values : RawValues) (url : Bytes) : Prop :=
  ∃ parsed, Url.parse url = some parsed ∧ parsed.scheme = lit schemePostgres ∧
    parsed.user = some ⟨trimSpace values.databaseUsername, some values.databasePassword⟩ ∧
    parsed.host = trimSpace values.databaseHost ∧
    parsed.path = 0x2F::trimSpace values.databaseName ∧
    UrlQuery.parse parsed.rawQuery = [(lit nameSSLMode, trimSpace values.databaseSSLMode)]

/-- What splitting a host from its port leaves open: that the port is digits, and that a URL can
carry the host. -/
def CarriedHost (hostport : Bytes) : Prop :=
  ∃ name port, Ip.splitHostPort hostport = .ok (name, port) ∧ portDigits port = true ∧
    if hostport.head? = some 0x5B then LegalLiteral name else Fits .host name

/-- The query that asks for a mode. -/
def sslModeQuery (sslmode : Bytes) : Bytes :=
  escape (lit nameSSLMode) .queryComponent ++ 0x3D::escape sslmode .queryComponent

/-- The URL of split settings in its parts. -/
def splitURL (host username password database sslmode : Bytes) : URL :=
  { scheme := lit schemePostgres, host := host, path := database,
    user := some ⟨username, some password⟩, rawQuery := sslModeQuery sslmode }

variable {values : RawValues} {url : Bytes}

/-- What the split settings have passed when a URL is made of them. -/
theorem buildDatabaseURL_split (hblank : trimSpace values.databaseURL = [])
    (h : buildDatabaseURL values = .ok url) :
    (∃ pair, Ip.splitHostPort (trimSpace values.databaseHost) = .ok pair) ∧
      trimSpace values.databaseHost ≠ [] ∧ trimSpace values.databaseName ≠ [] ∧
      0x2F ∉ trimSpace values.databaseName ∧
      url = (splitURL (trimSpace values.databaseHost) (trimSpace values.databaseUsername)
        values.databasePassword (trimSpace values.databaseName)
        (trimSpace values.databaseSSLMode)).string := by
  rw [buildDatabaseURL] at h
  simp only [hblank, ne_eq, not_true_eq_false, if_false] at h
  split at h
  · cases h
  · next hset =>
    rw [not_or, not_or, not_or] at hset
    split at h
    · cases h
    · next pair hpair =>
      split at h
      · cases h
      · next hslash =>
        cases h
        exact ⟨⟨pair, hpair⟩, hset.1, hset.2.2.2, hslash, rfl⟩

theorem legalScheme_postgres : LegalScheme (lit schemePostgres) := by
  constructor <;> decide

/-- A query is written in visible bytes, without a number sign. -/
theorem mem_sslModeQuery {sslmode : Bytes} {b : UInt8} (h : b ∈ sslModeQuery sslmode) :
    Visible b ∧ b ≠ 0x23 := by
  have hescape : ∀ {s : Bytes}, b ∈ escape s .queryComponent → Visible b ∧ b ≠ 0x23 := by
    intro s hb
    refine ⟨visible_escape hb, fun he => ?_⟩
    subst he
    exact not_mem_escape (by decide) (by decide) (by decide) hb
  obtain hb | hb := List.mem_append.mp h
  · exact hescape hb
  · obtain rfl | hb := List.mem_cons.mp hb
    · decide
    · exact hescape hb

/-- The query is read back as its one parameter. -/
theorem parse_sslModeQuery (sslmode : Bytes) :
    UrlQuery.parse (sslModeQuery sslmode) = [(lit nameSSLMode, sslmode)] := by
  have hread : ∀ s, UrlQuery.unescape (escape s .queryComponent) = some s := fun s => by
    rw [queryUnescape_eq, unescape_escape (fits_of_escapable (fun _ => rfl) s)]
  have hno : ∀ {s : Bytes} {c : UInt8}, c = 0x26 ∨ c = 0x3B ∨ c = 0x3D →
      c ∉ escape s .queryComponent := by
    intro s c hc
    obtain rfl | rfl | rfl := hc <;>
      exact not_mem_escape (by decide) (by decide) (by decide)
  have hamp : 0x26 ∉ sslModeQuery sslmode := by
    rw [sslModeQuery, List.mem_append, List.mem_cons, not_or, not_or]
    exact ⟨hno (by simp), by decide, hno (by simp)⟩
  have hsemi : 0x3B ∉ sslModeQuery sslmode := by
    rw [sslModeQuery, List.mem_append, List.mem_cons, not_or, not_or]
    exact ⟨hno (by simp), by decide, hno (by simp)⟩
  have hpairs : pairs (sslModeQuery sslmode) = [sslModeQuery sslmode] := by
    have hall : ∀ part ∈ [sslModeQuery sslmode], 0x26 ∉ part := by simpa using hamp
    have hone : [0x26].intercalate [sslModeQuery sslmode] = sslModeQuery sslmode := by
      simp [List.intercalate]
    have hsplit := List.splitOn_intercalate 0x26 hall (by simp)
    rw [hone] at hsplit
    rw [pairs, hsplit]
    simp [sslModeQuery]
  have hcut : cut 0x3D (sslModeQuery sslmode) = (escape (lit nameSSLMode) .queryComponent,
      escape sslmode .queryComponent) := cut_append (hno (by simp)) _
  have hwithin : UrlQuery.paramsWithinMax (sslModeQuery sslmode) = true := by
    rw [UrlQuery.paramsWithinMax, List.count_eq_zero.mpr hamp]
    decide
  rw [UrlQuery.parse, if_pos hwithin, hpairs]
  simp only [List.filterMap_cons, List.filterMap_nil, readPair, if_neg hsemi, hcut, hread]

/-- The URL is read back in all its parts if its host is. -/
theorem parse_splitURL {host database : Bytes} (username password sslmode : Bytes)
    (hhost : host ≠ []) (hname : database ≠ []) (hslash : 0x2F ∉ database) :
    ∃ rawPath, Url.parse (splitURL host username password database sslmode).string =
      (parseHost (lit schemePostgres) (escape host .host)).map fun host =>
        { scheme := lit schemePostgres, user := some ⟨username, some password⟩, host := host,
          path := 0x2F::database, rawPath := rawPath, rawQuery := sslModeQuery sslmode } := by
  generalize hu : splitURL host username password database sslmode = u
  have hpath : u.path = database := by rw [← hu]; rfl
  have hscheme : u.scheme = lit schemePostgres := by rw [← hu]; rfl
  have huser : u.user = some ⟨username, some password⟩ := by rw [← hu]; rfl
  have huhost : u.host = host := by rw [← hu]; rfl
  have hquery : u.rawQuery = sslModeQuery sslmode := by rw [← hu]; rfl
  have hstring : u.string = lit schemePostgres ++ 0x3A::0x2F::0x2F::(writtenAuthority
      (some ⟨username, some password⟩) host ++ (0x2F::u.escapedPath) ++
        question (sslModeQuery sslmode)) := by
    have hroot : rooted u.escapedPath = 0x2F::u.escapedPath := by
      refine rooted_escapedPath (by rw [hpath]; exact hname) fun h => hslash ?_
      rw [hpath] at h
      exact List.mem_of_mem_head? h
    have hne : sslModeQuery sslmode ≠ [] := by simp [sslModeQuery]
    rw [string_absolute (by rw [hscheme]; exact legalScheme_postgres.ne_nil)
      (by rw [huhost]; exact hhost) (by rw [← hu]; rfl), hroot, hscheme, huser, huhost, hquery,
      if_pos (Or.inr hne), if_pos (by rw [← hu]; rfl), List.append_nil, question, if_neg hne]
  have hread : unescape .path (0x2F::u.escapedPath) = some (0x2F::database) := by
    rw [unescape_slash, unescape_escapedPath, hpath, Option.map_some]
  have hbytes : ∀ b ∈ 0x2F::u.escapedPath, pathByte b = true :=
    List.forall_mem_cons.mpr ⟨by decide, fun b hb => mem_escapedPath hb⟩
  refine ⟨if 0x2F::u.escapedPath = escape (0x2F::database) .path then [] else 0x2F::u.escapedPath, ?_⟩
  rw [hstring, parse_written legalScheme_postgres _ host (Or.inr rfl) hbytes
    fun b hb => mem_sslModeQuery hb]
  simp only [URL.setPath, hread, Option.map_some]
  cases parseHost (lit schemePostgres) (escape host .host) <;> rfl

/-- A host that the splitter accepts is legal in the URL of a database just when the URL can carry
it. -/
theorem legalHost_iff {hostport : Bytes}
    (h : ∃ pair, Ip.splitHostPort hostport = .ok pair) :
    LegalHost (lit schemePostgres) hostport ↔ CarriedHost hostport := by
  obtain ⟨⟨name, port⟩, hsplit⟩ := h
  have hunique : CarriedHost hostport ↔ portDigits port = true ∧
      if hostport.head? = some 0x5B then LegalLiteral name else Fits .host name := by
    simp [CarriedHost, hsplit]
  rw [hunique]
  cases Ip.splitHostPort_ok hsplit with
  | name hcolon hbracket =>
    have hhead : (name ++ 0x3A::port).head? ≠ some 0x5B :=
      fun he => hbracket (List.mem_of_mem_head? he)
    rw [if_neg hhead, legalHost_port hcolon hbracket]
  | literal hport hbracket =>
    have hclosing : 0x5D ∉ 0x3A::port := by simp [hport.2]
    rw [if_pos List.head?_cons, legalHost_literal hclosing, validOptionalPort_colon,
      and_iff_right hbracket]

/-- A URL that tells what the settings say has a host that it can carry. -/
theorem TellsSettings.carriedHost (htells : TellsSettings values url)
    (hblank : trimSpace values.databaseURL = []) (h : buildDatabaseURL values = .ok url) :
    CarriedHost (trimSpace values.databaseHost) := by
  obtain ⟨hsplit, hhost, hname, hslash, rfl⟩ := buildDatabaseURL_split hblank h
  obtain ⟨rawPath, hparse⟩ := parse_splitURL (trimSpace values.databaseUsername)
    values.databasePassword (trimSpace values.databaseSSLMode) hhost hname hslash
  obtain ⟨parsed, hparsed, -⟩ := htells
  rw [hparse, Option.map_eq_some_iff] at hparsed
  obtain ⟨x, hx, -⟩ := hparsed
  exact (legalHost_iff hsplit).mp (legalHost_of_escape hx)

/-- With a host that it can carry the URL tells what the settings say. -/
theorem CarriedHost.tellsSettings (hcarried : CarriedHost (trimSpace values.databaseHost))
    (hblank : trimSpace values.databaseURL = []) (h : buildDatabaseURL values = .ok url) :
    TellsSettings values url := by
  obtain ⟨hsplit, hhost, hname, hslash, rfl⟩ := buildDatabaseURL_split hblank h
  obtain ⟨rawPath, hparse⟩ := parse_splitURL (trimSpace values.databaseUsername)
    values.databasePassword (trimSpace values.databaseSSLMode) hhost hname hslash
  rw [parseHost_escape ((legalHost_iff hsplit).mpr hcarried), Option.map_some] at hparse
  exact ⟨_, hparse, rfl, rfl, rfl, rfl, parse_sslModeQuery _⟩

/-- The URL made of split settings tells what they say exactly when it can carry the host. -/
theorem databaseURL_tells (hblank : trimSpace values.databaseURL = [])
    (h : buildDatabaseURL values = .ok url) :
    TellsSettings values url ↔ CarriedHost (trimSpace values.databaseHost) :=
  ⟨fun htells => htells.carriedHost hblank h, fun hcarried => hcarried.tellsSettings hblank h⟩

/-- Split settings for a reader of the catalog on a host. -/
def settingsOn (hostport : String) : RawValues :=
  ((((RawValues.zero.put .databaseHost (lit hostport)).put .databaseUsername (lit "read user")).put
    .databasePassword (lit "p@ss/word")).put .databaseName (lit defaultDatabaseName)).put
      .databaseSSLMode (lit defaultDatabaseSSLMode)

theorem build_settingsOn {hostport : String}
    (h : (buildDatabaseURL (settingsOn hostport)).toOption.isSome = true) :
    ∃ url, buildDatabaseURL (settingsOn hostport) = .ok url := by
  cases hb : buildDatabaseURL (settingsOn hostport) with
  | error e =>
    rw [hb] at h
    cases h
  | ok url => exact ⟨url, rfl⟩

theorem databaseURL_tells_local : ∃ url, buildDatabaseURL (settingsOn "[::1]:5432") = .ok url ∧
    TellsSettings (settingsOn "[::1]:5432") url := by
  obtain ⟨url, h⟩ := @build_settingsOn "[::1]:5432" (by decide)
  have htrim : trimSpace (settingsOn "[::1]:5432").databaseHost = lit "[::1]:5432" := by
    decide
  refine ⟨url, h, (databaseURL_tells (by decide) h).mpr ?_⟩
  have hbracket : (lit "[::1]:5432").head? = some 0x5B := rfl
  have hlegal : LegalLiteral (lit "::1") := by
    constructor <;> decide +kernel
  rw [htrim]
  exact ⟨lit "::1", lit "5432", rfl, by decide, by rwa [if_pos hbracket]⟩

/-- A port that is no number is accepted, and the URL made of it cannot be parsed. -/
theorem databaseURL_lost : ¬∀ (values : RawValues) (url : Bytes),
    trimSpace values.databaseURL = [] → buildDatabaseURL values = .ok url →
      TellsSettings values url := by
  intro hall
  obtain ⟨url, h⟩ := @build_settingsOn "localhost:port" (by decide)
  have hblank : trimSpace (settingsOn "localhost:port").databaseURL = [] := by decide
  have htrim : trimSpace (settingsOn "localhost:port").databaseHost = lit "localhost:port" := by
    decide
  obtain ⟨name, port, hsplit, hport, -⟩ := (hall _ _ hblank h).carriedHost hblank h
  have hlocal : Ip.splitHostPort (lit "localhost:port") = .ok (lit "localhost", lit "port") := rfl
  rw [htrim, hlocal] at hsplit
  cases hsplit
  exact absurd hport (by decide)

end OpenDiscogs.Configuration
