import OpenDiscogs.Config.Ranges
import OpenDiscogs.HttpApi.Handlers
import OpenDiscogs.Postgres.Search

/-! The statements that the service sends, and the modes they are sent in. -/
namespace OpenDiscogs
open Utf8 SqlText Calendar Catalog OpenDiscogs.Configuration Postgres HttpApi

/-- An argument of a statement: a value for a placeholder, or the mode to send it in. -/
inductive StatementArgument where
  | mode (m : QueryExecMode)
  | text (t : Option Bytes)
  | integer (n : Option Int)
  | date (d : Option Date)
  | boolean (b : Option Bool)

/-- The texts of the statements, under the names of their constants or functions. -/
inductive SQL where
  | validateSchemaQuery | snapshotSQL | releaseExistsSQL
  | searchArtistsSQL | searchLabelsSQL | searchMastersSQL | searchReleasesSQL
  | artistReleasesSQL | labelReleasesSQL | masterReleasesSQL
  | releasesByCatalogNumberSQL | releasesByIdentifierSQL
  | releaseTracksSQL | releaseIdentifiersSQL
  | artistQuery | labelQuery | masterQuery | releaseQuery
deriving DecidableEq

structure Statement where
  sql : SQL
  arguments : List StatementArgument

/-- The modes among the first arguments count, the last of them most; without one it is the
connection's own. -/
def executionMode (mode : QueryExecMode) : List StatementArgument → QueryExecMode
  | .mode m::arguments => executionMode m arguments
  | _ => mode

def requiredAPIRelationNames :=
  "artist,artist_alias,artist_group,artist_member,artist_name_variation,artist_url," ++
  "discogs_catalog_entity_state,discogs_catalog_readiness,discogs_import_checkpoint,label," ++
  "label_release_item,label_sub_label,label_url,master,master_artist,master_genre," ++
  "master_style,master_video,release_item,release_item_artist,release_item_credited_artist," ++
  "release_item_format,release_item_genre,release_item_identifier,release_item_style," ++
  "release_item_track,release_item_video,release_item_work"

/-- The only statement before the service listens. -/
def validateSchema (schemaName : Bytes) : Statement :=
  ⟨.validateSchemaQuery, [.text schemaName, .text (lit requiredAPIRelationNames)]⟩

/-- A page of a collection: its filters, the cursor, and one row more than the page has. -/
def pageStatement (sql : SQL) (filters : List StatementArgument) (request : PageRequest) :
    Statement :=
  ⟨sql, .mode .exec::filters ++
    [.integer request.afterID, .integer request.fetchSize]⟩

/-- A page of the tracks or identifiers of a release. -/
def childStatement (sql : SQL) (releaseID : Int) (request : HashPageRequest) : Statement :=
  ⟨sql, [.mode .exec, .integer releaseID,
    .integer (request.afterHash.map (·.toInt)), .integer request.fetchSize]⟩

def requireReleaseStatement (releaseID : Int) : Statement :=
  ⟨.releaseExistsSQL, [.mode .exec, .integer releaseID]⟩

/-- A single resource. No mode is given. -/
def detailStatement (sql : SQL) (id : Int) (serverURL : Text) : Statement :=
  ⟨sql, [.integer id, .text serverURL.bytes]⟩

def searchReleasesStatement (filter : ReleaseFilter) (request : PageRequest) : Statement :=
  let (start, finish, month) := releaseDateParameters filter.year filter.month
  pageStatement .searchReleasesSQL [.text (optionalText filter.title),
    .text (optionalText filter.country), .date start, .date finish, .integer month,
    .boolean filter.master] request

/-- The statements of a call on the repository, the last one of a child call only where the page
is empty. -/
def Postgres.Store.statements (s : Store) : Call → List Statement
  | .snapshot => [⟨.snapshotSQL, [.mode .exec]⟩]
  | .searchArtists filter request => [pageStatement .searchArtistsSQL
      [.text (optionalText filter.name), .text (optionalText filter.realName)] request]
  | .artist id => [detailStatement .artistQuery id s.serverURL]
  | .artistReleases id request => [pageStatement .artistReleasesSQL [.integer id] request]
  | .searchLabels filter request => [pageStatement .searchLabelsSQL
      [.text (optionalText filter.name)] request]
  | .label id => [detailStatement .labelQuery id s.serverURL]
  | .labelReleases id request => [pageStatement .labelReleasesSQL [.integer id] request]
  | .searchMasters filter request => [pageStatement .searchMastersSQL
      [.text (optionalText filter.title), .integer filter.year] request]
  | .master id => [detailStatement .masterQuery id s.serverURL]
  | .masterReleases id request => [pageStatement .masterReleasesSQL [.integer id] request]
  | .searchReleases filter request => [searchReleasesStatement filter request]
  | .releasesByCatalogNumber lookup request => [pageStatement .releasesByCatalogNumberSQL
      [.integer lookup.labelID, .text lookup.catalogNumber] request]
  | .releasesByIdentifier lookup request => [pageStatement .releasesByIdentifierSQL
      [.text lookup.type, .text lookup.value] request]
  | .release id => [detailStatement .releaseQuery id s.serverURL]
  | .releaseTracks id request =>
      [childStatement .releaseTracksSQL id request, requireReleaseStatement id]
  | .releaseIdentifiers id request =>
      [childStatement .releaseIdentifiersSQL id request, requireReleaseStatement id]

/-- What the service sends with a configuration: one statement as it starts, and those of calls. -/
inductive Issued (cfg : Config) (s : Store) : Statement → Prop where
  | startup : Issued cfg s (validateSchema cfg.database.schema)
  | call {call : Call} {statement : Statement} (h : statement ∈ s.statements call) :
    Issued cfg s statement

/-- The statements that leave the mode to the connection. -/
def unspecified : List SQL :=
  [.validateSchemaQuery, .artistQuery, .labelQuery, .masterQuery, .releaseQuery]

variable {cfg : Config} {s : Store} {statement : Statement}

theorem Postgres.Store.statements_mode (mode : QueryExecMode) {call : Call}
    (h : statement ∈ s.statements call) : executionMode mode statement.arguments =
      if statement.sql ∈ unspecified then mode else .exec := by
  cases call with
  | releaseTracks id request =>
    simp only [statements, List.mem_cons, List.not_mem_nil, or_false] at h
    rcases h with rfl | rfl <;> rfl
  | releaseIdentifiers id request =>
    simp only [statements, List.mem_cons, List.not_mem_nil, or_false] at h
    rcases h with rfl | rfl <;> rfl
  | _ =>
    obtain rfl := List.mem_singleton.mp h
    rfl

/-- Every other statement is sent at once. -/
theorem Issued.mode_eq (h : Issued cfg s statement) (mode : QueryExecMode) :
    executionMode mode statement.arguments =
      if statement.sql ∈ unspecified then mode else .exec := by
  cases h with
  | startup => rfl
  | call h => exact Store.statements_mode mode h

variable {τ : Type} {driver : Driver τ} {queryTracer : Option τ} {pool : PoolConfig τ}

/-- A connection supports the mode that a statement is sent in. -/
def Supported (driver : Driver τ) (conn : ConnConfig τ) (statement : Statement) : Prop :=
  driver.supports conn (executionMode conn.defaultQueryExecMode statement.arguments)

/-- What the driver says of the modes: two of them need room in their cache. -/
structure Configuration.Driver.Documented (driver : Driver τ) : Prop where
  cacheStatement : ∀ conn, driver.supports conn .cacheStatement ↔ 0 < conn.statementCacheCapacity
  cacheDescribe : ∀ conn, driver.supports conn .cacheDescribe ↔ 0 < conn.descriptionCacheCapacity
  describeExec : ∀ conn, driver.supports conn .describeExec
  exec : ∀ conn, driver.supports conn .exec
  simpleProtocol : ∀ conn, driver.supports conn .simpleProtocol

/-- The connection's own mode carries the service: with it the service starts, and without it no
single resource is read. -/
theorem supported_iff (hexec : ∀ conn, driver.supports conn .exec) (conn : ConnConfig τ) :
    (∀ statement, Issued cfg s statement → Supported driver conn statement) ↔
      driver.supports conn conn.defaultQueryExecMode := by
  constructor
  · intro h
    exact h _ .startup
  · intro h statement hi
    rw [Supported, hi.mode_eq]
    split
    · exact h
    · exact hexec conn

/-- What the URL says of the modes is kept, and the capacity of the statement cache replaced. -/
theorem databaseConfig_modes {parsed : PoolConfig τ}
    (hparse : driver.parseConfig cfg.database.url = .ok parsed)
    (h : databaseConfig driver cfg queryTracer = .ok pool) :
    pool.connConfig.defaultQueryExecMode = parsed.connConfig.defaultQueryExecMode ∧
      pool.connConfig.descriptionCacheCapacity = parsed.connConfig.descriptionCacheCapacity ∧
      pool.connConfig.statementCacheCapacity = cfg.database.statementCacheSize := by
  rw [databaseConfig, hparse] at h
  cases h
  exact ⟨rfl, rfl, rfl⟩

/-- With an accepted configuration every statement is sent in a mode that the connections support,
unless the mode that the URL leaves or chooses for the connection needs a cache that has no room. -/
theorem statements_supported {resolve : Resolver} {values : RawValues}
    (hv : validate resolve values = .ok cfg) (hd : driver.Documented) {parsed : PoolConfig τ}
    (hparse : driver.parseConfig cfg.database.url = .ok parsed)
    (hpool : databaseConfig driver cfg queryTracer = .ok pool) (s : Store) :
    (∀ statement, Issued cfg s statement → Supported driver pool.connConfig statement) ↔
      (parsed.connConfig.defaultQueryExecMode = .cacheStatement →
        cfg.database.statementCacheSize ≠ 0) ∧
      (parsed.connConfig.defaultQueryExecMode = .cacheDescribe →
        0 < parsed.connConfig.descriptionCacheCapacity) := by
  obtain ⟨hmode, hdescription, hcapacity⟩ := databaseConfig_modes hparse hpool
  have hsize : 0 < cfg.database.statementCacheSize ↔ cfg.database.statementCacheSize ≠ 0 := by
    have hrange := (validate_validated hv).statementCache
    rw [hrange.2]
    omega
  rw [supported_iff hd.exec, hmode]
  cases parsed.connConfig.defaultQueryExecMode with
  | cacheStatement => simp [hd.cacheStatement, hcapacity, hsize]
  | cacheDescribe => simp [hd.cacheDescribe, hdescription]
  | describeExec => simp [hd.describeExec]
  | exec => simp [hd.exec]
  | simpleProtocol => simp [hd.simpleProtocol]

/-- A driver for URLs that say nothing about modes. -/
def plainDriver : Driver Unit where
  parseConfig _ := .ok {
    maxConns := 4
    minConns := 0
    maxConnIdleTime := defaultMaxConnectionLife
    maxConnLifetime := 2*defaultMaxConnectionLife
    healthCheckPeriod := Duration.minute
    connConfig := {
      defaultQueryExecMode := .cacheStatement
      statementCacheCapacity := 512
      descriptionCacheCapacity := 512
      runtimeParams := fun _ => none
      tracer := none } }
  supports conn mode := match mode with
    | .cacheStatement => 0 < conn.statementCacheCapacity
    | .cacheDescribe => 0 < conn.descriptionCacheCapacity
    | _ => True

theorem plainDriver_documented : plainDriver.Documented where
  cacheStatement _ := Iff.rfl
  cacheDescribe _ := Iff.rfl
  describeExec _ := trivial
  exec _ := trivial
  simpleProtocol _ := trivial

theorem plainDriver_pool (cfg : Config) : ∃ pool, databaseConfig plainDriver cfg none = .ok pool :=
  ⟨_, rfl⟩

theorem statements_supported_default : ∃ cfg pool,
    validate (fun _ => none) defaultValues = .ok cfg ∧
      databaseConfig plainDriver cfg none = .ok pool ∧
      ∀ statement, Issued cfg localStore statement →
        Supported plainDriver pool.connConfig statement := by
  obtain ⟨cfg, h⟩ := @validate_isOk (fun _ => none) defaultValues (by decide +kernel)
  obtain ⟨pool, hpool⟩ := plainDriver_pool cfg
  have hsize : cfg.database.statementCacheSize = 128 := (validate_validated h).statementCache.2
  refine ⟨cfg, pool, h, hpool,
    (statements_supported h plainDriver_documented rfl hpool localStore).mpr ⟨fun _ => ?_, nofun⟩⟩
  rw [hsize]
  decide

/-- An accepted cache without room: the service does not get past its first statement. -/
theorem statements_refused : ∃ cfg pool,
    validate (fun _ => none) (defaultValues.put .statementCache (0 : Int)) = .ok cfg ∧
      databaseConfig plainDriver cfg none = .ok pool ∧
      ∃ statement, Issued cfg localStore statement ∧
        ¬Supported plainDriver pool.connConfig statement := by
  obtain ⟨cfg, h⟩ := @validate_isOk (fun _ => none)
    (defaultValues.put .statementCache (0 : Int)) (by decide +kernel)
  obtain ⟨pool, hpool⟩ := plainDriver_pool cfg
  refine ⟨cfg, pool, h, hpool, _, .startup, fun hs => ?_⟩
  obtain ⟨hmode, -, hcapacity⟩ := databaseConfig_modes rfl hpool
  have hsize : cfg.database.statementCacheSize = 0 := (validate_validated h).statementCache.2
  have hown : plainDriver.supports pool.connConfig pool.connConfig.defaultQueryExecMode := hs
  rw [hmode] at hown
  have hroom : 0 < pool.connConfig.statementCacheCapacity := hown
  rw [hcapacity, hsize] at hroom
  exact absurd hroom (by decide)

end OpenDiscogs
