import OpenDiscogs.App.Serve
import OpenDiscogs.Library.Staged
import OpenDiscogs.SchemaValidation

/-! The life of the program: what it sets up in turn, the servers that it then runs, and the
release of what it has acquired. -/
namespace OpenDiscogs
open Utf8 SqlText Catalog OpenDiscogs.Configuration Postgres

namespace Telemetry

/-- What the exporter of traces is made with. -/
structure ExporterOptions where
  endpointURL : Bytes
  insecure : Bool

/-- Without tracing there is no tracer of queries, and no provider to shut down. -/
structure Runtime (τ : Type) where
  queryTracer : Option τ := none
  provider : Bool := false

/-- An endpoint that is no URL, or the error of the exporter. -/
inductive SetupError where
  | endpoint (raw : Bytes)
  | exporter (e : Err)

/-- `factory` tells what is wrong with the exporter of its options, if anything is. -/
def setup {τ : Type} (tracer : τ) (settings : Tracing) (factory : ExporterOptions → Option Err) :
    Except SetupError (Runtime τ) :=
  if !settings.enabled then .ok {}
  else match Url.parse settings.endpoint with
    | none => .error (.endpoint settings.endpoint)
    | some endpoint =>
      let options := {
        endpointURL := settings.endpoint
        insecure := endpoint.scheme = lit "http" }
      match factory options with
      | some e => .error (.exporter e)
      | none => .ok { queryTracer := some tracer, provider := true }

end Telemetry

namespace App

/-- What `run` releases when it returns. -/
inductive Resource where
  | telemetry
  | pool
deriving DecidableEq

/-- The error that `run` returns. All but those of the configuration and of `serve` are wrapped
with the text of what failed. -/
inductive RunError where
  | telemetry (e : Telemetry.SetupError)
  | configuration (e : Configuration.Failure)
  | createPool (e : Err)
  | connect (e : Err)
  | validateSchema (e : Err)
  | served (e : Failure)

def RunError.operation : RunError → Option String
  | telemetry _ => "configure telemetry"
  | configuration _ => none
  | createPool _ => "create PostgreSQL pool"
  | connect _ => "connect to PostgreSQL"
  | validateSchema _ => "validate PostgreSQL schema"
  | served _ => none

/-- What a run depends on. The name of the schema is a text, as PostgreSQL takes it. -/
structure Setting (τ : Type) where
  cfg : Config
  schemaName : Text
  schema_named : schemaName.bytes = cfg.database.schema
  driver : Driver τ
  tracer : τ

/-- How far a run has come; the catalog is the one that the check of the schema saw. -/
structure Progress (τ : Type) where
  runtime : Option (Telemetry.Runtime τ) := none
  poolConfig : Option (PoolConfig τ) := none
  pinged : Bool := false
  catalog : Option SystemCatalog := none
  serve : Option ServeState := none

section Stages
variable {τ : Type} (env : Setting τ)

/-- What a stage ends in. -/
abbrev StageResult (τ : Type) := Except RunError (Progress τ × Option Resource)

def setupTelemetry (factory : Telemetry.ExporterOptions → Option Err) (x : Progress τ) :
    StageResult τ :=
  match Telemetry.setup env.tracer env.cfg.tracing factory with
  | .error e => .error (.telemetry e)
  | .ok runtime => .ok ({ x with runtime := some runtime }, some .telemetry)

def configureDatabase (x : Progress τ) : StageResult τ :=
  match databaseConfig env.driver env.cfg (x.runtime.bind (·.queryTracer)) with
  | .error e => .error (.configuration e)
  | .ok poolConfig => .ok ({ x with poolConfig := some poolConfig }, none)

def createPool (failure : Option Err) (x : Progress τ) : StageResult τ :=
  match failure with
  | some e => .error (.createPool e)
  | none => .ok (x, some .pool)

def ping (failure : Option Err) (x : Progress τ) : StageResult τ :=
  match failure with
  | some e => .error (.connect e)
  | none => .ok ({ x with pinged := true }, none)

/-- The check of the schema: its statement fails, or it is answered from a catalog, which it is
only in a mode that the connections of the pool support. -/
inductive CheckSchema (x : Progress τ) : StageResult τ → Prop where
  | failed {e e' : Err} (h : validateSchemaState env.schemaName (.error e) = .error e') :
      CheckSchema x (.error (.validateSchema e'))
  | refused {pool : PoolConfig τ} {c : SystemCatalog} {e : Err} (hp : x.poolConfig = some pool)
      (hs : Supported env.driver pool.connConfig (validateSchema env.cfg.database.schema))
      (h : c.validateSchema env.schemaName = .error e) :
      CheckSchema x (.error (.validateSchema e))
  | valid {pool : PoolConfig τ} {c : SystemCatalog} (hp : x.poolConfig = some pool)
      (hs : Supported env.driver pool.connConfig (validateSchema env.cfg.database.schema))
      (h : c.validateSchema env.schemaName = .value ()) :
      CheckSchema x (.ok ({ x with catalog := some c }, none))

/-- What `serve` returned, once it has. -/
def Main.result : Main → Option (Option RunError)
  | .aborted e => some (some (.served e))
  | .returned e => some (e.map .served)
  | _ => none

def run : Staged.Program (Progress τ) Resource RunError where
  stages := [
    fun x result => ∃ factory, result = setupTelemetry env factory x,
    fun x result => result = configureDatabase env x,
    fun x result => ∃ failure, result = createPool failure x,
    fun x result => ∃ failure, result = ping failure x,
    CheckSchema env]
  enter x := { x with serve := some {} }
  moves x y := ∃ s t, x.serve = some s ∧ ServeStep (runServers env.cfg) s t ∧
    y = { x with serve := some t }
  result x := x.serve.bind fun s => s.main.result

/-- A run of `run`, with everything that may go on beside it. -/
abbrev AppRun : Staged.State (Progress τ) Resource RunError → Prop := Staged.Run (run env) {}

/-- A pool that was configured after the tracing. -/
structure Configured (runtime : Telemetry.Runtime τ) (pool : PoolConfig τ) : Prop where
  telemetry : ∃ factory, Telemetry.setup env.tracer env.cfg.tracing factory = .ok runtime
  database : databaseConfig env.driver env.cfg runtime.queryTracer = .ok pool

/-- A catalog that the service can be run on, seen over a pool. -/
structure Checked (pool : PoolConfig τ) (c : SystemCatalog) : Prop where
  supported : Supported env.driver pool.connConfig (validateSchema env.cfg.database.schema)
  valid : c.validateSchema env.schemaName = .value ()

/-- What was reached before a stage. -/
def Before : Nat → Progress τ → List Resource → Prop
  | 0, x, acquired => x = {} ∧ acquired = []
  | 1, x, acquired => ∃ runtime,
      (∃ factory, Telemetry.setup env.tracer env.cfg.tracing factory = .ok runtime) ∧
        x = { runtime := some runtime } ∧ acquired = [.telemetry]
  | 2, x, acquired => ∃ runtime pool, Configured env runtime pool ∧
      x = { runtime := some runtime, poolConfig := some pool } ∧ acquired = [.telemetry]
  | 3, x, acquired => ∃ runtime pool, Configured env runtime pool ∧
      x = { runtime := some runtime, poolConfig := some pool } ∧ acquired = [.telemetry, .pool]
  | 4, x, acquired => ∃ runtime pool, Configured env runtime pool ∧
      x = { runtime := some runtime, poolConfig := some pool, pinged := true } ∧
        acquired = [.telemetry, .pool]
  | _, x, acquired => ∃ runtime pool c, Configured env runtime pool ∧ Checked env pool c ∧
      x = ⟨some runtime, some pool, true, some c, none⟩ ∧ acquired = [.telemetry, .pool]

/-- What holds from the moment at which the servers are run. -/
def Serving (x : Progress τ) (acquired : List Resource) : Prop :=
  ∃ runtime pool c s, Configured env runtime pool ∧ Checked env pool c ∧
    ServeRun (runServers env.cfg) s ∧ x = ⟨some runtime, some pool, true, some c, some s⟩ ∧
      acquired = [.telemetry, .pool]

variable {env} {x y : Progress τ} {acquired : List Resource}

theorem Before.quiet {k : Nat} (h : Before env k x acquired) : x.serve = none := by
  match k with
  | 0 =>
    obtain ⟨rfl, -⟩ := h
    rfl
  | 1 =>
    obtain ⟨runtime, -, rfl, -⟩ := h
    rfl
  | 2 | 3 | 4 =>
    obtain ⟨runtime, pool, -, rfl, -⟩ := h
    rfl
  | _+5 =>
    obtain ⟨runtime, pool, c, -, -, rfl, -⟩ := h
    rfl

/-- What each stage reaches. -/
theorem Before.pass {k : Nat} {stage : Progress τ → StageResult τ → Prop}
    {resource : Option Resource} (hk : (run env).stages[k]? = some stage)
    (h : Before env k x acquired) (hs : stage x (.ok (y, resource))) :
    Before env (k+1) y (acquired ++ resource.toList) := by
  match k with
  | 0 =>
    obtain ⟨rfl, rfl⟩ := h
    cases hk
    obtain ⟨factory, hs⟩ := hs
    rw [setupTelemetry] at hs
    split at hs
    · cases hs
    · next runtime hruntime =>
      cases hs
      exact ⟨runtime, ⟨factory, hruntime⟩, rfl, rfl⟩
  | 1 =>
    obtain ⟨runtime, hruntime, rfl, rfl⟩ := h
    cases hk
    replace hs : _ = configureDatabase env _ := hs
    rw [configureDatabase] at hs
    split at hs
    · cases hs
    · next pool hpool =>
      cases hs
      exact ⟨runtime, pool, ⟨hruntime, hpool⟩, rfl, rfl⟩
  | 2 =>
    obtain ⟨runtime, pool, hconfigured, rfl, rfl⟩ := h
    cases hk
    obtain ⟨failure, hs⟩ := hs
    cases failure with
    | some e => cases hs
    | none =>
      cases hs
      exact ⟨runtime, pool, hconfigured, rfl, rfl⟩
  | 3 =>
    obtain ⟨runtime, pool, hconfigured, rfl, rfl⟩ := h
    cases hk
    obtain ⟨failure, hs⟩ := hs
    cases failure with
    | some e => cases hs
    | none =>
      cases hs
      exact ⟨runtime, pool, hconfigured, rfl, rfl⟩
  | 4 =>
    obtain ⟨runtime, pool, hconfigured, rfl, rfl⟩ := h
    cases hk
    cases hs with
    | valid hp hs hvalid =>
      cases hp
      exact ⟨runtime, _, _, hconfigured, ⟨hs, hvalid⟩, rfl, rfl⟩
  | _+5 => cases hk

/-- `serve` does not take back what it has returned: only the goroutines go on. -/
theorem result_kept {servers : List ConfiguredServer} {s t : ServeState} {e : Option RunError}
    (hr : s.main.result = some e) (hs : ServeStep servers s t) : t.main.result = some e := by
  cases hs with
  | listen hm | listenFails _ hm | closeListener hm | abort hm | listened hm | start hm
  | started hm | contextDone hm | receive hm | shutdown _ hm | finish hm =>
    rw [hm] at hr
    cases hr
  | cancel | serveReturns | send => exact hr

def outline (env : Setting τ) : Staged.Outline (run env) {} where
  before := Before env
  body := Serving env
  begins := ⟨rfl, rfl⟩
  pass hk h hs := h.pass hk hs
  still h hm := by
    obtain ⟨s, t, hs, -⟩ := hm
    rw [h.quiet] at hs
    cases hs
  enter h := by
    obtain ⟨runtime, pool, c, hconfigured, hchecked, rfl, rfl⟩ := h
    exact ⟨runtime, pool, c, {}, hconfigured, hchecked, .refl, rfl, rfl⟩
  moves h hm := by
    obtain ⟨runtime, pool, c, s, hconfigured, hchecked, hrun, rfl, rfl⟩ := h
    obtain ⟨s', t, hs', hstep, rfl⟩ := hm
    cases hs'
    exact ⟨runtime, pool, c, t, hconfigured, hchecked, hrun.tail hstep, rfl, rfl⟩
  keeps h hm he := by
    obtain ⟨s, t, hs, hstep, rfl⟩ := hm
    simp only [run, hs, Option.bind_some] at he ⊢
    exact result_kept he hstep

/-- How a run of `run` ends: with what it released, in that order, and with its error. No listener
was opened unless all that comes before succeeded; every listener that was opened was closed, or
the server of it was shut down. -/
inductive Ending (env : Setting τ) (x : Progress τ) : List Resource → Option RunError → Prop where
  | telemetry {factory : Telemetry.ExporterOptions → Option Err} {e : Telemetry.SetupError}
      (failed : Telemetry.setup env.tracer env.cfg.tracing factory = .error e)
      (quiet : x.serve = none) : Ending env x [] (some (.telemetry e))
  | configuration {queryTracer : Option τ} {e : Configuration.Failure}
      (failed : databaseConfig env.driver env.cfg queryTracer = .error e)
      (quiet : x.serve = none) : Ending env x [.telemetry] (some (.configuration e))
  | createPool {e : Err} (quiet : x.serve = none) : Ending env x [.telemetry] (some (.createPool e))
  | connect {e : Err} (quiet : x.serve = none) :
      Ending env x [.pool, .telemetry] (some (.connect e))
  | validateSchema {e : Err} (quiet : x.serve = none) (failed :
        (∃ reason, validateSchemaState env.schemaName (.error reason) = .error e) ∨
          ∃ c : SystemCatalog, c.validateSchema env.schemaName = .error e) :
      Ending env x [.pool, .telemetry] (some (.validateSchema e))
  | refused {s : ServeState} {e : Failure} (ran : x.serve = some s) (main : s.main = .aborted e)
      (closed : s.closed = s.listeners) (idle : ∀ k, s.goroutines k = .idle) :
      Ending env x [.pool, .telemetry] (some (.served e))
  | stopped {s : ServeState} {e : Option Failure} (ran : x.serve = some s)
      (main : s.main = .returned e)
      (shutdowns : s.shutdowns = List.range (runServers env.cfg).length) :
      Ending env x [.pool, .telemetry] (e.map .served)

theorem Before.fail {k : Nat} {stage : Progress τ → StageResult τ → Prop} {e : RunError}
    (hk : (run env).stages[k]? = some stage) (h : Before env k x acquired)
    (hs : stage x (.error e)) : Ending env x acquired.reverse (some e) := by
  have hquiet := h.quiet
  match k with
  | 0 =>
    obtain ⟨-, rfl⟩ := h
    cases hk
    obtain ⟨factory, hs⟩ := hs
    rw [setupTelemetry] at hs
    split at hs
    · next e hfailed =>
      cases hs
      exact .telemetry hfailed hquiet
    · cases hs
  | 1 =>
    obtain ⟨runtime, -, -, rfl⟩ := h
    cases hk
    replace hs : _ = configureDatabase env _ := hs
    rw [configureDatabase] at hs
    split at hs
    · next e hfailed =>
      cases hs
      exact .configuration hfailed hquiet
    · cases hs
  | 2 =>
    obtain ⟨runtime, pool, -, -, rfl⟩ := h
    cases hk
    obtain ⟨failure, hs⟩ := hs
    cases failure with
    | some e =>
      cases hs
      exact .createPool hquiet
    | none => cases hs
  | 3 =>
    obtain ⟨runtime, pool, -, -, rfl⟩ := h
    cases hk
    obtain ⟨failure, hs⟩ := hs
    cases failure with
    | some e =>
      cases hs
      exact .connect hquiet
    | none => cases hs
  | 4 =>
    obtain ⟨runtime, pool, -, -, rfl⟩ := h
    cases hk
    cases hs with
    | failed hfailed => exact .validateSchema hquiet (Or.inl ⟨_, hfailed⟩)
    | refused hp hs hrefused => exact .validateSchema hquiet (Or.inr ⟨_, hrefused⟩)
  | _+5 => cases hk

/-- A run of the servers ends with all listeners closed or all servers shut down. -/
theorem Serving.ending {e : Option RunError} (h : Serving env x acquired)
    (he : (run env).result x = some e) : Ending env x acquired.reverse e := by
  obtain ⟨runtime, pool, c, s, -, -, hrun, rfl, rfl⟩ := h
  have hcontrol := (serveInvariant_run hrun).control
  simp only [run, Option.bind_some] at he
  cases hm : s.main with
  | aborted failure =>
    rw [hm] at he hcontrol
    cases he
    obtain ⟨-, hclosed, hidle⟩ := hcontrol
    exact .refused rfl hm hclosed hidle
  | returned failure =>
    rw [hm] at he hcontrol
    cases he
    obtain ⟨-, hshutdowns, -, -⟩ := hcontrol
    exact .stopped rfl hm hshutdowns
  | listening | closing | starting | selecting | stopping =>
    rw [hm] at he
    cases he

theorem ends_ending {e : Option RunError} (h : Staged.Ends (outline env) x acquired e) :
    Ending env x acquired.reverse e := by
  cases h with
  | stage hk hb hs => exact hb.fail hk hs
  | body hb he => exact Serving.ending hb he

/-- Every run that returns ends so. -/
theorem run_ending {s : Staged.State (Progress τ) Resource RunError} {e : Option RunError}
    (h : AppRun env s) (he : s.place = .returned e) : Ending env s.store s.released e := by
  have hends := Staged.holds_run (outline env) h
  rw [he] at hends
  rw [Staged.released_run h he]
  exact ends_ending hends

/-- When everything can be set up, the servers come to be run. -/
theorem startup_run {runtime : Telemetry.Runtime τ} {pool : PoolConfig τ} {c : SystemCatalog}
    (hconfigured : Configured env runtime pool) (hchecked : Checked env pool c) :
    AppRun env {
      place := .body
      store := ⟨some runtime, some pool, true, some c, some {}⟩
      deferred := [.pool, .telemetry]
      acquired := [.telemetry, .pool] } := by
  obtain ⟨factory, hruntime⟩ := hconfigured.telemetry
  have htelemetry : setupTelemetry env factory {} =
      .ok ({ runtime := some runtime }, some .telemetry) := by rw [setupTelemetry, hruntime]
  have hdatabase : configureDatabase env { runtime := some runtime } =
      .ok ({ runtime := some runtime, poolConfig := some pool }, none) := by
    rw [configureDatabase, Option.bind_some, hconfigured.database]
  have hstart : AppRun env { store := {} } := .refl
  exact (((((hstart.tail
    (.pass rfl rfl ⟨factory, htelemetry.symm⟩)).tail
    (.pass rfl rfl hdatabase.symm)).tail
    (.pass rfl rfl ⟨none, rfl⟩)).tail
    (.pass rfl rfl ⟨none, rfl⟩)).tail
    (.pass rfl rfl (.valid rfl hchecked.supported hchecked.valid))).tail
    (.enter rfl)

/-- The run of the servers is part of the run of the program. -/
theorem serve_run {s : Staged.State (Progress τ) Resource RunError} (h : AppRun env s)
    (hs : s.store.serve = some {}) {serve : ServeState}
    (hrun : ServeRun (runServers env.cfg) serve) :
    AppRun env { s with store := { s.store with serve := some serve } } := by
  induction hrun with
  | refl =>
    rw [← hs]
    exact h
  | @tail t u _ hstep ih => exact ih.tail (.move ⟨t, u, rfl, hstep, rfl⟩)

/-- While the servers are run, and until they have been stopped, the pool is open and was checked:
every statement of the service is sent in a mode that its connections support, and every relation
that it names is one that the user may select from. -/
theorem run_serving {resolve : Resolver} {values : RawValues}
    (hv : validate resolve values = .ok env.cfg) (hexec : ∀ conn, env.driver.supports conn .exec)
    {s : Staged.State (Progress τ) Resource RunError} (h : AppRun env s) {serve : ServeState}
    (hserve : s.store.serve = some serve) (store : Store) : ∃ pool path c,
      s.store.poolConfig = some pool ∧ PoolConfig.path pool = some path ∧
      s.store.catalog = some c ∧
      (∀ statement, Issued env.cfg store statement →
        Supported env.driver pool.connConfig statement ∧
        ∀ name ∈ statement.sql.relations, ∃ relation,
          c.resolve path name = some relation ∧ relation.select = true) ∧
      (s.place.held = true → s.released = [] ∧ s.deferred = [.pool, .telemetry]) := by
  have hholds := Staged.holds_run (outline env) h
  have hserving : Serving env s.store s.acquired := by
    have hquiet : ∀ k, ¬Before env k s.store s.acquired := fun k hb => by
      rw [hb.quiet] at hserve
      cases hserve
    cases hp : s.place with
    | stage k =>
      rw [hp] at hholds
      exact absurd hholds (hquiet k)
    | body =>
      rw [hp] at hholds
      exact hholds
    | unwinding e | returned e =>
      rw [hp] at hholds
      cases hholds with
      | stage hk hb hs => exact absurd hb (hquiet _)
      | body hb he => exact hb
  obtain ⟨runtime, pool, c, s', hconfigured, hchecked, -, hstore, hacquired⟩ := hserving
  have hpath := databaseConfig_path hv hconfigured.database
  have hreadable := (validateSchema_issued env.cfg store c env.schemaName).mp hchecked.valid
  rw [env.schema_named] at hreadable
  have hsupported : ∀ statement, Issued env.cfg store statement →
      Supported env.driver pool.connConfig statement :=
    (supported_iff hexec pool.connConfig).mpr hchecked.supported
  refine ⟨pool, _, c, by rw [hstore], hpath, by rw [hstore], fun statement hissued =>
    ⟨hsupported statement hissued, hreadable statement hissued⟩, fun hheld => ?_⟩
  have hbalanced := Staged.balanced_run h
  have hreleased := hbalanced.held hheld
  have hbalance := hbalanced.balance
  rw [hreleased, hacquired, List.nil_append] at hbalance
  exact ⟨hreleased, hbalance⟩

end Stages

/-- The configuration of two servers and of a schema, without tracing. -/
def plainSetting : Setting Unit where
  cfg := {
    publicAddress := lit ":8080"
    managementAddress := lit ":8081"
    database := { schema := lit "public", statementCacheSize := 128 } }
  schemaName := publicSchema
  schema_named := rfl
  driver := plainDriver
  tracer := ()

theorem plainSetting_configured : ∃ pool, Configured plainSetting {} pool ∧
    Checked plainSetting pool (grantedCatalog requiredRelations) := by
  obtain ⟨pool, hpool⟩ := plainDriver_pool plainSetting.cfg
  refine ⟨pool, ⟨⟨fun _ => none, rfl⟩, hpool⟩, ?_, grantedCatalog_valid⟩
  cases hpool
  exact (by decide : (0 : Int) < 128)

/-- A run that a cancellation ends: the pool is closed before the telemetry is shut down. -/
theorem run_ending_canceled : ∃ x, Ending plainSetting x [.pool, .telemetry] none := by
  obtain ⟨pool, hconfigured, hchecked⟩ := plainSetting_configured
  have hserve : ServeRun (runServers plainSetting.cfg) _ :=
    ((((serving_run.tail .cancel).tail
      (.contextDone rfl rfl)).tail
      (@ServeStep.shutdown _ _ 0 _ none rfl rfl)).tail
      (@ServeStep.shutdown _ _ 1 _ none rfl rfl)).tail
      (.finish rfl)
  have hrun := ((((serve_run (startup_run hconfigured hchecked) rfl hserve).tail
    (.leave rfl rfl)).tail
    (.release rfl rfl)).tail
    (.release rfl rfl)).tail
    (.finish rfl rfl)
  exact ⟨_, run_ending hrun rfl⟩

/-- The tracing of an accepted configuration, whose endpoint is kept with its blanks. -/
theorem validate_tracing {resolve : Resolver} {values : RawValues} {cfg : Config}
    (h : validate resolve values = .ok cfg) : cfg.tracing =
      { enabled := values.tracingEnabled
        endpoint := values.otlpEndpoint
        sampleRatio := values.traceSampleRatio } ∧
    (values.tracingEnabled = true → ∃ url, absoluteHTTPURL values.otlpEndpoint = .ok url) := by
  simp only [validate, Except.bind_eq_ok] at h
  obtain ⟨_, -, _, -, _, -, _, -, _, -, _, -, _, -, _, -, _, -, _, -, _, -, _, -, _, -, _, -, _, -,
    _, hendpoint, h⟩ := h
  cases h
  refine ⟨rfl, fun henabled => ?_⟩
  rw [validateEndpoint, if_pos henabled] at hendpoint
  obtain ⟨url, hurl, -⟩ := Except.bind_eq_ok.mp hendpoint
  cases habsolute : absoluteHTTPURL values.otlpEndpoint with
  | error e =>
    rw [habsolute] at hurl
    cases hurl
  | ok url => exact ⟨url, rfl⟩

theorem run_serving_default : ∃ env : Setting Unit, ∃ s,
    validate (fun _ => none) defaultValues = .ok env.cfg ∧ AppRun env s ∧
      s.deferred = [.pool, .telemetry] ∧ ∃ pool, s.store.poolConfig = some pool ∧
        ∀ statement, Issued env.cfg localStore statement →
          Supported env.driver pool.connConfig statement := by
  obtain ⟨cfg, h⟩ := @validate_isOk (fun _ => none) defaultValues (by decide +kernel)
  have hsize : cfg.database.statementCacheSize = 128 := (validate_validated h).statementCache.2
  let env : Setting Unit := {
    cfg := cfg
    schemaName := publicSchema
    schema_named := (validate_validated h).schema.2.symm
    driver := plainDriver
    tracer := () }
  obtain ⟨pool, hpool⟩ := plainDriver_pool cfg
  have hruntime : Telemetry.setup () cfg.tracing (fun _ => none) = .ok {} := by
    rw [(validate_tracing h).1]
    rfl
  have hsupported : Supported plainDriver pool.connConfig (validateSchema cfg.database.schema) := by
    cases hpool
    exact (by rw [hsize]; decide : 0 < cfg.database.statementCacheSize)
  have hrun := @startup_run _ env {} pool _ ⟨⟨_, hruntime⟩, hpool⟩ ⟨hsupported, grantedCatalog_valid⟩
  obtain ⟨pool, path, c, hp, -, -, hstatements, hheld⟩ :=
    run_serving h plainDriver_documented.exec hrun rfl localStore
  exact ⟨env, _, h, hrun, (hheld rfl).2, pool, hp, fun statement hissued =>
    (hstatements statement hissued).1⟩

end App
end OpenDiscogs
