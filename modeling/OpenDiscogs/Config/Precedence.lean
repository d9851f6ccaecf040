import OpenDiscogs.Config.Equivalence

/-! Where each setting takes its value from, and which fields of the configuration it reaches. -/
namespace OpenDiscogs.Configuration
open Utf8 Strconv Duration CommandLine

/-- How a variable is read as a value of a type. -/
def ValueType.parseVariable : (type : ValueType) → Bytes → Option type.Value
  | string, v => some v
  | boolean, v => parseBool (trimSpace v)
  | integer, v => atoi (trimSpace v)
  | duration, v => parseDuration (trimSpace v)
  | float, v => parseFloat (trimSpace v)

/-- The text of a variable that is set, and not blank where a blank one counts as missing. -/
def ValueType.variable (type : ValueType) (lookup : LookupEnv) (name : String) : Option Bytes :=
  (lookup name).filter fun v => type = .string ∨ trimSpace v ≠ []

/-- The last value of the flag, or else the variable, or else the documented default. -/
def chosen (arguments : List Bytes) (lookup : LookupEnv) (d : Definition) (type : ValueType) :
    Option type.Value :=
  match lastValue (lit d.flag) (scan bindFlags arguments).given with
  | some v => type.parseFlag v
  | none => match type.variable lookup d.environment with
    | some v => type.parseVariable v
    | none => type.parseFlag (lit d.default)

/-- Loading without a control argument ends in a validated configuration. -/
def LoadsConfig (resolve : Resolver) (arguments : List Bytes) (lookup : LookupEnv)
    (config : Config) : Prop :=
  hasArgument arguments controlArguments = false ∧
    load resolve arguments lookup = .ok { config := config }

/-- The arguments give every flag but one the same values in the same order. -/
def SameArguments (flag : String) (arguments arguments' : List Bytes) : Prop :=
  ((scan bindFlags arguments).given.filter fun pair => pair.1.name ≠ lit flag) =
    (scan bindFlags arguments').given.filter fun pair => pair.1.name ≠ lit flag

/-- The environments differ at most in one variable. -/
def SameVariables (name : String) (lookup lookup' : LookupEnv) : Prop :=
  ∀ other, other ≠ name → lookup other = lookup' other

/-- The fields of a configuration. -/
inductive ConfigField where
  | publicAddress | managementAddress | serverURL | cacheControl | accessLog | maxProcs
  | memoryLimitBytes | logLevel | readHeaderTimeout | readTimeout | writeTimeout | idleTimeout
  | shutdownTimeout | queryTimeout | metricsEnabled | tracingEnabled | tracingEndpoint
  | tracingSampleRatio | databaseURL | databaseSchema | maxConnections | minConnections
  | maxConnectionIdle | maxConnectionLife | healthCheckPeriod | statementCacheSize
deriving DecidableEq

def splitSettings : List Setting :=
  [.databaseHost, .databaseUsername, .databasePassword, .databaseName, .databaseSSLMode]

namespace ConfigField

/-- The settings that a field derives from. -/
def sources : ConfigField → List Setting
  | publicAddress => [.address]
  | managementAddress => [.managementAddress]
  | serverURL => [.serverURL]
  | cacheControl => [.cacheControl]
  | accessLog => [.accessLog]
  | maxProcs => [.maxProcs]
  | memoryLimitBytes => [.memoryLimitMiB]
  | logLevel => [.logLevel]
  | readHeaderTimeout => []
  | readTimeout => []
  | writeTimeout => []
  | idleTimeout => []
  | shutdownTimeout => [.shutdownTimeout]
  | queryTimeout => [.queryTimeout]
  | metricsEnabled => [.metricsEnabled]
  | tracingEnabled => [.tracingEnabled]
  | tracingEndpoint => [.otlpEndpoint]
  | tracingSampleRatio => [.traceSampleRatio]
  | databaseURL => .databaseURL::splitSettings
  | databaseSchema => [.databaseSchema]
  | maxConnections => [.databaseMaxConns]
  | minConnections => [.databaseMinConns]
  | maxConnectionIdle => []
  | maxConnectionLife => []
  | healthCheckPeriod => []
  | statementCacheSize => [.statementCache]

/-- Two configurations have the same value in a field. -/
def Agrees (c c' : Config) : ConfigField → Prop
  | publicAddress => c.publicAddress = c'.publicAddress
  | managementAddress => c.managementAddress = c'.managementAddress
  | serverURL => c.serverURL = c'.serverURL
  | cacheControl => c.cacheControl = c'.cacheControl
  | accessLog => c.accessLog = c'.accessLog
  | maxProcs => c.maxProcs = c'.maxProcs
  | memoryLimitBytes => c.memoryLimitBytes = c'.memoryLimitBytes
  | logLevel => c.logLevel = c'.logLevel
  | readHeaderTimeout => c.readHeaderTimeout = c'.readHeaderTimeout
  | readTimeout => c.readTimeout = c'.readTimeout
  | writeTimeout => c.writeTimeout = c'.writeTimeout
  | idleTimeout => c.idleTimeout = c'.idleTimeout
  | shutdownTimeout => c.shutdownTimeout = c'.shutdownTimeout
  | queryTimeout => c.queryTimeout = c'.queryTimeout
  | metricsEnabled => c.metricsEnabled = c'.metricsEnabled
  | tracingEnabled => c.tracing.enabled = c'.tracing.enabled
  | tracingEndpoint => c.tracing.endpoint = c'.tracing.endpoint
  | tracingSampleRatio => c.tracing.sampleRatio = c'.tracing.sampleRatio
  | databaseURL => c.database.url = c'.database.url
  | databaseSchema => c.database.schema = c'.database.schema
  | maxConnections => c.database.maxConnections = c'.database.maxConnections
  | minConnections => c.database.minConnections = c'.database.minConnections
  | maxConnectionIdle => c.database.maxConnectionIdle = c'.database.maxConnectionIdle
  | maxConnectionLife => c.database.maxConnectionLife = c'.database.maxConnectionLife
  | healthCheckPeriod => c.database.healthCheckPeriod = c'.database.healthCheckPeriod
  | statementCacheSize => c.database.statementCacheSize = c'.database.statementCacheSize

/-- The fields are all of a configuration. -/
theorem agrees_all {c c' : Config} (h : ∀ f : ConfigField, f.Agrees c c') : c = c' := by
  obtain ⟨_, _, _, _, _, _, _, _, _, _, _, _, _, _, _, ⟨_, _, _⟩, ⟨_, _, _, _, _, _, _, _⟩⟩ := c
  obtain ⟨_, _, _, _, _, _, _, _, _, _, _, _, _, _, _, ⟨_, _, _⟩, ⟨_, _, _, _, _, _, _, _⟩⟩ := c'
  obtain rfl := h publicAddress
  obtain rfl := h managementAddress
  obtain rfl := h serverURL
  obtain rfl := h cacheControl
  obtain rfl := h accessLog
  obtain rfl := h maxProcs
  obtain rfl := h memoryLimitBytes
  obtain rfl := h logLevel
  obtain rfl := h readHeaderTimeout
  obtain rfl := h readTimeout
  obtain rfl := h writeTimeout
  obtain rfl := h idleTimeout
  obtain rfl := h shutdownTimeout
  obtain rfl := h queryTimeout
  obtain rfl := h metricsEnabled
  obtain rfl := h tracingEnabled
  obtain rfl := h tracingEndpoint
  obtain rfl := h tracingSampleRatio
  obtain rfl := h databaseURL
  obtain rfl := h databaseSchema
  obtain rfl := h maxConnections
  obtain rfl := h minConnections
  obtain rfl := h maxConnectionIdle
  obtain rfl := h maxConnectionLife
  obtain rfl := h healthCheckPeriod
  obtain rfl := h statementCacheSize
  rfl

end ConfigField

/-- Every setting has the value that was chosen for it. -/
def Precedence (arguments : List Bytes) (lookup : LookupEnv) (values : RawValues) : Prop :=
  ∀ d ∈ inventory, ∃ s : Setting, s.flag = d.flag ∧ s.environment = d.environment ∧
    s.type = d.type ∧ chosen arguments lookup d s.type = some (values.get s)

section Values
variable {resolve : Resolver} {arguments arguments' : List Bytes} {lookup lookup' : LookupEnv}
  {values values' : RawValues} {parsed parsed' : FlagValues} {positional : List Bytes}
  {config config' : Config} {s t : Setting}

/-- The documented default is the value of a setting that is given nowhere. -/
theorem default_fallback (s : Setting) : ((inventory.find? fun d => d.flag = s.flag).bind
    fun d => s.type.parseFlag (lit d.default)) = some s.fallback := by
  cases s <;> decide +kernel

theorem find_definition {d : Definition} (hd : d ∈ inventory) (h : s.flag = d.flag) :
    inventory.find? (fun d => d.flag = s.flag) = some d := by
  have hnodup : (inventory.map (·.flag)).Nodup := by decide
  cases hf : inventory.find? fun d => d.flag = s.flag with
  | none => simpa [h] using List.find?_eq_none.mp hf d hd
  | some d' =>
    have hflag : d'.flag = s.flag := by simpa using List.find?_some hf
    rw [List.inj_on_of_nodup_map hnodup (List.mem_of_find?_eq_some hf) hd (hflag.trans h)]

theorem exists_definition (s : Setting) : ∃ d ∈ inventory, d.flag = s.flag := by
  have hmem : s.flag ∈ inventory.map (·.flag) := by cases s <;> decide
  simpa using hmem

theorem name_injective (h : lit s.flag = lit t.flag) : s = t := by
  have hnodup : (Setting.all.map fun s => lit s.flag).Nodup := by decide
  exact List.inj_on_of_nodup_map hnodup s.mem_all t.mem_all h

/-- A flag of the name of a setting is the flag of that setting. -/
theorem flag_eq {f : Flag FlagValues} (hf : f ∈ bindFlags) (h : f.name = lit s.flag) :
    f = settingVar s s.flag := by
  obtain ⟨t, rfl⟩ | rfl | rfl := mem_bindFlags hf
  · rw [name_injective h]
  · exact absurd h (by cases s <;> decide)
  · exact absurd h (by cases s <;> decide)

/-- Parsing sets a setting to the last value of its flag, and to nothing else. -/
theorem parsed_setting
    (h : parse bindFlags arguments { values := values } = .ok (parsed, positional)) (s : Setting) :
    some (parsed.values.get s) =
      (lastValue (lit s.flag) (scan bindFlags arguments).given).elim (some (values.get s))
        s.type.parseFlag := by
  refine @setAll_last _ _ _ (lit s.flag) (fun v : FlagValues => v.values.get s) s.type.parseFlag
    ?_ ?_ _ scan_given _ _ (parse_eq_ok.mp h).1
  · intro f hf hname value v w hset
    obtain rfl := flag_eq hf hname
    obtain ⟨x, hx, rfl⟩ := settingVar_set.mp hset
    rw [hx]
    exact congrArg some (RawValues.get_put v.values s x).symm
  · intro f hf hname value v w hset
    obtain ⟨t, rfl⟩ | rfl | rfl := mem_bindFlags hf
    · obtain ⟨x, -, rfl⟩ := settingVar_set.mp hset
      have hst : s ≠ t := fun he => hname (he ▸ rfl)
      exact RawValues.get_put_ne hst v.values x
    · obtain ⟨b, -, rfl⟩ := Option.map_eq_some_iff.mp hset
      rfl
    · obtain ⟨b, -, rfl⟩ := Option.map_eq_some_iff.mp hset
      rfl

theorem environmentValue_variable {α : Type} {parser : Bytes → Option α} {expected name : String}
    {fallback x : α} (h : environmentValue parser expected lookup name fallback = .ok x) :
    some x = ((lookup name).filter fun v => trimSpace v ≠ []).elim (some fallback)
      fun v => parser (trimSpace v) := by
  unfold environmentValue value at h
  cases hv : lookup name with
  | none =>
    rw [hv] at h
    cases h
    rfl
  | some v =>
    rw [hv] at h
    by_cases hblank : trimSpace v = []
    · simp only [hblank, if_true, Except.ok.injEq] at h
      simp [Option.filter_some, hblank, h]
    · simp only [hblank, if_false] at h
      cases hp : parser (trimSpace v) with
      | none => simp [hp] at h
      | some y =>
        simp only [hp, Except.ok.injEq] at h
        simp [Option.filter_some, hblank, hp, h]

/-- A variable that counts is read, and one that does not leaves the fallback. -/
theorem fromEnvironment_variable {type : ValueType} {name : String} {fallback x : type.Value}
    (h : type.fromEnvironment lookup name fallback = .ok x) :
    some x = (type.variable lookup name).elim (some fallback) type.parseVariable := by
  cases type with
  | string =>
    simp only [ValueType.fromEnvironment, value, Except.ok.injEq] at h
    rw [← h, ValueType.variable]
    cases lookup name with
    | none => rfl
    | some v => simp [Option.filter_some, ValueType.parseVariable]
  | boolean | integer | duration | float =>
    simp only [ValueType.variable, reduceCtorEq, false_or]
    exact environmentValue_variable h

theorem load_precedence (h : LoadsConfig resolve arguments lookup config) :
    ∃ values, validate resolve values = .ok config ∧ Precedence arguments lookup values := by
  obtain ⟨hcontrol, hload⟩ := h
  obtain ⟨values, henv, parsed, hparse, config', hvalid, he⟩ := (load_eq_ok hcontrol).mp hload
  cases he
  refine ⟨parsed.values, hvalid, fun d hd => ?_⟩
  obtain ⟨s, hflag, hname, htype⟩ := mem_inventory hd
  refine ⟨s, hflag.symm, hname.symm, htype.symm, ?_⟩
  have hdefault := default_fallback s
  rw [find_definition hd hflag.symm, Option.bind_some] at hdefault
  rw [parsed_setting hparse s, chosen, hflag, hname]
  cases lastValue (lit s.flag) (scan bindFlags arguments).given with
  | some v => rfl
  | none =>
    rw [Option.elim_none, fromEnvironment_variable (environmentValues_eq_ok.mp henv s)]
    cases s.type.variable lookup s.environment with
    | some v => rfl
    | none => exact hdefault

/-- Given the same values the flag and the variable of a setting choose the same for it. -/
theorem chosen_congr {d : Definition} {type : ValueType}
    (hflag : lastValue (lit d.flag) (scan bindFlags arguments).given =
      lastValue (lit d.flag) (scan bindFlags arguments').given)
    (hname : lookup d.environment = lookup' d.environment) :
    chosen arguments lookup d type = chosen arguments' lookup' d type := by
  rw [chosen, chosen, hflag, ValueType.variable, ValueType.variable, hname]

/-- Leaving out another flag loses no value of a flag. -/
theorem lastValue_filter {name other : Bytes} (h : name ≠ other)
    (given : List (Flag FlagValues × Bytes)) :
    lastValue name (given.filter fun pair => pair.1.name ≠ other) = lastValue name given := by
  induction given with
  | nil => rfl
  | cons pair given ih =>
    obtain ⟨f, value⟩ := pair
    by_cases hf : f.name = other
    · have hne : f.name ≠ name := fun he => h (he.symm.trans hf)
      simpa [hf, lastValue, hne, hf ▸ hne] using ih
    · simp only [ne_eq, hf, not_false_iff, decide_true, List.filter_cons_of_pos, lastValue]
      rw [← ih]

/-- Changing one setting changes the value of no other one. -/
theorem values_agree (hsame : SameArguments s.flag arguments arguments')
    (hvariables : SameVariables s.environment lookup lookup')
    (h : Precedence arguments lookup values) (h' : Precedence arguments' lookup' values')
    (hts : t ≠ s) : values.get t = values'.get t := by
  have hflag : ∀ {u v : Setting}, u.flag = v.flag → u = v := fun he =>
    name_injective (congrArg lit he)
  obtain ⟨d, hd, htd⟩ := exists_definition t
  obtain ⟨u, hu, hname, -, hchosen⟩ := h d hd
  obtain ⟨u', hu', -, -, hchosen'⟩ := h' d hd
  obtain rfl := hflag (hu.trans htd)
  obtain rfl := hflag (hu'.trans hu.symm)
  have hlit : lit d.flag ≠ lit s.flag := fun he => hts (name_injective (hu ▸ he))
  have hvariable : d.environment ≠ s.environment := fun he =>
    hts (environment_injective (hname.trans he))
  have hlast : lastValue (lit d.flag) (scan bindFlags arguments).given =
      lastValue (lit d.flag) (scan bindFlags arguments').given := by
    rw [← lastValue_filter hlit, hsame, lastValue_filter hlit]
  rw [chosen_congr hlast (hvariables _ hvariable), hchosen'] at hchosen
  exact (Option.some.inj hchosen).symm

theorem buildDatabaseURL_congr
    (hs : ∀ t ∈ ConfigField.databaseURL.sources, values.get t = values'.get t) :
    buildDatabaseURL values = buildDatabaseURL values' := by
  have hurl : values.databaseURL = values'.databaseURL := hs _ (by decide)
  have hhost : values.databaseHost = values'.databaseHost := hs _ (by decide)
  have husername : values.databaseUsername = values'.databaseUsername := hs _ (by decide)
  have hpassword : values.databasePassword = values'.databasePassword := hs _ (by decide)
  have hname : values.databaseName = values'.databaseName := hs _ (by decide)
  have hsslmode : values.databaseSSLMode = values'.databaseSSLMode := hs _ (by decide)
  simp only [buildDatabaseURL, hurl, hhost, husername, hpassword, hname, hsslmode]

/-- A complete URL hides the split settings. -/
theorem buildDatabaseURL_complete (hurl : values.databaseURL = values'.databaseURL)
    (hblank : trimSpace values.databaseURL ≠ []) :
    buildDatabaseURL values = buildDatabaseURL values' := by
  rw [hurl] at hblank
  simp only [buildDatabaseURL, hurl, hblank, ne_eq, not_false_iff, if_true]

/-- A field is made of the values of the settings that it derives from. -/
theorem agrees_of_sources (h : validate resolve values = .ok config)
    (h' : validate resolve values' = .ok config') {f : ConfigField}
    (hs : ∀ t ∈ f.sources, values.get t = values'.get t) : f.Agrees config config' := by
  simp only [validate, Except.bind_eq_ok, require_eq_ok] at h h'
  obtain ⟨serverURL, hserver, _, -, _, -, level, hlevel, databaseURL, hurl, _, -, _, -, _, -, _, -,
    _, -, _, -, _, -, _, -, _, -, _, -, _, -, h⟩ := h
  obtain ⟨serverURL', hserver', _, -, _, -, level', hlevel', databaseURL', hurl', _, -, _, -, _, -,
    _, -, _, -, _, -, _, -, _, -, _, -, _, -, _, -, h'⟩ := h'
  cases h
  cases h'
  cases f with
  | readHeaderTimeout | readTimeout | writeTimeout | idleTimeout | maxConnectionIdle |
    maxConnectionLife | healthCheckPeriod => rfl
  | publicAddress | managementAddress | cacheControl | accessLog | maxProcs | shutdownTimeout |
    queryTimeout | metricsEnabled | tracingEnabled | tracingEndpoint | tracingSampleRatio |
    databaseSchema | statementCacheSize => exact hs _ List.mem_cons_self
  | memoryLimitBytes => exact congrArg (fun n : Int => (n*2^20).bmod (2^64)) (hs _ List.mem_cons_self)
  | maxConnections | minConnections =>
    exact congrArg (fun n : Int => n.bmod (2^32)) (hs _ List.mem_cons_self)
  | serverURL =>
    have hvalue : values.serverURL = values'.serverURL := hs _ List.mem_cons_self
    rw [hvalue] at hserver
    exact Except.ok.inj (hserver.symm.trans hserver')
  | logLevel =>
    have hvalue : values.logLevel = values'.logLevel := hs _ List.mem_cons_self
    rw [hvalue] at hlevel
    exact Except.ok.inj (hlevel.symm.trans hlevel')
  | databaseURL =>
    rw [buildDatabaseURL_congr hs] at hurl
    exact Except.ok.inj (hurl.symm.trans hurl')

theorem validate_url (h : validate resolve values = .ok config) :
    buildDatabaseURL values = .ok config.database.url := by
  simp only [validate, Except.bind_eq_ok, require_eq_ok] at h
  obtain ⟨_, -, _, -, _, -, _, -, _, hurl, _, -, _, -, _, -, _, -, _, -, _, -, _, -, _, -, _, -, _,
    -, _, -, h⟩ := h
  cases h
  exact hurl

/-- A value of one setting for another, in the form with an equals sign. -/
theorem sameArguments_inline {front back : List Bytes} (hfront : Whole front) (s : Setting)
    (v v' : Bytes) : SameArguments s.flag (front ++ flagToken s.flag v::back)
      (front ++ flagToken s.flag v'::back) := by
  have htoken : ∀ v, readToken bindFlags (flagToken s.flag v) =
      .flag (settingVar s s.flag) (some v) :=
    readToken_inline (find_flag s) (plainName_flag s)
  have hname : (settingVar s s.flag).name = lit s.flag := rfl
  simp only [SameArguments, scan_append _ hfront, scan_flag (htoken _), Scan.cons,
    List.filter_append, List.filter_cons, hname, ne_eq, not_true_eq_false, decide_false,
    Bool.false_eq_true, if_false]

/-- A value of one setting for another, in the token after the flag. -/
theorem sameArguments_next {front back : List Bytes} (hfront : Whole front) {s : Setting}
    (hs : s.type ≠ .boolean) (v v' : Bytes) :
    SameArguments s.flag (front ++ (0x2D::0x2D::lit s.flag)::v::back)
      (front ++ (0x2D::0x2D::lit s.flag)::v'::back) := by
  have htoken := readToken_bare (find_flag s) (plainName_flag s)
  have hbool : ¬(settingVar s s.flag).isBoolFlag = true := by simpa [settingVar] using hs
  have hname : (settingVar s s.flag).name = lit s.flag := rfl
  simp only [SameArguments, scan_append _ hfront, scan_next htoken hbool, Scan.cons,
    List.filter_append, List.filter_cons, hname, ne_eq, not_true_eq_false, decide_false,
    Bool.false_eq_true, if_false]

end Values

/-- Changing the flag or the variable of one setting, where loading still succeeds, reaches only
the fields that derive from it, and with a complete URL none through the split settings. -/
def Independent (resolve : Resolver) (arguments : List Bytes) (lookup : LookupEnv)
    (values : RawValues) (config : Config) : Prop :=
  ∀ (s : Setting) arguments' lookup' config', SameArguments s.flag arguments arguments' →
    SameVariables s.environment lookup lookup' → LoadsConfig resolve arguments' lookup' config' →
      ∀ f : ConfigField, ¬f.Agrees config config' → s ∈ f.sources ∧
        (s ∈ splitSettings → f = .databaseURL ∧ trimSpace values.databaseURL = [])

theorem ConfigField.split_sources {f : ConfigField} {s : Setting} (hs : s ∈ f.sources)
    (hsplit : s ∈ splitSettings) : f = .databaseURL := by
  revert s
  cases f <;> decide

end OpenDiscogs.Configuration
