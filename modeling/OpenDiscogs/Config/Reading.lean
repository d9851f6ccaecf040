import Mathlib.Data.List.Nodup
import OpenDiscogs.Config.Load

/-! How each setting is read on its own: from its variable, from its flag, and past the others. -/
namespace OpenDiscogs.Configuration
open Utf8 Strconv Duration CommandLine

namespace Setting

def all : List Setting := [address, managementAddress, serverURL, cacheControl, accessLog, maxProcs,
  memoryLimitMiB, logLevel, queryTimeout, shutdownTimeout, databaseURL, databaseSchema,
  databaseHost, databaseUsername, databasePassword, databaseName, databaseSSLMode,
  databaseMaxConns, databaseMinConns, statementCache, metricsEnabled, tracingEnabled,
  otlpEndpoint, traceSampleRatio]

def flag : Setting → String
  | address => flagAddress
  | managementAddress => flagManagementAddress
  | serverURL => flagServerURL
  | cacheControl => flagCacheControl
  | accessLog => flagAccessLog
  | maxProcs => flagMaxProcs
  | memoryLimitMiB => flagMemoryLimitMiB
  | logLevel => flagLogLevel
  | queryTimeout => flagQueryTimeout
  | shutdownTimeout => flagShutdownTimeout
  | databaseURL => flagDatabaseURL
  | databaseSchema => flagDatabaseSchema
  | databaseHost => flagDatabaseHost
  | databaseUsername => flagDatabaseUsername
  | databasePassword => flagDatabasePassword
  | databaseName => flagDatabaseName
  | databaseSSLMode => flagDatabaseSSLMode
  | databaseMaxConns => flagDatabaseMaxConns
  | databaseMinConns => flagDatabaseMinConns
  | statementCache => flagStatementCache
  | metricsEnabled => flagMetricsEnabled
  | tracingEnabled => flagTracingEnabled
  | otlpEndpoint => flagOTLPEndpoint
  | traceSampleRatio => flagTraceSampleRatio

def environment : Setting → String
  | address => envAddress
  | managementAddress => envManagementAddress
  | serverURL => envServerURL
  | cacheControl => envCacheControl
  | accessLog => envAccessLog
  | maxProcs => envMaxProcs
  | memoryLimitMiB => envMemoryLimitMiB
  | logLevel => envLogLevel
  | queryTimeout => envQueryTimeout
  | shutdownTimeout => envShutdownTimeout
  | databaseURL => envDatabaseURL
  | databaseSchema => envDatabaseSchema
  | databaseHost => envDatabaseHost
  | databaseUsername => envDatabaseUsername
  | databasePassword => envDatabasePassword
  | databaseName => envDatabaseName
  | databaseSSLMode => envDatabaseSSLMode
  | databaseMaxConns => envDatabaseMaxConns
  | databaseMinConns => envDatabaseMinConns
  | statementCache => envStatementCache
  | metricsEnabled => envMetricsEnabled
  | tracingEnabled => envTracingEnabled
  | otlpEndpoint => envOTLPEndpoint
  | traceSampleRatio => envTraceSampleRatio

/-- The value of a setting that is given nowhere. -/
def fallback : (s : Setting) → s.type.Value
  | address => lit defaultAddress
  | managementAddress => lit defaultManagementAddress
  | serverURL => lit defaultServerURL
  | cacheControl => lit defaultCacheControl
  | accessLog => false
  | maxProcs => (0 : Int)
  | memoryLimitMiB => (0 : Int)
  | logLevel => lit defaultLogLevel
  | queryTimeout => defaultQueryTimeout
  | shutdownTimeout => defaultShutdownTimeout
  | databaseURL => ([] : Bytes)
  | databaseSchema => lit defaultDatabaseSchema
  | databaseHost => ([] : Bytes)
  | databaseUsername => ([] : Bytes)
  | databasePassword => ([] : Bytes)
  | databaseName => lit defaultDatabaseName
  | databaseSSLMode => lit defaultDatabaseSSLMode
  | databaseMaxConns => defaultDatabaseMaxConns
  | databaseMinConns => defaultDatabaseMinConns
  | statementCache => defaultStatementCacheSize
  | metricsEnabled => true
  | tracingEnabled => false
  | otlpEndpoint => ([] : Bytes)
  | traceSampleRatio => defaultTraceSampleRatio

theorem mem_all (s : Setting) : s ∈ all := by
  cases s <;> decide

end Setting

/-- A variable read as a value of a type. -/
def ValueType.fromEnvironment (lookup : LookupEnv) (name : String) :
    (type : ValueType) → type.Value → Except Failure type.Value
  | string, fallback => .ok (value lookup name fallback)
  | boolean, fallback => environmentBool lookup name fallback
  | integer, fallback => environmentInt lookup name fallback
  | duration, fallback => environmentDuration lookup name fallback
  | float, fallback => environmentFloat lookup name fallback

def Setting.fromEnvironment (lookup : LookupEnv) (s : Setting) : Except Failure s.type.Value :=
  s.type.fromEnvironment lookup s.environment s.fallback

/-- Only its own variable matters to a setting. -/
theorem ValueType.fromEnvironment_congr {lookup lookup' : LookupEnv} {name : String}
    (h : lookup name = lookup' name) (type : ValueType) (fallback : type.Value) :
    type.fromEnvironment lookup name fallback = type.fromEnvironment lookup' name fallback := by
  have hvalue : ∀ fallback, value lookup name fallback = value lookup' name fallback := by
    intro fallback
    rw [value, value, h]
  cases type <;> simp only [fromEnvironment, environmentBool, environmentInt, environmentDuration,
    environmentFloat, environmentValue, hvalue]

/-- Every setting is read from its own variable. -/
theorem environmentValues_eq_ok {lookup : LookupEnv} {values : RawValues} :
    environmentValues lookup = .ok values ↔
      ∀ s : Setting, s.fromEnvironment lookup = .ok (values.get s) := by
  simp only [environmentValues, Except.bind_eq_ok]
  constructor
  · intro hparts
    obtain ⟨a, ha, b, hb, c, hc, d, hd, e, he, f, hf, g, hg, i, hi, j, hj, k, hk, l, hl, h⟩ := hparts
    cases h
    intro s
    cases s with
    | accessLog => exact ha
    | maxProcs => exact hb
    | memoryLimitMiB => exact hc
    | queryTimeout => exact hd
    | shutdownTimeout => exact he
    | databaseMaxConns => exact hf
    | databaseMinConns => exact hg
    | statementCache => exact hi
    | metricsEnabled => exact hj
    | tracingEnabled => exact hk
    | traceSampleRatio => exact hl
    | _ => rfl
  · intro h
    refine ⟨_, h .accessLog, _, h .maxProcs, _, h .memoryLimitMiB, _, h .queryTimeout, _,
      h .shutdownTimeout, _, h .databaseMaxConns, _, h .databaseMinConns, _, h .statementCache, _,
      h .metricsEnabled, _, h .tracingEnabled, _, h .traceSampleRatio, ?_⟩
    refine congrArg Except.ok (RawValues.ext fun s => ?_)
    have hs := h s
    cases s <;> first | rfl | exact Except.ok.inj hs

/-- The inventory has one definition for each setting. -/
theorem inventory_settings : inventory.map (fun d => (d.flag, d.environment, d.type)) =
    Setting.all.map fun s => (s.flag, s.environment, s.type) := rfl

theorem mem_inventory {d : Definition} (h : d ∈ inventory) :
    ∃ s : Setting, d.flag = s.flag ∧ d.environment = s.environment ∧ d.type = s.type := by
  have hmem := List.mem_map_of_mem (f := fun d => (d.flag, d.environment, d.type)) h
  rw [inventory_settings] at hmem
  obtain ⟨s, -, hs⟩ := List.mem_map.mp hmem
  simp only [Prod.mk.injEq] at hs
  exact ⟨s, hs.1.symm, hs.2.1.symm, hs.2.2.symm⟩

theorem environment_injective {s t : Setting} (h : s.environment = t.environment) : s = t := by
  have hnodup : (Setting.all.map Setting.environment).Nodup := by decide
  exact List.inj_on_of_nodup_map hnodup s.mem_all t.mem_all h

theorem bindFlags_eq : bindFlags =
    (Setting.all.map fun s => settingVar s s.flag) ++ [healthcheckVar, versionVar] := rfl

theorem mem_bindFlags {f : Flag FlagValues} (h : f ∈ bindFlags) :
    (∃ s : Setting, f = settingVar s s.flag) ∨ f = healthcheckVar ∨ f = versionVar := by
  rw [bindFlags_eq, List.mem_append, List.mem_map] at h
  obtain ⟨s, -, rfl⟩ | h := h
  · exact Or.inl ⟨s, rfl⟩
  · exact Or.inr (by simpa using h)

/-- Every setting has a flag of its name. -/
theorem find_flag (s : Setting) :
    bindFlags.find (lit s.flag) = some (settingVar s s.flag) := by
  cases s <;> rfl

theorem plainName_flag (s : Setting) : plainName (lit s.flag) = true := by
  cases s <;> rfl

namespace FlagValues
variable {v w : FlagValues} {s t : Setting}

theorem put_get (v : FlagValues) (s : Setting) : v.put s (v.values.get s) = v := by
  simp only [put, RawValues.put_get]

theorem put_put (v : FlagValues) (s : Setting) (x y : s.type.Value) :
    (v.put s x).put s y = v.put s y := by
  simp only [put, RawValues.put_put]

theorem put_comm (h : s ≠ t) (v : FlagValues) (x : s.type.Value) (y : t.type.Value) :
    (v.put s x).put t y = (v.put t y).put s x := by
  simp only [put, RawValues.put_comm h]

end FlagValues

theorem settingVar_set {s : Setting} {name : String} {value : Bytes} {v w : FlagValues} :
    (settingVar s name).set value v = some w ↔ ∃ x, s.type.parseFlag value = some x ∧
      w = v.put s x := by
  simp only [settingVar, Option.map_eq_some_iff]
  exact exists_congr fun x => and_congr_right fun _ => eq_comm

/-- A flag does not see the field of another one. -/
theorem set_put {f : Flag FlagValues} (hf : f ∈ bindFlags) {s : Setting}
    (hne : f.name ≠ lit s.flag) {value : Bytes} {v w : FlagValues} (h : f.set value v = some w)
    (x : s.type.Value) : f.set value (v.put s x) = some (w.put s x) := by
  obtain ⟨t, rfl⟩ | rfl | rfl := mem_bindFlags hf
  · obtain ⟨y, hy, rfl⟩ := settingVar_set.mp h
    have hst : s ≠ t := fun he => hne (he ▸ rfl)
    exact settingVar_set.mpr ⟨y, hy, FlagValues.put_comm hst.symm v y x⟩
  · obtain ⟨b, hb, rfl⟩ := Option.map_eq_some_iff.mp h
    exact Option.map_eq_some_iff.mpr ⟨b, hb, rfl⟩
  · obtain ⟨b, hb, rfl⟩ := Option.map_eq_some_iff.mp h
    exact Option.map_eq_some_iff.mpr ⟨b, hb, rfl⟩

/-- Flags leave a field alone that none of them is for. -/
theorem setAll_put {given : List (Flag FlagValues × Bytes)} (hg : ∀ pair ∈ given, pair.1 ∈ bindFlags)
    {s : Setting} (hne : ∀ pair ∈ given, pair.1.name ≠ lit s.flag) {v w : FlagValues}
    (h : setAll given v = .ok w) (x : s.type.Value) :
    setAll given (v.put s x) = .ok (w.put s x) := by
  induction given generalizing v with
  | nil =>
    cases h
    rfl
  | cons pair given ih =>
    obtain ⟨f, value⟩ := pair
    rw [List.forall_mem_cons] at hg hne
    obtain ⟨v', hs, h⟩ := setAll_cons_eq_ok.mp h
    exact setAll_cons_eq_ok.mpr ⟨_, set_put hg.1 hne.1 hs x, ih hg.2 hne.2 h⟩

end OpenDiscogs.Configuration
