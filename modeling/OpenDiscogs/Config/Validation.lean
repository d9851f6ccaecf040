import OpenDiscogs.Config.Load

/-! What an accepted configuration promises. -/
namespace OpenDiscogs.Configuration
open Utf8

theorem require_eq_ok {condition : Bool} {message : String} {u : Unit} :
    require condition message = .ok u ↔ condition = true := by
  unfold require
  split
  · next h => simp [h]
  · next h => simp [h]

/-- The checks that raw values have passed, and what was made of them. -/
structure Validated (values : RawValues) (config : Config) : Prop where
  maxProcs : 0 ≤ values.maxProcs ∧ config.maxProcs = values.maxProcs
  memoryLimit : 0 ≤ values.memoryLimitMiB ∧
    values.memoryLimitMiB ≤ maxInt64/2^20
  memoryLimitBytes :
    config.memoryLimitBytes = (values.memoryLimitMiB*2^20).bmod (2^64)
  connections : 0 ≤ values.databaseMinConns ∧
    values.databaseMinConns ≤ values.databaseMaxConns ∧
    1 ≤ values.databaseMaxConns ∧
    values.databaseMaxConns ≤ maximumConnections
  maxConnections :
    config.database.maxConnections = values.databaseMaxConns.bmod (2^32)
  minConnections :
    config.database.minConnections = values.databaseMinConns.bmod (2^32)
  statementCache : (0 ≤ values.statementCache ∧
    values.statementCache ≤ maximumStatementCacheSize) ∧
    config.database.statementCacheSize = values.statementCache
  timeouts : (0 < values.queryTimeout ∧
    config.queryTimeout = values.queryTimeout) ∧
    0 < values.shutdownTimeout ∧
    config.shutdownTimeout = values.shutdownTimeout
  sampleRatio : (values.traceSampleRatio.lt (Float64.ofNat 0) = false ∧
    (Float64.ofNat 1).lt values.traceSampleRatio = false) ∧
    config.tracing.sampleRatio = values.traceSampleRatio
  schema : validSchemaName values.databaseSchema = true ∧
    config.database.schema = values.databaseSchema

variable {resolve : Resolver} {values : RawValues} {config : Config}

theorem validate_validated (h : validate resolve values = .ok config) :
    Validated values config := by
  simp only [validate, Except.bind_eq_ok, require_eq_ok] at h
  obtain ⟨serverURL, -, _, -, _, -, level, -, databaseURL, -, _, hprocs, _, hschema, _, hmem, _,
    hmemmax, _, hint, _, hmax, _, hmin, _, hcache, _, htime, _, hratio, _, -, h⟩ := h
  cases h
  simp only [Bool.not_eq_true', decide_eq_false_iff_not, not_or, Int.not_lt, Int.not_le,
    Bool.or_eq_false_iff] at hprocs hmem hmemmax hmax hmin hcache htime hratio
  exact {
    maxProcs := ⟨hprocs, rfl⟩
    memoryLimit := ⟨hmem, hmemmax⟩
    memoryLimitBytes := rfl
    connections := ⟨hmin.1, hmin.2, hmax.1, hmax.2⟩
    maxConnections := rfl
    minConnections := rfl
    statementCache := ⟨hcache, rfl⟩
    timeouts := ⟨⟨htime.1, rfl⟩, htime.2, rfl⟩
    sampleRatio := ⟨hratio, rfl⟩
    schema := ⟨hschema, rfl⟩ }

namespace Validated

/-- The memory limit in bytes does not wrap around. -/
theorem memoryLimitBytes_eq (h : Validated values config) :
    config.memoryLimitBytes = values.memoryLimitMiB * 2^20 := by
  obtain ⟨hlo, hhi⟩ := h.memoryLimit
  have hmax : maxInt64/2^20 = 2^43-1 := by decide
  rw [h.memoryLimitBytes]
  exact Int.bmod_eq_of_le (by omega) (by omega)

/-- The connection counts survive their narrowing. -/
theorem maxConnections_eq (h : Validated values config) :
    config.database.maxConnections = values.databaseMaxConns := by
  have hc := h.connections
  rw [maximumConnections] at hc
  rw [h.maxConnections]
  exact Int.bmod_eq_of_le (by omega) (by omega)

theorem minConnections_eq (h : Validated values config) :
    config.database.minConnections = values.databaseMinConns := by
  have hc := h.connections
  rw [maximumConnections] at hc
  rw [h.minConnections]
  exact Int.bmod_eq_of_le (by omega) (by omega)

end Validated

end OpenDiscogs.Configuration
