import OpenDiscogs.Config.DatabaseConfig
import OpenDiscogs.Config.Reading
import OpenDiscogs.Config.Validation
import OpenDiscogs.Library.SearchPath

/-! Accepted configurations are in range. -/
namespace OpenDiscogs.Configuration
open Utf8

def Digit (b : UInt8) : Prop := 0x30 ≤ b ∧ b ≤ 0x39

/-- What a schema's name is made of: small letters, digits and underscores. -/
def SchemaByte (b : UInt8) : Prop := 0x61 ≤ b ∧ b ≤ 0x7A ∨ Digit b ∨ b = 0x5F

/-- A configuration within its bounds, made of raw values that it has not changed. -/
structure InRange (values : RawValues) (config : Config) : Prop where
  maxProcs : 0 ≤ config.maxProcs
  memoryLimit : config.memoryLimitBytes = values.memoryLimitMiB*2^20 ∧ 0 ≤ config.memoryLimitBytes
  connections : 0 ≤ config.database.minConnections ∧
    config.database.minConnections ≤ config.database.maxConnections ∧
    config.database.maxConnections ≤ 1024 ∧ 1 ≤ config.database.maxConnections
  narrowed : config.database.minConnections = values.databaseMinConns ∧
    config.database.maxConnections = values.databaseMaxConns
  statementCache : 0 ≤ config.database.statementCacheSize ∧
    config.database.statementCacheSize ≤ 65536
  timeouts : 0 < config.queryTimeout ∧ 0 < config.shutdownTimeout
  sampleRatio : (Float64.ofNat 0).le config.tracing.sampleRatio = true ∧
    config.tracing.sampleRatio.le (Float64.ofNat 1) = true
  schemaLength : 1 ≤ config.database.schema.length ∧ config.database.schema.length ≤ 63
  schemaBytes : ∀ b ∈ config.database.schema, SchemaByte b
  schemaStart : ∀ b ∈ config.database.schema.head?, ¬Digit b
  searchPath : SearchPath.read (searchPath config) = some [config.database.schema]

/-- The names that are accepted, read apart. -/
theorem validSchemaName_cons {name : Bytes} (h : validSchemaName name = true) :
    ∃ b s, name = b::s ∧ name.length ≤ 63 ∧ SchemaByte b ∧ ¬Digit b ∧ ∀ c ∈ s, SchemaByte c := by
  cases name with
  | nil => cases h
  | cons b s =>
    simp only [validSchemaName, maximumSchemaNameLength, Bool.and_eq_true, Bool.or_eq_true,
      decide_eq_true_eq, beq_iff_eq, List.all_eq_true] at h
    obtain ⟨⟨-, hlen⟩, hb, hs⟩ := h
    refine ⟨b, s, rfl, of_decide_eq_true hlen, hb.imp_right Or.inr, ?_, fun c hc => ?_⟩
    · intro hparts
      obtain ⟨-, hd⟩ := hparts
      obtain ⟨hlo, -⟩ | rfl := hb
      · exact absurd (UInt8.le_trans hlo hd) (by decide)
      · exact absurd hd (by decide)
    · obtain (hl | hd) | hu := hs c hc
      · exact Or.inl hl
      · exact Or.inr (Or.inl hd)
      · exact Or.inr (Or.inr hu)

theorem SchemaByte.ne_quote {b : UInt8} (h : SchemaByte b) : b ≠ 0x22 := by
  intro heq
  subst heq
  obtain ⟨hlo, -⟩ | ⟨hlo, -⟩ | he := h
  · exact absurd hlo (by decide)
  · exact absurd hlo (by decide)
  · exact absurd he (by decide)

variable {resolve : Resolver} {values : RawValues} {config : Config}

namespace Validated

theorem schemaBytes (h : Validated values config) :
    ∀ b ∈ config.database.schema, SchemaByte b := by
  obtain ⟨hvalid, hsame⟩ := h.schema
  obtain ⟨b, s, hname, -, hb, -, hs⟩ := validSchemaName_cons hvalid
  rw [hsame, hname]
  exact List.forall_mem_cons.mpr ⟨hb, hs⟩

/-- The quoted name of the schema is the whole search path. -/
theorem searchPath_read (h : Validated values config) :
    SearchPath.read (searchPath config) = some [config.database.schema] := by
  have hquote : 0x22 ∉ config.database.schema := fun hmem =>
    (h.schemaBytes _ hmem).ne_quote rfl
  obtain ⟨hvalid, hsame⟩ := h.schema
  obtain ⟨b, s, -, hlen, -⟩ := validSchemaName_cons hvalid
  rw [← hsame] at hlen
  exact SearchPath.read_enclose hquote hlen

end Validated

/-- An accepted configuration is in range unless its sample ratio is no number: neither bound
refuses that one. -/
theorem accepted_in_range (h : validate resolve values = .ok config) :
    InRange values config ↔ values.traceSampleRatio.isNaN = false := by
  have hv := validate_validated h
  have hratio := Float64.between_iff (Float64.round_isNaN ..) (Float64.round_isNaN ..)
    hv.sampleRatio.1.1 hv.sampleRatio.1.2
  rw [← hratio, ← hv.sampleRatio.2]
  constructor
  · intro hr
    exact hr.sampleRatio
  · intro hr
    obtain ⟨b, s, hname, hlen, -, hdigit, -⟩ := validSchemaName_cons hv.schema.1
    have hschema := hv.schema.2
    have hmin := hv.minConnections_eq
    have hmax := hv.maxConnections_eq
    have hmemory := hv.memoryLimitBytes_eq
    refine {
      maxProcs := hv.maxProcs.2 ▸ hv.maxProcs.1
      memoryLimit := ⟨hmemory, ?_⟩
      connections := ?_
      narrowed := ⟨hmin, hmax⟩
      statementCache := ?_
      timeouts := ?_
      sampleRatio := hr
      schemaLength := ?_
      schemaBytes := hv.schemaBytes
      schemaStart := ?_
      searchPath := hv.searchPath_read }
    · rw [hmemory]
      exact Int.mul_nonneg hv.memoryLimit.1 (by decide)
    · rw [hmin, hmax]
      obtain ⟨hlo, hle, hone, htop⟩ := hv.connections
      exact ⟨hlo, hle, htop, hone⟩
    · rw [hv.statementCache.2]
      exact hv.statementCache.1
    · rw [hv.timeouts.1.2, hv.timeouts.2.2]
      exact ⟨hv.timeouts.1.1, hv.timeouts.2.1⟩
    · rw [hschema]
      exact ⟨by rw [hname]; exact Nat.succ_pos _, hlen⟩
    · rw [hschema, hname]
      intro c hc
      cases hc
      exact hdigit

/-- The values that a service starts with when only its database is given. -/
def defaultValues : RawValues :=
  RawValues.put ⟨Setting.fallback⟩ .databaseURL (lit "postgres://localhost/discogs")

theorem validate_isOk {values : RawValues}
    (h : (validate resolve values).toOption.isSome = true) :
    ∃ config, validate resolve values = .ok config := by
  cases hv : validate resolve values with
  | error e =>
    rw [hv] at h
    cases h
  | ok config => exact ⟨config, rfl⟩

theorem accepted_in_range_default : ∃ config, validate (fun _ => none) defaultValues = .ok config ∧
    InRange defaultValues config := by
  obtain ⟨config, h⟩ := @validate_isOk (fun _ => none) defaultValues (by decide +kernel)
  exact ⟨config, h, (accepted_in_range h).mpr (by decide +kernel)⟩

/-- A ratio of samples that is no number is accepted. -/
theorem accepted_not_number : ∃ config,
    validate (fun _ => none) (defaultValues.put .traceSampleRatio Float64.nan) = .ok config ∧
      ¬InRange (defaultValues.put .traceSampleRatio Float64.nan) config := by
  obtain ⟨config, h⟩ := @validate_isOk (fun _ => none)
    (defaultValues.put .traceSampleRatio Float64.nan) (by decide +kernel)
  refine ⟨config, h, fun hr => ?_⟩
  have hsame : config.tracing.sampleRatio = Float64.nan := (validate_validated h).sampleRatio.2
  have hle := hr.sampleRatio.2
  rw [hsame, Float64.le] at hle
  exact absurd hle (by decide)

end OpenDiscogs.Configuration
