import OpenDiscogs.Config.Controls

/-! One value for a setting, given by its flag or by its variable. -/
namespace OpenDiscogs.Configuration
open Utf8 Strconv Duration CommandLine

/-- `--flag=v` -/
def flagToken (flag : String) (v : Bytes) : Bytes := 0x2D::0x2D::(lit flag ++ 0x3D::v)

/-- The arguments are whole flags, each with its value. -/
def Whole (arguments : List Bytes) : Prop := (scan bindFlags arguments).stop = .ended

/-- The arguments do not give a flag. -/
def Absent (flag : String) (arguments : List Bytes) : Prop :=
  ∀ pair ∈ (scan bindFlags arguments).given, pair.1.name ≠ lit flag

theorem hasArgument_append (front back : List Bytes) (token : Bytes) {candidates : List String}
    (h : ∀ candidate ∈ candidates, token ≠ lit candidate) :
    hasArgument (front ++ token::back) candidates = hasArgument (front ++ back) candidates := by
  have htoken : candidates.any (fun candidate => token = lit candidate) = false := by
    simpa using h
  simp only [hasArgument, List.any_append, List.any_cons, htoken, Bool.false_or]

/-- A flag with its value is none of the arguments that are looked for. -/
theorem flagToken_ne (flag : String) (v : Bytes) :
    ∀ candidate ∈ controlArguments, flagToken flag v ≠ lit candidate := by
  intro candidate hc he
  have hequals : ∀ candidate ∈ controlArguments, 0x3D ∉ lit candidate := by decide
  exact hequals candidate hc (he ▸ by simp [flagToken])

variable {resolve : Resolver} {arguments : List Bytes} {lookup : LookupEnv} {result : Result}

/-- A variable with no white space in it is read as it is. -/
theorem environmentValue_eq {α : Type} {parser : Bytes → Option α} {expected : String}
    {name : String} {fallback y : α} {v : Bytes} (hv : lookup name = some v) (hs : NoSpace v)
    (hne : v ≠ []) (h : environmentValue parser expected lookup name fallback = .ok y) :
    parser v = some y := by
  simp only [environmentValue, value, hv, hs.trimSpace, hne, if_false] at h
  split at h
  · next hp =>
    cases h
    exact hp
  · cases h

theorem parseFlag_ne_nil {type : ValueType} {v : Bytes} {x : type.Value}
    (hx : type.parseFlag v = some x) (ht : type ≠ .string) : v ≠ [] := by
  intro he
  subst he
  cases type with
  | string => exact ht rfl
  | boolean => cases hx
  | integer => cases hx
  | duration => cases hx
  | float => cases hx

/-- Only padded integers mean one thing to a flag and another one to a variable. -/
theorem parseFlag_fromEnvironment {type : ValueType} {name : String} {fallback x y : type.Value}
    {v : Bytes} (hv : lookup name = some v) (hx : type.parseFlag v = some x)
    (hy : type.fromEnvironment lookup name fallback = .ok y) :
    x = y ↔ type ≠ .integer ∨ paddedNumeral v = false := by
  have hne := parseFlag_ne_nil hx
  cases type with
  | string =>
    simp only [ValueType.parseFlag, Option.some.injEq] at hx
    simp only [ValueType.fromEnvironment, value, hv, Except.ok.injEq] at hy
    simp [← hx, ← hy]
  | boolean =>
    have hp := environmentValue_eq hv (parseBool_noSpace hx) (hne (by decide)) hy
    simp [Option.some.inj (hx.symm.trans hp)]
  | integer =>
    have hp := environmentValue_eq hv (parseInt_noSpace hx) (hne (by decide)) hy
    simpa using parseInt_detect_eq hx hp
  | duration =>
    have hp := environmentValue_eq hv (parseDuration_noSpace hx) (hne (by decide)) hy
    simp [Option.some.inj (hx.symm.trans hp)]
  | float =>
    have hp := environmentValue_eq hv (parseFloat_noSpace hx) (hne (by decide)) hy
    simp [Option.some.inj (hx.symm.trans hp)]

/-- The configuration keeps the integers apart. -/
theorem validated_integer {v w : RawValues} {config : Config} (hv : Validated v config)
    (hw : Validated w config) {s : Setting} (hs : s.type = .integer) : v.get s = w.get s := by
  cases s with
  | maxProcs => exact hv.maxProcs.2.symm.trans hw.maxProcs.2
  | memoryLimitMiB =>
    have heq := hv.memoryLimitBytes_eq.symm.trans hw.memoryLimitBytes_eq
    exact Int.eq_of_mul_eq_mul_right (by decide) heq
  | databaseMaxConns => exact hv.maxConnections_eq.symm.trans hw.maxConnections_eq
  | databaseMinConns => exact hv.minConnections_eq.symm.trans hw.minConnections_eq
  | statementCache => exact hv.statementCache.2.symm.trans hw.statementCache.2
  | _ => cases hs

/-- The values once one of them is given by its flag, or by its variable. -/
theorem environmentValues_update {s : Setting} {v : Bytes} {e e' : RawValues}
    (he : environmentValues (Function.update lookup s.environment none) = .ok e)
    (he' : environmentValues (Function.update lookup s.environment (some v)) = .ok e') :
    e' = e.put s (e'.get s) := by
  rw [environmentValues_eq_ok] at he he'
  refine RawValues.ext fun t => ?_
  by_cases hts : t = s
  · subst hts
    rw [RawValues.get_put]
  · have hname : t.environment ≠ s.environment := fun h => hts (environment_injective h)
    have hsame : t.fromEnvironment (Function.update lookup s.environment (some v)) =
        t.fromEnvironment (Function.update lookup s.environment none) :=
      ValueType.fromEnvironment_congr
        (by rw [Function.update_of_ne hname, Function.update_of_ne hname]) t.type t.fallback
    rw [RawValues.get_put_ne hts]
    exact Except.ok.inj ((he' t).symm.trans (hsame.trans (he t)))

/-- Whole flags, one more, and others: what they set in order. -/
theorem parse_inline {s : Setting} {v : Bytes} {front back rest : List Bytes}
    (hfront : Whole front) {values parsed : FlagValues} :
    parse bindFlags (front ++ flagToken s.flag v::back) values = .ok (parsed, rest) →
      ∃ a x, setAll (scan bindFlags front).given values = .ok a ∧ s.type.parseFlag v = some x ∧
        setAll (scan bindFlags back).given (a.put s x) = .ok parsed := by
  intro h
  have hset := (parse_eq_ok.mp h).1
  have htoken : readToken bindFlags (flagToken s.flag v) = .flag (settingVar s s.flag) (some v) :=
    readToken_inline (find_flag s) (plainName_flag s) v
  rw [scan_append _ hfront, scan_flag htoken] at hset
  obtain ⟨a, ha, hset⟩ := setAll_append_eq_ok.mp hset
  obtain ⟨b, hb, hset⟩ := setAll_cons_eq_ok.mp hset
  obtain ⟨x, hx, rfl⟩ := settingVar_set.mp hb
  exact ⟨a, x, ha, hx, hset⟩

/-- What is parsed from a variable's value is what is parsed from a flag's, but for the value. -/
theorem parsed_agree {s : Setting} {v : Bytes} {front back : List Bytes} (hfront : Whole front)
    (habsent : Absent s.flag (front ++ back)) {e : RawValues} {x y : s.type.Value}
    {parsed parsed' : FlagValues} (hx : s.type.parseFlag v = some x)
    (h : parse bindFlags (front ++ flagToken s.flag v::back) { values := e } = .ok (parsed, []))
    (h' : parse bindFlags (front ++ back) { values := e.put s y } = .ok (parsed', [])) :
    parsed.values.get s = x ∧ parsed' = parsed.put s y := by
  obtain ⟨a, x', ha, hx', hb⟩ := parse_inline hfront h
  cases hx.symm.trans hx'
  rw [Absent, scan_append back hfront] at habsent
  have hset := (parse_eq_ok.mp h').1
  rw [scan_append back hfront] at hset
  obtain ⟨a', ha', hb'⟩ := setAll_append_eq_ok.mp hset
  have hfirst := setAll_put scan_given (fun p hp => habsent p (List.mem_append_left _ hp)) ha y
  have hrest := fun z => setAll_put scan_given
    (fun p hp => habsent p (List.mem_append_right _ hp)) hb z
  have ha'' : a' = a.put s y := Except.ok.inj (ha'.symm.trans hfirst)
  constructor
  · have hsame := hrest x
    rw [FlagValues.put_put, hb, Except.ok.injEq] at hsame
    rw [hsame]
    exact RawValues.get_put parsed.values s x
  · have hother := hrest y
    rw [FlagValues.put_put, ← ha'', hb', Except.ok.injEq] at hother
    exact hother

/-- Given by its flag or by its variable a setting means the same, unless it is an integer padded
with zeros: the flag takes it for an octal one. -/
theorem settings_agree {d : Definition} (hd : d ∈ inventory) {v : Bytes} {front back : List Bytes}
    (hfront : Whole front) (habsent : Absent d.flag (front ++ back))
    {byFlag byEnvironment : Result}
    (hflag : load resolve (front ++ flagToken d.flag v::back)
      (Function.update lookup d.environment none) = .ok byFlag)
    (henv : load resolve (front ++ back)
      (Function.update lookup d.environment (some v)) = .ok byEnvironment) :
    byFlag.config = byEnvironment.config ↔
      hasArgument (front ++ back) controlArguments = true ∨ d.type ≠ .integer ∨
        paddedNumeral v = false := by
  obtain ⟨s, hflagName, henvName, htype⟩ := mem_inventory hd
  rw [hflagName] at habsent hflag
  rw [henvName] at hflag henv
  rw [htype]
  have hcontrol := hasArgument_append front back _ (flagToken_ne s.flag v)
  cases hc : hasArgument (front ++ back) controlArguments with
  | true =>
    have hempty := load_control (hcontrol.trans hc) hflag
    have hempty' := load_control hc henv
    simp [hempty, hempty']
  | false =>
    obtain ⟨e, he, parsed, hparse, config, hvalid, rfl⟩ := (load_eq_ok (hcontrol.trans hc)).mp hflag
    obtain ⟨e', he', parsed', hparse', config', hvalid', rfl⟩ := (load_eq_ok hc).mp henv
    obtain ⟨a, x, -, hx, -⟩ := parse_inline hfront hparse
    rw [environmentValues_update he he'] at hparse'
    obtain ⟨hget, rfl⟩ := parsed_agree hfront habsent hx hparse hparse'
    have hagree := parseFlag_fromEnvironment (Function.update_self ..) hx
      (environmentValues_eq_ok.mp he' s)
    simp only [Bool.false_eq_true, false_or]
    rw [← hagree]
    constructor
    · intro heq
      by_cases hs : s.type = .integer
      · have hsame : config = config' := heq
        have hv := validated_integer (validate_validated hvalid)
          (hsame ▸ validate_validated hvalid') hs
        rw [hget] at hv
        exact hv.trans (RawValues.get_put parsed.values s (e'.get s))
      · exact hagree.mpr (Or.inl hs)
    · intro heq
      rw [← heq, ← hget, FlagValues.put_get] at hvalid'
      exact Except.ok.inj (hvalid.symm.trans hvalid')

/-- An environment with nothing but the URL of a database. -/
def databaseOnly : LookupEnv := fun name =>
  if name = envDatabaseURL then some (lit "postgres://localhost/discogs") else none

def maxProcsDefinition : Definition :=
  { flag := flagMaxProcs, environment := envMaxProcs, type := .integer, default := "0",
    requirement := .optional }

/-- The value of `--max-procs` or of `API_MAX_PROCS`, where every listener's address resolves. -/
def maxProcsByFlag (v : String) : Except Failure Result :=
  load (fun _ => none) [flagToken flagMaxProcs (lit v)]
    (Function.update databaseOnly envMaxProcs none)

def maxProcsByEnvironment (v : String) : Except Failure Result :=
  load (fun _ => none) [] (Function.update databaseOnly envMaxProcs (some (lit v)))

/-- How many processors each of the two asks for, where both are accepted. -/
theorem maxProcs_both {v : String} {m n : Int}
    (hm : (maxProcsByFlag v).toOption.map (·.config.maxProcs) = some m)
    (hn : (maxProcsByEnvironment v).toOption.map (·.config.maxProcs) = some n) :
    ∃ byFlag byEnvironment, maxProcsByFlag v = .ok byFlag ∧
      maxProcsByEnvironment v = .ok byEnvironment ∧
      byFlag.config.maxProcs = m ∧ byEnvironment.config.maxProcs = n := by
  cases hf : maxProcsByFlag v with
  | error e =>
    rw [hf] at hm
    cases hm
  | ok byFlag =>
    cases he : maxProcsByEnvironment v with
    | error e =>
      rw [he] at hn
      cases hn
    | ok byEnvironment =>
      rw [hf] at hm
      rw [he] at hn
      exact ⟨byFlag, byEnvironment, rfl, rfl, Option.some.inj hm, Option.some.inj hn⟩

theorem settings_agree_ten : ∃ byFlag byEnvironment, maxProcsByFlag "10" = .ok byFlag ∧
    maxProcsByEnvironment "10" = .ok byEnvironment ∧ byFlag.config = byEnvironment.config := by
  obtain ⟨byFlag, byEnvironment, hf, he, -, -⟩ := @maxProcs_both "10" 10 10 (by decide +kernel)
    (by decide +kernel)
  refine ⟨byFlag, byEnvironment, hf, he, ?_⟩
  exact (@settings_agree (fun _ => none) databaseOnly maxProcsDefinition (by decide) (lit "10")
    [] [] rfl (fun _ h => nomatch h) _ _ hf he).mpr (Or.inr (Or.inr (by decide)))

/-- A zero in front makes eight of ten for the flag alone. -/
theorem settings_differ : ∃ byFlag byEnvironment, maxProcsByFlag "010" = .ok byFlag ∧
    maxProcsByEnvironment "010" = .ok byEnvironment ∧ byFlag.config ≠ byEnvironment.config := by
  obtain ⟨byFlag, byEnvironment, hf, he, hm, hn⟩ := @maxProcs_both "010" 8 10 (by decide +kernel)
    (by decide +kernel)
  refine ⟨byFlag, byEnvironment, hf, he, fun heq => ?_⟩
  rw [heq, hn] at hm
  exact absurd hm (by decide)

end OpenDiscogs.Configuration
