import OpenDiscogs.Config.Reading
import OpenDiscogs.Config.Validation

/-! The control flags: what `load` takes for one, and what parsing makes of it. -/
namespace OpenDiscogs.Configuration
open Utf8 Strconv CommandLine

/-- The arguments that are looked for before any flag is parsed. -/
def controlArguments := ["--version", "-version", "--healthcheck", "-healthcheck", "--help", "-help",
  "-h"]

/-- A token of the arguments is the flag without a value. -/
def bare (flag : String) (arguments : List Bytes) : Bool :=
  hasArgument arguments ["--" ++ flag, "-" ++ flag]

def helpAsked (arguments : List Bytes) : Bool := hasArgument arguments ["--help", "-help", "-h"]

/-- The last value that the arguments give the flag is a true one. -/
def raised (flag : String) (arguments : List Bytes) : Bool :=
  (lastValue (lit flag) (scan bindFlags arguments).given).bind parseBool = some true

/-- Every flag accepts the values that it is given. -/
def Parses (arguments : List Bytes) : Prop :=
  ∃ values parsed, parse bindFlags arguments { values := values } = .ok parsed

/-- The bare tokens say what the flags are set to, and none asks for help in their absence. -/
def Plainly (arguments : List Bytes) : Prop :=
  bare flagVersion arguments = raised flagVersion arguments ∧
    (bare flagVersion arguments = true ∨
      bare flagHealthcheck arguments = raised flagHealthcheck arguments ∧
        (bare flagHealthcheck arguments = true ∨ helpAsked arguments = false))

/-- Loading ends without an error in a result of a kind. -/
def Loads (resolve : Resolver) (arguments : List Bytes) (lookup : LookupEnv)
    (kind : Result → Prop) : Prop :=
  ∃ result, load resolve arguments lookup = .ok result ∧ kind result

/-- The version is shown exactly if its flag is set by arguments that parse, and otherwise the
readiness checked exactly if its flag is. -/
def Recognised (resolve : Resolver) (arguments : List Bytes) (lookup : LookupEnv) : Prop :=
  ∀ values parsed positional,
    parse bindFlags arguments { values := values } = .ok (parsed, positional) →
      (Loads resolve arguments lookup (·.showVersion = true) ↔ parsed.version = true) ∧
      (¬Loads resolve arguments lookup (·.showVersion = true) →
        (Loads resolve arguments lookup (·.checkReadiness = true) ↔ parsed.healthcheck = true))

/-- A result without a control flag has a configuration that was validated, made of all the
arguments. -/
def Guarded (resolve : Resolver) (arguments : List Bytes) (lookup : LookupEnv) : Prop :=
  ∀ result, load resolve arguments lookup = .ok result →
    result.showVersion = false → result.checkReadiness = false →
      ∃ values, environmentValues lookup = .ok values ∧
        ∃ parsed, parse bindFlags arguments { values := values } = .ok (parsed, []) ∧
          validate resolve parsed.values = .ok result.config

variable {resolve : Resolver} {arguments : List Bytes} {lookup : LookupEnv} {result : Result}

theorem set_isSome {f : Flag FlagValues} (hf : f ∈ bindFlags) (value : Bytes) (v w : FlagValues) :
    (f.set value v).isSome = (f.set value w).isSome := by
  obtain ⟨s, rfl⟩ | rfl | rfl := mem_bindFlags hf
  · simp [settingVar]
  · simp [healthcheckVar]
  · simp [versionVar]

/-- The values that the flags start from do not matter to the parsing. -/
theorem Parses.ok (h : Parses arguments) (values : RawValues) :
    ∃ parsed, parse bindFlags arguments { values := values } = .ok parsed := by
  obtain ⟨values', ⟨parsed, positional⟩, h⟩ := h
  obtain ⟨hset, hstop⟩ := parse_eq_ok.mp h
  obtain ⟨w, hw⟩ := setAll_ok (fun f hf value v w => set_isSome hf value v w) scan_given hset
    { values := values }
  rw [parse_eq, hw]
  cases hs : (scan bindFlags arguments).stop with
  | ended => exact ⟨(w, []), rfl⟩
  | rest positional => exact ⟨(w, positional), rfl⟩
  | failed e =>
    rw [hs] at hstop
    cases hstop

variable {values : RawValues} {parsed : FlagValues} {positional : List Bytes}

/-- Parsing sets a boolean that only one flag sets to the last value of that flag. -/
theorem parsed_control {flag : String} {get : FlagValues → Bool}
    (hset : ∀ f ∈ bindFlags, f.name = lit flag → ∀ value v w, f.set value v = some w →
      parseBool value = some (get w))
    (hframe : ∀ f ∈ bindFlags, f.name ≠ lit flag → ∀ value v w, f.set value v = some w →
      get w = get v)
    (h : parse bindFlags arguments { values := values } = .ok (parsed, positional))
    (hstart : get { values := values } = false) : get parsed = raised flag arguments := by
  have hlast := setAll_last hset hframe scan_given (parse_eq_ok.mp h).1
  rw [raised]
  cases hv : lastValue (lit flag) (scan bindFlags arguments).given with
  | none =>
    rw [hv, hstart] at hlast
    exact Option.some.inj hlast
  | some value =>
    rw [hv] at hlast
    have hread : parseBool value = some (get parsed) := hlast.symm
    simp [hread]

theorem parsed_version
    (h : parse bindFlags arguments { values := values } = .ok (parsed, positional)) :
    parsed.version = raised flagVersion arguments := by
  refine @parsed_control _ _ _ _ flagVersion (·.version) ?_ ?_ h rfl
  · intro f hf hname value v w hset
    obtain ⟨s, rfl⟩ | rfl | rfl := mem_bindFlags hf
    · exact absurd hname (by cases s <;> decide)
    · exact absurd hname (by decide)
    · obtain ⟨b, hb, rfl⟩ := Option.map_eq_some_iff.mp hset
      exact hb
  · intro f hf hname value v w hset
    obtain ⟨s, rfl⟩ | rfl | rfl := mem_bindFlags hf
    · obtain ⟨x, -, rfl⟩ := settingVar_set.mp hset
      rfl
    · obtain ⟨b, -, rfl⟩ := Option.map_eq_some_iff.mp hset
      rfl
    · exact absurd rfl hname

theorem parsed_healthcheck
    (h : parse bindFlags arguments { values := values } = .ok (parsed, positional)) :
    parsed.healthcheck = raised flagHealthcheck arguments := by
  refine @parsed_control _ _ _ _ flagHealthcheck (·.healthcheck) ?_ ?_ h rfl
  · intro f hf hname value v w hset
    obtain ⟨s, rfl⟩ | rfl | rfl := mem_bindFlags hf
    · exact absurd hname (by cases s <;> decide)
    · obtain ⟨b, hb, rfl⟩ := Option.map_eq_some_iff.mp hset
      exact hb
    · exact absurd hname (by decide)
  · intro f hf hname value v w hset
    obtain ⟨s, rfl⟩ | rfl | rfl := mem_bindFlags hf
    · obtain ⟨x, -, rfl⟩ := settingVar_set.mp hset
      rfl
    · exact absurd rfl hname
    · obtain ⟨b, -, rfl⟩ := Option.map_eq_some_iff.mp hset
      rfl

theorem hasArgument_iff {arguments : List Bytes} {candidates : List String} :
    hasArgument arguments candidates = true ↔
      ∃ argument ∈ arguments, ∃ candidate ∈ candidates, argument = lit candidate := by
  simp [hasArgument]

theorem hasArgument_controls (arguments : List Bytes) : hasArgument arguments controlArguments =
    (bare flagVersion arguments || bare flagHealthcheck arguments || helpAsked arguments) := by
  rw [Bool.eq_iff_iff]
  simp only [bare, helpAsked, Bool.or_eq_true, hasArgument_iff, ← exists_or, ← and_or_left]
  have hsplit : controlArguments = ["--" ++ flagVersion, "-" ++ flagVersion] ++
      ["--" ++ flagHealthcheck, "-" ++ flagHealthcheck] ++ ["--help", "-help", "-h"] := rfl
  refine exists_congr fun argument => and_congr_right fun _ => ?_
  simp only [hsplit, List.mem_append, or_and_right, exists_or]

theorem parseFlags_eq_ok {values : RawValues} {parsed : FlagValues × List Bytes} :
    parseFlags arguments values = .ok parsed ↔
      parse bindFlags arguments { values := values } = .ok parsed := by
  unfold parseFlags
  cases parse bindFlags arguments { values := values } with
  | ok p => simp
  | error e => simp

theorem load_version (h : bare flagVersion arguments = true) :
    load resolve arguments lookup = .ok { showVersion := true } := by
  rw [bare] at h
  rw [load, if_pos h]

theorem load_healthcheck (hv : bare flagVersion arguments = false)
    (h : bare flagHealthcheck arguments = true) :
    load resolve arguments lookup = .ok { checkReadiness := true } := by
  rw [bare] at hv h
  rw [load, hv, if_neg Bool.false_ne_true, if_pos h]

/-- Asking for help parses the arguments, and validates nothing. -/
theorem load_help (hv : bare flagVersion arguments = false)
    (hh : bare flagHealthcheck arguments = false) (h : helpAsked arguments = true) :
    load resolve arguments lookup = .ok result ↔ Parses arguments ∧ result = {} := by
  rw [bare] at hv hh
  rw [helpAsked] at h
  simp only [load, hv, hh, h, Bool.false_eq_true, if_false, if_true, Except.bind_eq_ok,
    parseFlags_eq_ok]
  constructor
  · intro hparts
    obtain ⟨parsed, hp, hl⟩ := hparts
    cases hl
    exact ⟨⟨_, parsed, hp⟩, rfl⟩
  · intro hparts
    obtain ⟨hp, rfl⟩ := hparts
    obtain ⟨parsed, hp⟩ := hp.ok _
    exact ⟨parsed, hp, rfl⟩

/-- Without a control argument the arguments are parsed over the environment and validated. -/
theorem load_settings (hv : bare flagVersion arguments = false)
    (hh : bare flagHealthcheck arguments = false) (h : helpAsked arguments = false) :
    load resolve arguments lookup = .ok result ↔ ∃ values, environmentValues lookup = .ok values ∧
      ∃ parsed, parse bindFlags arguments { values := values } = .ok (parsed, []) ∧
        ∃ config, validate resolve parsed.values = .ok config ∧ result = { config := config } := by
  rw [bare] at hv hh
  rw [helpAsked] at h
  simp only [load, hv, hh, h, Bool.false_eq_true, if_false, Except.bind_eq_ok, parseFlags_eq_ok]
  refine exists_congr fun values => and_congr_right fun _ => ?_
  constructor
  · intro hparts
    obtain ⟨⟨parsed, positional⟩, hp, hl⟩ := hparts
    cases positional with
    | cons argument positional => cases hl
    | nil =>
      obtain ⟨config, hc, he⟩ := Except.bind_eq_ok.mp hl
      cases he
      exact ⟨parsed, hp, config, hc, rfl⟩
  · intro hparts
    obtain ⟨parsed, hp, config, hc, rfl⟩ := hparts
    exact ⟨(parsed, []), hp, Except.bind_eq_ok.mpr ⟨config, hc, rfl⟩⟩

theorem load_eq_ok (h : hasArgument arguments controlArguments = false) :
    load resolve arguments lookup = .ok result ↔ ∃ values, environmentValues lookup = .ok values ∧
      ∃ parsed, parse bindFlags arguments { values := values } = .ok (parsed, []) ∧
        ∃ config, validate resolve parsed.values = .ok config ∧ result = { config := config } := by
  simp only [hasArgument_controls, Bool.or_eq_false_iff] at h
  exact load_settings h.1.1 h.1.2 h.2

/-- With one, no configuration is made. -/
theorem load_control (h : hasArgument arguments controlArguments = true)
    (hl : load resolve arguments lookup = .ok result) : result.config = {} := by
  cases hv : bare flagVersion arguments with
  | true =>
    cases (load_version hv).symm.trans hl
    rfl
  | false =>
    cases hh : bare flagHealthcheck arguments with
    | true =>
      cases (load_healthcheck hv hh).symm.trans hl
      rfl
    | false =>
      have hhelp : helpAsked arguments = true := by simpa [hasArgument_controls, hv, hh] using h
      obtain ⟨-, rfl⟩ := (load_help hv hh hhelp).mp hl
      rfl

/-- The result says which bare tokens there are. -/
theorem load_kind (h : load resolve arguments lookup = .ok result) :
    result.showVersion = bare flagVersion arguments ∧
      result.checkReadiness = (!bare flagVersion arguments && bare flagHealthcheck arguments) := by
  cases hv : bare flagVersion arguments with
  | true =>
    cases (load_version hv).symm.trans h
    exact ⟨rfl, rfl⟩
  | false =>
    cases hh : bare flagHealthcheck arguments with
    | true =>
      cases (load_healthcheck hv hh).symm.trans h
      exact ⟨rfl, rfl⟩
    | false =>
      cases hhelp : helpAsked arguments with
      | true =>
        obtain ⟨-, rfl⟩ := (load_help hv hh hhelp).mp h
        exact ⟨rfl, rfl⟩
      | false =>
        obtain ⟨_, -, _, -, config, -, rfl⟩ := (load_settings hv hh hhelp).mp h
        exact ⟨rfl, rfl⟩

theorem loads_version : Loads resolve arguments lookup (·.showVersion = true) ↔
    bare flagVersion arguments = true := by
  constructor
  · intro hparts
    obtain ⟨result, h, hkind⟩ := hparts
    exact (load_kind h).1.symm.trans hkind
  · intro h
    exact ⟨_, load_version h, rfl⟩

theorem loads_healthcheck (hv : bare flagVersion arguments = false) :
    Loads resolve arguments lookup (·.checkReadiness = true) ↔
      bare flagHealthcheck arguments = true := by
  constructor
  · intro hparts
    obtain ⟨result, h, hkind⟩ := hparts
    have hboth := (load_kind h).2
    rw [hkind, hv] at hboth
    exact hboth.symm
  · intro h
    exact ⟨_, load_healthcheck hv h, rfl⟩

theorem recognised_iff : Recognised resolve arguments lookup ↔ (Parses arguments →
    bare flagVersion arguments = raised flagVersion arguments ∧
      (bare flagVersion arguments = true ∨
        bare flagHealthcheck arguments = raised flagHealthcheck arguments)) := by
  constructor
  · intro h hparts
    obtain ⟨values, ⟨parsed, positional⟩, hp⟩ := hparts
    obtain ⟨hversion, hhealth⟩ := h values parsed positional hp
    rw [loads_version, parsed_version hp] at hversion
    refine ⟨Bool.eq_iff_iff.mpr hversion, ?_⟩
    cases hv : bare flagVersion arguments with
    | true => exact Or.inl rfl
    | false =>
      have hnot : ¬Loads resolve arguments lookup (·.showVersion = true) := by
        rw [loads_version, hv]
        exact Bool.false_ne_true
      have hboth := hhealth hnot
      rw [loads_healthcheck hv, parsed_healthcheck hp] at hboth
      exact Or.inr (Bool.eq_iff_iff.mpr hboth)
  · intro h values parsed positional hp
    obtain ⟨hversion, hhealth⟩ := h ⟨values, _, hp⟩
    rw [loads_version, parsed_version hp, ← hversion]
    refine ⟨Iff.rfl, fun hnot => ?_⟩
    rw [loads_healthcheck (Bool.eq_false_iff.mpr hnot), parsed_healthcheck hp,
      hhealth.resolve_left hnot]

/-- No checked configuration is the empty one: it allows at least one connection. -/
theorem validate_ne_empty {values : RawValues} : validate resolve values ≠ .ok {} := by
  intro h
  have hv := validate_validated h
  have hone := hv.connections.2.2.1
  rw [← hv.maxConnections_eq] at hone
  exact absurd hone (by decide)

theorem guarded_iff : Guarded resolve arguments lookup ↔ (Parses arguments →
    bare flagVersion arguments = true ∨ bare flagHealthcheck arguments = true ∨
      helpAsked arguments = false) := by
  constructor
  · intro h hp
    cases hv : bare flagVersion arguments with
    | true => exact Or.inl rfl
    | false =>
      cases hh : bare flagHealthcheck arguments with
      | true => exact Or.inr (Or.inl rfl)
      | false =>
        cases hhelp : helpAsked arguments with
        | false => exact Or.inr (Or.inr rfl)
        | true =>
          obtain ⟨_, -, _, -, hvalid⟩ := h {} ((load_help hv hh hhelp).mpr ⟨hp, rfl⟩) rfl rfl
          exact absurd hvalid validate_ne_empty
  · intro h result hl hversion hready
    obtain ⟨hv, hh⟩ := load_kind hl
    rw [hversion] at hv
    rw [hready, ← hv] at hh
    have hh' : bare flagHealthcheck arguments = false := hh.symm
    cases hhelp : helpAsked arguments with
    | true =>
      have hp := ((load_help hv.symm hh' hhelp).mp hl).1
      simp [← hv, hh', hhelp] at h
      exact absurd hp h
    | false =>
      obtain ⟨values, he, parsed, hp, config, hc, rfl⟩ := (load_settings hv.symm hh' hhelp).mp hl
      exact ⟨values, he, parsed, hp, hc⟩

/-- Control flags are recognised and no unchecked configuration is returned exactly for the
arguments that do not parse, and for those whose bare tokens say what they set. -/
theorem controls_recognised (resolve : Resolver) (arguments : List Bytes) (lookup : LookupEnv) :
    Recognised resolve arguments lookup ∧ Guarded resolve arguments lookup ↔
      (Parses arguments → Plainly arguments) := by
  rw [recognised_iff, guarded_iff, ← imp_and]
  refine imp_congr_right fun _ => ?_
  rw [Plainly, and_assoc, ← or_and_left]

/-- A version flag with a value is no bare token, and the value of another flag can be one. With
such a value a configuration is returned that nothing has checked. -/
theorem controls_missed :
    ¬Recognised (fun _ => none) [lit "--version=true"] (fun _ => none) ∧
      ¬Recognised (fun _ => none) [lit "--address", lit "--version"] (fun _ => none) ∧
      ¬Guarded (fun _ => none) [lit "--address", lit "--help"] (fun _ => none) := by
  have hinline : Parses [lit "--version=true"] := ⟨RawValues.zero, _, rfl⟩
  have hvalue : Parses [lit "--address", lit "--version"] := ⟨RawValues.zero, _, rfl⟩
  have hhelp : Parses [lit "--address", lit "--help"] := ⟨RawValues.zero, _, rfl⟩
  refine ⟨fun h => ?_, fun h => ?_, fun h => ?_⟩
  · exact absurd (recognised_iff.mp h hinline).1 (by decide)
  · exact absurd (recognised_iff.mp h hvalue).1 (by decide)
  · exact absurd (guarded_iff.mp h hhelp) (by decide)

end OpenDiscogs.Configuration
