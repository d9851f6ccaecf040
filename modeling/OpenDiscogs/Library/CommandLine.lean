import OpenDiscogs.Library.Outcome
import OpenDiscogs.Library.Utf8

/-! Flags on a command line: how the tokens are read, and what the values given set. -/
namespace CommandLine
open Utf8

/-- A flag sets a part of `σ`, or refuses a value; a boolean one needs no value. -/
structure Flag (σ : Type) where
  name : Bytes
  isBoolFlag : Bool
  set : Bytes → σ → Option σ

abbrev FlagSet (σ : Type) := List (Flag σ)

/-- Why the arguments are refused. -/
inductive Failure where
  | help
  | badFlag (token : Bytes)
  | undefined (name : Bytes)
  | needsArgument (name : Bytes)
  | invalid (name value : Bytes)

variable {σ : Type}

def FlagSet.find (flags : FlagSet σ) (name : Bytes) : Option (Flag σ) :=
  List.find? (fun f => f.name == name) flags

/-- What a token is, with the value it has after an equals sign. -/
inductive Token (σ : Type) where
  | positional
  | terminator
  | failure (e : Failure)
  | flag (f : Flag σ) (value : Option Bytes)

/-- The name of a flag, and the value after the first equals sign. -/
def splitValue (s : Bytes) : Bytes × Option Bytes :=
  (s.takeWhile (· != 0x3D), (s.dropWhile (· != 0x3D)).tail?)

/-- The token of a name behind one minus or two. -/
def named (flags : FlagSet σ) (token name : Bytes) : Token σ :=
  match name with
  | [] => .failure (.badFlag token)
  | c::s =>
    if c = 0x2D ∨ c = 0x3D then .failure (.badFlag token)
    else
      let (name, value) := splitValue (c::s)
      match flags.find name with
      | some f => .flag f value
      | none =>
        if name = lit "help" ∨ name = lit "h" then .failure .help
        else .failure (.undefined name)

def readToken (flags : FlagSet σ) (token : Bytes) : Token σ :=
  match token with
  | [0x2D, 0x2D] => .terminator
  | 0x2D::0x2D::name => named flags token name
  | 0x2D::c::s => named flags token (c::s)
  | _ => .positional

/-- The arguments are read until one is no flag; the rest are positional. -/
def parse (flags : FlagSet σ) : List Bytes → σ → Except Failure (σ × List Bytes)
  | [], values => .ok (values, [])
  | token::rest, values =>
    match readToken flags token with
    | .positional => .ok (values, token::rest)
    | .terminator => .ok (values, rest)
    | .failure e => .error e
    | .flag f (some value) =>
      match f.set value values with
      | some values => parse flags rest values
      | none => .error (.invalid f.name value)
    | .flag f none =>
      if f.isBoolFlag then
        match f.set (lit "true") values with
        | some values => parse flags rest values
        | none => .error (.invalid f.name (lit "true"))
      else
        match rest with
        | [] => .error (.needsArgument f.name)
        | value::rest =>
          match f.set value values with
          | some values => parse flags rest values
          | none => .error (.invalid f.name value)

/-- Where the reading stops: after the last argument, before positional ones, or in an error. -/
inductive Stop where
  | ended
  | rest (positional : List Bytes)
  | failed (e : Failure)

def Stop.result (stop : Stop) (values : σ) : Except Failure (σ × List Bytes) :=
  match stop with
  | .ended => .ok (values, [])
  | .rest positional => .ok (values, positional)
  | .failed e => .error e

/-- The flags that are given, each with its value, and where the reading stops. -/
structure Scan (σ : Type) where
  given : List (Flag σ × Bytes)
  stop : Stop

def Scan.cons (given : Flag σ × Bytes) (scan : Scan σ) : Scan σ :=
  { scan with given := given::scan.given }

/-- The reading alone: no value is set and none is refused. -/
def scan (flags : FlagSet σ) : List Bytes → Scan σ
  | [] => ⟨[], .ended⟩
  | token::rest =>
    match readToken flags token with
    | .positional => ⟨[], .rest (token::rest)⟩
    | .terminator => ⟨[], .rest rest⟩
    | .failure e => ⟨[], .failed e⟩
    | .flag f (some value) => (scan flags rest).cons (f, value)
    | .flag f none =>
      if f.isBoolFlag then (scan flags rest).cons (f, lit "true")
      else
        match rest with
        | [] => ⟨[], .failed (.needsArgument f.name)⟩
        | value::rest => (scan flags rest).cons (f, value)

/-- The values set in the order they are given. -/
def setAll : List (Flag σ × Bytes) → σ → Except Failure σ
  | [], values => .ok values
  | (f, value)::given, values =>
    match f.set value values with
    | some values => setAll given values
    | none => .error (.invalid f.name value)

/-- The last value that a flag of a name is given. -/
def lastValue (name : Bytes) : List (Flag σ × Bytes) → Option Bytes
  | [] => none
  | (f, value)::given => (lastValue name given).or (if f.name = name then some value else none)

theorem scan_flag {flags : FlagSet σ} {token value : Bytes} {f : Flag σ}
    (h : readToken flags token = .flag f (some value)) (rest : List Bytes) :
    scan flags (token::rest) = (scan flags rest).cons (f, value) := by
  rw [scan, h]

theorem scan_bool {flags : FlagSet σ} {token : Bytes} {f : Flag σ}
    (h : readToken flags token = .flag f none) (hb : f.isBoolFlag = true) (rest : List Bytes) :
    scan flags (token::rest) = (scan flags rest).cons (f, lit "true") := by
  rw [scan.eq_def]
  simp only [h, hb, if_true]

theorem scan_next {flags : FlagSet σ} {token : Bytes} {f : Flag σ}
    (h : readToken flags token = .flag f none) (hb : ¬f.isBoolFlag = true) (value : Bytes)
    (rest : List Bytes) :
    scan flags (token::value::rest) = (scan flags rest).cons (f, value) := by
  rw [scan.eq_def]
  simp only [h, hb]
  rfl

theorem setAll_append (given given' : List (Flag σ × Bytes)) (values : σ) :
    setAll (given ++ given') values = (setAll given values).bind (setAll given') := by
  induction given generalizing values with
  | nil => rfl
  | cons pair given ih =>
    obtain ⟨f, value⟩ := pair
    simp only [List.cons_append, setAll]
    cases f.set value values with
    | none => rfl
    | some values => exact ih values

theorem setAll_append_eq_ok {given given' : List (Flag σ × Bytes)} {values values' : σ} :
    setAll (given ++ given') values = .ok values' ↔
      ∃ v, setAll given values = .ok v ∧ setAll given' v = .ok values' := by
  rw [setAll_append]
  exact Except.bind_eq_ok

theorem setAll_cons_eq_ok {f : Flag σ} {value : Bytes} {given : List (Flag σ × Bytes)}
    {values values' : σ} : setAll ((f, value)::given) values = .ok values' ↔
      ∃ v, f.set value values = some v ∧ setAll given v = .ok values' := by
  simp only [setAll]
  cases f.set value values with
  | none => simp
  | some v => simp

/-- Parsing is reading the arguments, and setting what they give. -/
theorem parse_eq (flags : FlagSet σ) (arguments : List Bytes) (values : σ) :
    parse flags arguments values =
      (setAll (scan flags arguments).given values).bind (scan flags arguments).stop.result := by
  fun_induction parse flags arguments values with
  | case1 values => rfl
  | case2 values token rest ht => simp only [scan, ht]; rfl
  | case3 values token rest ht => simp only [scan, ht]; rfl
  | case4 values token rest e ht => simp only [scan, ht]; rfl
  | case5 values token rest f value ht values' hs ih =>
    simp only [scan_flag ht, Scan.cons, setAll, hs]
    exact ih
  | case6 values token rest f value ht hs =>
    simp only [scan_flag ht, Scan.cons, setAll, hs]
    rfl
  | case7 values token rest f ht hb values' hs ih =>
    simp only [scan_bool ht hb, Scan.cons, setAll, hs]
    exact ih
  | case8 values token rest f ht hb hs =>
    simp only [scan_bool ht hb, Scan.cons, setAll, hs]
    rfl
  | case9 values token f ht hb =>
    rw [scan.eq_def]
    simp only [ht, hb]
    rfl
  | case10 values token f ht hb value rest values' hs ih =>
    simp only [scan_next ht hb, Scan.cons, setAll, hs]
    exact ih
  | case11 values token f ht hb value rest hs =>
    simp only [scan_next ht hb, Scan.cons, setAll, hs]
    rfl

theorem parse_eq_ok {flags : FlagSet σ} {arguments rest : List Bytes} {values values' : σ} :
    parse flags arguments values = .ok (values', rest) ↔
      setAll (scan flags arguments).given values = .ok values' ∧
        (scan flags arguments).stop.result values' = .ok (values', rest) := by
  rw [parse_eq]
  cases hs : setAll (scan flags arguments).given values with
  | error e => simp [Except.bind]
  | ok v =>
    simp only [Except.bind, Except.ok.injEq]
    constructor
    · intro h
      have hv : v = values' := by
        cases hstop : (scan flags arguments).stop with
        | ended => rw [hstop] at h; cases h; rfl
        | rest positional => rw [hstop] at h; cases h; rfl
        | failed e => rw [hstop] at h; cases h
      exact ⟨hv, hv ▸ h⟩
    · intro hparts
      obtain ⟨rfl, h⟩ := hparts
      exact h

/-- Whole flags in front of other arguments are read on their own. -/
theorem scan_append {flags : FlagSet σ} {front : List Bytes} (back : List Bytes)
    (h : (scan flags front).stop = .ended) :
    scan flags (front ++ back) =
      ⟨(scan flags front).given ++ (scan flags back).given, (scan flags back).stop⟩ := by
  fun_induction scan flags front with
  | case1 => rfl
  | case5 token rest f value ht ih => rw [List.cons_append, scan_flag ht, ih h]; rfl
  | case6 token rest f ht hb ih => rw [List.cons_append, scan_bool ht hb, ih h]; rfl
  | case8 token f ht hb value rest ih =>
    rw [List.cons_append, List.cons_append, scan_next ht hb, ih h]
    rfl
  | _ => cases h

theorem find_some {flags : FlagSet σ} {name : Bytes} {f : Flag σ} (h : flags.find name = some f) :
    f ∈ flags ∧ f.name = name :=
  ⟨List.mem_of_find?_eq_some h, by simpa using List.find?_some h⟩

theorem named_flag {flags : FlagSet σ} {token name : Bytes} {f : Flag σ} {value : Option Bytes}
    (h : named flags token name = .flag f value) : f ∈ flags := by
  unfold named at h
  split at h
  · cases h
  · split at h
    · cases h
    · simp only at h
      split at h
      · next hf =>
        cases h
        exact (find_some hf).1
      · split at h <;> cases h

/-- Only flags of the set are given. -/
theorem readToken_flag {flags : FlagSet σ} {token : Bytes} {f : Flag σ} {value : Option Bytes}
    (h : readToken flags token = .flag f value) : f ∈ flags := by
  unfold readToken at h
  split at h
  · cases h
  · exact named_flag h
  · exact named_flag h
  · cases h

theorem scan_given {flags : FlagSet σ} {arguments : List Bytes} :
    ∀ pair ∈ (scan flags arguments).given, pair.1 ∈ flags := by
  fun_induction scan flags arguments with
  | case5 token rest f value ht ih => exact List.forall_mem_cons.mpr ⟨readToken_flag ht, ih⟩
  | case6 token rest f ht hb ih => exact List.forall_mem_cons.mpr ⟨readToken_flag ht, ih⟩
  | case8 token f ht hb value rest ih => exact List.forall_mem_cons.mpr ⟨readToken_flag ht, ih⟩
  | _ => simp

/-- Where the values alone decide what is refused, the state they are set in does not. -/
theorem setAll_ok {flags : FlagSet σ}
    (hset : ∀ f ∈ flags, ∀ value v w, (f.set value v).isSome = (f.set value w).isSome)
    {given : List (Flag σ × Bytes)} (hgiven : ∀ pair ∈ given, pair.1 ∈ flags) {v v' : σ}
    (h : setAll given v = .ok v') (w : σ) : ∃ w', setAll given w = .ok w' := by
  induction given generalizing v w with
  | nil => exact ⟨w, rfl⟩
  | cons pair given ih =>
    obtain ⟨f, value⟩ := pair
    rw [List.forall_mem_cons] at hgiven
    obtain ⟨u, hu, h⟩ := setAll_cons_eq_ok.mp h
    have hsome : (f.set value w).isSome = true := by
      rw [← hset f hgiven.1 value v w, hu]
      rfl
    obtain ⟨x, hx⟩ := Option.isSome_iff_exists.mp hsome
    obtain ⟨w', hw⟩ := ih hgiven.2 h x
    exact ⟨w', setAll_cons_eq_ok.mpr ⟨x, hx, hw⟩⟩

/-- A part of the state that one flag sets is what the last value of that flag says. -/
theorem setAll_last {β : Type} {flags : FlagSet σ} {name : Bytes} {get : σ → β}
    {read : Bytes → Option β}
    (hset : ∀ f ∈ flags, f.name = name → ∀ value v w, f.set value v = some w →
      read value = some (get w))
    (hframe : ∀ f ∈ flags, f.name ≠ name → ∀ value v w, f.set value v = some w → get w = get v)
    {given : List (Flag σ × Bytes)} (hgiven : ∀ pair ∈ given, pair.1 ∈ flags) {v w : σ}
    (h : setAll given v = .ok w) :
    some (get w) = (lastValue name given).elim (some (get v)) read := by
  induction given generalizing v with
  | nil =>
    cases h
    rfl
  | cons pair given ih =>
    obtain ⟨f, value⟩ := pair
    rw [List.forall_mem_cons] at hgiven
    obtain ⟨u, hu, h⟩ := setAll_cons_eq_ok.mp h
    rw [ih hgiven.2 h, lastValue]
    cases lastValue name given with
    | some last => rfl
    | none =>
      by_cases hname : f.name = name
      · simp [hname, hset f hgiven.1 hname value v u hu]
      · simp [hname, hframe f hgiven.1 hname value v u hu]

theorem splitValue_append {name : Bytes} (h : 0x3D ∉ name) (value : Bytes) :
    splitValue (name ++ 0x3D::value) = (name, some value) := by
  rw [splitValue, takeWhile_append_sep h, dropWhile_append_sep h, List.tail?_cons]

/-- What a flag's name looks like: neither a minus nor an equals sign would be read as part of it. -/
def plainName : Bytes → Bool
  | [] => false
  | c::s => c != 0x2D && !(c::s).contains 0x3D

/-- Two minuses, a name and an equals sign give the named flag what follows. -/
theorem readToken_inline {flags : FlagSet σ} {name : Bytes} {f : Flag σ}
    (hf : flags.find name = some f) (hname : plainName name = true) (value : Bytes) :
    readToken flags (0x2D::0x2D::(name ++ 0x3D::value)) = .flag f (some value) := by
  cases name with
  | nil => cases hname
  | cons c s =>
    simp only [plainName, List.contains_eq_mem, Bool.and_eq_true, bne_iff_ne, ne_eq,
      Bool.not_eq_true', decide_eq_false_iff_not] at hname
    have hequals : c ≠ 0x3D := fun he => hname.2 (he ▸ List.mem_cons_self ..)
    have hsplit := splitValue_append hname.2 value
    rw [List.cons_append] at hsplit ⊢
    simp only [readToken, named, hname.1, hequals, or_self, if_false, hsplit, hf]

/-- Without an equals sign the flag is named alone. -/
theorem readToken_bare {flags : FlagSet σ} {name : Bytes} {f : Flag σ}
    (hf : flags.find name = some f) (hname : plainName name = true) :
    readToken flags (0x2D::0x2D::name) = .flag f none := by
  cases name with
  | nil => cases hname
  | cons c s =>
    simp only [plainName, List.contains_eq_mem, Bool.and_eq_true, bne_iff_ne, ne_eq,
      Bool.not_eq_true', decide_eq_false_iff_not] at hname
    have hequals : c ≠ 0x3D := fun he => hname.2 (he ▸ List.mem_cons_self ..)
    have hsplit : splitValue (c::s) = (c::s, none) := by
      rw [splitValue, takeWhile_no_sep hname.2, dropWhile_no_sep hname.2, List.tail?_nil]
    simp only [readToken, named, hname.1, hequals, or_self, if_false, hsplit, hf]

end CommandLine
