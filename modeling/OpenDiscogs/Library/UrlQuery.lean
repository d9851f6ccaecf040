import OpenDiscogs.Library.Utf8

/-! URL query strings: percent escapes, the pairs of a query and what a lenient parser keeps
of them. -/
namespace UrlQuery
open Utf8

def unhex (b : UInt8) : Option Nat :=
  if 0x30 ≤ b ∧ b ≤ 0x39 then some (b.toNat-0x30)
  else if 0x61 ≤ b ∧ b ≤ 0x66 then some (b.toNat-0x61+10)
  else if 0x41 ≤ b ∧ b ≤ 0x46 then some (b.toNat-0x41+10)
  else none

def hex (n : Nat) : UInt8 := if n < 10 then UInt8.ofNat (0x30+n) else UInt8.ofNat (0x41+(n-10))

/-- Percent escapes undone and `+` read as a blank; a malformed escape refuses the text. -/
def unescape : Bytes → Option Bytes
  | [] => some []
  | 0x25::c::d::s =>
    match unhex c, unhex d with
    | some x, some y => (unescape s).map (UInt8.ofNat (x*16+y)::·)
    | _, _ => none
  | 0x25::_ => none
  | b::s => (unescape s).map ((if b = 0x2B then 0x20 else b)::·)

/-- The text before the first separator, and the text after it. -/
def cut (sep : UInt8) (s : Bytes) : Bytes × Bytes :=
  (s.takeWhile (· != sep), (s.dropWhile (· != sep)).tail)

/-- The pairs of a raw query as they stand in it. -/
def pairs (raw : Bytes) : List Bytes := (raw.splitOn 0x26).filter (· != [])

/-- Decoded pairs in the order of the query. A map from keys to the list of their values in
order carries the same information, and every key in it has at least one value. -/
abbrev Values := List (Bytes × Bytes)

/-- A pair with a semicolon or a malformed escape is refused. -/
def readPair (pair : Bytes) : Option (Bytes × Bytes) :=
  if 0x3B ∈ pair then none
  else match unescape (cut 0x3D pair).1, unescape (cut 0x3D pair).2 with
    | some key, some value => some (key, value)
    | _, _ => none

def defaultMaxParams : Nat := 10000

/-- The parameters of a query are counted by its separators, empty ones too. -/
def paramsWithinMax (raw : Bytes) : Bool := raw.count 0x26+1 ≤ defaultMaxParams

/-- The lenient parser: refused pairs are left out, and of too many parameters all of them. -/
def parse (raw : Bytes) : Values :=
  if paramsWithinMax raw then (pairs raw).filterMap readPair else []

/-- The first value of a key, and the empty text when the key is missing. -/
def Values.get (values : Values) (name : Bytes) : Bytes :=
  match values with
  | [] => []
  | (key, value)::rest => if key = name then value else Values.get rest name

def Values.has (values : Values) (name : Bytes) : Bool := values.any fun pair => pair.1 = name

def unreserved (b : UInt8) : Bool :=
  (0x41 ≤ b && b ≤ 0x5A) || (0x61 ≤ b && b ≤ 0x7A) || (0x30 ≤ b && b ≤ 0x39) || b == 0x2D ||
    b == 0x5F || b == 0x2E || b == 0x7E

def escapeByte (b : UInt8) : Bytes :=
  if unreserved b then [b] else [0x25, hex (b.toNat/16), hex (b.toNat%16)]

/-- Percent-encoding, as a client applies it to the keys and values it sends. -/
def escape (s : Bytes) : Bytes := s.flatMap escapeByte

def encodePair (pair : Bytes × Bytes) : Bytes := escape pair.1 ++ 0x3D::escape pair.2

def encode (values : Values) : Bytes := [0x26].intercalate (values.map encodePair)

theorem unescape_plain {b : UInt8} (h : b ≠ 0x25) (s : Bytes) :
    unescape (b::s) = (unescape s).map ((if b = 0x2B then 0x20 else b)::·) := by
  rw [unescape.eq_def]
  split
  · next he => cases he
  · next he => cases he; exact absurd rfl h
  · next he => cases he; exact absurd rfl h
  · next he => cases he; rfl

theorem unescape_hex {x y : Nat} {c d : UInt8} (hc : unhex c = some x) (hd : unhex d = some y)
    (s : Bytes) : unescape (0x25::c::d::s) = (unescape s).map (UInt8.ofNat (x*16+y)::·) := by
  simp [unescape, hc, hd]

theorem unhex_hex : ∀ n < 16, unhex (hex n) = some n := by decide

theorem unreserved_plain {b : UInt8} (h : unreserved b = true) :
    b ≠ 0x25 ∧ b ≠ 0x2B ∧ b ≠ 0x26 ∧ b ≠ 0x3D ∧ b ≠ 0x3B := by
  refine ⟨?_, ?_, ?_, ?_, ?_⟩ <;> (rintro rfl; revert h; decide)

theorem unescape_escapeByte (b : UInt8) (s : Bytes) :
    unescape (escapeByte b ++ s) = (unescape s).map (b::·) := by
  unfold escapeByte
  split
  · next h =>
    obtain ⟨hp, hplus, -⟩ := unreserved_plain h
    rw [List.singleton_append, unescape_plain hp, if_neg hplus]
  · have hb := b.toNat_lt
    rw [List.cons_append, List.cons_append, List.cons_append, List.nil_append,
      unescape_hex (unhex_hex (b.toNat/16) (by omega)) (unhex_hex (b.toNat%16) (by omega)),
      Nat.div_add_mod', UInt8.ofNat_toNat]

/-- Percent-encoding loses nothing, whatever the bytes. -/
theorem unescape_escape (s : Bytes) : unescape (escape s) = some s := by
  induction s with
  | nil => rfl
  | cons b s ih =>
    rw [escape, List.flatMap_cons, unescape_escapeByte]
    rw [escape] at ih
    rw [ih, Option.map_some]

theorem hex_plain : ∀ n < 16, hex n ≠ 0x26 ∧ hex n ≠ 0x3D ∧ hex n ≠ 0x3B := by decide

theorem escapeByte_plain (b : UInt8) : ∀ c ∈ escapeByte b, c ≠ 0x26 ∧ c ≠ 0x3D ∧ c ≠ 0x3B := by
  intro c hc
  unfold escapeByte at hc
  split at hc
  · next h =>
    rw [List.mem_singleton] at hc
    exact hc ▸ (unreserved_plain h).2.2
  · have hb := b.toNat_lt
    simp only [List.mem_cons, List.not_mem_nil, or_false] at hc
    obtain rfl | rfl | rfl := hc
    · decide
    · exact hex_plain _ (by omega)
    · exact hex_plain _ (by omega)

/-- No separator survives in an encoded text. -/
theorem escape_plain (s : Bytes) : ∀ c ∈ escape s, c ≠ 0x26 ∧ c ≠ 0x3D ∧ c ≠ 0x3B := by
  intro c hc
  obtain ⟨b, -, hb⟩ := List.mem_flatMap.mp hc
  exact escapeByte_plain b c hb

theorem cut_append {sep : UInt8} {a : Bytes} (h : sep ∉ a) (b : Bytes) :
    cut sep (a ++ sep::b) = (a, b) := by
  rw [cut, takeWhile_append_sep h, dropWhile_append_sep h, List.tail_cons]

theorem readPair_encodePair (pair : Bytes × Bytes) : readPair (encodePair pair) = some pair := by
  have hk := escape_plain pair.1
  have hv := escape_plain pair.2
  have hsemi : (0x3B : UInt8) ∉ encodePair pair := by
    simp only [encodePair, List.mem_append, List.mem_cons]
    intro hparts
    obtain h | h | h := hparts
    · exact (hk _ h).2.2 rfl
    · exact absurd h (by decide)
    · exact (hv _ h).2.2 rfl
  have hcut : cut 0x3D (encodePair pair) = (escape pair.1, escape pair.2) :=
    cut_append (fun h => (hk _ h).2.1 rfl) _
  rw [readPair, if_neg hsemi, hcut, unescape_escape, unescape_escape]

/-- The separator of pairs stands in none of them. -/
theorem not_mem_encodePair (pair : Bytes × Bytes) : 0x26 ∉ encodePair pair := by
  intro hmem
  simp only [encodePair, List.mem_append, List.mem_cons] at hmem
  obtain h | h | h := hmem
  · exact (escape_plain pair.1 _ h).1 rfl
  · exact absurd h (by decide)
  · exact (escape_plain pair.2 _ h).1 rfl

theorem pairs_encode (values : Values) : pairs (encode values) = values.map encodePair := by
  unfold pairs encode
  cases values with
  | nil => rfl
  | cons pair values =>
    have hamp : ∀ l ∈ (pair::values).map encodePair, (0x26 : UInt8) ∉ l := by
      intro l hl
      obtain ⟨p, -, rfl⟩ := List.mem_map.mp hl
      exact not_mem_encodePair p
    rw [List.splitOn_intercalate 0x26 hamp (by simp), List.filter_eq_self]
    intro l hl
    obtain ⟨p, -, rfl⟩ := List.mem_map.mp hl
    simp [encodePair]

/-- There is a separator between two pairs, and no other. -/
theorem count_encode (pair : Bytes × Bytes) (values : Values) :
    (encode (pair::values)).count 0x26 = values.length := by
  induction values generalizing pair with
  | nil => simp [encode, List.intercalate, List.count_eq_zero.mpr (not_mem_encodePair pair)]
  | cons other values ih =>
    have hcons : encode (pair::other::values) = encodePair pair ++ 0x26::encode (other::values) := by
      simp [encode, List.intercalate]
    rw [hcons, List.count_append, List.count_cons_self,
      List.count_eq_zero.mpr (not_mem_encodePair pair), ih, List.length_cons, Nat.zero_add]

/-- The parser reads back what a client percent-encoded. -/
theorem parse_encode {values : Values} (h : values.length ≤ defaultMaxParams) :
    parse (encode values) = values := by
  have hwithin : paramsWithinMax (encode values) = true := by
    cases values with
    | nil => decide
    | cons pair values => rwa [paramsWithinMax, count_encode, decide_eq_true_eq]
  rw [parse, if_pos hwithin, pairs_encode, List.filterMap_map]
  have : readPair ∘ encodePair = some := funext readPair_encodePair
  rw [this, List.filterMap_some]

theorem get_cons (key value : Bytes) (rest : Values) (name : Bytes) :
    Values.get ((key, value)::rest) name = if key = name then value else Values.get rest name := rfl

theorem has_cons (key value : Bytes) (rest : Values) (name : Bytes) :
    Values.has ((key, value)::rest) name = (decide (key = name) || Values.has rest name) := rfl

/-- The first value of a key is the one in the part that has the key first. -/
theorem get_append (a b : Values) (name : Bytes) :
    Values.get (a ++ b) name = if Values.has a name then Values.get a name else Values.get b name := by
  induction a with
  | nil => rfl
  | cons pair a ih =>
    rw [List.cons_append, get_cons, get_cons, has_cons, ih]
    by_cases h : pair.1 = name <;> simp [h]

/-- A key that is missing has the empty text as its value. -/
theorem get_of_not_has {values : Values} {name : Bytes} (h : values.has name = false) :
    values.get name = [] := by
  induction values with
  | nil => rfl
  | cons pair values ih =>
    rw [has_cons, Bool.or_eq_false_iff, decide_eq_false_iff_not] at h
    rw [get_cons, if_neg h.1, ih h.2]

/-- The key that a pair of a raw query spells, and its value, whether or not a parser keeps it. -/
def keyOf (pair : Bytes) : Option Bytes := unescape (cut 0x3D pair).1

def valueOf (pair : Bytes) : Option Bytes := unescape (cut 0x3D pair).2

/-- The first pair of a raw query with a given key. -/
def firstPair (raw name : Bytes) : Option Bytes := (pairs raw).find? fun pair => keyOf pair = some name

theorem readPair_eq (pair : Bytes) : readPair pair =
    if 0x3B ∈ pair then none else (keyOf pair).bind fun key => (valueOf pair).map (key, ·) := by
  unfold readPair keyOf valueOf
  split
  · rfl
  · cases unescape (cut 0x3D pair).1 with
    | none => rfl
    | some key => cases unescape (cut 0x3D pair).2 <;> rfl

/-- The first pair with a key decides the key's value, unless the parser refuses it. -/
theorem get_parse {raw name pair value : Bytes} (hw : paramsWithinMax raw = true)
    (hf : firstPair raw name = some pair) (hv : valueOf pair = some value) (hs : 0x3B ∉ pair) :
    (parse raw).get name = value := by
  unfold firstPair at hf
  rw [parse, if_pos hw]
  generalize pairs raw = ps at hf
  induction ps with
  | nil => simp at hf
  | cons p ps ih =>
    rw [List.filterMap_cons, readPair_eq]
    rw [List.find?_cons] at hf
    by_cases hk : keyOf p = some name
    · simp only [hk, decide_true, Option.some.injEq] at hf
      subst hf
      rw [if_neg hs, hk, hv]
      simp [get_cons]
    · simp only [hk, decide_false] at hf
      by_cases hp : 0x3B ∈ p
      · simpa [hp] using ih hf
      · cases hkey : keyOf p with
        | none => simpa [hp] using ih hf
        | some key =>
          have hne : key ≠ name := fun he => hk (hkey.trans (congrArg some he))
          cases hval : valueOf p with
          | none => simpa [hp] using ih hf
          | some v => simpa [hp, get_cons, hne] using ih hf

/-- Decoding keeps a semicolon, which is no part of an escape. -/
theorem semicolon_unescape {s t : Bytes} (h : unescape s = some t) (hm : 0x3B ∈ s) : 0x3B ∈ t := by
  induction s using unescape.induct generalizing t with
  | case1 => simp at hm
  | case2 c d s x y hy hx ih =>
    have hsemi : unhex 0x3B = none := rfl
    have hc : c ≠ 0x3B := by
      intro he
      subst he
      cases hsemi.symm.trans hx
    have hd : d ≠ 0x3B := by
      intro he
      subst he
      cases hsemi.symm.trans hy
    rw [unescape_hex hx hy, Option.map_eq_some_iff] at h
    obtain ⟨u, hu, rfl⟩ := h
    have hs : 0x3B ∈ s := by simpa [hc.symm, hd.symm] using hm
    exact List.mem_cons_of_mem _ (ih hu hs)
  | case3 c d s hno =>
    rw [unescape] at h
    split at h
    · next x y hx hy => exact absurd hy (hno x y hx)
    · cases h
  | case4 s hno =>
    rw [unescape] at h
    · cases h
    · exact hno
  | case5 b s h1 h2 ih =>
    have hb : b ≠ 0x25 := by
      intro he
      subst he
      exact h2 rfl
    rw [unescape_plain hb, Option.map_eq_some_iff] at h
    obtain ⟨u, hu, rfl⟩ := h
    obtain rfl | hs := List.mem_cons.mp hm
    · simp
    · exact List.mem_cons_of_mem _ (ih hu hs)

/-- A semicolon in a pair whose key has none stands in its value. -/
theorem semicolon_value {pair key value : Bytes} (hk : keyOf pair = some key)
    (hv : valueOf pair = some value) (hno : 0x3B ∉ key) (hm : 0x3B ∈ pair) : 0x3B ∈ value := by
  refine semicolon_unescape hv ?_
  by_contra hn
  have hkey : 0x3B ∉ (cut 0x3D pair).1 := fun h => hno (semicolon_unescape hk h)
  rw [← List.takeWhile_append_dropWhile (p := (· != 0x3D)) (l := pair), List.mem_append] at hm
  obtain h | h := hm
  · exact hkey h
  · obtain hd | ⟨rest, hd⟩ := dropWhile_sep 0x3D pair
    · rw [hd] at h
      cases h
    · rw [hd] at h
      have hrest : 0x3B ∈ rest := by simpa using h
      exact hn (by rw [cut, hd]; exact hrest)

end UrlQuery
