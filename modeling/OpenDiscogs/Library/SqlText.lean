import Mathlib.Data.Char
import Mathlib.Data.List.Lex
import OpenDiscogs.Library.Rows
import OpenDiscogs.Library.Utf8

/-! PostgreSQL text: values, the byte strings accepted for them, pattern matching and the
aggregates over text, under whatever case mapping and ordering the server is set up with. -/
namespace SqlText
open Utf8

def nul : Char := Char.ofNat 0

/-- A text value: any characters but U+0000, which PostgreSQL cannot store. -/
structure Text where
  chars : List Char
  legal : nul ∉ chars
deriving DecidableEq

@[ext] theorem Text.ext {s t : Text} (h : s.chars = t.chars) : s = t := by
  cases s; cases t; cases h; rfl

def Text.of (s : String) (legal : nul ∉ s.toList := by decide) : Text := ⟨s.toList, legal⟩

/-- The bytes a client reads for a text. -/
def Text.bytes (t : Text) : Bytes := Utf8.encode t.chars

/-- The text a client's bytes are accepted as: well-formed UTF-8 without U+0000. -/
def ofBytes (s : Bytes) : Option Text :=
  match decode s with
  | some cs => if h : nul ∈ cs then none else some ⟨cs, h⟩
  | none => none

@[simp] theorem ofBytes_bytes (t : Text) : ofBytes t.bytes = some t := by
  simp [ofBytes, Text.bytes, t.legal]

theorem ofBytes_some {s : Bytes} {t : Text} (h : ofBytes s = some t) : s = t.bytes := by
  unfold ofBytes at h
  split at h
  · next cs hcs =>
    split at h
    · cases h
    · cases h
      exact decode_some hcs
  · cases h

/-- What PostgreSQL leaves to its installation: the case mapping and the order of the database's
collation, and the hash function, none of which the queries may depend on. -/
structure Server where
  lower : Char → Char
  lower_nul : ∀ c, lower c = nul ↔ c = nul
  lower_pattern : ∀ m ∈ ['%', '_', '\\'], ∀ c, lower c = m ↔ c = m
  order : LinearOrder Text
  md5 : Text → Bytes

def Text.lower (server : Server) (t : Text) : Text where
  chars := t.chars.map server.lower
  legal h := by
    obtain ⟨c, hc, he⟩ := List.mem_map.mp h
    exact t.legal ((server.lower_nul c).mp he ▸ hc)

/-- `trim(t)`: plain blanks off both ends. -/
def Text.trim (t : Text) : Text where
  chars := (t.chars.dropWhile (· == ' ')).rdropWhile (· == ' ')
  legal h := t.legal ((List.dropWhile_sublist _).mem ((List.rdropWhile_prefix _ _).mem h))

/-- Texts with a comma between any two of them. -/
def commaJoin : List Text → Text
  | [] => Text.of ""
  | [t] => t
  | t::u::ts =>
    { chars := t.chars ++ ','::(commaJoin (u::ts)).chars
      legal := by
        simp only [List.mem_append, List.mem_cons, not_or]
        exact ⟨t.legal, by decide, (commaJoin (u::ts)).legal⟩ }

/-- The distinct values of a text column in the collation's order. -/
def sortedDistinct (server : Server) (xs : List Text) : List Text :=
  @Rows.distinct Text server.order xs

/-- `string_agg(DISTINCT x, ',' ORDER BY x)`: nulls are skipped, and no value gives null. -/
def stringAgg (server : Server) (xs : List (Option Text)) : Option Text :=
  match sortedDistinct server (xs.filterMap id) with
  | [] => none
  | t::ts => some (commaJoin (t::ts))

/-- `LIKE`: a backslash takes the next character literally. PostgreSQL raises an error for a
pattern that ends in a lone backslash; such a pattern matches nothing here. -/
def like : List Char → List Char → Bool
  | [] => fun s => s.isEmpty
  | '%'::p => fun s => s.tails.any (like p)
  | '_'::p => fun s => match s with
    | [] => false
    | _::s => like p s
  | ['\\'] => fun _ => false
  | '\\'::c::p => fun s => match s with
    | [] => false
    | d::s => c == d && like p s
  | c::p => fun s => match s with
    | [] => false
    | d::s => c == d && like p s

/-- `ILIKE`: both sides are mapped to lower case first. -/
def ilike (server : Server) (t pattern : Text) : Bool :=
  like (pattern.lower server).chars (t.lower server).chars

/-- `'%' || term || '%'` -/
def substringPattern (term : Text) : Text where
  chars := '%'::(term.chars ++ ['%'])
  legal := by
    simp only [List.mem_cons, List.mem_append, List.not_mem_nil, or_false, not_or]
    exact ⟨by decide, term.legal, by decide⟩

@[simp] theorem mem_sortedDistinct {server : Server} {xs : List Text} {t : Text} :
    t ∈ sortedDistinct server xs ↔ t ∈ xs := @Rows.mem_distinct Text server.order xs t

/-- Sorted distinct values depend on the set of the values only. -/
theorem sortedDistinct_congr {server : Server} {xs ys : List Text} (h : ∀ t, t ∈ xs ↔ t ∈ ys) :
    sortedDistinct server xs = sortedDistinct server ys :=
  @Keyset.ascending_ext Text server.order _ _ (@Rows.distinct_ascending Text server.order xs)
    (@Rows.distinct_ascending Text server.order ys) fun t =>
      mem_sortedDistinct.trans ((h t).trans mem_sortedDistinct.symm)

theorem stringAgg_congr {server : Server} {xs ys : List (Option Text)}
    (h : ∀ t : Text, some t ∈ xs ↔ some t ∈ ys) : stringAgg server xs = stringAgg server ys := by
  have hset : ∀ t, t ∈ xs.filterMap id ↔ t ∈ ys.filterMap id := fun t => by
    simpa [List.mem_filterMap] using h t
  rw [stringAgg, stringAgg, sortedDistinct_congr hset]

def asciiLower (c : Char) : Char := if 'A' ≤ c ∧ c ≤ 'Z' then Char.ofNat (c.toNat+32) else c

/-- The case mapping reaches small letters only. -/
theorem asciiLower_eq {c m : Char} (hm : ¬('a' ≤ m ∧ m ≤ 'z')) (hu : ¬('A' ≤ m ∧ m ≤ 'Z')) :
    asciiLower c = m ↔ c = m := by
  unfold asciiLower
  split
  · next h =>
    have hlo : 65 ≤ c.toNat := h.1
    have hhi : c.toNat ≤ 90 := h.2
    have hval : (Char.ofNat (c.toNat+32)).toNat = c.toNat+32 := by
      rw [Char.ofNat, dif_pos (Or.inl (by omega))]
      rfl
    constructor
    · intro he
      subst he
      refine absurd ⟨?_, ?_⟩ hm
      · show 97 ≤ (Char.ofNat (c.toNat+32)).toNat
        omega
      · show (Char.ofNat (c.toNat+32)).toNat ≤ 122
        omega
    · intro he
      subst he
      exact absurd h hu
  · rfl

/-- A server in the `C` locale: code point order and ASCII case mapping. -/
def cLocale : Server where
  lower := asciiLower
  lower_nul _ := asciiLower_eq (by decide) (by decide)
  lower_pattern m hm _ := by
    simp only [List.mem_cons, List.not_mem_nil, or_false] at hm
    rcases hm with rfl | rfl | rfl <;> exact asciiLower_eq (by decide) (by decide)
  order := LinearOrder.lift' Text.chars fun _ _ h => Text.ext h
  md5 _ := []

end SqlText
