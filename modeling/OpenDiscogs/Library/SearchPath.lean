import OpenDiscogs.Library.Utf8

/-! A search path: names between commas, each in double quotes or without. -/
namespace SearchPath
open Utf8

/-- The names of PostgreSQL have at most so many bytes. -/
def maximumNameLength := 63

/-- The bytes that follow the first one of a character. -/
def continuation (b : UInt8) : Bool := 0x80 ≤ b && b ≤ 0xBF

/-- The last place up to one where a character starts. -/
def boundary (name : Bytes) : Nat → Nat
  | 0 => 0
  | n+1 => if continuation (name.getD (n+1) 0) then boundary name n else n+1

/-- A name without the characters that are too many. -/
def truncate (name : Bytes) : Bytes := name.take (boundary name maximumNameLength)

/-- A name without quotes is read in small letters. -/
def fold (name : Bytes) : Bytes :=
  name.map fun b => if 0x41 ≤ b ∧ b ≤ 0x5A then b+0x20 else b

def space (b : UInt8) : Bool := b == 0x20 || 0x09 ≤ b && b ≤ 0x0D

/-- Where the reading of a search path stands. -/
inductive Place where
  | first
  | next
  | quoted (name : Bytes)
  | quote (name : Bytes)
  | plain (name : Bytes)
  | behind

/-- Behind a name there is white space, or a comma. -/
def afterName (b : UInt8) : Option Place :=
  if space b then some .behind
  else if b = 0x2C then some .next
  else none

/-- Before a name there can be white space. -/
def beforeName (place : Place) (b : UInt8) : Option Place :=
  if space b then some place
  else if b = 0x22 then some (.quoted [])
  else if b = 0x2C then none
  else some (.plain [b])

/-- One byte further: the names that are complete, and where the reading stands then. -/
def step (names : List Bytes) (b : UInt8) : Place → Option (List Bytes × Place)
  | .first => (beforeName .first b).map fun place => (names, place)
  | .next => (beforeName .next b).map fun place => (names, place)
  | .quoted name => some (names, if b = 0x22 then .quote name else .quoted (name ++ [b]))
  | .quote name =>
    -- two quotes stand for one that is part of the name
    if b = 0x22 then some (names, .quoted (name ++ [b]))
    else (afterName b).map fun place => (names ++ [truncate name], place)
  | .plain name =>
    match afterName b with
    | some place => some (names ++ [truncate (fold name)], place)
    | none => some (names, .plain (name ++ [b]))
  | .behind => (afterName b).map fun place => (names, place)

/-- The names at the end of the text. -/
def finish (names : List Bytes) : Place → Option (List Bytes)
  | .first => some names
  | .next => none
  | .quoted _ => none
  | .quote name => some (names ++ [truncate name])
  | .plain name => some (names ++ [truncate (fold name)])
  | .behind => some names

def readNames (names : List Bytes) (place : Place) : Bytes → Option (List Bytes)
  | [] => finish names place
  | b::s => (step names b place).bind fun next => readNames next.1 next.2 s

/-- The names on a search path. -/
def read (path : Bytes) : Option (List Bytes) := readNames [] .first path

/-- A name in double quotes, as it is. -/
def enclose (name : Bytes) : Bytes := 0x22::(name ++ [0x22])

theorem boundary_length {name : Bytes} {n : Nat} (h : name.length ≤ n) :
    name.length ≤ boundary name n := by
  cases n with
  | zero => exact h
  | succ n =>
    have hlast : name.getD (n+1) 0 = 0 := by
      rw [List.getD_eq_getElem?_getD, List.getElem?_eq_none (by omega)]
      rfl
    rw [boundary, hlast]
    exact h

/-- A short name is kept whole. -/
theorem truncate_short {name : Bytes} (h : name.length ≤ maximumNameLength) :
    truncate name = name :=
  List.take_of_length_le (boundary_length h)

/-- Inside of quotes all bytes but a quote belong to the name. -/
theorem readNames_quoted {names : List Bytes} {inner : Bytes} (h : 0x22 ∉ inner)
    (name rest : Bytes) :
    readNames names (.quoted name) (inner ++ rest) =
      readNames names (.quoted (name ++ inner)) rest := by
  induction inner generalizing name with
  | nil => simp
  | cons b inner ih =>
    obtain ⟨hb, hinner⟩ := not_or.mp (mt List.mem_cons.mpr h)
    have hne : b ≠ 0x22 := fun he => hb he.symm
    simp only [List.cons_append, readNames, step, hne, if_false, Option.bind_some]
    rw [ih hinner, List.append_assoc]
    rfl

/-- A short name without a quote, in quotes, is the only one on its path. -/
theorem read_enclose {name : Bytes} (h : 0x22 ∉ name) (hlen : name.length ≤ maximumNameLength) :
    read (enclose name) = some [name] := by
  have hopen : read (enclose name) = readNames [] (.quoted []) (name ++ [0x22]) := rfl
  have hclose : readNames [] (.quoted name) [0x22] = some [truncate name] := rfl
  rw [hopen, readNames_quoted h, List.nil_append, hclose, truncate_short hlen]

end SearchPath
