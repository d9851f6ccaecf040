import Mathlib.Algebra.Ring.Int.Defs
import Mathlib.Algebra.Ring.Nat
import OpenDiscogs.Library.Utf8

/-! Numerals and booleans as byte strings: writing integers in base ten and reading them in a
given base, or in the base that the numeral's own prefix names. -/
namespace Strconv
open Utf8

def digitByte (d : Nat) : UInt8 := UInt8.ofNat (0x30+d)

def formatNat (n : Nat) : Bytes := (Nat.toDigits 10 n).map fun c => UInt8.ofNat c.toNat

def formatInt (n : Int) : Bytes :=
  if n < 0 then 0x2D::formatNat n.natAbs else formatNat n.natAbs

/-- The letter's lower case, and a byte that is no letter either before or after otherwise. -/
def lower (b : UInt8) : UInt8 := b ||| 0x20

/-- The value of a digit or letter in base 36. -/
def digitValue (b : UInt8) : Option Nat :=
  if 0x30 ≤ b ∧ b ≤ 0x39 then some (b.toNat-0x30)
  else if 0x61 ≤ lower b ∧ lower b ≤ 0x7A then some ((lower b).toNat-0x61+10)
  else none

/-- Digits read into an accumulator; underscores are skipped where they are allowed. -/
def parseDigits (base : Nat) (underscores : Bool) : Nat → Bytes → Option Nat
  | n, [] => some n
  | n, b::s =>
    if b = 0x5F ∧ underscores then parseDigits base underscores n s
    else match digitValue b with
      | some d => if d < base then parseDigits base underscores (n*base+d) s else none
      | none => none

/-- The base a numeral's prefix names, and the digits after the prefix. -/
def detectBase : Bytes → Nat × Bytes
  | 0x30::b::c::s =>
    if lower b = 0x62 then (2, c::s)
    else if lower b = 0x6F then (8, c::s)
    else if lower b = 0x78 then (16, c::s)
    else (8, b::c::s)
  | 0x30::s => (8, s)
  | s => (10, s)

/-- What a scan for misplaced underscores saw last. -/
inductive Seen where
  | start | digit | underscore | other
deriving DecidableEq

def underscoreScan (hex : Bool) : Seen → Bytes → Bool
  | seen, [] => seen != .underscore
  | seen, b::s =>
    if (0x30 ≤ b ∧ b ≤ 0x39) ∨ (hex ∧ 0x61 ≤ lower b ∧ lower b ≤ 0x66) then
      underscoreScan hex .digit s
    else if b = 0x5F then
      if seen = .digit then underscoreScan hex .underscore s else false
    else if seen = .underscore then false
    else underscoreScan hex .other s

/-- Underscores separate digits only, one at a time; a base prefix counts as a digit. -/
def underscoreOK : Bytes → Bool
  | 0x30::b::s =>
    if lower b = 0x62 ∨ lower b = 0x6F ∨ lower b = 0x78 then
      underscoreScan (lower b = 0x78) .digit s
    else underscoreScan false .start (0x30::b::s)
  | s => underscoreScan false .start s

/-- Base zero asks for the base the prefix names; numerals past the bit size are refused. -/
def parseUint (s : Bytes) (base bitSize : Nat) : Option Nat :=
  if s = [] then none
  else
    let (radix, digits) := if base = 0 then detectBase s else (base, s)
    match parseDigits radix (base = 0) 0 digits with
    | some n =>
      if base = 0 ∧ 0x5F ∈ s ∧ ¬underscoreOK s then none
      else if n < 2^bitSize then some n else none
    | none => none

def parseInt (s : Bytes) (base bitSize : Nat) : Option Int :=
  match s with
  | 0x2D::t =>
    match parseUint t base bitSize with
    | some n => if n ≤ 2^(bitSize-1) then some (-n) else none
    | none => none
  | 0x2B::t =>
    match parseUint t base bitSize with
    | some n => if n < 2^(bitSize-1) then some n else none
    | none => none
  | t =>
    match parseUint t base bitSize with
    | some n => if n < 2^(bitSize-1) then some n else none
    | none => none

/-- Whether a numeral has a minus, and the numeral without its sign. -/
def splitSign : Bytes → Bool × Bytes
  | 0x2D::s => (true, s)
  | 0x2B::s => (false, s)
  | s => (false, s)

def atoi (s : Bytes) : Option Int := parseInt s 10 64

def parseBool (s : Bytes) : Option Bool :=
  if s ∈ ["1", "t", "T", "TRUE", "true", "True"].map lit then some true
  else if s ∈ ["0", "f", "F", "FALSE", "false", "False"].map lit then some false
  else none

theorem digitByte_char : ∀ d < 10, UInt8.ofNat (Nat.digitChar d).toNat = digitByte d := by decide

theorem digitByte_range : ∀ d < 10, 0x30 ≤ digitByte d ∧ digitByte d ≤ 0x39 := by decide

theorem digitValue_digitByte : ∀ d < 10, digitValue (digitByte d) = some d := by decide

theorem formatNat_small {n : Nat} (h : n < 10) : formatNat n = [digitByte n] := by
  rw [formatNat, Nat.toDigits_of_lt_base h, List.map_singleton, digitByte_char n h]

theorem formatNat_step {n : Nat} (h : 10 ≤ n) :
    formatNat n = formatNat (n/10) ++ [digitByte (n%10)] := by
  have hm := formatNat_small (Nat.mod_lt n (by omega : 0 < 10))
  have hd : Nat.toDigits 10 n = Nat.toDigits 10 (n/10) ++ Nat.toDigits 10 (n%10) := by
    rw [Nat.toDigits_append_toDigits (by omega) (by omega) (Nat.mod_lt n (by omega)),
      Nat.div_add_mod]
  rw [formatNat, hd, List.map_append, ← hm]
  rfl

theorem formatNat_ne_nil (n : Nat) : formatNat n ≠ [] := by
  rw [formatNat]
  simp [Nat.toDigits_ne_nil]

/-- Every byte of a written number is one of the ten digits. -/
theorem formatNat_digits (n : Nat) : ∀ b ∈ formatNat n, 0x30 ≤ b ∧ b ≤ 0x39 := by
  induction n using Nat.strongRecOn with
  | _ n ih =>
    intro b hb
    by_cases h : n < 10
    · rw [formatNat_small h, List.mem_singleton] at hb
      exact hb ▸ digitByte_range n h
    · rw [formatNat_step (by omega), List.mem_append, List.mem_singleton] at hb
      obtain hb | hb := hb
      · exact ih (n/10) (by omega) b hb
      · exact hb ▸ digitByte_range (n%10) (Nat.mod_lt n (by omega))

theorem parseDigits_append (base : Nat) (u : Bool) (n : Nat) (s t : Bytes) :
    parseDigits base u n (s ++ t) = (parseDigits base u n s).bind (parseDigits base u · t) := by
  induction s generalizing n with
  | nil => rfl
  | cons b s ih =>
    simp only [List.cons_append, parseDigits]
    split
    · exact ih n
    · cases digitValue b with
      | none => rfl
      | some d =>
        simp only
        split
        · exact ih _
        · rfl

theorem parseDigits_formatNat (n : Nat) : parseDigits 10 false 0 (formatNat n) = some n := by
  induction n using Nat.strongRecOn with
  | _ n ih =>
    by_cases h : n < 10
    · simp [formatNat_small h, parseDigits, digitValue_digitByte n h, h]
    · have hm := Nat.mod_lt n (by omega : 0 < 10)
      rw [formatNat_step (by omega), parseDigits_append, ih (n/10) (by omega), Option.bind_some]
      simp only [parseDigits, digitValue_digitByte _ hm, hm]
      simp only [Bool.false_eq_true, and_false, if_false, if_true, Option.some.injEq]
      omega

theorem parseUint_formatNat (n bitSize : Nat) :
    parseUint (formatNat n) 10 bitSize = if n < 2^bitSize then some n else none := by
  simp [parseUint, formatNat_ne_nil, parseDigits_formatNat]

/-- A numeral that starts with a digit is read without a sign. -/
theorem parseInt_unsigned {s : Bytes} {base bitSize : Nat} {b : UInt8} (hs : s.head? = some b)
    (h : b ≠ 0x2D ∧ b ≠ 0x2B) : parseInt s base bitSize =
      match parseUint s base bitSize with
      | some n => if n < 2^(bitSize-1) then some (n : Int) else none
      | none => none := by
  unfold parseInt
  split
  · simp at hs; exact absurd hs.symm h.1
  · simp at hs; exact absurd hs.symm h.2
  · rfl

theorem formatNat_head (n : Nat) :
    ∃ b, (formatNat n).head? = some b ∧ 0x30 ≤ b ∧ b ≤ 0x39 := by
  obtain ⟨b, s, hs⟩ := List.exists_cons_of_ne_nil (formatNat_ne_nil n)
  exact ⟨b, by rw [hs]; rfl, formatNat_digits n b (by rw [hs]; simp)⟩

/-- Reading a written integer gives it back, when it fits. -/
theorem parseInt_formatInt {n : Int} {bitSize : Nat} (hb : 0 < bitSize)
    (hl : -(2^(bitSize-1) : Nat) ≤ n) (hu : n < (2^(bitSize-1) : Nat)) :
    parseInt (formatInt n) 10 bitSize = some n := by
  have hpow : 2^bitSize = 2^(bitSize-1)*2 := (Nat.two_pow_pred_mul_two hb).symm
  have hpos : 0 < 2^(bitSize-1) := Nat.pow_pos (by omega)
  have hfit : n.natAbs < 2^bitSize := by omega
  have hu' : parseUint (formatNat n.natAbs) 10 bitSize = some n.natAbs := by
    rw [parseUint_formatNat, if_pos hfit]
  by_cases hn : n < 0
  · have hle : n.natAbs ≤ 2^(bitSize-1) := by omega
    have habs : -(n.natAbs : Int) = n := by omega
    simp only [formatInt, hn, if_true, parseInt, hu', hle, habs]
  · obtain ⟨b, hhead, hlo, hhi⟩ := formatNat_head n.natAbs
    have hsign : b ≠ 0x2D ∧ b ≠ 0x2B := by
      constructor <;> (rintro rfl; revert hlo; decide)
    have hlt : n.natAbs < 2^(bitSize-1) := by omega
    have habs : (n.natAbs : Int) = n := by omega
    simp only [formatInt, hn, if_false]
    rw [parseInt_unsigned hhead hsign, hu']
    simp [hlt, habs]

theorem formatInt_ne_nil (n : Int) : formatInt n ≠ [] := by
  unfold formatInt
  split
  · exact List.cons_ne_nil _ _
  · exact formatNat_ne_nil _

/-- Signs and digits are visible. -/
theorem formatInt_visible (n : Int) : ∀ b ∈ formatInt n, 0x20 < b ∧ b < 0x7F := by
  have hdigits : ∀ b ∈ formatNat n.natAbs, 0x20 < b ∧ b < 0x7F := fun b hb =>
    have hd := formatNat_digits n.natAbs b hb
    ⟨UInt8.lt_of_lt_of_le (by decide) hd.1, UInt8.lt_of_le_of_lt hd.2 (by decide)⟩
  intro b hb
  unfold formatInt at hb
  split at hb
  · obtain rfl | hb := List.mem_cons.mp hb
    · decide
    · exact hdigits b hb
  · exact hdigits b hb

/-- A written integer is not blank. -/
theorem trimSpace_formatInt (n : Int) : trimSpace (formatInt n) ≠ [] := by
  obtain ⟨b, s, hs⟩ := List.exists_cons_of_ne_nil (formatInt_ne_nil n)
  rw [hs]
  exact trimSpace_visible (formatInt_visible n b (by rw [hs]; simp)) s

/-- Only digits. -/
def Decimal (s : Bytes) : Prop := ∀ b ∈ s, 0x30 ≤ b ∧ b ≤ 0x39

theorem digitValue_decimal {b : UInt8} {d : Nat} (h : digitValue b = some d) (hd : d < 10) :
    0x30 ≤ b ∧ b ≤ 0x39 := by
  unfold digitValue at h
  split at h
  · assumption
  · split at h
    · cases h
      omega
    · cases h

theorem parseDigits_decimal {n m : Nat} {s : Bytes} (h : parseDigits 10 false n s = some m) :
    Decimal s := by
  induction s generalizing n with
  | nil => simp [Decimal]
  | cons b s ih =>
    simp only [parseDigits, Bool.false_eq_true, and_false, if_false] at h
    split at h
    · next d hd =>
      split at h
      · next hlt =>
        intro c hc
        obtain rfl | hc := List.mem_cons.mp hc
        · exact digitValue_decimal hd hlt
        · exact ih h c hc
      · cases h
    · cases h

theorem parseUint_decimal {s : Bytes} {bitSize n : Nat} (h : parseUint s 10 bitSize = some n) :
    Decimal s := by
  unfold parseUint at h
  split at h
  · cases h
  · simp only [OfNat.ofNat_ne_zero, if_false, decide_false] at h
    split at h
    · next m hm => exact parseDigits_decimal hm
    · cases h

/-- A number read in base ten is spelled by a sign, if any, and digits. -/
theorem parseInt_decimal {s : Bytes} {bitSize : Nat} {n : Int}
    (h : parseInt s 10 bitSize = some n) :
    ∃ t, Decimal t ∧ (s = t ∨ s = 0x2D::t ∨ s = 0x2B::t) := by
  unfold parseInt at h
  split at h
  · next t =>
    split at h
    · next m hm => exact ⟨t, parseUint_decimal hm, Or.inr (Or.inl rfl)⟩
    · cases h
  · next t =>
    split at h
    · next m hm => exact ⟨t, parseUint_decimal hm, Or.inr (Or.inr rfl)⟩
    · cases h
  · split at h
    · next m hm => exact ⟨s, parseUint_decimal hm, Or.inl rfl⟩
    · cases h

theorem parseInt_semicolon {s : Bytes} {bitSize : Nat} (hm : 0x3B ∈ s) :
    parseInt s 10 bitSize = none := by
  cases h : parseInt s 10 bitSize with
  | none => rfl
  | some n =>
    obtain ⟨t, ht, hs⟩ := parseInt_decimal h
    have hno : 0x3B ∉ t := fun hmem => absurd (ht _ hmem).2 (by decide)
    obtain rfl | rfl | rfl := hs
    · exact absurd hm hno
    · exact absurd hm (by simpa using hno)
    · exact absurd hm (by simpa using hno)

theorem parseBool_semicolon {s : Bytes} (hm : 0x3B ∈ s) : parseBool s = none := by
  have htrue : s ∉ ["1", "t", "T", "TRUE", "true", "True"].map lit := fun h =>
    absurd hm ((by decide : ∀ t ∈ ["1", "t", "T", "TRUE", "true", "True"].map lit, 0x3B ∉ t) s h)
  have hfalse : s ∉ ["0", "f", "F", "FALSE", "false", "False"].map lit := fun h =>
    absurd hm ((by decide : ∀ t ∈ ["0", "f", "F", "FALSE", "false", "False"].map lit, 0x3B ∉ t) s h)
  rw [parseBool, if_neg htrue, if_neg hfalse]

theorem visible_digit {b : UInt8} (h : 0x30 ≤ b ∧ b ≤ 0x39) : Visible b :=
  ⟨UInt8.lt_of_lt_of_le (by decide) h.1, UInt8.lt_of_le_of_lt h.2 (by decide)⟩

/-- Letters in either case are visible. -/
theorem visible_letter {b : UInt8} (h : 0x61 ≤ lower b ∧ lower b ≤ 0x7A) : Visible b := by
  have hletter : ∀ b, 0x61 ≤ lower b ∧ lower b ≤ 0x7A → Visible b := forall_byte (by decide)
  exact hletter b h

theorem digitValue_visible {b : UInt8} {d : Nat} (h : digitValue b = some d) : Visible b := by
  unfold digitValue at h
  split at h
  · next hb => exact visible_digit hb
  · split at h
    · next hb => exact visible_letter hb
    · cases h

theorem splitSign_noSpace {s : Bytes} (h : NoSpace (splitSign s).2) : NoSpace s := by
  unfold splitSign at h
  split at h
  · exact NoSpace.cons (by decide) h
  · exact NoSpace.cons (by decide) h
  · exact h

theorem parseDigits_noSpace {base n m : Nat} {u : Bool} {s : Bytes}
    (h : parseDigits base u n s = some m) : NoSpace s := by
  induction s generalizing n with
  | nil => exact noSpace_nil
  | cons b s ih =>
    simp only [parseDigits] at h
    split at h
    · next hb => exact NoSpace.cons (hb.1 ▸ by decide) (ih h)
    · split at h
      · next d hd =>
        split at h
        · exact NoSpace.cons (digitValue_visible hd) (ih h)
        · cases h
      · cases h

theorem detectBase_noSpace {s : Bytes} (h : NoSpace (detectBase s).2) : NoSpace s := by
  unfold detectBase at h
  split at h
  · next b c t =>
    have hzero : Visible 0x30 := by decide
    split at h
    · next hb => exact NoSpace.cons hzero (NoSpace.cons (visible_letter (hb ▸ by decide)) h)
    · split at h
      · next hb => exact NoSpace.cons hzero (NoSpace.cons (visible_letter (hb ▸ by decide)) h)
      · split at h
        · next hb => exact NoSpace.cons hzero (NoSpace.cons (visible_letter (hb ▸ by decide)) h)
        · exact NoSpace.cons hzero h
  · exact NoSpace.cons (by decide) h
  · exact h

theorem parseUint_noSpace {s : Bytes} {base bitSize n : Nat} (h : parseUint s base bitSize = some n) :
    NoSpace s := by
  unfold parseUint at h
  split at h
  · cases h
  · simp only at h
    split at h
    · next m hm =>
      split at hm
      · exact detectBase_noSpace (parseDigits_noSpace hm)
      · exact parseDigits_noSpace hm
    · cases h

/-- What is read as an integer has no white space. -/
theorem parseInt_noSpace {s : Bytes} {base bitSize : Nat} {n : Int}
    (h : parseInt s base bitSize = some n) : NoSpace s := by
  unfold parseInt at h
  split at h
  · split at h
    · next hm => exact NoSpace.cons (by decide) (parseUint_noSpace hm)
    · cases h
  · split at h
    · next hm => exact NoSpace.cons (by decide) (parseUint_noSpace hm)
    · cases h
  · split at h
    · next hm => exact parseUint_noSpace hm
    · cases h

theorem parseBool_noSpace {s : Bytes} {b : Bool} (h : parseBool s = some b) : NoSpace s := by
  have htrue : ∀ t ∈ ["1", "t", "T", "TRUE", "true", "True"].map lit, ∀ c ∈ t, Visible c := by
    decide +kernel
  have hfalse : ∀ t ∈ ["0", "f", "F", "FALSE", "false", "False"].map lit, ∀ c ∈ t, Visible c := by
    decide +kernel
  unfold parseBool at h
  split at h
  · next hs => exact noSpace_visible (htrue s hs)
  · split at h
    · next hs => exact noSpace_visible (hfalse s hs)
    · cases h

/-- A numeral of at least two digits behind leading zeros. -/
def paddedNumeral (s : Bytes) : Bool :=
  let t := (splitSign s).2
  t.head? = some 0x30 && 2 ≤ (t.dropWhile (· == 0x30)).length

theorem parseDigits_cons {base n : Nat} {u : Bool} {b : UInt8} {s : Bytes} (hb : b ≠ 0x5F) :
    parseDigits base u n (b::s) = match digitValue b with
      | some d => if d < base then parseDigits base u (n*base+d) s else none
      | none => none := by
  simp only [parseDigits, hb, false_and, if_false]

theorem decimal_cons {b : UInt8} {s : Bytes} (h : Decimal (b::s)) : b ≠ 0x5F ∧ Decimal s := by
  refine ⟨?_, fun c hc => h c (List.mem_cons_of_mem b hc)⟩
  intro he
  subst he
  exact absurd (h 0x5F (List.mem_cons_self ..)).2 (by decide)

/-- A digit read in both bases goes to both accumulators. -/
theorem parseDigits_both {u : Bool} {x y a b : Nat} {c : UInt8} {s : Bytes}
    (ha : parseDigits 8 u x (c::s) = some a) (hb : parseDigits 10 false y (c::s) = some b)
    (hc : c ≠ 0x5F) : ∃ d, digitValue c = some d ∧ parseDigits 8 u (x*8+d) s = some a ∧
      parseDigits 10 false (y*10+d) s = some b := by
  rw [parseDigits_cons hc] at ha hb
  split at ha
  · next d hd =>
    rw [hd] at hb
    simp only at hb
    split at ha
    · split at hb
      · exact ⟨d, hd, ha, hb⟩
      · cases hb
    · cases ha
  · cases ha

/-- The same digits are less in base eight, once what stands before them is. -/
theorem parseDigits_octal_lt {u : Bool} {x y a b : Nat} {s : Bytes} (hxy : x < y)
    (ha : parseDigits 8 u x s = some a) (hb : parseDigits 10 false y s = some b) (hs : Decimal s) :
    a < b := by
  induction s generalizing x y with
  | nil =>
    cases ha
    cases hb
    exact hxy
  | cons c s ih =>
    obtain ⟨hc, hs⟩ := decimal_cons hs
    obtain ⟨d, -, ha, hb⟩ := parseDigits_both ha hb hc
    exact ih (by omega) ha hb hs

theorem digitValue_zero {b : UInt8} (h : 0x30 ≤ b ∧ b ≤ 0x39) (hd : digitValue b = some 0) :
    b = 0x30 := by
  have hle : b.toNat - 0x30 = 0 := by
    rw [digitValue, if_pos h, Option.some.injEq] at hd
    exact hd
  have hlo : 0x30 ≤ b.toNat := h.1
  exact UInt8.toNat_inj.mp (by simpa using (by omega : b.toNat = 0x30))

/-- Digits mean the same in base eight and in base ten when at most one of them counts. -/
theorem parseDigits_octal_eq {u : Bool} {a b : Nat} {s : Bytes} (hs : Decimal s)
    (ha : parseDigits 8 u 0 s = some a) (hb : parseDigits 10 false 0 s = some b) :
    a = b ↔ (s.dropWhile (· == 0x30)).length < 2 := by
  induction s with
  | nil =>
    cases ha
    cases hb
    simp
  | cons c s ih =>
    have hdigit := hs c (List.mem_cons_self ..)
    obtain ⟨hc, hrest⟩ := decimal_cons hs
    obtain ⟨d, hd, ha, hb⟩ := parseDigits_both ha hb hc
    by_cases hzero : c = 0x30
    · subst hzero
      cases hd
      rw [List.dropWhile_cons_of_pos (by decide)]
      exact ih hrest ha hb
    · have hpos : 0 < d := Nat.pos_of_ne_zero fun h0 => hzero (digitValue_zero hdigit (h0 ▸ hd))
      rw [List.dropWhile_cons_of_neg (by simpa using hzero)]
      cases s with
      | nil =>
        simp only [parseDigits, Option.some.injEq] at ha hb
        simp only [List.length_singleton]
        omega
      | cons e s =>
        obtain ⟨he, hs⟩ := decimal_cons hrest
        obtain ⟨f, -, ha, hb⟩ := parseDigits_both ha hb he
        have hlt := parseDigits_octal_lt (by omega) ha hb hs
        simp only [List.length_cons]
        omega

theorem lower_digit {b : UInt8} (h : 0x30 ≤ b ∧ b ≤ 0x39) : lower b = b := by
  have hdigit : ∀ b, 0x30 ≤ b ∧ b ≤ 0x39 → lower b = b := forall_byte (by decide)
  exact hdigit b h

/-- Digits that start with a zero are octal. -/
theorem detectBase_zero {s : Bytes} (hs : Decimal s) : detectBase (0x30::s) = (8, s) := by
  match s with
  | [] => rfl
  | [b] => rfl
  | b::c::t =>
    have hb := hs b (List.mem_cons_self ..)
    have hplain : lower b ≠ 0x62 ∧ lower b ≠ 0x6F ∧ lower b ≠ 0x78 := by
      rw [lower_digit hb]
      refine ⟨?_, ?_, ?_⟩ <;> (rintro rfl; exact absurd hb.2 (by decide))
    simp only [detectBase, hplain.1, hplain.2.1, hplain.2.2, if_false]

theorem detectBase_nonzero {s : Bytes} (h : s.head? ≠ some 0x30) : detectBase s = (10, s) := by
  unfold detectBase
  split
  · exact absurd rfl h
  · exact absurd rfl h
  · rfl

/-- Without an underscore it does not matter whether they are allowed. -/
theorem parseDigits_underscores {base n : Nat} {s : Bytes} (hs : Decimal s) :
    parseDigits base true n s = parseDigits base false n s := by
  induction s generalizing n with
  | nil => rfl
  | cons b s ih =>
    obtain ⟨hb, hs⟩ := decimal_cons hs
    rw [parseDigits_cons hb, parseDigits_cons hb]
    split
    · split
      · exact ih hs
      · rfl
    · rfl

theorem parseUint_eq_some {s : Bytes} {base bitSize n : Nat} (h : parseUint s base bitSize = some n) :
    parseDigits (if base = 0 then detectBase s else (base, s)).1 (base = 0) 0
      (if base = 0 then detectBase s else (base, s)).2 = some n := by
  unfold parseUint at h
  split at h
  · cases h
  · simp only at h
    split at h
    · next m hm =>
      split at h
      · cases h
      · split at h
        · cases h
          exact hm
        · cases h
    · cases h

theorem parseUint_detect_eq {s : Bytes} {bitSize a b : Nat} (ha : parseUint s 0 bitSize = some a)
    (hb : parseUint s 10 bitSize = some b) :
    a = b ↔ ¬(s.head? = some 0x30 ∧ 2 ≤ (s.dropWhile (· == 0x30)).length) := by
  have hs := parseUint_decimal hb
  have ha := parseUint_eq_some ha
  have hb := parseUint_eq_some hb
  simp only [if_true, OfNat.ofNat_ne_zero, if_false, decide_true, decide_false] at ha hb
  by_cases hhead : s.head? = some 0x30
  · obtain ⟨t, rfl⟩ := List.head?_eq_some_iff.mp hhead
    have ht : Decimal t := fun c hc => hs c (List.mem_cons_of_mem _ hc)
    have hzero : parseDigits 10 false 0 t = some b := hb
    rw [detectBase_zero ht] at ha
    rw [parseDigits_octal_eq ht ha hzero, List.dropWhile_cons_of_pos (by decide)]
    simp
  · rw [detectBase_nonzero hhead, parseDigits_underscores hs, hb, Option.some.injEq] at ha
    simp [hhead, ha]

/-- The integer of a sign and digits. -/
def signed (negative : Bool) (n : Nat) : Int := if negative then -n else n

/-- A numeral is read by its digits, and may go one further down than up. -/
theorem parseInt_eq_some {s : Bytes} {base bitSize : Nat} {n : Int} :
    parseInt s base bitSize = some n ↔ ∃ k, parseUint (splitSign s).2 base bitSize = some k ∧
      (if (splitSign s).1 then k ≤ 2^(bitSize-1) else k < 2^(bitSize-1)) ∧
      n = signed (splitSign s).1 k := by
  unfold parseInt splitSign
  split
  all_goals
    simp only [signed, if_true, if_false, Bool.false_eq_true]
    cases parseUint _ base bitSize with
    | none => simp
    | some k =>
      split
      · next hk => simp [hk, eq_comm]
      · next hk => simp [hk]

/-- The integer that a signed decimal numeral spells, however large. -/
def decimalValue (s : Bytes) : Option Int :=
  if (splitSign s).2 = [] then none
  else (parseDigits 10 false 0 (splitSign s).2).map (signed (splitSign s).1)

theorem decimalValue_eq_some {s : Bytes} {n : Int} : decimalValue s = some n ↔
    (splitSign s).2 ≠ [] ∧ ∃ k, parseDigits 10 false 0 (splitSign s).2 = some k ∧
      n = signed (splitSign s).1 k := by
  unfold decimalValue
  split
  · next hnil => simp [hnil]
  · next hnil =>
    rw [Option.map_eq_some_iff]
    simp only [ne_eq, hnil, not_false_iff, true_and, @eq_comm _ n]

theorem parseUint_eq_decimal {s : Bytes} {bitSize n : Nat} : parseUint s 10 bitSize = some n ↔
    s ≠ [] ∧ parseDigits 10 false 0 s = some n ∧ n < 2^bitSize := by
  unfold parseUint
  simp only [OfNat.ofNat_ne_zero, if_false, decide_false, false_and]
  by_cases hnil : s = []
  · simp [hnil]
  · cases parseDigits 10 false 0 s with
    | none => simp [hnil]
    | some k =>
      simp only [hnil, if_false, ne_eq, not_false_iff, true_and, Option.some.injEq]
      split
      · next hk => simp only [Option.some.injEq, iff_self_and]; exact fun he => he ▸ hk
      · next hk => simp only [reduceCtorEq, false_iff, not_and]; exact fun he => he ▸ hk

/-- Reading a decimal numeral gives the integer it spells, if that fits, and nothing else. -/
theorem parseInt_eq_decimal {s : Bytes} {bitSize : Nat} (hb : 0 < bitSize) {n : Int} :
    parseInt s 10 bitSize = some n ↔
      decimalValue s = some n ∧ -(2^(bitSize-1) : Nat) ≤ n ∧ n < (2^(bitSize-1) : Nat) := by
  have hpow : 2^bitSize = 2^(bitSize-1)*2 := (Nat.two_pow_pred_mul_two hb).symm
  have hpos : 0 < 2^(bitSize-1) := Nat.pow_pos (by omega)
  -- the bound of the sign is the bound of the range, and within that of the digits
  have hrange : ∀ k : Nat, (k < 2^bitSize ∧
      if (splitSign s).1 then k ≤ 2^(bitSize-1) else k < 2^(bitSize-1)) ↔
      -(2^(bitSize-1) : Nat) ≤ signed (splitSign s).1 k ∧
        signed (splitSign s).1 k < (2^(bitSize-1) : Nat) := by
    intro k
    rw [hpow, signed]
    generalize 2^(bitSize-1) = half at *
    cases (splitSign s).1 <;> simp only [if_true, if_false, Bool.false_eq_true] <;> omega
  rw [parseInt_eq_some, decimalValue_eq_some]
  constructor
  · intro h
    obtain ⟨k, hk, hbound, rfl⟩ := h
    obtain ⟨hnil, hdigits, hlt⟩ := parseUint_eq_decimal.mp hk
    exact ⟨⟨hnil, k, hdigits, rfl⟩, (hrange k).mp ⟨hlt, hbound⟩⟩
  · intro h
    obtain ⟨⟨hnil, k, hdigits, rfl⟩, hfit⟩ := h
    obtain ⟨hlt, hbound⟩ := (hrange k).mpr hfit
    exact ⟨k, parseUint_eq_decimal.mpr ⟨hnil, hdigits, hlt⟩, hbound, rfl⟩

/-- An integer that is read with and without detecting its base is the same one unless zeros pad
it. -/
theorem parseInt_detect_eq {s : Bytes} {bitSize : Nat} {n m : Int}
    (hn : parseInt s 0 bitSize = some n) (hm : parseInt s 10 bitSize = some m) :
    n = m ↔ paddedNumeral s = false := by
  obtain ⟨k, hk, -, rfl⟩ := parseInt_eq_some.mp hn
  obtain ⟨j, hj, -, rfl⟩ := parseInt_eq_some.mp hm
  have hsign : signed (splitSign s).1 k = signed (splitSign s).1 j ↔ k = j := by
    unfold signed
    split <;> omega
  rw [hsign, parseUint_detect_eq hk hj]
  simp [paddedNumeral]

end Strconv
