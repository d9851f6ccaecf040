import OpenDiscogs.Library.Strconv

/-! Double precision numbers: their bits, their order, exact results rounded to the nearest of
them, and the texts that are read as one. -/

/-- A sign, and the bits of the exponent and the fraction. -/
structure Float64 where
  negative : Bool
  bits : Nat
  valid : bits < 2^63
deriving DecidableEq

namespace Float64

/-- The bits of an infinity; those above it are no numbers. -/
def infiniteBits := 2047*2^52

def isNaN (x : Float64) : Bool := infiniteBits < x.bits

def isInf (x : Float64) : Bool := x.bits = infiniteBits

def nan : Float64 := ⟨false, infiniteBits+2^51+1, by decide⟩

def infinity (negative : Bool) : Float64 := ⟨negative, infiniteBits, by decide⟩

def zero (negative : Bool) : Float64 := ⟨negative, 0, by decide⟩

/-- The absolute value of a finite number in units of the least positive one. -/
def scaled (x : Float64) : Nat :=
  if x.bits < 2^52 then x.bits else (2^52+x.bits%2^52) * 2^(x.bits/2^52-1)

/-- The number of those units in one. -/
def unit := 2^1074

/-- The bits order absolute values, and the two zeros are one value. -/
def key (x : Float64) : Int := if x.negative then -x.bits else x.bits

/-- Comparisons with what is no number are false. -/
def lt (x y : Float64) : Bool := !x.isNaN && !y.isNaN && x.key < y.key

def le (x y : Float64) : Bool := !x.isNaN && !y.isNaN && x.key ≤ y.key

/-- What is neither below one number nor above another is between them, or no number. -/
theorem between_iff {x lo hi : Float64} (hlo : lo.isNaN = false) (hhi : hi.isNaN = false)
    (hbelow : x.lt lo = false) (habove : hi.lt x = false) :
    lo.le x = true ∧ x.le hi = true ↔ x.isNaN = false := by
  cases hx : x.isNaN with
  | true => simp [le, hx]
  | false =>
    simp only [lt, hx, hlo, hhi, Bool.not_false, Bool.true_and, decide_eq_false_iff_not,
      Int.not_lt] at hbelow habove
    simp [le, hx, hlo, hhi, hbelow, habove]

/-- The integer nearest to a fraction, the even one of two that are as near. -/
def roundHalfEven (n d : Nat) : Nat :=
  if 2*(n%d) < d then n/d
  else if d < 2*(n%d) then n/d+1
  else n/d+n/d%2

/-- The bits of the number nearest to a fraction. A carry out of the significand moves into the
exponent, and the exponent past the last one is that of an infinity. -/
def roundBits (n d : Nat) : Nat :=
  let shift := (n*unit/d).log2-52
  min (shift*2^52 + roundHalfEven (n*unit) (d*2^shift)) infiniteBits

/-- The number nearest to a fraction, or an infinity where it is past all of them. -/
def round (negative : Bool) (n d : Nat) : Float64 :=
  ⟨negative, roundBits n d, Nat.lt_of_le_of_lt (Nat.min_le_right _ _) (by decide)⟩

def ofNat (n : Nat) : Float64 := round false n 1

/-- Rounding ends in a number or an infinity. -/
theorem round_isNaN (negative : Bool) (n d : Nat) : (round negative n d).isNaN = false :=
  decide_eq_false (Nat.not_lt.mpr (Nat.min_le_right _ _))

def mul (x y : Float64) : Float64 :=
  let negative := x.negative != y.negative
  if x.isNaN || y.isNaN then nan
  else if x.isInf || y.isInf then
    if x.bits = 0 || y.bits = 0 then nan else infinity negative
  else round negative (x.scaled*y.scaled) (unit*unit)

def div (x y : Float64) : Float64 :=
  let negative := x.negative != y.negative
  if x.isNaN || y.isNaN then nan
  else if x.isInf then if y.isInf then nan else infinity negative
  else if y.isInf then zero negative
  else if y.bits = 0 then if x.bits = 0 then nan else infinity negative
  else round negative x.scaled y.scaled

/-- The integer part of a finite number that is not negative. -/
def truncate (x : Float64) : Nat := x.scaled/unit

end Float64

namespace Strconv
open Utf8

/-- What stands before the exponent: the digits as one integer, and how many follow the point. -/
structure Mantissa where
  value : Nat := 0
  fraction : Nat := 0
  point : Bool := false
  digits : Bool := false

def scanMantissa (base : Nat) : Mantissa → Bytes → Mantissa × Bytes
  | m, [] => (m, [])
  | m, b::s =>
    if b = 0x5F then scanMantissa base m s
    else if b = 0x2E then
      if m.point then (m, b::s) else scanMantissa base { m with point := true } s
    else match digitValue b with
      | some d =>
        if d < base then
          scanMantissa base
            ⟨m.value*base+d, if m.point then m.fraction+1 else m.fraction, m.point, true⟩ s
        else (m, b::s)
      | none => (m, b::s)

/-- Digits past the fifth are read and do not count. -/
def scanExponent : Nat → Bytes → Nat × Bytes
  | e, [] => (e, [])
  | e, b::s =>
    if b = 0x5F then scanExponent e s
    else if 0x30 ≤ b ∧ b ≤ 0x39 then
      scanExponent (if e < 10000 then e*10+(b.toNat-0x30) else e) s
    else (e, b::s)

def startsWithDigit : Bytes → Bool
  | b::_ => 0x30 ≤ b && b ≤ 0x39
  | [] => false

/-- The exponent after its letter: digits with or without a sign, and nothing else. -/
def readExponent (s : Bytes) : Option Int :=
  let (negative, t) := splitSign s
  if startsWithDigit t then
    match scanExponent 0 t with
    | (e, []) => some (if negative then -e else e)
    | (_, _::_) => none
  else none

/-- The base of the digits, and the text after a prefix that names it. -/
def floatBase : Bytes → Nat × Bytes
  | 0x30::b::c::s => if lower b = 0x78 then (16, c::s) else (10, 0x30::b::c::s)
  | s => (10, s)

/-- The exponent of what follows the digits; a hexadecimal number must have one. -/
def floatExponent (base : Nat) : Bytes → Option Int
  | [] => if base = 16 then none else some 0
  | b::s => if lower b = (if base = 16 then 0x70 else 0x65) then readExponent s else none

/-- A number without its sign, as a fraction. -/
def readFloat (s : Bytes) : Option (Nat × Nat) :=
  let (base, digits) := floatBase s
  let (m, rest) := scanMantissa base {} digits
  if m.digits ∧ (0x5F ∈ s → underscoreOK s) then
    (floatExponent base rest).map fun e =>
      let (radix, power) : Nat × Int :=
        if base = 16 then (2, e-4*m.fraction) else (10, e-m.fraction)
      (m.value*radix^power.toNat, radix^(-power).toNat)
  else none

/-- The texts for what is no finite number, in any case of their letters. -/
def special (s : Bytes) : Option Float64 :=
  let (negative, t) := splitSign s
  if t.map lower = lit "inf" ∨ t.map lower = lit "infinity" then some (Float64.infinity negative)
  else if s.map lower = lit "nan" then some Float64.nan
  else none

/-- A number past the largest one is refused. -/
def parseFloat (s : Bytes) : Option Float64 :=
  match special s with
  | some x => some x
  | none =>
    let (negative, t) := splitSign s
    match readFloat t with
    | some (n, d) =>
      let x := Float64.round negative n d
      if x.isInf then none else some x
    | none => none

theorem scanMantissa_noSpace {base : Nat} {m : Mantissa} {s : Bytes}
    (h : NoSpace (scanMantissa base m s).2) : NoSpace s := by
  induction s generalizing m with
  | nil => exact noSpace_nil
  | cons b s ih =>
    simp only [scanMantissa] at h
    split at h
    · next hb => exact NoSpace.cons (hb ▸ by decide) (ih h)
    · split at h
      · next hb =>
        split at h
        · exact h
        · exact NoSpace.cons (hb ▸ by decide) (ih h)
      · split at h
        · next d hd =>
          split at h
          · exact NoSpace.cons (digitValue_visible hd) (ih h)
          · exact h
        · exact h

theorem scanExponent_noSpace {e : Nat} {s : Bytes} (h : NoSpace (scanExponent e s).2) : NoSpace s := by
  induction s generalizing e with
  | nil => exact noSpace_nil
  | cons b s ih =>
    simp only [scanExponent] at h
    split at h
    · next hb => exact NoSpace.cons (hb ▸ by decide) (ih h)
    · split at h
      · next hb => exact NoSpace.cons (visible_digit hb) (ih h)
      · exact h

theorem readExponent_noSpace {s : Bytes} {e : Int} (h : readExponent s = some e) : NoSpace s := by
  unfold readExponent at h
  simp only at h
  split at h
  · split at h
    · next heq =>
      refine splitSign_noSpace (@scanExponent_noSpace 0 _ ?_)
      rw [heq]
      exact noSpace_nil
    · cases h
  · cases h

theorem floatBase_noSpace {s : Bytes} (h : NoSpace (floatBase s).2) : NoSpace s := by
  unfold floatBase at h
  split at h
  · next b c t =>
    split at h
    · next hx =>
      exact NoSpace.cons (by decide) (NoSpace.cons (visible_letter (hx ▸ by decide)) h)
    · exact h
  · exact h

theorem floatExponent_noSpace {base : Nat} {s : Bytes} {e : Int}
    (h : floatExponent base s = some e) : NoSpace s := by
  cases s with
  | nil => exact noSpace_nil
  | cons b s =>
    have hletter : 0x61 ≤ (if base = 16 then 0x70 else 0x65 : UInt8) ∧
        (if base = 16 then 0x70 else 0x65 : UInt8) ≤ 0x7A := by
      split <;> decide
    obtain ⟨hb, he⟩ := Option.ite_none_right_eq_some.mp h
    exact NoSpace.cons (visible_letter (hb ▸ hletter)) (readExponent_noSpace he)

theorem readFloat_noSpace {s : Bytes} {q : Nat × Nat} (h : readFloat s = some q) : NoSpace s := by
  unfold readFloat at h
  simp only at h
  split at h
  · obtain ⟨e, he, -⟩ := Option.map_eq_some_iff.mp h
    exact floatBase_noSpace (scanMantissa_noSpace (floatExponent_noSpace he))
  · cases h

theorem special_noSpace {s : Bytes} {x : Float64} (h : special s = some x) : NoSpace s := by
  have hletters : ∀ {t word : Bytes}, t.map lower = word → (∀ c ∈ word, 0x61 ≤ c ∧ c ≤ 0x7A) →
      NoSpace t := by
    intro t word he hword
    subst he
    exact noSpace_visible fun b hb => visible_letter (hword (lower b) (List.mem_map_of_mem hb))
  unfold special at h
  simp only at h
  split at h
  · next ht =>
    obtain ht | ht := ht
    · exact splitSign_noSpace (hletters ht (by decide +kernel))
    · exact splitSign_noSpace (hletters ht (by decide +kernel))
  · split at h
    · next ht => exact hletters ht (by decide +kernel)
    · cases h

/-- What is read as a number has no white space. -/
theorem parseFloat_noSpace {s : Bytes} {x : Float64} (h : parseFloat s = some x) : NoSpace s := by
  unfold parseFloat at h
  split at h
  · next hs => exact special_noSpace hs
  · simp only at h
    split at h
    · next hq => exact splitSign_noSpace (readFloat_noSpace hq)
    · cases h

end Strconv
