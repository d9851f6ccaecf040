import OpenDiscogs.Library.Float64

/-! Spans of time in nanoseconds, and the texts they are read from: amounts with their units. -/
namespace Duration
open Utf8

def nanosecond : Nat := 1
def microsecond := 1000*nanosecond
def millisecond := 1000*microsecond
def second := 1000*millisecond
def minute := 60*second
def hour := 60*minute

def unitMap : List (Bytes × Nat) :=
  [(lit "ns", nanosecond), (lit "us", microsecond), (lit "µs", microsecond),
   (lit "μs", microsecond), (lit "ms", millisecond), (lit "s", second), (lit "m", minute),
   (lit "h", hour)]

def isDigit (b : UInt8) : Bool := 0x30 ≤ b && b ≤ 0x39

/-- The digits before the point; an integer past the bound is refused. -/
def leadingInt : Nat → Bytes → Option (Nat × Bytes)
  | x, [] => some (x, [])
  | x, b::s =>
    if isDigit b then
      let y := x*10+(b.toNat-0x30)
      if 2^63/10 < x ∨ 2^63 < y then none else leadingInt y s
    else some (x, b::s)

/-- The digits after the point: their value, what to divide it by, and the rest of the text.
Digits past the bound are read and do not count. -/
def leadingFraction : Bool → Nat → Float64 → Bytes → Nat × Float64 × Bytes
  | _, x, scale, [] => (x, scale, [])
  | overflow, x, scale, b::s =>
    if isDigit b then
      let y := x*10+(b.toNat-0x30)
      if overflow || (2^63-1)/10 < x || 2^63 < y then leadingFraction true x scale s
      else leadingFraction false y (scale.mul (.ofNat 10)) s
    else (x, scale, b::s)

/-- The fraction after a point, if there is one, and whether it has digits. -/
def fractionPart : Bytes → Nat × Float64 × Bool × Bytes
  | 0x2E::s =>
    let (f, scale, rest) := leadingFraction false 0 (.ofNat 1) s
    (f, scale, rest.length ≠ s.length, rest)
  | s => (0, .ofNat 1, false, s)

/-- Whether a byte belongs to the amount that follows a unit. -/
def startsAmount (b : UInt8) : Bool := b == 0x2E || isDigit b

/-- The nanoseconds of an amount, as an integer and a scaled fraction. -/
def nanoseconds (v f : Nat) (scale : Float64) (unit : Nat) : Option Nat :=
  if 2^63/unit < v then none
  else if 0 < f then
    let n := v*unit + ((Float64.ofNat f).mul ((Float64.ofNat unit).div scale)).truncate
    if 2^63 < n then none else some n
  else some (v*unit)

/-- One amount with its unit, and the rest of the text. -/
def component (s : Bytes) : Option (Nat × Bytes) :=
  match leadingInt 0 s with
  | none => none
  | some (v, t) =>
    let (f, scale, post, t') := fractionPart t
    if t.length = s.length ∧ post = false then none
    else
      let u := t'.takeWhile (!startsAmount ·)
      if u = [] then none
      else match unitMap.lookup u with
        | none => none
        | some unit =>
          (nanoseconds v f scale unit).map fun n => (n, t'.dropWhile (!startsAmount ·))

/-- The sum of all amounts, in the 64 bits it is kept in; each takes two bytes at least, so the
length of the text bounds their number. -/
def components : Nat → Nat → Bytes → Option Nat
  | _, d, [] => some d
  | 0, _, _ => none
  | fuel+1, d, s =>
    if s.head?.any startsAmount then
      match component s with
      | none => none
      | some (n, rest) =>
        let d := (d+n)%2^64
        if 2^63 < d then none else components fuel d rest
    else none

def parseDuration (s : Bytes) : Option Int :=
  let (negative, t) := Strconv.splitSign s
  if t = lit "0" then some 0
  else if t = [] then none
  else match components t.length 0 t with
    | none => none
    | some d => if negative then some (-d) else if 2^63-1 < d then none else some d

theorem isDigit_visible {b : UInt8} (h : isDigit b = true) : Visible b := by
  rw [isDigit, Bool.and_eq_true, decide_eq_true_eq, decide_eq_true_eq] at h
  exact Strconv.visible_digit h

theorem leadingInt_noSpace {x n : Nat} {s t : Bytes} (h : leadingInt x s = some (n, t))
    (ht : NoSpace t) : NoSpace s := by
  induction s generalizing x with
  | nil => exact noSpace_nil
  | cons b s ih =>
    simp only [leadingInt] at h
    split at h
    · next hb =>
      split at h
      · cases h
      · exact NoSpace.cons (isDigit_visible hb) (ih h)
    · cases h
      exact ht

theorem leadingFraction_noSpace {overflow : Bool} {x : Nat} {scale : Float64} {s : Bytes}
    (h : NoSpace (leadingFraction overflow x scale s).2.2) : NoSpace s := by
  induction s generalizing overflow x scale with
  | nil => exact noSpace_nil
  | cons b s ih =>
    simp only [leadingFraction] at h
    split at h
    · next hb =>
      split at h
      · exact NoSpace.cons (isDigit_visible hb) (ih h)
      · exact NoSpace.cons (isDigit_visible hb) (ih h)
    · exact h

theorem fractionPart_noSpace {s : Bytes} (h : NoSpace (fractionPart s).2.2.2) : NoSpace s := by
  unfold fractionPart at h
  split at h
  · exact NoSpace.cons (by decide) (leadingFraction_noSpace h)
  · exact h

/-- The names of the units are letters. -/
theorem unitMap_noSpace {u : Bytes} {unit : Nat} (h : unitMap.lookup u = some unit) {s : Bytes}
    (hs : NoSpace s) : NoSpace (u ++ s) := by
  have hnames : ∀ pair ∈ unitMap, (decode pair.1).any (·.all (!isSpace ·)) = true := by decide
  obtain ⟨before, after, hmap, -⟩ := List.lookup_eq_some_iff.mp h
  have hname := hnames (u, unit) (by simp [hmap])
  rw [Option.any_eq_true] at hname
  obtain ⟨cs, hcs, hall⟩ := hname
  have hu : u = encode cs := decode_some hcs
  rw [hu]
  exact NoSpace.encode_append (by simpa using hall) hs

theorem component_noSpace {s t : Bytes} {n : Nat} (h : component s = some (n, t))
    (ht : NoSpace t) : NoSpace s := by
  unfold component at h
  split at h
  · cases h
  · next v r hint =>
    simp only at h
    split at h
    · cases h
    · split at h
      · cases h
      · split at h
        · cases h
        · next unit hunit =>
          obtain ⟨m, -, heq⟩ := Option.map_eq_some_iff.mp h
          cases heq
          refine leadingInt_noSpace hint (fractionPart_noSpace ?_)
          rw [← @List.takeWhile_append_dropWhile _ (!startsAmount ·) (fractionPart r).2.2.2]
          exact unitMap_noSpace hunit ht

theorem components_noSpace {fuel d m : Nat} {s : Bytes} (h : components fuel d s = some m) :
    NoSpace s := by
  induction fuel generalizing d s with
  | zero =>
    cases s with
    | nil => exact noSpace_nil
    | cons b s => cases h
  | succ fuel ih =>
    cases s with
    | nil => exact noSpace_nil
    | cons b s =>
      simp only [components] at h
      split at h
      · split at h
        · cases h
        · next n rest hc =>
          split at h
          · cases h
          · exact component_noSpace hc (ih h)
      · cases h

/-- What is read as a duration has no white space. -/
theorem parseDuration_noSpace {s : Bytes} {d : Int} (h : parseDuration s = some d) :
    NoSpace s := by
  refine Strconv.splitSign_noSpace ?_
  unfold parseDuration at h
  simp only at h
  split at h
  · next hzero =>
    rw [hzero]
    exact noSpace_visible (by decide +kernel)
  · split at h
    · cases h
    · split at h
      · cases h
      · next hd => exact components_noSpace hd

end Duration
