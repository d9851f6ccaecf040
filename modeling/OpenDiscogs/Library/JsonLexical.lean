import OpenDiscogs.Library.Strconv

/-! The numbers and strings of JSON texts: how they are written, and a reader for any text, which
takes what is no character for U+FFFD. -/
namespace Json
open Utf8 Strconv

def isBlank (b : UInt8) : Bool := b = 0x20 || b = 0x09 || b = 0x0A || b = 0x0D

def skipBlank (s : Bytes) : Bytes := s.dropWhile isBlank

def isDigit (b : UInt8) : Bool := 0x30 ≤ b && b ≤ 0x39

def replacementCharacter : Char := Char.ofNat 0xFFFD

def scalarValue : Rune → Char
  | .char c => c
  | .bad _ => replacementCharacter

/-- A byte string with a replacement character for each byte that is part of none. -/
def toValid (s : Bytes) : Bytes := encode ((runes s).map scalarValue)

/-! Numbers -/

/-- At least one digit. -/
def readDigits (s : Bytes) : Option (Bytes × Bytes) :=
  if s.takeWhile isDigit = [] then none else some (s.takeWhile isDigit, s.dropWhile isDigit)

/-- No digit precedes another zero. -/
def readInteger : Bytes → Option (Bytes × Bytes)
  | 0x30::s => some ([0x30], s)
  | s => readDigits s

def readFraction : Bytes → Option (Bytes × Bytes)
  | 0x2E::s => (readDigits s).map fun (digits, s) => (0x2E::digits, s)
  | s => some ([], s)

def readExponentSign : Bytes → Bytes × Bytes
  | 0x2B::s => ([0x2B], s)
  | 0x2D::s => ([0x2D], s)
  | s => ([], s)

def readExponent : Bytes → Option (Bytes × Bytes)
  | [] => some ([], [])
  | b::s =>
    if b = 0x65 ∨ b = 0x45 then
      let (sign, s) := readExponentSign s
      (readDigits s).map fun (digits, s) => (b::sign ++ digits, s)
    else some ([], b::s)

def readSign : Bytes → Bytes × Bytes
  | 0x2D::s => ([0x2D], s)
  | s => ([], s)

theorem readSign_cases (s : Bytes) : (readSign s).1 = [] ∨ (readSign s).1 = [0x2D] := by
  unfold readSign
  split
  · exact Or.inr rfl
  · exact Or.inl rfl

theorem readSign_append (s : Bytes) {b : UInt8} (hb : isDigit b = true) (t : Bytes) :
    readSign ((readSign s).1 ++ b::t) = ((readSign s).1, b::t) := by
  obtain hnone | hminus := readSign_cases s
  · rw [hnone, List.nil_append, readSign]
    intro u hu
    rw [(List.cons.inj hu).1] at hb
    cases hb
  · rw [hminus]
    rfl

/-- What follows a number: nothing that would continue it. -/
def Stops (s : Bytes) : Prop :=
  ∀ b, s.head? = some b → isDigit b = false ∧ b ≠ 0x2E ∧ b ≠ 0x65 ∧ b ≠ 0x45

theorem stops_nil : Stops [] := nofun

theorem readDigits_eq {s digits rest : Bytes} (h : readDigits s = some (digits, rest)) :
    digits ≠ [] ∧ ∀ b ∈ digits, isDigit b = true := by
  unfold readDigits at h
  split at h
  · cases h
  · next hne =>
    cases h
    exact ⟨hne, fun b hb => List.mem_takeWhile_imp hb⟩

theorem readDigits_append {digits t : Bytes} (hne : digits ≠ [])
    (hd : ∀ b ∈ digits, isDigit b = true) (ht : ∀ b, t.head? = some b → isDigit b = false) :
    readDigits (digits ++ t) = some (digits, t) := by
  have hnone : t.takeWhile isDigit = [] ∧ t.dropWhile isDigit = t := by
    cases t with
    | nil => exact ⟨rfl, rfl⟩
    | cons b t => simp [ht b rfl]
  simp [readDigits, List.takeWhile_append_of_pos hd, List.dropWhile_append_of_pos hd, hnone, hne]

theorem readInteger_append {s digits rest t : Bytes} (h : readInteger s = some (digits, rest))
    (ht : ∀ b, t.head? = some b → isDigit b = false) :
    readInteger (digits ++ t) = some (digits, t) ∧ ∃ b ds, digits = b::ds ∧ isDigit b = true := by
  unfold readInteger at h
  split at h
  · cases h
    exact ⟨rfl, 0x30, [], rfl, rfl⟩
  · next hzero =>
    obtain ⟨hne, hd⟩ := readDigits_eq h
    obtain ⟨b, ds, rfl⟩ := List.exists_cons_of_ne_nil hne
    refine ⟨?_, b, ds, rfl, hd b (by simp)⟩
    have hb : b ≠ 0x30 := by
      intro hb
      subst hb
      cases s with
      | nil => simp [readDigits] at h
      | cons c s =>
        have hfirst : c = 0x30 := by
          unfold readDigits at h
          split at h
          · cases h
          · next hne' =>
            have hc : isDigit c = true := by
              by_contra hc
              simp [hc] at hne'
            simp [hc] at h
            exact h.1.1
        exact hzero s (by rw [hfirst])
    rw [List.cons_append, readInteger]
    · rw [← List.cons_append]
      exact readDigits_append hne hd ht
    · intro u hu
      exact hb (List.cons.inj hu).1

theorem readFraction_append {s fraction rest t : Bytes}
    (h : readFraction s = some (fraction, rest)) (ht : ∀ b, t.head? = some b →
      isDigit b = false ∧ b ≠ 0x2E) :
    readFraction (fraction ++ t) = some (fraction, t) ∧
      (fraction = [] ∨ ∃ ds, fraction = 0x2E::ds) := by
  unfold readFraction at h
  split at h
  · obtain ⟨⟨digits, after⟩, hd, he⟩ := Option.map_eq_some_iff.mp h
    cases he
    obtain ⟨hne, hall⟩ := readDigits_eq hd
    refine ⟨?_, Or.inr ⟨digits, rfl⟩⟩
    simp [readFraction, readDigits_append hne hall fun b hb => (ht b hb).1]
  · cases h
    refine ⟨?_, Or.inl rfl⟩
    rw [List.nil_append, readFraction]
    intro u hu
    exact (ht 0x2E (by rw [hu]; rfl)).2 rfl

theorem readExponentSign_append {s sign rest : Bytes} (h : readExponentSign s = (sign, rest))
    {b : UInt8} (hb : isDigit b = true) (t : Bytes) :
    readExponentSign (sign ++ b::t) = (sign, b::t) := by
  unfold readExponentSign at h
  split at h
  · cases h; rfl
  · cases h; rfl
  · cases h
    rw [List.nil_append, readExponentSign]
    · intro u hu
      rw [(List.cons.inj hu).1] at hb
      cases hb
    · intro u hu
      rw [(List.cons.inj hu).1] at hb
      cases hb

theorem readExponent_append {s exponent rest t : Bytes}
    (h : readExponent s = some (exponent, rest)) (ht : Stops t) :
    readExponent (exponent ++ t) = some (exponent, t) ∧
      (exponent = [] ∨ ∃ b ds, exponent = b::ds ∧ (b = 0x65 ∨ b = 0x45)) := by
  have hempty : readExponent t = some ([], t) := by
    cases t with
    | nil => rfl
    | cons b t =>
      obtain ⟨-, -, hlow, hup⟩ := ht b rfl
      simp [readExponent, hlow, hup]
  unfold readExponent at h
  split at h
  · cases h
    exact ⟨hempty, Or.inl rfl⟩
  · next b s =>
    split at h
    · next hb =>
      obtain ⟨⟨digits, after⟩, hd, he⟩ := Option.map_eq_some_iff.mp h
      cases he
      obtain ⟨hne, hall⟩ := readDigits_eq hd
      refine ⟨?_, Or.inr ⟨b, _, rfl, hb⟩⟩
      obtain ⟨c, ds, rfl⟩ := List.exists_cons_of_ne_nil hne
      have hsign := @readExponentSign_append s _ _ rfl c (hall c (by simp)) (ds ++ t)
      have hdigits := readDigits_append hne hall fun b hb => (ht b hb).1
      rw [List.cons_append] at hdigits
      simp only [List.cons_append, List.append_assoc, readExponent, if_pos hb, hsign, hdigits,
        Option.map_some]
    · cases h
      exact ⟨hempty, Or.inl rfl⟩

/-- A number as it is written, and what follows it. -/
def readNumber (s : Bytes) : Option (Bytes × Bytes) := do
  let (sign, s) := readSign s
  let (digits, s) ← readInteger s
  let (fraction, s) ← readFraction s
  let (exponent, s) ← readExponent s
  return (sign ++ (digits ++ (fraction ++ exponent)), s)

/-- A number is read again from what was read of it, whatever stops it, and starts with a sign
or a digit. -/
theorem readNumber_append {s literal rest t : Bytes} (h : readNumber s = some (literal, rest))
    (ht : Stops t) : readNumber (literal ++ t) = some (literal, t) ∧
      ∃ b u, literal = b::u ∧ (b = 0x2D ∨ isDigit b = true) := by
  have hcases := readSign_cases s
  have happend := @readSign_append s
  unfold readNumber at h
  generalize readSign s = signed at h hcases happend
  obtain ⟨sign, after⟩ := signed
  obtain ⟨⟨digits, s₁⟩, hi, h⟩ := Option.bind_eq_some_iff.mp h
  obtain ⟨⟨fraction, s₂⟩, hf, h⟩ := Option.bind_eq_some_iff.mp h
  obtain ⟨⟨exponent, s₃⟩, he, h⟩ := Option.bind_eq_some_iff.mp h
  cases h
  obtain ⟨hexp, hexphead⟩ := readExponent_append he ht
  have hstop₂ : ∀ b, (exponent ++ t).head? = some b → isDigit b = false ∧ b ≠ 0x2E := by
    intro b hb
    obtain rfl | ⟨c, ds, rfl, hc⟩ := hexphead
    · exact ⟨(ht b hb).1, (ht b hb).2.1⟩
    · obtain rfl : c = b := by simpa using hb
      obtain rfl | rfl := hc <;> decide
  obtain ⟨hfrac, hfrachead⟩ := readFraction_append hf hstop₂
  have hstop₁ : ∀ b, (fraction ++ (exponent ++ t)).head? = some b → isDigit b = false := by
    intro b hb
    obtain rfl | ⟨ds, rfl⟩ := hfrachead
    · exact (hstop₂ b hb).1
    · obtain rfl : 0x2E = b := by simpa using hb
      decide
  obtain ⟨hint, d, ds, rfl, hd⟩ := readInteger_append hi hstop₁
  have hsign := happend hd (ds ++ (fraction ++ (exponent ++ t)))
  refine ⟨?_, ?_⟩
  · rw [List.cons_append] at hint
    simp only [readNumber, List.append_assoc, List.cons_append, hsign, Option.bind_eq_bind, hint,
      Option.bind_some, hfrac, hexp, Option.pure_def]
  · obtain rfl | rfl := hcases
    · exact ⟨d, _, rfl, Or.inr hd⟩
    · exact ⟨0x2D, _, rfl, Or.inl rfl⟩

theorem readNumber_literal {s literal rest : Bytes} (h : readNumber s = some (literal, rest)) :
    readNumber literal = some (literal, []) := by
  simpa using (readNumber_append h stops_nil).1

def numberStart (b : UInt8) : Bool := b = 0x2D || isDigit b

/-- A number in the notation of JSON. -/
structure Number where
  literal : Bytes
  wellFormed : readNumber literal = some (literal, [])
deriving DecidableEq

/-! Strings -/

/-- The characters that a letter after a backslash stands for. -/
def shortEscapes : List (UInt8 × Char) :=
  [(0x22, '"'), (0x5C, '\\'), (0x62, Char.ofNat 8), (0x66, Char.ofNat 12), (0x6E, '\n'),
   (0x72, '\r'), (0x74, '\t')]

/-- A reader also takes a slash for itself. -/
def readableEscapes : List (UInt8 × Char) := (0x2F, '/')::shortEscapes

def hexDigit (n : Nat) : UInt8 := if n < 10 then UInt8.ofNat (0x30+n) else UInt8.ofNat (0x57+n)

/-- A backslash, a `u` and four digits. -/
def unicodeEscape (n : Nat) : Bytes :=
  [0x5C, 0x75, hexDigit (n/4096%16), hexDigit (n/256%16), hexDigit (n/16%16), hexDigit (n%16)]

/-- How a writer lays out its texts: the blanks after commas and colons, and the characters it
writes by their number, among those that one escape can name. -/
structure Style where
  blank : Bytes
  escapes : Char → Bool
  blank_isBlank : ∀ b ∈ blank, isBlank b = true
  escapes_short : ∀ c, escapes c = true → c.toNat < 0x10000

def Style.writeChar (style : Style) (c : Char) : Bytes :=
  match shortEscapes.find? fun entry => entry.2 = c with
  | some entry => [0x5C, entry.1]
  | none =>
    if c.toNat < 0x20 ∨ style.escapes c = true then unicodeEscape c.toNat
    else String.utf8EncodeChar c

/-- A byte that is part of no character is written as U+FFFD, by its number. -/
def Style.writeRune (style : Style) : Rune → Bytes
  | .char c => style.writeChar c
  | .bad _ => unicodeEscape 0xFFFD

def Style.writeString (style : Style) (s : Bytes) : Bytes :=
  0x22::(runes s).flatMap style.writeRune ++ [0x22]

def hexValue (b : UInt8) : Option Nat :=
  match digitValue b with
  | some d => if d < 16 then some d else none
  | none => none

def readHex : Bytes → Option (Nat × Bytes)
  | a::b::c::d::s => do
    let a ← hexValue a
    let b ← hexValue b
    let c ← hexValue c
    let d ← hexValue d
    return (a*4096+b*256+c*16+d, s)
  | _ => none

def isSurrogate (n : Nat) : Bool := 0xD800 ≤ n && n < 0xE000

/-- The character of a pair of surrogates. -/
def surrogatePair (high low : Nat) : Option Char :=
  if 0xD800 ≤ high ∧ high < 0xDC00 ∧ 0xDC00 ≤ low ∧ low < 0xE000 then
    some (Char.ofNat (0x10000+(high-0xD800)*1024+(low-0xDC00)))
  else none

/-- The second half of a pair; a surrogate without one is no character, and what follows it is
read again. -/
def readLowSurrogate (high : Nat) : Bytes → Char × Bytes
  | 0x5C::0x75::s =>
    match readHex s with
    | some (low, rest) => match surrogatePair high low with
      | some c => (c, rest)
      | none => (replacementCharacter, 0x5C::0x75::s)
    | none => (replacementCharacter, 0x5C::0x75::s)
  | s => (replacementCharacter, s)

def readUnicodeEscape (s : Bytes) : Option (Char × Bytes) := do
  let (n, s) ← readHex s
  return if isSurrogate n then readLowSurrogate n s else (Char.ofNat n, s)

def readEscape : Bytes → Option (Char × Bytes)
  | [] => none
  | b::s =>
    if b = 0x75 then readUnicodeEscape s
    else (readableEscapes.find? fun entry => entry.1 = b).map fun entry => (entry.2, s)

/-- One character within a string. -/
def readChar : Bytes → Option (Char × Bytes)
  | [] => none
  | b::s =>
    if b = 0x5C then readEscape s
    else if b < 0x20 then none
    else match decodeRune (b::s) with
      | some c => some (c, (b::s).drop c.utf8Size)
      | none => some (replacementCharacter, s)

/-- The characters of a string up to the quote that ends it; each takes a byte at least. -/
def readCharsWithin : Nat → Bytes → Option (List Char × Bytes)
  | _, [] => none
  | 0, _ => none
  | fuel+1, b::s =>
    if b = 0x22 then some ([], s)
    else do
      let (c, s) ← readChar (b::s)
      let (cs, s) ← readCharsWithin fuel s
      return (c::cs, s)

/-- A string after its first quote. -/
def readString (s : Bytes) : Option (Bytes × Bytes) :=
  (readCharsWithin s.length s).map fun (cs, s) => (encode cs, s)

theorem hexValue_hexDigit : ∀ n < 16, hexValue (hexDigit n) = some n := by decide

theorem readHex_digits {n : Nat} (h : n < 0x10000) (s : Bytes) :
    readHex (hexDigit (n/4096%16)::hexDigit (n/256%16)::hexDigit (n/16%16)::hexDigit (n%16)::s) =
      some (n, s) := by
  have hsum : n/4096%16*4096+n/256%16*256+n/16%16*16+n%16 = n := by omega
  simp only [readHex, hexValue_hexDigit _ (Nat.mod_lt _ (by decide : 0 < 16)), Option.bind_eq_bind,
    Option.bind_some, hsum, Option.pure_def]

/-- A character below U+10000 is read back from its number. -/
theorem readChar_unicodeEscape {n : Nat} (h : n < 0x10000) (hs : isSurrogate n = false)
    (s : Bytes) : readChar (unicodeEscape n ++ s) = some (Char.ofNat n, s) := by
  have hread : readUnicodeEscape (hexDigit (n/4096%16)::hexDigit (n/256%16)::hexDigit (n/16%16)::
      hexDigit (n%16)::s) = some (Char.ofNat n, s) := by
    simp [readUnicodeEscape, readHex_digits h, hs]
  simpa [readChar, unicodeEscape, readEscape] using hread

/-- A character is no surrogate. -/
theorem isSurrogate_toNat (c : Char) : isSurrogate c.toNat = false := by
  have hv : c.toNat < 0xD800 ∨ 0xDFFF < c.toNat ∧ c.toNat < 0x110000 := c.valid
  simp only [isSurrogate, Bool.and_eq_false_iff, decide_eq_false_iff_not]
  omega

/-- An encoding that starts below 0x80 is that of the character numbered so. -/
theorem first_byte_ascii {c : Char} {b : UInt8} {t : Bytes}
    (he : String.utf8EncodeChar c = b::t) (hb : b.toNat < 0x80) : c.toNat = b.toNat := by
  have hr := runes_char c []
  rw [he, List.cons_append, runes_ascii hb] at hr
  have hc : Char.ofNat b.toNat = c := by
    simpa using (List.cons.inj hr).1
  rw [← hc, Char.ofNat, dif_pos (Or.inl (by omega))]
  rfl

theorem shortEscapes_read : ∀ entry ∈ shortEscapes, entry.1 ≠ 0x75 ∧
    (readableEscapes.find? fun e => e.1 = entry.1) = some entry := by decide

/-- A character that has no letter of its own is neither a quote nor a backslash. -/
theorem no_shortEscape {c : Char} (h : (shortEscapes.find? fun entry => entry.2 = c) = none) :
    c.toNat ≠ 0x22 ∧ c.toNat ≠ 0x5C := by
  have hne : ∀ d : Char, (shortEscapes.any fun entry => entry.2 = d) = true → c ≠ d := by
    intro d hd hcd
    subst hcd
    obtain ⟨entry, hmem, he⟩ := List.any_eq_true.mp hd
    exact List.find?_eq_none.mp h entry hmem he
  have hquote := hne '"' (by decide)
  have hslash := hne '\\' (by decide)
  exact ⟨fun he => hquote (Char.toNat_inj.mp he), fun he => hslash (Char.toNat_inj.mp he)⟩

variable (style : Style)

/-- What is written for a character is read as the character, whatever follows it. -/
theorem readChar_writeChar (c : Char) (s : Bytes) :
    readChar (style.writeChar c ++ s) = some (c, s) := by
  unfold Style.writeChar
  split
  · next entry hfind =>
    have hmem := List.mem_of_find?_eq_some hfind
    have hc : entry.2 = c := by simpa using List.find?_some hfind
    obtain ⟨hne, hread⟩ := shortEscapes_read entry hmem
    simp only [readChar, readEscape, List.cons_append, List.nil_append, if_true, if_neg hne, hread,
      Option.map_some, hc]
  · next hfind =>
    split
    · next hesc =>
      have hshort : c.toNat < 0x10000 := hesc.elim (by omega) (style.escapes_short c)
      rw [readChar_unicodeEscape hshort (isSurrogate_toNat c), Char.ofNat_toNat]
    · next hesc =>
      obtain ⟨-, hslash⟩ := no_shortEscape hfind
      have hdec := decodeRune_append c s
      have hdrop := drop_utf8Size c s
      cases he : String.utf8EncodeChar c with
      | nil => exact absurd he String.utf8EncodeChar_ne_nil
      | cons b t =>
        have hb : b ≠ 0x5C ∧ ¬b < 0x20 := by
          refine ⟨fun hb => ?_, fun hb => ?_⟩
          · subst hb
            exact hslash (first_byte_ascii he (by decide))
          · have hlt : b.toNat < 0x20 := hb
            have := first_byte_ascii he (by omega)
            omega
        rw [he, List.cons_append] at hdec hdrop
        simp only [List.cons_append, readChar, if_neg hb.1, if_neg hb.2, hdec, hdrop]

theorem readChar_writeRune (r : Rune) (s : Bytes) :
    readChar (style.writeRune r ++ s) = some (scalarValue r, s) := by
  cases r with
  | char c => exact readChar_writeChar style c s
  | bad b => exact readChar_unicodeEscape (by decide) (by decide) s

/-- No rune is written with a quote in front. -/
theorem writeRune_head (r : Rune) : ∃ b t, style.writeRune r = b::t ∧ b ≠ 0x22 := by
  cases r with
  | bad b => exact ⟨0x5C, _, rfl, by decide⟩
  | char c =>
    simp only [Style.writeRune, Style.writeChar]
    split
    · exact ⟨0x5C, _, rfl, by decide⟩
    · next hfind =>
      split
      · exact ⟨0x5C, _, rfl, by decide⟩
      · obtain ⟨hquote, -⟩ := no_shortEscape hfind
        cases he : String.utf8EncodeChar c with
        | nil => exact absurd he String.utf8EncodeChar_ne_nil
        | cons b t =>
          refine ⟨b, t, rfl, fun hb => ?_⟩
          subst hb
          exact hquote (first_byte_ascii he (by decide))

theorem readCharsWithin_written (rs : List Rune) (s : Bytes) {fuel : Nat}
    (h : (rs.flatMap style.writeRune).length < fuel) :
    readCharsWithin fuel (rs.flatMap style.writeRune ++ 0x22::s) =
      some (rs.map scalarValue, s) := by
  induction rs generalizing fuel with
  | nil =>
    obtain ⟨n, rfl⟩ : ∃ n, fuel = n+1 := ⟨fuel-1, by simp at h; omega⟩
    simp [readCharsWithin]
  | cons r rs ih =>
    obtain ⟨b, t, hw, hb⟩ := writeRune_head style r
    have hread := readChar_writeRune style r (rs.flatMap style.writeRune ++ 0x22::s)
    obtain ⟨n, rfl⟩ : ∃ n, fuel = n+1 := ⟨fuel-1, by omega⟩
    rw [List.flatMap_cons, hw, List.length_append, List.length_cons] at h
    rw [hw, List.cons_append] at hread
    rw [List.flatMap_cons, hw, List.append_assoc, List.cons_append]
    simp only [readCharsWithin, if_neg hb, hread, Option.bind_eq_bind, Option.bind_some,
      @ih n (by omega), Option.pure_def, List.map_cons]

/-- A string is read as it was written, with a replacement for each byte of no character. -/
theorem readString_written (bytes s : Bytes) :
    readString ((runes bytes).flatMap style.writeRune ++ 0x22::s) = some (toValid bytes, s) := by
  rw [readString, readCharsWithin_written style (runes bytes) s (by simp)]
  rfl

end Json
