import Mathlib.Data.List.DropRight

/-! Byte strings and the characters they spell: decoding, white space and trimming for
arbitrary bytes, well-formed UTF-8 or not. -/
namespace Utf8

abbrev Bytes := List UInt8

def encode (cs : List Char) : Bytes := cs.flatMap String.utf8EncodeChar

/-- The bytes of a text that stands in the program. -/
def lit (s : String) : Bytes := encode s.toList

/-- The character that well-formed bytes start with. -/
def decodeRune (s : Bytes) : Option Char := s.toByteArray.utf8DecodeChar? 0

/-- One step of a decoder: a character, or one byte that starts none. -/
inductive Rune where
  | char (c : Char)
  | bad (b : UInt8)
deriving DecidableEq

def Rune.bytes : Rune → Bytes
  | .char c => String.utf8EncodeChar c
  | .bad b => [b]

/-- White space as Unicode's `White_Space` property has it. -/
def isSpace (c : Char) : Bool :=
  let n := c.toNat
  (0x09 ≤ n && n ≤ 0x0D) || n == 0x20 || n == 0x85 || n == 0xA0 || n == 0x1680 ||
    (0x2000 ≤ n && n ≤ 0x200A) || n == 0x2028 || n == 0x2029 || n == 0x202F || n == 0x205F ||
    n == 0x3000

def Rune.isSpace : Rune → Bool
  | .char c => Utf8.isSpace c
  | .bad _ => false

def Rune.char? : Rune → Option Char
  | .char c => some c
  | .bad _ => none

def runesWithin : Nat → Bytes → List Rune
  | _, [] => []
  | 0, _ => []
  | fuel+1, b::s =>
    match decodeRune (b::s) with
    | some c => .char c::runesWithin fuel ((b::s).drop c.utf8Size)
    | none => .bad b::runesWithin fuel s

/-- The runes of a byte string; each takes a byte at least, so its length bounds their number. -/
def runes (s : Bytes) : List Rune := runesWithin s.length s

/-- The text that well-formed bytes spell. -/
def decode (s : Bytes) : Option (List Char) := (runes s).mapM Rune.char?

def validString (s : Bytes) : Bool := (decode s).isSome

def runeCount (s : Bytes) : Nat := (runes s).length

/-- Characters without the white space at both ends. -/
def trim (cs : List Char) : List Char := (cs.dropWhile isSpace).rdropWhile isSpace

/-- Bytes without the white space at both ends. UTF-8 is self-synchronising: the last rune
read from the front is the one a decoder finds from the back. -/
def trimSpace (s : Bytes) : Bytes :=
  (((runes s).dropWhile Rune.isSpace).rdropWhile Rune.isSpace).flatMap Rune.bytes

/-- What holds of the bytes that two hexadecimal digits make holds of every byte. -/
theorem forall_byte {P : UInt8 → Prop} (h : ∀ i < 16, ∀ j < 16, P (UInt8.ofNat (16*i+j)))
    (b : UInt8) : P b := by
  have hlt := b.toNat_lt
  have hb := h (b.toNat/16) (by omega) (b.toNat%16) (by omega)
  rwa [Nat.div_add_mod, UInt8.ofNat_toNat] at hb

theorem ne_of_not_mem {sep : UInt8} {s : Bytes} (h : sep ∉ s) : ∀ c ∈ s, (c != sep) = true := by
  intro c hc
  simpa using fun he : c = sep => h (he ▸ hc)

/-- Bytes end where a separator that they do not hold follows, -/
theorem takeWhile_append_sep {sep : UInt8} {s : Bytes} (h : sep ∉ s) (t : Bytes) :
    (s ++ sep::t).takeWhile (· != sep) = s := by
  simp [List.takeWhile_append_of_pos (ne_of_not_mem h)]

theorem dropWhile_append_sep {sep : UInt8} {s : Bytes} (h : sep ∉ s) (t : Bytes) :
    (s ++ sep::t).dropWhile (· != sep) = sep::t := by
  simp [List.dropWhile_append_of_pos (ne_of_not_mem h)]

/-- and without one they are the whole text. -/
theorem takeWhile_no_sep {sep : UInt8} {s : Bytes} (h : sep ∉ s) : s.takeWhile (· != sep) = s :=
  List.takeWhile_eq_self_iff.mpr (ne_of_not_mem h)

theorem dropWhile_no_sep {sep : UInt8} {s : Bytes} (h : sep ∉ s) : s.dropWhile (· != sep) = [] :=
  List.dropWhile_eq_nil_iff.mpr (ne_of_not_mem h)

theorem dropWhile_sep (sep : UInt8) (s : Bytes) :
    s.dropWhile (· != sep) = [] ∨ ∃ rest, s.dropWhile (· != sep) = sep::rest := by
  by_cases h : sep ∈ s
  · obtain ⟨front, rest, rfl, hf⟩ := List.eq_append_cons_of_mem h
    exact Or.inr ⟨rest, dropWhile_append_sep hf rest⟩
  · exact Or.inl (dropWhile_no_sep h)

theorem encode_append (a b : List Char) : encode (a ++ b) = encode a ++ encode b :=
  List.flatMap_append

theorem encode_cons (c : Char) (cs : List Char) :
    encode (c::cs) = String.utf8EncodeChar c ++ encode cs := List.flatMap_cons

theorem decodeRune_append (c : Char) (s : Bytes) :
    decodeRune (String.utf8EncodeChar c ++ s) = some c := by
  rw [decodeRune, List.toByteArray_append]
  exact ByteArray.utf8DecodeChar?_utf8EncodeChar_append

/-- A decoded character stands in the bytes with its own encoding. -/
theorem decodeRune_some {s : Bytes} {c : Char} (h : decodeRune s = some c) :
    s = String.utf8EncodeChar c ++ s.drop c.utf8Size := by
  obtain ⟨l, hl⟩ := ByteArray.exists_of_utf8DecodeChar?_eq_some h
  have hs : s = String.utf8EncodeChar c ++ l.data.toList := by
    have := congrArg (fun b => b.data.toList) hl
    simpa [ByteArray.data_append] using this
  have hlen := String.length_utf8EncodeChar c
  conv_lhs => rw [hs]
  rw [hs, List.drop_left' hlen]

theorem runesWithin_nil (fuel : Nat) : runesWithin fuel [] = [] := by
  cases fuel <;> rfl

theorem drop_utf8Size (c : Char) (s : Bytes) :
    (String.utf8EncodeChar c ++ s).drop c.utf8Size = s :=
  List.drop_left' (String.length_utf8EncodeChar c)

theorem runesWithin_char {fuel : Nat} (c : Char) (s : Bytes) :
    runesWithin (fuel+1) (String.utf8EncodeChar c ++ s) = .char c::runesWithin fuel s := by
  have hd := decodeRune_append c s
  cases he : String.utf8EncodeChar c ++ s with
  | nil => exact absurd (List.append_eq_nil_iff.mp he).1 String.utf8EncodeChar_ne_nil
  | cons b t =>
    rw [he] at hd
    simp only [runesWithin, hd]
    rw [← he, drop_utf8Size]

/-- More fuel than bytes changes nothing. -/
theorem runesWithin_fuel {fuel : Nat} {s : Bytes} (h : s.length ≤ fuel) :
    runesWithin fuel s = runes s := by
  induction fuel using Nat.strongRecOn generalizing s with
  | _ fuel ih =>
    cases s with
    | nil => simp [runes, runesWithin_nil]
    | cons b s =>
      obtain ⟨n, rfl⟩ : ∃ n, fuel = n+1 := ⟨fuel-1, by simp at h; omega⟩
      simp only [List.length_cons] at h
      rw [runes, List.length_cons]
      simp only [runesWithin]
      cases hd : decodeRune (b::s) with
      | none => simp only; rw [ih n (by omega) (by omega), runes]
      | some c =>
        have hpos := c.utf8Size_pos
        have hlen : ((b::s).drop c.utf8Size).length ≤ s.length := by
          rw [List.length_drop, List.length_cons]
          omega
        simp only
        rw [ih n (by omega) (by omega)]
        by_cases hn : s.length = n
        · rw [hn, ih n (by omega) (by omega)]
        · rw [ih s.length (by omega) hlen]

theorem runes_char (c : Char) (s : Bytes) :
    runes (String.utf8EncodeChar c ++ s) = .char c::runes s := by
  have hpos := c.utf8Size_pos
  have hlen := String.length_utf8EncodeChar c
  rw [← @runesWithin_fuel ((String.utf8EncodeChar c ++ s).length+1) _ (by omega),
    runesWithin_char, runesWithin_fuel (by rw [List.length_append]; omega)]

theorem runes_bad {b : UInt8} {s : Bytes} (h : decodeRune (b::s) = none) :
    runes (b::s) = .bad b::runes s := by
  simp only [runes, List.length_cons, runesWithin, h]

@[simp] theorem runes_nil : runes [] = [] := rfl

/-- Reading a text's own encoding gives its characters back. -/
theorem runes_encode (cs : List Char) : runes (encode cs) = cs.map .char := by
  induction cs with
  | nil => rfl
  | cons c cs ih => rw [encode_cons, runes_char, ih, List.map_cons]

/-- The runes of a byte string spell all of it. -/
theorem bytes_runes (s : Bytes) : (runes s).flatMap Rune.bytes = s := by
  induction hn : s.length using Nat.strongRecOn generalizing s with
  | _ n ih =>
    cases s with
    | nil => rfl
    | cons b s =>
      cases hd : decodeRune (b::s) with
      | none =>
        rw [runes_bad hd, List.flatMap_cons, ih s.length (by simp at hn; omega) s rfl]
        rfl
      | some c =>
        have hs := decodeRune_some hd
        have hlt : ((b::s).drop c.utf8Size).length < n := by
          have := c.utf8Size_pos
          rw [List.length_drop]
          simp only [List.length_cons] at *
          omega
        rw [hs, runes_char, List.flatMap_cons, ih _ hlt _ rfl]
        rfl

theorem utf8EncodeChar_ascii :
    ∀ n < 0x80, String.utf8EncodeChar (Char.ofNat n) = [UInt8.ofNat n] := by decide

theorem runes_ascii {b : UInt8} (h : b.toNat < 0x80) (s : Bytes) :
    runes (b::s) = .char (Char.ofNat b.toNat)::runes s := by
  have he := utf8EncodeChar_ascii b.toNat h
  rw [UInt8.ofNat_toNat] at he
  rw [← List.singleton_append, ← he, runes_char]

theorem mapM_char? (cs : List Char) : (cs.map Rune.char).mapM Rune.char? = some cs := by
  induction cs with
  | nil => rfl
  | cons c cs ih => simp [List.mapM_cons, Rune.char?, ih]

@[simp] theorem decode_encode (cs : List Char) : decode (encode cs) = some cs := by
  rw [decode, runes_encode, mapM_char?]

theorem encode_injective {a b : List Char} (h : encode a = encode b) : a = b := by
  have := congrArg decode h
  simpa using this

theorem mapM_char?_some {rs : List Rune} {cs : List Char} (h : rs.mapM Rune.char? = some cs) :
    rs = cs.map .char := by
  induction rs generalizing cs with
  | nil => simp at h; subst h; rfl
  | cons r rs ih =>
    rw [List.mapM_cons] at h
    cases r with
    | bad b => simp [Rune.char?] at h
    | char c =>
      simp only [Rune.char?, Option.bind_eq_bind, Option.bind_some, Option.bind_eq_some_iff] at h
      obtain ⟨ds, hds, hcs⟩ := h
      simp only [Option.pure_def, Option.some.injEq] at hcs
      rw [← hcs, ih hds, List.map_cons]

/-- Bytes that decode are the encoding of what they decode to. -/
theorem decode_some {s : Bytes} {cs : List Char} (h : decode s = some cs) : s = encode cs := by
  rw [← bytes_runes s, mapM_char?_some h, List.flatMap_map]
  rfl

@[simp] theorem validString_encode (cs : List Char) : validString (encode cs) = true := by
  simp [validString]

theorem validString_iff {s : Bytes} : validString s = true ↔ ∃ cs, s = encode cs := by
  constructor
  · intro h
    obtain ⟨cs, hcs⟩ := Option.isSome_iff_exists.mp h
    exact ⟨cs, decode_some hcs⟩
  · intro hparts
    obtain ⟨cs, rfl⟩ := hparts
    exact validString_encode cs

theorem validString_append {s t : Bytes} (hs : validString s = true) (ht : validString t = true) :
    validString (s ++ t) = true := by
  obtain ⟨cs, rfl⟩ := validString_iff.mp hs
  obtain ⟨ds, rfl⟩ := validString_iff.mp ht
  rw [← encode_append]
  exact validString_encode (cs ++ ds)

/-- Bytes below 0x80 are characters of their own. -/
theorem validString_ascii {s : Bytes} (h : ∀ b ∈ s, b < 0x80) : validString s = true := by
  refine validString_iff.mpr ⟨s.map fun b => Char.ofNat b.toNat, ?_⟩
  induction s with
  | nil => rfl
  | cons b s ih =>
    have hb := utf8EncodeChar_ascii b.toNat (h b (by simp))
    rw [List.map_cons, encode_cons, hb, ← ih fun c hc => h c (by simp [hc]), UInt8.ofNat_toNat]
    rfl

@[simp] theorem runeCount_encode (cs : List Char) : runeCount (encode cs) = cs.length := by
  rw [runeCount, runes_encode, List.length_map]

theorem dropWhile_map_char (cs : List Char) :
    (cs.map Rune.char).dropWhile Rune.isSpace = (cs.dropWhile isSpace).map Rune.char := by
  rw [List.dropWhile_map]
  rfl

theorem rdropWhile_map_char (cs : List Char) :
    (cs.map Rune.char).rdropWhile Rune.isSpace = (cs.rdropWhile isSpace).map Rune.char := by
  rw [List.rdropWhile, ← List.map_reverse, dropWhile_map_char, ← List.map_reverse]
  rfl

/-- On well-formed bytes trimming is trimming of the characters. -/
theorem trimSpace_encode (cs : List Char) : trimSpace (encode cs) = encode (trim cs) := by
  rw [trimSpace, runes_encode, dropWhile_map_char, rdropWhile_map_char, List.flatMap_map]
  rfl

theorem Rune.bytes_ne_nil (r : Rune) : r.bytes ≠ [] := by
  cases r with
  | char c => exact String.utf8EncodeChar_ne_nil
  | bad b => exact List.cons_ne_nil b []

/-- Blank text is white space all through. -/
theorem trimSpace_eq_nil {s : Bytes} : trimSpace s = [] ↔ ∀ r ∈ runes s, r.isSpace = true := by
  have hnil : trimSpace s = [] ↔ ((runes s).dropWhile Rune.isSpace).rdropWhile Rune.isSpace = [] := by
    rw [trimSpace, List.flatMap_eq_nil_iff]
    constructor
    · intro h
      by_contra hne
      obtain ⟨r, rs, hr⟩ := List.exists_cons_of_ne_nil hne
      exact Rune.bytes_ne_nil r (h r (by rw [hr]; simp))
    · intro h
      simp [h]
  rw [hnil, List.rdropWhile_eq_nil_iff]
  constructor
  · intro h r hr
    rw [← List.takeWhile_append_dropWhile (p := Rune.isSpace) (l := runes s), List.mem_append] at hr
    exact hr.elim List.mem_takeWhile_imp (h r)
  · intro h r hr
    exact h r ((List.dropWhile_sublist _).mem hr)

theorem chars_of_space {rs : List Rune} (h : ∀ r ∈ rs, r.isSpace = true) :
    ∃ cs : List Char, rs = cs.map .char := by
  induction rs with
  | nil => exact ⟨[], rfl⟩
  | cons r rs ih =>
    obtain ⟨cs, rfl⟩ := ih fun r' hr => h r' (List.mem_cons_of_mem r hr)
    cases r with
    | char c => exact ⟨c::cs, rfl⟩
    | bad b => exact absurd (h (.bad b) (by simp)) (by simp [Rune.isSpace])

/-- Bytes that are all white space are well formed. -/
theorem validString_blank {s : Bytes} (h : trimSpace s = []) : validString s = true := by
  obtain ⟨cs, hcs⟩ := chars_of_space (trimSpace_eq_nil.mp h)
  refine validString_iff.mpr ⟨cs, ?_⟩
  rw [← bytes_runes s, hcs, List.flatMap_map]
  rfl

theorem isSpace_visible : ∀ n < 0x7F, 0x20 < n → isSpace (Char.ofNat n) = false := by decide

/-- Text that starts with a visible ASCII character is not blank. -/
theorem trimSpace_visible {b : UInt8} (h : 0x20 < b ∧ b < 0x7F) (s : Bytes) :
    trimSpace (b::s) ≠ [] := by
  have hlo : 0x20 < b.toNat := h.1
  have hhi : b.toNat < 0x7F := h.2
  rw [ne_eq, trimSpace_eq_nil, runes_ascii (by omega)]
  intro hall
  have := hall _ (List.mem_cons_self ..)
  rw [Rune.isSpace, isSpace_visible b.toNat hhi hlo] at this
  cases this

theorem trim_trim (cs : List Char) : trim (trim cs) = trim cs := by
  have hd : (trim cs).dropWhile isSpace = trim cs := by
    cases ht : trim cs with
    | nil => rfl
    | cons c ds =>
      have hc : c ∈ (cs.dropWhile isSpace).head? := by
        have hp : trim cs <+: cs.dropWhile isSpace := List.rdropWhile_prefix _ _
        rw [ht] at hp
        obtain ⟨t, ht⟩ := hp
        rw [← ht]
        simp
      exact List.dropWhile_cons_of_neg (by
        have := List.head?_dropWhile_not isSpace cs
        rw [hc] at this
        simpa using this)
  rw [trim, hd, trim, List.rdropWhile_idempotent]

/-- No white space anywhere. -/
def NoSpace (s : Bytes) : Prop := ∀ r ∈ runes s, r.isSpace = false

/-- An ASCII character that is neither white space nor a control character. -/
def Visible (b : UInt8) : Prop := 0x20 < b ∧ b < 0x7F

instance decidableVisible (b : UInt8) : Decidable (Visible b) :=
  inferInstanceAs (Decidable (0x20 < b ∧ b < 0x7F))

theorem noSpace_nil : NoSpace [] := by simp [NoSpace]

theorem NoSpace.cons {b : UInt8} {s : Bytes} (hb : Visible b) (hs : NoSpace s) :
    NoSpace (b::s) := by
  have hlo : 0x20 < b.toNat := hb.1
  have hhi : b.toNat < 0x7F := hb.2
  rw [NoSpace, runes_ascii (by omega)]
  intro r hr
  obtain rfl | hr := List.mem_cons.mp hr
  · exact isSpace_visible b.toNat hhi hlo
  · exact hs r hr

theorem noSpace_visible {s : Bytes} (h : ∀ b ∈ s, Visible b) : NoSpace s := by
  induction s with
  | nil => exact noSpace_nil
  | cons b s ih =>
    exact NoSpace.cons (h b (List.mem_cons_self ..)) (ih fun c hc => h c (List.mem_cons_of_mem b hc))

theorem runes_encode_append (cs : List Char) (s : Bytes) :
    runes (encode cs ++ s) = cs.map .char ++ runes s := by
  induction cs with
  | nil => rfl
  | cons c cs ih => rw [encode_cons, List.append_assoc, runes_char, ih, List.map_cons, List.cons_append]

theorem NoSpace.encode_append {cs : List Char} {s : Bytes} (hc : ∀ c ∈ cs, isSpace c = false)
    (hs : NoSpace s) : NoSpace (encode cs ++ s) := by
  rw [NoSpace, runes_encode_append]
  intro r hr
  obtain hr | hr := List.mem_append.mp hr
  · obtain ⟨c, hmem, rfl⟩ := List.mem_map.mp hr
    exact hc c hmem
  · exact hs r hr

/-- Where there is no white space there is nothing to trim. -/
theorem NoSpace.trimSpace {s : Bytes} (h : NoSpace s) : trimSpace s = s := by
  have hfront : (runes s).dropWhile Rune.isSpace = runes s := by
    rw [List.dropWhile_eq_self_iff]
    intro hl
    simp [h _ (List.getElem_mem hl)]
  have hback : (runes s).rdropWhile Rune.isSpace = runes s := by
    rw [List.rdropWhile_eq_self_iff]
    intro hne
    simp [h _ (List.getLast_mem hne)]
  rw [Utf8.trimSpace, hfront, hback, bytes_runes]

end Utf8
